/-
**The natural order of keys is a total order.**

Numbers of three kinds are compared by value, across kinds by rounding the integer, and only a tie
needs the exact values.  This looks like a comparison that may run in circles.  It does not, because
it is the lexicographic order of three coordinates that every number has by itself: the place of its
double in the total order of doubles, its integer part, and the rank of its kind.  That integers
among themselves are compared directly makes no difference, because rounding keeps the order.

Keys of the other kinds are compared by contents, arrays element by element, and keys of different
kinds by kind.  So two keys compare equal if and only if they are the same key: the comparison is a
total order of keys, and a total preorder of values.  Values that are simple all the way down are
equal for it if and only if they have the same kinds and contents position by position.

Main definitions:

* `ValueLens.KeyNumber.coordinates` — what a number is compared by;
* `ValueLens.Graph.compareKeys` — the natural order of values;
* `ValueLens.Graph.Simple` — simple all the way down;
* `ValueLens.Graph.Matches` — the same kinds and contents position by position.

Main results:

* `ValueLens.KeyNumber.compare_eq_coordinates` — **numbers are compared by their coordinates**;
* `ValueLens.SortKey.compare_swap`, `ValueLens.SortKey.compare_isLE_trans`,
  `ValueLens.SortKey.compare_eq_iff` — keys are totally ordered;
* `ValueLens.Graph.compareKeys_total_preorder` — values are totally preordered, and which of them
  are equal.
-/
import Mathlib.Data.List.Forall2
import ValueLens.Proofs.Rounding
import ValueLens.Proofs.Termination

set_option relaxedAutoImplicit false
set_option autoImplicit false

namespace ValueLens

/-! ### Numbers -/

namespace KeyNumber

/-- **What a number is compared by**: the place of its double, its integer part, and its kind. -/
def coordinates : KeyNumber → List Int
  | .int z => [(Binary.ofInt z.toInt).place, z.toInt, 0]
  | .uint n => [(Binary.ofInt n.toNat).place, n.toNat, 1]
  | .float x => [x.place, x.truncate?.getD 0, 2]

/-- Integers are compared directly, but by their doubles first it would come out the same. -/
theorem compare_ofInt_then (z w : Int) :
    (Ord.compare (Binary.ofInt z).place (Binary.ofInt w).place).then (Ord.compare z w) =
      Ord.compare z w := by
  rcases Int.lt_trichotomy z w with hlt | rfl | hgt
  · rw [Int.compare_eq_lt.2 hlt]
    have hle := Binary.place_ofInt_mono (Int.le_of_lt hlt)
    cases hc : Ord.compare (Binary.ofInt z).place (Binary.ofInt w).place with
    | gt => exact absurd (Int.compare_eq_gt.1 hc) (by omega)
    | _ => rfl
  · simp
  · rw [Int.compare_eq_gt.2 hgt]
    have hle := Binary.place_ofInt_mono (Int.le_of_lt hgt)
    cases hc : Ord.compare (Binary.ofInt z).place (Binary.ofInt w).place with
    | lt => exact absurd (Int.compare_eq_lt.1 hc) (by omega)
    | _ => rfl

theorem compareIntFloat_eq (z : Int) (x : Double) :
    compareIntFloat z x =
      (Ord.compare (Binary.ofInt z).place x.place).then (Ord.compare z (x.truncate?.getD 0)) := by
  unfold compareIntFloat Binary.totalOrder
  cases Ord.compare (Binary.ofInt z).place x.place with
  | _ => rfl

/-- Doubles with one place are the same, so their integer parts decide nothing. -/
theorem totalOrder_then (x y : Double) :
    (x.totalOrder y).then (Ord.compare (x.truncate?.getD 0) (y.truncate?.getD 0)) =
      x.totalOrder y := by
  cases hc : x.totalOrder y with
  | eq =>
      obtain rfl := Binary.place_injective (Std.LawfulEqCmp.eq_of_compare hc)
      simp
  | _ => rfl

/-- The coordinates are compared one after another. -/
theorem compare_triple (a b c x y z : Int) :
    Ord.compare [a, b, c] [x, y, z] =
      ((Ord.compare a x).then (Ord.compare b y)).then (Ord.compare c z) := by
  simp only [List.compare_cons_cons, List.compare_nil_nil, Ordering.then_eq, Ordering.then_assoc]

/-- **Numbers are compared by their coordinates.** -/
theorem compare_eq_coordinates (a b : KeyNumber) :
    a.compare b = Ord.compare a.coordinates b.coordinates := by
  cases a with
  | int z =>
      cases b with
      | int w =>
          simp only [compare, compareValue, coordinates, compare_triple, compare_ofInt_then]
          rfl
      | uint n =>
          simp only [compare, compareValue, coordinates, compare_triple, compare_ofInt_then]
          rfl
      | float y =>
          simp only [compare, compareValue, coordinates, compare_triple, compareIntFloat_eq]
          rfl
  | uint m =>
      cases b with
      | int w =>
          simp only [compare, compareValue, coordinates, compare_triple, compare_ofInt_then]
          rfl
      | uint n =>
          have hcast : Ord.compare m.toNat n.toNat = Ord.compare (m.toNat : Int) n.toNat := by
            rcases Nat.lt_trichotomy m.toNat n.toNat with hlt | heq | hgt
            · rw [Nat.compare_eq_lt.2 hlt, Int.compare_eq_lt.2 (by omega)]
            · simp [heq]
            · rw [Nat.compare_eq_gt.2 hgt, Int.compare_eq_gt.2 (by omega)]
          simp only [compare, compareValue, coordinates, compare_triple, compare_ofInt_then, hcast]
          rfl
      | float y =>
          simp only [compare, compareValue, coordinates, compare_triple, compareIntFloat_eq]
          rfl
  | float x =>
      have hswap (z : Int) : (compareIntFloat z x).swap =
          (Ord.compare x.place (Binary.ofInt z).place).then
            (Ord.compare (x.truncate?.getD 0) z) := by
        rw [compareIntFloat_eq, Ordering.swap_then, ← Std.OrientedCmp.eq_swap,
          ← Std.OrientedCmp.eq_swap]
      cases b with
      | int w =>
          simp only [compare, compareValue, coordinates, compare_triple, hswap]
          rfl
      | uint n =>
          simp only [compare, compareValue, coordinates, compare_triple, hswap]
          rfl
      | float y =>
          have hplace := totalOrder_then x y
          simp only [Binary.totalOrder] at hplace
          simp only [compare, compareValue, coordinates, compare_triple, Binary.totalOrder, hplace]
          rfl

/-- The coordinates tell numbers apart. -/
theorem coordinates_injective {a b : KeyNumber} (h : a.coordinates = b.coordinates) : a = b := by
  cases a with
  | int z =>
      cases b with
      | int w =>
          simp only [coordinates, List.cons.injEq] at h
          rw [Int64.toInt_inj.1 h.2.1]
      | _ => simp [coordinates] at h
  | uint m =>
      cases b with
      | uint n =>
          simp only [coordinates, List.cons.injEq] at h
          have hvalue : m.toNat = n.toNat := by omega
          rw [UInt64.toNat_inj.1 hvalue]
      | _ => simp [coordinates] at h
  | float x =>
      cases b with
      | float y =>
          simp only [coordinates, List.cons.injEq] at h
          rw [Binary.place_injective h.1]
      | _ => simp [coordinates] at h

theorem compare_swap (a b : KeyNumber) : b.compare a = (a.compare b).swap := by
  rw [compare_eq_coordinates, compare_eq_coordinates]
  exact Std.OrientedCmp.eq_swap

theorem compare_isLE_trans {a b c : KeyNumber} (hab : (a.compare b).isLE = true)
    (hbc : (b.compare c).isLE = true) : (a.compare c).isLE = true := by
  rw [compare_eq_coordinates] at hab hbc ⊢
  exact Std.TransCmp.isLE_trans hab hbc

theorem compare_eq_iff {a b : KeyNumber} : a.compare b = .eq ↔ a = b := by
  rw [compare_eq_coordinates, Std.LawfulEqCmp.compare_eq_iff_eq]
  exact ⟨coordinates_injective, fun h => by rw [h]⟩

end KeyNumber

/-! ### Keys -/

namespace SortKey

/-- The elements of an array. -/
def items : SortKey → List SortKey
  | .array xs => xs
  | _ => []

/-- What holds of a key as soon as it holds of its elements holds of every key. -/
theorem of_items {P : SortKey → Prop} (h : ∀ a : SortKey, (∀ x ∈ a.items, P x) → P a) :
    ∀ a : SortKey, P a
  | .array xs => h (.array xs) fun x hx =>
      have hsize : sizeOf x < sizeOf (SortKey.array xs) :=
        Nat.lt_of_lt_of_le (List.sizeOf_lt_of_mem hx) (by simp [items])
      of_items h x
  | .bool _ | .number _ | .text _ | .handle _ | .other _ => h _ (by simp [items])
  termination_by a => sizeOf a
  decreasing_by exact hsize

/-- Keys of different kinds are compared by kind. -/
theorem compare_of_rank_ne {a b : SortKey} (h : a.rank ≠ b.rank) :
    a.compare b = Ord.compare a.rank b.rank := by
  cases a <;> cases b <;> first | exact absurd rfl h | simp only [compare]

theorem rank_le_of_isLE {a b : SortKey} (h : (a.compare b).isLE = true) : a.rank ≤ b.rank := by
  by_cases hrank : a.rank = b.rank
  · exact Nat.le_of_eq hrank
  · rw [compare_of_rank_ne hrank] at h
    exact Nat.isLE_compare.1 h

theorem compareList_swap {xs : List SortKey}
    (h : ∀ x ∈ xs, ∀ y, compare y x = (compare x y).swap) (ys : List SortKey) :
    compareList ys xs = (compareList xs ys).swap := by
  induction xs generalizing ys with
  | nil =>
      cases ys with
      | nil => simp [compareList]
      | cons y ys => simp [compareList]
  | cons x xs ih =>
      cases ys with
      | nil => simp [compareList]
      | cons y ys =>
          have htail := ih (fun z hz => h z (by simp [hz])) ys
          simp only [compareList, Ordering.swap_then, h x (by simp) y, htail]

/-- **Comparing in the other order gives the opposite.** -/
theorem compare_swap (a b : SortKey) : b.compare a = (a.compare b).swap := by
  induction a using of_items generalizing b with
  | _ a ih =>
  by_cases hrank : a.rank = b.rank
  · cases a <;> cases b <;> first | (simp [rank] at hrank; done) | simp only [compare]
    case array.array xs ys => exact compareList_swap ih ys
    case number.number x y => exact KeyNumber.compare_swap x y
    all_goals exact Std.OrientedCmp.eq_swap
  · rw [compare_of_rank_ne hrank, compare_of_rank_ne (Ne.symm hrank)]
    exact Std.OrientedCmp.eq_swap

theorem compareList_eq_iff {xs : List SortKey} (h : ∀ x ∈ xs, ∀ y, compare x y = .eq ↔ x = y)
    {ys : List SortKey} : compareList xs ys = .eq ↔ xs = ys := by
  induction xs generalizing ys with
  | nil =>
      cases ys with
      | nil => simp [compareList]
      | cons y ys => simp [compareList]
  | cons x xs ih =>
      cases ys with
      | nil => simp [compareList]
      | cons y ys =>
          have htail : compareList xs ys = .eq ↔ xs = ys := ih fun z hz => h z (by simp [hz])
          simp only [compareList, Ordering.then_eq_eq, h x (by simp) y, htail, List.cons.injEq]

/-- **Only the same keys compare equal.** -/
theorem compare_eq_iff {a b : SortKey} : a.compare b = .eq ↔ a = b := by
  induction a using of_items generalizing b with
  | _ a ih =>
  by_cases hrank : a.rank = b.rank
  · cases a <;> cases b <;> first | (simp [rank] at hrank; done) | simp only [compare]
    case array.array xs ys =>
      have hlist : compareList xs ys = .eq ↔ xs = ys := compareList_eq_iff fun x hx y => ih x hx
      rw [hlist, SortKey.array.injEq]
    case number.number x y => simp [KeyNumber.compare_eq_iff]
    case handle.handle x y => simp [UInt64.toNat_inj]
    all_goals simp
  · rw [compare_of_rank_ne hrank]
    constructor
    · intro h
      exact absurd (Nat.compare_eq_eq.1 h) hrank
    · rintro rfl
      exact absurd rfl hrank

/-- A smaller key stays smaller when what it is compared with grows. -/
theorem compare_lt_of_lt_of_isLE {a b c : SortKey}
    (htrans : (a.compare b).isLE = true → (b.compare c).isLE = true → (a.compare c).isLE = true)
    (hab : a.compare b = .lt) (hbc : (b.compare c).isLE = true) : a.compare c = .lt := by
  have hac := htrans (by simp [hab]) hbc
  cases h : a.compare c with
  | lt => rfl
  | gt => simp [h] at hac
  | eq =>
      -- then the last key is the first, which is smaller than the one in the middle
      obtain rfl := compare_eq_iff.1 h
      rw [compare_swap, hab] at hbc
      simp at hbc

theorem compareList_isLE_trans {xs : List SortKey}
    (h : ∀ x ∈ xs, ∀ y z, (compare x y).isLE = true → (compare y z).isLE = true →
      (compare x z).isLE = true)
    {ys zs : List SortKey} (hxy : (compareList xs ys).isLE = true)
    (hyz : (compareList ys zs).isLE = true) : (compareList xs zs).isLE = true := by
  induction xs generalizing ys zs with
  | nil =>
      cases zs with
      | nil => simp [compareList]
      | cons z zs => simp [compareList]
  | cons x xs ih =>
      cases ys with
      | nil => simp [compareList] at hxy
      | cons y ys =>
          cases zs with
          | nil => simp [compareList] at hyz
          | cons z zs =>
              simp only [compareList, Ordering.isLE_then_iff_or] at hxy hyz ⊢
              have hhead := h x (by simp) y z
              rcases hxy with hxy | ⟨hxy, hxs⟩
              · have hle : (compare y z).isLE = true := by
                  rcases hyz with hyz | ⟨hyz, -⟩
                  · simp [hyz]
                  · simp [hyz]
                exact Or.inl (compare_lt_of_lt_of_isLE hhead hxy hle)
              · obtain rfl := compare_eq_iff.1 hxy
                rcases hyz with hyz | ⟨hyz, hys⟩
                · exact Or.inl hyz
                · exact Or.inr ⟨hyz, ih (fun w hw => h w (by simp [hw])) hxs hys⟩

/-- **The order is transitive.** -/
theorem compare_isLE_trans {a b c : SortKey} (hab : (a.compare b).isLE = true)
    (hbc : (b.compare c).isLE = true) : (a.compare c).isLE = true := by
  induction a using of_items generalizing b c with
  | _ a ih =>
  have hrab := rank_le_of_isLE hab
  have hrbc := rank_le_of_isLE hbc
  by_cases hrank : a.rank = c.rank
  · -- all three are of one kind
    have hb : a.rank = b.rank := by omega
    cases a <;> cases b <;> first
      | (simp [rank] at hb; done)
      | cases c <;> first | (simp [rank] at hrank; done) | simp only [compare] at hab hbc ⊢
    case array.array.array xs ys zs =>
      exact compareList_isLE_trans (fun x hx y z => ih x hx) hab hbc
    case number.number.number x y z => exact KeyNumber.compare_isLE_trans hab hbc
    all_goals exact Std.TransCmp.isLE_trans hab hbc
  · rw [compare_of_rank_ne hrank]
    exact Nat.isLE_compare.2 (by omega)

end SortKey

/-! ### Values -/

namespace Graph

/-- **The natural order of values**, as maps are sorted by it. -/
def compareKeys (g : Graph) (a b : NodeId) : Ordering :=
  SortKey.compare (SortKey.ofNode g (g.size + 1) a) (SortKey.ofNode g (g.size + 1) b)

/-- An element of an array. -/
def HasItem (g : Graph) (id child : NodeId) : Prop :=
  ∃ q, g.shape id = .array q ∧ child ∈ q.items

/-- **Simple all the way down**: truth values, numbers, texts, handles, and arrays of such. -/
inductive Simple (g : Graph) : NodeId → Prop
  | mk {id : NodeId} (h : KeyOrder.isSimple (g.shape id) = true)
      (items : ∀ child, g.HasItem id child → Simple g child) : Simple g id

theorem Simple.of_parts {g : Graph} {id : NodeId} (h : KeyOrder.isSimple (g.shape id) = true)
    (hparts : ∀ child ∈ (g.shape id).parts, g.Simple child) : g.Simple id := by
  refine .mk h ?_
  rintro child ⟨q, hq, hchild⟩
  exact hparts child (by rw [hq]; exact hchild)

/-- **The same kinds and contents position by position.**  How wide a number is does not matter. -/
inductive Matches (g : Graph) : NodeId → NodeId → Prop
  | bool {a b : NodeId} {x : Bool} (ha : g.shape a = .bool x) (hb : g.shape b = .bool x) :
      Matches g a b
  | int {a b : NodeId} {z : Int64} {bits bits' : Nat} (ha : g.shape a = .int z bits)
      (hb : g.shape b = .int z bits') : Matches g a b
  | uint {a b : NodeId} {n : UInt64} {bits bits' : Nat} (ha : g.shape a = .uint n bits)
      (hb : g.shape b = .uint n bits') : Matches g a b
  | float {a b : NodeId} {x : Double} {width width' : FloatWidth}
      (ha : g.shape a = .float x width) (hb : g.shape b = .float x width') : Matches g a b
  | text {a b : NodeId} {t : String} (ha : g.shape a = .text t) (hb : g.shape b = .text t) :
      Matches g a b
  | handle {a b : NodeId} {x : Address} (ha : g.shape a = .handle x) (hb : g.shape b = .handle x) :
      Matches g a b
  | array {a b : NodeId} {p q : Sequence} (ha : g.shape a = .array p) (hb : g.shape b = .array q)
      (items : List.Forall₂ (Matches g) p.items q.items) : Matches g a b

/-- Simple all the way down, and no more than so many arrays deep. -/
def SimpleWithin (g : Graph) : Nat → NodeId → Prop
  | 0, _ => False
  | n + 1, id =>
      KeyOrder.isSimple (g.shape id) = true ∧ ∀ child, g.HasItem id child → g.SimpleWithin n child

/-- A simple value is no element of itself. -/
theorem Simple.not_inside {g : Graph} {id : NodeId} (h : g.Simple id) :
    ¬Relation.TransGen g.HasItem id id := by
  induction h with
  | mk _ _ ih =>
      intro hcycle
      obtain ⟨child, hchild, hback⟩ := Relation.TransGen.head'_iff.1 hcycle
      exact ih child hchild (Relation.TransGen.tail' hback hchild)

/-- The arrays around a value are different nodes of the graph, so there are no more of them than
nodes. -/
theorem length_le_size {g : Graph} {id : NodeId} {around : List NodeId} (hnodup : around.Nodup)
    (haround : ∀ x ∈ around, Relation.TransGen g.HasItem x id) : around.length ≤ g.size := by
  have hsubset : around.toFinset ⊆ Finset.range g.size := by
    intro x hx
    obtain ⟨child, ⟨q, hq, -⟩, -⟩ :=
      Relation.TransGen.head'_iff.1 (haround x (List.mem_toFinset.1 hx))
    rw [Finset.mem_range]
    by_contra hge
    rw [shape_of_size_le (Nat.le_of_not_lt hge)] at hq
    simp at hq
  have hcard := Finset.card_le_card hsubset
  rwa [List.toFinset_card_of_nodup hnodup, Finset.card_range] at hcard

/-- No array of a simple value goes deeper than the graph has nodes. -/
theorem Simple.within {g : Graph} {id : NodeId} (h : g.Simple id) :
    g.SimpleWithin (g.size + 1) id := by
  have hdeep : ∀ around : List NodeId, around.Nodup →
      (∀ x ∈ around, Relation.TransGen g.HasItem x id) →
      ∀ n, n + around.length = g.size + 1 → g.SimpleWithin n id := by
    induction h with
    | mk hsimple hitems ih =>
        rename_i id
        intro around hnodup haround n hn
        have hroom := length_le_size hnodup haround
        obtain ⟨n, rfl⟩ : ∃ k, n = k + 1 := ⟨n - 1, by omega⟩
        refine ⟨hsimple, fun child hchild => ?_⟩
        -- the value itself is new among the arrays around its elements
        have hnew : id ∉ around := fun hid => (Simple.mk hsimple hitems).not_inside (haround id hid)
        refine ih child hchild (id :: around) (List.nodup_cons.2 ⟨hnew, hnodup⟩) ?_ n ?_
        · intro x hx
          rcases List.mem_cons.1 hx with rfl | hx
          · exact Relation.TransGen.single hchild
          · exact (haround x hx).tail hchild
        · rw [List.length_cons]
          omega
  exact hdeep [] List.nodup_nil (by simp) (g.size + 1) rfl

/-- The elements of two arrays are seen alike if and only if they match in pairs. -/
theorem map_ofNode_eq_iff {g : Graph} {n : Nat} {xs ys : List NodeId}
    (h : ∀ x ∈ xs, ∀ y ∈ ys, SortKey.ofNode g n x = SortKey.ofNode g n y ↔ g.Matches x y) :
    xs.map (SortKey.ofNode g n) = ys.map (SortKey.ofNode g n) ↔
      List.Forall₂ (Matches g) xs ys := by
  rw [← List.forall₂_eq_eq_eq, List.forall₂_map_left_iff, List.forall₂_map_right_iff,
    List.forall₂_iff_zip, List.forall₂_iff_zip]
  refine and_congr_right fun _ => ⟨fun hzip x y hxy => ?_, fun hzip x y hxy => ?_⟩
  · obtain ⟨hx, hy⟩ := List.of_mem_zip hxy
    exact (h x hx y hy).1 (hzip hxy)
  · obtain ⟨hx, hy⟩ := List.of_mem_zip hxy
    exact (h x hx y hy).2 (hzip hxy)

/-- What the natural order sees of two simple values is the same if and only if they match. -/
theorem ofNode_eq_iff {g : Graph} {n : Nat} {a b : NodeId} (ha : g.SimpleWithin n a)
    (hb : g.SimpleWithin n b) : SortKey.ofNode g n a = SortKey.ofNode g n b ↔ g.Matches a b := by
  induction n generalizing a b with
  | zero => exact ha.elim
  | succ n ih =>
      have hitems {p q : Sequence} (hp : g.shape a = .array p) (hq : g.shape b = .array q) :
          p.items.map (SortKey.ofNode g n) = q.items.map (SortKey.ofNode g n) ↔
            List.Forall₂ (Matches g) p.items q.items :=
        map_ofNode_eq_iff fun x hx y hy => ih (ha.2 x ⟨p, hp, hx⟩) (hb.2 y ⟨q, hq, hy⟩)
      constructor
      · intro h
        cases hs : g.shape a with
        | bool x =>
            cases ht : g.shape b <;> simp [SortKey.ofNode, hs, ht] at h
            exact .bool hs (by rw [ht, h])
        | int z bits =>
            cases ht : g.shape b <;> simp [SortKey.ofNode, hs, ht] at h
            exact .int hs (by rw [ht, h])
        | uint m bits =>
            cases ht : g.shape b <;> simp [SortKey.ofNode, hs, ht] at h
            exact .uint hs (by rw [ht, h])
        | float x width =>
            cases ht : g.shape b <;> simp [SortKey.ofNode, hs, ht] at h
            exact .float hs (by rw [ht, h])
        | text t =>
            cases ht : g.shape b <;> simp [SortKey.ofNode, hs, ht] at h
            exact .text hs (by rw [ht, h])
        | handle x =>
            cases ht : g.shape b <;> simp [SortKey.ofNode, hs, ht] at h
            exact .handle hs (by rw [ht, h])
        | array p =>
            cases ht : g.shape b with
            | array q =>
                simp only [SortKey.ofNode, hs, ht, SortKey.array.injEq] at h
                exact .array hs ht ((hitems hs ht).1 h)
            | _ => simp [SortKey.ofNode, hs, ht] at h
        | _ => simp [SimpleWithin, hs, KeyOrder.isSimple] at ha
      · intro h
        cases h with
        | array hs ht hpairs =>
            simp only [SortKey.ofNode, hs, ht, SortKey.array.injEq]
            exact (hitems hs ht).2 hpairs
        | bool hs ht => simp only [SortKey.ofNode, hs, ht]
        | int hs ht => simp only [SortKey.ofNode, hs, ht]
        | uint hs ht => simp only [SortKey.ofNode, hs, ht]
        | float hs ht => simp only [SortKey.ofNode, hs, ht]
        | text hs ht => simp only [SortKey.ofNode, hs, ht]
        | handle hs ht => simp only [SortKey.ofNode, hs, ht]

/-- **The natural order is a total preorder of values.**  Every value equals itself, the other order
gives the opposite, and the order is transitive; two values that are simple all the way down are
equal if and only if they have the same kinds and contents position by position. -/
theorem compareKeys_total_preorder (g : Graph) :
    (∀ a, g.compareKeys a a = .eq) ∧
      (∀ a b, g.compareKeys b a = (g.compareKeys a b).swap) ∧
      (∀ a b c, (g.compareKeys a b).isLE = true → (g.compareKeys b c).isLE = true →
        (g.compareKeys a c).isLE = true) ∧
      ∀ a b, g.Simple a → g.Simple b → (g.compareKeys a b = .eq ↔ g.Matches a b) := by
  refine ⟨?_, ?_, ?_, ?_⟩
  · intro a
    exact SortKey.compare_eq_iff.2 rfl
  · intro a b
    exact SortKey.compare_swap _ _
  · intro a b c hab hbc
    exact SortKey.compare_isLE_trans hab hbc
  · intro a b ha hb
    rw [compareKeys, SortKey.compare_eq_iff]
    exact ofNode_eq_iff ha.within hb.within

/-- Numbers around the end of the integers that doubles tell apart, alone and in arrays. -/
def brink : Graph :=
  ⟨#[{ shape := .int 9007199254740992 64, typeName := "i64" },
     { shape := .float ⟨false, ⟨1076 * 2 ^ 52, by decide⟩⟩ .double, typeName := "f64" },
     { shape := .uint 9007199254740993 64, typeName := "u64" },
     { shape := .array (.ofItems [1, 0]), typeName := "Pair" },
     { shape := .array (.ofItems [1, 2]), typeName := "Pair" }]⟩

/-- The three numbers have one double but are in order, and so are pairs of them. -/
theorem brink_in_order :
    brink.compareKeys 0 1 = .lt ∧ brink.compareKeys 1 2 = .lt ∧
      (brink.compareKeys 0 2).isLE = true ∧
      brink.Simple 3 ∧ brink.Simple 4 ∧ ¬brink.Matches 3 4 ∧ brink.compareKeys 3 4 = .lt := by
  obtain ⟨-, -, htrans, hequal⟩ := compareKeys_total_preorder brink
  have hnumber {id : NodeId} (h : KeyOrder.isSimple (brink.shape id) = true)
      (hparts : (brink.shape id).parts = []) : brink.Simple id :=
    .of_parts h (by simp [hparts])
  have hpair {id : NodeId} {a b : NodeId} (hs : brink.shape id = .array (.ofItems [a, b]))
      (ha : brink.Simple a) (hb : brink.Simple b) : brink.Simple id := by
    refine .of_parts (by rw [hs]; rfl) ?_
    simp [hs, Shape.parts, Sequence.ofItems, ha, hb]
  have h01 : brink.compareKeys 0 1 = .lt := by decide +kernel
  have h12 : brink.compareKeys 1 2 = .lt := by decide +kernel
  have h34 : brink.compareKeys 3 4 = .lt := by decide +kernel
  have h3 : brink.Simple 3 := hpair rfl (hnumber rfl rfl) (hnumber rfl rfl)
  have h4 : brink.Simple 4 := hpair rfl (hnumber rfl rfl) (hnumber rfl rfl)
  refine ⟨h01, h12, htrans 0 1 2 (by rw [h01]; rfl) (by rw [h12]; rfl), h3, h4, ?_, h34⟩
  rw [← hequal 3 4 h3 h4, h34]
  decide

end Graph

end ValueLens
