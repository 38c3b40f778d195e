/-
**The order of map entries is canonical.**

Which criterion orders the entries of a map is decided by conditions on the whole list: whether all
keys compare directly, whether all may be asked and have a description, whether their compact texts
are wanted.  All of these are blind to the order in which the entries come.  Each criterion compares
entries by something that a key has by itself, and the sort is stable, so what comes out is the
input sorted by merging under the criterion; everything else follows from that.

Main definitions:

* `ValueLens.KeyOrder.Criterion`, `ValueLens.KeyOrder.criterion` — what decides the order;
* `ValueLens.KeyOrder.Criterion.order` — how a criterion compares two entries.

Main results:

* `ValueLens.KeyOrder.sort_result_eq` — **the entries are sorted by merging under the criterion**;
* `ValueLens.KeyOrder.filter_mergeSort` — what compares equal keeps its order;
* `ValueLens.KeyOrder.sort_canonical` — the order of entries is stable, and canonical where the
  criterion tells the keys apart.
-/
import Mathlib.Data.List.Sort
import ValueLens.Proofs.Completion
import ValueLens.Proofs.NaturalOrder

set_option relaxedAutoImplicit false
set_option autoImplicit false

namespace ValueLens.KeyOrder

/-! ### Stable sorting under a comparison -/

section Merging

variable {α : Type} {cmp : α → α → Ordering}

/-- What stands before or beside. -/
def before (cmp : α → α → Ordering) (a b : α) : Bool := cmp a b != .gt

theorem before_eq_isLE (a b : α) : before cmp a b = (cmp a b).isLE := by
  unfold before
  cases cmp a b with
  | _ => rfl

variable [Std.TransCmp cmp]

theorem before_trans (a b c : α) (hab : before cmp a b = true) (hbc : before cmp b c = true) :
    before cmp a c = true := by
  rw [before_eq_isLE] at hab hbc ⊢
  exact Std.TransCmp.isLE_trans hab hbc

theorem before_total (a b : α) : (before cmp a b || before cmp b a) = true := by
  rw [before_eq_isLE, before_eq_isLE, @Std.OrientedCmp.eq_swap _ cmp _ b]
  cases cmp a b with
  | _ => rfl

/-- **What compares equal keeps its order.** -/
theorem filter_mergeSort (xs : List α) (a : α) :
    (xs.mergeSort (before cmp)).filter (fun b => cmp a b == .eq) =
      xs.filter fun b => cmp a b == .eq := by
  have hclass : (xs.filter fun b => cmp a b == .eq).Pairwise fun x y => before cmp x y = true := by
    refine List.pairwise_of_forall_mem_list fun x hx y hy => ?_
    have hax : cmp a x = .eq := by simpa using (List.mem_filter.1 hx).2
    have hay : cmp a y = .eq := by simpa using (List.mem_filter.1 hy).2
    have hxa : cmp x a = .eq := by rw [@Std.OrientedCmp.eq_swap _ cmp, hax]; rfl
    exact before_trans x a y (by simp [before, hxa]) (by simp [before, hay])
  -- a class is in order already, so it is found in the result as it is
  have hsub := List.sublist_mergeSort before_trans before_total hclass List.filter_sublist
  have hfound := hsub.filter fun b => cmp a b == .eq
  simp only [List.filter_filter, Bool.and_self] at hfound
  have hperm := (List.mergeSort_perm xs (before cmp)).filter fun b => cmp a b == .eq
  exact (hfound.eq_of_length hperm.length_eq.symm).symm

/-- **Where all compare unequal, the input order does not matter.** -/
theorem mergeSort_eq_of_perm {xs ys : List α} (hp : ys.Perm xs)
    (hxs : xs.Pairwise fun a b => cmp a b ≠ .eq) :
    ys.mergeSort (before cmp) = xs.mergeSort (before cmp) := by
  have hall : (ys.mergeSort (before cmp)).Perm (xs.mergeSort (before cmp)) :=
    (List.mergeSort_perm ys _).trans (hp.trans (List.mergeSort_perm xs _).symm)
  refine hall.eq_of_pairwise ?_ (List.pairwise_mergeSort before_trans before_total ys)
    (List.pairwise_mergeSort before_trans before_total xs)
  intro a b ha hb hab hba
  -- two that stand before each other compare equal, and there are no such two
  have hequal : cmp a b = .eq := by
    rw [before_eq_isLE] at hab hba
    exact Std.OrientedCmp.isLE_antisymm hab hba
  by_contra hne
  have : Std.Symm fun a b => cmp a b ≠ .eq := by
    refine ⟨fun x y h => ?_⟩
    rw [@Std.OrientedCmp.eq_swap _ cmp]
    intro hswap
    exact h (Ordering.swap_eq_eq.1 hswap)
  have hmem {x : α} (hx : x ∈ xs.mergeSort (before cmp)) : x ∈ xs := List.mem_mergeSort.1 hx
  exact hxs.forall (hmem (hall.mem_iff.1 ha)) (hmem hb) hne hequal

end Merging

/-! ### Criteria -/

/-- **What decides the order of entries.** -/
inductive Criterion where
  /-- All keys compare directly. -/
  | natural
  /-- All keys may be asked and have a description. -/
  | described
  /-- The compact texts of the keys are wanted. -/
  | echoed
  /-- Nothing orders the entries. -/
  | kept
  deriving DecidableEq, Repr

/-- The criterion for a list of entries. -/
def criterion (s : Scene) (hookAllowed : Bool) (es : List Entry) : Criterion :=
  if ∀ e ∈ es, isSimple (s.graph.shape e.key) = true then .natural
  else if hookAllowed = true ∧ ∀ e ∈ es, (s.graph.node e.key).capability.text?.isSome = true then
    .described
  else if s.config.echoKeys then .echoed
  else .kept

/-- The description of a key, if it has one. -/
def description (g : Graph) (e : Entry) : String := (g.node e.key).capability.text?.getD ""

/-- The compact text of a key, if it has one. -/
def compactText (texts : NodeId → Trace String) (e : Entry) : String :=
  (texts e.key).result.getD ""

/-- **How a criterion compares two entries.** -/
def Criterion.order (s : Scene) (texts : NodeId → Trace String) :
    Criterion → Entry → Entry → Ordering
  | .natural, a, b => s.graph.compareKeys a.key b.key
  | .described, a, b => Ord.compare (description s.graph a) (description s.graph b)
  | .echoed, a, b => Ord.compare (compactText texts a) (compactText texts b)
  | .kept, _, _ => .eq

instance (s : Scene) (texts : NodeId → Trace String) (c : Criterion) :
    Std.TransCmp (c.order s texts) where
  eq_swap := by
    intro a b
    cases c with
    | natural => exact SortKey.compare_swap _ _
    | described => exact @Std.OrientedCmp.eq_swap String Ord.compare _ _ _
    | echoed => exact @Std.OrientedCmp.eq_swap String Ord.compare _ _ _
    | kept => rfl
  isLE_trans := by
    intro a b d hab hbd
    cases c with
    | natural => exact SortKey.compare_isLE_trans hab hbd
    | described => exact @Std.TransCmp.isLE_trans String Ord.compare _ _ _ _ hab hbd
    | echoed => exact @Std.TransCmp.isLE_trans String Ord.compare _ _ _ _ hab hbd
    | kept => rfl

variable {s : Scene} {texts : NodeId → Trace String} {hookAllowed : Bool} {es es' : List Entry}

/-- **The criterion does not depend on the order of the entries.** -/
theorem criterion_perm (h : es'.Perm es) :
    criterion s hookAllowed es' = criterion s hookAllowed es := by
  simp only [criterion, h.mem_iff]

/-! ### What comes out -/

theorem sortOn_keyed {κ : Type} (compare : κ → κ → Ordering) (key : Entry → κ) (es : List Entry) :
    sortOn compare (es.map fun e => (key e, e)) =
      es.mergeSort (before fun a b => compare (key a) (key b)) := by
  unfold sortOn
  rw [List.map_mergeSort (s := before fun a b => compare (key a) (key b))]
  · rw [List.map_map]
    exact congrArg (List.mergeSort · _) (List.map_id es)
  · intro a ha b hb
    obtain ⟨x, -, rfl⟩ := List.mem_map.1 ha
    obtain ⟨y, -, rfl⟩ := List.mem_map.1 hb
    rfl

theorem descriptions?_of_all {g : Graph}
    (h : ∀ e ∈ es, (g.node e.key).capability.text?.isSome = true) :
    (descriptions? g es).result = some (some (es.map fun e => (description g e, e))) := by
  induction es with
  | nil => rfl
  | cons e es ih =>
      obtain ⟨t, ht⟩ := Option.isSome_iff_exists.1 (h e (by simp))
      obtain ⟨-, hr⟩ := (g.node e.key).describe_quiet
      have hrest := ih fun x hx => h x (by simp [hx])
      unfold descriptions?
      rw [Trace.bind_of_some hr]
      simp only [ht]
      rw [Trace.bind_of_some hrest]
      simp [description, ht]

theorem echoes_of_all (h : ∀ e ∈ es, (texts e.key).result.isSome = true) :
    (echoes texts es).result = some (es.map fun e => (compactText texts e, e)) := by
  induction es with
  | nil => rfl
  | cons e es ih =>
      obtain ⟨t, ht⟩ := Option.isSome_iff_exists.1 (h e (by simp))
      have hrest := ih fun x hx => h x (by simp [hx])
      unfold echoes
      rw [Trace.bind_of_some ht, Trace.bind_of_some hrest]
      simp [compactText, ht]

/-- **The entries are sorted by merging under the criterion.**  Only compact texts may be missing,
and then there is no result. -/
theorem sort_result_eq
    (h : criterion s hookAllowed es = .echoed → ∀ e ∈ es, (texts e.key).result.isSome = true) :
    (sort s texts hookAllowed es).result =
      some (es.mergeSort (before ((criterion s hookAllowed es).order s texts))) := by
  unfold sort
  by_cases hsimple : ∀ e ∈ es, isSimple (s.graph.shape e.key) = true
  · have hnatural : criterion s hookAllowed es = .natural := by rw [criterion, if_pos hsimple]
    rw [if_pos (List.all_eq_true.2 hsimple), sortOn_keyed, hnatural]
    rfl
  · rw [if_neg (by simpa using hsimple), sortByText_eq]
    by_cases hdescribed : hookAllowed = true ∧
        ∀ e ∈ es, (s.graph.node e.key).capability.text?.isSome = true
    · have hcriterion : criterion s hookAllowed es = .described := by
        rw [criterion, if_neg hsimple, if_pos hdescribed]
      obtain ⟨rfl, hall⟩ := hdescribed
      have hasked : (asked s.graph true es).result = _ := descriptions?_of_all hall
      rw [Trace.bind_of_some hasked, settle, sortOn_keyed, hcriterion]
      rfl
    · have hasked : (asked s.graph hookAllowed es).result = some none := by
        rw [asked_eq_none_iff]
        intro hallowed
        simpa [hallowed] using hdescribed
      rw [Trace.bind_of_some hasked, settle]
      by_cases hecho : s.config.echoKeys = true
      · have hcriterion : criterion s hookAllowed es = .echoed := by
          rw [criterion, if_neg hsimple, if_neg hdescribed, if_pos hecho]
        rw [if_pos hecho, Trace.bind_of_some (echoes_of_all (h hcriterion)), sortOn_keyed,
          hcriterion]
        rfl
      · have hcriterion : criterion s hookAllowed es = .kept := by
          rw [criterion, if_neg hsimple, if_neg hdescribed, if_neg hecho]
        have hkept : es.mergeSort (before (Criterion.kept.order s texts)) = es :=
          List.mergeSort_of_pairwise (List.pairwise_of_forall_mem_list fun _ _ _ _ => rfl)
        rw [if_neg hecho, hcriterion, hkept]
        rfl

/-- The texts of the keys are needed if and only if they are the criterion. -/
theorem needsTexts_iff :
    NeedsTexts s hookAllowed es ↔ criterion s hookAllowed es = .echoed := by
  have hsimple : (∃ e ∈ es, isSimple (s.graph.shape e.key) = false) ↔
      ¬∀ e ∈ es, isSimple (s.graph.shape e.key) = true := by
    simp
  have hdescribed :
      (hookAllowed = true → ∃ e ∈ es, (s.graph.node e.key).capability.text? = none) ↔
        ¬(hookAllowed = true ∧
          ∀ e ∈ es, (s.graph.node e.key).capability.text?.isSome = true) := by
    simp
  rw [NeedsTexts, hsimple, hdescribed, criterion]
  split
  · next h => exact ⟨fun hneeds => absurd h hneeds.2.1, fun hc => by cases hc⟩
  · next h =>
      split
      · next h' => exact ⟨fun hneeds => absurd h' hneeds.2.2, fun hc => by cases hc⟩
      · next h' =>
          split
          · next hecho => exact ⟨fun _ => rfl, fun _ => ⟨hecho, h, h'⟩⟩
          · next hecho => exact ⟨fun hneeds => absurd hneeds.1 hecho, fun hc => by cases hc⟩

/-- **The order of entries is stable and canonical.**  Entries have an order unless compact texts
decide and one is missing.  The order is a permutation of the entries, it goes up under the
criterion, entries that compare equal keep their order, and without a criterion all of them do.
The criterion is the same for every arrangement of the entries, and so is the order, if the
criterion tells the keys apart. -/
theorem sort_canonical (s : Scene) (n : Nat) (hookAllowed : Bool) (es : List Entry) :
    let texts := Walk.echo (Walk.walk s n)
    let c := criterion s hookAllowed es
    ((sort s texts hookAllowed es).result.isSome = true ↔
        (c = .echoed → ∀ e ∈ es, (texts e.key).result.isSome = true)) ∧
      ∀ ordered, (sort s texts hookAllowed es).result = some ordered →
        ordered.Perm es ∧
        ordered.Pairwise (fun a b => (c.order s texts a b).isLE = true) ∧
        (∀ e, ordered.filter (fun x => c.order s texts e x == .eq) =
          es.filter fun x => c.order s texts e x == .eq) ∧
        (c = .kept → ordered = es) ∧
        ∀ es', es'.Perm es → criterion s hookAllowed es' = c ∧
          (es.Pairwise (fun a b => c.order s texts a b ≠ .eq) →
            (sort s texts hookAllowed es').result = some ordered) := by
  intro texts c
  have hends : (sort s texts hookAllowed es).result.isSome = true ↔
      (c = .echoed → ∀ e ∈ es, (texts e.key).result.isSome = true) := by
    rw [sort_isSome_iff, needsTexts_iff]
  refine ⟨hends, ?_⟩
  intro ordered hordered
  have htexts := hends.1 (by rw [hordered]; rfl)
  obtain rfl : es.mergeSort (before (c.order s texts)) = ordered := by
    rw [sort_result_eq htexts] at hordered
    exact Option.some.inj hordered
  refine ⟨List.mergeSort_perm _ _, ?_, filter_mergeSort es, ?_, ?_⟩
  · simp only [← before_eq_isLE]
    exact List.pairwise_mergeSort before_trans before_total es
  · intro hkept
    rw [hkept]
    exact List.mergeSort_of_pairwise (List.pairwise_of_forall_mem_list fun _ _ _ _ => rfl)
  · intro es' hperm
    refine ⟨criterion_perm hperm, fun hdistinct => ?_⟩
    have htexts' : criterion s hookAllowed es' = .echoed →
        ∀ e ∈ es', (texts e.key).result.isSome = true := by
      rw [criterion_perm hperm]
      intro hc e he
      exact htexts hc e (hperm.mem_iff.1 he)
    rw [sort_result_eq htexts', criterion_perm hperm, mergeSort_eq_of_perm hperm hdistinct]

/-- Three records as keys, which only their compact texts tell apart. -/
def guild : Scene where
  graph :=
    ⟨#[{ shape := .record [⟨"rank", 3, .exported⟩], typeName := "Guest" },
       { shape := .record [⟨"rank", 4, .exported⟩], typeName := "Guest" },
       { shape := .record [], typeName := "Clerk", capability := .panicked "gone" },
       { shape := .uint 7 8, typeName := "u8" },
       { shape := .uint 5 8, typeName := "u8" }]⟩
  config := { sortKeys := true, echoKeys := true, disableMethods := true }

/-- The entries of a map with these keys. -/
def guildEntries : List Entry := [⟨0, 3⟩, ⟨1, 4⟩, ⟨2, 3⟩]

/-- Two arrangements of the entries come out in one order, which is decided by the compact texts. -/
theorem guild_canonical :
    criterion guild false guildEntries = .echoed ∧
      ∃ ordered, (sort guild (Walk.echo (Walk.walk guild 3)) false guildEntries).result =
          some ordered ∧
        (sort guild (Walk.echo (Walk.walk guild 3)) false guildEntries.reverse).result =
          some ordered ∧
        ordered.Perm guildEntries := by
  obtain ⟨hends, hordered⟩ := sort_canonical guild 3 false guildEntries
  have hc : criterion guild false guildEntries = .echoed := by decide
  have htexts : ∀ e ∈ guildEntries,
      (Walk.echo (Walk.walk guild 3) e.key).result.isSome = true := by
    decide +kernel
  obtain ⟨ordered, hsort⟩ := Option.isSome_iff_exists.1 (hends.2 fun _ => htexts)
  obtain ⟨hperm, -, -, -, hcanonical⟩ := hordered ordered hsort
  obtain ⟨-, hsame⟩ := hcanonical guildEntries.reverse (List.reverse_perm _)
  refine ⟨hc, ordered, hsort, hsame ?_, hperm⟩
  rw [hc]
  decide +kernel

end ValueLens.KeyOrder
