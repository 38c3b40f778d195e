/-
**Keys whose texts need themselves.**

The order of a map may depend on the compact texts of its keys.  Each of them is a render of its
own, which starts from an empty path and knows nothing of the render that asks for it, but for the
locks that this one holds: a guard that keeps others out is closed to it.  On a grounded graph the
addresses on the path keep every single render from going in circles, but not one render within
another: if a key leads back to its map, the text of the key asks for the order of the map, and
that for the text of the key.

So on a grounded graph a render comes to an end exactly if no key whose text it comes to ask for
needs its own text while the same locks are held.  Where that is so, what is asked for has a rank:
each text acquires locks that have not been held, or asks on while the same ones are held, and then
for a key of a lower rank.  One round of levels for each rank is enough.

Main definitions:

* `ValueLens.Walk.Asking` — the text of a key, while locks are held;
* `ValueLens.Walk.Asks` — a render asks for the text of a key;
* `ValueLens.Walk.Circles` — a render comes to a key whose text needs itself.

Main results:

* `ValueLens.Walk.not_circles_of_ends` — a walk that ends comes to no such key;
* `ValueLens.Walk.ends_of_not_circles` — on a grounded graph any other walk ends, on the fuel of the
  graph;
* `ValueLens.Scene.renders_end_iff_no_key_needs_itself` — **when renders come to an end**.
-/
import ValueLens.Proofs.Completion
import ValueLens.Proofs.Holding

set_option relaxedAutoImplicit false
set_option autoImplicit false

namespace ValueLens

namespace Walk

variable {s : Scene} {mode : Mode}

/-- One walk runs another below it; a walk is given by its value and the frame it starts in. -/
def Runs (s : Scene) (mode : Mode) (p q : NodeId × Frame) : Prop := Visits s mode p.1 p.2 q.1 q.2

/-- **A text that is asked for**: that of a key, while the locks of some addresses are held. -/
structure Asking where
  held : List Address
  key : NodeId

/-- **A render that comes while locks are held asks for the text of a key**, for the order of a map
that it shows.  The locks that it has acquired itself on the way to the map are held as well. -/
def Asks (s : Scene) (mode : Mode) (held : List Address) (root : NodeId) (a : Asking) : Prop :=
  ∃ p, Relation.ReflTransGen (Runs (s.holding held) mode) (root, .start) p ∧
    Echoed (s.holding held) p.1 p.2 a.key ∧ a.held = p.2.held ++ held

/-- The text of one key asks for the text of another. -/
def Needs (s : Scene) (a : Asking) : Asking → Prop := Asks s (.compact true false) a.held a.key

/-- A text that is asked for by a render, or by another such text. -/
def Involved (s : Scene) (mode : Mode) (root : NodeId) (a : Asking) : Prop :=
  ∃ first, Asks s mode [] root first ∧ Relation.ReflTransGen (Needs s) first a

/-- **A render comes to a key whose text needs itself**, while the same locks are held. -/
def Circles (s : Scene) (mode : Mode) (root : NodeId) : Prop :=
  ∃ a, Involved s mode root a ∧ Relation.TransGen (Needs s) a a

/-- The render of a key that gives its text comes to an end. -/
def Asking.Ends (s : Scene) (n : Nat) (a : Asking) : Prop :=
  Walk.Ends (s.holding a.held) (.compact true false) n a.key {}

/-! ### A walk that ends -/

/-- The walks that a walk runs need no more fuel than itself. -/
theorem Ends.of_runs {n : Nat} {p q : NodeId × Frame} (h : Ends s mode n p.1 (p.2.state false))
    (hpq : Relation.ReflTransGen (Runs s mode) p q) :
    ∃ m ≤ n, Ends s mode m q.1 (q.2.state false) := by
  induction hpq with
  | refl => exact ⟨n, le_rfl, h⟩
  | tail _ hrun ih =>
      obtain ⟨m, hm, hend⟩ := ih
      cases m with
      | zero => exact absurd hend (not_ends_zero _ _)
      | succ m => exact ⟨m, by omega, (ends_succ_iff.1 hend).1 _ _ hrun⟩

/-- The text of a key needs less fuel than the render that asks for it. -/
theorem Ends.of_asks {n : Nat} {held : List Address} {root : NodeId} {a : Asking}
    (h : Ends (s.holding held) mode n root {}) (hasks : Asks s mode held root a) :
    ∃ m < n, a.Ends s m := by
  obtain ⟨p, hruns, hkey, hheld⟩ := hasks
  obtain ⟨m, hm, hend⟩ := Ends.of_runs (p := (root, .start)) h hruns
  cases m with
  | zero => exact absurd hend (not_ends_zero _ _)
  | succ m =>
      have htext := (ends_succ_iff.1 hend).2 a.key hkey
      rw [Scene.holding_holding, ← hheld] at htext
      exact ⟨m, by omega, htext⟩

theorem Asking.Ends.of_needs {n : Nat} {a b : Asking} (h : a.Ends s n)
    (hneeds : Relation.TransGen (Needs s) a b) : ∃ m < n, b.Ends s m := by
  induction hneeds with
  | single hasks => exact Walk.Ends.of_asks h hasks
  | tail _ hasks ih =>
      obtain ⟨m, hm, hend⟩ := ih
      obtain ⟨m', hm', hend'⟩ := Walk.Ends.of_asks hend hasks
      exact ⟨m', by omega, hend'⟩

/-- A text that needs itself does not end, because it would end on less and less fuel. -/
theorem not_ends_of_needs_itself {a : Asking} (h : Relation.TransGen (Needs s) a a) (n : Nat) :
    ¬a.Ends s n := by
  induction n using Nat.strong_induction_on with
  | _ n ih =>
      intro hend
      obtain ⟨m, hm, hend'⟩ := hend.of_needs h
      exact ih m hm hend'

/-- **A walk that ends comes to no key whose text needs itself.** -/
theorem not_circles_of_ends {n : Nat} {root : NodeId} (h : Ends s mode n root {}) :
    ¬Circles s mode root := by
  rintro ⟨a, ⟨first, hasks, hneeds⟩, hself⟩
  have hroot : Ends (s.holding []) mode n root {} := by rwa [Scene.holding_nil]
  obtain ⟨m, -, hend⟩ := hroot.of_asks hasks
  rcases Relation.reflTransGen_iff_eq_or_transGen.1 hneeds with rfl | hneeds
  · exact not_ends_of_needs_itself hself m hend
  · obtain ⟨m', -, hend'⟩ := hend.of_needs hneeds
    exact not_ends_of_needs_itself hself m' hend'

/-! ### A walk without circles -/

/-- The text of a number without a node asks for nothing. -/
theorem Asks.lt_size {held : List Address} {root : NodeId} {a : Asking}
    (h : Asks s mode held root a) : root < s.graph.size := by
  by_contra hge
  have hshape : (s.holding held).graph.shape root = .invalid :=
    Graph.shape_of_size_le (by simpa using hge)
  have hplain {f g : Frame} {child : NodeId} : ¬Below (s.holding held) root f child g :=
    not_below_of_no_parts (by rw [hshape]; rfl) (by rw [hshape]; rfl)
  obtain ⟨p, hruns, ⟨es, hs, -⟩, -⟩ := h
  rcases Relation.ReflTransGen.cases_head hruns with rfl | ⟨q, hrun, -⟩
  · rw [hshape] at hs
    cases hs
  · exact hplain hrun.2

/-- The locks that a render acquires are addresses of the graph that have not been held. -/
theorem free_of_runs {held : List Address} {p q : NodeId × Frame}
    (h : Relation.ReflTransGen (Runs (s.holding held) mode) p q)
    (hp : ∀ x ∈ p.2.held, x ∈ s.graph.addresses ∧ x ∉ held) :
    ∀ x ∈ q.2.held, x ∈ s.graph.addresses ∧ x ∉ held := by
  induction h with
  | refl => exact hp
  | tail _ hrun ih =>
      rcases hrun.2.part_or_chain with ⟨-, -, hheld⟩ | ⟨-, -, hframe⟩
      · rwa [hheld]
      · intro x hx
        rw [hframe] at hx
        rcases List.mem_append.1 hx with hx | hx
        · exact Chain.free_of_mem_locksBehind hx
        · exact ih x hx

/-- A text is asked for while the same locks are held, or there is less room for further ones. -/
theorem Asks.held_or_room {held : List Address} {root : NodeId} {a : Asking}
    (h : Asks s mode held root a) : a.held = held ∨ s.graph.room a.held < s.graph.room held := by
  obtain ⟨p, hruns, -, hheld⟩ := h
  cases hacquired : p.2.held with
  | nil => exact Or.inl (by simp [hheld, hacquired])
  | cons x rest =>
      right
      have hx : x ∈ p.2.held := by simp [hacquired]
      obtain ⟨hin, hnew⟩ := free_of_runs hruns (by simp [Frame.start]) x hx
      have hsubset : x :: held ⊆ a.held := by
        rw [hheld]
        exact List.cons_subset.2 ⟨List.mem_append_left _ hx, List.subset_append_right _ _⟩
      exact Nat.lt_of_le_of_lt (Graph.room_le_of_subset hsubset) (Graph.room_cons_lt hin hnew)

/-- **Texts without circles have a rank** that goes down from a text to those that it asks for. -/
theorem exists_asking_rank {root : NodeId} (h : ¬Circles s mode root) :
    ∃ order : Asking → Nat, (∀ a, order a < (s.graph.size + 1) * (s.graph.size + 1)) ∧
      ∀ a b, Involved s mode root a → Needs s a b → order b < order a := by
  have hacyclic (held : List Address) (key : NodeId) : ¬Relation.TransGen
      (fun key other => Involved s mode root ⟨held, key⟩ ∧ Needs s ⟨held, key⟩ ⟨held, other⟩)
      key key := by
    intro hcycle
    obtain ⟨other, hfirst, -⟩ := Relation.TransGen.head'_iff.1 hcycle
    exact h ⟨⟨held, key⟩, hfirst.1, hcycle.lift (Asking.mk held) fun _ _ hneeds => hneeds.2⟩
  -- keys are ranked for each set of locks by itself, and those come first that leave less room
  choose rank hle hdown using fun held =>
    exists_rank_of_acyclic (fun key other hneeds => hneeds.2.lt_size) (hacyclic held)
  refine ⟨fun a => s.graph.room a.held * (s.graph.size + 1) + rank a.held a.key, ?_, ?_⟩
  · intro a
    have hroom := s.graph.room_le_size a.held
    have hrank := hle a.held a.key
    have hproduct := Nat.mul_le_mul_right (s.graph.size + 1) hroom
    rw [Nat.succ_mul s.graph.size]
    dsimp only
    omega
  · rintro ⟨held, key⟩ ⟨held', other⟩ hkey hneeds
    rcases hneeds.held_or_room with hheld | hroom
    · obtain rfl : held' = held := hheld
      have hless := hdown held' key other ⟨hkey, hneeds⟩
      dsimp only
      omega
    · have hrank := hle held' other
      have hproduct := Nat.mul_le_mul_right (s.graph.size + 1) (Nat.succ_le_of_lt hroom)
      rw [Nat.succ_mul] at hproduct
      dsimp only at hproduct ⊢
      omega

section Grounded

variable {rank : NodeId → Nat} (hle : ∀ id, rank id ≤ s.graph.size)
  (hlt : ∀ id child, s.graph.HasPart id child → rank child < rank id)

include hle hlt

/-- **A walk ends if the texts it asks for do**, on as much more fuel as its value costs. -/
theorem ends_of_texts {k : Nat} (c : Nat) (p : NodeId × Frame)
    (hcost : cost s.graph rank p.2.path p.1 ≤ c)
    (hkeys : ∀ q, Relation.ReflTransGen (Runs s mode) p q → ∀ key, Echoed s q.1 q.2 key →
      Ends (s.holding q.2.held) (.compact true false) k key {}) :
    Ends s mode (k + c) p.1 (p.2.state false) := by
  induction c generalizing p with
  | zero => exact absurd hcost (by simp [cost])
  | succ c ih =>
      refine ends_succ_iff.2 ⟨?_, ?_⟩
      · intro child g hvisits
        have hrun : Runs s mode p (child, g) := hvisits
        have hless : cost s.graph rank g.path child < cost s.graph rank p.2.path p.1 :=
          hvisits.2.cost_lt hle hlt
        refine ih (child, g) (Nat.le_of_lt_succ (Nat.lt_of_lt_of_le hless hcost)) ?_
        exact fun q hruns => hkeys q (.head hrun hruns)
      · exact fun key hkey => (hkeys p .refl key hkey).mono (Nat.le_add_right k c)

/-- A render ends if the texts it asks for do, on a round of levels more. -/
theorem ends_of_asked {k : Nat} {held : List Address} {root : NodeId}
    (hkeys : ∀ a, Asks s mode held root a → a.Ends s k) :
    Ends (s.holding held) mode (k + (s.graph.size + 1) * (s.graph.size + 1)) root {} := by
  -- locks that are held change neither the size of the graph nor the parts of a value
  have hle' : ∀ id, rank id ≤ (s.holding held).graph.size := by simpa using hle
  have hlt' : ∀ id child, (s.holding held).graph.HasPart id child → rank child < rank id := by
    simpa using hlt
  refine ends_of_texts hle' hlt' _ (root, .start) ?_ fun q hruns key hkey => ?_
  · simpa using cost_le_square hle' Frame.start.path root
  · rw [Scene.holding_holding]
    exact hkeys ⟨q.2.held ++ held, key⟩ ⟨q, hruns, hkey, rfl⟩

/-- **A walk that comes to no key whose text needs itself ends.**  A text needs a round of levels
for each rank up to its own. -/
theorem ends_of_not_circles {root : NodeId} (h : ¬Circles s mode root) :
    Ends s mode (fuel s.graph) root {} := by
  obtain ⟨order, horder, hdown⟩ := exists_asking_rank h
  have htexts (k : Nat) : ∀ a, Involved s mode root a → order a < k →
      a.Ends s (k * ((s.graph.size + 1) * (s.graph.size + 1))) := by
    induction k with
    | zero => exact fun a _ hk => absurd hk (Nat.not_lt_zero _)
    | succ k ih =>
        intro a ha hk
        rw [Nat.succ_mul]
        refine ends_of_asked hle hlt fun b hneeds => ih b ?_ ?_
        · obtain ⟨first, hasks, hfirst⟩ := ha
          exact ⟨first, hasks, hfirst.tail hneeds⟩
        · have hless := hdown a b ha hneeds
          omega
  have hkeys : ∀ a, Asks s mode [] root a → a.Ends s _ := fun a hasks =>
    htexts _ a ⟨a, hasks, .refl⟩ (horder a)
  have hroot := ends_of_asked hle hlt hkeys
  rw [Scene.holding_nil] at hroot
  refine hroot.mono ?_
  calc (s.graph.size + 1) * (s.graph.size + 1) * ((s.graph.size + 1) * (s.graph.size + 1)) +
        (s.graph.size + 1) * (s.graph.size + 1)
      ≤ (s.graph.size + 2) ^ 4 := by nlinarith
    _ = fuel s.graph := rfl

end Grounded

/-- What stands behind a chain is below it. -/
theorem below_of_chain {id v : NodeId} {f : Frame}
    (hid : (s.graph.shape id).isIndirection s.config = true)
    (hwalk : (Chain.walk s (Chain.fuel s.graph) {} id (f.state false)).result.map
      (fun r => r.1.2) = some (.value v)) :
    Below s id f v (f.along (Chain.links s id) (Chain.locksBehind s id)) := by
  obtain ⟨chain, link, new, hr, -, -, hf, -⟩ := Chain.walk_follows s (Chain.fuel s.graph) {} id
    (f.state false) (Chain.room_lt_fuel _ _)
  obtain rfl : link = .value v := by simpa [hr] using hwalk
  exact .behind hid ((link_eq_value_iff hf).1 rfl)

end Walk

/-! ### Renders -/

namespace Scene

open Walk

/-- **When renders come to an end.**  On a grounded graph, under every configuration, a dump or a
compact text is produced exactly if it comes to no key whose text needs itself while the same locks
are held; and where it is not produced, no amount of fuel is enough. -/
theorem renders_end_iff_no_key_needs_itself (s : Scene) (hg : s.graph.Grounded) :
    (∀ ids, (s.dumpText ids).result.isSome = true ↔ ∀ id ∈ ids, ¬Circles s .dump id) ∧
      (∀ types details id, (s.render types details id).result.isSome = true ↔
        ¬Circles s (.compact types details) id) ∧
      ∀ mode id, (∃ n, Ends s mode n id {}) ↔ ¬Circles s mode id := by
  obtain ⟨rank, hle, hlt⟩ := hg.exists_rank
  have hends (mode : Mode) (id : NodeId) : Ends s mode s.fuel id {} ↔ ¬Circles s mode id :=
    ⟨not_circles_of_ends, fun h => (ends_of_not_circles hle hlt h).mono s.graph_fuel_le⟩
  refine ⟨?_, ?_, ?_⟩
  · intro ids
    rw [dumpText_isSome_iff]
    simp only [hends]
  · intro types details id
    rw [render_isSome_iff, hends]
  · intro mode id
    refine ⟨?_, fun h => ⟨_, ends_of_not_circles hle hlt h⟩⟩
    rintro ⟨n, hend⟩
    exact not_circles_of_ends hend

/-- A map whose only key is a pointer back to the map.  The key may describe itself. -/
def mirror (description : Capability) : Scene where
  graph :=
    ⟨#[{ shape := .map (some [⟨1, 2⟩]), typeName := "Map" },
       { shape := .pointer 0x10 (some 0), typeName := "Key", capability := description },
       { shape := .int 1 64, typeName := "Int" }]⟩
  config := { sortKeys := true, echoKeys := true }

theorem mirror_grounded (description : Capability) : (mirror description).graph.Grounded := by
  refine Graph.Grounded.of_rank (fun id => if id = 0 then 1 else 0) ?_
  intro id child h
  match id with
  | 0 =>
      obtain rfl | rfl : child = 1 ∨ child = 2 := by
        simpa [Graph.HasPart, Graph.shape, Graph.node, mirror, Shape.parts] using h
      · simp
      · simp
  | 1 => simp [Graph.HasPart, Graph.shape, Graph.node, mirror, Shape.parts] at h
  | 2 => simp [Graph.HasPart, Graph.shape, Graph.node, mirror, Shape.parts] at h
  | id + 3 =>
      have hid : id + 3 < 3 := h.lt_size
      exact absurd hid (Nat.not_lt.2 (Nat.le_add_left 3 id))

/-- A key without a description needs its own text. -/
theorem mirror_circles (mode : Mode) : Circles (mirror .absent) mode 0 := by
  have hechoed (path : List Address) : Echoed (mirror .absent) 0 ⟨path, 0, false, []⟩ 1 := by
    refine ⟨[⟨1, 2⟩], rfl, ⟨rfl, rfl⟩, rfl, ⟨rfl, ?_, ?_⟩, ⟨1, 2⟩, by simp, rfl⟩
    · exact ⟨⟨1, 2⟩, by simp, rfl⟩
    · exact fun _ => ⟨⟨1, 2⟩, by simp, rfl⟩
  have hasks : Asks (mirror .absent) mode [] 0 ⟨[], 1⟩ := ⟨(0, .start), .refl, hechoed [], rfl⟩
  -- from the key the chain leads to the map, and the order of the map asks for the key again
  have hneeds : Needs (mirror .absent) ⟨[], 1⟩ ⟨[], 1⟩ := by
    have hbelow : Below (mirror .absent) 1 .start 0
        (Frame.start.along (Chain.links (mirror .absent) 1)
          (Chain.locksBehind (mirror .absent) 1)) := below_of_chain rfl (by decide)
    exact ⟨(0, _), .single ⟨trivial, hbelow⟩, hechoed _, rfl⟩
  exact ⟨⟨[], 1⟩, ⟨⟨[], 1⟩, hasks, .refl⟩, .single hneeds⟩

/-- A key with a description is ordered by it, and no text is needed. -/
theorem mirror_not_circles (t : String) (mode : Mode) : ¬Circles (mirror (.text t)) mode 0 := by
  rintro ⟨-, ⟨first, ⟨p, -, ⟨es, hs, -, -, ⟨-, -, hdescribed⟩, -⟩, -⟩, -⟩, -⟩
  have hes : es = [⟨1, 2⟩] := by
    match hp : p.1 with
    | 0 =>
        rw [hp] at hs
        exact (Option.some.inj (Shape.map.inj hs)).symm
    | 1 => simp [hp, Graph.shape, Graph.node, mirror] at hs
    | 2 => simp [hp, Graph.shape, Graph.node, mirror] at hs
    | id + 3 =>
        rw [hp, Graph.shape_of_size_le (Nat.le_add_left 3 id)] at hs
        simp at hs
  subst hes
  have hhook : (p.2.state false).hookAllowed (mirror (.text t)) = true := by
    simp [RenderState.hookAllowed, mirror]
  obtain ⟨e, he, hnone⟩ := hdescribed hhook
  obtain rfl := List.mem_singleton.1 he
  simp [Graph.node, mirror, Capability.text?] at hnone

/-- A guard over a map whose only key leads back to the guard. -/
def strongroom (lock : Lock) : Scene where
  graph :=
    ⟨#[{ shape := .guarded 0x10 (some 1) lock, typeName := "Lock" },
       { shape := .map (some [⟨2, 3⟩]), typeName := "Map" },
       { shape := .record [⟨"lock", 0, .exported⟩], typeName := "Key" },
       { shape := .int 1 64, typeName := "Int" }]⟩
  config := { sortKeys := true, echoKeys := true }

theorem strongroom_parts (lock : Lock) (id : NodeId) :
    ((strongroom lock).graph.shape id).parts = ((strongroom {}).graph.shape id).parts := by
  rcases id with _ | _ | _ | _ | id <;> rfl

theorem strongroom_grounded (lock : Lock) : (strongroom lock).graph.Grounded := by
  refine Graph.Grounded.of_rank (fun id => if id = 1 then 2 else if id = 2 then 1 else 0) ?_
  intro id child h
  have hid : id < 4 := h.lt_size
  have hall : ∀ id < 4, ∀ child ∈ ((strongroom {}).graph.shape id).parts,
      (if child = 1 then 2 else if child = 2 then 1 else 0) <
        if id = 1 then 2 else if id = 2 then 1 else 0 := by
    decide
  exact hall id hid child (strongroom_parts lock id ▸ h)

/-- A lock that lets others in keeps no text from needing itself. -/
theorem strongroom_circles (mode : Mode) : Circles (strongroom {}) mode 0 := by
  have hrun {m : Mode} {depth : Nat} :
      Runs (strongroom {}) m (0, ⟨[], depth, false, []⟩) (1, ⟨[0x10], depth, false, []⟩) :=
    ⟨trivial, below_of_chain rfl rfl⟩
  have hechoed {depth : Nat} : Echoed (strongroom {}) 1 ⟨[0x10], depth, false, []⟩ 2 := by
    refine ⟨[⟨2, 3⟩], rfl, ⟨rfl, rfl⟩, rfl, ⟨rfl, ?_, ?_⟩, ⟨2, 3⟩, by simp, rfl⟩
    · exact ⟨⟨2, 3⟩, by simp, rfl⟩
    · exact fun _ => ⟨⟨2, 3⟩, by simp, rfl⟩
  have hasks : Asks (strongroom {}) mode [] 0 ⟨[], 2⟩ := ⟨_, .single hrun, hechoed, rfl⟩
  have hneeds : Needs (strongroom {}) ⟨[], 2⟩ ⟨[], 2⟩ := by
    let fd : Field := ⟨"lock", 0, .exported⟩
    have hfield : Below (strongroom {}) 2 .start fd.value (Frame.start.deeper.within fd) :=
      .field rfl (List.mem_singleton.2 rfl)
    have hinto : Runs (strongroom {}) (.compact true false) (2, .start)
        (0, Frame.start.deeper.within fd) := ⟨⟨rfl, rfl⟩, hfield⟩
    exact ⟨_, .tail (.single hinto) hrun, hechoed, rfl⟩
  exact ⟨⟨[], 2⟩, ⟨⟨[], 2⟩, hasks, .refl⟩, .single hneeds⟩

/-- The map stands behind its lock and nowhere else. -/
theorem strongroom_below {lock : Lock} {id : NodeId} {f g : Frame}
    (h : Below (strongroom lock) id f 1 g) :
    lock.busy = false ∧ g.held = lock.holds 0x10 ++ f.held := by
  rcases h.part_or_chain with ⟨hpart, -⟩ | ⟨hid, hchain, rfl⟩
  · have hid : id < 4 := hpart.lt_size
    have hall : ∀ id < 4, 1 ∉ ((strongroom {}).graph.shape id).parts := by decide
    exact absurd (strongroom_parts lock id ▸ hpart) (hall id hid)
  · obtain rfl : id = 0 := by
      rcases id with _ | _ | _ | _ | id
      · rfl
      all_goals cases hid
    obtain ⟨exclusive, busy⟩ := lock
    cases busy with
    | false => exact ⟨rfl, by cases exclusive <;> rfl⟩
    | true =>
        -- a guard that is busy leads nowhere
        generalize Chain.links (strongroom ⟨exclusive, true⟩) 0 = links at hchain
        cases (hchain.value 1 rfl).2 with
        | link hl _ => cases hl

/-- **A text is asked for behind the lock**, which is free before and held then. -/
theorem strongroom_asks {mode : Mode} {held : List Address} {root : NodeId} {a : Asking}
    (h : Asks (strongroom { exclusive := true }) mode held root a) (hroot : root ≠ 1) :
    (0x10 : Address) ∉ held ∧ (0x10 : Address) ∈ a.held ∧ a.key = 2 := by
  have hscene : (strongroom { exclusive := true }).holding held =
      strongroom ⟨true, held.contains 0x10⟩ := rfl
  obtain ⟨p, hruns, ⟨es, hs, -, -, -, e, he, hkey⟩, hheld⟩ := h
  rw [hscene] at hruns hs
  have hmap : p.1 = 1 ∧ es = [⟨2, 3⟩] := by
    match hp : p.1 with
    | 1 =>
        rw [hp] at hs
        exact ⟨rfl, (Option.some.inj (Shape.map.inj hs)).symm⟩
    | 0 => simp [hp, Graph.shape, Graph.node, strongroom] at hs
    | 2 => simp [hp, Graph.shape, Graph.node, strongroom] at hs
    | 3 => simp [hp, Graph.shape, Graph.node, strongroom] at hs
    | id + 4 =>
        rw [hp, Graph.shape_of_size_le (Nat.le_add_left 4 id)] at hs
        simp at hs
  obtain ⟨hp, rfl⟩ := hmap
  obtain rfl := List.mem_singleton.1 he
  rcases Relation.ReflTransGen.cases_tail hruns with hstart | ⟨q, -, -, hbelow⟩
  · rw [hstart] at hp
    exact absurd hp hroot
  · rw [hp] at hbelow
    obtain ⟨hfree, hlocks⟩ := strongroom_below hbelow
    refine ⟨by simpa using hfree, ?_, hkey.symm⟩
    rw [hheld, hlocks]
    exact List.mem_append_left _ List.mem_cons_self

/-- A lock that keeps others out is closed to the texts, which ask for nothing then. -/
theorem strongroom_not_circles (mode : Mode) :
    ¬Circles (strongroom { exclusive := true }) mode 0 := by
  have hnone {a b : Asking} (hheld : (0x10 : Address) ∈ a.held) (hkey : a.key = 2) :
      ¬Needs (strongroom { exclusive := true }) a b :=
    fun hneeds => (strongroom_asks hneeds (by simp [hkey])).1 hheld
  rintro ⟨a, ⟨first, hasks, hneeds⟩, hself⟩
  obtain ⟨-, hheld, hkey⟩ := strongroom_asks hasks (by decide)
  rcases Relation.ReflTransGen.cases_head hneeds with rfl | ⟨b, hneeds, -⟩
  · obtain ⟨b, hneeds, -⟩ := Relation.TransGen.head'_iff.1 hself
    exact hnone hheld hkey hneeds
  · exact hnone hheld hkey hneeds

/-- A key that leads back to its map needs its own text, unless it describes itself; and so does one
that leads back through a lock, unless that is closed to it. -/
theorem mirror_renders :
    ((mirror .absent).graph.Grounded ∧ ((mirror .absent).dumpText [0]).result = none ∧
      ((mirror .absent).render false false 0).result = none ∧
      ∀ n, ¬Ends (mirror .absent) .dump n 0 {}) ∧
    ((mirror (.text "self")).graph.Grounded ∧
      ((mirror (.text "self")).dumpText [0]).result.isSome = true ∧
      ((mirror (.text "self")).render false false 0).result.isSome = true) ∧
    ((strongroom {}).graph.Grounded ∧ ((strongroom {}).dumpText [0]).result = none) ∧
    (strongroom { exclusive := true }).graph.Grounded ∧
      ((strongroom { exclusive := true }).dumpText [0]).result.isSome = true := by
  obtain ⟨hdump, hrender, hends⟩ := renders_end_iff_no_key_needs_itself _ (mirror_grounded .absent)
  obtain ⟨hdump', hrender', -⟩ :=
    renders_end_iff_no_key_needs_itself _ (mirror_grounded (.text "self"))
  obtain ⟨hshared, -, -⟩ := renders_end_iff_no_key_needs_itself _ (strongroom_grounded {})
  obtain ⟨hexclusive, -, -⟩ :=
    renders_end_iff_no_key_needs_itself _ (strongroom_grounded { exclusive := true })
  have hsingle {P : NodeId → Prop} (h : P 0) : ∀ id ∈ [0], P id := by simpa using h
  refine ⟨⟨mirror_grounded _, ?_, ?_, ?_⟩, ⟨mirror_grounded _, ?_, ?_⟩,
    ⟨strongroom_grounded _, ?_⟩, strongroom_grounded _, ?_⟩
  · rw [← Option.not_isSome_iff_eq_none, hdump]
    exact fun h => h 0 (by simp) (mirror_circles _)
  · rw [← Option.not_isSome_iff_eq_none, hrender]
    exact fun h => h (mirror_circles _)
  · exact fun n hend => (hends .dump 0).1 ⟨n, hend⟩ (mirror_circles _)
  · exact (hdump' [0]).2 (hsingle (mirror_not_circles _ _))
  · exact (hrender' false false 0).2 (mirror_not_circles _ _)
  · rw [← Option.not_isSome_iff_eq_none, hshared]
    exact fun h => h 0 (by simp) (strongroom_circles _)
  · exact (hexclusive [0]).2 (hsingle (strongroom_not_circles _))

end Scene

end ValueLens
