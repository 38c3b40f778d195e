/-
**Renders come to an end.**

A graph may lead back to itself.  It is *grounded* if no value is a part of itself, so that every
cycle passes through an indirection; nothing else is asked of it, and several nodes may carry one
address.  On such a graph the walk ends whatever the depth limit.  Two quantities go down from a
value to what is below it, the first of them first: how many addresses of the graph are not on the
path, because a chain that leads to a value has opened at least one; and how many nodes a value
consists of, because a part consists of fewer.

Main definitions:

* `ValueLens.Shape.parts` — what a value consists of;
* `ValueLens.Graph.Grounded` — no value is a part of itself.

Main results:

* `ValueLens.Graph.Grounded.exists_rank` — parts have a smaller rank, and ranks are bounded by the
  size of the graph;
* `ValueLens.Walk.walk_stable` — with enough fuel a walk ends, and more fuel changes nothing;
* `ValueLens.Scene.result_isSome_of_grounded` — **renders of grounded graphs come to an end**.
-/
import Mathlib.Data.Finset.Card
import Mathlib.Logic.Relation
import Mathlib.Tactic.Linarith
import ValueLens.Proofs.Level

set_option relaxedAutoImplicit false
set_option autoImplicit false

namespace ValueLens

/-! ### Parts -/

/-- **What a value consists of.**  What an indirection leads to is no part of it. -/
def Shape.parts : Shape → List NodeId
  | .holder (some content) => [content]
  | .array q => q.items
  | .slice (some q) => q.items
  | .map (some es) => es.flatMap fun e => [e.key, e.value]
  | .record fields => fields.map Field.value
  | _ => []

/-- **A relation without cycles goes down in rank**, if it starts from finitely many numbers only:
the rank counts those among them that can be reached. -/
theorem exists_rank_of_acyclic {r : Nat → Nat → Prop} {size : Nat}
    (hsource : ∀ a b, r a b → a < size) (hr : ∀ a, ¬Relation.TransGen r a a) :
    ∃ rank : Nat → Nat, (∀ a, rank a ≤ size) ∧ ∀ a b, r a b → rank b < rank a := by
  classical
  let within (a : Nat) : Finset Nat :=
    (Finset.range size).filter fun other => Relation.ReflTransGen r a other
  refine ⟨fun a => (within a).card, ?_, ?_⟩
  · intro a
    calc (within a).card ≤ (Finset.range size).card := Finset.card_filter_le _ _
      _ = size := Finset.card_range _
  · intro a b hab
    refine Finset.card_lt_card (Finset.ssubset_iff_subset_ne.2 ⟨?_, ?_⟩)
    · intro other hother
      obtain ⟨hlt, hreach⟩ := Finset.mem_filter.1 hother
      exact Finset.mem_filter.2 ⟨hlt, Relation.ReflTransGen.head hab hreach⟩
    · intro heq
      have hself : a ∈ within a :=
        Finset.mem_filter.2 ⟨Finset.mem_range.2 (hsource a b hab), Relation.ReflTransGen.refl⟩
      rw [← heq] at hself
      -- a way back from `b` to `a` closes a cycle
      have hback : Relation.ReflTransGen r b a := (Finset.mem_filter.1 hself).2
      exact hr a (Relation.TransGen.head' hab hback)

namespace Graph

/-- A node and one of its parts. -/
def HasPart (g : Graph) (id child : NodeId) : Prop := child ∈ (g.shape id).parts

/-- **No value is a part of itself**: every cycle of the graph passes through an indirection. -/
def Grounded (g : Graph) : Prop := ∀ id, ¬Relation.TransGen g.HasPart id id

/-- Beyond the table nothing is valid. -/
theorem shape_of_size_le {g : Graph} {id : NodeId} (h : g.size ≤ id) : g.shape id = .invalid := by
  rw [shape, node, Array.getD_eq_getD_getElem?, Array.getElem?_eq_none h]
  rfl

/-- Only nodes of the table have parts. -/
theorem HasPart.lt_size {g : Graph} {id child : NodeId} (h : g.HasPart id child) : id < g.size := by
  by_contra hge
  simp [HasPart, shape_of_size_le (Nat.le_of_not_lt hge), Shape.parts] at h

/-- A rank that goes down from a node to its parts keeps every node from being a part of itself. -/
theorem Grounded.of_rank {g : Graph} (rank : NodeId → Nat)
    (h : ∀ id child, g.HasPart id child → rank child < rank id) : g.Grounded := by
  have hless : ∀ {a b}, Relation.TransGen g.HasPart a b → rank b < rank a := by
    intro a b hab
    induction hab with
    | single hpart => exact h _ _ hpart
    | tail _ hpart ih => exact lt_trans (h _ _ hpart) ih
  intro id hid
  exact lt_irrefl _ (hless hid)

/-- **In a grounded graph the parts of a node have a smaller rank**: the rank counts the nodes it
consists of, itself included. -/
theorem Grounded.exists_rank {g : Graph} (hg : g.Grounded) :
    ∃ rank : NodeId → Nat, (∀ id, rank id ≤ g.size) ∧
      ∀ id child, g.HasPart id child → rank child < rank id :=
  exists_rank_of_acyclic (fun _ _ hpart => hpart.lt_size) hg

end Graph

/-! ### The measure -/

namespace Walk

variable {s : Scene} {id child : NodeId} {f g : Frame}

/-- Below a value stands a part of it, or the end of a chain. -/
theorem Below.part_or_chain (h : Below s id f child g) :
    (s.graph.HasPart id child ∧ g.path = f.path ∧ g.held = f.held) ∨
      ((s.graph.shape id).isIndirection s.config = true ∧
        Chain.Follows s f.path id (Chain.links s id) (Chain.links s id) (.value child) ∧
        g = f.along (Chain.links s id) (Chain.locksBehind s id)) := by
  cases h with
  | held h => exact Or.inl ⟨by simp [Graph.HasPart, h, Shape.parts], rfl, rfl⟩
  | element h hchild =>
      rcases h with h | h
      · exact Or.inl ⟨by simpa [Graph.HasPart, h, Shape.parts] using hchild, rfl, rfl⟩
      · exact Or.inl ⟨by simpa [Graph.HasPart, h, Shape.parts] using hchild, rfl, rfl⟩
  | key h he =>
      refine Or.inl ⟨?_, rfl, rfl⟩
      simp only [Graph.HasPart, h, Shape.parts, List.mem_flatMap]
      exact ⟨_, he, by simp⟩
  | entry h he =>
      refine Or.inl ⟨?_, rfl, rfl⟩
      simp only [Graph.HasPart, h, Shape.parts, List.mem_flatMap]
      exact ⟨_, he, by simp⟩
  | field h hfd =>
      refine Or.inl ⟨?_, rfl, rfl⟩
      simp only [Graph.HasPart, h, Shape.parts, List.mem_map]
      exact ⟨_, hfd, rfl⟩
  | behind h hchain => exact Or.inr ⟨h, hchain, rfl⟩

/-- Nothing is below what has no parts and is no indirection. -/
theorem not_below_of_no_parts (hparts : (s.graph.shape id).parts = [])
    (hid : (s.graph.shape id).isIndirection s.config = false) : ¬Below s id f child g := by
  intro h
  rcases h.part_or_chain with ⟨hpart, -⟩ | ⟨hchain, -⟩
  · simp [Graph.HasPart, hparts] at hpart
  · simp [hid] at hchain

/-- Nothing is below a leaf. -/
theorem not_below_leaf (hleaf : (s.graph.shape id).isLeaf = true) {f g : Frame} {child : NodeId} :
    ¬Below s id f child g := by
  refine not_below_of_no_parts ?_ (isIndirection_of_leaf hleaf _)
  generalize s.graph.shape id = shape at hleaf
  cases shape with
  | array q => simp [Shape.isLeaf] at hleaf
  | slice q => simp [Shape.isLeaf] at hleaf
  | map es => simp [Shape.isLeaf] at hleaf
  | record fds => simp [Shape.isLeaf] at hleaf
  | holder content => simp [Shape.isLeaf] at hleaf
  | _ => rfl

/-- A chain that leads to a value has taken up room. -/
theorem Below.part_or_room (h : Below s id f child g) :
    (s.graph.HasPart id child ∧ g.path = f.path ∧ g.held = f.held) ∨
      s.graph.room g.path < s.graph.room f.path := by
  rcases h.part_or_chain with hpart | ⟨hid, hchain, rfl⟩
  · exact Or.inl hpart
  · right
    -- an indirection that leads to a value has a link, which the chain has opened
    have hlinks : 0 < (Chain.links s id).length := by
      obtain ⟨-, hleads⟩ := hchain.value child rfl
      generalize Chain.links s id = links at hleads
      cases hleads with
      | here hno => simp [hid] at hno
      | link _ _ => simp
    have hroom := hchain.room_le
    simp only [Frame.along]
    omega

/-- The fuel that a value needs: a full round of parts for every address that is not on the path,
and then its own parts. -/
def cost (g : Graph) (rank : NodeId → Nat) (path : List Address) (id : NodeId) : Nat :=
  g.room path * (g.size + 1) + rank id + 1

theorem Below.cost_lt {rank : NodeId → Nat} (hle : ∀ id, rank id ≤ s.graph.size)
    (hlt : ∀ id child, s.graph.HasPart id child → rank child < rank id)
    (h : Below s id f child g) :
    cost s.graph rank g.path child < cost s.graph rank f.path id := by
  unfold cost
  rcases h.part_or_room with ⟨hpart, hpath, -⟩ | hroom
  · rw [hpath]
    have := hlt id child hpart
    omega
  · have hchild := hle child
    have hround : (s.graph.room g.path + 1) * (s.graph.size + 1)
        ≤ s.graph.room f.path * (s.graph.size + 1) := Nat.mul_le_mul_right _ hroom
    rw [Nat.add_mul, Nat.one_mul] at hround
    omega

/-- What any value costs at most: a round of parts for every node, and one for its own. -/
theorem cost_le_square {rank : NodeId → Nat} (hle : ∀ id, rank id ≤ s.graph.size)
    (path : List Address) (id : NodeId) :
    cost s.graph rank path id ≤ (s.graph.size + 1) * (s.graph.size + 1) := by
  have hroom := s.graph.room_le_size path
  have hrank := hle id
  have hproduct : s.graph.room path * (s.graph.size + 1) ≤ s.graph.size * (s.graph.size + 1) :=
    Nat.mul_le_mul_right _ hroom
  rw [cost, Nat.add_mul]
  omega

/-- The fuel of a graph covers the cost of every value. -/
theorem cost_le_fuel {rank : NodeId → Nat} (hle : ∀ id, rank id ≤ s.graph.size)
    (path : List Address) (id : NodeId) : cost s.graph rank path id ≤ fuel s.graph := by
  calc cost s.graph rank path id ≤ (s.graph.size + 1) * (s.graph.size + 1) :=
        cost_le_square hle path id
    _ ≤ (s.graph.size + 2) ^ 2 := by
        rw [Nat.pow_two]
        exact Nat.mul_le_mul (by omega) (by omega)
    _ ≤ fuel s.graph := Nat.pow_le_pow_right (by omega) (by decide)

/-- **With enough fuel a walk ends, and more fuel changes nothing.**  No key is shown as text, so
that nothing but the levels below is run. -/
theorem walk_stable (hecho : ¬(s.config.sortKeys = true ∧ s.config.echoKeys = true))
    {rank : NodeId → Nat} (hle : ∀ id, rank id ≤ s.graph.size)
    (hlt : ∀ id child, s.graph.HasPart id child → rank child < rank id) (mode : Mode) :
    ∀ (n m : Nat) (id : NodeId) (f : Frame), cost s.graph rank f.path id ≤ n →
      cost s.graph rank f.path id ≤ m →
      (Bond.same True).Keeps f (walk s n mode id) (walk s m mode id) := by
  intro n
  induction n with
  | zero => intro m id f hn; exact absurd hn (by simp [cost])
  | succ n ih =>
      intro m id f hn hm
      obtain ⟨m, rfl⟩ : ∃ k, m = k + 1 := ⟨m - 1, by simp only [cost] at hm; omega⟩
      refine level_keeps ?_ (fun hsort hkeys => absurd ⟨hsort, hkeys⟩ hecho) fun _ a _ => rfl
      intro child g hbelow
      have hcost := hbelow.cost_lt hle hlt
      exact ih m child g (by omega) (by omega)

end Walk

/-- Looking into an array of keys needs no more fuel than the key has parts. -/
theorem SortKey.ofNode_stable {g : Graph} {rank : NodeId → Nat}
    (hlt : ∀ id child, g.HasPart id child → rank child < rank id) :
    ∀ (n m : Nat) (id : NodeId), rank id < n → rank id < m →
      SortKey.ofNode g n id = SortKey.ofNode g m id := by
  intro n
  induction n with
  | zero => intro m id hn; omega
  | succ n ih =>
      intro m id hn hm
      obtain ⟨m, rfl⟩ : ∃ k, m = k + 1 := ⟨m - 1, by omega⟩
      cases hs : g.shape id with
      | array q =>
          simp only [SortKey.ofNode, hs, SortKey.array.injEq]
          refine List.map_congr_left fun child hchild => ?_
          have hpart : g.HasPart id child := by simpa [Graph.HasPart, hs, Shape.parts] using hchild
          have := hlt id child hpart
          exact ih m child (by omega) (by omega)
      | _ => simp only [SortKey.ofNode, hs]

/-! ### Renders -/

namespace Scene

variable {s : Scene} {id : NodeId}

theorem size_le_fuel (s : Scene) : s.graph.size ≤ s.fuel := by
  calc s.graph.size ≤ (s.graph.size + 2) ^ 1 := by rw [Nat.pow_one]; omega
    _ ≤ Walk.fuel s.graph := Nat.pow_le_pow_right (by omega) (by decide)
    _ ≤ s.fuel := s.graph_fuel_le

/-- The fuel of a scene is at least one. -/
theorem exists_fuel_eq (s : Scene) : ∃ n, s.fuel = n + 1 := by
  have hpos : 0 < s.fuel := Nat.mul_pos (Nat.pow_pos (Nat.succ_pos _)) (Nat.succ_pos _)
  exact ⟨s.fuel - 1, by omega⟩

/-- A leaf is rendered whatever else is in the scene. -/
theorem render_leaf_isSome (hecho : s.config.echoKeys = false)
    (hleaf : (s.graph.shape id).isLeaf = true) (types details : Bool) :
    (s.render types details id).result.isSome := by
  obtain ⟨n, hn⟩ := s.exists_fuel_eq
  have hlevel : (Bond.same True).Keeps .start
      (Walk.walk s (n + 1) (.compact types details) id)
      (Walk.walk s (n + 1) (.compact types details) id) := by
    refine Walk.level_keeps (fun child g hbelow => ?_) (fun _ hkeys => ?_) fun _ _ _ => rfl
    · exact absurd hbelow (Walk.not_below_leaf hleaf)
    · simp [hecho] at hkeys
  have hend := (hlevel {} rfl).1.isSome trivial
  simpa [render, present, Trace.captured, hn] using hend

theorem render_leaf_congr {g : Graph} (hleaf : (s.graph.shape id).isLeaf = true)
    (hnode : s.graph.node id = g.node id) (types details : Bool) :
    s.render types details id = { s with graph := g }.render types details id := by
  obtain ⟨n, hn⟩ := s.exists_fuel_eq
  obtain ⟨m, hm⟩ := exists_fuel_eq { s with graph := g }
  unfold render present
  rw [hn, hm]
  simp only [Walk.walk]
  rw [Walk.level_leaf_congr hleaf hnode]

/-- A dump ends exactly if each of its values does. -/
theorem dump_isSome_iff {ids : List NodeId} :
    (s.dump ids).result.isSome = true ↔ ∀ id ∈ ids, (s.present .dump id).result.isSome = true := by
  have hstep {α : Type} (id : NodeId) (rest : Trace α) :
      (s.present .dump id >>= fun _ => rest).result.isSome = true ↔
        (s.present .dump id).result.isSome = true ∧ rest.result.isSome = true := by
    cases hr : (s.present .dump id).result with
    | none => simp [Trace.bind_of_none hr]
    | some u => simp [Trace.bind_of_some hr]
  induction ids with
  | nil => simp [dump]
  | cons id rest ih =>
      cases rest with
      | nil =>
          unfold dump
          rw [hstep]
          simp [Trace.write, Trace.emit]
      | cons next rest =>
          unfold dump
          rw [hstep, Trace.bind_of_some rfl, Trace.bind_of_some rfl]
          exact (and_congr_right fun _ => ih).trans (by simp)

theorem dump_isSome (h : ∀ id, (s.present .dump id).result.isSome) (ids : List NodeId) :
    (s.dump ids).result.isSome :=
  dump_isSome_iff.2 fun id _ => h id

/-- **Renders of grounded graphs come to an end.**  Under a configuration that does not order keys
by their compact texts, dumps and compact texts are always produced, and no larger amount of fuel
would have changed a render or what the order of keys sees of a key. -/
theorem result_isSome_of_grounded (s : Scene) (hg : s.graph.Grounded)
    (hecho : ¬(s.config.sortKeys = true ∧ s.config.echoKeys = true)) :
    (∀ ids, (s.dumpText ids).result.isSome) ∧
      (∀ types details id, (s.render types details id).result.isSome) ∧
      (∀ mode id n, Walk.fuel s.graph ≤ n →
        Render.fromStart (Walk.walk s n mode id) = s.present mode id) ∧
      ∀ key n, s.graph.size + 1 ≤ n →
        SortKey.ofNode s.graph n key = SortKey.ofNode s.graph (s.graph.size + 1) key := by
  obtain ⟨rank, hle, hlt⟩ := hg.exists_rank
  have hstable (mode : Mode) (id : NodeId) {n : Nat} (hn : Walk.fuel s.graph ≤ n) :
      (Bond.same True).Holds (Walk.walk s n mode id {})
        (Walk.walk s s.fuel mode id {}) := by
    have hcost := Walk.cost_le_fuel hle [] id
    have hkeeps := Walk.walk_stable hecho hle hlt mode n s.fuel id .start
      (Nat.le_trans hcost hn) (Nat.le_trans hcost s.graph_fuel_le)
    exact (hkeeps {} rfl).1
  have hpresent (mode : Mode) (id : NodeId) : (s.present mode id).result.isSome := by
    have hend := (hstable mode id s.graph_fuel_le).isSome trivial
    simpa [present] using hend
  refine ⟨?_, ?_, ?_, ?_⟩
  · intro ids
    simpa [dumpText, Trace.captured] using dump_isSome (hpresent .dump) ids
  · intro types details id
    simpa [render, Trace.captured] using hpresent (.compact types details) id
  · intro mode id n hn
    simp only [present, Render.fromStart, StateT.run']
    rw [(hstable mode id hn).of_same]
  · intro key n hn
    have hrank := hle key
    exact SortKey.ofNode_stable hlt n _ key (by omega) (by omega)

/-- A record that leads back to itself by a pointer and by a guard with one address, and a map whose
key is an array. -/
def tangle : Graph :=
  ⟨#[{ shape := .record [⟨"next", 1, .exported⟩, ⟨"lock", 2, .internal⟩], typeName := "Node" },
     { shape := .pointer 0x10 (some 3), typeName := "Link" },
     { shape := .guarded 0x10 (some 0) {}, typeName := "Lock" },
     { shape := .map (some [⟨4, 0⟩]), typeName := "Map" },
     { shape := .array (.ofItems [5]), typeName := "Key" },
     { shape := .uint 7 8, typeName := "Byte" }]⟩

theorem tangle_grounded : tangle.Grounded := by
  -- the map comes before the record and the key, and these before their parts
  refine Graph.Grounded.of_rank
    (fun id => if id = 3 then 2 else if id = 0 ∨ id = 4 then 1 else 0) ?_
  intro id child h
  have hid : id < 6 := h.lt_size
  have hall : ∀ id < 6, ∀ child ∈ (tangle.shape id).parts,
      (if child = 3 then 2 else if child = 0 ∨ child = 4 then 1 else 0)
        < (if id = 3 then 2 else if id = 0 ∨ id = 4 then 1 else 0) := by
    decide
  exact hall id hid child h

theorem tangle_result_isSome :
    tangle.Grounded ∧
      ((⟨tangle, { sortKeys := true }, false⟩ : Scene).dumpText [0, 3]).result.isSome ∧
      ((⟨tangle, { sortKeys := true }, false⟩ : Scene).render true true 1).result.isSome := by
  obtain ⟨hdump, hrender, -⟩ := result_isSome_of_grounded ⟨tangle, { sortKeys := true }, false⟩
    tangle_grounded (by simp)
  exact ⟨tangle_grounded, hdump _, hrender _ _ _⟩

end Scene

end ValueLens
