/-
**Scenes while locks are held.**

Who comes while locks are held finds the same graph, but for the guards that keep others out: these
are busy.  Nothing else of a value changes, so what does not look at guards sees no difference.
Locks that are held already are as good as held twice, and it does not matter in which order they
were acquired.

Main results:

* `ValueLens.Graph.shape_holding` — the shape of a node while locks are held;
* `ValueLens.Scene.holding_holding` — locks on top of locks;
* `ValueLens.Chain.free_of_mem_locksBehind` — what is acquired has not been held;
* `ValueLens.Walk.byteView?_holding` — byte buffers are the same.
-/
import ValueLens.Proofs.Termination

set_option relaxedAutoImplicit false
set_option autoImplicit false

namespace ValueLens

/-! ### Shapes -/

namespace Shape

variable (held : List Address) (shape : Shape)

@[simp] theorem toByte?_holding : (shape.holding held).toByte? = shape.toByte? := by
  cases shape with
  | _ => rfl

@[simp] theorem parts_holding : (shape.holding held).parts = shape.parts := by
  cases shape with
  | _ => rfl

@[simp] theorem isSimple_holding :
    KeyOrder.isSimple (shape.holding held) = KeyOrder.isSimple shape := by
  cases shape with
  | _ => rfl

/-- A shape that is no guard is what it was. -/
theorem holding_eq_self (h : ∀ a content lock, shape ≠ .guarded a content lock) :
    shape.holding held = shape := by
  cases shape with
  | guarded a content lock => exact absurd rfl (h a content lock)
  | _ => rfl

@[simp] theorem holding_nil : shape.holding [] = shape := by
  cases shape with
  | guarded a content lock => simp [holding, Lock.during]
  | _ => rfl

theorem holding_holding (more : List Address) :
    (shape.holding held).holding more = shape.holding (more ++ held) := by
  cases shape with
  | guarded a content lock =>
      simp only [holding, Lock.during, List.contains_append, Bool.and_or_distrib_left,
        Bool.or_assoc]
      rw [Bool.or_comm (lock.exclusive && held.contains a)]
  | _ => rfl

end Shape

/-! ### Graphs -/

namespace Graph

variable (g : Graph) (held : List Address)

@[simp] theorem size_holding : (g.holding held).size = g.size := by simp [size, holding]

@[simp] theorem node_holding (id : NodeId) :
    (g.holding held).node id = { g.node id with shape := (g.shape id).holding held } := by
  simp only [shape, node, holding, Array.getD_eq_getD_getElem?, List.getElem?_toArray,
    List.getElem?_map, Array.getElem?_toList]
  cases g.nodes[id]? with
  | none => rfl
  | some n => rfl

@[simp] theorem shape_holding (id : NodeId) :
    (g.holding held).shape id = (g.shape id).holding held := by
  rw [shape, node_holding]

@[simp] theorem typeName_holding (id : NodeId) : (g.holding held).typeName id = g.typeName id := by
  rw [typeName, node_holding, typeName]

theorem ext_node {g₁ g₂ : Graph} (hsize : g₁.size = g₂.size)
    (h : ∀ id, g₁.node id = g₂.node id) : g₁ = g₂ := by
  cases g₁ with
  | mk nodes₁ =>
      cases g₂ with
      | mk nodes₂ =>
          congr
          refine Array.ext hsize fun id h₁ h₂ => ?_
          simpa [node, Array.getD_eq_getD_getElem?, h₁, h₂] using h id

@[simp] theorem holding_nil : g.holding [] = g :=
  ext_node (g.size_holding []) fun id => by simp [shape]

theorem holding_holding (more : List Address) :
    (g.holding held).holding more = g.holding (more ++ held) :=
  ext_node (by simp) fun id => by simp [Shape.holding_holding]

@[simp] theorem hasPart_holding : (g.holding held).HasPart = g.HasPart := by
  funext id child
  simp [HasPart]

end Graph

/-! ### Scenes -/

namespace Scene

variable (s : Scene) (held : List Address)

@[simp] theorem holding_nil : s.holding [] = s := by simp [holding]

theorem holding_holding (more : List Address) :
    (s.holding held).holding more = s.holding (more ++ held) := by
  simp [holding, Graph.holding_holding]

@[simp] theorem graph_holding : (s.holding held).graph = s.graph.holding held := rfl

@[simp] theorem config_holding : (s.holding held).config = s.config := rfl

@[simp] theorem hatchOpen_holding : (s.holding held).hatchOpen = s.hatchOpen := rfl

end Scene

/-! ### Locks that are acquired -/

namespace Chain

variable {s : Scene}

/-- A chain holds exclusive locks of guards that were free. -/
theorem exists_guard_of_mem_locksFrom {n : Nat} {id : NodeId} {a : Address}
    (h : a ∈ locksFrom s n id) : ∃ guard content lock,
      s.graph.shape guard = .guarded a content lock ∧ lock.exclusive = true ∧
        lock.busy = false := by
  induction n generalizing id with
  | zero => simp [locksFrom] at h
  | succ n ih =>
      cases hl : link? s id with
      | none => simp [locksFrom_of_none hl] at h
      | some next =>
          obtain ⟨b, _ | next⟩ := next
          · simp [locksFrom, hl] at h
          · rw [locksFrom_of_next hl] at h
            rcases List.mem_append.1 h with h | h
            · exact ih h
            · cases hs : s.graph.shape id with
              | guarded b content lock =>
                  have hlock : lock.exclusive = true ∧ a = b := by
                    simpa [lockAt, hs, Lock.holds] using h
                  obtain ⟨hexclusive, rfl⟩ := hlock
                  refine ⟨id, content, lock, hs, hexclusive, ?_⟩
                  -- a guard that is busy is the end of its chain
                  obtain ⟨exclusive, busy⟩ := lock
                  cases busy with
                  | false => rfl
                  | true => simp [link?, hs, Shape.acquire?] at hl
              | _ => simp [lockAt, hs] at h

/-- **What is acquired has not been held.** -/
theorem free_of_mem_locksBehind {held : List Address} {id : NodeId} {a : Address}
    (h : a ∈ locksBehind (s.holding held) id) : a ∈ s.graph.addresses ∧ a ∉ held := by
  obtain ⟨guard, content, lock, hs, hexclusive, hfree⟩ := exists_guard_of_mem_locksFrom h
  rw [Scene.graph_holding, Graph.shape_holding] at hs
  cases hs' : s.graph.shape guard with
  | guarded b content' lock' =>
      simp only [hs', Shape.holding, Shape.guarded.injEq] at hs
      obtain ⟨rfl, -, rfl⟩ := hs
      have haddress : (s.graph.shape guard).address? = some b := by
        rw [hs']
        rfl
      refine ⟨Graph.mem_addresses haddress, fun hheld => ?_⟩
      have hexclusive' : lock'.exclusive = true := hexclusive
      simp [Lock.during, hexclusive', hheld] at hfree
  | _ => simp [hs', Shape.holding] at hs

end Chain

/-- The natural order sees no difference in a key. -/
@[simp] theorem SortKey.ofNode_holding (g : Graph) (held : List Address) (n : Nat) (key : NodeId) :
    SortKey.ofNode (g.holding held) n key = SortKey.ofNode g n key := by
  induction n generalizing key with
  | zero => simp [SortKey.ofNode]
  | succ n ih =>
      cases hs : g.shape key with
      | array q => simp [SortKey.ofNode, hs, Shape.holding, ih]
      | _ => simp [SortKey.ofNode, hs, Shape.holding]

namespace Walk

@[simp] theorem itemBytes?_holding (g : Graph) (held : List Address) (items : List NodeId) :
    itemBytes? (g.holding held) items = itemBytes? g items := by
  simp [itemBytes?]

/-- Byte buffers are the same while locks are held. -/
@[simp] theorem byteView?_holding (s : Scene) (held : List Address) (q : Sequence) :
    byteView? (s.holding held) q = byteView? s q := by
  have hstarts : startsWithByte (s.holding held) q = startsWithByte s q := by
    unfold startsWithByte
    cases q.items with
    | nil => rfl
    | cons first rest =>
        simp only [Scene.graph_holding, Graph.shape_holding, Graph.typeName_holding,
          Scene.config_holding]
        cases s.graph.shape first with
        | _ => rfl
  simp only [byteView?, hstarts, Scene.hatchOpen_holding, Scene.graph_holding, itemBytes?_holding]

end Walk

end ValueLens
