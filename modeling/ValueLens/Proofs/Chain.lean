/-
**What a chain of indirections does to the path.**

Seen apart from any render, the indirections from a node on form a list of addresses, which only the
graph and the configuration decide.  A chain follows this list and opens one address after another.
It stops at the first that is on the path or was opened before: then it closes a cycle, and it does
so for no other reason.  If it comes to a value it has opened the whole list.  Every address it
opens belongs to the graph and is new, so a chain always comes to an end, and taking the opened
addresses off again gives the path from which it started.

Main definitions:

* `ValueLens.Chain.link?` — the indirection at a node, with its address and what stands behind it;
* `ValueLens.Chain.links`, `ValueLens.Chain.locksBehind` — the addresses of the indirections from a
  node on, and of the locks that are held behind them;
* `ValueLens.Chain.closing?` — the first of a list of addresses that comes again;
* `ValueLens.Graph.room` — how many addresses of a graph are not on a path.

Main results:

* `ValueLens.Chain.closing?_eq_some_iff` — the first address that comes again, without recursion;
* `ValueLens.Chain.walk_outcome` — **a chain ends, and how**;
* `ValueLens.RenderState.leave_opened` — leaving undoes opening.
-/
import ValueLens.Proofs.Run
import ValueLens.Render.Chain

set_option relaxedAutoImplicit false
set_option autoImplicit false

namespace ValueLens

/-! ### The addresses of a graph -/

/-- The address of an indirection. -/
def Shape.address? : Shape → Option Address
  | .pointer a _ => some a
  | .guarded a _ _ => some a
  | _ => none

namespace Graph

/-- The addresses of the indirections of a graph. -/
def addresses (g : Graph) : List Address :=
  g.nodes.toList.filterMap fun n => n.shape.address?

theorem mem_addresses {g : Graph} {id : NodeId} {a : Address}
    (h : (g.shape id).address? = some a) : a ∈ g.addresses := by
  rw [shape, node, Array.getD_eq_getD_getElem?] at h
  cases hn : g.nodes[id]? with
  | none => simp [hn, missing, Shape.address?] at h
  | some n =>
      rw [hn, Option.getD_some] at h
      have hmem : n ∈ g.nodes.toList := Array.mem_def.1 (Array.mem_of_getElem? hn)
      exact List.mem_filterMap.2 ⟨n, hmem, h⟩

/-- **How many addresses of a graph are not on a path.** -/
def room (g : Graph) (path : List Address) : Nat :=
  (g.addresses.filter fun a => !path.contains a).length

theorem room_le_size (g : Graph) (path : List Address) : g.room path ≤ g.size := by
  have hfilter : g.room path ≤ g.addresses.length := List.length_filter_le _ _
  have hmap : g.addresses.length ≤ g.nodes.toList.length := List.length_filterMap_le _ _
  rw [Array.length_toList] at hmap
  exact Nat.le_trans hfilter hmap

/-- An address of the graph that is new to the path takes up room. -/
theorem room_cons_lt {g : Graph} {path : List Address} {a : Address} (ha : a ∈ g.addresses)
    (hnew : a ∉ path) : g.room (a :: path) < g.room path := by
  have hsplit : (g.addresses.filter fun x => !(a :: path).contains x)
      = (g.addresses.filter fun x => !path.contains x).filter fun x => decide (x ≠ a) := by
    rw [List.filter_filter]
    refine List.filter_congr ?_
    intro x _
    simp
  rw [room, hsplit, room]
  refine List.length_filter_lt_length_iff_exists.2 ⟨a, ?_, by simp⟩
  exact List.mem_filter.2 ⟨ha, by simpa using hnew⟩

theorem room_le_of_subset {g : Graph} {path path' : List Address} (h : path ⊆ path') :
    g.room path' ≤ g.room path := by
  simp only [room, ← List.countP_eq_length_filter]
  refine List.countP_mono_left fun a _ ha => ?_
  simp only [Bool.not_eq_true', List.contains_eq_mem, decide_eq_false_iff_not] at ha ⊢
  exact fun hmem => ha (h hmem)

end Graph

/-! ### The links from a node on -/

namespace Chain

/-- **The indirection at a node**: its address, and what stands behind it.  There is none at a nil
pointer. -/
def link? (s : Scene) (id : NodeId) : Option (Address × Option NodeId) :=
  match s.graph.shape id with
  | .pointer a (some target) => some (a, behind? s.graph target)
  | .guarded a content lock =>
      if s.config.disableGuardResolution then none
      else some (a, (Shape.guarded a content lock).acquire?.bind (behind? s.graph))
  | _ => none

/-- The addresses of the indirections from a node on, at most `fuel` of them. -/
def linksFrom (s : Scene) : Nat → NodeId → List Address
  | 0, _ => []
  | fuel + 1, id =>
      match link? s id with
      | none => []
      | some (a, none) => [a]
      | some (a, some next) => a :: linksFrom s fuel next

/-- **The addresses of the indirections from a node on**, as far as a chain could follow them. -/
def links (s : Scene) (id : NodeId) : List Address := linksFrom s (fuel s.graph) id

/-- The lock at a node that whoever acquires it holds. -/
def lockAt (s : Scene) (id : NodeId) : List Address :=
  match s.graph.shape id with
  | .guarded a _ lock => lock.holds a
  | _ => []

/-- The locks that are acquired from a node on, latest first, at most `fuel` of them. -/
def locksFrom (s : Scene) : Nat → NodeId → List Address
  | 0, _ => []
  | fuel + 1, id =>
      match link? s id with
      | some (_, some next) => locksFrom s fuel next ++ lockAt s id
      | _ => []

/-- **The locks that are held behind the indirections from a node on.** -/
def locksBehind (s : Scene) (id : NodeId) : List Address := locksFrom s (fuel s.graph) id

theorem linksFrom_of_none {s : Scene} {id : NodeId} (h : link? s id = none) (fuel : Nat) :
    linksFrom s fuel id = [] := by
  cases fuel with
  | zero => rfl
  | succ fuel => simp only [linksFrom, h]

theorem linksFrom_of_end {s : Scene} {id : NodeId} {a : Address}
    (h : link? s id = some (a, none)) (fuel : Nat) : linksFrom s (fuel + 1) id = [a] := by
  simp only [linksFrom, h]

theorem linksFrom_of_next {s : Scene} {id next : NodeId} {a : Address}
    (h : link? s id = some (a, some next)) (fuel : Nat) :
    linksFrom s (fuel + 1) id = a :: linksFrom s fuel next := by
  simp only [linksFrom, h]

theorem locksFrom_of_none {s : Scene} {id : NodeId} (h : link? s id = none) (fuel : Nat) :
    locksFrom s fuel id = [] := by
  cases fuel with
  | zero => rfl
  | succ fuel => simp only [locksFrom, h]

theorem locksFrom_of_next {s : Scene} {id next : NodeId} {a : Address}
    (h : link? s id = some (a, some next)) (fuel : Nat) :
    locksFrom s (fuel + 1) id = locksFrom s fuel next ++ lockAt s id := by
  simp only [locksFrom, h]

theorem mem_addresses_of_link? {s : Scene} {id : NodeId} {a : Address} {next : Option NodeId}
    (h : link? s id = some (a, next)) : a ∈ s.graph.addresses := by
  have haddress : (s.graph.shape id).address? = some a := by
    unfold link? at h
    split at h
    · next a' target hs =>
        simp only [Option.some.injEq, Prod.mk.injEq] at h
        simp [hs, Shape.address?, h.1]
    · next a' content lock hs =>
        split at h
        · exact absurd h (by simp)
        · simp only [Option.some.injEq, Prod.mk.injEq] at h
          simp [hs, Shape.address?, h.1]
    · exact absurd h (by simp)
  exact Graph.mem_addresses haddress

/-- No chain starts where there is no link, a nil pointer apart. -/
theorem not_isIndirection_or_nil {s : Scene} {id : NodeId} (h : link? s id = none) :
    (s.graph.shape id).isIndirection s.config = false ∨
      ∃ a, s.graph.shape id = .pointer a none := by
  unfold link? at h
  split at h
  · exact absurd h (by simp)
  · next a content lock hs =>
      split at h
      · next hd => exact Or.inl (by simp [hs, Shape.isIndirection, hd])
      · exact absurd h (by simp)
  · next hp hg =>
      cases hs : s.graph.shape id with
      | pointer a target =>
          cases target with
          | none => exact Or.inr ⟨a, rfl⟩
          | some target => exact absurd hs (hp a target)
      | guarded a content lock => exact absurd hs (hg a content lock)
      | _ => exact Or.inl rfl

/-! ### The first address that comes again -/

/-- **The first of a list of addresses that is on the path or stood before in the list.** -/
def closing? (path : List Address) : List Address → Option Address
  | [] => none
  | a :: rest => if a ∈ path then some a else closing? (a :: path) rest

theorem closing?_cons_of_mem {path : List Address} {a : Address} (h : a ∈ path)
    (rest : List Address) : closing? path (a :: rest) = some a := by
  simp only [closing?, if_pos h]

theorem closing?_cons_of_not_mem {path : List Address} {a : Address} (h : a ∉ path)
    (rest : List Address) : closing? path (a :: rest) = closing? (a :: path) rest := by
  simp only [closing?, if_neg h]

/-- The first address that comes again comes after addresses that are all new. -/
theorem closing?_eq_some_iff {path as : List Address} {a : Address} :
    closing? path as = some a ↔
      ∃ before after, as = before ++ a :: after ∧ before.Nodup ∧ (∀ x ∈ before, x ∉ path) ∧
        (a ∈ path ∨ a ∈ before) := by
  induction as generalizing path with
  | nil => simp [closing?]
  | cons b rest ih =>
      by_cases hb : b ∈ path
      · -- nothing but the empty list is new in front of an address that is on the path
        rw [closing?_cons_of_mem hb]
        constructor
        · intro h
          obtain rfl := Option.some.inj h
          exact ⟨[], rest, rfl, by simp, by simp, Or.inl hb⟩
        · rintro ⟨before, after, hsplit, -, hfresh, -⟩
          cases before with
          | nil =>
              simp only [List.nil_append, List.cons.injEq] at hsplit
              rw [hsplit.1]
          | cons x before =>
              simp only [List.cons_append, List.cons.injEq] at hsplit
              exact absurd hb (hfresh b (by simp [hsplit.1]))
      · rw [closing?_cons_of_not_mem hb, ih]
        constructor
        · rintro ⟨before, after, rfl, hnodup, hfresh, hagain⟩
          refine ⟨b :: before, after, rfl, ?_, ?_, ?_⟩
          · refine List.nodup_cons.2 ⟨?_, hnodup⟩
            intro hmem
            exact hfresh b hmem (by simp)
          · intro x hx
            rcases List.mem_cons.1 hx with rfl | hx
            · exact hb
            · exact fun hpath => hfresh x hx (List.mem_cons_of_mem _ hpath)
          · rcases hagain with hagain | hagain
            · rcases List.mem_cons.1 hagain with rfl | hagain
              · exact Or.inr (by simp)
              · exact Or.inl hagain
            · exact Or.inr (List.mem_cons_of_mem _ hagain)
        · rintro ⟨before, after, hsplit, hnodup, hfresh, hagain⟩
          cases before with
          | nil =>
              -- the head is new, so the address that comes again is not the head
              simp only [List.nil_append, List.cons.injEq] at hsplit
              obtain ⟨rfl, -⟩ := hsplit
              simp only [List.not_mem_nil, or_false] at hagain
              exact absurd hagain hb
          | cons x before =>
              simp only [List.cons_append, List.cons.injEq] at hsplit
              obtain ⟨rfl, rfl⟩ := hsplit
              obtain ⟨hx, hnodup⟩ := List.nodup_cons.1 hnodup
              refine ⟨before, after, rfl, hnodup, ?_, ?_⟩
              · intro y hy hmem
                rcases List.mem_cons.1 hmem with rfl | hmem
                · exact hx hy
                · exact hfresh y (List.mem_cons_of_mem _ hy) hmem
              · rcases hagain with hagain | hagain
                · exact Or.inl (List.mem_cons_of_mem _ hagain)
                · rcases List.mem_cons.1 hagain with rfl | hagain
                  · exact Or.inl (by simp)
                  · exact Or.inr hagain

/-! ### The walk -/

variable {s : Scene} {id : NodeId} {a : Address} {chain : Chain} {st : RenderState}

/-- A state with one more address on its path. -/
def opened (st : RenderState) (a : Address) : RenderState := { st with path := a :: st.path }

/-- A chain with one more level. -/
def extended (chain : Chain) (a : Address) : Chain :=
  { chain with
    addresses := chain.addresses ++ [a]
    entered := chain.entered ++ [a]
    indirects := chain.indirects + 1 }

/-- A chain with further locks. -/
def taking (chain : Chain) (locks : List Address) : Chain :=
  { chain with locks := locks ++ chain.locks }

theorem enter_of_mem (h : a ∈ st.path) :
    chain.enter a st =
      ⟨[.log ⟨.trace, "Cycle detected at " ++ Scalar.bareAddress a⟩],
        some (({ chain with addresses := chain.addresses ++ [a] }, true), st)⟩ := by
  unfold enter
  rw [Render.run_get_bind, if_pos (by simpa using h)]
  rfl

theorem enter_of_not_mem (h : a ∉ st.path) :
    chain.enter a st = ⟨[], some ((chain.extended a, false), opened st a)⟩ := by
  unfold enter
  rw [Render.run_get_bind, if_neg (by simpa using h)]
  rfl

/-- The indirections from a node on, by their addresses, lead to a value. -/
inductive Leads (s : Scene) : NodeId → List Address → NodeId → Prop
  | here {v : NodeId} (h : (s.graph.shape v).isIndirection s.config = false) : Leads s v [] v
  | link {id next v : NodeId} {a : Address} {as : List Address}
      (h : link? s id = some (a, some next)) (rest : Leads s next as v) : Leads s id (a :: as) v

theorem Leads.not_isIndirection {v : NodeId} {as : List Address} (h : Leads s id as v) :
    (s.graph.shape v).isIndirection s.config = false := by
  induction h with
  | here h => exact h
  | link _ _ ih => exact ih

/-- A nil pointer leads to no value. -/
theorem not_leads_of_nil {a : Address} (hs : s.graph.shape id = .pointer a none) {v : NodeId}
    {as : List Address} : ¬Leads s id as v := by
  have hlink : link? s id = none := by simp [link?, hs]
  intro h
  cases h with
  | here hno => simp [hs, Shape.isIndirection] at hno
  | link hl _ => simp [hlink] at hl

/-- Where there is no link the chain ends, and it does not close a cycle. -/
theorem walk_of_none (chain : Chain) (h : link? s id = none) (fuel : Nat) :
    ∃ link, (∀ st, walk s (fuel + 1) chain id st = ⟨[], some ((chain, link), st)⟩) ∧
      (∀ a, link.ending? ≠ some (.cycle a)) ∧ ∀ v, link = .value v ↔ Leads s id [] v := by
  rcases not_isIndirection_or_nil h with hno | ⟨a, hnil⟩
  · refine ⟨.value id, ?_, by simp [Link.ending?], ?_⟩
    · intro st
      cases hs : s.graph.shape id with
      | pointer a target => simp [hs, Shape.isIndirection] at hno
      | guarded a content lock =>
          have hd : s.config.disableGuardResolution = true := by
            simpa [hs, Shape.isIndirection] using hno
          simp [walk, show (s.graph.node id).shape = _ from hs, hd]
      | _ => simp [walk, show (s.graph.node id).shape = _ from hs]
    · intro v
      constructor
      · intro hv
        obtain rfl := Link.value.inj hv
        exact Leads.here hno
      · intro hleads
        cases hleads with
        | here _ => rfl
  · refine ⟨.nil (s.graph.node id).typeName true, ?_, by simp [Link.ending?], ?_⟩
    · simp [walk, show (s.graph.node id).shape = _ from hnil]
    · intro v
      simp only [reduceCtorEq, false_iff]
      intro hleads
      cases hleads with
      | here hno => simp [hnil, Shape.isIndirection] at hno

/-- Ends a chain without a value and without closing a cycle. -/
def Stops (stop : Chain → Render (Chain × Link)) : Prop :=
  ∀ chain, ∃ chain' link effects, (∀ st, stop chain st = ⟨effects, some ((chain', link), st)⟩) ∧
    (∀ e ∈ effects, e.step? = none) ∧ chain'.entered = chain.entered ∧
    (link.ending? = some .nil ∨ link.ending? = some .unreachable)

theorem stops_pure_nil (typeName : String) (isPointer : Bool) :
    Stops fun chain => pure (chain, .nil typeName isPointer) :=
  fun _ => ⟨_, _, [], fun _ => rfl, by simp, rfl, Or.inl rfl⟩

theorem stops_unreachable (typeName message : String) :
    Stops (fun chain => do
      Render.log .trace message
      pure ({ chain with indirects := chain.indirects - 1 }, .unreachable typeName)) := by
  intro chain
  refine ⟨_, _, [.log ⟨.trace, message⟩], fun _ => rfl, ?_, rfl, Or.inr rfl⟩
  intro e he
  obtain rfl : e = .log ⟨.trace, message⟩ := List.mem_singleton.1 he
  rfl

/-- **One level of a chain**, for pointers and guards alike: the address is entered, and the chain
closes a cycle, goes on, or stops. -/
theorem walk_of_link {next : Option NodeId} (h : link? s id = some (a, next)) (fuel : Nat) :
    ∃ typeName isPointer stop, Stops stop ∧ ∀ chain : Chain, walk s (fuel + 1) chain id = (do
      let (chain, closed) ← chain.enter a
      if closed then pure (chain, .cycle typeName isPointer a)
      else
        match next with
        | none => stop chain
        | some next => walk s fuel (chain.taking (lockAt s id)) next) := by
  unfold link? at h
  split at h
  · next a' target hs =>
      simp only [Option.some.injEq, Prod.mk.injEq] at h
      obtain ⟨rfl, rfl⟩ := h
      refine ⟨s.graph.typeName target, true, _, stops_pure_nil (s.graph.typeName target) false, ?_⟩
      intro chain
      have hlock : lockAt s id = [] := by simp [lockAt, hs]
      rw [hlock]
      cases hb : behind? s.graph target with
      | none => simp only [walk, show (s.graph.node id).shape = _ from hs, hb]
      | some next =>
          simp only [walk, show (s.graph.node id).shape = _ from hs, hb]
          rfl
  · next a' content lock hs =>
      split at h
      · exact absurd h (by simp)
      · next hd =>
          simp only [Option.some.injEq, Prod.mk.injEq] at h
          obtain ⟨rfl, rfl⟩ := h
          have hlock : lockAt s id = lock.holds a' := by simp [lockAt, hs]
          rw [hlock]
          simp only [walk, show (s.graph.node id).shape = _ from hs, if_neg hd]
          cases (Shape.guarded a' content lock).acquire? with
          | none => exact ⟨_, _, _, stops_unreachable _ _, fun _ => rfl⟩
          | some target =>
              exact ⟨_, _, _, stops_pure_nil (s.graph.typeName target) false, fun _ => rfl⟩
  · exact absurd h (by simp)

/-- A link whose address is on the path closes a cycle. -/
theorem walk_of_mem (chain : Chain) {next : Option NodeId} (h : link? s id = some (a, next))
    (fuel : Nat) :
    ∃ chain' typeName isPointer effects,
      (∀ st, a ∈ st.path → walk s (fuel + 1) chain id st =
        ⟨effects, some ((chain', .cycle typeName isPointer a), st)⟩) ∧
      (∀ e ∈ effects, e.step? = none) ∧ chain'.entered = chain.entered := by
  obtain ⟨typeName, isPointer, stop, -, hwalk⟩ := walk_of_link h fuel
  refine ⟨{ chain with addresses := chain.addresses ++ [a] }, typeName, isPointer,
    [.log ⟨.trace, "Cycle detected at " ++ Scalar.bareAddress a⟩], ?_, by simp [Effect.step?], rfl⟩
  intro st ha
  rw [hwalk, Render.run_bind_of_some (by rw [enter_of_mem ha]), enter_of_mem ha]
  rfl

/-- A new link with nothing behind it is the last. -/
theorem walk_of_end (chain : Chain) (h : link? s id = some (a, none)) (fuel : Nat) :
    ∃ chain' link effects,
      (∀ st, a ∉ st.path → walk s (fuel + 1) chain id st =
        ⟨effects, some ((chain', link), opened st a)⟩) ∧
      (∀ e ∈ effects, e.step? = none) ∧ chain'.entered = chain.entered ++ [a] ∧
      (link.ending? = some .nil ∨ link.ending? = some .unreachable) := by
  obtain ⟨typeName, isPointer, stop, hstop, hwalk⟩ := walk_of_link h fuel
  obtain ⟨chain', link, effects, hr, he, hentered, hending⟩ := hstop (chain.extended a)
  refine ⟨chain', link, effects, ?_, he, hentered, hending⟩
  intro st ha
  rw [hwalk, Render.run_bind_of_some (by rw [enter_of_not_mem ha]), enter_of_not_mem ha]
  simp [hr]

/-- Behind a new link the chain goes on. -/
theorem walk_of_next {next : NodeId} (h : link? s id = some (a, some next)) (ha : a ∉ st.path)
    (fuel : Nat) :
    walk s (fuel + 1) chain id st =
      walk s fuel ((chain.extended a).taking (lockAt s id)) next (opened st a) := by
  obtain ⟨typeName, isPointer, stop, -, hwalk⟩ := walk_of_link h fuel
  rw [hwalk, Render.run_bind_of_some (by rw [enter_of_not_mem ha])]
  simp [enter_of_not_mem ha]

/-- **What a chain has done when it ends.**  It started at `id`, where the addresses `links` lie
ahead, opened the addresses `new`, and ended with `link`. -/
structure Follows (s : Scene) (path : List Address) (id : NodeId) (links new : List Address)
    (link : Link) : Prop where
  nodup : new.Nodup
  fresh : ∀ a ∈ new, a ∉ path
  room_le : s.graph.room (new.reverse ++ path) + new.length ≤ s.graph.room path
  cycle_iff : ∀ a, link.ending? = some (.cycle a) ↔ closing? path links = some a
  value : ∀ v, link = .value v → new = links ∧ Leads s id links v
  reaches : ∀ v, Leads s id links v → closing? path links = none → link = .value v

/-- A chain that ends at a value closes no cycle. -/
theorem Follows.closing?_eq_none {path links new : List Address} {v : NodeId}
    (h : Follows s path id links new (.value v)) : closing? path links = none := by
  cases hclosing : closing? path links with
  | none => rfl
  | some a => exact absurd ((h.cycle_iff a).2 hclosing) (by simp [Link.ending?])

/-- Nothing is opened where the chain ends at once. -/
theorem Follows.of_nil {path links : List Address} {link : Link}
    (hcycle : ∀ a, link.ending? = some (.cycle a) ↔ closing? path links = some a)
    (hvalue : ∀ v, link = .value v → [] = links ∧ Leads s id links v)
    (hreaches : ∀ v, Leads s id links v → closing? path links = none → link = .value v) :
    Follows s path id links [] link :=
  ⟨by simp, by simp, by simp, hcycle, hvalue, hreaches⟩

/-- A new link with nothing behind it. -/
theorem Follows.of_end {path : List Address} {link : Link} (hl : link? s id = some (a, none))
    (hfresh : a ∉ path) (h : link.ending? = some .nil ∨ link.ending? = some .unreachable) :
    Follows s path id [a] [a] link where
  nodup := by simp
  fresh := by simpa using hfresh
  room_le := Graph.room_cons_lt (mem_addresses_of_link? hl) hfresh
  cycle_iff := by
    intro x
    rw [closing?_cons_of_not_mem hfresh]
    rcases h with h | h <;> simp [h, closing?]
  value := by
    rintro v rfl
    rcases h with h | h <;> simp [Link.ending?] at h
  reaches := by
    intro v hleads
    cases hleads with
    | link hnext _ => simp [hl] at hnext

/-- A new link in front of what follows behind it. -/
theorem Follows.cons {next : NodeId} {path links new : List Address} {link : Link}
    (hl : link? s id = some (a, some next)) (hfresh : a ∉ path)
    (h : Follows s (a :: path) next links new link) :
    Follows s path id (a :: links) (a :: new) link where
  nodup := by
    refine List.nodup_cons.2 ⟨?_, h.nodup⟩
    intro hmem
    exact h.fresh a hmem (by simp)
  fresh := by
    intro x hx
    rcases List.mem_cons.1 hx with rfl | hx
    · exact hfresh
    · exact fun hpath => h.fresh x hx (List.mem_cons_of_mem _ hpath)
  room_le := by
    have hroom := Graph.room_cons_lt (mem_addresses_of_link? hl) hfresh
    have htail := h.room_le
    simp only [List.reverse_cons, List.append_assoc, List.cons_append, List.nil_append,
      List.length_cons]
    omega
  cycle_iff := by
    intro x
    rw [closing?_cons_of_not_mem hfresh]
    exact h.cycle_iff x
  value := by
    intro v hv
    obtain ⟨hnew, hleads⟩ := h.value v hv
    exact ⟨by rw [hnew], Leads.link hl hleads⟩
  reaches := by
    intro v hleads hclosing
    rw [closing?_cons_of_not_mem hfresh] at hclosing
    cases hleads with
    | @link _ next' _ _ _ hnext rest =>
        obtain rfl : next = next' := by simpa [hl] using hnext
        exact h.reaches v rest hclosing

/-- **A chain ends, and how.**  With fuel for every address that is not on the path, the walk comes
to an end, takes no step, and has followed the links of the node.  Nothing but the path matters of
the state. -/
theorem walk_outcome (s : Scene) :
    ∀ (fuel : Nat) (chain : Chain) (id : NodeId) (path : List Address), s.graph.room path < fuel →
      ∃ chain' link new effects,
        (∀ st, st.path = path → walk s fuel chain id st =
          ⟨effects, some ((chain', link), { st with path := new.reverse ++ path })⟩) ∧
        (∀ e ∈ effects, e.step? = none) ∧ chain'.entered = chain.entered ++ new ∧
        Follows s path id (linksFrom s fuel id) new link ∧
        ∀ v, link = .value v → chain'.locks = locksFrom s fuel id ++ chain.locks := by
  intro fuel
  induction fuel with
  | zero => intro chain id path hroom; omega
  | succ fuel ih =>
      intro chain id path hroom
      -- a link that is new takes up room, so the fuel that is left covers what is behind it
      cases hl : link? s id with
      | none =>
          obtain ⟨link, hwalk, hcycle, hvalue⟩ := walk_of_none chain hl fuel
          refine ⟨chain, link, [], [], ?_, by simp, by simp, ?_, by simp [locksFrom_of_none hl]⟩
          · rintro st rfl
            exact hwalk st
          · rw [linksFrom_of_none hl]
            refine Follows.of_nil (by simpa [closing?] using hcycle) ?_ ?_
            · exact fun v hv => ⟨rfl, (hvalue v).1 hv⟩
            · exact fun v hleads _ => (hvalue v).2 hleads
      | some link =>
          obtain ⟨a, next⟩ := link
          by_cases ha : a ∈ path
          · obtain ⟨chain', typeName, isPointer, effects, hr, he, hentered⟩ :=
              walk_of_mem chain hl fuel
            refine ⟨chain', .cycle typeName isPointer a, [], effects, ?_, he,
              by simpa using hentered, ?_, by simp⟩
            · rintro st rfl
              exact hr st ha
            -- the links of the node start with the address that closes the cycle
            obtain ⟨rest, hrest⟩ : ∃ rest, linksFrom s (fuel + 1) id = a :: rest := by
              cases next with
              | none => exact ⟨[], linksFrom_of_end hl fuel⟩
              | some next => exact ⟨_, linksFrom_of_next hl fuel⟩
            rw [hrest]
            refine Follows.of_nil ?_ (by simp) ?_
            · intro x
              simp [closing?_cons_of_mem ha, Link.ending?]
            · intro v _ hclosing
              simp [closing?_cons_of_mem ha] at hclosing
          · cases next with
            | none =>
                obtain ⟨chain', link, effects, hr, he, hentered, hending⟩ :=
                  walk_of_end chain hl fuel
                refine ⟨chain', link, [a], effects, ?_, he, hentered, ?_, ?_⟩
                · rintro st rfl
                  exact hr st ha
                · rw [linksFrom_of_end hl]
                  exact Follows.of_end hl ha hending
                · rintro v rfl
                  rcases hending with h | h <;> simp [Link.ending?] at h
            | some next =>
                have hless := Graph.room_cons_lt (mem_addresses_of_link? hl) ha
                obtain ⟨chain', link, new, effects, hr, he, hentered, hf, hlocks⟩ :=
                  ih ((chain.extended a).taking (lockAt s id)) next (a :: path) (by omega)
                rw [linksFrom_of_next hl, locksFrom_of_next hl]
                refine ⟨chain', link, a :: new, effects, ?_, he, ?_, Follows.cons hl ha hf, ?_⟩
                · rintro st rfl
                  rw [walk_of_next hl ha, hr (opened st a) rfl]
                  simp [opened]
                · rw [hentered]
                  simp [extended, taking]
                · intro v hv
                  rw [hlocks v hv]
                  simp [extended, taking]

/-- What a chain has done from a state. -/
theorem walk_follows (s : Scene) (fuel : Nat) (chain : Chain) (id : NodeId) (st : RenderState)
    (hroom : s.graph.room st.path < fuel) :
    ∃ chain' link new,
      (walk s fuel chain id st).result =
        some ((chain', link), { st with path := new.reverse ++ st.path }) ∧
      (∀ e ∈ (walk s fuel chain id st).effects, e.step? = none) ∧
      chain'.entered = chain.entered ++ new ∧
      Follows s st.path id (linksFrom s fuel id) new link ∧
      ∀ v, link = .value v → chain'.locks = locksFrom s fuel id ++ chain.locks := by
  obtain ⟨chain', link, new, effects, hr, he, hrest⟩ := walk_outcome s fuel chain id st.path hroom
  rw [hr st rfl]
  exact ⟨chain', link, new, rfl, he, hrest⟩

/-- The fuel of a graph is enough for every chain. -/
theorem room_lt_fuel (g : Graph) (path : List Address) : g.room path < fuel g := by
  have := g.room_le_size path
  simp only [fuel]
  omega

end Chain

/-- **Leaving undoes opening.** -/
theorem RenderState.leave_opened {path : List Address} :
    ∀ {new : List Address} (st : RenderState), new.Nodup → st.path = new.reverse ++ path →
      st.leave new = { st with path := path } := by
  intro new
  induction new with
  | nil =>
      intro st _ h
      simp only [List.reverse_nil, List.nil_append] at h
      simp [leave, h]
  | cons a new ih =>
      intro st hnodup h
      obtain ⟨ha, hnodup⟩ := List.nodup_cons.1 hnodup
      -- the first address opened lies below the others, and none of them equals it
      have herase : st.path.erase a = new.reverse ++ path := by
        rw [h, List.reverse_cons, List.append_assoc,
          List.erase_append_right _ (by simpa using ha)]
        simp
      have hrest := ih { st with path := st.path.erase a } hnodup herase
      simpa [leave] using hrest

end ValueLens
