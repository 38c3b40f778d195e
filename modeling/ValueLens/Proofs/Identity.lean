/-
**Cycles among owned values.**

An owned value whose parts do not refer to an allocation around them has no cycle, and one might
expect that no render of it shows one.  Identities are addresses, though, and an indirection has the
address of what lies at the very beginning of its target.  If that is a lock, which has its own
address, then the chain that comes to the lock while the indirection is open meets the address again
and takes the lock for a cycle.

This is the only way in which it happens.  Everything a node rests on has a smaller number, so along
a render the open indirections lead to nodes at or above the value at hand, and the open locks are
above it.  Hence a chain closes a cycle if and only if it comes to a lock at the beginning of what
an open indirection leads to; and no render shows a cycle where no allocation begins with a lock, or
where locks are not resolved.

Main definitions:

* `ValueLens.Chain.HitsLock` — a chain comes to a lock at the beginning of what an open indirection
  leads to;
* `ValueLens.Walk.Under` — what is open leads to nodes at or above a value.

Main results:

* `ValueLens.Walk.links_close_iff` — **a chain closes a cycle if and only if it hits a lock**;
* `ValueLens.Walk.walk_acyclic` — no cycle is shown where no chain hits a lock;
* `ValueLens.Owned.cycle_shown_iff_hits_lock` — both for renders of owned values.
-/
import ValueLens.Owned.Native
import ValueLens.Proofs.Arrival
import ValueLens.Proofs.Placement

set_option relaxedAutoImplicit false
set_option autoImplicit false

namespace ValueLens

/-! ### Chains that hit a lock -/

namespace Chain

variable {s : Scene} {id next target : NodeId} {a : Address}

/-- The two kinds of links. -/
theorem link?_cases {next : Option NodeId} (h : link? s id = some (a, next)) :
    (∃ target, s.graph.shape id = .pointer a (some target) ∧
      next = behind? s.graph target) ∨
    (∃ content lock, s.graph.shape id = .guarded a content lock ∧
      s.config.disableGuardResolution = false ∧
      next = (Shape.guarded a content lock).acquire?.bind (behind? s.graph)) := by
  unfold link? at h
  split at h
  · next a' target hs =>
      obtain ⟨rfl, rfl⟩ := Prod.mk.inj (Option.some.inj h)
      exact Or.inl ⟨target, hs, rfl⟩
  · next a' content lock hs =>
      split at h
      · exact absurd h (by simp)
      · next hd =>
          obtain ⟨rfl, rfl⟩ := Prod.mk.inj (Option.some.inj h)
          exact Or.inr ⟨content, lock, hs, by simpa using hd, rfl⟩
  · exact absurd h (by simp)

/-- A node that is a lock, where locks are resolved. -/
def IsLock (s : Scene) (id : NodeId) : Prop :=
  (s.graph.shape id).isGuarded = true ∧ s.config.disableGuardResolution = false

/-- **A chain comes to a lock at the very beginning of what an open indirection leads to.**  Open
are the indirections whose addresses are on the path, and those that the chain has followed
already. -/
inductive HitsLock (s : Scene) (start : NodeId → NodeId) : List Address → NodeId → Prop
  | here {path : List Address} {id pointer target : NodeId} {a : Address} (hlock : IsLock s id)
      (hs : s.graph.shape pointer = .pointer a (some target)) (hstart : start target = id)
      (hopen : a ∈ path) : HitsLock s start path id
  | later {path : List Address} {id next : NodeId} {a : Address}
      (h : link? s id = some (a, some next)) (rest : HitsLock s start (a :: path) next) :
      HitsLock s start path id

/-- What stands behind an indirection comes no later than what it leads to. -/
theorem behind?_le (hg : s.graph.Stacked) (h : behind? s.graph target = some next) :
    next ≤ target := by
  unfold behind? at h
  split at h
  · next content hs =>
      exact Nat.le_of_lt (hg target next (by simp [hs, h, Shape.rests, Shape.parts]))
  · obtain rfl := Option.some.inj h
    exact Nat.le_refl _

theorem lt_size_of_link? {next : Option NodeId} (h : link? s id = some (a, next)) :
    id < s.graph.size := by
  rcases link?_cases h with ⟨target, hs, -⟩ | ⟨content, lock, hs, -⟩
  · exact Graph.lt_size_of_ne_invalid (by simp [hs])
  · exact Graph.lt_size_of_ne_invalid (by simp [hs])

/-- What can be acquired is the content. -/
theorem content_of_acquire {a : Address} {content : Option NodeId} {lock : Lock} {target : NodeId}
    (h : (Shape.guarded a content lock).acquire? = some target) : content = some target := by
  obtain ⟨exclusive, busy⟩ := lock
  cases busy with
  | true => simp [Shape.acquire?] at h
  | false => exact h

/-- The link of a lock has its address. -/
theorem link?_of_isLock {aside : Bool} {start : NodeId → NodeId}
    (hg : s.graph.Addressed aside start) (h : IsLock s id) :
    start id = id ∧ ∃ next, link? s id = some (Owned.addressOf id, next) := by
  obtain ⟨hguard, hres⟩ := h
  cases hs : s.graph.shape id with
  | guarded a content lock =>
      obtain ⟨rfl, hself⟩ := hg.lock hs
      exact ⟨hself, _, by simp only [link?, hs, hres, Bool.false_eq_true, if_false]; rfl⟩
  | _ => simp [hs, Shape.isGuarded] at hguard

/-- A chain that comes to a lock has a link there, with the address of the open indirection. -/
theorem link?_of_here {aside : Bool} {start : NodeId → NodeId} {pointer : NodeId}
    (hg : s.graph.Addressed aside start) (hlock : IsLock s id)
    (hs : s.graph.shape pointer = .pointer a (some target)) (hstart : start target = id) :
    ∃ next, link? s id = some (a, next) := by
  obtain ⟨-, next, hl⟩ := link?_of_isLock hg hlock
  exact ⟨next, by rw [hl, hg.pointer hs, hstart]⟩

/-- Where there is no link no lock is hit. -/
theorem not_hitsLock_of_none {aside : Bool} {start : NodeId → NodeId}
    (hg : s.graph.Addressed aside start) (h : link? s id = none) (path : List Address) :
    ¬HitsLock s start path id := by
  intro hhits
  cases hhits with
  | here hlock hs hstart hopen =>
      obtain ⟨next, hl⟩ := link?_of_here hg hlock hs hstart
      simp [h] at hl
  | later hl rest => simp [h] at hl

end Chain

/-! ### Addresses above a value -/

namespace Walk

open Owned (addressOf FitsMemory addressOf_injective)

/-- **What is open leads to nodes at or above a value**: the addresses on the path are those of
indirections to such nodes, and of locks above the value. -/
def Under (s : Scene) (start : NodeId → NodeId) (path : List Address) (id : NodeId) : Prop :=
  ∀ a ∈ path, (∃ k, s.graph.Target k ∧ a = addressOf (start k) ∧ id ≤ k) ∨
    ∃ k, Chain.IsLock s k ∧ k < s.graph.size ∧ a = addressOf k ∧ id < k

theorem under_nil (s : Scene) (start : NodeId → NodeId) (id : NodeId) : Under s start [] id := by
  intro a ha
  simp at ha

variable {s : Scene} {start : NodeId → NodeId} {path : List Address} {id next : NodeId}
  {a : Address} {aside : Bool}

/-- What comes before a value is under the same path. -/
theorem Under.of_le (h : Under s start path id) (hle : next ≤ id) : Under s start path next := by
  intro a ha
  rcases h a ha with ⟨k, htarget, hka, hid⟩ | ⟨k, hlock, hk, hka, hid⟩
  · exact Or.inl ⟨k, htarget, hka, Nat.le_trans hle hid⟩
  · exact Or.inr ⟨k, hlock, hk, hka, Nat.lt_of_le_of_lt hle hid⟩

/-- What stands behind a link comes before the node, and under the path with the link. -/
theorem Under.behind (hg : s.graph.Addressed aside start) (h : Under s start path id)
    (hl : Chain.link? s id = some (a, some next)) :
    next < id ∧ Under s start (a :: path) next := by
  have hid := Chain.lt_size_of_link? hl
  rcases Chain.link?_cases hl with ⟨target, hs, hbehind⟩ | ⟨content, lock, hs, hres, hbehind⟩
  · have htarget : target < id := hg.stacked id target (by simp [hs, Shape.rests])
    have hle := Chain.behind?_le hg.stacked hbehind.symm
    have hlt : next < id := Nat.lt_of_le_of_lt hle htarget
    refine ⟨hlt, fun x hx => ?_⟩
    rcases List.mem_cons.1 hx with rfl | hx
    · exact Or.inl ⟨target, ⟨id, x, hs⟩, hg.pointer hs, hle⟩
    · exact h.of_le (Nat.le_of_lt hlt) x hx
  · obtain ⟨rfl, -⟩ := hg.lock hs
    obtain ⟨target, hacquire, hbehind⟩ := Option.bind_eq_some_iff.1 hbehind.symm
    have htarget : target < id :=
      hg.stacked id target (by simp [hs, Shape.rests, Chain.content_of_acquire hacquire])
    have hlt := Nat.lt_of_le_of_lt (Chain.behind?_le hg.stacked hbehind) htarget
    refine ⟨hlt, fun x hx => ?_⟩
    rcases List.mem_cons.1 hx with rfl | hx
    · exact Or.inr ⟨id, ⟨by rw [hs]; rfl, hres⟩, hid, rfl, hlt⟩
    · exact h.of_le (Nat.le_of_lt hlt) x hx

/-- **The link of a node under a path is on the path only if it is a lock** at the beginning of what
an open indirection leads to. -/
theorem Under.hits_of_mem (hg : s.graph.Addressed aside start) (hfit : FitsMemory s.graph.size)
    (h : Under s start path id) {next : Option NodeId} (hl : Chain.link? s id = some (a, next))
    (ha : a ∈ path) : Chain.HitsLock s start path id := by
  have hid := Chain.lt_size_of_link? hl
  have hbegin (t : NodeId) (ht : t < s.graph.size) : start t < s.graph.size :=
    Nat.lt_of_le_of_lt (hg.start_le t) ht
  rcases Chain.link?_cases hl with ⟨target, hs, -⟩ | ⟨content, lock, hs, hres, -⟩
  · -- the target of an indirection comes before it, and what is open leads to nodes at or above it
    have htarget : target < id := hg.stacked id target (by simp [hs, Shape.rests])
    have hstart := hbegin target (Nat.lt_trans htarget hid)
    rcases h a ha with ⟨k, hk, hka, hle⟩ | ⟨k, hlock, hk, hka, hlt⟩
    · have heq := addressOf_injective hfit hstart (hbegin k (hk.lt_size hg.stacked))
        ((hg.pointer hs).symm.trans hka)
      obtain rfl := hg.roots ⟨id, a, hs⟩ hk heq
      exact absurd hle (Nat.not_le.2 htarget)
    · have heq := addressOf_injective hfit hstart hk ((hg.pointer hs).symm.trans hka)
      have hle := heq ▸ hg.start_le target
      exact absurd hlt (Nat.not_lt.2 (Nat.le_of_lt (Nat.lt_of_le_of_lt hle htarget)))
  · obtain ⟨rfl, -⟩ := hg.lock hs
    rcases h _ ha with ⟨k, hk, hka, hle⟩ | ⟨k, hlock, hk, hka, hlt⟩
    · have heq := addressOf_injective hfit hid (hbegin k (hk.lt_size hg.stacked)) hka
      obtain ⟨pointer, b, hpointer⟩ := hk
      refine .here ⟨by rw [hs]; rfl, hres⟩ hpointer heq.symm ?_
      rwa [hg.pointer hpointer, ← hka]
    · exact absurd (addressOf_injective hfit hid hk hka) (Nat.ne_of_lt hlt)

/-- **A chain under a path closes a cycle if and only if it hits a lock.** -/
theorem closing?_isSome_iff (hg : s.graph.Addressed aside start) (hfit : FitsMemory s.graph.size) :
    ∀ (fuel : Nat) (path : List Address) (id : NodeId), id < fuel → Under s start path id →
      ((Chain.closing? path (Chain.linksFrom s fuel id)).isSome = true ↔
        Chain.HitsLock s start path id) := by
  intro fuel
  induction fuel with
  | zero => intro path id hid; exact absurd hid (Nat.not_lt_zero _)
  | succ fuel ih =>
      intro path id hid h
      cases hl : Chain.link? s id with
      | none =>
          simp [Chain.linksFrom_of_none hl, Chain.closing?, Chain.not_hitsLock_of_none hg hl]
      | some link =>
          obtain ⟨a, next⟩ := link
          by_cases hnew : a ∈ path
          · refine ⟨fun _ => h.hits_of_mem hg hfit hl hnew, fun _ => ?_⟩
            cases next with
            | none => rw [Chain.linksFrom_of_end hl, Chain.closing?_cons_of_mem hnew]; rfl
            | some next => rw [Chain.linksFrom_of_next hl, Chain.closing?_cons_of_mem hnew]; rfl
          · -- a lock that is hit here has its address on the path
            have hhere {pointer target : NodeId} {b : Address} (hlock : Chain.IsLock s id)
                (hs : s.graph.shape pointer = .pointer b (some target))
                (hstart : start target = id) (hopen : b ∈ path) : False := by
              obtain ⟨next', hlink⟩ := Chain.link?_of_here hg hlock hs hstart
              obtain ⟨rfl, -⟩ : a = b ∧ next = next' := by simpa [hl] using hlink
              exact hnew hopen
            cases next with
            | none =>
                rw [Chain.linksFrom_of_end hl, Chain.closing?_cons_of_not_mem hnew]
                simp only [Chain.closing?, Option.isSome_none, Bool.false_eq_true, false_iff]
                intro hhits
                cases hhits with
                | here hlock hs hstart hopen => exact hhere hlock hs hstart hopen
                | later hlink rest => simp [hl] at hlink
            | some next =>
                obtain ⟨hlt, hunder⟩ := h.behind hg hl
                have hless : next < fuel := Nat.lt_of_lt_of_le hlt (Nat.le_of_lt_succ hid)
                rw [Chain.linksFrom_of_next hl, Chain.closing?_cons_of_not_mem hnew,
                  ih (a :: path) next hless hunder]
                refine ⟨fun hhits => .later hl hhits, fun hhits => ?_⟩
                cases hhits with
                | here hlock hs hstart hopen => exact (hhere hlock hs hstart hopen).elim
                | later hlink rest =>
                    obtain ⟨rfl, rfl⟩ : a = _ ∧ next = _ := by simpa [hl] using hlink
                    exact rest

/-- The links of a node under a path close a cycle if and only if the chain hits a lock. -/
theorem links_close_iff (hg : s.graph.Addressed aside start) (hfit : FitsMemory s.graph.size)
    (h : Under s start path id) :
    (Chain.closing? path (Chain.links s id)).isSome = true ↔ Chain.HitsLock s start path id := by
  by_cases hid : id < Chain.fuel s.graph
  · exact closing?_isSome_iff hg hfit _ path id hid h
  · have hnone : Chain.link? s id = none := by
      cases hl : Chain.link? s id with
      | none => rfl
      | some link =>
          -- beyond the table there are no links
          have hlt : id < s.graph.size := Chain.lt_size_of_link? hl
          exact absurd (Nat.lt_of_lt_of_le hlt (Nat.le_add_right _ 2)) hid
    simp [Chain.links, Chain.linksFrom_of_none hnone, Chain.closing?,
      Chain.not_hitsLock_of_none hg hnone]

/-! ### Along a render -/

/-- The value at the end of a chain is under the path with the links. -/
theorem Under.leads (hg : s.graph.Addressed aside start) {as : List Address} {v : NodeId}
    (hleads : Chain.Leads s id as v) (h : Under s start path id) :
    Under s start (as.reverse ++ path) v := by
  induction hleads generalizing path with
  | here _ => exact h
  | link hl rest ih => simpa using ih (h.behind hg hl).2

/-- What is below a value is under the path with which it is seen. -/
theorem Under.below (hg : s.graph.Addressed aside start) {f g : Frame} {child : NodeId}
    (h : Under s start f.path id) (hbelow : Below s id f child g) :
    Under s start g.path child := by
  rcases hbelow.part_or_chain with ⟨hpart, hpath, -⟩ | ⟨-, hchain, rfl⟩
  · rw [hpath]
    exact h.of_le (Nat.le_of_lt (hg.stacked.lt_of_hasPart hpart))
  · exact h.leads hg (hchain.value child rfl).2

/-- **Along a render every value is under the path.** -/
theorem Arrives.under (hg : s.graph.Addressed aside start) {mode : Mode} {root : NodeId}
    {trail : List Address} {st : RenderState} (h : Arrives s mode root trail id st) :
    Under s start st.path id := by
  induction h with
  | root => exact under_nil s start root
  | next _ hpass ih => exact Under.below hg ih hpass.below

/-- **No cycle is shown where no chain hits a lock.** -/
theorem walk_acyclic (hg : s.graph.Addressed aside start) (hfit : FitsMemory s.graph.size)
    (hhits : ∀ path id, ¬Chain.HitsLock s start path id) (mode : Mode) :
    ∀ (n : Nat) (id : NodeId) (f : Frame), Under s start f.path id →
      Bond.acyclic.Keeps f (walk s n mode id) (walk s n mode id) := by
  intro n
  induction n with
  | zero =>
      intro id f _ st _
      exact ⟨⟨by simp [walk, Bond.acyclic], rfl, False.elim⟩, by simp [walk]⟩
  | succ n ih =>
      intro id f h
      refine level_keeps (fun child g hbelow => ih child g (h.below hg hbelow)) ?_ ?_
      · intro _ _ key
        refine ⟨?_, rfl, False.elim⟩
        intro e he
        exact Effect.closesCycle_eq_false (keyTexts_stepless s n _ key e he)
      · intro _ a ha
        refine absurd ((links_close_iff hg hfit h).1 ?_) (hhits f.path id)
        rw [ha, Option.isSome_some]

end Walk

/-! ### Owned values -/

/-- A graph in which no allocation begins with a lock that is resolved. -/
theorem Chain.not_hitsLock {s : Scene} {start : NodeId → NodeId} {aside : Bool}
    (hg : s.graph.Addressed aside start)
    (h : s.config.disableGuardResolution = true ∨ aside = true) (path : List Address)
    (id : NodeId) : ¬HitsLock s start path id := by
  intro hhits
  induction hhits with
  | here hlock hs hstart _ =>
      obtain ⟨hguard, hres⟩ := hlock
      rcases h with h | h
      · simp [h] at hres
      · have hapart := hg.apart h ⟨_, _, hs⟩
        rw [hstart, hguard] at hapart
        cases hapart
  | later _ _ ih => exact ih

theorem Scene.present_acyclic {s : Scene} {start : NodeId → NodeId} {aside : Bool}
    (hg : s.graph.Addressed aside start) (hfit : Owned.FitsMemory s.graph.size)
    (hhits : ∀ path id, ¬Chain.HitsLock s start path id) (mode : Mode) (id : NodeId) :
    ∀ e ∈ (s.present mode id).effects, e.closesCycle = false := by
  have hkeeps := Walk.walk_acyclic hg hfit hhits mode s.fuel id .start
    (Walk.under_nil s start id)
  rw [present, Render.fromStart_effects]
  exact (hkeeps {} rfl).1.alike

theorem Scene.dump_acyclic {s : Scene}
    (h : ∀ id, ∀ e ∈ (s.present .dump id).effects, e.closesCycle = false) (ids : List NodeId) :
    ∀ e ∈ (s.dump ids).effects, e.closesCycle = false := by
  have hline : ∀ e ∈ (Trace.write "\n").effects, e.closesCycle = false := by
    intro e he
    rw [List.mem_singleton.1 he]
    rfl
  induction ids with
  | nil => simp [dump]
  | cons id rest ih =>
      intro e he
      cases rest with
      | nil =>
          rcases Trace.mem_effects_bind he with he | ⟨u, -, he⟩
          · exact h id e he
          · exact hline e he
      | cons next rest =>
          rcases Trace.mem_effects_bind he with he | ⟨u, -, he⟩
          · exact h id e he
          · rcases Trace.mem_effects_bind he with he | ⟨u, -, he⟩
            · exact hline e he
            · rcases Trace.mem_effects_bind he with he | ⟨u, -, he⟩
              · exact hline e he
              · exact ih e he

namespace Owned

/-- **A cycle is shown if and only if a chain hits a lock**, for values without a part that refers
to an allocation around it, whichever parts lie at the beginning of their wholes.  At every point of
every render the chain from there closes a cycle exactly if it comes to a lock at the very beginning
of what an open indirection leads to; and no cycle is shown at all if locks are not resolved, or if
no allocation of the values begins with a lock. -/
theorem cycle_shown_iff_hits_lock (layout : Layout) (vs : List Owned) (config : Config)
    (hatchOpen : Bool) (hvs : ∀ v ∈ vs, v.orderly layout false = true)
    (hfit : FitsMemory ((placeAll layout vs).run {}).2.graph.size) :
    let placed := (placeAll layout vs).run {}
    let s : Scene := ⟨placed.2.graph, config, hatchOpen⟩
    (∀ mode root trail id st, Walk.Arrives s mode root trail id st →
      ∀ σ, σ.path = st.path → ∃ chain link τ,
        (Chain.walk s (Chain.fuel s.graph) {} id σ).result = some ((chain, link), τ) ∧
        ((∃ a, link.ending? = some (.cycle a)) ↔
          Chain.HitsLock s placed.2.start st.path id)) ∧
    ((config.disableGuardResolution = true ∨ ∀ v ∈ vs, v.orderly layout true = true) →
      (∀ e ∈ (s.dump placed.1).effects, e.closesCycle = false) ∧
        ∀ mode id, ∀ e ∈ (s.present mode id).effects, e.closesCycle = false) := by
  intro placed s
  have hg : s.graph.Addressed false placed.2.start :=
    (placeAll_places vs {} (laid_empty false) hvs).laid.addressed
  refine ⟨?_, ?_⟩
  · intro mode root trail id st harrives σ hσ
    obtain ⟨chain, link, τ, hr, hcycle⟩ := Walk.chain_closes_iff s id σ
    refine ⟨chain, link, τ, hr, ?_⟩
    simp only [hcycle, hσ, ← Option.isSome_iff_exists]
    exact Walk.links_close_iff hg hfit (harrives.under hg)
  · intro h
    have hhits : ∀ path id, ¬Chain.HitsLock s placed.2.start path id := by
      rcases h with h | h
      · exact Chain.not_hitsLock hg (Or.inl h)
      · have hapart : s.graph.Addressed true placed.2.start :=
          (placeAll_places vs {} (laid_empty true) h).laid.addressed
        exact Chain.not_hitsLock hapart (Or.inr rfl)
    have hpresent := Scene.present_acyclic hg hfit hhits
    exact ⟨Scene.dump_acyclic (hpresent .dump) placed.1, hpresent⟩

/-- A cell with an owner. -/
def sharedCell : Owned :=
  owner .counted (.lock .refCell (.uint .w8))
    (.fresh (lockOf .refCell (.uint .w8) .free (uint .w8 5)))

/-- An array of one cell with an owner. -/
def boxedCells : Owned :=
  owner .unique (.array (.lock .refCell (.uint .w8)) 1)
    (.fresh (array (.lock .refCell (.uint .w8))
      [lockOf .refCell (.uint .w8) .free (uint .w8 5)]))

/-- The scene of both, shown without addresses. -/
def sharedCellScene : Scene :=
  ⟨((placeAll soleParts [sharedCell, boxedCells]).run {}).2.graph,
    { disablePointerAddresses := true }, true⟩

/-- A cell with an owner leads to nothing around it, and it is shown as a cycle; so is the cell at
the beginning of an array with an owner. -/
theorem sharedCell_hits_lock :
    (∀ v ∈ [sharedCell, boxedCells],
      v.orderly soleParts false = true ∧ v.orderly soleParts true = false) ∧
    FitsMemory sharedCellScene.graph.size ∧
    (∃ chain link τ,
      (Chain.walk sharedCellScene (Chain.fuel sharedCellScene.graph) {} 2 {}).result =
        some ((chain, link), τ) ∧
      ∃ a, link.ending? = some (.cycle a)) ∧
    (sharedCellScene.dump [2]).text = "(*RefCell<u8>)(<already shown>)\n" ∧
    (sharedCellScene.dump [6]).text =
      "(*[RefCell<u8>; 1])((len=1 cap=1) \x7b\n (RefCell<u8>)(<already shown>)\n\x7d)\n" := by
  have hfit : FitsMemory sharedCellScene.graph.size := by decide
  obtain ⟨hchain, -⟩ := cycle_shown_iff_hits_lock soleParts [sharedCell, boxedCells]
    { disablePointerAddresses := true } true (by decide) hfit
  have harrives : Walk.Arrives sharedCellScene .dump 2 [] 2 {} := .root
  obtain ⟨chain, link, τ, hr, hcycle⟩ := hchain .dump 2 [] 2 {} harrives {} rfl
  have hlink : Chain.link? sharedCellScene 2 = some (addressOf 1, some 1) := by decide
  -- the link of the pointer opens the address that the cell brings next
  have hpointer : sharedCellScene.graph.shape 2 = .pointer (addressOf 1) (some 1) := by decide
  have hhits : Chain.HitsLock sharedCellScene
      ((placeAll soleParts [sharedCell, boxedCells]).run {}).2.start [] 2 :=
    .later hlink (.here ⟨by decide, rfl⟩ hpointer (by decide) (by simp))
  exact ⟨by decide, hfit, ⟨chain, link, τ, hr, hcycle.2 hhits⟩, by decide, by decide⟩

end Owned

end ValueLens
