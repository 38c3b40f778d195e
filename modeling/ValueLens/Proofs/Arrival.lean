/-
**Where a render arrives, and what its path holds there.**

A render arrives at one value after another, each time in some state.  Which points these are is
said without looking into the walk: a run *passes* a point if it would go otherwise, were the visit
at this one point another.  From the root on, the indirections that lead from each value to the
next are put together to a trail, which depends on the graph alone.

At every point of every render the path is exactly this trail.  So a chain closes a cycle if and
only if one of its links has the address of an indirection around it, in the same chain or in an
enclosing one; and what a value did to the path, the depth and the privacy is undone when it has
been shown, so that nothing of it is left for its later siblings.

Main definitions:

* `ValueLens.Walk.Passes` — a run passes a point;
* `ValueLens.Walk.Arrives` — a render arrives at a value, by a trail of addresses and in a state.

Main results:

* `ValueLens.Walk.Passes.below` — a level passes only what is below its value;
* `ValueLens.Walk.Arrives.path_eq` — **the path is the trail**;
* `ValueLens.Walk.path_holds_enclosing_indirections` — with what follows for cycles and siblings.
-/
import ValueLens.Proofs.Level

set_option relaxedAutoImplicit false
set_option autoImplicit false

namespace ValueLens.Walk

/-! ### Points of a run -/

/-- **A run passes a point** — a visit of a value in a state — if it would go otherwise, were the
visit at this point another and all others the same. -/
def Passes (run : Visit → Render Unit) (visit : Visit) (st : RenderState) (mode : Mode)
    (id : NodeId) (σ : RenderState) : Prop :=
  ∃ visit' : Visit, (∀ m i τ, (m, i, τ) ≠ (mode, id, σ) → visit' m i τ = visit m i τ) ∧
    run visit' st ≠ run visit st

/-- A visit that does not return from one point. -/
def stoppedAt (visit : Visit) (mode : Mode) (id : NodeId) (σ : RenderState) : Visit :=
  fun m i τ => if (m, i, τ) = (mode, id, σ) then Trace.stalled else visit m i τ

/-- A run that comes to an end passes a point if it cannot get past it. -/
theorem Passes.of_stop {run : Visit → Render Unit} {visit : Visit} {st σ : RenderState}
    {mode : Mode} {id : NodeId} (hend : (run visit st).result.isSome = true)
    (hstop : (run (stoppedAt visit mode id σ) st).result.isSome = false) :
    Passes run visit st mode id σ := by
  refine ⟨stoppedAt visit mode id σ, ?_, ?_⟩
  · intro m i τ hne
    simp only [stoppedAt, if_neg hne]
  · intro heq
    rw [heq, hend] at hstop
    exact absurd hstop (by simp)

variable {s : Scene} {mode : Mode} {id child : NodeId} {st σ : RenderState} {n : Nat}
  {texts : Texts}

/-- **A level passes only what is below its value**, in the frame that belongs to it. -/
theorem Passes.below
    (h : Passes (fun visit => level s texts visit mode id) (walk s n) st mode child σ) :
    Below s id st.frame child σ.frame := by
  refine Classical.byContradiction fun hno => ?_
  obtain ⟨visit', hsame, hne⟩ := h
  -- the other visit agrees with the walk on everything below the value, so the level does too
  have hkeeps : (Bond.same False).Keeps st.frame (level s texts visit' mode id)
      (level s texts (walk s n) mode id) := by
    refine level_keeps ?_ (fun _ _ key => ⟨rfl, rfl, False.elim⟩) fun _ a _ => rfl
    rintro child' g hbelow τ rfl
    have hvisit : visit' mode child' τ = walk s n mode child' τ := by
      refine hsame mode child' τ ?_
      rintro heq
      obtain ⟨rfl, rfl⟩ := Prod.mk.inj (Prod.mk.inj heq).2
      exact hno hbelow
    refine ⟨⟨by rw [hvisit]; rfl, by rw [hvisit], False.elim⟩, ?_⟩
    intro u τ' hτ'
    rw [hvisit] at hτ'
    exact ⟨rfl, walk_frame s n mode child' hτ'⟩
  exact hne (hkeeps st rfl).1.of_same

/-- Only indirections have links. -/
theorem links_eq_nil (h : (s.graph.shape id).isIndirection s.config = false) :
    Chain.links s id = [] := by
  refine Chain.linksFrom_of_none ?_ _
  unfold Chain.link?
  split
  · next a target hs => simp [hs, Shape.isIndirection] at h
  · next a content lock hs => simpa [hs, Shape.isIndirection] using h
  · rfl

/-- What is below a value is seen with the links of the value on the path. -/
theorem Below.path_eq {f g : Frame} (h : Below s id f child g) :
    g.path = (Chain.links s id).reverse ++ f.path := by
  cases h with
  | held h => simp [links_eq_nil, h, Shape.isIndirection]
  | element h _ => rcases h with h | h <;> simp [links_eq_nil, h, Shape.isIndirection, Frame.deeper]
  | key h _ => simp [links_eq_nil, h, Shape.isIndirection, Frame.deeper]
  | entry h _ => simp [links_eq_nil, h, Shape.isIndirection, Frame.deeper]
  | field h _ => simp [links_eq_nil, h, Shape.isIndirection, Frame.deeper, Frame.within]
  | behind _ _ => rfl

/-! ### Trails -/

/-- **A render arrives at a value**, by a trail of addresses and in a state: at its root at once,
and at whatever a level of the walk passes, with the links of the level's value added to the
trail.  How much fuel is left for the levels below does not matter. -/
inductive Arrives (s : Scene) (mode : Mode) (root : NodeId) :
    List Address → NodeId → RenderState → Prop
  | root : Arrives s mode root [] root {}
  | next {n : Nat} {trail : List Address} {id child : NodeId} {st σ : RenderState}
      (h : Arrives s mode root trail id st)
      (hpass : Passes (fun visit => level s (keyTexts s n) visit mode id) (walk s n) st mode child
        σ) :
      Arrives s mode root (trail ++ Chain.links s id) child σ

/-- **The path is the trail**, latest first. -/
theorem Arrives.path_eq {root : NodeId} {trail : List Address}
    (h : Arrives s mode root trail id st) : st.path = trail.reverse := by
  induction h with
  | root => rfl
  | next _ hpass ih =>
      have hpath := hpass.below.path_eq
      simp only [RenderState.frame] at hpath
      rw [hpath, ih, List.reverse_append]

/-- A chain comes to an end from every state, and it closes a cycle exactly at the first of its
links that is on the path or stood before in the chain. -/
theorem chain_closes_iff (s : Scene) (id : NodeId) (σ : RenderState) :
    ∃ chain link τ,
      (Chain.walk s (Chain.fuel s.graph) {} id σ).result = some ((chain, link), τ) ∧
      ∀ a, link.ending? = some (.cycle a) ↔ Chain.closing? σ.path (Chain.links s id) = some a := by
  have hroom := Chain.room_lt_fuel s.graph σ.path
  obtain ⟨chain, link, new, hr, -, -, hfollows, -⟩ :=
    Chain.walk_follows s (Chain.fuel s.graph) {} id σ hroom
  exact ⟨chain, link, _, hr, hfollows.cycle_iff⟩

/-- **The path holds exactly the enclosing indirections.**  At every point of every render the path
is the trail of addresses from the root; a chain that starts there ends at a cycle if and only if a
link of it has the address of an enclosing indirection, of the trail or of the chain before it; and
when the value has been shown, the path, the depth and the privacy are what they were. -/
theorem path_holds_enclosing_indirections {root : NodeId} {trail : List Address}
    (h : Arrives s mode root trail id st) :
    st.path = trail.reverse ∧
      (∀ σ, σ.path = st.path → ∃ chain link τ,
        (Chain.walk s (Chain.fuel s.graph) {} id σ).result = some ((chain, link), τ) ∧
        ∀ a, link.ending? = some (.cycle a) ↔
          ∃ before after, Chain.links s id = before ++ a :: after ∧ before.Nodup ∧
            (∀ x ∈ before, x ∉ trail) ∧ (a ∈ trail ∨ a ∈ before)) ∧
      ∀ n σ, (walk s n mode id st).result = some ((), σ) →
        σ.path = st.path ∧ σ.depth = st.depth ∧ σ.inPrivate = st.inPrivate := by
  have hpath := h.path_eq
  refine ⟨hpath, ?_, ?_⟩
  · intro σ hσ
    obtain ⟨chain, link, τ, hr, hcycle⟩ := chain_closes_iff s id σ
    refine ⟨chain, link, τ, hr, fun a => ?_⟩
    rw [hcycle a, Chain.closing?_eq_some_iff, hσ, hpath]
    simp only [List.mem_reverse]
  · intro n σ hσ
    have hframe : st.frame.Fits σ := walk_frame s n mode id hσ
    obtain ⟨hp, hd, hi, -⟩ := Frame.fits_iff.1 hframe
    exact ⟨hp, hd, hi⟩

/-- A record whose field leads back to it by a pointer. -/
def loop : Graph :=
  ⟨#[{ shape := .record [⟨"next", 1, .exported⟩], typeName := "Node" },
     { shape := .pointer 0x10 (some 0), typeName := "Link" }]⟩

theorem loop_arrives :
    Arrives ⟨loop, {}, true⟩ .dump 0 [0x10] 1
      { path := [0x10], depth := 2, skipIndent := true } := by
  have hrecord : Arrives ⟨loop, {}, true⟩ .dump 0 [] 0 {} := .root
  have hpointer : Arrives ⟨loop, {}, true⟩ .dump 0 [] 1 { depth := 1, skipIndent := true } :=
    hrecord.next (n := 4) (Passes.of_stop (by decide) (by decide))
  have hagain : Arrives ⟨loop, {}, true⟩ .dump 0 [0x10] 0
      { path := [0x10], depth := 1, skipType := true } :=
    hpointer.next (n := 4) (Passes.of_stop (by decide) (by decide))
  exact hagain.next (n := 4) (Passes.of_stop (by decide) (by decide))

/-- Back at the pointer, the chain closes a cycle at the address by which the record was reached. -/
theorem loop_closes :
    Arrives ⟨loop, {}, true⟩ .dump 0 [0x10] 1
        { path := [0x10], depth := 2, skipIndent := true } ∧
      ∃ chain link τ,
        (Chain.walk ⟨loop, {}, true⟩ (Chain.fuel loop) {} 1
            { path := [0x10], depth := 2, skipIndent := true }).result =
          some ((chain, link), τ) ∧
        link.ending? = some (.cycle 0x10) := by
  obtain ⟨-, hchain, -⟩ := path_holds_enclosing_indirections loop_arrives
  obtain ⟨chain, link, τ, hr, hcycle⟩ := hchain _ rfl
  refine ⟨loop_arrives, chain, link, τ, hr, (hcycle 0x10).2 ?_⟩
  exact ⟨[], [], by decide, by simp, by simp, Or.inl (by simp)⟩

end ValueLens.Walk
