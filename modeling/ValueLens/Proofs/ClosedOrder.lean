/-
**The order of keys that may not be asked.**

Below a private field a map is put in order without asking its keys for their descriptions, unless
the hatch is open.  But if the order is taken from the compact texts of the keys, each of these is
told by a render of its own, which starts in public and asks whatever value it comes to.  So the
answers that were not to be heard decide the order after all, and their failures are logged.

A render comes to a value by seeing through dynamic holders and chains of indirections.  It asks the
first value that is neither, unless that is invalid or an empty holder; and if it asks nobody, what
anybody would have answered does not show in the text of the key.

Main definitions:

* `ValueLens.Shape.isConsulted` — shapes of the values that a render asks;
* `ValueLens.Walk.SeesThrough` — from a holder or a chain to what is inside;
* `ValueLens.Walk.Consults` — the text of a key asks some value for its description;
* `ValueLens.KeyOrder.Overhears` — an order that keys may not be asked for takes answers into
  account.

Main results:

* `ValueLens.Graph.SameButAnswers.render_eq_of_not_consults` — a text that asks nobody depends on no
  answer;
* `ValueLens.Walk.failure_logged_of_consults` — a text that asks somebody logs a failure to answer;
* `ValueLens.KeyOrder.closed_order_heeds_overheard_answers` — **when the order of keys that may not
  be asked depends on answers.**
-/
import ValueLens.Proofs.KeyEcho
import ValueLens.Proofs.Silence

set_option relaxedAutoImplicit false
set_option autoImplicit false

namespace ValueLens

open Render

/-- **Shapes of the values that a render asks for a description.** -/
def Shape.isConsulted (c : Config) (shape : Shape) : Bool :=
  shape != .invalid && !shape.isHolder && !shape.isIndirection c

namespace Walk

/-- **A render sees through a holder or a chain** to what is inside; a render is given by its value
and the frame it starts in. -/
def SeesThrough (s : Scene) (p q : NodeId × Frame) : Prop :=
  (s.graph.shape p.1).isConsulted s.config = false ∧ Below s p.1 p.2 q.1 q.2

/-- **The text of a key asks some value for its description.** -/
def Consults (s : Scene) (key : NodeId) : Prop :=
  ∃ p, Relation.ReflTransGen (SeesThrough s) (key, .start) p ∧
    (s.graph.shape p.1).isConsulted s.config = true

/-- What is seen through is a full holder or a chain that leads to a value. -/
theorem SeesThrough.held_or_behind {s : Scene} {p q : NodeId × Frame} (h : SeesThrough s p q) :
    (s.graph.shape p.1 = .holder (some q.1) ∧ q.2 = p.2) ∨
    ((s.graph.shape p.1).isIndirection s.config = true ∧
      Chain.Follows s p.2.path p.1 (Chain.links s p.1) (Chain.links s p.1) (.value q.1) ∧
      q.2 = p.2.along (Chain.links s p.1) (Chain.locksBehind s p.1)) := by
  obtain ⟨id, f⟩ := p
  obtain ⟨child, f'⟩ := q
  obtain ⟨hid, hbelow⟩ := h
  have hother {shape : Shape} (hs : s.graph.shape id = shape)
      (hasked : shape.isConsulted s.config = true) : False := by
    simp [hs, hasked] at hid
  cases hbelow with
  | held hs => exact Or.inl ⟨hs, rfl⟩
  | behind hs hchain => exact Or.inr ⟨hs, hchain, rfl⟩
  | element hs _ =>
      rcases hs with hs | hs
      · exact (hother hs rfl).elim
      · exact (hother hs rfl).elim
  | key hs _ => exact (hother hs rfl).elim
  | entry hs _ => exact (hother hs rfl).elim
  | field hs _ => exact (hother hs rfl).elim

/-- A holder is not asked. -/
theorem front_of_holder {s : Scene} {id : NodeId} (hs : (s.graph.shape id).isHolder = true)
    (mode : Mode) :
    front s mode id = (do
      mode.header s (s.graph.node id)
      Render.step (.visited id .notAsked)
      pure false) := by
  have hnode : (s.graph.node id).shape.isHolder = true := hs
  have hask : ask s (s.graph.node id) = pure (.notAsked, false) := by
    funext st
    simp [ask, hnode, run_get_bind]
  simp only [front, hask, pure_bind]

end Walk

/-! ### Texts that ask nobody -/

namespace Graph.SameButAnswers

variable {g₁ g₂ : Graph} (h : g₁.SameButAnswers g₂) (c : Config) (hatchOpen : Bool)

include h

/-- Chains do not depend on answers. -/
theorem chain_eq (n : Nat) (chain : Chain) (id : NodeId) :
    Chain.walk ⟨g₂, c, hatchOpen⟩ n chain id = Chain.walk ⟨g₁, c, hatchOpen⟩ n chain id := by
  have hshape (id : NodeId) : (g₂.node id).shape = (g₁.node id).shape := (h.shape_eq id).symm
  have hname (id : NodeId) : (g₂.node id).typeName = (g₁.node id).typeName :=
    (h.typeName_eq id).symm
  induction n generalizing chain id with
  | zero => rfl
  | succ n ih =>
      simp only [Chain.walk, Chain.behind?, ← h.shape_eq, ← h.typeName_eq, hshape, hname, ih]

theorem follow_eq (visit : Visit) (mode : Mode) (id : NodeId) :
    Walk.follow ⟨g₂, c, hatchOpen⟩ visit mode id =
      Walk.follow ⟨g₁, c, hatchOpen⟩ visit mode id := by
  have htype (chain : Chain) (link : Link) :
      Mode.chainType g₂ chain link = Mode.chainType g₁ chain link := by
    cases link with
    | value v => simp only [Mode.chainType, h.typeName_eq]
    | _ => rfl
  have hheader (chain : Chain) (link : Link) :
      Mode.chainHeader ⟨g₂, c, hatchOpen⟩ chain link mode =
        Mode.chainHeader ⟨g₁, c, hatchOpen⟩ chain link mode := by
    cases mode with
    | _ => simp only [Mode.chainHeader, htype]
  simp only [Walk.follow, Walk.finish, Chain.fuel, h.chain_eq, hheader, h.size_eq]

theorem header_eq (mode : Mode) (id : NodeId) :
    mode.header ⟨g₂, c, hatchOpen⟩ (g₂.node id) = mode.header ⟨g₁, c, hatchOpen⟩ (g₁.node id) := by
  have hshape : (g₂.node id).shape = (g₁.node id).shape := (h.shape_eq id).symm
  have hname : (g₂.node id).typeName = (g₁.node id).typeName := (h.typeName_eq id).symm
  cases mode with
  | _ => simp only [Mode.header, hshape, hname]

/-- **A level at a value that is not asked does not depend on answers**, nor on the texts of
keys. -/
theorem level_eq {id : NodeId} (hid : (g₁.shape id).isConsulted c = false) (texts₁ texts₂ : Texts)
    (visit : Visit) (mode : Mode) :
    Walk.level ⟨g₂, c, hatchOpen⟩ texts₂ visit mode id =
      Walk.level ⟨g₁, c, hatchOpen⟩ texts₁ visit mode id := by
  have hshape : g₂.shape id = g₁.shape id := (h.shape_eq id).symm
  have hchain : Walk.indirection ⟨g₂, c, hatchOpen⟩ visit mode id =
      Walk.indirection ⟨g₁, c, hatchOpen⟩ visit mode id := by
    simp only [Walk.indirection, hshape, h.follow_eq]
  rw [Walk.level_eq_shown, Walk.level_eq_shown]
  simp only [Walk.form, hshape]
  cases hs : g₁.shape id with
  | invalid => rfl
  | pointer a target => exact hchain
  | guarded a content lock =>
      have hd : c.disableGuardResolution = false := by
        simpa [hs, Shape.isConsulted, Shape.isHolder, Shape.isIndirection] using hid
      simpa [Walk.formOf, hd, Walk.Form.shown] using hchain
  | holder content =>
      cases content with
      | some content => rfl
      | none =>
          have hholder : (g₁.shape id).isHolder = true := by simp [hs, Shape.isHolder]
          simp only [Walk.formOf, Walk.Form.shown, Walk.fronted,
            Walk.front_of_holder (s := ⟨g₂, c, hatchOpen⟩) (hshape ▸ hholder),
            Walk.front_of_holder (s := ⟨g₁, c, hatchOpen⟩) hholder, h.header_eq]
  | _ => simp [Shape.isConsulted, hs, Shape.isHolder, Shape.isIndirection] at hid

/-- Walks that see through to no value that is asked do the same. -/
theorem walk_keeps (n : Nat) (mode : Mode) (p : NodeId × Frame)
    (hmute : ∀ q, Relation.ReflTransGen (Walk.SeesThrough ⟨g₁, c, hatchOpen⟩) p q →
      (g₁.shape q.1).isConsulted c = false) :
    (Bond.same False).Keeps p.2 (Walk.walk ⟨g₁, c, hatchOpen⟩ n mode p.1)
      (Walk.walk ⟨g₂, c, hatchOpen⟩ n mode p.1) := by
  induction n generalizing p with
  | zero => exact fun st _ => ⟨⟨rfl, rfl, False.elim⟩, by simp [Walk.walk]⟩
  | succ n ih =>
      have hid := hmute p .refl
      rw [Walk.walk_succ, Walk.walk_succ,
        h.level_eq c hatchOpen hid (Walk.keyTexts ⟨g₁, c, hatchOpen⟩ n)]
      refine Walk.level_keeps ?_ (fun _ _ _ => ⟨rfl, rfl, False.elim⟩) (fun _ _ _ => rfl)
      intro child f hbelow
      exact ih (child, f) fun q hq => hmute q (.head ⟨hid, hbelow⟩ hq)

/-- **A text that asks nobody depends on no answer.** -/
theorem render_eq_of_not_consults {key : NodeId}
    (hkey : ¬Walk.Consults ⟨g₁, c, hatchOpen⟩ key) (types details : Bool) :
    Scene.render ⟨g₁, c, hatchOpen⟩ types details key =
      Scene.render ⟨g₂, c, hatchOpen⟩ types details key := by
  have hfuel : Scene.fuel ⟨g₂, c, hatchOpen⟩ = Scene.fuel ⟨g₁, c, hatchOpen⟩ := by
    simp only [Scene.fuel, Walk.fuel, h.size_eq]
  have hkeeps := h.walk_keeps c hatchOpen (Scene.fuel ⟨g₁, c, hatchOpen⟩) (.compact types details)
    (key, .start) fun q hq => by simpa using fun hasked => hkey ⟨q, hq, hasked⟩
  have hrun := (hkeeps {} rfl).1.of_same
  simp only [Scene.render, Scene.present, fromStart, hfuel, StateT.run', hrun]

/-- Chains lead to the same values along the same links, and acquire the same locks. -/
theorem follows_value {path : List Address} {id v : NodeId}
    (hchain : Chain.Follows ⟨g₁, c, hatchOpen⟩ path id (Chain.links ⟨g₁, c, hatchOpen⟩ id)
      (Chain.links ⟨g₁, c, hatchOpen⟩ id) (.value v)) :
    Chain.links ⟨g₂, c, hatchOpen⟩ id = Chain.links ⟨g₁, c, hatchOpen⟩ id ∧
      Chain.locksBehind ⟨g₂, c, hatchOpen⟩ id = Chain.locksBehind ⟨g₁, c, hatchOpen⟩ id ∧
      Chain.Follows ⟨g₂, c, hatchOpen⟩ path id (Chain.links ⟨g₂, c, hatchOpen⟩ id)
        (Chain.links ⟨g₂, c, hatchOpen⟩ id) (.value v) := by
  obtain ⟨chain₁, link₁, new₁, hr₁, -, -, hf₁, hlocks₁⟩ := Chain.walk_follows ⟨g₁, c, hatchOpen⟩
    (Chain.fuel g₁) {} id { path := path } (Chain.room_lt_fuel _ _)
  obtain ⟨chain₂, link₂, new₂, hr₂, -, -, hf₂, hlocks₂⟩ := Chain.walk_follows ⟨g₂, c, hatchOpen⟩
    (Chain.fuel g₂) {} id { path := path } (Chain.room_lt_fuel _ _)
  have hfuel : Chain.fuel g₂ = Chain.fuel g₁ := by simp only [Chain.fuel, h.size_eq]
  rw [h.chain_eq, hfuel, hr₁] at hr₂
  obtain rfl : link₁ = .value v := (Walk.link_eq_value_iff hf₁).2 hchain
  obtain ⟨⟨rfl, rfl⟩, hnew⟩ : (chain₁ = chain₂ ∧ .value v = link₂) ∧ new₁ = new₂ := by
    simpa using hr₂
  have hlinks₁ : new₁ = Chain.links ⟨g₁, c, hatchOpen⟩ id := (hf₁.value v rfl).1
  have hlinks₂ : new₂ = Chain.links ⟨g₂, c, hatchOpen⟩ id := (hf₂.value v rfl).1
  have hlocks := (hlocks₂ v rfl).symm.trans (hlocks₁ v rfl)
  exact ⟨by rw [← hlinks₂, ← hnew, hlinks₁], by simpa [Chain.locksBehind] using hlocks,
    (Walk.link_eq_value_iff hf₂).1 rfl⟩

/-- Holders and chains are seen through whatever is answered. -/
theorem seesThrough {p q : NodeId × Frame} (hpq : Walk.SeesThrough ⟨g₁, c, hatchOpen⟩ p q) :
    Walk.SeesThrough ⟨g₂, c, hatchOpen⟩ p q := by
  refine ⟨by simpa only [h.shape_eq] using hpq.1, ?_⟩
  rcases hpq.held_or_behind with ⟨hs, hframe⟩ | ⟨hs, hchain, hframe⟩
  · rw [hframe]
    exact .held (by simpa only [h.shape_eq] using hs)
  · obtain ⟨hlinks, hlocks, hchain'⟩ := h.follows_value c hatchOpen hchain
    rw [hframe, ← hlinks, ← hlocks]
    exact .behind (by simpa only [h.shape_eq] using hs) hchain'

/-- Which values are asked does not depend on answers. -/
theorem consults {key : NodeId} (hkey : Walk.Consults ⟨g₁, c, hatchOpen⟩ key) :
    Walk.Consults ⟨g₂, c, hatchOpen⟩ key := by
  obtain ⟨p, hp, hasked⟩ := hkey
  refine ⟨p, hp.lift id fun _ _ => h.seesThrough c hatchOpen, ?_⟩
  simpa only [h.shape_eq] using hasked

theorem needsTexts {es : List Entry} {c : Config} {hatchOpen : Bool}
    (hneeds : KeyOrder.NeedsTexts ⟨g₁, c, hatchOpen⟩ false es) :
    KeyOrder.NeedsTexts ⟨g₂, c, hatchOpen⟩ false es := by
  obtain ⟨hkeys, ⟨e, he, hsimple⟩, -⟩ := hneeds
  exact ⟨hkeys, ⟨e, he, by simpa only [h.shape_eq] using hsimple⟩, by simp⟩

end Graph.SameButAnswers

/-! ### Texts that ask somebody -/

namespace Walk

section Failing

variable {s : Scene} {message : String} (hmethods : s.config.disableMethods = false)
  (hfail : ∀ id < s.graph.size, (s.graph.node id).capability = .panicked message)

include hmethods hfail

/-- The failure of a value that is asked in public stands in for it, and is logged. -/
theorem ask_of_failing {id : NodeId} (hid : (s.graph.shape id).isConsulted s.config = true)
    {st : RenderState} (hst : st.inPrivate = false) :
    (ask s (s.graph.node id) st).result = some ((.panicked, true), st) ∧
      .log (Node.failure (s.graph.typeName id) message) ∈
        (ask s (s.graph.node id) st).effects := by
  have hshape : s.graph.shape id ≠ .invalid ∧ (s.graph.shape id).isHolder = false := by
    simp only [Shape.isConsulted, Bool.and_eq_true, bne_iff_ne, Bool.not_eq_true'] at hid
    exact hid.1
  have hsize : id < s.graph.size := by
    by_contra hge
    exact hshape.1 (Graph.shape_of_size_le (Nat.le_of_not_lt hge))
  have hholder : (s.graph.node id).shape.isHolder = false := hshape.2
  have hhook : st.hookAllowed s = true := by simp [RenderState.hookAllowed, hmethods, hst]
  have hask : ask s (s.graph.node id) st =
      (liftM ((s.graph.node id).consult s.config) : Render (Answer × Bool)) st := by
    simp [ask, run_get_bind, hholder, hhook]
  have hconsult : (s.graph.node id).consult s.config =
      ⟨[.log (Node.failure (s.graph.typeName id) message),
        .write (Node.panicMark message)], some (.panicked, true)⟩ := by
    simp only [Node.consult, Node.describe, hfail id hsize]
    rfl
  rw [hask, hconsult]
  exact ⟨rfl, by simp [run_lift_of_some (t := ⟨_, some (Answer.panicked, true)⟩) rfl]⟩

/-- So no container that is met in public is opened. -/
theorem not_opens_of_failing {id : NodeId} (hid : (s.graph.shape id).isConsulted s.config = true)
    {f : Frame} (hf : f.inPrivate = false) : ¬Opens s f id := by
  rintro ⟨-, hstands⟩
  have hstands' : standsIn s (f.state false).frame id = true :=
    standsIn_eq (ask_of_failing hmethods hfail hid hf).1
  exact absurd (hstands.symm.trans hstands') (by simp)

/-- Nothing is run below a value that is met in public but what is seen through to. -/
theorem Visits.seesThrough {mode : Mode} {id child : NodeId} {f g : Frame}
    (h : Visits s mode id f child g) (hf : f.inPrivate = false) :
    SeesThrough s (id, f) (child, g) ∧ g.inPrivate = false := by
  obtain ⟨hshown, hbelow⟩ := h
  have hclosed {shape : Shape} (hs : s.graph.shape id = shape)
      (hasked : shape.isConsulted s.config = true) : ¬Opens s f id :=
    not_opens_of_failing hmethods hfail (hs ▸ hasked) hf
  cases hbelow with
  | held hs => exact ⟨⟨by simp [hs, Shape.isConsulted, Shape.isHolder], .held hs⟩, hf⟩
  | behind hs hchain => exact ⟨⟨by simp [hs, Shape.isConsulted], .behind hs hchain⟩, hf⟩
  | element hs _ =>
      rcases hs with hs | hs
      · simp only [Shown, hs] at hshown
        exact absurd hshown.1 (hclosed hs rfl)
      · simp only [Shown, hs] at hshown
        exact absurd hshown.1 (hclosed hs rfl)
  | key hs _ =>
      simp only [Shown, hs] at hshown
      exact absurd hshown (hclosed hs rfl)
  | entry hs _ =>
      simp only [Shown, hs] at hshown
      exact absurd hshown (hclosed hs rfl)
  | field hs _ =>
      simp only [Shown, hs] at hshown
      exact absurd hshown (hclosed hs rfl)

/-- A render asks for the text of no key, because it opens no map. -/
theorem not_asks_of_failing (mode : Mode) (held : List Address) (root : NodeId) (a : Asking) :
    ¬Asks s mode held root a := by
  have hfail' : ∀ id < (s.holding held).graph.size,
      ((s.holding held).graph.node id).capability = .panicked message := by
    simpa using hfail
  rintro ⟨p, hruns, ⟨es, hs, hopens, -⟩, -⟩
  have hpublic : p.2.inPrivate = false := by
    clear hs hopens
    induction hruns with
    | refl => rfl
    | tail _ hrun ih =>
        exact (Visits.seesThrough (s := s.holding held) hmethods hfail' hrun ih).2
  exact not_opens_of_failing (s := s.holding held) hmethods hfail' (by rw [hs]; rfl) hpublic hopens

/-- **Where everybody fails to answer, every text comes to an end.** -/
theorem render_isSome_of_failing (hg : s.graph.Grounded) (types details : Bool) (id : NodeId) :
    (s.render types details id).result.isSome = true := by
  obtain ⟨rank, hle, hlt⟩ := hg.exists_rank
  have hends : Ends s (.compact types details) s.fuel id {} := by
    refine (ends_of_not_circles hle hlt ?_).mono s.graph_fuel_le
    rintro ⟨-, ⟨first, hasks, -⟩, -⟩
    exact not_asks_of_failing hmethods hfail _ _ _ _ hasks
  simpa [Scene.render, Scene.present, Trace.captured, Ends] using hends

end Failing

/-- In compact mode a chain is walked, unless it starts at a nil pointer. -/
theorem indirection_compact {s : Scene} {id : NodeId}
    (hnil : ∀ a, s.graph.shape id ≠ .pointer a none) (visit : Visit) (types details : Bool) :
    indirection s visit (.compact types details) id =
      follow s visit (.compact types details) id := by
  have hbegin : (Mode.compact types details).beginChain s.config (s.graph.shape id) =
      pure true := by
    simp only [Mode.beginChain]
  simp only [indirection, hbegin, pure_bind, if_true]

section Logged

variable {s : Scene} {message : String} (hmethods : s.config.disableMethods = false)
  (hfail : ∀ id < s.graph.size, (s.graph.node id).capability = .panicked message)
  (types details : Bool)

include hmethods hfail

/-- A value that is asked logs its failure. -/
theorem failure_logged_at {id : NodeId} (hid : (s.graph.shape id).isConsulted s.config = true)
    {n : Nat} {st : RenderState} (hst : st.inPrivate = false)
    (hends : Ends s (.compact types details) n id st) :
    .log (Node.failure (s.graph.typeName id) message) ∈
      (walk s n (.compact types details) id st).effects := by
  cases n with
  | zero => exact absurd hends (not_ends_zero _ _)
  | succ n =>
      obtain ⟨⟨⟨⟩, τ⟩, hτ⟩ := Option.isSome_iff_exists.1 hends
      rw [walk_succ] at hτ ⊢
      rcases level_cases s (keyTexts s n) (walk s n) (.compact types details) id with
        ⟨content, hs, -⟩ | ⟨hs, -⟩ | ⟨hs, -⟩ | ⟨-, -, hlevel⟩
      · simp [hs, Shape.isConsulted, Shape.isHolder] at hid
      · simp [hs, Shape.isConsulted] at hid
      · simp [hs, Shape.isConsulted] at hid
      · rw [hlevel, value_eq_fronted] at hτ ⊢
        obtain ⟨σ, answer, stands, hheader, -, -, heffects⟩ := fronted_inv hτ
        rw [Mode.header_compact_result, Option.some.injEq, Prod.mk.injEq] at hheader
        obtain ⟨-, rfl⟩ := hheader
        have hpublic : ({ st with skipType := false } : RenderState).inPrivate = false := hst
        have hlog := (ask_of_failing hmethods hfail hid hpublic).2
        rw [heffects]
        simp only [List.mem_append]
        exact Or.inl (Or.inl (Or.inr hlog))

/-- So does the value that a walk sees through to. -/
theorem failure_logged {p q : NodeId × Frame} (hpq : Relation.ReflTransGen (SeesThrough s) p q)
    (hq : (s.graph.shape q.1).isConsulted s.config = true) :
    ∀ n st, p.2.Fits st → p.2.inPrivate = false → Ends s (.compact types details) n p.1 st →
      .log (Node.failure (s.graph.typeName q.1) message) ∈
        (walk s n (.compact types details) p.1 st).effects := by
  induction hpq using Relation.ReflTransGen.head_induction_on with
  | refl =>
      intro n st hst hpublic hends
      rw [← (Frame.fits_iff.1 hst).2.2.1] at hpublic
      exact failure_logged_at hmethods hfail types details hq hpublic hends
  | head hfirst hrest ih =>
      intro n st hst hpublic hends
      cases n with
      | zero => exact absurd hends (not_ends_zero _ _)
      | succ n =>
          obtain ⟨⟨⟨⟩, τ⟩, hτ⟩ := Option.isSome_iff_exists.1 hends
          rw [walk_succ, level_eq_shown] at hτ ⊢
          rcases hfirst.held_or_behind with ⟨hs, hframe⟩ | ⟨hs, hchain, hframe⟩
          · simp only [form, hs, formOf, Form.shown] at hτ ⊢
            exact ih n st (hframe ▸ hst) (hframe ▸ hpublic) (by simp [Ends, hτ])
          · have hnil (a : Address) : s.graph.shape _ ≠ .pointer a none := fun hs =>
              Chain.not_leads_of_nil hs (hchain.value _ rfl).2
            rw [form_eq_chain_iff.2 hs, Form.shown, indirection_compact hnil] at hτ ⊢
            obtain ⟨chain, link, new, σ, hf, hlocks, hfinish, -, heffects⟩ := follow_inv hτ
            obtain ⟨hpath, hdepth, hprivate, hheld⟩ := Frame.fits_iff.1 hst
            rw [hpath] at hf
            obtain rfl := (link_eq_value_iff hf).2 hchain
            obtain ⟨σ', hheader, ⟨v, ρ, hv, hend, -, heffects'⟩ | ⟨ending, hending, -⟩⟩ :=
              finish_inv hfinish
            · obtain rfl := Link.value.inj hv
              rw [Mode.chainHeader_compact_result, Option.some.injEq, Prod.mk.injEq] at hheader
              obtain ⟨-, rfl⟩ := hheader
              rw [heffects, heffects']
              refine List.mem_append_right _ (List.mem_append_right _ (List.mem_cons_of_mem _
                (List.mem_append_left _ ?_)))
              refine ih n _ ?_ (hframe ▸ hpublic) (Option.isSome_iff_exists.2 ⟨_, hend⟩)
              rw [hframe, ← (hf.value _ rfl).1, ← hlocks _ rfl]
              exact Frame.fits_iff.2 ⟨by simp [Frame.along, hpath], hdepth, hprivate,
                by simp [Frame.along, hheld]⟩
            · simp [Link.ending?] at hending

/-- **A text that asks somebody logs the failure to answer.** -/
theorem failure_logged_of_consults (hg : s.graph.Grounded) {key : NodeId} (hkey : Consults s key) :
    ∃ name, .log (Node.failure name message) ∈
      (s.render types details key).effects := by
  obtain ⟨p, hp, hasked⟩ := hkey
  have hends : Ends s (.compact types details) s.fuel key {} := by
    have hsome := render_isSome_of_failing hmethods hfail hg types details key
    simpa [Scene.render, Scene.present, Trace.captured, Ends] using hsome
  have hlog := failure_logged hmethods hfail types details hp hasked s.fuel {} rfl rfl hends
  refine ⟨s.graph.typeName p.1, List.mem_filter.2 ⟨?_, rfl⟩⟩
  rw [Scene.present, fromStart_effects]
  exact hlog

end Logged

end Walk

/-! ### Orders -/

/-- The order of entries whose keys may not be asked. -/
def Scene.closedOrder (s : Scene) (es : List Entry) : Trace (List Entry) :=
  KeyOrder.sort s (s.render true false) false es

namespace KeyOrder

/-- **An order that keys may not be asked for takes answers into account**: it needs the texts of
the keys, and one of these asks somebody. -/
def Overhears (s : Scene) (es : List Entry) : Prop :=
  NeedsTexts s false es ∧ s.config.disableMethods = false ∧ ∃ e ∈ es, Walk.Consults s e.key

/-- The texts of the keys are told one after the other. -/
theorem mem_echoes {echo : NodeId → Trace String} {es : List Entry} {e : Entry} {x : Effect}
    (hends : ∀ e ∈ es, (echo e.key).result.isSome = true) (he : e ∈ es)
    (hx : x ∈ (echo e.key).effects) : x ∈ (echoes echo es).effects := by
  induction es with
  | nil => cases he
  | cons first es ih =>
      obtain ⟨t, ht⟩ := Option.isSome_iff_exists.1 (hends first (by simp))
      simp only [echoes]
      rcases List.mem_cons.1 he with rfl | he
      · exact Trace.mem_bind_of_left hx _
      · refine Trace.mem_bind_of_right ht (Trace.mem_bind_of_left ?_ _)
        exact ih (fun e' he' => hends e' (by simp [he'])) he

theorem mem_sort_of_echo {s : Scene} {echo : NodeId → Trace String} {es : List Entry} {e : Entry}
    {x : Effect} (hneeds : NeedsTexts s false es)
    (hends : ∀ e ∈ es, (echo e.key).result.isSome = true) (he : e ∈ es)
    (hx : x ∈ (echo e.key).effects) : x ∈ (sort s echo false es).effects := by
  obtain ⟨hkeys, hsimple, -⟩ := hneeds
  rw [sort_of_not_simple hsimple]
  refine Trace.mem_bind_of_right (a := none) rfl ?_
  simp only [settle, hkeys, if_true]
  exact Trace.mem_bind_of_left (mem_echoes hends he hx) _

/-- An order that takes no answers into account is the same whatever is answered. -/
theorem closedOrder_eq {s : Scene} {es : List Entry} (h : ¬Overhears s es) {g : Graph}
    (hg : s.graph.SameButAnswers g) :
    { s with graph := g }.closedOrder es = s.closedOrder es := by
  refine Eq.symm ?_
  refine sort_congr rfl (fun e _ => hg.isSimple_eq e.key) (fun e _ => hg.ofNode_eq e.key)
    (fun hhook => by simp at hhook) fun hkeys hsimple e he => ?_
  cases hmethods : s.config.disableMethods with
  | true => exact hg.render_eq hmethods true false e.key
  | false =>
      refine hg.render_eq_of_not_consults s.config s.hatchOpen ?_ true false
      exact fun hkey => h ⟨⟨hkeys, hsimple, by simp⟩, hmethods, e, he, hkey⟩

/-- The failure of a value that an order asks is logged. -/
theorem failure_logged_in_order {s : Scene} {message : String}
    (hmethods : s.config.disableMethods = false)
    (hfail : ∀ id < s.graph.size, (s.graph.node id).capability = .panicked message)
    (hg : s.graph.Grounded) {es : List Entry} (hneeds : NeedsTexts s false es) {e : Entry}
    (he : e ∈ es) (hkey : Walk.Consults s e.key) :
    ∃ name, Node.failure name message ∈
      (s.closedOrder es).logs := by
  obtain ⟨name, hlog⟩ := Walk.failure_logged_of_consults hmethods hfail true false hg hkey
  have hends (e : Entry) (_ : e ∈ es) : (s.render true false e.key).result.isSome = true :=
    Walk.render_isSome_of_failing hmethods hfail hg true false e.key
  exact ⟨name, List.mem_filterMap.2 ⟨_, mem_sort_of_echo hneeds hends he hlog, rfl⟩⟩

/-- **When the order of keys that may not be asked depends on answers.**  It does not, nor does
what is logged, unless some key does not compare directly, the compact texts of the keys decide, and
one of these asks a value for its description.  In that case, on a grounded graph, there are other
answers with which something else is logged. -/
theorem closed_order_heeds_overheard_answers (s : Scene) (es : List Entry) :
    (¬Overhears s es → ∀ g, s.graph.SameButAnswers g →
      { s with graph := g }.closedOrder es = s.closedOrder es) ∧
    (s.graph.Grounded → Overhears s es → ∃ g, s.graph.SameButAnswers g ∧
      ({ s with graph := g }.closedOrder es).logs ≠ (s.closedOrder es).logs) := by
  refine ⟨fun h g hg => closedOrder_eq h hg, ?_⟩
  rintro hground ⟨hneeds, hmethods, e, he, hkey⟩
  obtain ⟨message, hlonger⟩ := exists_longer ((s.closedOrder es).logs.map LogEvent.message)
  -- let everybody fail with a message that is longer than all that was logged
  have hsame := s.graph.sameButAnswers_answering fun _ => .panicked message
  obtain ⟨name, hlog⟩ := failure_logged_in_order
    (s := { s with graph := s.graph.answering fun _ => .panicked message }) hmethods
    (fun id hid => Graph.capability_answering (hsame.size_eq ▸ hid) _) (hsame.grounded hground)
    (hsame.needsTexts hneeds) he (hsame.consults s.config s.hatchOpen hkey)
  refine ⟨_, hsame, fun hlogs => ?_⟩
  rw [hlogs] at hlog
  have hless := hlonger _ (List.mem_map_of_mem hlog)
  simp only [Node.failure, String.length_append] at hless
  omega

/-- A map whose keys are records that may describe themselves. -/
def drawer (first second : Capability) (c : Config) : Scene where
  graph :=
    ⟨#[{ shape := .map (some [⟨1, 3⟩, ⟨2, 4⟩]), typeName := "Map" },
       { shape := .record [], typeName := "Key", capability := first },
       { shape := .record [], typeName := "Key", capability := second },
       { shape := .int 1 64, typeName := "Int" },
       { shape := .int 2 64, typeName := "Int" }]⟩
  config := c
  hatchOpen := false

theorem drawer_grounded (first second : Capability) (c : Config) :
    (drawer first second c).graph.Grounded := by
  refine Graph.Grounded.of_rank (fun id => 1 - id) ?_
  intro id child h
  have hparts : ((drawer first second c).graph.shape id).parts =
      ((drawer .absent .absent {}).graph.shape id).parts := by
    rcases id with _ | _ | _ | _ | _ | id <;> rfl
  have hid : id < 5 := h.lt_size
  have hall : ∀ id < 5, ∀ child ∈ ((drawer .absent .absent {}).graph.shape id).parts,
      1 - child < 1 - id := by
    decide
  exact hall id hid child (hparts ▸ h)

/-- Two entries change places if the first is greater. -/
theorem sortOn_pair {α κ : Type} (compare : κ → κ → Ordering) (x y : κ × α) :
    sortOn compare [x, y] = if compare x.1 y.1 = .gt then [y.2, x.2] else [x.2, y.2] := by
  by_cases hgreater : compare x.1 y.1 = .gt
  · simp [sortOn, List.mergeSort, hgreater]
  · simp [sortOn, List.mergeSort, hgreater]

theorem drawer_order {first second : Capability} {keyed : List (String × Entry)}
    (h : echoes ((drawer first second { echoKeys := true }).render true false)
      [⟨1, 3⟩, ⟨2, 4⟩] = ⟨[], some keyed⟩) :
    ((drawer first second { echoKeys := true }).closedOrder [⟨1, 3⟩, ⟨2, 4⟩]).result =
      some (sortOn Ord.compare keyed) := by
  change (echoes ((drawer first second { echoKeys := true }).render true false)
    [⟨1, 3⟩, ⟨2, 4⟩] >>= fun keyed => pure (sortOn Ord.compare keyed)).result = _
  rw [h]
  rfl

/-- Keys that may not be asked keep their order whatever they would answer, unless it is taken from
their compact texts: then their answers decide it, and a failure to answer is logged. -/
theorem drawer_overhears :
    (drawer .absent .absent { echoKeys := true }).graph.Grounded ∧
    (∀ first second,
      (drawer first second {}).closedOrder [⟨1, 3⟩, ⟨2, 4⟩] =
        (drawer .absent .absent {}).closedOrder [⟨1, 3⟩, ⟨2, 4⟩]) ∧
    (∃ g, (drawer .absent .absent { echoKeys := true }).graph.SameButAnswers g ∧
      ({ drawer .absent .absent { echoKeys := true } with graph := g }.closedOrder
          [⟨1, 3⟩, ⟨2, 4⟩]).logs ≠
        ((drawer .absent .absent { echoKeys := true }).closedOrder [⟨1, 3⟩, ⟨2, 4⟩]).logs) ∧
    ((drawer .absent .absent { echoKeys := true }).closedOrder [⟨1, 3⟩, ⟨2, 4⟩]).result =
      some [⟨1, 3⟩, ⟨2, 4⟩] ∧
    ((drawer (.text "b") (.text "a") { echoKeys := true }).closedOrder [⟨1, 3⟩, ⟨2, 4⟩]).result =
      some [⟨2, 4⟩, ⟨1, 3⟩] := by
  obtain ⟨hsame, -⟩ := closed_order_heeds_overheard_answers (drawer .absent .absent {})
    [⟨1, 3⟩, ⟨2, 4⟩]
  obtain ⟨-, hdiffer⟩ := closed_order_heeds_overheard_answers
    (drawer .absent .absent { echoKeys := true }) [⟨1, 3⟩, ⟨2, 4⟩]
  refine ⟨drawer_grounded _ _ _, ?_, ?_, ?_, ?_⟩
  · intro first second
    refine hsame ?_ (drawer first second {}).graph ?_
    · rintro ⟨⟨hkeys, -⟩, -⟩
      cases hkeys
    · exact ⟨rfl, by rintro (_ | _ | _ | _ | _ | id) <;> rfl,
        by rintro (_ | _ | _ | _ | _ | id) <;> rfl⟩
  · refine hdiffer (drawer_grounded _ _ _) ⟨⟨rfl, ⟨⟨1, 3⟩, by simp, rfl⟩, by simp⟩, rfl, ?_⟩
    exact ⟨⟨1, 3⟩, by simp, (1, .start), .refl, rfl⟩
  · have htexts : echoes ((drawer .absent .absent { echoKeys := true }).render true false)
        [⟨1, 3⟩, ⟨2, 4⟩] =
        ⟨[], some [("(Key)\x7b\x7d", ⟨1, 3⟩), ("(Key)\x7b\x7d", ⟨2, 4⟩)]⟩ := by
      decide +kernel
    rw [drawer_order htexts, sortOn_pair]
    decide +kernel
  · have htexts : echoes ((drawer (.text "b") (.text "a") { echoKeys := true }).render true false)
        [⟨1, 3⟩, ⟨2, 4⟩] = ⟨[], some [("(Key)b", ⟨1, 3⟩), ("(Key)a", ⟨2, 4⟩)]⟩ := by
      decide +kernel
    rw [drawer_order htexts, sortOn_pair]
    decide +kernel

end KeyOrder

end ValueLens
