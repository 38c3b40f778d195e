/-
**When a level of the walk comes to an end.**

A level runs walks below its value and, where the order of a map asks for it, the walks of keys
that give their compact texts.  It shows what is below a value unless a description stands in for
the value, the depth limit hides it, or its bytes are dumped instead; and it needs the text of a key
if some key does not compare directly and the keys are not ordered by their descriptions.

Of all that, nothing is run in vain and nothing is left out: a level comes to an end exactly if
every walk that it runs does.  So whether a walk ends on its fuel depends on the graph and the frame
it starts in, and not on the suppression flags.

Main definitions:

* `ValueLens.Render.Settles`, `ValueLens.Frame.Settles` — a computation that comes to an end under
  a condition and only then;
* `ValueLens.Walk.Visits` — the walks that a walk runs below a value;
* `ValueLens.Walk.Echoed` — the keys of which the order of a map needs the texts.

Main results:

* `ValueLens.KeyOrder.sort_isSome_iff` — when the entries of a map can be ordered;
* `ValueLens.Walk.ends_succ_iff` — **a walk ends exactly if every walk that it runs does**.
-/
import ValueLens.Proofs.DepthLimit
import ValueLens.Proofs.Lingering

set_option relaxedAutoImplicit false
set_option autoImplicit false

namespace ValueLens

open Render

/-! ### Computations that settle -/

namespace Render

variable {α β : Type}

/-- **A computation that comes to an end under a condition and only then**, from every state with
`A`, and with a result and a state for which `B` holds. -/
def Settles (A : RenderState → Prop) (m : Render α) (P : Prop) (B : α → RenderState → Prop) :
    Prop :=
  ∀ st, A st → ((m st).result.isSome = true ↔ P) ∧ ∀ a σ, (m st).result = some (a, σ) → B a σ

end Render

/-- A computation that settles and gives back the frame. -/
def Frame.Settles {α : Type} (f : Frame) (m : Render α) (P : Prop) : Prop :=
  Render.Settles f.Fits m P fun _ => f.Fits

namespace Render

variable {α β : Type}

namespace Settles

variable {A : RenderState → Prop} {B : α → RenderState → Prop} {C : β → RenderState → Prop}
  {P Q : Prop} {m : Render α} {k : α → Render β} {f : Frame}

theorem congr (h : Settles A m P B) (hiff : P ↔ Q) : Settles A m Q B := by
  intro st hst
  obtain ⟨hend, hresult⟩ := h st hst
  exact ⟨hend.trans hiff, hresult⟩

/-- **One computation after another** ends if both do. -/
protected theorem bind (hm : Settles A m P B) (hk : ∀ a, Settles (B a) (k a) Q C) :
    Settles A (m >>= k) (P ∧ Q) C := by
  intro st hst
  obtain ⟨hend, hresult⟩ := hm st hst
  cases hr : (m st).result with
  | none =>
      have hno : ¬P := fun hP => by simpa [hr] using hend.2 hP
      rw [run_bind_of_none hr]
      simp [hno]
  | some r =>
      obtain ⟨a, σ⟩ := r
      have hP : P := hend.1 (by simp [hr])
      obtain ⟨hend', hresult'⟩ := hk a σ (hresult a σ hr)
      rw [run_bind_of_some hr]
      exact ⟨hend'.trans (by simp [hP]), hresult'⟩

/-- After a computation that always ends, only the second one counts. -/
theorem always_bind (hm : Settles A m True B) (hk : ∀ a, Settles (B a) (k a) Q C) :
    Settles A (m >>= k) Q C :=
  (hm.bind hk).congr (by simp)

protected theorem pure {a : α} (h : ∀ st, A st → B a st) :
    Settles A (pure a : Render α) True B := by
  intro st hst
  refine ⟨by simp, ?_⟩
  intro a' σ hσ
  obtain ⟨rfl, rfl⟩ := Prod.mk.inj (Option.some.inj hσ)
  exact h st hst

theorem quiet (h : Quiet m) : f.Settles m True := by
  intro st hst
  obtain ⟨-, a, σ, hr, hframe⟩ := h st
  refine ⟨by simp [hr], ?_⟩
  intro a' σ' hr'
  obtain ⟨rfl, rfl⟩ := Prod.mk.inj (Option.some.inj (hr.symm.trans hr'))
  exact hframe.trans hst

theorem quiet_bind (hm : Quiet m) (hk : ∀ a, Settles f.Fits (k a) Q C) :
    Settles f.Fits (m >>= k) Q C :=
  (quiet hm).always_bind hk

theorem bind_quiet (hm : Settles A m P fun _ => f.Fits) (hk : ∀ a, Quiet (k a)) :
    Settles A (m >>= k) P fun _ => f.Fits :=
  (hm.bind fun a => quiet (hk a)).congr (by simp)

/-- What is read from the state is known to satisfy what the state does. -/
theorem get_bind {k : RenderState → Render β} (hk : ∀ st, A st → Settles A (k st) Q C) :
    Settles A (get >>= k) Q C := by
  intro st hst
  rw [run_get_bind]
  exact hk st hst st hst

theorem modify {A' : RenderState → Prop} {change : RenderState → RenderState}
    (h : ∀ st, A st → A' (change st)) :
    Settles A (modify change : Render PUnit) True fun _ => A' := by
  intro st hst
  refine ⟨by simp, ?_⟩
  intro a σ hσ
  obtain ⟨-, rfl⟩ := Prod.mk.inj (Option.some.inj hσ)
  exact h st hst

theorem step (e : Step) : Settles A (Render.step e) True fun _ => A := by
  intro st hst
  refine ⟨by simp, ?_⟩
  intro a σ hσ
  obtain ⟨-, rfl⟩ := Prod.mk.inj (Option.some.inj hσ)
  exact hst

end Settles

end Render

namespace Mode

variable {s : Scene} {mode : Mode} {f : Frame} {P : Prop} {inside : Render Unit}

theorem deeper_settles (h : f.deeper.Settles inside P) : f.Settles (deeper inside) P := by
  have hin : Settles f.Fits (modify fun st => { st with depth := st.depth + 1 } : Render PUnit)
      True fun _ => f.deeper.Fits := by
    refine Settles.modify ?_
    rintro st rfl
    rfl
  have hout : Settles f.deeper.Fits
      (modify fun st => { st with depth := st.depth - 1 } : Render PUnit) True fun _ => f.Fits := by
    refine Settles.modify ?_
    intro st hst
    obtain ⟨hp, hd, hi, hl⟩ := Frame.fits_iff.1 hst
    refine Frame.fits_iff.2 ⟨hp, ?_, hi, hl⟩
    simp [hd, Frame.deeper]
  exact hin.always_bind fun _ => (h.bind fun _ => hout).congr (by simp)

/-- A container that the limit hides always ends. -/
theorem nest_settles_of_atLimit {id : NodeId} {bracket : Bracket}
    (h : s.config.atLimit f.depth = true) :
    f.Settles (nest s id bracket inside mode) True := by
  cases mode with
  | dump =>
      refine Settles.get_bind fun st hst => ?_
      obtain ⟨-, hd, -⟩ := Frame.fits_iff.1 hst
      rw [if_pos (by rwa [hd])]
      refine Settles.quiet_bind (Quiet.log _ _) fun _ => ?_
      exact (Settles.step _).bind_quiet fun _ => Quiet.write _
  | compact types details =>
      refine Settles.quiet_bind (Quiet.write _) fun _ => Settles.get_bind fun st hst => ?_
      obtain ⟨-, hd, -⟩ := Frame.fits_iff.1 hst
      rw [if_pos (by rwa [hd])]
      refine (Settles.step _).bind_quiet fun _ => ?_
      exact Quiet.bind (Quiet.write _) fun _ => Quiet.write _

theorem nest_settles {id : NodeId} {bracket : Bracket} (hlimit : s.config.atLimit f.depth = false)
    (h : f.deeper.Settles inside P) : f.Settles (nest s id bracket inside mode) P := by
  cases mode with
  | dump =>
      refine Settles.get_bind fun st hst => ?_
      obtain ⟨-, hd, -⟩ := Frame.fits_iff.1 hst
      rw [if_neg (by simp [hd, hlimit])]
      refine (Settles.step _).always_bind fun _ => Settles.quiet_bind (Quiet.write _) fun _ => ?_
      refine (deeper_settles h).bind_quiet fun _ => ?_
      exact Quiet.bind (quiet_indent _) fun _ => Quiet.write _
  | compact types details =>
      refine Settles.quiet_bind (Quiet.write _) fun _ => Settles.get_bind fun st hst => ?_
      obtain ⟨-, hd, -⟩ := Frame.fits_iff.1 hst
      rw [if_neg (by simp [hd, hlimit])]
      refine (Settles.step _).always_bind fun _ => ?_
      exact (deeper_settles h).bind_quiet fun _ => Quiet.write _

/-- The parts of a container end if each of them does. -/
theorem list_settles {α : Type} {part : α → Render Unit} {P : α → Prop} {xs : List α}
    (h : ∀ x ∈ xs, f.Settles (part x) (P x)) :
    f.Settles (mode.list part xs) (∀ x ∈ xs, P x) := by
  induction xs with
  | nil => exact (Settles.quiet (Quiet.pure _)).congr (by simp)
  | cons x xs ih =>
      cases xs with
      | nil =>
          have hx := h x (by simp)
          exact (hx.bind_quiet fun _ => Quiet.write _).congr (by simp)
      | cons y rest =>
          have hrest := ih fun z hz => h z (List.mem_cons_of_mem _ hz)
          have hboth := (h x (by simp)).bind fun _ =>
            Settles.quiet_bind (Quiet.write mode.divider) fun _ => hrest
          exact hboth.congr (by simp)

end Mode

/-! ### The order of entries -/

namespace KeyOrder

variable {s : Scene} {texts : NodeId → Trace String} {hookAllowed : Bool} {es : List Entry}

/-- **The texts of the keys decide the order**: some key does not compare directly, and the keys may
not be asked for their descriptions or one of them has none. -/
def NeedsTexts (s : Scene) (hookAllowed : Bool) (es : List Entry) : Prop :=
  s.config.echoKeys = true ∧ (∃ e ∈ es, isSimple (s.graph.shape e.key) = false) ∧
    (hookAllowed = true → ∃ e ∈ es, (s.graph.node e.key).capability.text? = none)

theorem descriptions?_eq_none_iff {g : Graph} :
    (descriptions? g es).result = some none ↔
      ∃ e ∈ es, (g.node e.key).capability.text? = none := by
  induction es with
  | nil => simp [descriptions?]
  | cons e es ih =>
      obtain ⟨-, hr⟩ := (g.node e.key).describe_quiet
      unfold descriptions?
      rw [Trace.bind_of_some hr]
      cases ht : (g.node e.key).capability.text? with
      | none => simp [ht]
      | some t =>
          obtain ⟨-, r, hrest, -⟩ := descriptions?_quiet g es
          rw [hrest] at ih
          dsimp only
          rw [Trace.bind_of_some hrest]
          simpa [ht] using ih

theorem asked_eq_none_iff {g : Graph} :
    (asked g hookAllowed es).result = some none ↔
      (hookAllowed = true → ∃ e ∈ es, (g.node e.key).capability.text? = none) := by
  cases hookAllowed with
  | false => simp [asked]
  | true => simpa [asked] using descriptions?_eq_none_iff

theorem echoes_isSome_iff :
    (echoes texts es).result.isSome = true ↔ ∀ e ∈ es, (texts e.key).result.isSome = true := by
  induction es with
  | nil => simp [echoes]
  | cons e es ih =>
      unfold echoes
      cases ht : (texts e.key).result with
      | none =>
          rw [Trace.bind_of_none ht]
          simp [ht]
      | some t =>
          rw [Trace.bind_of_some ht]
          cases hr : (echoes texts es).result with
          | none =>
              rw [Trace.bind_of_none hr]
              simpa [hr, ht] using ih
          | some keyed =>
              rw [Trace.bind_of_some hr]
              simpa [hr, ht] using ih

/-- Keys without descriptions are ordered by their texts, where that is wanted. -/
theorem settle_none_isSome_iff :
    (settle s texts es none).result.isSome = true ↔
      (s.config.echoKeys = true → ∀ e ∈ es, (texts e.key).result.isSome = true) := by
  simp only [settle]
  split
  · next hecho =>
      rw [← echoes_isSome_iff]
      cases hr : (echoes texts es).result with
      | none => simp [Trace.bind_of_none hr, hecho]
      | some keyed => simp [Trace.bind_of_some hr]
  · next hecho => simp [hecho]

/-- **When the entries of a map can be ordered**: always, but where the texts of the keys decide,
and then if every key has a text. -/
theorem sort_isSome_iff :
    (sort s texts hookAllowed es).result.isSome = true ↔
      (NeedsTexts s hookAllowed es → ∀ e ∈ es, (texts e.key).result.isSome = true) := by
  unfold sort
  split
  · next hall =>
      have hno : ¬NeedsTexts s hookAllowed es := by
        rintro ⟨-, ⟨e, he, hsimple⟩, -⟩
        simp [List.all_eq_true.1 hall e he] at hsimple
      simp [hno]
  · next hall =>
      have hsimple : ∃ e ∈ es, isSimple (s.graph.shape e.key) = false := by simpa using hall
      obtain ⟨-, described, hasked, -⟩ := asked_quiet s.graph hookAllowed es
      have hnone : (asked s.graph hookAllowed es).result = some none ↔
          (hookAllowed = true → ∃ e ∈ es, (s.graph.node e.key).capability.text? = none) :=
        asked_eq_none_iff
      rw [hasked] at hnone
      rw [sortByText_eq, Trace.bind_of_some hasked]
      cases described with
      | some keyed =>
          have hno : ¬NeedsTexts s hookAllowed es := fun h => by simpa using hnone.2 h.2.2
          simp [settle, hno]
      | none =>
          have hneeds : NeedsTexts s hookAllowed es ↔ s.config.echoKeys = true := by
            simp [NeedsTexts, hsimple, ← hnone]
          rw [hneeds]
          exact settle_none_isSome_iff

end KeyOrder

/-! ### What a level runs -/

namespace Walk

variable {s : Scene} {mode : Mode} {id : NodeId} {f : Frame}

/-- **What is below a value is shown**: a description does not stand in for it, the limit does not
hide it, and it is not dumped as bytes. -/
def Shown (s : Scene) (mode : Mode) (id : NodeId) (f : Frame) : Prop :=
  match s.graph.shape id with
  | .array q | .slice (some q) => Opens s f id ∧ (mode = .dump → byteView? s q = none)
  | .map (some _) | .record _ => Opens s f id
  | _ => True

/-- **A walk that a walk runs below a value**, and the frame in which it starts. -/
def Visits (s : Scene) (mode : Mode) (id : NodeId) (f : Frame) (child : NodeId) (g : Frame) :
    Prop :=
  Shown s mode id f ∧ Below s id f child g

/-- **A key of which the order of a map needs the text.** -/
def Echoed (s : Scene) (id : NodeId) (f : Frame) (key : NodeId) : Prop :=
  ∃ es, s.graph.shape id = .map (some es) ∧ Opens s f id ∧ s.config.sortKeys = true ∧
    KeyOrder.NeedsTexts s ((f.state false).hookAllowed s) es ∧ ∃ e ∈ es, e.key = key

/-- All walks that a level runs have a property: `V` those below its value, `E` those of keys. -/
def Throughout (s : Scene) (mode : Mode) (id : NodeId) (f : Frame) (V : NodeId → Frame → Prop)
    (E : NodeId → Prop) : Prop :=
  (∀ child g, Visits s mode id f child g → V child g) ∧ ∀ key, Echoed s id f key → E key

section Throughout

variable {V : NodeId → Frame → Prop} {E : NodeId → Prop}

/-- Only maps have keys. -/
theorem not_echoed (h : ∀ es, s.graph.shape id ≠ .map (some es)) (key : NodeId) :
    ¬Echoed s id f key := by
  rintro ⟨es, hs, -⟩
  exact h es hs

theorem throughout_holder_iff {content : NodeId} (hs : s.graph.shape id = .holder (some content)) :
    Throughout s mode id f V E ↔ V content f := by
  constructor
  · exact fun h => h.1 content f ⟨by simp [Shown, hs], .held hs⟩
  · refine fun h => ⟨?_, fun key hkey => absurd hkey (not_echoed (by simp [hs]) key)⟩
    rintro child g ⟨-, hbelow⟩
    cases hbelow with
    | held hs' =>
        obtain rfl := Option.some.inj (Shape.holder.inj (hs.symm.trans hs'))
        exact h
    | element hs' _ => simp [hs] at hs'
    | behind hid _ => simp [hs, Shape.isIndirection] at hid
    | _ => simp_all

theorem throughout_sequence_iff {q : Sequence}
    (hs : s.graph.shape id = .array q ∨ s.graph.shape id = .slice (some q)) :
    Throughout s mode id f V E ↔ (Opens s f id → (mode = .dump → byteView? s q = none) →
      ∀ child ∈ q.items, V child f.deeper) := by
  have hshown : Shown s mode id f ↔ Opens s f id ∧ (mode = .dump → byteView? s q = none) := by
    rcases hs with hs | hs <;> simp [Shown, hs]
  constructor
  · exact fun h hopens hview child hchild =>
      h.1 child _ ⟨hshown.2 ⟨hopens, hview⟩, .element hs hchild⟩
  · intro h
    have hno : ∀ es, s.graph.shape id ≠ .map (some es) := by rcases hs with hs | hs <;> simp [hs]
    refine ⟨?_, fun key hkey => absurd hkey (not_echoed hno key)⟩
    rintro child g ⟨hshow, hbelow⟩
    obtain ⟨hopens, hview⟩ := hshown.1 hshow
    cases hbelow with
    | element hs' hchild =>
        refine h hopens hview child ?_
        rcases hs with hs | hs <;> rcases hs' with hs' | hs' <;> simp_all
    | behind hid _ => rcases hs with hs | hs <;> simp [hs, Shape.isIndirection] at hid
    | _ => rcases hs with hs | hs <;> simp_all

theorem throughout_map_iff {es : List Entry} (hs : s.graph.shape id = .map (some es)) :
    Throughout s mode id f V E ↔ (Opens s f id →
      (s.config.sortKeys = true → KeyOrder.NeedsTexts s ((f.state false).hookAllowed s) es →
        ∀ e ∈ es, E e.key) ∧
      ∀ e ∈ es, V e.key f.deeper ∧ V e.value f.deeper) := by
  have hshown : Shown s mode id f ↔ Opens s f id := by simp [Shown, hs]
  constructor
  · refine fun h hopens => ⟨fun hsort hneeds e he => ?_, fun e he => ⟨?_, ?_⟩⟩
    · exact h.2 e.key ⟨es, hs, hopens, hsort, hneeds, e, he, rfl⟩
    · exact h.1 _ _ ⟨hshown.2 hopens, .key hs he⟩
    · exact h.1 _ _ ⟨hshown.2 hopens, .entry hs he⟩
  · intro h
    constructor
    · rintro child g ⟨hshow, hbelow⟩
      obtain ⟨-, hall⟩ := h (hshown.1 hshow)
      cases hbelow with
      | key hs' he =>
          obtain rfl := Option.some.inj (Shape.map.inj (hs.symm.trans hs'))
          exact (hall _ he).1
      | entry hs' he =>
          obtain rfl := Option.some.inj (Shape.map.inj (hs.symm.trans hs'))
          exact (hall _ he).2
      | element hs' _ => simp [hs] at hs'
      | behind hid _ => simp [hs, Shape.isIndirection] at hid
      | _ => simp_all
    · rintro key ⟨es', hs', hopens, hsort, hneeds, e, he, rfl⟩
      obtain rfl := Option.some.inj (Shape.map.inj (hs.symm.trans hs'))
      exact (h hopens).1 hsort hneeds e he

theorem throughout_record_iff {fds : List Field} (hs : s.graph.shape id = .record fds) :
    Throughout s mode id f V E ↔
      (Opens s f id → ∀ fd ∈ fds, V fd.value (f.deeper.within fd)) := by
  have hshown : Shown s mode id f ↔ Opens s f id := by simp [Shown, hs]
  constructor
  · exact fun h hopens fd hfd => h.1 _ _ ⟨hshown.2 hopens, .field hs hfd⟩
  · refine fun h => ⟨?_, fun key hkey => absurd hkey (not_echoed (by simp [hs]) key)⟩
    rintro child g ⟨hshow, hbelow⟩
    cases hbelow with
    | field hs' hfd =>
        obtain rfl := Shape.record.inj (hs.symm.trans hs')
        exact h (hshown.1 hshow) _ hfd
    | element hs' _ => simp [hs] at hs'
    | behind hid _ => simp [hs, Shape.isIndirection] at hid
    | _ => simp_all

theorem throughout_indirection_iff (hid : (s.graph.shape id).isIndirection s.config = true) :
    Throughout s mode id f V E ↔ ∀ v,
      Chain.Follows s f.path id (Chain.links s id) (Chain.links s id) (.value v) →
        V v (f.along (Chain.links s id) (Chain.locksBehind s id)) := by
  have hshown : Shown s mode id f := by
    generalize hs : s.graph.shape id = shape at hid
    cases shape with
    | pointer a target => simp [Shown, hs]
    | guarded a content lock => simp [Shown, hs]
    | _ => simp [Shape.isIndirection] at hid
  constructor
  · exact fun h v hchain => h.1 v _ ⟨hshown, .behind hid hchain⟩
  · intro h
    refine ⟨?_, fun key hkey => absurd hkey (not_echoed ?_ key)⟩
    · rintro child g ⟨-, hbelow⟩
      cases hbelow with
      | behind _ hchain => exact h _ hchain
      | element hs _ => rcases hs with hs | hs <;> simp [hs, Shape.isIndirection] at hid
      | _ => simp_all [Shape.isIndirection]
    · intro es hs
      simp [hs, Shape.isIndirection] at hid

end Throughout

section Rules

variable {visit : Visit} {texts : Texts} {P Q : Prop}

theorem nested_settles {child : NodeId} (h : f.Settles (visit mode child) P) :
    f.Settles (nested s visit mode child) P :=
  Settles.quiet_bind (Mode.quiet_beginNested _ _) fun _ => h

theorem part_settles {child : NodeId} (h : f.Settles (visit mode child) P) :
    f.Settles (part s visit mode child) P :=
  Settles.quiet_bind (Mode.quiet_beginPart _) fun _ => nested_settles h

theorem elements_settles {q : Sequence} {V : NodeId → Prop}
    (h : (mode = .dump → byteView? s q = none) →
      ∀ child ∈ q.items, f.Settles (visit mode child) (V child)) :
    f.Settles (elements s visit mode q)
      ((mode = .dump → byteView? s q = none) → ∀ child ∈ q.items, V child) := by
  by_cases hview : mode = .dump → byteView? s q = none
  · have hlist : f.Settles (mode.list (part s visit mode) q.items)
        (∀ child ∈ q.items, V child) :=
      Mode.list_settles fun child hchild => part_settles (h hview child hchild)
    rw [elements_eq_spelled hview]
    exact hlist.congr ⟨fun hall _ => hall, fun hall => hall hview⟩
  · obtain ⟨rfl, hsome⟩ : mode = .dump ∧ byteView? s q ≠ none := by simpa using hview
    obtain ⟨bytes, hbytes⟩ := Option.ne_none_iff_exists'.1 hsome
    have hquiet : Quiet (elements s visit .dump q) := by
      rw [elements_of_view hbytes]
      exact Quiet.bind Quiet.get fun st => Quiet.write _
    exact (Settles.quiet hquiet).congr (by simp [hbytes])

theorem entry_settles {e : Entry} (hkey : f.Settles (visit mode e.key) P)
    (hvalue : f.Settles (visit mode e.value) Q) :
    f.Settles (entry s visit mode e) (P ∧ Q) :=
  (part_settles hkey).bind fun _ =>
    Settles.quiet_bind (Mode.quiet_keyMark _) fun _ => part_settles hvalue

/-- Ordering the entries of a map leaves the state alone, and neither adds nor loses an entry. -/
theorem arranged_settles {es : List Entry} : Settles f.Fits (arranged s texts es)
    (s.config.sortKeys = true → KeyOrder.NeedsTexts s ((f.state false).hookAllowed s) es →
      ∀ e ∈ es, (texts f.held e.key).result.isSome = true)
    fun ordered σ => f.Fits σ ∧ ∀ e, e ∈ ordered ↔ e ∈ es := by
  unfold arranged
  split
  · next hsort =>
      rintro st rfl
      have hhook : st.hookAllowed s = (st.frame.state false).hookAllowed s := rfl
      have hheld : st.held = st.frame.held := rfl
      rw [run_get_bind, hhook, hheld]
      simp only [hsort, forall_const]
      rw [← KeyOrder.sort_isSome_iff]
      cases hr : (KeyOrder.sort s (texts st.frame.held) ((st.frame.state false).hookAllowed s)
          es).result with
      | none => simp [run_lift_of_none hr]
      | some ordered =>
          rw [run_lift_of_some hr]
          refine ⟨by simp, ?_⟩
          intro ordered' τ hτ
          obtain ⟨rfl, rfl⟩ := Prod.mk.inj (Option.some.inj hτ)
          exact ⟨rfl, fun e => KeyOrder.mem_sort_iff hr⟩
  · next hsort =>
      exact (Settles.pure fun σ hσ => ⟨hσ, fun _ => Iff.rfl⟩).congr (by simp [hsort])

/-- The entries of a map end if they can be ordered and each of them does. -/
theorem entries_settles {es : List Entry} {V : Entry → Prop}
    (h : ∀ e ∈ es, f.Settles (entry s visit mode e) (V e)) :
    f.Settles (entries s texts visit mode es)
      ((s.config.sortKeys = true → KeyOrder.NeedsTexts s ((f.state false).hookAllowed s) es →
        ∀ e ∈ es, (texts f.held e.key).result.isSome = true) ∧ ∀ e ∈ es, V e) := by
  refine arranged_settles.bind fun ordered => ?_
  rintro σ ⟨hσ, hmem⟩
  have hparts : f.Settles (mode.list (entry s visit mode) ordered) (∀ e ∈ ordered, V e) :=
    Mode.list_settles fun e he => h e ((hmem e).1 he)
  exact (hparts.congr (by simp [hmem])) σ hσ

theorem field_settles {fd : Field}
    (h : (f.within fd).Settles (visit mode fd.value) P) :
    f.Settles (field s visit mode fd) P := by
  refine Settles.quiet_bind (Mode.quiet_label _ _ _) fun _ => Settles.get_bind fun st hst => ?_
  obtain ⟨-, -, hi, -⟩ := Frame.fits_iff.1 hst
  have hin : Settles f.Fits
      (modify fun σ => { σ with inPrivate := st.inPrivate || fd.visibility == .internal } :
        Render PUnit) True fun _ => (f.within fd).Fits := by
    refine Settles.modify ?_
    intro σ hσ
    obtain ⟨hp, hd, -, hl⟩ := Frame.fits_iff.1 hσ
    exact Frame.fits_iff.2 ⟨hp, hd, by simp [hi, Frame.within], hl⟩
  have hout : Settles (f.within fd).Fits
      (modify fun σ => { σ with inPrivate := st.inPrivate } : Render PUnit) True
      fun _ => f.Fits := by
    refine Settles.modify ?_
    intro σ hσ
    obtain ⟨hp, hd, -, hl⟩ := Frame.fits_iff.1 hσ
    exact Frame.fits_iff.2 ⟨hp, hd, hi, hl⟩
  refine hin.always_bind fun _ => ?_
  exact ((nested_settles h).bind fun _ => hout).congr (by simp)

/-- The front of a value always ends, and tells whether a description stands in for it. -/
theorem front_settles :
    Settles f.Fits (front s mode id) True fun b σ => b = standsIn s f id ∧ f.Fits σ := by
  have hask : Settles f.Fits (ask s (s.graph.node id)) True
      fun r σ => r.2 = standsIn s f id ∧ f.Fits σ := by
    rintro st rfl
    obtain ⟨-, r, τ, hr, hframe⟩ := quiet_ask s (s.graph.node id) st
    refine ⟨by simp [hr], ?_⟩
    rintro ⟨answer, b⟩ σ hσ
    obtain ⟨rfl, rfl⟩ := Prod.mk.inj (Option.some.inj (hr.symm.trans hσ))
    exact ⟨(standsIn_eq hσ).symm, hframe⟩
  refine Settles.quiet_bind (Mode.quiet_header _ _ _) fun _ => hask.always_bind fun r => ?_
  exact (Settles.step _).always_bind fun _ => Settles.pure fun σ hσ => hσ

/-- What is shown unless the front stands in for it. -/
theorem fronted_settles {inner : Render Unit} (h : standsIn s f id = false → f.Settles inner P) :
    f.Settles (fronted s mode id inner) (standsIn s f id = false → P) := by
  refine front_settles.always_bind ?_
  rintro b σ ⟨rfl, hσ⟩
  cases hstands : standsIn s f id with
  | true => exact ((Settles.quiet (Quiet.pure _)).congr (by simp)) σ hσ
  | false => exact ((h hstands).congr (by simp)) σ hσ

/-- A container ends if its contents do, where they are shown. -/
theorem container_settles {bracket : Mode.Bracket} {inside : Render Unit}
    (h : Opens s f id → f.deeper.Settles inside P) :
    f.Settles (fronted s mode id (mode.nest s id bracket inside)) (Opens s f id → P) := by
  cases hlimit : s.config.atLimit f.depth with
  | true =>
      refine (fronted_settles fun _ => Mode.nest_settles_of_atLimit hlimit).congr ?_
      simp [Opens, hlimit]
  | false =>
      have hfronted : f.Settles (fronted s mode id (mode.nest s id bracket inside))
          (standsIn s f id = false → P) :=
        fronted_settles fun hstands => Mode.nest_settles hlimit (h ⟨hlimit, hstands⟩)
      exact hfronted.congr (by simp [Opens, hlimit])

/-- Only a nil pointer is shown without walking its chain. -/
theorem beginChain_settles {shape : Shape} :
    Settles f.Fits (mode.beginChain s.config shape) True fun walked σ =>
      f.Fits σ ∧ (walked = false → ∃ a, shape = .pointer a none) := by
  have hwalked : Settles f.Fits (pure true : Render Bool) True fun walked σ =>
      f.Fits σ ∧ (walked = false → ∃ a, shape = .pointer a none) :=
    Settles.pure fun σ hσ => ⟨hσ, by simp⟩
  cases mode with
  | dump => exact Settles.quiet_bind (Mode.quiet_indent _) fun _ => hwalked
  | compact types details =>
      simp only [Mode.beginChain]
      split
      · next a =>
          refine Settles.get_bind fun st _ => ?_
          split
          · refine Settles.quiet_bind (Quiet.setSkipType _) fun _ => ?_
            refine (Settles.step _).always_bind fun _ => ?_
            refine Settles.quiet_bind (Quiet.write _) fun _ => ?_
            exact Settles.pure fun σ hσ => ⟨hσ, fun _ => ⟨a, rfl⟩⟩
          · exact hwalked
      · exact hwalked

/-- Locks are given back. -/
theorem holding_settles {locks : List Address} {m : Render Unit}
    (h : Frame.Settles { f with held := locks ++ f.held } m P) :
    f.Settles (Render.holding locks m) P := by
  refine Settles.get_bind fun st hst => ?_
  obtain ⟨-, -, -, hheld⟩ := Frame.fits_iff.1 hst
  let g : Frame := { f with held := locks ++ f.held }
  have hin : Settles f.Fits (modify fun σ => { σ with held := locks ++ st.held } : Render PUnit)
      True fun _ => g.Fits := by
    refine Settles.modify ?_
    intro σ hσ
    obtain ⟨hp, hd, hi, -⟩ := Frame.fits_iff.1 hσ
    exact Frame.fits_iff.2 ⟨hp, hd, hi, by simp [g, hheld]⟩
  have hout : Settles g.Fits (modify fun σ => { σ with held := st.held } : Render PUnit) True
      fun _ => f.Fits := by
    refine Settles.modify ?_
    intro σ hσ
    obtain ⟨hp, hd, hi, -⟩ := Frame.fits_iff.1 hσ
    exact Frame.fits_iff.2 ⟨hp, hd, hi, hheld⟩
  exact hin.always_bind fun _ => (h.bind fun _ => hout).congr (by simp)

theorem finish_settles {chain : Chain} {link : Link} {V : NodeId → Prop}
    (h : ∀ v, link = .value v →
      Frame.Settles { f with held := chain.locks ++ f.held } (visit mode v) (V v)) :
    f.Settles (finish s visit mode chain link) (∀ v, link = .value v → V v) := by
  rw [finish_eq_arrive]
  refine Settles.quiet_bind (Mode.quiet_chainHeader _ _ _ _) fun _ => ?_
  refine Settles.bind_quiet ?_ fun _ => Mode.quiet_chainFooter _
  cases hending : link.ending? with
  | some ending =>
      rw [arrive_of_ending hending]
      refine ((Settles.step _).bind_quiet fun _ => Quiet.write _).congr ?_
      cases link with
      | value v => simp [Link.ending?] at hending
      | _ => simp
  | none =>
      cases link with
      | value v =>
          refine Settles.congr (P := V v) ?_ (by simp)
          refine (Settles.step _).always_bind fun _ => ?_
          exact Settles.quiet_bind (Quiet.setSkipType _) fun _ => holding_settles (h v rfl)
      | _ => simp [Link.ending?] at hending

/-- A chain leads to a value exactly if it follows all of its links to that value. -/
theorem link_eq_value_iff {path new : List Address} {link : Link} {v : NodeId}
    (hf : Chain.Follows s path id (Chain.links s id) new link) :
    link = .value v ↔ Chain.Follows s path id (Chain.links s id) (Chain.links s id) (.value v) := by
  constructor
  · rintro rfl
    obtain ⟨rfl, -⟩ := hf.value v rfl
    exact hf
  · intro hf'
    obtain ⟨-, hleads⟩ := hf'.value v rfl
    exact hf.reaches v hleads hf'.closing?_eq_none

/-- A chain ends if the value that it leads to does. -/
theorem follow_settles {V : NodeId → Prop}
    (h : ∀ v, Chain.Follows s f.path id (Chain.links s id) (Chain.links s id) (.value v) →
      (f.along (Chain.links s id) (Chain.locksBehind s id)).Settles (visit mode v) (V v)) :
    f.Settles (follow s visit mode id)
      (∀ v, Chain.Follows s f.path id (Chain.links s id) (Chain.links s id) (.value v) → V v) := by
  obtain ⟨chain, link, new, effects, hr, -, hentered, hf, hlocks⟩ :=
    Chain.walk_outcome s (Chain.fuel s.graph) {} id f.path (Chain.room_lt_fuel _ _)
  have hnew : chain.entered = new := by simpa using hentered
  have hwalk : Settles f.Fits (Chain.walk s (Chain.fuel s.graph) {} id) True
      fun r σ => r = (chain, link) ∧ (f.along new []).Fits σ := by
    intro st hst
    obtain ⟨hp, hd, hi, hl⟩ := Frame.fits_iff.1 hst
    rw [hr st hp]
    refine ⟨by simp, ?_⟩
    intro r σ hσ
    obtain ⟨rfl, rfl⟩ := Prod.mk.inj (Option.some.inj hσ)
    exact ⟨rfl, Frame.fits_iff.2 ⟨rfl, hd, hi, hl⟩⟩
  have hfinish : (f.along new []).Settles (finish s visit mode chain link)
      (∀ v, link = .value v → V v) := by
    refine finish_settles ?_
    rintro v rfl
    obtain ⟨rfl, -⟩ := hf.value v rfl
    have hbehind : chain.locks = Chain.locksBehind s id := by
      simpa [Chain.locksBehind] using hlocks v rfl
    rw [hbehind]
    exact h v hf
  -- what stands at the end gives back the path with the links, so leaving them restores the path
  have hleave : Settles (f.along new []).Fits
      (modify fun σ => σ.leave chain.entered : Render PUnit) True fun _ => f.Fits := by
    refine Settles.modify ?_
    intro σ hσ
    obtain ⟨hp, hd, hi, hl⟩ := Frame.fits_iff.1 hσ
    rw [hnew, RenderState.leave_opened σ hf.nodup hp]
    exact Frame.fits_iff.2 ⟨rfl, hd, hi, hl⟩
  have hrest (r : Chain × Link) : Settles (fun σ => r = (chain, link) ∧ (f.along new []).Fits σ)
      (do finish s visit mode r.1 r.2; modify fun σ => σ.leave r.1.entered)
      (∀ v, link = .value v → V v) fun _ => f.Fits := by
    rintro σ ⟨rfl, hσ⟩
    exact ((hfinish.bind fun _ => hleave).congr (by simp)) σ hσ
  have hfollow := hwalk.always_bind hrest
  simp only [link_eq_value_iff hf] at hfollow
  exact hfollow

/-- An indirection ends if the value that it leads to does. -/
theorem indirection_settles {V : NodeId → Prop}
    (h : ∀ v, Chain.Follows s f.path id (Chain.links s id) (Chain.links s id) (.value v) →
      (f.along (Chain.links s id) (Chain.locksBehind s id)).Settles (visit mode v) (V v)) :
    f.Settles (indirection s visit mode id)
      (∀ v, Chain.Follows s f.path id (Chain.links s id) (Chain.links s id) (.value v) → V v) := by
  refine beginChain_settles.always_bind fun walked => ?_
  rintro σ ⟨hσ, hwalked⟩
  cases walked with
  | true => exact follow_settles h σ hσ
  | false =>
      obtain ⟨a, hs⟩ := hwalked rfl
      have hno (v : NodeId) :
          ¬Chain.Follows s f.path id (Chain.links s id) (Chain.links s id) (.value v) :=
        fun hf => Chain.not_leads_of_nil hs (hf.value v rfl).2
      exact ((Settles.quiet (Quiet.pure _)).congr (by simp [hno])) σ hσ

/-- What is shown as a text has nothing below it. -/
theorem bare_of_leaf {text : Mode → String} (h : form s id = .leaf text) :
    (s.graph.shape id).parts = [] ∧ (s.graph.shape id).isIndirection s.config = false ∧
      ∀ es, s.graph.shape id ≠ .map (some es) := by
  unfold form formOf at h
  split at h <;> try split at h
  all_goals simp_all [Shape.parts, Shape.isIndirection]

/-- A value with nothing below it runs no walk at all. -/
theorem throughout_of_bare {V : NodeId → Frame → Prop} {E : NodeId → Prop}
    (hparts : (s.graph.shape id).parts = [])
    (hid : (s.graph.shape id).isIndirection s.config = false)
    (hmap : ∀ es, s.graph.shape id ≠ .map (some es)) : Throughout s mode id f V E :=
  ⟨fun _ _ hvisits => absurd hvisits.2 (not_below_of_no_parts hparts hid),
    fun key hkey => absurd hkey (not_echoed hmap key)⟩

/-- **A level ends exactly if every walk that it runs does.** -/
theorem level_settles {V : NodeId → Frame → Prop}
    (h : ∀ child g, Visits s mode id f child g → g.Settles (visit mode child) (V child g)) :
    f.Settles (level s texts visit mode id)
      (Throughout s mode id f V fun key => (texts f.held key).result.isSome = true) := by
  have hall : Throughout s mode id f (fun child g => g.Settles (visit mode child) (V child g))
      fun _ => True := ⟨h, fun _ _ => trivial⟩
  rw [level_eq_shown]
  cases hform : form s id with
  | held content =>
      have hs := shape_of_held hform
      exact ((throughout_holder_iff hs).1 hall).congr (throughout_holder_iff hs).symm
  | invalid =>
      have hs := shape_of_invalid hform
      have hend : f.Settles (Form.invalid.shown s texts visit mode id) True :=
        (Settles.step _).bind_quiet fun _ => Mode.quiet_invalid _ _
      refine hend.congr (iff_of_true trivial (throughout_of_bare ?_ ?_ ?_))
      · simp [hs, Shape.parts]
      · simp [hs, Shape.isIndirection]
      · simp [hs]
  | chain =>
      have hid := form_eq_chain_iff.1 hform
      have hchain := (throughout_indirection_iff hid).1 hall
      exact (indirection_settles hchain).congr (throughout_indirection_iff hid).symm
  | leaf text =>
      obtain ⟨hparts, hid, hmap⟩ := bare_of_leaf hform
      have hend : f.Settles (fronted s mode id (Render.write (text mode)))
          (standsIn s f id = false → True) :=
        fronted_settles fun _ => Settles.quiet (Quiet.write _)
      exact hend.congr (iff_of_true (fun _ => trivial) (throughout_of_bare hparts hid hmap))
  | sequence q =>
      have hq := shape_of_sequence hform
      have hparts := (throughout_sequence_iff hq).1 hall
      refine (container_settles fun hopens => ?_).congr (throughout_sequence_iff hq).symm
      exact elements_settles (hparts hopens)
  | map es =>
      have hs := shape_of_map hform
      have hparts := (throughout_map_iff hs).1 hall
      refine (container_settles fun hopens => ?_).congr (throughout_map_iff hs).symm
      refine entries_settles fun e he => ?_
      obtain ⟨hkey, hvalue⟩ := (hparts hopens).2 e he
      exact entry_settles hkey hvalue
  | record fds =>
      have hs := shape_of_record hform
      have hparts := (throughout_record_iff hs).1 hall
      refine (container_settles fun hopens => ?_).congr (throughout_record_iff hs).symm
      exact Mode.list_settles fun fd hfd => field_settles (hparts hopens fd hfd)

end Rules

/-! ### What a walk runs -/

/-- A text of a key is there if the walk of the key ends, which cannot acquire the locks that are
held. -/
theorem keyTexts_isSome_iff {n : Nat} {held : List Address} {key : NodeId} :
    (keyTexts s n held key).result.isSome = true ↔
      Ends (s.holding held) (.compact true false) n key {} := by
  simp [keyTexts, echo, Trace.captured, Ends]

theorem walk_succ_settles {n : Nat}
    (h : ∀ child (g : Frame),
      g.Settles (walk s n mode child) (Ends s mode n child (g.state false)))
    (id : NodeId) (f : Frame) :
    f.Settles (walk s (n + 1) mode id)
      (Throughout s mode id f (fun child g => Ends s mode n child (g.state false))
        fun key => Ends (s.holding f.held) (.compact true false) n key {}) := by
  have hlevel : f.Settles (walk s (n + 1) mode id)
      (Throughout s mode id f (fun child g => Ends s mode n child (g.state false))
        fun key => (keyTexts s n f.held key).result.isSome = true) :=
    level_settles fun child g _ => h child g
  simpa only [keyTexts_isSome_iff] using hlevel

/-- Whether a walk ends does not depend on the flags of the state from which it starts. -/
theorem walk_settles (s : Scene) (mode : Mode) (n : Nat) (id : NodeId) (f : Frame) :
    f.Settles (walk s n mode id) (Ends s mode n id (f.state false)) := by
  induction n generalizing id f with
  | zero => exact fun st _ => ⟨by simp [walk, not_ends_zero], by simp [walk]⟩
  | succ n ih =>
      have hwalk := walk_succ_settles ih id f
      exact hwalk.congr (hwalk (f.state false) rfl).1.symm

/-- **A walk ends exactly if every walk that it runs does**, on one unit of fuel less. -/
theorem ends_succ_iff {n : Nat} :
    Ends s mode (n + 1) id (f.state false) ↔
      (∀ child g, Visits s mode id f child g → Ends s mode n child (g.state false)) ∧
        ∀ key, Echoed s id f key → Ends (s.holding f.held) (.compact true false) n key {} :=
  (walk_succ_settles (walk_settles s mode n) id f (f.state false) rfl).1

end Walk

end ValueLens
