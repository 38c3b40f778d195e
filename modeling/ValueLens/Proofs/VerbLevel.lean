/-
**What one level does under a verb.**

A verb is applied by a walk that knows nothing but its depth: it looks through dynamic holders,
follows an indirection at depth zero, and goes from a container to its parts.  Where it goes from a
value is said once, by the relation `ValueLens.Verb.Descends`.

Two runs of a level are compared under a congruence of traces.  The main result is the rule of a
level: if two scenes look alike at a value, and what the walk descends to is congruent, then the
level is.  Two scenes look alike at a value more often than they are the same there, because below
the top an indirection shows nothing but its address.

Main definitions:

* `ValueLens.Shape.SameAt` — shapes that a verb does not tell apart at a depth;
* `ValueLens.Verb.Descends` — where the walk of a verb goes from a value, and at which depth;
* `ValueLens.Verb.Alike` — two scenes that look alike to a verb at a value.

Main results:

* `ValueLens.Verb.level_congruent` — **the rule of a level under a verb**;
* `ValueLens.KeyOrder.sort_congr` — what the order of entries takes into account.
-/
import ValueLens.Proofs.Congruence
import ValueLens.Proofs.KindredWalks
import ValueLens.Proofs.Termination
import ValueLens.Verb

set_option relaxedAutoImplicit false
set_option autoImplicit false

namespace ValueLens

/-! ### The order of entries -/

theorem KeyOrder.echoes_congr {echo₁ echo₂ : NodeId → Trace String} {es : List Entry}
    (h : ∀ e ∈ es, echo₁ e.key = echo₂ e.key) : echoes echo₁ es = echoes echo₂ es := by
  induction es with
  | nil => rfl
  | cons e es ih =>
      simp only [echoes]
      rw [h e (by simp), ih fun e' he' => h e' (by simp [he'])]

/-- The order of entries of which some key does not compare directly. -/
theorem KeyOrder.sort_of_not_simple {s : Scene} {es : List Entry}
    (h : ∃ e ∈ es, isSimple (s.graph.shape e.key) = false) (echo : NodeId → Trace String)
    (hookAllowed : Bool) :
    sort s echo hookAllowed es = asked s.graph hookAllowed es >>= settle s echo es := by
  have hnot : ¬(es.all fun e => isSimple (s.graph.shape e.key)) = true := by simpa using h
  rw [sort, if_neg hnot, sortByText_eq]

/-- **What the order of entries takes into account**: which keys compare directly and what the
natural order sees of them; and if some key does not, the descriptions of the keys where they may be
asked, and their compact texts on request. -/
theorem KeyOrder.sort_congr {s₁ s₂ : Scene} {echo₁ echo₂ : NodeId → Trace String}
    {hookAllowed : Bool} {es : List Entry} (hkeys : s₁.config.echoKeys = s₂.config.echoKeys)
    (hsimple : ∀ e ∈ es, isSimple (s₁.graph.shape e.key) = isSimple (s₂.graph.shape e.key))
    (hseen : ∀ e ∈ es, SortKey.ofNode s₁.graph (s₁.graph.size + 1) e.key =
      SortKey.ofNode s₂.graph (s₂.graph.size + 1) e.key)
    (hdescribe : hookAllowed = true → (∃ e ∈ es, isSimple (s₁.graph.shape e.key) = false) →
      descriptions? s₁.graph es = descriptions? s₂.graph es)
    (hecho : s₁.config.echoKeys = true → (∃ e ∈ es, isSimple (s₁.graph.shape e.key) = false) →
      ∀ e ∈ es, echo₁ e.key = echo₂ e.key) :
    sort s₁ echo₁ hookAllowed es = sort s₂ echo₂ hookAllowed es := by
  have hall : (es.all fun e => isSimple (s₁.graph.shape e.key)) =
      es.all fun e => isSimple (s₂.graph.shape e.key) := by
    rw [Bool.eq_iff_iff, List.all_eq_true, List.all_eq_true]
    exact forall₂_congr fun e he => by rw [hsimple e he]
  have hkeyed : (es.map fun e => (SortKey.ofNode s₁.graph (s₁.graph.size + 1) e.key, e)) =
      es.map fun e => (SortKey.ofNode s₂.graph (s₂.graph.size + 1) e.key, e) :=
    List.map_congr_left fun e he => by rw [hseen e he]
  unfold sort
  rw [← hall, hkeyed]
  split
  · rfl
  · next hnot =>
      have hsome : ∃ e ∈ es, isSimple (s₁.graph.shape e.key) = false := by simpa using hnot
      have hasked : asked s₁.graph hookAllowed es = asked s₂.graph hookAllowed es := by
        unfold asked
        split
        · next hhook => exact hdescribe hhook hsome
        · rfl
      have hsettle : settle s₁ echo₁ es = settle s₂ echo₂ es := by
        funext described
        cases described with
        | some keyed => rfl
        | none =>
            simp only [settle, ← hkeys]
            cases h : s₁.config.echoKeys with
            | false => rfl
            | true => rw [echoes_congr (hecho h hsome)]
      rw [sortByText_eq, sortByText_eq, hasked, hsettle]

/-! ### Scenes alike to a verb -/

/-- **Shapes that a verb does not tell apart at a depth**: below the top an indirection shows
nothing but its address. -/
inductive Shape.SameAt (depth : Nat) : Shape → Shape → Prop
  | same (shape : Shape) : SameAt depth shape shape
  | pointer (h : 0 < depth) (a : Address) (target₁ target₂ : Option NodeId) :
      SameAt depth (.pointer a target₁) (.pointer a target₂)
  | guarded (h : 0 < depth) (a : Address) (content₁ content₂ : Option NodeId)
      (lock₁ lock₂ : Lock) :
      SameAt depth (.guarded a content₁ lock₁) (.guarded a content₂ lock₂)

namespace Shape

variable {depth : Nat} {shape₁ shape₂ : Shape}

theorem SameAt.of_eq (h : shape₁ = shape₂) : shape₁.SameAt depth shape₂ := h ▸ .same shape₁

end Shape

namespace Verb

/-- What is heard of a value under a verb. -/
def heard (s : Scene) (id : NodeId) : Trace Capability :=
  if isAsked (s.graph.node id).shape && !s.config.disableMethods then (s.graph.node id).describe
  else pure .absent

/-- What is shown of a value that gave an answer. -/
def respond (s : Scene) (v : Verb) (l : Layout) (below : Below) (locked : Address → Below)
    (depth : Nat) (id : NodeId) (answer : Capability) : Trace Unit :=
  match answer, answer.text? with
  | .panicked message, _ => Trace.write ("%!" ++ v.letter ++ Node.panicMark message)
  | _, some t =>
      if v.isHex then Trace.write (v.hexBytes l (textBytes t))
      else structural s v l below locked depth id
  | _, none => structural s v l below locked depth id

theorem level_eq (s : Scene) (v : Verb) (l : Layout) (below : Below) (locked : Address → Below)
    (depth : Nat) (id : NodeId) :
    level s v l below locked depth id = heard s id >>= respond s v l below locked depth id := by
  dsimp only [level, heard]
  cases isAsked (s.graph.node id).shape && !s.config.disableMethods with
  | true => rfl
  | false => rfl

/-- What a value answers under a verb, if it is asked. -/
def answer (s : Scene) (id : NodeId) : Capability :=
  if isAsked (s.graph.node id).shape && !s.config.disableMethods then (s.graph.node id).capability
  else .absent

theorem heard_result (s : Scene) (id : NodeId) : (heard s id).result = some (answer s id) := by
  unfold heard answer
  cases isAsked (s.graph.node id).shape && !s.config.disableMethods with
  | true => exact (s.graph.node id).describe_quiet.2
  | false => rfl

/-- **Whether an answer stands in for a value**: a failure does under every verb, a description
under the hexadecimal ones. -/
def standsIn (v : Verb) : Capability → Bool
  | .absent => false
  | .panicked _ => true
  | .text _ => v.isHex
  | .error _ => v.isHex

/-- An answer that does not stand in leaves the structure. -/
theorem respond_of_not_standsIn {v : Verb} {given : Capability} (h : v.standsIn given = false)
    (s : Scene) (l : Layout) (below : Below) (locked : Address → Below) (depth : Nat)
    (id : NodeId) :
    respond s v l below locked depth id given = structural s v l below locked depth id := by
  cases given with
  | absent => rfl
  | panicked message => simp [standsIn] at h
  | _ => simp [respond, Capability.text?, show v.isHex = false from h]

/-- An answer that stands in is all that is shown. -/
theorem respond_of_standsIn {v : Verb} {given : Capability} (h : v.standsIn given = true)
    (l : Layout) :
    ∃ t, ∀ s below locked depth id,
      respond s v l below locked depth id given = Trace.write t := by
  cases given with
  | absent => simp [standsIn] at h
  | panicked message => exact ⟨_, fun _ _ _ _ _ => rfl⟩
  | text t =>
      refine ⟨v.hexBytes l (textBytes t), fun _ _ _ _ _ => ?_⟩
      simp [respond, Capability.text?, show v.isHex = true from h]
  | error t =>
      refine ⟨v.hexBytes l (textBytes t), fun _ _ _ _ _ => ?_⟩
      simp [respond, Capability.text?, show v.isHex = true from h]

/-- A level at a value for which no answer stands in. -/
theorem level_of_not_standsIn {s : Scene} {v : Verb} {id : NodeId}
    (h : v.standsIn (answer s id) = false) (l : Layout) (below : Below) (locked : Address → Below)
    (depth : Nat) :
    level s v l below locked depth id =
      heard s id >>= fun _ => structural s v l below locked depth id := by
  rw [level_eq]
  refine Trace.bind_congr fun given hgiven => ?_
  obtain rfl : answer s id = given := Option.some.inj ((heard_result s id).symm.trans hgiven)
  exact respond_of_not_standsIn h ..

/-- Hearing of a value only logs. -/
theorem heard_logs (s : Scene) (id : NodeId) : ∀ e ∈ (heard s id).effects, e.event?.isSome := by
  unfold heard
  split
  · exact (s.graph.node id).describe_quiet.1
  · simp

/-- **Where the walk of a verb goes from a value, and at which depth.** -/
inductive Descends (s : Scene) (depth : Nat) (id : NodeId) : Nat → NodeId → Prop
  | held {content : NodeId} (h : s.graph.shape id = .holder (some content)) :
      Descends s depth id depth content
  | part {child : NodeId} (h : s.graph.HasPart id child)
      (hholder : (s.graph.shape id).isHolder = false) : Descends s depth id (depth + 1) child
  | target {a : Address} {t : NodeId} (h : s.graph.shape id = .pointer a (some t))
      (hdepth : depth = 0) : Descends s depth id 1 t
  | content {t : NodeId} (h : (s.graph.shape id).acquire? = some t) (hdepth : depth = 0)
      (hresolved : s.config.disableGuardResolution = false) : Descends s depth id 1 t

/-- **Two scenes in which the structure of a value looks alike to a verb.** -/
structure Looks (C : Trace.Congruence) (s₁ s₂ : Scene) (v : Verb) (depth : Nat) (id : NodeId) :
    Prop where
  shape : (s₁.graph.shape id).SameAt depth (s₂.graph.shape id)
  typeName_eq : s₁.graph.typeName id = s₂.graph.typeName id
  run_eq : ∀ {q}, (s₁.graph.shape id).elements? = some q → byteRun? s₁ v q = byteRun? s₂ v q
  order : ∀ {es}, s₁.graph.shape id = .map (some es) →
    C.Rel (KeyOrder.sort s₁ (s₁.render true false) (!s₁.config.disableMethods) es)
      (KeyOrder.sort s₂ (s₂.render true false) (!s₂.config.disableMethods) es)
  mark : (s₁.graph.shape id).isLeaf = true → C.Rel (badMark s₁ v id) (badMark s₂ v id)

/-- **Two scenes that look alike to a verb at a value.** -/
structure Alike (C : Trace.Congruence) (s₁ s₂ : Scene) (v : Verb) (depth : Nat) (id : NodeId) : Prop
    extends Looks C s₁ s₂ v depth id where
  /-- It answers alike where it may be asked. -/
  capability_eq : s₁.config.disableMethods = false →
    (s₁.graph.node id).capability = (s₂.graph.node id).capability

variable {C : Trace.Congruence} {s₁ s₂ : Scene} {v : Verb} {l : Layout} {below₁ below₂ : Below}
  {locked₁ locked₂ : Address → Below} {depth : Nat} {id : NodeId}

theorem spaced_congruent {α : Type} {part₁ part₂ : α → Trace Unit} {xs : List α}
    (h : ∀ x ∈ xs, C.Rel (part₁ x) (part₂ x)) : C.Rel (spaced part₁ xs) (spaced part₂ xs) := by
  induction xs with
  | nil => exact .pure _
  | cons x xs ih =>
      cases xs with
      | nil => exact h x (by simp)
      | cons y rest =>
          exact .seq (h x (by simp)) (.seq (.write _) (ih fun z hz => h z (by simp [hz])))

theorem spaced_isSome {α : Type} {part : α → Trace Unit} {xs : List α}
    (h : ∀ x ∈ xs, (part x).result.isSome = true) : (spaced part xs).result.isSome = true := by
  have hself : (Bond.same True).congruence.Rel (spaced part xs) (spaced part xs) :=
    spaced_congruent fun x hx => ⟨rfl, rfl, fun _ => h x hx⟩
  exact hself.isSome trivial

theorem sequence_congruent {q₁ q₂ : Sequence} (hitems : q₁.items = q₂.items)
    (hrun : byteRun? s₁ v q₁ = byteRun? s₂ v q₂)
    (h : byteRun? s₁ v q₁ = none →
      ∀ child ∈ q₁.items, C.Rel (below₁ (depth + 1) child) (below₂ (depth + 1) child)) :
    C.Rel (sequence s₁ v l below₁ depth q₁) (sequence s₂ v l below₂ depth q₂) := by
  unfold sequence
  rw [← hrun, ← hitems]
  cases hbytes : byteRun? s₁ v q₁ with
  | some bytes => exact .write _
  | none => exact .seq (.write _) (.seq (spaced_congruent (h hbytes)) (.write _))

theorem map_congruent {es : List Entry}
    (horder : C.Rel (KeyOrder.sort s₁ (s₁.render true false) (!s₁.config.disableMethods) es)
      (KeyOrder.sort s₂ (s₂.render true false) (!s₂.config.disableMethods) es))
    (h : ∀ e ∈ es, C.Rel (below₁ (depth + 1) e.key) (below₂ (depth + 1) e.key) ∧
      C.Rel (below₁ (depth + 1) e.value) (below₂ (depth + 1) e.value)) :
    C.Rel (map s₁ below₁ depth es) (map s₂ below₂ depth es) := by
  refine C.bind horder fun ordered hordered => ?_
  refine .seq (.write _) (.seq (spaced_congruent fun e he => ?_) (.write _))
  obtain ⟨hkey, hvalue⟩ := h e (KeyOrder.mem_of_sort hordered he)
  exact .seq hkey (.seq (.write _) hvalue)

theorem record_congruent {fs : List Field}
    (h : ∀ f ∈ fs, C.Rel (below₁ (depth + 1) f.value) (below₂ (depth + 1) f.value)) :
    C.Rel (record l below₁ depth fs) (record l below₂ depth fs) := by
  refine .seq (.write _) (.seq (spaced_congruent fun f hf => ?_) (.write _))
  cases l.plus with
  | true => exact .seq (.write _) (h f hf)
  | false => exact h f hf

theorem leaf_congruent {shown : Option String} (h : C.Rel (badMark s₁ v id) (badMark s₂ v id)) :
    C.Rel (leaf s₁ v id shown) (leaf s₂ v id shown) := by
  cases shown with
  | some t => exact .write t
  | none => exact h

section Rules

variable (hconfig : s₁.config = s₂.config) (h : Looks C s₁ s₂ v depth id)
  (hbelow : (∀ q, (s₁.graph.shape id).elements? = some q → byteRun? s₁ v q = none) →
    ∀ d child, Descends s₁ depth id d child → C.Rel (below₁ d child) (below₂ d child) ∧
      ∀ a, 0 < d → C.Rel (locked₁ a d child) (locked₂ a d child))

include hconfig h hbelow

/-- A guard is resolved at the top only. -/
theorem guarded_congruent {a : Address} {content₁ content₂ : Option NodeId} {lock₁ lock₂ : Lock}
    (hs₁ : s₁.graph.shape id = .guarded a content₁ lock₁)
    (hs₂ : s₂.graph.shape id = .guarded a content₂ lock₂)
    (hsame : depth = 0 → content₁ = content₂ ∧ lock₁ = lock₂) :
    C.Rel (structural s₁ v l below₁ locked₁ depth id)
      (structural s₂ v l below₂ locked₂ depth id) := by
  simp only [structural, hs₁, hs₂, ← hconfig, ← h.typeName_eq]
  by_cases htop : depth = 0 ∧ (!s₁.config.disableGuardResolution) = true
  · rw [if_pos htop, if_pos htop]
    obtain ⟨rfl, rfl⟩ := hsame htop.1
    cases hacquire : (Shape.guarded a content₁ lock₁).acquire? with
    | none => exact .seq (.log _ _) (.write _)
    | some t =>
        obtain ⟨hopen, hlocked⟩ := hbelow (by simp [hs₁, Shape.elements?]) 1 t
          (.content (by rw [hs₁, hacquire]) htop.1 (by simpa using htop.2))
        simp only
        split
        · exact hlocked a Nat.one_pos
        · exact hopen
  · rw [if_neg htop, if_neg htop]
    exact .write _

/-- **The rule of a structure**: what the walk descends to matters where a sequence is not written
as its bytes. -/
theorem structural_congruent :
    C.Rel (structural s₁ v l below₁ locked₁ depth id)
      (structural s₂ v l below₂ locked₂ depth id) := by
  have hpart {child : NodeId} (hchild : child ∈ (s₁.graph.shape id).parts)
      (hholder : (s₁.graph.shape id).isHolder = false)
      (hrun : ∀ q, (s₁.graph.shape id).elements? = some q → byteRun? s₁ v q = none) :
      C.Rel (below₁ (depth + 1) child) (below₂ (depth + 1) child) :=
    (hbelow hrun _ _ (.part hchild hholder)).1
  have hleaf (shown : Option String) (hleaf : (s₁.graph.shape id).isLeaf = true) :
      C.Rel (leaf s₁ v id shown) (leaf s₂ v id shown) := leaf_congruent (h.mark hleaf)
  have hsequence {q : Sequence} (hq : (s₁.graph.shape id).elements? = some q)
      (hparts : (s₁.graph.shape id).parts = q.items)
      (hholder : (s₁.graph.shape id).isHolder = false) :
      C.Rel (sequence s₁ v l below₁ depth q) (sequence s₂ v l below₂ depth q) := by
    refine sequence_congruent rfl (h.run_eq hq) fun hrun child hchild => ?_
    refine hpart (hparts ▸ hchild) hholder fun q' hq' => ?_
    obtain rfl : q = q' := Option.some.inj (hq.symm.trans hq')
    exact hrun
  have hshape := h.shape
  generalize hs₁ : s₁.graph.shape id = shape₁ at hshape
  generalize hs₂ : s₂.graph.shape id = shape₂ at hshape
  cases hshape with
  | pointer hdepth a target₁ target₂ =>
      obtain ⟨d, rfl⟩ := Nat.exists_eq_succ_of_ne_zero (Nat.pos_iff_ne_zero.1 hdepth)
      simp only [structural, hs₁, hs₂]
      exact .write _
  | guarded hdepth a content₁ content₂ lock₁ lock₂ =>
      refine guarded_congruent hconfig h hbelow hs₁ hs₂ ?_
      intro htop
      omega
  | same =>
      cases shape₁ with
      | guarded a content lock =>
          exact guarded_congruent hconfig h hbelow hs₁ hs₂ fun _ => ⟨rfl, rfl⟩
      | holder content =>
          simp only [structural, hs₁, hs₂]
          cases content with
          | none => exact .write _
          | some content =>
              exact (hbelow (by simp [hs₁, Shape.elements?]) depth content (.held hs₁)).1
      | array q =>
          simp only [structural, hs₁, hs₂]
          exact hsequence (by rw [hs₁]; rfl) (by rw [hs₁]; rfl) (by rw [hs₁]; rfl)
      | slice q =>
          simp only [structural, hs₁, hs₂]
          cases q with
          | none => exact .write _
          | some q => exact hsequence (by rw [hs₁]; rfl) (by rw [hs₁]; rfl) (by rw [hs₁]; rfl)
      | map es =>
          simp only [structural, hs₁, hs₂]
          cases es with
          | none => exact .write _
          | some es =>
              refine map_congruent (h.order hs₁) fun e he => ?_
              have hentry {child : NodeId} (hchild : child ∈ [e.key, e.value]) :
                  C.Rel (below₁ (depth + 1) child) (below₂ (depth + 1) child) := by
                refine hpart ?_ (by rw [hs₁]; rfl) (by simp [hs₁, Shape.elements?])
                rw [hs₁]
                exact List.mem_flatMap.2 ⟨e, he, hchild⟩
              exact ⟨hentry (by simp), hentry (by simp)⟩
      | record fs =>
          simp only [structural, hs₁, hs₂]
          refine record_congruent fun f hf =>
            hpart ?_ (by rw [hs₁]; rfl) (by simp [hs₁, Shape.elements?])
          rw [hs₁]
          exact List.mem_map_of_mem hf
      | pointer a target =>
          simp only [structural, hs₁, hs₂]
          split
          · next t =>
              have htarget := hbelow (by simp [hs₁, Shape.elements?]) 1 t (.target hs₁ rfl)
              exact .seq (.write _) htarget.1
          · exact .write _
      | bool b =>
          simp only [structural, hs₁, hs₂]
          exact hleaf none (by rw [hs₁]; rfl)
      | invalid =>
          simp only [structural, hs₁, hs₂]
          exact .write _
      | handle a =>
          simp only [structural, hs₁, hs₂]
          exact .write _
      | _ =>
          simp only [structural, hs₁, hs₂]
          exact hleaf _ (by rw [hs₁]; rfl)

end Rules

/-- Scenes in which the same is heard of a value differ in its structure at most, and only where no
answer stands in for it. -/
theorem level_congruent_of_heard (hheard : heard s₁ id = heard s₂ id)
    (h : v.standsIn (answer s₁ id) = false →
      C.Rel (structural s₁ v l below₁ locked₁ depth id)
        (structural s₂ v l below₂ locked₂ depth id)) :
    C.Rel (level s₁ v l below₁ locked₁ depth id) (level s₂ v l below₂ locked₂ depth id) := by
  rw [level_eq, level_eq, ← hheard]
  have hquiet : ∀ e ∈ (heard s₁ id).effects, e.step? = none :=
    fun e he => Effect.step?_eq_none (heard_logs s₁ id e he)
  refine C.bind (C.refl hquiet (by simp [heard_result])) fun given hgiven => ?_
  obtain rfl : answer s₁ id = given := Option.some.inj ((heard_result s₁ id).symm.trans hgiven)
  cases hstands : v.standsIn (answer s₁ id) with
  | true =>
      obtain ⟨t, ht⟩ := respond_of_standsIn hstands l
      rw [ht, ht]
      exact .write t
  | false =>
      rw [respond_of_not_standsIn hstands, respond_of_not_standsIn hstands]
      exact h hstands

/-- **The rule of a level under a verb**: where two scenes look alike, and what the walk descends to
is congruent, below the top also while a lock is held, the level is. -/
theorem level_congruent (hconfig : s₁.config = s₂.config) (h : Alike C s₁ s₂ v depth id)
    (hbelow : ∀ d child, Descends s₁ depth id d child → C.Rel (below₁ d child) (below₂ d child) ∧
      ∀ a, 0 < d → C.Rel (locked₁ a d child) (locked₂ a d child)) :
    C.Rel (level s₁ v l below₁ locked₁ depth id) (level s₂ v l below₂ locked₂ depth id) := by
  have hasked : isAsked (s₁.graph.node id).shape = isAsked (s₂.graph.node id).shape := by
    have hshape : (s₁.graph.node id).shape.SameAt depth (s₂.graph.node id).shape := h.shape
    generalize (s₁.graph.node id).shape = shape₁ at hshape
    generalize (s₂.graph.node id).shape = shape₂ at hshape
    cases hshape with
    | _ => rfl
  refine level_congruent_of_heard ?_ fun _ => ?_
  · unfold heard
    rw [← hasked, ← hconfig]
    cases hmethods : s₁.config.disableMethods with
    | true => simp
    | false => rw [Node.describe_congr h.typeName_eq (h.capability_eq hmethods)]
  · exact structural_congruent hconfig h.toLooks fun _ => hbelow

end Verb

end ValueLens
