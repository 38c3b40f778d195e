/-
**More fuel changes nothing.**

The walk runs on fuel because nothing but the addresses on the path keeps it from going in circles.
Fuel is a bound and nothing else: a walk that comes to an end does the same on more of it, the
compact texts of keys included, and so does the order in which the entries of a map are shown.

Main definitions:

* `ValueLens.Walk.patience` — the accord of a run and the same run on more fuel.

Main results:

* `ValueLens.Walk.walk_patient` — two amounts of fuel in lockstep;
* `ValueLens.Walk.sort_of_le` — **the order of entries does not depend on the fuel**.
-/
import ValueLens.Proofs.Accord

set_option relaxedAutoImplicit false
set_option autoImplicit false

namespace ValueLens

open Render

namespace Walk

/-- **The accord of a run and the same run on more fuel**: nothing differs, unless the first run
stops for want of fuel. -/
def patience : Accord :=
  .sameEffects (fun a b => a = b) (fun _ ended => ended = false)
    (fun h => congrArg RenderState.frame h) (fun h _ => by rw [h]) (fun h => absurd h (by simp))
    fun h => h

@[simp] theorem patience_excused {es : List Effect} {ended : Bool} :
    patience.Excused es ended ↔ ended = false := Iff.rfl

@[simp] theorem patience_alike {es₁ es₂ : List Effect} :
    patience.Alike es₁ es₂ ↔ es₁ = es₂ := Iff.rfl

theorem patience_strict : patience.Strict where
  near_iff := Iff.rfl
  alike_iff := Iff.rfl

/-- Every mode fits the accord with itself. -/
theorem patience_fits (s : Scene) (mode : Mode) : patience.Fits s mode mode :=
  patience_strict.fits (fun _ => by simp) s mode

/-- The compact texts of keys are in accord if the walks are. -/
theorem echo_patient {visit₁ visit₂ : Visit} {key : NodeId}
    (h : patience.Meets (visit₁ (.compact true false) key) (visit₂ (.compact true false) key)) :
    patience.Linked Eq (echo visit₁ key) (echo visit₂ key) := by
  have heffects {visit : Visit} : (echo visit key).effects =
      ((visit (.compact true false) key {}).effects).filter fun e => e.event?.isSome := by
    simp only [echo, Trace.captured, fromStart_effects]
  have hresult {visit : Visit} : (echo visit key).result =
      (visit (.compact true false) key {}).result.map fun _ =>
        (visit (.compact true false) key {}).text := by
    simp only [echo, Trace.captured, Trace.text, fromStart_effects, fromStart_result,
      Option.map_map]
    rfl
  have hlinked := h {} {} rfl
  simp only [Accord.Linked, patience_excused, patience_alike] at hlinked ⊢
  simp only [heffects, hresult, Option.isSome_map, Trace.text]
  rcases hlinked with hstop | ⟨halike, hrel⟩
  · exact Or.inl hstop
  · rw [halike]
    generalize (visit₁ (.compact true false) key {}).result = r₁ at hrel
    generalize (visit₂ (.compact true false) key {}).result = r₂ at hrel
    cases hrel with
    | none => exact Or.inr ⟨rfl, .none⟩
    | some _ => exact Or.inr ⟨rfl, .some rfl⟩

/-- **Two amounts of fuel in lockstep.** -/
theorem walk_patient (s : Scene) {n m : Nat} (h : n ≤ m) (mode : Mode) (id : NodeId) :
    patience.Meets (walk s n mode id) (walk s m mode id) := by
  induction n generalizing s m mode id with
  | zero => exact fun _ _ _ => Or.inl rfl
  | succ n ih =>
      obtain ⟨m, rfl⟩ : ∃ k, m = k + 1 := ⟨m - 1, by omega⟩
      have hle : n ≤ m := Nat.le_of_succ_le_succ h
      exact (patience_fits s mode).level_meets (fun child => ih s hle mode child)
        (fun held key => echo_patient (ih (s.holding held) hle _ key)) id

/-- **The order of entries does not depend on the fuel** of the compact texts of keys, if there is
enough. -/
theorem sort_of_le {s : Scene} {n m : Nat} (h : n ≤ m) {held : List Address} {hookAllowed : Bool}
    {es ordered : List Entry}
    (hsort : (KeyOrder.sort s (keyTexts s n held) hookAllowed es).result = some ordered) :
    (KeyOrder.sort s (keyTexts s m held) hookAllowed es).result = some ordered := by
  have hlinked : patience.Linked Eq (KeyOrder.sort s (keyTexts s n held) hookAllowed es)
      (KeyOrder.sort s (keyTexts s m held) hookAllowed es) :=
    KeyOrder.sort_linked (fun key => echo_patient (walk_patient (s.holding held) h _ key))
      hookAllowed es
  rcases hlinked with hstop | ⟨-, hrel⟩
  · simp [hsort] at hstop
  · rw [hsort] at hrel
    generalize (KeyOrder.sort s (keyTexts s m held) hookAllowed es).result = r at hrel
    cases hrel with
    | some heq => rw [heq]

end Walk

end ValueLens
