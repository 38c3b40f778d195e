/-
**Rounding to a floating point format.**

Rounding a quotient keeps the order: a larger quotient is not rounded to a smaller field.  As long
as two quotients drop the same number of low bits this is so because rounding to an integer keeps
the order; and a quotient that drops fewer bits ends, at the latest, where the next larger exponent
begins.  So the double of an integer never overtakes the double of a larger one, and the order of
doubles by sign and field agrees with the order of the integers they come from.

Main results:

* `ValueLens.Binary.roundDiv_mono`, `ValueLens.Binary.roundField_mono` — **rounding keeps the
  order**;
* `ValueLens.Binary.place_ofInt_mono` — so do the doubles of integers.
-/
import Mathlib.Algebra.Group.Nat.Defs
import ValueLens.Binary

set_option relaxedAutoImplicit false
set_option autoImplicit false

namespace ValueLens.Binary

variable {f : Format}

/-! ### Rounding to an integer -/

theorem roundDiv_bounds (num den : Nat) :
    num / den ≤ roundDiv num den ∧ roundDiv num den ≤ num / den + 1 := by
  simp only [roundDiv]
  repeat' split
  all_goals omega

/-- A quotient that is an integer is rounded to it. -/
theorem roundDiv_of_dvd {num den : Nat} (hden : 0 < den) (h : den ∣ num) :
    roundDiv num den = num / den := by
  have hrest : num % den = 0 := Nat.mod_eq_zero_of_dvd h
  simp only [roundDiv, hrest]
  rw [if_pos (by omega)]

/-- A quotient that is no larger than an integer is not rounded above it. -/
theorem roundDiv_le {num den q : Nat} (hden : 0 < den) (h : num ≤ q * den) :
    roundDiv num den ≤ q := by
  have hle : num / den ≤ q := Nat.div_le_of_le_mul (by rwa [Nat.mul_comm] at h)
  rcases Nat.lt_or_eq_of_le hle with hlt | heq
  · have hupper := (roundDiv_bounds num den).2
    omega
  · -- the quotient is the integer itself, and nothing is left to round
    have hsplit := Nat.div_add_mod num den
    rw [heq, Nat.mul_comm] at hsplit
    have hdvd : den ∣ num := Nat.dvd_of_mod_eq_zero (by omega)
    have hexact : roundDiv num den = q := (roundDiv_of_dvd hden hdvd).trans heq
    exact Nat.le_of_eq hexact

/-- A quotient that is no smaller than an integer is not rounded below it. -/
theorem le_roundDiv {num den q : Nat} (hden : 0 < den) (h : q * den ≤ num) :
    q ≤ roundDiv num den :=
  Nat.le_trans ((Nat.le_div_iff_mul_le hden).2 h) (roundDiv_bounds num den).1

/-- **Rounding to an integer keeps the order.** -/
theorem roundDiv_mono {a b den : Nat} (h : a ≤ b) : roundDiv a den ≤ roundDiv b den := by
  rcases Nat.lt_or_eq_of_le (Nat.div_le_div_right (c := den) h) with hlt | heq
  · have ha := (roundDiv_bounds a den).2
    have hb := (roundDiv_bounds b den).1
    omega
  · -- with one and the same integer part, the larger rest decides
    have hrest : a % den ≤ b % den := by
      have hsa := Nat.div_add_mod a den
      have hsb := Nat.div_add_mod b den
      rw [heq] at hsa
      omega
    simp only [roundDiv, heq]
    repeat' split
    all_goals omega

/-! ### Rounding to a field -/

/-- How many low bits of an integer go beyond the precision. -/
def excess (f : Format) (whole : Nat) : Nat := whole.log2 + 1 - f.precision

theorem roundField_eq (f : Format) (num den : Nat) :
    roundField f num den =
      min (excess f (num * 2 ^ f.unitShift / den) * 2 ^ f.fractionBits +
        roundDiv (num * 2 ^ f.unitShift) (den * 2 ^ excess f (num * 2 ^ f.unitShift / den)))
        f.infinityField := rfl

theorem excess_mono {a b : Nat} (h : a ≤ b) : excess f a ≤ excess f b := by
  have hlog : a.log2 ≤ b.log2 := by
    by_cases ha : a = 0
    · simp [ha]
    · exact (Nat.le_log2 (by omega)).2 (Nat.le_trans (Nat.log2_self_le ha) h)
  simp only [excess]
  omega

/-- Without its excess bits an integer fits into the precision. -/
theorem lt_two_pow_excess (f : Format) (whole : Nat) :
    whole < 2 ^ (f.precision + excess f whole) := by
  have hlog : whole < 2 ^ (whole.log2 + 1) := Nat.lt_log2_self
  refine Nat.lt_of_lt_of_le hlog (Nat.pow_le_pow_right (by decide) ?_)
  simp only [excess]
  omega

/-- An integer with excess bits fills the precision. -/
theorem two_pow_excess_le (hp : 0 < f.precision) {whole : Nat} (h : 0 < excess f whole) :
    2 ^ (f.fractionBits + excess f whole) ≤ whole := by
  simp only [excess] at h ⊢
  have hne : whole ≠ 0 := by
    rintro rfl
    rw [Nat.log2_zero] at h
    omega
  refine Nat.le_trans (Nat.pow_le_pow_right (by decide) ?_) (Nat.log2_self_le hne)
  simp only [Format.fractionBits]
  omega

/-- The precision counts one bit more than the fraction. -/
theorem two_pow_precision (hp : 0 < f.precision) :
    2 ^ f.precision = 2 * 2 ^ f.fractionBits := by
  rw [← Nat.pow_succ', Format.fractionBits, Nat.succ_eq_add_one, Nat.sub_add_cancel hp]

/-- **Rounding to a field keeps the order.** -/
theorem roundField_mono (hp : 0 < f.precision) {a b den : Nat} (hden : 0 < den) (h : a ≤ b) :
    roundField f a den ≤ roundField f b den := by
  rw [roundField_eq, roundField_eq]
  have hscaled : a * 2 ^ f.unitShift ≤ b * 2 ^ f.unitShift := Nat.mul_le_mul_right _ h
  generalize a * 2 ^ f.unitShift = x at hscaled ⊢
  generalize b * 2 ^ f.unitShift = y at hscaled ⊢
  have hdrop : excess f (x / den) ≤ excess f (y / den) :=
    excess_mono (Nat.div_le_div_right hscaled)
  refine Nat.le_min.2 ⟨Nat.le_trans (Nat.min_le_left _ _) ?_, Nat.min_le_right _ _⟩
  rcases Nat.lt_or_eq_of_le hdrop with hlt | heq
  · -- the smaller one stays below the exponent at which the larger one begins
    have hx : roundDiv x (den * 2 ^ excess f (x / den)) ≤ 2 * 2 ^ f.fractionBits := by
      refine roundDiv_le (Nat.mul_pos hden (Nat.two_pow_pos _)) ?_
      have hfit := (Nat.div_lt_iff_lt_mul hden).1 (lt_two_pow_excess f (x / den))
      rw [← two_pow_precision hp]
      calc x ≤ 2 ^ (f.precision + excess f (x / den)) * den := Nat.le_of_lt hfit
        _ = 2 ^ f.precision * (den * 2 ^ excess f (x / den)) := by
            rw [Nat.pow_add, Nat.mul_assoc, Nat.mul_comm den]
    have hy : 2 ^ f.fractionBits ≤ roundDiv y (den * 2 ^ excess f (y / den)) := by
      refine le_roundDiv (Nat.mul_pos hden (Nat.two_pow_pos _)) ?_
      have hfill := (Nat.le_div_iff_mul_le hden).1
        (two_pow_excess_le hp (Nat.lt_of_le_of_lt (Nat.zero_le _) hlt))
      calc 2 ^ f.fractionBits * (den * 2 ^ excess f (y / den))
          = 2 ^ (f.fractionBits + excess f (y / den)) * den := by
            rw [Nat.pow_add, Nat.mul_assoc, Nat.mul_comm den]
        _ ≤ y := hfill
    have hstep : (excess f (x / den) + 1) * 2 ^ f.fractionBits
        ≤ excess f (y / den) * 2 ^ f.fractionBits := Nat.mul_le_mul_right _ hlt
    rw [Nat.add_mul, Nat.one_mul] at hstep
    omega
  · rw [heq]
    exact Nat.add_le_add_left (roundDiv_mono hscaled) _

/-! ### Fields and data -/

theorem infinityField_lt_fieldCount (f : Format) : f.infinityField < f.fieldCount := by
  have hfraction : 0 < 2 ^ f.fractionBits := Nat.two_pow_pos _
  have hexponent : 0 < 2 ^ f.exponentBits := Nat.two_pow_pos _
  have hcount : f.fieldCount = 2 ^ f.exponentBits * 2 ^ f.fractionBits := by
    rw [Nat.mul_comm, ← Nat.pow_add]
    rfl
  rw [hcount]
  exact Nat.mul_lt_mul_of_pos_right (by simp only [Nat.pow_eq]; omega) hfraction

theorem field_ofField {negative : Bool} {field : Nat} (h : field < f.fieldCount) :
    (ofField f negative field).field.val = field :=
  Nat.mod_eq_of_lt h

theorem roundField_lt_fieldCount (f : Format) (num den : Nat) :
    roundField f num den < f.fieldCount :=
  Nat.lt_of_le_of_lt (Nat.min_le_right _ _) (infinityField_lt_fieldCount f)

theorem field_ofRatio (f : Format) (negative : Bool) (num den : Nat) :
    (ofRatio f negative num den).field.val = roundField f num den :=
  field_ofField (roundField_lt_fieldCount f num den)

theorem place_injective {x y : Binary f} (h : x.place = y.place) : x = y := by
  obtain ⟨nx, fx⟩ := x
  obtain ⟨ny, fy⟩ := y
  have hsign : nx = ny ∧ fx.val = fy.val := by
    cases nx <;> cases ny <;> simp only [place, reduceIte, Bool.false_eq_true] at h
    · exact ⟨rfl, by omega⟩
    · omega
    · omega
    · exact ⟨rfl, by omega⟩
  rw [hsign.1, Fin.ext hsign.2]

theorem place_ofInt (z : Int) :
    (ofInt z).place =
      if z < 0 then -(roundField .double z.natAbs 1 : Int) - 1
      else roundField .double z.natAbs 1 := by
  have hfield := field_ofRatio .double (z < 0) z.natAbs 1
  simp only [ofInt, place, hfield]
  by_cases hz : z < 0
  · simp [hz, ofRatio, ofField]
  · simp [hz, ofRatio, ofField]

/-- **The doubles of integers keep their order.** -/
theorem place_ofInt_mono {z w : Int} (h : z ≤ w) : (ofInt z).place ≤ (ofInt w).place := by
  have hmono {a b : Nat} (hab : a ≤ b) : roundField .double a 1 ≤ roundField .double b 1 :=
    roundField_mono (by decide) Nat.one_pos hab
  rw [place_ofInt, place_ofInt]
  by_cases hz : z < 0
  · by_cases hw : w < 0
    · have := hmono (show w.natAbs ≤ z.natAbs by omega)
      simp only [hz, hw, if_true]
      omega
    · simp only [hz, hw, if_true, if_false]
      omega
  · have hw : ¬w < 0 := by omega
    have := hmono (show z.natAbs ≤ w.natAbs by omega)
    simp only [hz, hw, if_false]
    omega

end ValueLens.Binary
