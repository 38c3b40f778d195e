/-
**The reals that round to a datum.**

The magnitudes of the fields form a ladder: each is larger than the one before by a gap, and the gap
doubles when the exponent grows.  A real rounds to a field if it lies between the midpoints to the
two neighbours, and a midpoint belongs to the even one of the two fields it divides.  So no real
rounds to two fields, and a decimal that lies in the interval of a datum names this datum and no
other.

The interval that is searched for the shortest decimal is the one between the midpoints, but for
the smallest normal datum: below it the gap does not change, and the searched interval is smaller
than it could be.

Main definitions:

* `ValueLens.Binary.Format.magnitudeAt`, `ValueLens.Binary.Format.gapAt` — the ladder;
* `ValueLens.Binary.Format.RoundsTo` — the reals that round to a field.

Main results:

* `ValueLens.Binary.Format.magnitudeAt_strictMono` — the ladder goes up;
* `ValueLens.Binary.Format.RoundsTo.field_unique` — **no real rounds to two fields**;
* `ValueLens.Binary.Format.exists_magnitudeAt` — integers within the precision are on the ladder;
* `ValueLens.Interval.roundsTo_of_contains` — what the interval of a datum contains rounds to it.
-/
import Mathlib.Algebra.Order.Field.Power
import Mathlib.Tactic.Linarith
import Mathlib.Tactic.Positivity
import Mathlib.Tactic.Ring
import ValueLens.Decimal.Shortest

set_option relaxedAutoImplicit false
set_option autoImplicit false

namespace ValueLens

namespace Binary.Format

variable {f : Format}

/-! ### The ladder of magnitudes -/

/-- The gap above the magnitude of a field, in units of the smallest subnormal number. -/
def gapAt (f : Format) (k : Nat) : Nat := 2 ^ (k / 2 ^ f.fractionBits - 1)

/-- The magnitude of a field in the same units. -/
def magnitudeAt (f : Format) (k : Nat) : Nat :=
  (if k / 2 ^ f.fractionBits = 0 then k % 2 ^ f.fractionBits
    else 2 ^ f.fractionBits + k % 2 ^ f.fractionBits) * f.gapAt k

theorem gapAt_pos (f : Format) (k : Nat) : 0 < f.gapAt k := Nat.two_pow_pos _

/-- A field has no exponent, or an exponent and a fraction. -/
theorem field_cases (f : Format) (k : Nat) :
    k < 2 ^ f.fractionBits ∨
      ∃ e m, m < 2 ^ f.fractionBits ∧ k = (e + 1) * 2 ^ f.fractionBits + m := by
  have hpos : 0 < 2 ^ f.fractionBits := Nat.two_pow_pos _
  rcases Nat.lt_or_ge k (2 ^ f.fractionBits) with hlt | hge
  · exact Or.inl hlt
  · refine Or.inr ⟨k / 2 ^ f.fractionBits - 1, k % 2 ^ f.fractionBits, Nat.mod_lt k hpos, ?_⟩
    rw [Nat.sub_add_cancel (Nat.div_pos hge hpos), Nat.mul_comm, Nat.div_add_mod]

theorem parts_of_lt {k : Nat} (h : k < 2 ^ f.fractionBits) :
    k / 2 ^ f.fractionBits = 0 ∧ k % 2 ^ f.fractionBits = k :=
  ⟨Nat.div_eq_of_lt h, Nat.mod_eq_of_lt h⟩

theorem parts_of_add (e : Nat) {m : Nat} (h : m < 2 ^ f.fractionBits) :
    ((e + 1) * 2 ^ f.fractionBits + m) / 2 ^ f.fractionBits = e + 1 ∧
      ((e + 1) * 2 ^ f.fractionBits + m) % 2 ^ f.fractionBits = m := by
  rw [Nat.mul_comm, Nat.mul_add_div (Nat.two_pow_pos _), Nat.div_eq_of_lt h, Nat.mul_add_mod,
    Nat.mod_eq_of_lt h]
  exact ⟨rfl, rfl⟩

theorem magnitudeAt_of_lt {k : Nat} (h : k < 2 ^ f.fractionBits) : f.magnitudeAt k = k := by
  simp [magnitudeAt, gapAt, parts_of_lt h]

theorem magnitudeAt_of_add (e : Nat) {m : Nat} (h : m < 2 ^ f.fractionBits) :
    f.magnitudeAt ((e + 1) * 2 ^ f.fractionBits + m) = (2 ^ f.fractionBits + m) * 2 ^ e := by
  simp [magnitudeAt, gapAt, parts_of_add e h]

theorem gapAt_of_lt {k : Nat} (h : k < 2 ^ f.fractionBits) : f.gapAt k = 1 := by
  simp [gapAt, parts_of_lt h]

theorem gapAt_of_add (e : Nat) {m : Nat} (h : m < 2 ^ f.fractionBits) :
    f.gapAt ((e + 1) * 2 ^ f.fractionBits + m) = 2 ^ e := by
  simp [gapAt, parts_of_add e h]

/-- **One step up the ladder.** -/
theorem magnitudeAt_succ (f : Format) (k : Nat) :
    f.magnitudeAt (k + 1) = f.magnitudeAt k + f.gapAt k := by
  have hpos : 0 < 2 ^ f.fractionBits := Nat.two_pow_pos _
  rcases f.field_cases k with hk | ⟨e, m, hm, rfl⟩
  · rw [magnitudeAt_of_lt hk, gapAt_of_lt hk]
    rcases Nat.lt_or_eq_of_le (show k + 1 ≤ _ from hk) with hk' | hk'
    · exact magnitudeAt_of_lt hk'
    · -- the smallest exponent begins where the fields without one end
      have hstart := magnitudeAt_of_add 0 hpos
      simpa [← hk'] using hstart
  · rw [magnitudeAt_of_add e hm, gapAt_of_add e hm, Nat.add_assoc]
    rcases Nat.lt_or_eq_of_le (show m + 1 ≤ _ from hm) with hm' | hm'
    · rw [magnitudeAt_of_add e hm']
      ring
    · -- the fraction is full, and the next exponent counts double
      have hnext := magnitudeAt_of_add (e + 1) hpos
      have hfield : (e + 1) * 2 ^ f.fractionBits + (m + 1) =
          (e + 1 + 1) * 2 ^ f.fractionBits + 0 := by
        rw [hm']
        ring
      rw [hfield, hnext, ← hm']
      ring

/-- **The ladder goes up.** -/
theorem magnitudeAt_strictMono (f : Format) : StrictMono f.magnitudeAt :=
  strictMono_nat_of_lt_succ fun k => by
    rw [magnitudeAt_succ]
    exact Nat.lt_add_of_pos_right (f.gapAt_pos k)

theorem magnitudeAt_zero (f : Format) : f.magnitudeAt 0 = 0 :=
  magnitudeAt_of_lt (Nat.two_pow_pos _)

/-- **Integers within the precision are on the ladder.** -/
theorem exists_magnitudeAt {n : Nat} (hn : 0 < n) (hp : 0 < f.precision) (hlt : n < 2 ^ f.precision)
    (hu : f.fractionBits ≤ f.unitShift) :
    ∃ k, 0 < k ∧ f.magnitudeAt k = n * 2 ^ f.unitShift := by
  -- shift the integer up until it fills the precision
  have hlog : 2 ^ n.log2 ≤ n ∧ n < 2 ^ (n.log2 + 1) :=
    ⟨Nat.log2_self_le (by omega), Nat.lt_log2_self⟩
  have hbits : n.log2 ≤ f.fractionBits := by
    have : n.log2 < f.precision := (Nat.log2_lt (by omega)).2 hlt
    simp only [fractionBits]
    omega
  obtain ⟨up, hup⟩ := Nat.exists_eq_add_of_le hbits
  obtain ⟨e, he⟩ := Nat.exists_eq_add_of_le (Nat.le_trans (Nat.le_add_left up n.log2) (hup ▸ hu))
  have hfill : 2 ^ f.fractionBits ≤ n * 2 ^ up := by
    rw [hup, Nat.pow_add]
    exact Nat.mul_le_mul_right _ hlog.1
  have hroom : n * 2 ^ up < 2 * 2 ^ f.fractionBits := by
    rw [hup, Nat.pow_add, ← Nat.mul_assoc, ← Nat.pow_succ']
    exact Nat.mul_lt_mul_of_pos_right hlog.2 (Nat.two_pow_pos _)
  obtain ⟨m, hm⟩ := Nat.exists_eq_add_of_le hfill
  refine ⟨(e + 1) * 2 ^ f.fractionBits + m, ?_, ?_⟩
  · have := Nat.two_pow_pos f.fractionBits
    positivity
  · rw [magnitudeAt_of_add e (by omega), ← hm, he, Nat.pow_add, Nat.mul_assoc]

/-! ### Rounding to a field -/

/-- **The reals that round to a field**, in units of the smallest subnormal number: they lie between
the midpoints to the neighbours, which belong to even fields. -/
structure RoundsTo (f : Format) (k : Nat) (r : ℚ) : Prop where
  low : (f.magnitudeAt (k - 1) + f.magnitudeAt k : ℚ) ≤ 2 * r
  high : 2 * r ≤ f.magnitudeAt k + f.magnitudeAt (k + 1)
  strict : k % 2 = 1 →
    (f.magnitudeAt (k - 1) + f.magnitudeAt k : ℚ) < 2 * r ∧
      2 * r < f.magnitudeAt k + f.magnitudeAt (k + 1)

namespace RoundsTo

variable {j k : Nat} {r : ℚ}

theorem not_lt (hj : f.RoundsTo j r) (hk : f.RoundsTo k r) : ¬j < k := by
  intro hlt
  have hbelow : (f.magnitudeAt j : ℚ) ≤ f.magnitudeAt (k - 1) := by
    exact_mod_cast f.magnitudeAt_strictMono.monotone (show j ≤ k - 1 by omega)
  have habove : (f.magnitudeAt (j + 1) : ℚ) ≤ f.magnitudeAt k := by
    exact_mod_cast f.magnitudeAt_strictMono.monotone (show j + 1 ≤ k by omega)
  have hhigh := hj.high
  have hlow := hk.low
  -- the real is the midpoint of two neighbours, so one of the fields is odd
  have hsame : (f.magnitudeAt j : ℚ) = f.magnitudeAt (k - 1) := by linarith
  have hnext : j = k - 1 := f.magnitudeAt_strictMono.injective (by exact_mod_cast hsame)
  rcases Nat.mod_two_eq_zero_or_one j with heven | hodd
  · have hstrict := (hk.strict (by omega)).1
    linarith
  · have hstrict := (hj.strict hodd).2
    linarith

/-- **No real rounds to two fields.** -/
theorem field_unique (hj : f.RoundsTo j r) (hk : f.RoundsTo k r) : j = k :=
  Nat.le_antisymm (Nat.le_of_not_lt (hk.not_lt hj)) (Nat.le_of_not_lt (hj.not_lt hk))

/-- The magnitude of a field rounds to the field. -/
theorem magnitudeAt (hk : 0 < k) : f.RoundsTo k (f.magnitudeAt k) := by
  have hbelow : (f.magnitudeAt (k - 1) : ℚ) < f.magnitudeAt k := by
    exact_mod_cast f.magnitudeAt_strictMono (show k - 1 < k by omega)
  have habove : (f.magnitudeAt k : ℚ) < f.magnitudeAt (k + 1) := by
    exact_mod_cast f.magnitudeAt_strictMono (Nat.lt_succ_self k)
  exact ⟨by linarith, by linarith, fun _ => ⟨by linarith, by linarith⟩⟩

theorem pos (h : f.RoundsTo k r) (hk : 0 < k) : 0 < r := by
  have hmagnitude : (f.magnitudeAt 0 : ℚ) < f.magnitudeAt k := by
    exact_mod_cast f.magnitudeAt_strictMono hk
  have hbelow : (0 : ℚ) ≤ f.magnitudeAt (k - 1) := Nat.cast_nonneg _
  rw [magnitudeAt_zero, Nat.cast_zero] at hmagnitude
  have hlow := h.low
  linarith

end RoundsTo

end Binary.Format

/-! ### The interval of a datum -/

namespace Interval

open Binary.Format

variable {f : Binary.Format} (x : Binary f)

theorem ofBinary_value : (ofBinary x).value = 4 * f.magnitudeAt x.field :=
  Nat.mul_assoc 4 x.significand _

theorem ofBinary_den_pos : 0 < (ofBinary x).den := Nat.mul_pos (by decide) (Nat.two_pow_pos _)

theorem ofBinary_high :
    (ofBinary x).high = 2 * (f.magnitudeAt x.field + f.magnitudeAt (x.field + 1)) := by
  have hhigh : (ofBinary x).high = 4 * f.magnitudeAt x.field + 2 * f.gapAt x.field :=
    (Nat.add_mul _ _ _).trans (congrArg (· + _) (ofBinary_value x))
  rw [hhigh, magnitudeAt_succ]
  omega

/-- How far the interval goes down, in quarters of the gap above. -/
def below (f : Binary.Format) (k : Nat) : Nat :=
  if k / 2 ^ f.fractionBits ≠ 0 ∧ k % 2 ^ f.fractionBits = 0 then 1 else 2

theorem ofBinary_low :
    (ofBinary x).low = 4 * f.magnitudeAt x.field - below f x.field * f.gapAt x.field :=
  (Nat.sub_mul _ _ _).trans (congrArg (· - _) (ofBinary_value x))

/-- The interval does not go down beyond the midpoint. -/
theorem below_mul_gapAt_le (f : Binary.Format) (k : Nat) :
    below f (k + 1) * f.gapAt (k + 1) ≤ 2 * f.gapAt k := by
  have hpos : 0 < 2 ^ f.fractionBits := Nat.two_pow_pos _
  rcases f.field_cases (k + 1) with hk | ⟨e, m, hm, hfield⟩
  · rw [gapAt_of_lt hk, gapAt_of_lt (Nat.lt_of_succ_lt hk)]
    simp only [below]
    split <;> omega
  · rw [hfield, gapAt_of_add e hm]
    cases m with
    | succ m =>
        -- the field below has the same exponent
        have hk : k = (e + 1) * 2 ^ f.fractionBits + m := by omega
        rw [hk, gapAt_of_add e (by omega)]
        refine Nat.mul_le_mul_right _ ?_
        simp only [below]
        split <;> omega
    | zero =>
        have hone : below f ((e + 1) * 2 ^ f.fractionBits + 0) = 1 := by
          simp [below]
        rw [hone, Nat.one_mul]
        cases e with
        | zero =>
            have hgap := f.gapAt_pos k
            rw [Nat.pow_zero]
            omega
        | succ e =>
            -- the field below has the full fraction of the exponent below
            have hk : k = (e + 1) * 2 ^ f.fractionBits + (2 ^ f.fractionBits - 1) := by
              have hsucc : (e + 1 + 1) * 2 ^ f.fractionBits =
                  (e + 1) * 2 ^ f.fractionBits + 2 ^ f.fractionBits := Nat.succ_mul _ _
              omega
            rw [hk, gapAt_of_add e (by omega), Nat.pow_succ']

theorem le_ofBinary_low (h : 0 < x.field.val) :
    2 * (f.magnitudeAt (x.field - 1) + f.magnitudeAt x.field) ≤ (ofBinary x).low := by
  rw [ofBinary_low]
  obtain ⟨k, hk⟩ : ∃ k, x.field.val = k + 1 := ⟨x.field.val - 1, by omega⟩
  have hgap := below_mul_gapAt_le f k
  rw [hk, Nat.add_sub_cancel, magnitudeAt_succ]
  omega

/-- The ends belong to the intervals of even fields. -/
theorem ofBinary_closed (hf : 0 < f.fractionBits) :
    (ofBinary x).closed = (x.field.val % 2 == 0) := by
  have heven : 2 ∣ 2 ^ f.fractionBits := dvd_pow_self 2 (by omega)
  have hfraction : x.fraction % 2 = x.field.val % 2 := Nat.mod_mod_of_dvd _ heven
  have hsignificand : x.significand % 2 = x.field.val % 2 := by
    simp only [Binary.significand, Nat.pow_eq]
    split
    · exact hfraction
    · omega
  rw [ofBinary, hsignificand]

/-! ### Decimals in an interval -/

theorem tenNum_eq (e : Int) :
    (Scientific.tenNum e : ℚ) = (10 : ℚ) ^ e * Scientific.tenDen e := by
  simp only [Scientific.tenNum, Scientific.tenDen, Nat.pow_eq, Nat.cast_pow, Nat.cast_ofNat]
  rw [← zpow_natCast, ← zpow_natCast, ← zpow_add₀ (by norm_num)]
  congr 1
  omega

theorem tenDen_pos (e : Int) : 0 < Scientific.tenDen e := Nat.pow_pos (by decide)

/-- What the test of an interval compares, over the denominator of the power of ten. -/
theorem point_eq (n : Nat) (unit : Int) :
    ((n * Scientific.tenNum unit * (ofBinary x).den : Nat) : ℚ) =
      4 * (n * (10 : ℚ) ^ unit * 2 ^ f.unitShift) * Scientific.tenDen unit := by
  have hden : ((ofBinary x).den : ℚ) = 4 * 2 ^ f.unitShift := by simp [ofBinary]
  rw [Nat.cast_mul, Nat.cast_mul, tenNum_eq, hden]
  ring

/-- **What the interval of a datum contains rounds to the datum.** -/
theorem roundsTo_of_contains (hf : 0 < f.fractionBits) (hx : 0 < x.field.val) {n : Nat} {unit : Int}
    (h : (ofBinary x).contains n unit = true) :
    f.RoundsTo x.field (n * (10 : ℚ) ^ unit * 2 ^ f.unitShift) := by
  have hden : (0 : ℚ) < Scientific.tenDen unit := by exact_mod_cast tenDen_pos unit
  have hpoint := point_eq x n unit
  generalize n * (10 : ℚ) ^ unit * 2 ^ f.unitShift = r at hpoint ⊢
  have hlow : 2 * (f.magnitudeAt (x.field - 1) + f.magnitudeAt x.field : ℚ) ≤ (ofBinary x).low := by
    exact_mod_cast le_ofBinary_low x hx
  have hhigh : ((ofBinary x).high : ℚ) =
      2 * (f.magnitudeAt x.field + f.magnitudeAt (x.field + 1)) := by
    exact_mod_cast ofBinary_high x
  simp only [contains] at h
  split at h
  · next hclosed =>
      simp only [Bool.and_eq_true, decide_eq_true_eq] at h
      have hl : (ofBinary x).low * Scientific.tenDen unit ≤ 4 * r * Scientific.tenDen unit := by
        rw [← hpoint]
        exact_mod_cast h.1
      have hh : 4 * r * Scientific.tenDen unit ≤ (ofBinary x).high * Scientific.tenDen unit := by
        rw [← hpoint]
        exact_mod_cast h.2
      have hl' := le_of_mul_le_mul_right hl hden
      have hh' := le_of_mul_le_mul_right hh hden
      refine ⟨by linarith, by linarith, ?_⟩
      intro hodd
      rw [ofBinary_closed x hf, hodd] at hclosed
      exact absurd hclosed (by decide)
  · simp only [Bool.and_eq_true, decide_eq_true_eq] at h
    have hl : (ofBinary x).low * Scientific.tenDen unit < 4 * r * Scientific.tenDen unit := by
      rw [← hpoint]
      exact_mod_cast h.1
    have hh : 4 * r * Scientific.tenDen unit < (ofBinary x).high * Scientific.tenDen unit := by
      rw [← hpoint]
      exact_mod_cast h.2
    have hl' := lt_of_mul_lt_mul_right hl hden.le
    have hh' := lt_of_mul_lt_mul_right hh hden.le
    exact ⟨by linarith, by linarith, fun _ => ⟨by linarith, by linarith⟩⟩

end Interval

end ValueLens
