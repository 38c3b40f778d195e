/-
**The shortest decimal names its datum.**

The search for the shortest decimal tries one digit, two digits and so on.  It does not come away
empty: with seventeen digits the grid of decimals is finer than the interval of any datum whose
fraction is not longer than that of a double, so that one of the two neighbours of the datum on the
grid lies inside.  What the search returns therefore rounds to the datum.  As no real rounds to two
data, a datum can be told from its decimal.

Main definitions:

* `ValueLens.Scientific.value` — the number that a decimal stands for;
* `ValueLens.Scientific.Proper` — decimals with at least one digit and digits below ten.

Main results:

* `ValueLens.Scientific.exponentOf_le` — the decimal exponent of a quotient is not too large;
* `ValueLens.Interval.isSome_neighbour?` — a grid finer than an interval has a neighbour in it;
* `ValueLens.Binary.shortest_roundsTo_of_le` — **the shortest decimal of a datum rounds to it**.
-/
import Mathlib.Data.List.TakeWhile
import ValueLens.Proofs.Digits
import ValueLens.Proofs.RoundingInterval

set_option relaxedAutoImplicit false
set_option autoImplicit false

namespace ValueLens

/-! ### What a decimal stands for -/

namespace Scientific

/-- **The number that a decimal stands for**: the last digit counts ten to the exponent less the
number of digits after the first. -/
def value (s : Scientific) : ℚ :=
  Numeral.ofDigits 10 s.digits * (10 : ℚ) ^ (s.exponent - ((s.digits.length : Int) - 1))

/-- At least one digit, and all digits below ten. -/
structure Proper (s : Scientific) : Prop where
  ne_nil : s.digits ≠ []
  lt_ten : ∀ d ∈ s.digits, d < 10

theorem value_lt {s : Scientific} (h : s.Proper) : s.value < (10 : ℚ) ^ (s.exponent + 1) := by
  have hdigits : (Numeral.ofDigits 10 s.digits : ℚ) < (10 : ℚ) ^ (s.digits.length : Int) := by
    rw [zpow_natCast]
    exact_mod_cast Numeral.ofDigits_lt (by decide) h.lt_ten
  calc s.value < (10 : ℚ) ^ (s.digits.length : Int) *
          10 ^ (s.exponent - ((s.digits.length : Int) - 1)) :=
        mul_lt_mul_of_pos_right hdigits (by positivity)
    _ = (10 : ℚ) ^ (s.exponent + 1) := by
        rw [← zpow_add₀ (by norm_num)]
        congr 1
        omega

theorem value_ofUnits (n : Nat) (unit : Int) : (ofUnits n unit).value = n * (10 : ℚ) ^ unit := by
  simp only [value, ofUnits, Numeral.ofDigits_digits (show 2 ≤ 10 by decide)]
  congr 2
  omega

theorem ofUnits_proper (n : Nat) (unit : Int) : (ofUnits n unit).Proper :=
  ⟨Numeral.digits_ne_nil (by decide) n, fun _ hd => Numeral.lt_of_mem_digits (by decide) hd⟩

/-- Trimming takes zeros off the end; of a row of zeros one stays. -/
theorem trimZeros_cases (ds : List Nat) :
    (∃ k, ds = trimZeros ds ++ List.replicate k 0 ∧ trimZeros ds ≠ []) ∨
      (trimZeros ds = [0] ∧ ∃ k, ds = List.replicate k 0) := by
  have hzeros : ds.reverse.takeWhile (· == 0) =
      List.replicate (ds.reverse.takeWhile (· == 0)).length 0 :=
    List.eq_replicate_of_mem fun d hd => by simpa using List.mem_takeWhile_imp hd
  have hsplit : ds = (ds.reverse.dropWhile (· == 0)).reverse ++
      List.replicate (ds.reverse.takeWhile (· == 0)).length 0 := by
    rw [← List.reverse_replicate, ← hzeros, ← List.reverse_append, List.takeWhile_append_dropWhile,
      List.reverse_reverse]
  unfold trimZeros
  split
  · next hnone =>
      rw [hnone, List.nil_append] at hsplit
      exact Or.inr ⟨rfl, _, hsplit⟩
  · next hsome => exact Or.inl ⟨_, hsplit, hsome⟩

theorem value_trimZeros (s : Scientific) :
    ({ s with digits := trimZeros s.digits } : Scientific).value = s.value := by
  rcases trimZeros_cases s.digits with ⟨k, hk, -⟩ | ⟨htrim, k, hk⟩
  · have hvalue : (Numeral.ofDigits 10 s.digits : ℚ) =
        Numeral.ofDigits 10 (trimZeros s.digits) * (10 : ℚ) ^ (k : Int) := by
      conv_lhs => rw [hk, Numeral.ofDigits_append, Numeral.ofDigits_replicate_zero]
      simp
    have hlength : (s.digits.length : Int) = (trimZeros s.digits).length + k := by
      conv_lhs => rw [hk]
      simp
    simp only [value, hvalue, hlength, mul_assoc]
    rw [← zpow_add₀ (by norm_num)]
    congr 2
    omega
  · have hzero : Numeral.ofDigits 10 s.digits = 0 := by rw [hk, Numeral.ofDigits_replicate_zero]
    simp only [value, htrim, hzero]
    simp [Numeral.ofDigits]

theorem Proper.trimZeros {s : Scientific} (h : s.Proper) :
    ({ s with digits := trimZeros s.digits } : Scientific).Proper := by
  rcases trimZeros_cases s.digits with ⟨k, hk, hne⟩ | ⟨htrim, -⟩
  · refine ⟨hne, fun d hd => h.lt_ten d ?_⟩
    rw [hk]
    exact List.mem_append_left _ hd
  · constructor <;> simp [htrim]

/-- **The decimal exponent of a quotient** is not too large. -/
theorem exponentOf_le {num den : Nat} (hnum : 0 < num) (hden : 0 < den) :
    (10 : ℚ) ^ exponentOf num den * den ≤ num := by
  unfold exponentOf
  split
  · next hle =>
      have hpos : 0 < num / den := Nat.div_pos hle hden
      have hpow : 10 ^ (Numeral.decimalLength (num / den) - 1) * den ≤ num :=
        (Nat.mul_le_mul_right den (Numeral.pow_le_of_decimalLength hpos)).trans
          (Nat.div_mul_le_self num den)
      have hexp : (Numeral.decimalLength (num / den) : Int) - 1 =
          ((Numeral.decimalLength (num / den) - 1 : Nat) : Int) := by
        have := Numeral.decimalLength_pos (num / den)
        omega
      rw [hexp, zpow_natCast]
      exact_mod_cast hpow
  · -- below one: the reciprocal, rounded up, has no more digits than the power allows
    have hceil : den ≤ num * ((den + num - 1) / num) := by
      have := Nat.div_add_mod (den + num - 1) num
      have := Nat.mod_lt (den + num - 1) hnum
      omega
    have hlt := Numeral.lt_pow_decimalLength ((den + num - 1) / num - 1)
    have hpow : den ≤ num * 10 ^ Numeral.decimalLength ((den + num - 1) / num - 1) :=
      hceil.trans (Nat.mul_le_mul_left num (by omega))
    rw [zpow_neg, zpow_natCast, inv_mul_le_iff₀ (by positivity), mul_comm]
    exact_mod_cast hpow

end Scientific

/-! ### The search -/

namespace Interval

/-- A neighbour lies in the interval. -/
theorem contains_of_neighbour? {i : Interval} {tie : Tie} {unit : Int} {n : Nat}
    (h : i.neighbour? tie unit = some n) : i.contains n unit = true := by
  unfold neighbour? at h
  simp only at h
  split at h
  · simp at h
  · next hlower _ => rwa [Option.some.inj h] at hlower
  · next _ hupper => rwa [Option.some.inj h] at hupper
  · next hlower hupper =>
      split at h
      · rwa [Option.some.inj h] at hlower
      · rwa [Option.some.inj h] at hupper
      · rwa [Option.some.inj h] at hupper
      · split at h
        · rwa [Option.some.inj h] at hlower
        · rwa [Option.some.inj h] at hupper

/-- What is on the grid below the value and not in the interval is not above its low end. -/
theorem le_low_of_not_contains {i : Interval} {n : Nat} {unit : Int}
    (h : i.contains n unit = false)
    (hhigh : n * Scientific.tenNum unit * i.den < i.high * Scientific.tenDen unit) :
    n * Scientific.tenNum unit * i.den ≤ i.low * Scientific.tenDen unit := by
  simp only [contains] at h
  split at h <;> simp only [Bool.and_eq_false_iff, decide_eq_false_iff_not] at h <;> omega

/-- What is on the grid above the value and not in the interval is not below its high end. -/
theorem high_le_of_not_contains {i : Interval} {n : Nat} {unit : Int}
    (h : i.contains n unit = false)
    (hlow : i.low * Scientific.tenDen unit < n * Scientific.tenNum unit * i.den) :
    i.high * Scientific.tenDen unit ≤ n * Scientific.tenNum unit * i.den := by
  simp only [contains] at h
  split at h <;> simp only [Bool.and_eq_false_iff, decide_eq_false_iff_not] at h <;> omega

/-- **A grid that is finer than an interval has a neighbour in it.** -/
theorem isSome_neighbour? {i : Interval} (tie : Tie) {unit : Int} (hden : 0 < i.den)
    (hlow : i.low < i.value) (hhigh : i.value < i.high)
    (hfine : i.low * Scientific.tenDen unit + i.den * Scientific.tenNum unit <
      i.high * Scientific.tenDen unit) : (i.neighbour? tie unit).isSome := by
  have hten : 0 < Scientific.tenDen unit := tenDen_pos unit
  have hlow' := Nat.mul_lt_mul_of_pos_right hlow hten
  have hhigh' := Nat.mul_lt_mul_of_pos_right hhigh hten
  have hstep : 0 < i.den * Scientific.tenNum unit := Nat.mul_pos hden (Nat.pow_pos (by decide))
  -- the value lies between the two neighbours
  have hbelow :=
    Nat.div_mul_le_self (i.value * Scientific.tenDen unit) (i.den * Scientific.tenNum unit)
  have habove := Nat.lt_mul_div_succ (i.value * Scientific.tenDen unit) hstep
  unfold neighbour?
  simp only
  generalize i.value * Scientific.tenDen unit / (i.den * Scientific.tenNum unit) = n
    at hbelow habove
  have hpoint (m : Nat) :
      m * Scientific.tenNum unit * i.den = m * (i.den * Scientific.tenNum unit) := by
    rw [Nat.mul_assoc, Nat.mul_comm (Scientific.tenNum unit)]
  have hnext : (n + 1) * (i.den * Scientific.tenNum unit) =
      n * (i.den * Scientific.tenNum unit) + i.den * Scientific.tenNum unit := Nat.succ_mul _ _
  rw [Nat.mul_comm _ (n + 1), hnext] at habove
  split
  · next hlower hupper =>
      -- both neighbours outside would leave room for the interval between them
      have h₁ := le_low_of_not_contains hlower (by rw [hpoint]; omega)
      have h₂ := high_le_of_not_contains hupper (by rw [hpoint, hnext]; omega)
      rw [hpoint] at h₁ h₂
      omega
  · rfl
  · rfl
  · split <;> rfl

end Interval

namespace Binary

open Binary.Format

variable {f : Format}

/-! ### Data with short fractions -/

/-- The interval of a datum is wider than a unit of its seventeenth digit. -/
theorem value_lt_of_le (hf : f.fractionBits ≤ 52) (x : Binary f) :
    (Interval.ofBinary x).value + 10 ^ 16 * (Interval.ofBinary x).low <
      10 ^ 16 * (Interval.ofBinary x).high := by
  have hgap := gapAt_pos f x.field
  have hmod := Nat.mod_lt x.field.val (Nat.two_pow_pos f.fractionBits)
  have hbits : 2 ^ f.fractionBits * f.gapAt x.field ≤ 4503599627370496 * f.gapAt x.field :=
    Nat.mul_le_mul_right _ (Nat.pow_le_pow_right (by decide) hf)
  rw [Interval.ofBinary_value, Interval.ofBinary_low, Interval.ofBinary_high, magnitudeAt_succ]
  by_cases hstart : x.field.val / 2 ^ f.fractionBits ≠ 0 ∧ x.field.val % 2 ^ f.fractionBits = 0
  · -- at the start of an exponent the interval is smaller, but so is the significand
    have hmagnitude : f.magnitudeAt x.field = 2 ^ f.fractionBits * f.gapAt x.field := by
      simp [magnitudeAt, hstart]
    have hbelow : Interval.below f x.field = 1 := if_pos hstart
    rw [hbelow, hmagnitude]
    omega
  · have hmagnitude : f.magnitudeAt x.field ≤ 2 * 2 ^ f.fractionBits * f.gapAt x.field := by
      refine Nat.mul_le_mul_right _ ?_
      split <;> omega
    have hbelow : Interval.below f x.field = 2 := if_neg hstart
    rw [Nat.mul_assoc] at hmagnitude
    rw [hbelow]
    omega

/-- The seventeenth digit is always a hit. -/
theorem isSome_neighbour?_of_le (hf : f.fractionBits ≤ 52) (tie : Tie) {x : Binary f}
    (hx : 0 < x.field.val) :
    ((Interval.ofBinary x).neighbour? tie (Scientific.exponentOf (Interval.ofBinary x).value
      (Interval.ofBinary x).den - 16)).isSome := by
  have hden := Interval.ofBinary_den_pos x
  have hbelow := magnitudeAt_strictMono f (show x.field.val - 1 < x.field by omega)
  have hvalue : 0 < (Interval.ofBinary x).value := by
    rw [Interval.ofBinary_value]
    omega
  have htop := Scientific.exponentOf_le hvalue hden
  have hwide : ((Interval.ofBinary x).value : ℚ) + 10 ^ 16 * (Interval.ofBinary x).low <
      10 ^ 16 * (Interval.ofBinary x).high := by
    exact_mod_cast value_lt_of_le hf x
  refine Interval.isSome_neighbour? tie hden ?_ ?_ ?_
  · rw [Interval.ofBinary_low, Interval.ofBinary_value]
    have := gapAt_pos f x.field
    have hone : 0 < Interval.below f x.field := by
      unfold Interval.below
      split <;> decide
    have := Nat.mul_pos hone this
    omega
  · rw [Interval.ofBinary_high, Interval.ofBinary_value, magnitudeAt_succ]
    have := gapAt_pos f x.field
    omega
  · generalize Scientific.exponentOf (Interval.ofBinary x).value (Interval.ofBinary x).den = top
      at htop ⊢
    have hten : (0 : ℚ) < Scientific.tenDen (top - 16) := by
      exact_mod_cast Interval.tenDen_pos _
    have hsplit : (10 : ℚ) ^ top = 10 ^ 16 * 10 ^ (top - 16) := by
      rw [show (10 : ℚ) ^ 16 = 10 ^ (16 : Int) by norm_num, ← zpow_add₀ (by norm_num)]
      congr 1
      omega
    have hfine : ((Interval.ofBinary x).low : ℚ) + (Interval.ofBinary x).den * 10 ^ (top - 16) <
        (Interval.ofBinary x).high := by
      rw [hsplit] at htop
      linarith
    have hscaled := mul_lt_mul_of_pos_right hfine hten
    rw [add_mul, mul_assoc ((Interval.ofBinary x).den : ℚ), ← Interval.tenNum_eq] at hscaled
    exact_mod_cast hscaled

/-- The search ends with a number of units that the interval contains. -/
theorem shortest_eq (hf : f.fractionBits ≤ 52) (tie : Tie) {x : Binary f} (hx : 0 < x.field.val) :
    ∃ (n : Nat) (unit : Int), (Interval.ofBinary x).contains n unit = true ∧
      x.shortest tie =
        { Scientific.ofUnits n unit with
          digits := Scientific.trimZeros (Scientific.ofUnits n unit).digits } := by
  have hzero : x.isZero = false := by simp [isZero]; omega
  unfold shortest
  simp only [hzero, Bool.false_eq_true, if_false]
  split
  · next s hs =>
      obtain ⟨k, -, hk⟩ := List.exists_of_findSome?_eq_some hs
      obtain ⟨n, hn, rfl⟩ := Option.map_eq_some_iff.1 hk
      exact ⟨n, _, Interval.contains_of_neighbour? hn, rfl⟩
  · next hnone =>
      have hlast := List.findSome?_eq_none_iff.1 hnone 16 (by decide)
      have hsome := isSome_neighbour?_of_le hf tie hx
      rw [Option.map_eq_none_iff, Nat.cast_ofNat] at hlast
      rw [hlast] at hsome
      exact absurd hsome (by simp)

theorem shortest_of_zero (tie : Tie) {x : Binary f} (hx : x.field.val = 0) :
    x.shortest tie = .zero := by
  simp [shortest, isZero, hx]

theorem shortest_proper (tie : Tie) (x : Double) : (x.shortest tie).Proper := by
  rcases Nat.eq_zero_or_pos x.field.val with hx | hx
  · rw [shortest_of_zero tie hx]
    constructor <;> simp [Scientific.zero]
  · obtain ⟨n, unit, -, hs⟩ := shortest_eq (by decide) tie hx
    rw [hs]
    exact (Scientific.ofUnits_proper n unit).trimZeros

/-- **The shortest decimal of a datum rounds to it.** -/
theorem shortest_roundsTo_of_le (hpos : 0 < f.fractionBits) (hf : f.fractionBits ≤ 52) (tie : Tie)
    {x : Binary f} (hx : 0 < x.field.val) :
    f.RoundsTo x.field ((x.shortest tie).value * 2 ^ f.unitShift) := by
  obtain ⟨n, unit, hcontains, hs⟩ := shortest_eq hf tie hx
  rw [hs, Scientific.value_trimZeros, Scientific.value_ofUnits]
  exact Interval.roundsTo_of_contains x hpos hx hcontains

theorem shortest_roundsTo (tie : Tie) {x : Double} (hx : 0 < x.field.val) :
    Format.double.RoundsTo x.field ((x.shortest tie).value * 2 ^ Format.double.unitShift) :=
  shortest_roundsTo_of_le (by decide) (by decide) tie hx

end Binary

end ValueLens
