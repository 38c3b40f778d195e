/-
**Integers and doubles compare by their exact values.**

An integer key is compared with a floating point key by rounding the integer first.  Many integers
share one double, so it has to be said why rounding never changes the answer.  Rounding keeps the
order and leaves what is on the ladder of magnitudes alone; so the double of an integer lies on the
side of the other double on which the integer itself lies, or there is a tie.  In a tie the
other double is an integer: below the precision integers are on the ladder, so the double is
the integer that was rounded, and from there on the ladder has integers only.  The integer parts
that decide a tie are therefore the exact values.

What is left are the values that are no numbers on the ladder.  Infinities and NaNs lie beyond all
integers of sixty-four bits, on the side of their sign, and negative zero lies just below zero.

Main definitions:

* `ValueLens.Shape.integer?` — the value of an integer of either kind.

Main results:

* `ValueLens.Binary.roundField_magnitudeAt` — the ladder is left alone by rounding;
* `ValueLens.Binary.dvd_magnitudeAt_of_roundField` — **what an integer is rounded to is an
  integer**;
* `ValueLens.KeyNumber.compareIntFloat_of_finite` — the comparison with a finite double is exact;
* `ValueLens.Graph.numbers_compare_exactly` — so is the order of numeric keys.
-/
import ValueLens.Proofs.NaturalOrder
import ValueLens.Proofs.NumberText

set_option relaxedAutoImplicit false
set_option autoImplicit false

namespace ValueLens

namespace Binary

open Format

variable {f : Format}

/-! ### Rounding leaves the ladder alone -/

/-- A quotient is rounded the same in lowest terms. -/
theorem roundDiv_mul_right {c : Nat} (hc : 0 < c) (num den : Nat) :
    roundDiv (num * c) (den * c) = roundDiv num den := by
  have hrest : num * c % (den * c) = num % den * c := Nat.mul_mod_mul_right c num den
  have hlt : 2 * (num % den * c) < den * c ↔ 2 * (num % den) < den := by
    rw [← Nat.mul_assoc, Nat.mul_lt_mul_right hc]
  have hgt : 2 * (num % den * c) > den * c ↔ 2 * (num % den) > den := by
    rw [← Nat.mul_assoc, gt_iff_lt, Nat.mul_lt_mul_right hc]
  simp only [roundDiv, hrest, Nat.mul_div_mul_right num den hc, hlt, hgt]

theorem roundField_mul_right {c : Nat} (hc : 0 < c) (num den : Nat) :
    roundField f (num * c) (den * c) = roundField f num den := by
  have hscaled : num * c * 2 ^ f.unitShift = num * 2 ^ f.unitShift * c := by ring
  have hden (e : Nat) : den * c * 2 ^ e = den * 2 ^ e * c := by ring
  simp only [roundField_eq, hscaled, hden, Nat.mul_div_mul_right _ _ hc, roundDiv_mul_right hc]

/-- How many bits of a magnitude on the ladder go beyond the precision: as many as its exponent
says. -/
theorem excess_magnitudeAt_of_add (hp : 0 < f.precision) (e : Nat) {m : Nat}
    (hm : m < 2 ^ f.fractionBits) : excess f ((2 ^ f.fractionBits + m) * 2 ^ e) = e := by
  have hlog : ((2 ^ f.fractionBits + m) * 2 ^ e).log2 = f.fractionBits + e := by
    refine (Nat.log2_eq_iff (by positivity)).2 ⟨?_, ?_⟩
    · rw [Nat.pow_add]
      exact Nat.mul_le_mul_right _ (Nat.le_add_right _ _)
    · rw [Nat.add_right_comm, Nat.pow_add]
      refine Nat.mul_lt_mul_of_pos_right ?_ (Nat.two_pow_pos _)
      rw [Nat.pow_succ]
      omega
  rw [excess, hlog, fractionBits]
  omega

/-- **A magnitude on the ladder is rounded to its own field.** -/
theorem roundField_magnitudeAt (hp : 0 < f.precision) {k : Nat} (hk : k ≤ f.infinityField) :
    roundField f (f.magnitudeAt k) (2 ^ f.unitShift) = k := by
  have hunit : 0 < 2 ^ f.unitShift := Nat.two_pow_pos _
  have hround (n d : Nat) (hd : 0 < d) :
      roundDiv (n * d * 2 ^ f.unitShift) (2 ^ f.unitShift * d) = n := by
    have hnum : n * d * 2 ^ f.unitShift = n * (2 ^ f.unitShift * d) := by ring
    have hpos : 0 < 2 ^ f.unitShift * d := Nat.mul_pos hunit hd
    rw [hnum, roundDiv_of_dvd hpos (Nat.dvd_mul_left _ _), Nat.mul_div_cancel _ hpos]
  rw [roundField_eq, Nat.mul_div_cancel _ hunit]
  rcases f.field_cases k with hlt | ⟨e, m, hm, rfl⟩
  · -- without an exponent nothing is dropped
    have hexcess : excess f k = 0 := by
      have hlog : k.log2 < f.precision := by
        by_cases hzero : k = 0
        · simpa [hzero] using hp
        · refine (Nat.log2_lt hzero).2 ?_
          rw [two_pow_precision hp]
          omega
      simp only [excess]
      omega
    have hexact := hround k 1 Nat.one_pos
    rw [Nat.mul_one] at hexact
    rw [magnitudeAt_of_lt hlt, hexcess, Nat.zero_mul, Nat.zero_add, Nat.pow_zero, hexact]
    exact Nat.min_eq_left hk
  · rw [magnitudeAt_of_add e hm, excess_magnitudeAt_of_add hp e hm, hround _ _ (Nat.two_pow_pos e)]
    have hfield : e * 2 ^ f.fractionBits + (2 ^ f.fractionBits + m) =
        (e + 1) * 2 ^ f.fractionBits + m := by ring
    rw [hfield]
    exact Nat.min_eq_left hk

/-! ### Integers on the ladder -/

/-- An integer that does not exceed a magnitude is not rounded above it. -/
theorem roundField_le_of_le_magnitudeAt (hp : 0 < f.precision) {n k : Nat}
    (hk : k ≤ f.infinityField) (h : n * 2 ^ f.unitShift ≤ f.magnitudeAt k) :
    roundField f n 1 ≤ k := by
  rw [← roundField_mul_right (Nat.two_pow_pos f.unitShift) n 1, Nat.one_mul,
    ← roundField_magnitudeAt hp hk]
  exact roundField_mono hp (Nat.two_pow_pos _) h

/-- An integer that is not below a magnitude is not rounded below it, up to infinity. -/
theorem le_roundField_of_magnitudeAt_le (hp : 0 < f.precision) {n k : Nat}
    (h : f.magnitudeAt k ≤ n * 2 ^ f.unitShift) : min k f.infinityField ≤ roundField f n 1 := by
  have hle : f.magnitudeAt (min k f.infinityField) ≤ n * 2 ^ f.unitShift :=
    Nat.le_trans (f.magnitudeAt_strictMono.monotone (Nat.min_le_left _ _)) h
  rw [← roundField_mul_right (Nat.two_pow_pos f.unitShift) n 1, Nat.one_mul]
  calc min k f.infinityField
      = roundField f (f.magnitudeAt (min k f.infinityField)) (2 ^ f.unitShift) :=
        (roundField_magnitudeAt hp (Nat.min_le_right _ _)).symm
    _ ≤ roundField f (n * 2 ^ f.unitShift) (2 ^ f.unitShift) :=
        roundField_mono hp (Nat.two_pow_pos _) hle

/-- Beyond the precision the ladder has integers only. -/
theorem dvd_magnitudeAt_of_le (hp : 0 < f.precision) {k : Nat}
    (h : 2 ^ f.precision * 2 ^ f.unitShift ≤ f.magnitudeAt k) :
    2 ^ f.unitShift ∣ f.magnitudeAt k := by
  rcases f.field_cases k with hlt | ⟨e, m, hm, rfl⟩
  · rw [magnitudeAt_of_lt hlt] at h ⊢
    have hbelow : k < 2 ^ f.precision * 2 ^ f.unitShift := by
      have hone : 1 ≤ 2 ^ f.unitShift := Nat.one_le_two_pow
      have hprecision := two_pow_precision hp
      nlinarith
    omega
  · rw [magnitudeAt_of_add e hm] at h ⊢
    refine Nat.dvd_trans (Nat.pow_dvd_pow 2 ?_) (Nat.dvd_mul_left _ _)
    -- the significand is below the precision, so the exponent makes up for the rest
    have hsignificand : 2 ^ f.fractionBits + m < 2 ^ f.precision := by
      rw [two_pow_precision hp]
      omega
    have hpow : 2 ^ f.precision * 2 ^ f.unitShift < 2 ^ f.precision * 2 ^ e :=
      Nat.lt_of_le_of_lt h (Nat.mul_lt_mul_of_pos_right hsignificand (Nat.two_pow_pos e))
    have hexponent : 2 ^ f.unitShift < 2 ^ e := Nat.lt_of_mul_lt_mul_left hpow
    exact Nat.le_of_lt ((Nat.pow_lt_pow_iff_right (by decide)).1 hexponent)

/-- **What an integer is rounded to is an integer.** -/
theorem dvd_magnitudeAt_of_roundField (hp : 0 < f.precision) (hu : f.fractionBits ≤ f.unitShift)
    {n k : Nat} (hk : k < f.infinityField) (h : roundField f n 1 = k) :
    2 ^ f.unitShift ∣ f.magnitudeAt k := by
  have hbelow {j : Nat} (hj : f.magnitudeAt j ≤ n * 2 ^ f.unitShift) : j ≤ k := by
    have hround := le_roundField_of_magnitudeAt_le hp hj
    omega
  rcases Nat.lt_or_ge n (2 ^ f.precision) with hlt | hge
  · -- the integer is on the ladder, and rounding leaves it there
    obtain ⟨j, hj⟩ : ∃ j, f.magnitudeAt j = n * 2 ^ f.unitShift := by
      rcases Nat.eq_zero_or_pos n with rfl | hn
      · exact ⟨0, by rw [magnitudeAt_zero, Nat.zero_mul]⟩
      · obtain ⟨j, -, hj⟩ := exists_magnitudeAt hn hp hlt hu
        exact ⟨j, hj⟩
    have hjk : j ≤ k := hbelow (Nat.le_of_eq hj)
    have hkj : roundField f n 1 ≤ j :=
      roundField_le_of_le_magnitudeAt hp (by omega) (Nat.le_of_eq hj.symm)
    obtain rfl : k = j := by omega
    rw [hj]
    exact Nat.dvd_mul_left _ _
  · -- the integer is beyond the precision, and so is what it is rounded to
    have hpower : f.magnitudeAt ((f.unitShift + 1 + 1) * 2 ^ f.fractionBits + 0) =
        2 ^ f.precision * 2 ^ f.unitShift := by
      rw [magnitudeAt_of_add _ (Nat.two_pow_pos _), two_pow_precision hp]
      ring
    refine dvd_magnitudeAt_of_le hp ?_
    rw [← hpower]
    refine f.magnitudeAt_strictMono.monotone (hbelow ?_)
    rw [hpower]
    exact Nat.mul_le_mul_right _ hge

/-! ### Integers against doubles -/

/-- The value of a finite datum in units of the smallest subnormal number. -/
def scaled (x : Binary f) : Int := if x.negative then -(x.magnitude : Int) else x.magnitude

/-- The double zero with a minus sign. -/
def isNegativeZero (x : Binary f) : Bool := x.negative && x.isZero

theorem field_lt_of_isFinite {x : Binary f} (h : x.isFinite = true) :
    x.field.val < f.infinityField := by
  simpa [isFinite] using h

theorem magnitude_pos_iff (x : Binary f) : 0 < x.magnitude ↔ 0 < x.field.val := by
  have hmono := f.magnitudeAt_strictMono.lt_iff_lt (a := 0) (b := x.field.val)
  rwa [magnitudeAt_zero] at hmono

/-- The magnitude of an integer in the units of doubles. -/
theorem scaled_natAbs (z : Int) :
    z * 2 ^ Format.double.unitShift =
      if z < 0 then -((z.natAbs * 2 ^ Format.double.unitShift : Nat) : Int)
      else (z.natAbs * 2 ^ Format.double.unitShift : Nat) := by
  split
  · next hz =>
      rw [Nat.cast_mul, ← Int.neg_mul, Int.ofNat_natAbs_of_nonpos (by omega), Int.neg_neg,
        Nat.cast_pow, Nat.cast_ofNat]
  · next hz =>
      rw [Nat.cast_mul, Int.natAbs_of_nonneg (by omega), Nat.cast_pow, Nat.cast_ofNat]

/-- **The double of an integer lies on the side on which the integer lies**, if not on neither. -/
theorem place_ofInt_of_finite (z : Int) {y : Double} (hy : y.isFinite = true) :
    (z * 2 ^ Format.double.unitShift < y.scaled → (ofInt z).place ≤ y.place) ∧
      (y.scaled < z * 2 ^ Format.double.unitShift → y.place ≤ (ofInt z).place) := by
  have hfield := field_lt_of_isFinite hy
  have hbelow (h : z.natAbs * 2 ^ Format.double.unitShift ≤ y.magnitude) :
      roundField .double z.natAbs 1 ≤ y.field :=
    roundField_le_of_le_magnitudeAt (by decide) (Nat.le_of_lt hfield) h
  have habove (h : y.magnitude ≤ z.natAbs * 2 ^ Format.double.unitShift) :
      y.field ≤ roundField .double z.natAbs 1 := by
    have hmin := le_roundField_of_magnitudeAt_le (f := .double) (by decide) h
    rwa [Nat.min_eq_left (Nat.le_of_lt hfield)] at hmin
  rw [scaled_natAbs, place_ofInt, scaled, place]
  generalize z.natAbs * 2 ^ Format.double.unitShift = n at hbelow habove
  generalize roundField .double z.natAbs 1 = k at hbelow habove
  by_cases hz : z < 0
  · cases hn : y.negative with
    | true => simp only [hz, if_true]; omega
    | false => simp only [hz, if_true, Bool.false_eq_true, if_false]; omega
  · cases hn : y.negative with
    | true => simp only [hz, if_true, if_false]; omega
    | false => simp only [hz, Bool.false_eq_true, if_false]; omega

/-- **In a tie the double is an integer**, and its integer part is its value. -/
theorem truncate_of_tie {z : Int} {y : Double} (hy : y.isFinite = true)
    (h : (ofInt z).place = y.place) :
    y.truncate?.getD 0 * 2 ^ Format.double.unitShift = y.scaled := by
  have hfield : roundField .double z.natAbs 1 = y.field := by
    rw [← place_injective h]
    exact (field_ofRatio _ _ _ _).symm
  have hdvd : 2 ^ Format.double.unitShift ∣ y.magnitude :=
    dvd_magnitudeAt_of_roundField (by decide) (by decide) (field_lt_of_isFinite hy) hfield
  have hexact : ((y.magnitude / 2 ^ Format.double.unitShift : Nat) : Int) *
      (2 ^ Format.double.unitShift : Nat) = y.magnitude := by
    rw [← Nat.cast_mul, Nat.div_mul_cancel hdvd]
  rw [Nat.cast_pow, Nat.cast_ofNat] at hexact
  simp only [truncate?, hy, if_true, Option.getD_some, scaled, Nat.pow_eq]
  split
  · rw [Int.neg_mul, hexact]
  · rw [hexact]

/-- An integer that is a double has this double, and that is not negative zero. -/
theorem place_ofInt_of_eq {z : Int} {y : Double} (hy : y.isFinite = true)
    (h : z * 2 ^ Format.double.unitShift = y.scaled) :
    if y.isNegativeZero then y.place < (ofInt z).place else (ofInt z).place = y.place := by
  have hfield := field_lt_of_isFinite hy
  have hpos := magnitude_pos_iff y
  have hround (hn : z.natAbs * 2 ^ Format.double.unitShift = y.magnitude) :
      roundField .double z.natAbs 1 = y.field := by
    have hle := roundField_le_of_le_magnitudeAt (f := .double) (by decide) (Nat.le_of_lt hfield)
      (Nat.le_of_eq hn)
    have hge := le_roundField_of_magnitudeAt_le (f := .double) (by decide) (Nat.le_of_eq hn.symm)
    omega
  rw [scaled_natAbs, scaled] at h
  rw [place_ofInt, place, isNegativeZero, isZero]
  have hzero : z.natAbs * 2 ^ Format.double.unitShift = 0 ↔ z.natAbs = 0 := by
    simp
  generalize z.natAbs * 2 ^ Format.double.unitShift = n at h hround hzero
  by_cases hz : z < 0
  · cases hn : y.negative with
    | true =>
        simp only [hz, hn, if_true] at h ⊢
        have hne : ¬y.field.val = 0 := by omega
        simp only [Bool.true_and, beq_iff_eq, hne, if_false]
        rw [hround (by omega)]
    | false =>
        simp only [hz, hn, if_true, Bool.false_eq_true, if_false] at h
        omega
  · cases hn : y.negative with
    | true =>
        simp only [hz, hn, if_true, if_false] at h ⊢
        have heq : y.field.val = 0 := by omega
        simp only [Bool.true_and, beq_iff_eq, heq, if_true]
        omega
    | false =>
        simp only [hz, hn, Bool.false_eq_true, if_false] at h ⊢
        simp only [Bool.false_and, Bool.false_eq_true, if_false]
        rw [hround (by omega)]

/-- The double of an integer of sixty-four bits lies between the infinities. -/
theorem place_ofInt_bounds {z : Int} (hz : z.natAbs ≤ 2 ^ 64) :
    -(Format.double.infinityField : Int) - 1 < (ofInt z).place ∧
      (ofInt z).place < Format.double.infinityField := by
  have hround : roundField .double z.natAbs 1 < Format.double.infinityField :=
    Nat.lt_of_le_of_lt (roundField_mono (by decide) Nat.one_pos hz) (by decide +kernel)
  rw [place_ofInt]
  split <;> omega

end Binary

namespace KeyNumber

/-- **The comparison with a finite double is exact.**  Negative zero lies just below zero. -/
theorem compareIntFloat_of_finite (z : Int) {y : Double} (hy : y.isFinite = true) :
    compareIntFloat z y =
      (Ord.compare (z * 2 ^ Binary.Format.double.unitShift) y.scaled).then
        (if y.isNegativeZero then .gt else .eq) := by
  have hunit : (0 : Int) < 2 ^ Binary.Format.double.unitShift := by positivity
  obtain ⟨hlow, hhigh⟩ := Binary.place_ofInt_of_finite z hy
  have htie := Binary.truncate_of_tie (z := z) hy
  rw [compareIntFloat_eq]
  generalize y.truncate?.getD 0 = t at htie
  rcases Int.lt_trichotomy (z * 2 ^ Binary.Format.double.unitShift) y.scaled with hlt | heq | hgt
  · rw [Int.compare_eq_lt.2 hlt]
    rcases Int.lt_or_eq_of_le (hlow hlt) with hplace | hplace
    · rw [Int.compare_eq_lt.2 hplace]
      rfl
    · have hz : z < t := lt_of_mul_lt_mul_right (by rwa [htie hplace]) hunit.le
      rw [Int.compare_eq_eq.2 hplace, Int.compare_eq_lt.2 hz]
      rfl
  · rw [Int.compare_eq_eq.2 heq]
    have hplace := Binary.place_ofInt_of_eq hy heq
    split at hplace
    · next hzero =>
        rw [Int.compare_eq_gt.2 hplace, if_pos hzero]
        rfl
    · next hzero =>
        have hz : z = t := by
          refine Int.eq_of_mul_eq_mul_right hunit.ne' ?_
          rw [htie hplace, heq]
        rw [Int.compare_eq_eq.2 hplace, Int.compare_eq_eq.2 hz, if_neg hzero]
  · rw [Int.compare_eq_gt.2 hgt]
    rcases Int.lt_or_eq_of_le (hhigh hgt) with hplace | hplace
    · rw [Int.compare_eq_gt.2 hplace]
      rfl
    · have hz : t < z := lt_of_mul_lt_mul_right (by rwa [htie hplace.symm]) hunit.le
      rw [Int.compare_eq_eq.2 hplace.symm, Int.compare_eq_gt.2 hz]
      rfl

/-- An infinity or NaN lies beyond all integers on the side of its sign. -/
theorem compareIntFloat_of_not_finite {z : Int} (hz : z.natAbs ≤ 2 ^ 64) {y : Double}
    (hy : y.isFinite = false) : compareIntFloat z y = if y.negative then .gt else .lt := by
  have hfield : Binary.Format.double.infinityField ≤ y.field := by
    simpa [Binary.isFinite] using hy
  obtain ⟨hlow, hhigh⟩ := Binary.place_ofInt_bounds hz
  rw [compareIntFloat_eq]
  generalize (Binary.ofInt z).place = p at hlow hhigh
  cases hn : y.negative with
  | true =>
      have hplace : y.place < p := by
        simp only [Binary.place, hn, if_true]
        omega
      rw [Int.compare_eq_gt.2 hplace]
      rfl
  | false =>
      have hplace : p < y.place := by
        simp only [Binary.place, hn, Bool.false_eq_true, if_false]
        omega
      rw [Int.compare_eq_lt.2 hplace]
      rfl

end KeyNumber

/-! ### Numeric keys -/

/-- The value of an integer, signed or not. -/
def Shape.integer? : Shape → Option Int
  | .int v _ => some v.toInt
  | .uint v _ => some v.toNat
  | _ => none

namespace Graph

variable {g : Graph} {a b : NodeId}

/-- An integer against a double, as keys. -/
theorem compareKeys_integer_float {x : Int} {y : Double} {width : FloatWidth}
    (ha : (g.shape a).integer? = some x) (hb : g.shape b = .float y width) :
    g.compareKeys a b = (KeyNumber.compareIntFloat x y).then .lt ∧ x.natAbs ≤ 2 ^ 64 := by
  cases hs : g.shape a with
  | int z bits =>
      rw [hs] at ha
      obtain rfl := Option.some.inj ha
      refine ⟨?_, ?_⟩
      · simp only [compareKeys, SortKey.ofNode, hs, hb, SortKey.compare, KeyNumber.compare,
          KeyNumber.compareValue, KeyNumber.rank]
        rfl
      · have hlow := z.le_toInt
        have hhigh := z.toInt_lt
        omega
  | uint n bits =>
      rw [hs] at ha
      obtain rfl := Option.some.inj ha
      refine ⟨?_, ?_⟩
      · simp only [compareKeys, SortKey.ofNode, hs, hb, SortKey.compare, KeyNumber.compare,
          KeyNumber.compareValue, KeyNumber.rank]
        rfl
      · have hhigh := n.toNat_lt
        omega
  | _ => simp [hs, Shape.integer?] at ha

end Graph

/-- The value of a double over the smallest subnormal number. -/
theorem Number.value_float (y : Double) :
    (Number.float y).value = y.scaled / 2 ^ Binary.Format.double.unitShift := by
  have hvalue : (Number.float y).value =
      if y.negative then -(y.magnitude / 2 ^ Binary.Format.double.unitShift : ℚ)
      else y.magnitude / 2 ^ Binary.Format.double.unitShift := rfl
  rw [hvalue, Binary.scaled]
  split
  · rw [Int.cast_neg, Int.cast_natCast, neg_div]
  · rw [Int.cast_natCast]

/-- Comparing with the value of a double is comparing in its units. -/
theorem Number.compare_value_float (x : Int) (y : Double) :
    Ord.compare (x : ℚ) (Number.float y).value =
      Ord.compare (x * 2 ^ Binary.Format.double.unitShift) y.scaled := by
  have hunit : (0 : ℚ) < 2 ^ Binary.Format.double.unitShift := by positivity
  have hcast : ((x * 2 ^ Binary.Format.double.unitShift : Int) : ℚ) =
      x * 2 ^ Binary.Format.double.unitShift := by
    rw [Int.cast_mul, Int.cast_pow, Int.cast_ofNat]
  rw [Number.value_float]
  rcases Int.lt_trichotomy (x * 2 ^ Binary.Format.double.unitShift) y.scaled with hlt | heq | hgt
  · rw [Int.compare_eq_lt.2 hlt, compare_lt_iff_lt, lt_div_iff₀ hunit, ← hcast]
    exact Int.cast_lt.2 hlt
  · rw [Int.compare_eq_eq.2 heq, compare_eq_iff_eq, eq_div_iff hunit.ne', ← hcast, heq]
  · rw [Int.compare_eq_gt.2 hgt, compare_gt_iff_gt, div_lt_iff₀ hunit, ← hcast]
    exact Int.cast_lt.2 hgt

namespace Graph

/-- **Numeric keys compare by exact value.**  An integer is less than a finite double above it,
greater than one below it, and less than one that equals it, unless that is negative zero; it is
less than positive infinity and the positive NaNs and greater than the negative ones.  A signed
integer is less than an unsigned one that equals it. -/
theorem numbers_compare_exactly (g : Graph) (a b : NodeId) :
    (∀ x y width, (g.shape a).integer? = some x → g.shape b = .float y width →
      g.compareKeys a b =
        if y.isFinite then
          if x < (Number.float y).value then .lt
          else if (Number.float y).value < x then .gt
          else if y.isNegativeZero then .gt
          else .lt
        else if y.negative then .gt
        else .lt) ∧
      ∀ z n m k, g.shape a = .int z m → g.shape b = .uint n k →
        g.compareKeys a b = if z.toInt ≤ n.toNat then .lt else .gt := by
  constructor
  · intro x y width ha hb
    obtain ⟨hcompare, hx⟩ := compareKeys_integer_float ha hb
    rw [hcompare]
    cases hy : y.isFinite with
    | false =>
        rw [KeyNumber.compareIntFloat_of_not_finite hx hy, if_neg Bool.false_ne_true]
        split <;> rfl
    | true =>
        rw [KeyNumber.compareIntFloat_of_finite x hy, ← Number.compare_value_float, if_pos rfl]
        generalize (Number.float y).value = v
        rcases lt_trichotomy (x : ℚ) v with hlt | rfl | hgt
        · rw [compare_lt_iff_lt.2 hlt, if_pos hlt]
          rfl
        · rw [compare_eq_iff_eq.2 rfl, if_neg (lt_irrefl _), if_neg (lt_irrefl _)]
          split <;> rfl
        · rw [compare_gt_iff_gt.2 hgt, if_neg hgt.not_gt, if_pos hgt]
          rfl
  · intro z n m k ha hb
    have hcompare : g.compareKeys a b =
        (Ord.compare z.toInt (n.toNat : Int)).then .lt := by
      simp only [compareKeys, SortKey.ofNode, ha, hb, SortKey.compare, KeyNumber.compare,
        KeyNumber.compareValue, KeyNumber.rank]
      rfl
    rw [hcompare]
    rcases Int.lt_trichotomy z.toInt n.toNat with hlt | heq | hgt
    · rw [Int.compare_eq_lt.2 hlt, if_pos (Int.le_of_lt hlt)]
      rfl
    · rw [Int.compare_eq_eq.2 heq, if_pos (Int.le_of_eq heq)]
      rfl
    · rw [Int.compare_eq_gt.2 hgt, if_neg (by omega)]
      rfl

/-- Integers beside doubles that they are rounded to, and the doubles that are no integers. -/
def edge : Graph :=
  ⟨#[{ shape := .int 9007199254740993 64, typeName := "i64" },
     { shape := .float ⟨false, ⟨1076 * Nat.pow 2 52, by decide⟩⟩ .double, typeName := "f64" },
     { shape := .uint 18446744073709551615 64, typeName := "u64" },
     { shape := .float ⟨false, ⟨1087 * Nat.pow 2 52, by decide⟩⟩ .double, typeName := "f64" },
     { shape := .int 0 64, typeName := "i64" },
     { shape := .float ⟨true, ⟨0, by decide⟩⟩ .double, typeName := "f64" },
     { shape := .uint 0 8, typeName := "u8" },
     { shape := .float (.nan .double true) .double, typeName := "f64" }]⟩

/-- The integers above two to the fifty-third and below two to the sixty-fourth have the doubles of
these powers, and are on their own side of them. -/
theorem edge_in_order :
    edge.compareKeys 0 1 = .gt ∧ edge.compareKeys 2 3 = .lt ∧ edge.compareKeys 4 5 = .gt ∧
      edge.compareKeys 4 6 = .lt ∧ edge.compareKeys 2 7 = .gt := by
  refine ⟨?_, ?_, ?_, ?_, ?_⟩
  · rw [(numbers_compare_exactly edge 0 1).1 9007199254740993 _ _ rfl rfl]
    decide +kernel
  · rw [(numbers_compare_exactly edge 2 3).1 18446744073709551615 _ _ rfl rfl]
    decide +kernel
  · rw [(numbers_compare_exactly edge 4 5).1 0 _ _ rfl rfl]
    decide +kernel
  · rw [(numbers_compare_exactly edge 4 6).2 _ _ _ _ rfl rfl]
    decide
  · rw [(numbers_compare_exactly edge 2 7).1 18446744073709551615 _ _ rfl rfl]
    decide +kernel

end Graph

end ValueLens
