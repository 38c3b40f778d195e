/-
**Rounding a double to single precision before it is written.**

A value of single width is carried as a double, which need not be a single.  It is written as the
single it rounds to: every single is a double, and rounding takes it back to where it came from, so
that a value that has been rounded before is written as the same text.

Two values are told from what they round to.  Whether a value is infinite is asked before it is
rounded.  So a finite value that rounds to an infinity is not recognised as one, and for want of
digits it is written as zero.  And whether the imaginary part of a complex number gets a plus sign
is asked before it is rounded.  So a negative value that rounds to negative zero gets none, while
negative zero itself, which is not less than zero, gets one in front of its minus sign.

Main definitions:

* `ValueLens.Binary.Overflows` — finite doubles that round to infinite singles;
* `ValueLens.Binary.Vanishes` — doubles that are not zero and round to zero.

Main results:

* `ValueLens.Binary.narrow_widen` — **a single comes back from the doubles**;
* `ValueLens.Binary.overflows_iff`, `ValueLens.Binary.isZero_narrow` — what is rounded to infinity
  and to zero;
* `ValueLens.Scalar.rounding_first_shows_iff` — when a value is told from what it rounds to.
-/
import ValueLens.Proofs.ExactOrder
import ValueLens.Render.Walk

set_option relaxedAutoImplicit false
set_option autoImplicit false

namespace ValueLens

namespace Binary

open Format

/-! ### Singles on the ladder of doubles -/

/-- **Multiples of powers of two within the precision are on the ladder.** -/
theorem exists_magnitudeAt_mul {f : Format} (hp : 0 < f.precision) {n : Nat}
    (hn : n < 2 ^ f.precision) (e : Nat) : ∃ k, f.magnitudeAt k = n * 2 ^ e := by
  rcases Nat.lt_or_ge (n * 2 ^ e) (2 ^ f.fractionBits) with hlt | hge
  · exact ⟨_, magnitudeAt_of_lt hlt⟩
  · have hpos : n ≠ 0 := by
      rintro rfl
      have := Nat.two_pow_pos f.fractionBits
      omega
    -- the leading bit of the integer is moved to the place of the leading bit of a significand
    have hlog : 2 ^ n.log2 ≤ n ∧ n < 2 ^ (n.log2 + 1) :=
      ⟨Nat.log2_self_le hpos, Nat.lt_log2_self⟩
    have hbits : n.log2 ≤ f.fractionBits := by
      have : n.log2 < f.precision := (Nat.log2_lt hpos).2 hn
      simp only [fractionBits]
      omega
    obtain ⟨up, hup⟩ := Nat.exists_eq_add_of_le hbits
    have hle : up ≤ e := by
      have hroom : 2 ^ (n.log2 + up) < 2 ^ (n.log2 + 1 + e) := by
        rw [← hup, Nat.pow_add _ _ e]
        exact Nat.lt_of_le_of_lt hge (Nat.mul_lt_mul_of_pos_right hlog.2 (Nat.two_pow_pos e))
      have := (Nat.pow_lt_pow_iff_right (by decide)).1 hroom
      omega
    obtain ⟨rest, rfl⟩ := Nat.exists_eq_add_of_le hle
    have hfill : 2 ^ f.fractionBits ≤ n * 2 ^ up := by
      rw [hup, Nat.pow_add]
      exact Nat.mul_le_mul_right _ hlog.1
    have hroom : n * 2 ^ up < 2 * 2 ^ f.fractionBits := by
      rw [hup, Nat.pow_add, ← Nat.mul_assoc, ← Nat.pow_succ']
      exact Nat.mul_lt_mul_of_pos_right hlog.2 (Nat.two_pow_pos _)
    obtain ⟨m, hm⟩ := Nat.exists_eq_add_of_le hfill
    refine ⟨(rest + 1) * 2 ^ f.fractionBits + m, ?_⟩
    rw [magnitudeAt_of_add rest (by omega), ← hm, Nat.pow_add, Nat.mul_assoc]

/-- The field of infinity continues the ladder: it stands for the next power of two. -/
theorem magnitudeAt_infinityField {f : Format} (h : 2 ≤ 2 ^ f.exponentBits) :
    f.magnitudeAt f.infinityField = 2 ^ (f.fractionBits + (2 ^ f.exponentBits - 2)) := by
  have hfield : f.infinityField = (2 ^ f.exponentBits - 2 + 1) * 2 ^ f.fractionBits + 0 := by
    rw [Nat.add_zero, show 2 ^ f.exponentBits - 2 + 1 = 2 ^ f.exponentBits - 1 by omega]
    rfl
  rw [hfield, magnitudeAt_of_add _ (Nat.two_pow_pos _), Nat.add_zero, ← Nat.pow_add]

/-- How many times smaller than those of singles the units of doubles are, as a power of two. -/
def finer : Nat := Format.double.unitShift - Format.single.unitShift

theorem two_pow_unitShift :
    2 ^ Format.double.unitShift = 2 ^ Format.single.unitShift * 2 ^ finer := by
  rw [← Nat.pow_add, finer, Nat.add_sub_cancel' (by decide)]

theorem significand_lt (y : Binary .single) : y.significand < 2 ^ Format.double.precision := by
  have hfraction : y.fraction < 2 ^ Format.single.fractionBits := Nat.mod_lt _ (Nat.two_pow_pos _)
  have hlarge : 2 ^ Format.single.fractionBits + 2 ^ Format.single.fractionBits ≤
      2 ^ Format.double.precision := by decide
  have hle : y.significand ≤ 2 ^ Format.single.fractionBits + y.fraction := by
    simp only [significand]
    split
    · exact Nat.le_add_left _ _
    · exact Nat.le_refl _
  exact Nat.lt_of_le_of_lt hle (Nat.lt_of_lt_of_le (Nat.add_lt_add_left hfraction _) hlarge)

theorem magnitude_lt_of_isFinite {y : Binary .single} (h : y.isFinite = true) :
    y.magnitude * 2 ^ finer < Format.double.magnitudeAt Format.double.infinityField := by
  have hlt := Format.single.magnitudeAt_strictMono (field_lt_of_isFinite h)
  rw [magnitudeAt_infinityField (by decide)] at hlt
  rw [magnitudeAt_infinityField (by decide)]
  refine Nat.lt_of_lt_of_le (Nat.mul_lt_mul_of_pos_right hlt (Nat.two_pow_pos finer)) ?_
  rw [← Nat.pow_add]
  exact Nat.pow_le_pow_right (by decide) (by decide)

/-- **Every finite single is a finite double.** -/
theorem widen_of_isFinite {y : Binary .single} (h : y.isFinite = true) :
    y.widen.isFinite = true ∧ y.widen.magnitude = y.magnitude * 2 ^ finer := by
  obtain ⟨k, hk⟩ :=
    exists_magnitudeAt_mul (f := .double) (by decide) (significand_lt y) (y.shift + finer)
  have hmagnitude : Format.double.magnitudeAt k = y.magnitude * 2 ^ finer := by
    rw [hk, Nat.pow_add, ← Nat.mul_assoc]
    rfl
  have hlt : k < Format.double.infinityField := by
    refine Format.double.magnitudeAt_strictMono.lt_iff_lt.1 ?_
    rw [hmagnitude]
    exact magnitude_lt_of_isFinite h
  have hround : y.widen.field.val = k := by
    have hwiden : y.widen =
        ofRatio .double y.negative y.magnitude (2 ^ Format.single.unitShift) := if_pos h
    rw [hwiden, field_ofRatio, ← roundField_mul_right (Nat.two_pow_pos finer), ← two_pow_unitShift,
      ← hmagnitude, roundField_magnitudeAt (by decide) (Nat.le_of_lt hlt)]
  refine ⟨?_, ?_⟩
  · rw [isFinite, hround]
    exact decide_eq_true hlt
  · rw [← hmagnitude, ← hround]
    rfl

/-! ### Infinities and NaNs -/

theorem isFinite_eq {f : Format} (x : Binary f) : x.isFinite = (!x.isNaN && !x.isInfinite) := by
  rw [Bool.eq_iff_iff]
  simp only [isFinite, isNaN, isInfinite, decide_eq_true_eq, Bool.and_eq_true, Bool.not_eq_true',
    decide_eq_false_iff_not, beq_eq_false_iff_ne]
  omega

theorem isFinite_iff {f : Format} {x : Binary f} :
    x.isFinite = true ↔ x.isNaN = false ∧ x.isInfinite = false := by
  simp [isFinite_eq]

theorem isNaN_of_isInfinite {f : Format} {x : Binary f} (h : x.isInfinite = true) :
    x.isNaN = false := by
  simp only [isInfinite, isNaN, beq_iff_eq, decide_eq_false_iff_not] at h ⊢
  omega

@[simp] theorem negative_narrow (x : Double) : x.narrow.negative = x.negative := by
  simp only [narrow]
  split
  · rfl
  · split <;> rfl

@[simp] theorem negative_widen (y : Binary .single) : y.widen.negative = y.negative := by
  simp only [widen]
  split <;> rfl

theorem isNaN_narrow_of_isNaN {x : Double} (h : x.isNaN = true) : x.narrow.isNaN = true := by
  have hpayload : x.fraction / 2 ^ 29 < 2 ^ 31 := by
    have hfraction : x.fraction < 2 ^ 52 := Nat.mod_lt _ (by decide)
    omega
  have hbase : Format.single.infinityField + 2 ^ 22 < 2 ^ 31 := by decide
  have hfield : x.narrow.field.val =
      Format.single.infinityField + 2 ^ 22 ||| x.fraction / 2 ^ 29 := by
    simp only [narrow, h, if_true]
    exact field_ofField (Nat.or_lt_two_pow hbase hpayload)
  rw [isNaN, hfield]
  exact decide_eq_true
    (Nat.lt_of_lt_of_le (Nat.lt_add_of_pos_right (Nat.two_pow_pos 22)) Nat.left_le_or)

theorem isInfinite_narrow_of_isInfinite {x : Double} (h : x.isInfinite = true) :
    x.narrow.isInfinite = true := by
  have hnan : x.isNaN = false := isNaN_of_isInfinite h
  have hnarrow : x.narrow = infinity .single x.negative := by
    simp only [narrow, hnan, h, if_true, Bool.false_eq_true, if_false]
  rw [hnarrow]
  rfl

theorem narrow_of_isFinite {x : Double} (h : x.isFinite = true) :
    x.narrow = ofRatio .single x.negative x.magnitude (2 ^ Format.double.unitShift) := by
  obtain ⟨hnan, hinfinite⟩ := isFinite_iff.1 h
  simp only [narrow, hnan, hinfinite, Bool.false_eq_true, if_false, Nat.pow_eq]

theorem isNaN_narrow (x : Double) : x.narrow.isNaN = x.isNaN := by
  cases hnan : x.isNaN with
  | true => exact isNaN_narrow_of_isNaN hnan
  | false =>
      have hle : x.narrow.field.val ≤ Format.single.infinityField := by
        cases hinf : x.isInfinite with
        | true =>
            have := isInfinite_narrow_of_isInfinite hinf
            exact Nat.le_of_eq (by simpa [isInfinite] using this)
        | false =>
            rw [narrow_of_isFinite (isFinite_iff.2 ⟨hnan, hinf⟩), field_ofRatio]
            exact Nat.min_le_right _ _
      exact decide_eq_false (by omega)

/-- An infinity or NaN keeps the distance of its field from infinity. -/
theorem field_widen_of_not_isFinite {y : Binary .single} (h : y.isFinite = false) :
    y.widen.field.val =
      Format.double.infinityField + (y.field.val - Format.single.infinityField) * 2 ^ 29 := by
  have hge : Format.single.infinityField ≤ y.field.val := by
    simpa [isFinite] using h
  have hcount : y.field.val < Format.single.fieldCount := y.field.isLt
  have hnames : Format.single.infinityField = 255 * 2 ^ 23 ∧ Format.single.fieldCount = 256 * 2 ^ 23
      ∧ Format.double.infinityField = 2047 * 2 ^ 52 ∧ Format.double.fieldCount = 2048 * 2 ^ 52 := by
    decide
  obtain ⟨hinf, hcount', hinf', hcount''⟩ := hnames
  have hfraction : y.fraction = y.field.val - Format.single.infinityField := by
    have : y.fraction = y.field.val % 2 ^ 23 := rfl
    omega
  simp only [widen, h, Bool.false_eq_true, if_false, hfraction, Nat.pow_eq]
  exact field_ofField (by omega)

theorem isFinite_widen (y : Binary .single) : y.widen.isFinite = y.isFinite := by
  cases hfinite : y.isFinite with
  | true => exact (widen_of_isFinite hfinite).1
  | false =>
      rw [isFinite, field_widen_of_not_isFinite hfinite]
      exact decide_eq_false (by omega)

theorem isNaN_widen (y : Binary .single) : y.widen.isNaN = y.isNaN := by
  cases hfinite : y.isFinite with
  | true =>
      have hwiden := (isFinite_widen y).trans hfinite
      rw [(isFinite_iff.1 hfinite).1, (isFinite_iff.1 hwiden).1]
  | false =>
      rw [isNaN, isNaN, field_widen_of_not_isFinite hfinite]
      exact decide_eq_decide.2 (by omega)

theorem isInfinite_eq {f : Format} (x : Binary f) : x.isInfinite = (!x.isFinite && !x.isNaN) := by
  rw [Bool.eq_iff_iff]
  simp only [isFinite, isNaN, isInfinite, Bool.and_eq_true, Bool.not_eq_true',
    decide_eq_false_iff_not, beq_iff_eq]
  omega

theorem isInfinite_widen (y : Binary .single) : y.widen.isInfinite = y.isInfinite := by
  rw [isInfinite_eq, isInfinite_eq, isFinite_widen, isNaN_widen]

/-- **A single comes back from the doubles**, unless it is a NaN, which may come back quiet. -/
theorem narrow_widen {y : Binary .single} (h : y.isNaN = false) : y.widen.narrow = y := by
  have hfield : y.widen.narrow.field.val = y.field.val := by
    cases hfinite : y.isFinite with
    | true =>
        obtain ⟨hwiden, hmagnitude⟩ := widen_of_isFinite hfinite
        rw [narrow_of_isFinite hwiden, field_ofRatio, hmagnitude, two_pow_unitShift,
          roundField_mul_right (Nat.two_pow_pos _)]
        exact roundField_magnitudeAt (by decide) (Nat.le_of_lt (field_lt_of_isFinite hfinite))
    | false =>
        have hinfinite : y.isInfinite = true := by simp [isInfinite_eq, hfinite, h]
        have hback := isInfinite_narrow_of_isInfinite ((isInfinite_widen y).trans hinfinite)
        rw [isInfinite, beq_iff_eq] at hinfinite hback
        rw [hinfinite, hback]
  have hsign : y.widen.narrow.negative = y.negative := by simp
  obtain ⟨sign, field⟩ := y
  exact congr_arg₂ Binary.mk hsign (Fin.ext hfield)

/-! ### What is rounded to infinity and to zero -/

/-- Half a unit of the last place beyond the largest finite single, in units of doubles. -/
def infiniteFrom : Nat := (2 ^ 25 - 1) * 2 ^ 103 * 2 ^ Format.double.unitShift

/-- Half the smallest single, in units of doubles. -/
def zeroTo : Nat := 2 ^ (finer - 1)

/-- **Finite doubles that round to infinite singles.** -/
def Overflows (x : Double) : Prop := x.isFinite = true ∧ infiniteFrom ≤ x.magnitude

/-- **Doubles that are not zero and round to zero.** -/
def Vanishes (x : Double) : Prop := 0 < x.magnitude ∧ x.magnitude ≤ zeroTo

instance (x : Double) : Decidable x.Overflows := inferInstanceAs (Decidable (_ ∧ _))

instance (x : Double) : Decidable x.Vanishes := inferInstanceAs (Decidable (_ ∧ _))

theorem roundField_single_mono {a b : Nat} (h : a ≤ b) :
    roundField .single a (2 ^ Format.double.unitShift) ≤
      roundField .single b (2 ^ Format.double.unitShift) :=
  roundField_mono (by decide) (Nat.two_pow_pos _) h

theorem infinityField_le_roundField_iff (n : Nat) :
    Format.single.infinityField ≤ roundField .single n (2 ^ Format.double.unitShift) ↔
      infiniteFrom ≤ n := by
  refine ⟨fun h => ?_, fun h => ?_⟩
  · by_contra hlt
    have hbelow : roundField .single (infiniteFrom - 1) (2 ^ Format.double.unitShift) <
        Format.single.infinityField := by decide +kernel
    have := roundField_single_mono (show n ≤ infiniteFrom - 1 by omega)
    omega
  · have hborder : roundField .single infiniteFrom (2 ^ Format.double.unitShift) =
        Format.single.infinityField := by decide +kernel
    rw [← hborder]
    exact roundField_single_mono h

theorem roundField_eq_zero_iff (n : Nat) :
    roundField .single n (2 ^ Format.double.unitShift) = 0 ↔ n ≤ zeroTo := by
  refine ⟨fun h => ?_, fun h => ?_⟩
  · by_contra hlt
    have habove : roundField .single (zeroTo + 1) (2 ^ Format.double.unitShift) = 1 := by
      decide +kernel
    have := roundField_single_mono (show zeroTo + 1 ≤ n by omega)
    omega
  · have hborder : roundField .single zeroTo (2 ^ Format.double.unitShift) = 0 := by decide +kernel
    have := roundField_single_mono h
    omega

/-- **What is rounded to infinity.** -/
theorem overflows_iff (x : Double) :
    x.Overflows ↔ x.isFinite = true ∧ x.narrow.isInfinite = true := by
  refine and_congr_right fun hfinite => ?_
  have hle : roundField .single x.magnitude (2 ^ Format.double.unitShift) ≤
      Format.single.infinityField := Nat.min_le_right _ _
  rw [narrow_of_isFinite hfinite, isInfinite, field_ofRatio, beq_iff_eq,
    ← infinityField_le_roundField_iff]
  omega

/-- Whatever is not infinite and does not round to infinity stays finite. -/
theorem isFinite_narrow {x : Double} (hfinite : x.isFinite = true) (h : ¬x.Overflows) :
    x.narrow.isFinite = true := by
  have hinfinite : x.narrow.isInfinite = false := by
    simpa [overflows_iff, hfinite] using h
  have hnan : x.narrow.isNaN = false := (isNaN_narrow x).trans (isFinite_iff.1 hfinite).1
  exact isFinite_iff.2 ⟨hnan, hinfinite⟩

theorem isFinite_of_isFinite_narrow {x : Double} (h : x.narrow.isFinite = true) :
    x.isFinite = true := by
  have hnan : x.isNaN = false := (isNaN_narrow x).symm.trans (isFinite_iff.1 h).1
  have hinfinite : x.isInfinite = false := by
    cases hx : x.isInfinite with
    | false => rfl
    | true => simp [isFinite_iff, isInfinite_narrow_of_isInfinite hx] at h
  exact isFinite_iff.2 ⟨hnan, hinfinite⟩

/-- **What is rounded to zero.**  Neither infinities nor NaNs are. -/
theorem isZero_narrow (x : Double) : x.narrow.isZero = true ↔ x.magnitude ≤ zeroTo := by
  cases hfinite : x.isFinite with
  | true =>
      rw [narrow_of_isFinite hfinite, isZero, field_ofRatio, beq_iff_eq, roundField_eq_zero_iff]
  | false =>
      have hnarrow : x.narrow.isFinite = false := by
        by_contra h
        simp [isFinite_of_isFinite_narrow (Bool.eq_true_of_not_eq_false h)] at hfinite
      have hlarge : zeroTo < x.magnitude := by
        have hge : Format.double.infinityField ≤ x.field.val := by simpa [isFinite] using hfinite
        refine Nat.lt_of_lt_of_le ?_ (Format.double.magnitudeAt_strictMono.monotone hge)
        rw [magnitudeAt_infinityField (by decide)]
        exact Nat.pow_lt_pow_right (by decide) (by decide)
      have hpos : 0 < Format.single.infinityField := by decide
      simp only [isFinite, decide_eq_false_iff_not] at hnarrow
      simp only [isZero, beq_iff_eq]
      omega

theorem isZero_iff {f : Format} (x : Binary f) : x.isZero = true ↔ x.magnitude = 0 := by
  have := magnitude_pos_iff x
  simp only [isZero, beq_iff_eq]
  omega

theorem isFinite_of_isZero {f : Format} {x : Binary f} (hf : 0 < f.infinityField)
    (h : x.isZero = true) : x.isFinite = true := by
  rw [isZero, beq_iff_eq] at h
  exact decide_eq_true (h ▸ hf)

theorem isZero_widen (y : Binary .single) : y.widen.isZero = y.isZero := by
  cases hfinite : y.isFinite with
  | true =>
      rw [Bool.eq_iff_iff, isZero_iff, isZero_iff, (widen_of_isFinite hfinite).2, Nat.mul_eq_zero]
      simp
  | false =>
      have hpos : 0 < Format.single.infinityField ∧ 0 < Format.double.infinityField := by decide
      have hwiden := field_widen_of_not_isFinite hfinite
      simp only [isFinite, decide_eq_false_iff_not] at hfinite
      rw [Bool.eq_iff_iff, isZero, isZero, beq_iff_eq, beq_iff_eq]
      omega

end Binary

/-! ### Texts -/

namespace Scalar

open Binary

theorem float_of_isFinite {x : Double} (h : x.isFinite = true) (w : FloatWidth) :
    float x w = (if x.negative then "-" else "") ++ layout (atWidth x w) := by
  obtain ⟨hnan, hinfinite⟩ := isFinite_iff.1 h
  simp only [float, hnan, hinfinite, Bool.false_eq_true, if_false]

theorem float_of_isInfinite {x : Double} (h : x.isInfinite = true) (w : FloatWidth) :
    float x w = if x.negative then "-Inf" else "+Inf" := by
  have hnan : x.isNaN = false := isNaN_of_isInfinite h
  simp only [float, hnan, h, Bool.false_eq_true, if_false, if_true]

/-- **Without digits, zero is written.** -/
theorem float_of_overflows {x : Double} (h : x.Overflows) :
    float x .single = if x.negative then "-0" else "0" := by
  obtain ⟨hfinite, hinfinite⟩ := (overflows_iff x).1 h
  have hnarrow : x.narrow.isFinite = false := by simp [isFinite_eq, hinfinite]
  have hdigits : atWidth x .single = ⟨[], 0⟩ := by simp [atWidth, significant, hnarrow]
  rw [float_of_isFinite hfinite, hdigits]
  cases x.negative <;> rfl

theorem float_rounded_of_overflows {x : Double} (h : x.Overflows) :
    float x.narrow.widen .single = if x.negative then "-Inf" else "+Inf" := by
  have hinfinite := ((overflows_iff x).1 h).2
  rw [float_of_isInfinite ((isInfinite_widen _).trans hinfinite), negative_widen, negative_narrow]

/-- **Rounding first changes nothing**, unless the value overflows. -/
theorem float_rounded {x : Double} (h : ¬x.Overflows) :
    float x.narrow.widen .single = float x .single := by
  cases hnan : x.isNaN with
  | true =>
      have hrounded : x.narrow.widen.isNaN = true := by rw [isNaN_widen, isNaN_narrow, hnan]
      simp only [float, hnan, hrounded, if_true]
  | false =>
      cases hinfinite : x.isInfinite with
      | true =>
          have hrounded : x.narrow.widen.isInfinite = true :=
            (isInfinite_widen _).trans (isInfinite_narrow_of_isInfinite hinfinite)
          rw [float_of_isInfinite hinfinite, float_of_isInfinite hrounded, negative_widen,
            negative_narrow]
      | false =>
          have hfinite : x.isFinite = true := isFinite_iff.2 ⟨hnan, hinfinite⟩
          have hnarrow := isFinite_narrow hfinite h
          have hback : x.narrow.widen.narrow = x.narrow :=
            narrow_widen ((isNaN_narrow x).trans hnan)
          rw [float_of_isFinite hfinite, float_of_isFinite ((isFinite_widen _).trans hnarrow),
            negative_widen, negative_narrow, atWidth, atWidth, hback]

theorem float_rounded_iff (x : Double) :
    float x.narrow.widen .single = float x .single ↔ ¬x.Overflows := by
  refine ⟨fun heq h => ?_, float_rounded⟩
  rw [float_of_overflows h, float_rounded_of_overflows h] at heq
  cases hsign : x.negative <;> simp [hsign] at heq

/-! ### The sign of an imaginary part -/

/-- The imaginary part with the sign that a complex number gives it. -/
def imaginary (x : Double) (w : FloatWidth) : String :=
  (if atLeastZero x && !(float x w).startsWith "+" then "+" else "") ++ float x w

theorem complex_eq (re im : Double) (w : FloatWidth) :
    complex re im w = "(" ++ float re w ++ imaginary im w ++ "i)" := by
  simp only [complex, imaginary, String.append_assoc]

/-- **A negative value that rounds to negative zero** is the only one on whose other side of zero
rounding ends. -/
theorem atLeastZero_rounded (x : Double) :
    atLeastZero x.narrow.widen = (atLeastZero x || (x.negative && decide x.Vanishes)) := by
  have hzero : x.narrow.widen.isZero = (x.isZero || decide x.Vanishes) := by
    rw [isZero_widen, Bool.eq_iff_iff, isZero_narrow, Bool.or_eq_true, isZero_iff,
      decide_eq_true_eq, Vanishes]
    omega
  simp only [atLeastZero, isNaN_widen, isNaN_narrow, negative_widen, negative_narrow, hzero]
  by_cases hvanishes : x.Vanishes
  · have hnan : x.isNaN = false := by
      have hfinite := isFinite_of_isZero (by decide) ((isZero_narrow x).2 hvanishes.2)
      exact (isNaN_narrow x).symm.trans (isFinite_iff.1 hfinite).1
    cases x.negative <;> simp [hnan, hvanishes]
  · simp [hvanishes]

theorem float_of_vanishes {x : Double} (h : x.Vanishes) :
    float x .single = if x.negative then "-0" else "0" := by
  have hzero : x.narrow.isZero = true := (isZero_narrow x).2 h.2
  have hnarrow : x.narrow.isFinite = true := isFinite_of_isZero (by decide) hzero
  have hdigits : atWidth x .single = .zero := by
    simp [atWidth, significant, hnarrow, Binary.shortest, hzero]
  rw [float_of_isFinite (isFinite_of_isFinite_narrow hnarrow), hdigits]
  cases x.negative <;> rfl

theorem imaginary_rounded_iff (x : Double) :
    imaginary x.narrow.widen .single = imaginary x .single ↔
      ¬x.Overflows ∧ ¬(x.negative = true ∧ x.Vanishes) := by
  by_cases hoverflows : x.Overflows
  · -- zero and infinity are told apart whatever the signs before them
    simp only [imaginary, float_of_overflows hoverflows, float_rounded_of_overflows hoverflows,
      hoverflows, not_true, false_and, iff_false]
    generalize atLeastZero x = before
    generalize atLeastZero x.narrow.widen = after
    generalize x.negative = negative
    cases before <;> cases after <;> cases negative <;> simp
  · simp only [imaginary, float_rounded hoverflows, atLeastZero_rounded, hoverflows, not_false_iff,
      true_and]
    by_cases hvanishes : x.negative = true ∧ x.Vanishes
    · have hbelow : atLeastZero x = false := by
        have hzero : ¬x.isZero = true := fun h => by
          have := (isZero_iff x).1 h
          have := hvanishes.2.1
          omega
        simp [atLeastZero, hvanishes.1, hzero]
      simp [float_of_vanishes hvanishes.2, hvanishes, hbelow]
    · have hsame : (x.negative && decide x.Vanishes) = false := by simpa using hvanishes
      simp [hsame, hvanishes]

theorem complex_rounded_iff (re im : Double) :
    complex re.narrow.widen im.narrow.widen .single = complex re im .single ↔
      ¬re.Overflows ∧ ¬im.Overflows ∧ ¬(im.negative = true ∧ im.Vanishes) := by
  rw [← imaginary_rounded_iff, complex_eq, complex_eq]
  by_cases hoverflows : re.Overflows
  · simp only [float_of_overflows hoverflows, float_rounded_of_overflows hoverflows, hoverflows,
      not_true, false_and, iff_false, ← String.toList_inj, String.toList_append]
    cases re.negative <;> simp
  · simp only [float_rounded hoverflows, hoverflows, not_false_iff, true_and, ← String.toList_inj,
      String.toList_append]
    simp

theorem write_inj {a b : String} : Render.write a = Render.write b ↔ a = b := by
  refine ⟨fun h => ?_, fun h => h ▸ rfl⟩
  have heffects : [Effect.write a] = [Effect.write b] :=
    congr_arg (fun m : Render Unit => (Render.fromStart m).effects) h
  simpa using heffects

/-- **When a value of single width is told from what it rounds to.**  A floating point number is
if it is finite and rounds to infinity: it is written as zero and the rounded value as infinity.  A
complex number is if one of its parts does so, or if its imaginary part is negative and rounds to
zero.  In all other cases the texts are the same, for subnormal values, infinities and NaNs too. -/
theorem rounding_first_shows_iff (v re im : Double) :
    (v.Overflows ↔ v.isFinite = true ∧ v.narrow.isInfinite = true) ∧
    (v.Vanishes ↔ v.isZero = false ∧ v.narrow.isZero = true) ∧
    (float v.narrow.widen .single = float v .single ↔ ¬v.Overflows) ∧
    (v.Overflows →
      float v .single = (if v.negative then "-0" else "0") ∧
      float v.narrow.widen .single = (if v.negative then "-Inf" else "+Inf")) ∧
    (complex re.narrow.widen im.narrow.widen .single = complex re im .single ↔
      ¬re.Overflows ∧ ¬im.Overflows ∧ ¬(im.negative = true ∧ im.Vanishes)) ∧
    ∀ (s : Scene) (texts : Texts) (visit : Visit) (mode : Mode) (id : NodeId),
      (Walk.structural s texts visit mode id (.float v.narrow.widen .single) =
          Walk.structural s texts visit mode id (.float v .single) ↔ ¬v.Overflows) ∧
      (Walk.structural s texts visit mode id (.complex re.narrow.widen im.narrow.widen .single) =
          Walk.structural s texts visit mode id (.complex re im .single) ↔
        ¬re.Overflows ∧ ¬im.Overflows ∧ ¬(im.negative = true ∧ im.Vanishes)) := by
  refine ⟨overflows_iff v, ?_, float_rounded_iff v, fun h => ?_, complex_rounded_iff re im, ?_⟩
  · rw [isZero_narrow, ← Bool.not_eq_true, isZero_iff, Vanishes, Nat.pos_iff_ne_zero]
  · exact ⟨float_of_overflows h, float_rounded_of_overflows h⟩
  · intro s texts visit mode id
    exact ⟨write_inj.trans (float_rounded_iff v), write_inj.trans (complex_rounded_iff re im)⟩

/-- Ten to the thirty-nine, which no single reaches. -/
def huge : Double := Binary.ofRatio .double false (10 ^ 39) 1

/-- Minus ten to the minus sixty, far closer to zero than any single. -/
def tiny : Double := Binary.ofRatio .double true 1 (10 ^ 60)

/-- Ten to the thirty-nine is written as zero and not as the infinity it rounds to, and a complex
number with minus ten to the minus sixty as its imaginary part is told from the rounded one. -/
theorem huge_and_tiny_show :
    huge.Overflows ∧ float huge .single = "0" ∧ float huge.narrow.widen .single = "+Inf" ∧
      tiny.negative = true ∧ tiny.Vanishes ∧
      complex tiny.narrow.widen tiny.narrow.widen .single ≠ complex tiny tiny .single := by
  have hhuge : huge.Overflows := by decide +kernel
  have htiny : tiny.negative = true ∧ tiny.Vanishes := by decide +kernel
  obtain ⟨-, -, -, hfloat, hcomplex, -⟩ := rounding_first_shows_iff huge tiny tiny
  exact ⟨hhuge, (hfloat hhuge).1, (hfloat hhuge).2, htiny.1, htiny.2,
    fun h => (hcomplex.1 h).2.2 htiny⟩

end Scalar

end ValueLens
