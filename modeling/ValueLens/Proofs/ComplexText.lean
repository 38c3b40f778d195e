/-
**Signs of complex numbers.**

A complex number is written as its real part and behind it the imaginary part with a sign, for which
a plus sign is put in where the text of the imaginary part does not bring a sign of its own.
Whether it does is decided in two ways, and both have a gap.

Where a value is shown as such, the plus sign is put in for an imaginary part that is at least zero.
Negative zero is, and its text brings a minus sign: then there are two signs.  All other numbers are
written as one sign and the text of their magnitude, which rounds to the number at its width.

Under a verb of exponent notation the plus sign is put in for an imaginary part without a sign bit.
Under the plus flag its text brings a plus sign all the same: then there are two signs.  And both
parts are written at full width whatever the width of the number is, so that a complex number of
single width shows digits that a floating point number of single width does not.

Main definitions:

* `ValueLens.Binary.NegativeZero`, `ValueLens.Binary.NamedBy` — zero with a sign bit, and the
  rationals that round to a value at a width;
* `ValueLens.Scalar.Unsigned` — the text of a magnitude;
* `ValueLens.Layout.IsBody` — what stands behind the sign in exponent notation.

Main results:

* `ValueLens.Scalar.complex_has_one_sign_iff` — when a complex number has one sign before its
  imaginary part;
* `ValueLens.Layout.IsBody.append_inj` — **exponent notation ends before a sign**;
* `ValueLens.Verb.complex_like_floats_iff` — when a complex number under a verb is made of floating
  point numbers under the verb.
-/
import ValueLens.Proofs.FloatNotation
import ValueLens.Proofs.VerbIntegers

set_option relaxedAutoImplicit false
set_option autoImplicit false

namespace ValueLens

/-! ### Magnitudes -/

namespace Binary

variable {f : Format}

/-- The datum without its sign. -/
def abs (x : Binary f) : Binary f := { x with negative := false }

/-- **Zero with a sign bit.** -/
def NegativeZero (x : Binary f) : Prop := x.negative = true ∧ x.isZero = true

instance (x : Binary f) : Decidable x.NegativeZero := inferInstanceAs (Decidable (_ ∧ _))

/-- **The rationals that round to a value at a width**, signs apart. -/
def NamedBy (x : Double) (w : FloatWidth) (q : ℚ) : Prop :=
  match w with
  | .double => Format.double.RoundsTo x.field (q * 2 ^ Format.double.unitShift)
  | .single => Format.single.RoundsTo x.narrow.field (q * 2 ^ Format.single.unitShift)

theorem narrow_abs (x : Double) : x.abs.narrow = x.narrow.abs := by
  have hnan : x.abs.isNaN = x.isNaN := rfl
  have hinfinite : x.abs.isInfinite = x.isInfinite := rfl
  simp only [narrow, hnan, hinfinite]
  split
  · rfl
  · split
    · rfl
    · rfl

/-- The shortest decimal rounds to the datum also if that is zero. -/
theorem shortest_named (hpos : 0 < f.fractionBits) (hf : f.fractionBits ≤ 52) (x : Binary f) :
    f.RoundsTo x.field ((x.shortest .up).value * 2 ^ f.unitShift) := by
  rcases Nat.eq_zero_or_pos x.field.val with hx | hx
  · have hzero : Scientific.zero.value = 0 := by
      simp [Scientific.zero, Scientific.value, Numeral.ofDigits]
    rw [shortest_of_zero .up hx, hzero, zero_mul, hx]
    refine ⟨?_, ?_, fun hodd => absurd hodd (by decide)⟩
    · simp [Format.magnitudeAt_zero]
    · rw [mul_zero]
      positivity
  · exact shortest_roundsTo_of_le hpos hf .up hx

end Binary

namespace Scalar

open Binary

theorem atWidth_abs (x : Double) (w : FloatWidth) : atWidth x.abs w = atWidth x w := by
  cases w with
  | double => rfl
  | single =>
      rw [atWidth, narrow_abs]
      rfl

/-- **The digits of a value that is finite at its width** round to it. -/
theorem atWidth_of_finiteAt {x : Double} {w : FloatWidth} (h : x.FiniteAt w) :
    (atWidth x w).Proper ∧ x.NamedBy w (atWidth x w).value := by
  cases w with
  | double =>
      have hdigits : atWidth x .double = x.shortest .up := if_pos h
      rw [hdigits]
      exact ⟨x.shortest_proper .up, shortest_named (by decide) (by decide) x⟩
  | single =>
      have hdigits : atWidth x .single = x.narrow.shortest .up := if_pos h
      rw [hdigits]
      exact ⟨(shortest_of_isFinite .up (by decide) (by decide) h).1,
        shortest_named (by decide) (by decide) x.narrow⟩

/-- Without digits, zero is laid out. -/
theorem layout_of_not_finiteAt {x : Double} {w : FloatWidth} (h : ¬x.FiniteAt w) :
    layout (atWidth x w) = "0" := by
  have hdigits : atWidth x w = ⟨[], 0⟩ := by
    cases w with
    | double => exact if_neg h
    | single => exact if_neg h
  rw [hdigits]
  rfl

theorem significant_of_isZero {f : Format} (hf : 0 < f.infinityField) {y : Binary f}
    (h : y.isZero = true) : significant y = .zero := by
  rw [significant, if_pos (isFinite_of_isZero hf h), shortest, if_pos h]

theorem layout_of_isZero {x : Double} (h : x.isZero = true) (w : FloatWidth) :
    layout (atWidth x w) = "0" := by
  have hdigits : atWidth x w = .zero := by
    cases w with
    | double => exact significant_of_isZero (by decide) h
    | single =>
        refine significant_of_isZero (by decide) ((isZero_narrow x).2 ?_)
        rw [(isZero_iff x).1 h]
        exact Nat.zero_le _
  rw [hdigits]
  rfl

/-- The text of a magnitude: an infinity by its name, all else by its digits. -/
def unsignedText (x : Double) (w : FloatWidth) : String :=
  if x.isInfinite then "Inf" else layout (atWidth x w)

theorem unsignedText_abs (x : Double) (w : FloatWidth) :
    unsignedText x.abs w = unsignedText x w := by
  rw [unsignedText, unsignedText, atWidth_abs]
  rfl

/-- A magnitude begins with neither sign. -/
theorem head?_unsignedText (x : Double) (w : FloatWidth) :
    ∀ c ∈ (unsignedText x w).toList.head?, c ≠ '+' ∧ c ≠ '-' := by
  unfold unsignedText
  split
  · rintro c ⟨⟩
    decide
  · by_cases hfinite : x.FiniteAt w
    · obtain ⟨c, cs, hcs, hdigit⟩ := exists_layout_eq_cons (atWidth_of_finiteAt hfinite).1
      rw [hcs]
      rintro c' ⟨⟩
      refine ⟨?_, ?_⟩
      · rintro rfl
        exact absurd hdigit (by decide)
      · rintro rfl
        exact absurd hdigit (by decide)
    · rw [layout_of_not_finiteAt hfinite]
      rintro c ⟨⟩
      decide

/-- The sign that the text of a number brings. -/
def ownSign (x : Double) : String :=
  if x.negative then "-" else if x.isInfinite then "+" else ""

theorem float_eq {x : Double} (h : x.isNaN = false) (w : FloatWidth) :
    float x w = ownSign x ++ unsignedText x w := by
  cases hinfinite : x.isInfinite with
  | true =>
      rw [float_of_isInfinite hinfinite, ownSign, unsignedText, hinfinite]
      cases x.negative <;> rfl
  | false =>
      rw [float_of_isFinite (isFinite_iff.2 ⟨h, hinfinite⟩), ownSign, unsignedText, hinfinite]
      rfl

/-- **The unsigned text of a magnitude**: the text of the number without its sign bit, less the plus
sign that infinity has. -/
structure Unsigned (x : Double) (w : FloatWidth) (m : String) : Prop where
  text : float x.abs w = m ∨ float x.abs w = "+" ++ m
  head : ∀ c ∈ m.toList.head?, c ≠ '+' ∧ c ≠ '-'

theorem unsigned_iff {x : Double} (h : x.isNaN = false) (w : FloatWidth) (m : String) :
    Unsigned x w m ↔ m = unsignedText x w := by
  have habs : float x.abs w = ownSign x.abs ++ unsignedText x w := by
    rw [float_eq (show x.abs.isNaN = false from h), unsignedText_abs]
  have hsign : ownSign x.abs = "+" ∨ ownSign x.abs = "" := by
    unfold ownSign
    cases x.abs.isInfinite with
    | true => exact Or.inl rfl
    | false => exact Or.inr rfl
  constructor
  · rintro ⟨htext, hhead⟩
    have hown := head?_unsignedText x w
    rw [habs] at htext
    rcases hsign with hs | hs <;> rw [hs] at htext <;> rcases htext with ht | ht
    · rw [← ht, String.toList_append] at hhead
      exact absurd rfl (hhead '+' rfl).1
    · simpa [← String.toList_inj] using ht.symm
    · simpa using ht.symm
    · rw [String.empty_append] at ht
      rw [ht, String.toList_append] at hown
      exact absurd rfl (hown '+' rfl).1
  · rintro rfl
    refine ⟨?_, head?_unsignedText x w⟩
    rcases hsign with hs | hs
    · exact Or.inr (by rw [habs, hs])
    · exact Or.inl (by rw [habs, hs, String.empty_append])

/-! ### The sign of the imaginary part -/

/-- **Which signs stand before a magnitude**: two before that of negative zero. -/
theorem imaginary_eq {x : Double} (h : x.isNaN = false) (w : FloatWidth) :
    imaginary x w =
      (if x.NegativeZero then "+-" else if x.negative then "-" else "+") ++ unsignedText x w := by
  have hown := head?_unsignedText x w
  have hplus : (unsignedText x w).startsWith "+" = false := by
    rw [Bool.eq_false_iff, ne_eq, String.startsWith_string_iff]
    rintro ⟨rest, hrest⟩
    rw [← hrest] at hown
    exact absurd rfl (hown '+' rfl).1
  rw [imaginary, float_eq h]
  cases hnegative : x.negative with
  | true =>
      cases hzero : x.isZero with
      | true =>
          simp [atLeastZero, NegativeZero, ownSign, h, hnegative, hzero, ← String.toList_inj]
      | false => simp [atLeastZero, NegativeZero, ownSign, h, hnegative, hzero]
  | false =>
      cases hinfinite : x.isInfinite with
      | true => simp [atLeastZero, NegativeZero, ownSign, h, hnegative, hinfinite]
      | false => simp [atLeastZero, NegativeZero, ownSign, h, hnegative, hinfinite, hplus]

/-- **When a complex number has one sign before its imaginary part**: unless that is negative zero,
which has two.  Behind the sign stands the text of the magnitude: the decimal that rounds to the
number at its width, the name of infinity, or zero where a finite number rounds to infinity. -/
theorem complex_has_one_sign_iff (re : Double) {im : Double} (h : im.isNaN = false)
    (w : FloatWidth) :
    ∃ m, (∀ m', Unsigned im w m' ↔ m' = m) ∧
      (complex re im w = "(" ++ float re w ++ (if im.negative then "-" else "+") ++ m ++ "i)" ↔
        ¬im.NegativeZero) ∧
      (im.NegativeZero → complex re im w = "(" ++ float re w ++ "+-0i)") ∧
      (im.FiniteAt w →
        ∃ d, DecimalText.parse? m.toList = some d ∧ im.NamedBy w d.rational) ∧
      (im.isInfinite = true → m = "Inf") ∧
      (im.isFinite = true → ¬im.FiniteAt w → m = "0") := by
  refine ⟨unsignedText im w, unsigned_iff h w, ?_, fun hzero => ?_, fun hfinite => ?_,
    fun hinfinite => if_pos hinfinite, fun hfinite hnot => ?_⟩
  · rw [complex_eq, imaginary_eq h]
    by_cases hzero : im.NegativeZero
    · simp [hzero, hzero.1, ← String.toList_inj]
    · simp [hzero, String.append_assoc]
  · have hfinite : im.isFinite = true := isFinite_of_isZero (by decide) hzero.2
    have hdigits : unsignedText im w = "0" := by
      rw [unsignedText, (isFinite_iff.1 hfinite).2]
      exact layout_of_isZero hzero.2 w
    rw [complex_eq, imaginary_eq h, if_pos hzero, hdigits]
    simp [← String.toList_inj]
  · obtain ⟨hproper, hnamed⟩ := atWidth_of_finiteAt hfinite
    obtain ⟨d, hd, hvalue⟩ := parse?_layout hproper
    have hdigits : unsignedText im w = layout (atWidth im w) :=
      if_neg (by simp [(isFinite_iff.1 hfinite.isFinite).2])
    rw [hdigits]
    exact ⟨d, hd, hvalue ▸ hnamed⟩
  · rw [unsignedText, (isFinite_iff.1 hfinite).2]
    exact layout_of_not_finiteAt hnot

/-- One. -/
def one : Double := Binary.ofRatio .double false 1 1

/-- Zero with a sign bit. -/
def minusZero : Double := Binary.ofField .double true 0

/-- Minus a quarter. -/
def minusQuarter : Double := Binary.ofRatio .double true 1 4

/-- An imaginary part that is negative zero has two signs, and one that is minus a quarter has
one. -/
theorem minusZero_has_two_signs :
    minusZero.isNaN = false ∧ minusZero.NegativeZero ∧
      complex one minusZero .double = "(" ++ float one .double ++ "+-0i)" ∧
      complex one minusZero .double = "(1+-0i)" ∧ minusQuarter.isNaN = false ∧
      complex one minusQuarter .single = "(1-0.25i)" ∧
      ∃ m, complex one minusQuarter .single =
        "(" ++ float one .single ++ "-" ++ m ++ "i)" ∧ Unsigned minusQuarter .single m := by
  have hzero : minusZero.isNaN = false ∧ minusZero.NegativeZero := by decide +kernel
  have hquarter : minusQuarter.isNaN = false ∧ ¬minusQuarter.NegativeZero := by decide +kernel
  obtain ⟨-, -, -, htwo, -⟩ := complex_has_one_sign_iff one hzero.1 .double
  obtain ⟨m, hm, hone, -⟩ := complex_has_one_sign_iff one hquarter.1 .single
  exact ⟨hzero.1, hzero.2, htwo hzero.2, by decide +kernel, hquarter.1, by decide +kernel, m,
    hone.2 hquarter.2, (hm m).2 rfl⟩

end Scalar

/-! ### Exponent notation -/

namespace Layout

/-- **What stands behind the sign in exponent notation**: the name of infinity, or digits, the
letter and the power of ten. -/
inductive IsBody (capital : Bool) : List Char → Prop
  | infinite : IsBody capital "inf".toList
  | scientific {s : Scientific} (h : s.Proper) :
      IsBody capital (scientificText capital s).toList

/-- What stands behind the sign of a datum. -/
def body {f : Binary.Format} (l : Layout) (capital : Bool) (x : Binary f) : String :=
  if x.isInfinite then "inf"
  else
    scientificText capital <|
      match l.precision with
      | none => x.shortest .up
      | some p => Scientific.rounded x.magnitude (Nat.pow 2 f.unitShift) p

theorem exponential_eq {f : Binary.Format} {x : Binary f} (h : x.isNaN = false) (l : Layout)
    (capital : Bool) :
    l.exponential capital x = l.signed (l.signOf x.negative) (l.body capital x) := by
  cases hinfinite : x.isInfinite with
  | true => simp [exponential, body, h, hinfinite]
  | false =>
      cases hprecision : l.precision with
      | none => simp [exponential, body, h, hinfinite, hprecision]
      | some p => simp [exponential, body, h, hinfinite, hprecision]

theorem isBody_body {f : Binary.Format} (l : Layout) (capital : Bool) (x : Binary f) :
    IsBody capital (l.body capital x).toList := by
  unfold body
  split
  · exact .infinite
  · refine .scientific ?_
    split
    · have hvalue : (Interval.ofBinary x).value <
          2 ^ ((Interval.ofBinary x).value + (Interval.ofBinary x).den + 1) :=
        Nat.lt_of_lt_of_le Nat.lt_two_pow_self (Nat.pow_le_pow_right (by decide) (by omega))
      have hden : (Interval.ofBinary x).den <
          2 ^ ((Interval.ofBinary x).value + (Interval.ofBinary x).den + 1) :=
        Nat.lt_of_lt_of_le Nat.lt_two_pow_self (Nat.pow_le_pow_right (by decide) (by omega))
      exact (Binary.shortest_spec .up x (by omega) hvalue hden).1
    · exact Scientific.rounded_proper _ _ _

/-- The digits, the letter and the power of ten. -/
theorem toList_scientificText {s : Scientific} (h : s.Proper) (capital : Bool) :
    ∃ (d : Nat) (ps : List Nat) (letter : Char), (∀ k ∈ d :: ps, k < 10) ∧
      letter = (if capital then 'E' else 'e') ∧
      (scientificText capital s).toList =
        DecimalText.chars [d] ps ++ letter :: (Numeral.writeInt 10 s.exponent).toList := by
  obtain ⟨d, ps, hdigits, hmantissa⟩ := Scalar.mantissa_eq h
  refine ⟨d, ps, _, fun k hk => h.lt_ten k (hdigits ▸ hk), rfl, ?_⟩
  rw [scientificText, String.toList_append, String.toList_append, hmantissa]
  cases capital <;> simp [exponentLetter]

/-- Digits and points. -/
def isPlain (c : Char) : Bool := c.isDigit || c == '.'

theorem isPlain_of_mem_chars {ws ps : List Nat} (h : ∀ k ∈ ws ++ ps, k < 10) {c : Char}
    (hc : c ∈ DecimalText.chars ws ps) : isPlain c = true := by
  have hdigit {ds : List Nat} (hds : ∀ k ∈ ds, k ∈ ws ++ ps) (hc : c ∈ ds.map Numeral.digitChar) :
      isPlain c = true := by
    rw [isPlain, ExponentText.isDigit_of_mem_map (fun k hk => h k (hds k hk)) hc]
    rfl
  rcases List.mem_append.1 hc with hc | hc
  · exact hdigit (fun k hk => List.mem_append_left _ hk) hc
  · split at hc
    · cases hc
    · rcases List.mem_cons.1 hc with rfl | hc
      · rfl
      · exact hdigit (fun k hk => List.mem_append_right _ hk) hc

/-- A text that begins with a sign. -/
def Signed (cs : List Char) : Prop := cs.head? = some '+' ∨ cs.head? = some '-'

instance (cs : List Char) : Decidable (Signed cs) := inferInstanceAs (Decidable (_ ∨ _))

theorem IsBody.not_signed {capital : Bool} {cs : List Char} (h : IsBody capital cs)
    (rest : List Char) : ¬Signed (cs ++ rest) := by
  cases h with
  | infinite => simp [Signed]
  | scientific hs =>
      obtain ⟨d, ps, letter, hlt, -, hchars⟩ := toList_scientificText hs capital
      have hdigit := Numeral.isDigit_digitChar (hlt d (by simp))
      rw [hchars]
      rintro (hsign | hsign)
      · obtain hsign : Numeral.digitChar d = '+' := by simpa [DecimalText.chars] using hsign
        rw [hsign] at hdigit
        exact absurd hdigit (by decide)
      · obtain hsign : Numeral.digitChar d = '-' := by simpa [DecimalText.chars] using hsign
        rw [hsign] at hdigit
        exact absurd hdigit (by decide)

/-- A power of ten ends before a sign. -/
theorem writeInt_append_inj {e e' : Int} {rest rest' : List Char} (hrest : Signed rest)
    (hrest' : Signed rest')
    (h : (Numeral.writeInt 10 e).toList ++ rest = (Numeral.writeInt 10 e').toList ++ rest') :
    e = e' ∧ rest = rest' := by
  have hstops {rest : List Char} (hrest : Signed rest) :
      Text.Stops (fun c => (Numeral.digitValue? c).isSome) rest := by
    intro c hc
    rcases hrest with hsign | hsign
    · obtain rfl := Option.some.inj (hsign.symm.trans hc)
      decide
    · obtain rfl := Option.some.inj (hsign.symm.trans hc)
      decide
  have hminus (n : Nat) (rest : List Char) (tail : List Char) :
      '-' :: tail ≠ Numeral.writeChars 10 n ++ rest := by
    intro heq
    refine Numeral.head?_writeChars_ne_minus 10 n ?_
    obtain ⟨c, cs, hcs⟩ := List.exists_cons_of_ne_nil (Numeral.writeChars_ne_nil 10 n)
    rw [hcs] at heq ⊢
    rw [(List.cons.inj heq).1, List.head?_cons]
  rw [Numeral.toList_writeInt, Numeral.toList_writeInt] at h
  unfold Numeral.minus at h
  split at h <;> split at h <;> simp only [List.nil_append, List.cons_append] at h
  · obtain ⟨habs, hrests⟩ :=
      Text.writeChars_unambiguous 10 (hstops hrest) (hstops hrest') (List.cons.inj h).2
    exact ⟨by omega, hrests⟩
  · exact absurd h (hminus _ _ _)
  · exact absurd h.symm (hminus _ _ _)
  · obtain ⟨habs, hrests⟩ := Text.writeChars_unambiguous 10 (hstops hrest) (hstops hrest') h
    exact ⟨by omega, hrests⟩

/-- **Exponent notation ends before a sign**: it can be split off in one way only. -/
theorem IsBody.append_inj {capital : Bool} {cs cs' rest rest' : List Char}
    (hcs : IsBody capital cs) (hcs' : IsBody capital cs') (hrest : Signed rest)
    (hrest' : Signed rest') (h : cs ++ rest = cs' ++ rest') : cs = cs' ∧ rest = rest' := by
  -- infinity begins with no digit
  have hname {s : Scientific} (hs : s.Proper) (rest rest' : List Char) :
      "inf".toList ++ rest ≠ (scientificText capital s).toList ++ rest' := by
    obtain ⟨d, ps, letter, hlt, -, hchars⟩ := toList_scientificText hs capital
    have hdigit := Numeral.isDigit_digitChar (hlt d (by simp))
    rw [hchars]
    intro heq
    rw [← (List.cons.inj heq).1] at hdigit
    exact absurd hdigit (by decide)
  cases hcs with
  | infinite =>
      cases hcs' with
      | infinite => exact ⟨rfl, List.append_cancel_left h⟩
      | scientific hs' => exact absurd h (hname hs' _ _)
  | scientific hs =>
      cases hcs' with
      | infinite => exact absurd h.symm (hname hs _ _)
      | scientific hs' =>
          obtain ⟨d, ps, letter, hlt, hletter, hchars⟩ := toList_scientificText hs capital
          obtain ⟨d', ps', letter', hlt', hletter', hchars'⟩ := toList_scientificText hs' capital
          obtain rfl : letter = letter' := hletter.trans hletter'.symm
          have hstops (rest : List Char) : Text.Stops isPlain (letter :: rest) := by
            rintro c ⟨⟩
            rw [hletter]
            cases capital <;> decide
          rw [hchars, hchars', List.append_assoc, List.append_assoc] at h
          obtain ⟨hdigits, htail⟩ := Text.append_inj_of_stops
            (fun c hc => isPlain_of_mem_chars hlt hc) (fun c hc => isPlain_of_mem_chars hlt' hc)
            (hstops _) (hstops _) h
          obtain ⟨hexponent, hrests⟩ := writeInt_append_inj hrest hrest' (List.cons.inj htail).2
          rw [hchars, hchars', hdigits, hexponent]
          exact ⟨rfl, hrests⟩

end Layout

/-! ### Complex numbers under a verb -/

namespace Verb

open Layout

/-- What stands behind the sign of a value at a width. -/
def bodyAt (l : Layout) (capital : Bool) (x : Double) : FloatWidth → String
  | .single => l.body capital x.narrow
  | .double => l.body capital x

theorem isBody_bodyAt (l : Layout) (capital : Bool) (x : Double) (w : FloatWidth) :
    IsBody capital (bodyAt l capital x w).toList := by
  cases w with
  | single => exact isBody_body l capital x.narrow
  | double => exact isBody_body l capital x

/-- The text of a floating point number in exponent notation. -/
def floatText (l : Layout) (capital : Bool) (x : Double) (w : FloatWidth) : String :=
  l.signed (l.signOf x.negative) (bodyAt l capital x w)

section Exponent

variable {v : Verb} {capital : Bool} (hv : v.exponent? = some capital)

include hv

theorem float?_eq {x : Double} (h : x.isNaN = false) (l : Layout) (w : FloatWidth) :
    v.float? l x w = some (floatText l capital x w) := by
  rw [float?, hv, Option.map_some]
  cases w with
  | single =>
      have hnarrow : x.narrow.isNaN = false := (Binary.isNaN_narrow x).trans h
      rw [floatText, ← Binary.negative_narrow x]
      exact congrArg some (exponential_eq hnarrow l capital)
  | double => exact congrArg some (exponential_eq h l capital)

theorem complex?_eq {re im : Double} (hre : re.isNaN = false) (him : im.isNaN = false)
    (l : Layout) :
    v.complex? l re im = some ("(" ++ floatText l capital re .double ++
      (if im.negative then "" else "+") ++ floatText l capital im .double ++ "i)") := by
  rw [complex?, hv, Option.map_some, exponential_eq hre, exponential_eq him]
  rfl

end Exponent

section Unpadded

variable {l : Layout} (hwidth : l.width = none) (capital : Bool) (x : Double) (w : FloatWidth)

include hwidth

theorem toList_floatText :
    (floatText l capital x w).toList =
      (l.signOf x.negative).toList ++ (bodyAt l capital x w).toList := by
  rw [floatText, signed_of_no_width hwidth, String.toList_append]

/-- **A number brings a sign** if it is negative or the plus flag is set. -/
theorem signed_floatText_iff (rest : List Char) :
    Signed ((floatText l capital x w).toList ++ rest) ↔ x.negative = true ∨ l.plus = true := by
  have hbody := (isBody_bodyAt l capital x w).not_signed rest
  rw [toList_floatText hwidth, signOf]
  cases x.negative with
  | true => simp [Signed]
  | false =>
      cases l.plus with
      | true => simp [Signed]
      | false => simpa using hbody

end Unpadded

/-- The text of a complex number of which the texts of the parts are given. -/
def parted (re plus im : String) : String := "(" ++ re ++ plus ++ im ++ "i)"

theorem parted_inj_of_parts {re plus plus' im : String} :
    parted re plus im = parted re plus' im ↔ plus = plus' := by
  simp only [parted, ← String.toList_inj, String.toList_append, List.append_assoc,
    List.append_cancel_left_eq]
  rw [← List.append_assoc, ← List.append_assoc]
  simp only [List.append_cancel_right_eq]

/-- **Without padding a complex number can be taken apart**, as there is a sign between its parts:
if it is made of the numbers at another width, then these have the same texts, and not both the
number and the notation put a plus sign in. -/
theorem parts_of_parted_eq {l : Layout} (hwidth : l.width = none) (capital : Bool)
    {re im : Double} {w : FloatWidth}
    (h : parted (floatText l capital re .double) (if im.negative then "" else "+")
        (floatText l capital im .double) =
      parted (floatText l capital re w) (if im.negative = true ∨ l.plus = true then "" else "+")
        (floatText l capital im w)) :
    floatText l capital re w = floatText l capital re .double ∧
      floatText l capital im w = floatText l capital im .double ∧
      ¬(l.plus = true ∧ im.negative = false) := by
  have hsign {plus : String} {u : FloatWidth}
      (hplus : plus = "+" ∨ plus = "" ∧ (im.negative = true ∨ l.plus = true)) :
      Signed (plus.toList ++ ((floatText l capital im u).toList ++ "i)".toList)) := by
    rcases hplus with rfl | ⟨rfl, hown⟩
    · exact Or.inl rfl
    · exact (signed_floatText_iff hwidth capital im u _).2 hown
  simp only [parted, ← String.toList_inj, String.toList_append, List.append_assoc,
    List.append_cancel_left_eq, toList_floatText hwidth capital re] at h
  have hfull : Signed ((if im.negative then "" else "+").toList ++
      ((floatText l capital im .double).toList ++ "i)".toList)) := by
    refine hsign ?_
    split
    · next hnegative => exact Or.inr ⟨rfl, Or.inl hnegative⟩
    · exact Or.inl rfl
  have hrest : Signed ((if im.negative = true ∨ l.plus = true then "" else "+").toList ++
      ((floatText l capital im w).toList ++ "i)".toList)) := by
    refine hsign ?_
    split
    · next hown => exact Or.inr ⟨rfl, hown⟩
    · exact Or.inl rfl
  obtain ⟨hre, htail⟩ := (isBody_bodyAt l capital re .double).append_inj
    (isBody_bodyAt l capital re w) hfull hrest h
  refine ⟨?_, ?_⟩
  · rw [← String.toList_inj, toList_floatText hwidth, toList_floatText hwidth, hre]
  · rw [← List.append_assoc, ← List.append_assoc, List.append_cancel_right_eq] at htail
    cases hnegative : im.negative with
    | true =>
        simp only [hnegative, true_or, if_true, String.toList_empty, List.nil_append] at htail
        exact ⟨String.toList_inj.1 htail.symm, by simp⟩
    | false =>
        cases hflag : l.plus with
        | false =>
            simp only [hnegative, hflag, Bool.false_eq_true, or_self, if_false,
              List.append_cancel_left_eq] at htail
            exact ⟨String.toList_inj.1 htail.symm, by simp⟩
        | true =>
            -- behind its own sign the imaginary part would begin with another one
            exfalso
            simp only [hnegative, hflag, Bool.false_eq_true, or_true, if_true, if_false,
              toList_floatText hwidth, signOf, String.toList_empty, List.nil_append,
              List.append_cancel_left_eq] at htail
            refine (isBody_bodyAt l capital im w).not_signed [] ?_
            rw [List.append_nil, ← htail]
            exact Or.inl rfl

/-- **When a complex number under a verb of exponent notation is made of floating point numbers
under the verb**, with a plus sign put in if the imaginary part brings no sign.  The parts have to
be written the same at full width, and the plus flag must not be set for an imaginary part without
a sign bit, which gets two signs then.  Without padding these conditions are necessary. -/
theorem complex_like_floats_iff {s : Scene} {v : Verb} {capital : Bool}
    (hv : v.exponent? = some capital) {z x y : NodeId} {re im : Double} {w : FloatWidth}
    (hz : Shows s v z (.complex re im w)) (hx : Shows s v x (.float re w))
    (hy : Shows s v y (.float im w)) (hre : re.isNaN = false) (him : im.isNaN = false)
    (l : Layout) :
    let text (l : Layout) (id : NodeId) := (s.format (.verb v) l id).text
    let plus := if Signed (text { l with width := none } y).toList then "" else "+"
    let agree := text l z = "(" ++ text l x ++ plus ++ text l y ++ "i)"
    let same (x : Double) := v.float? l x w = v.float? l x .double
    let doubled := l.plus = true ∧ im.negative = false
    (w = .double → (agree ↔ ¬doubled)) ∧
    (same re → same im → (agree ↔ ¬doubled)) ∧
    (l.width = none → (agree ↔ same re ∧ same im ∧ ¬doubled)) := by
  intro text plus agree same doubled
  have hfloat {n : NodeId} {r : Double} (hn : Shows s v n (.float r w)) (hr : r.isNaN = false)
      (l : Layout) : text l n = floatText l capital r w :=
    (format_of_shows hn (float?_eq hv hr l w)).1
  have hsame {r : Double} (hr : r.isNaN = false) :
      same r ↔ floatText l capital r w = floatText l capital r .double := by
    simp only [same, float?_eq hv hr, Option.some.injEq]
  have hplus : plus = if im.negative = true ∨ l.plus = true then "" else "+" := by
    have hwidth : ({ l with width := none } : Layout).width = none := rfl
    have hiff := signed_floatText_iff hwidth capital im w []
    rw [List.append_nil] at hiff
    simp only [plus, hfloat hy him, hiff]
  have hagree : agree ↔
      parted (floatText l capital re .double) (if im.negative then "" else "+")
          (floatText l capital im .double) =
        parted (floatText l capital re w)
          (if im.negative = true ∨ l.plus = true then "" else "+") (floatText l capital im w) := by
    have hcomplex : text l z = _ := (format_of_shows hz (complex?_eq hv hre him l)).1
    simp only [agree, hcomplex, hfloat hx hre, hfloat hy him, hplus, parted]
  have hparts : same re → same im → (agree ↔ ¬doubled) := by
    intro hsre hsim
    rw [hagree, (hsame hre).1 hsre, (hsame him).1 hsim, parted_inj_of_parts]
    simp only [doubled]
    cases im.negative <;> cases l.plus <;> simp
  refine ⟨?_, hparts, fun hwidth => ?_⟩
  · rintro rfl
    exact hparts rfl rfl
  · constructor
    · intro h
      obtain ⟨h₁, h₂, h₃⟩ := parts_of_parted_eq hwidth capital (hagree.1 h)
      exact ⟨(hsame hre).2 h₁, (hsame him).2 h₂, h₃⟩
    · rintro ⟨h₁, h₂, h₃⟩
      exact (hparts h₁ h₂).2 h₃

/-- One third, which has more digits at full width. -/
def third : Double := Binary.ofRatio .double false 1 3

/-- A complex number of a width, and its parts by themselves. -/
def thirds (w : FloatWidth) : Graph :=
  ⟨#[{ shape := .complex third third w, typeName := "Complex" },
     { shape := .float third w, typeName := "Float" }]⟩

/-- At full width a complex number is like its parts, but for the plus flag.  At single width it is
not, as its parts have fewer digits. -/
theorem thirds_like_floats :
    let text (w : FloatWidth) (l : Layout) (id : NodeId) :=
      (Scene.format ⟨thirds w, {}, true⟩ (.verb .lowerExp) l id).text
    let plus (w : FloatWidth) (l : Layout) :=
      if Signed (text w { l with width := none } 1).toList then "" else "+"
    let like (w : FloatWidth) (l : Layout) :=
      text w l 0 = "(" ++ text w l 1 ++ plus w l ++ text w l 1 ++ "i)"
    third.isNaN = false ∧
    (∀ w, Shows ⟨thirds w, {}, true⟩ .lowerExp 0 (.complex third third w)) ∧
    (∀ w, Shows ⟨thirds w, {}, true⟩ .lowerExp 1 (.float third w)) ∧
    like .double { width := some 30 } ∧ ¬like .double { plus := true } ∧ ¬like .single {} ∧
    text .double { plus := true } 0 = "(+3.333333333333333e-1++3.333333333333333e-1i)" ∧
    text .single {} 0 = "(3.333333333333333e-1+3.333333333333333e-1i)" ∧
    text .single {} 1 = "3.3333334e-1" := by
  intro text plus like
  have hnan : third.isNaN = false := by decide +kernel
  have hcomplex (w : FloatWidth) :
      Shows ⟨thirds w, {}, true⟩ .lowerExp 0 (.complex third third w) := ⟨rfl, rfl⟩
  have hfloat (w : FloatWidth) :
      Shows ⟨thirds w, {}, true⟩ .lowerExp 1 (.float third w) := ⟨rfl, rfl⟩
  have hlike (w : FloatWidth) (l : Layout) :=
    complex_like_floats_iff rfl (hcomplex w) (hfloat w) (hfloat w) hnan hnan l
  refine ⟨hnan, hcomplex, hfloat, ?_, ?_, ?_, by decide +kernel, by decide +kernel,
    by decide +kernel⟩
  · exact ((hlike .double { width := some 30 }).1 rfl).2 (by simp)
  · intro h
    exact ((hlike .double { plus := true }).1 rfl).1 h ⟨rfl, by decide +kernel⟩
  · intro h
    have hsame := (((hlike .single {}).2.2 rfl).1 h).1
    revert hsame
    decide +kernel

end Verb

end ValueLens
