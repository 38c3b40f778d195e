/-
**Numbers can be told from their texts.**

A number of a document is an integer or a double, and the two are written differently: an integer
with all its digits, a double with the fewest digits that name it.  The texts agree only if the
numbers do.  Two integers, because numerals are injective.  Two doubles, because their decimals have
one value, and no value rounds to two doubles.  An integer and a double, because a double without an
exponent in its text is below a million; so the integer is a double itself, and the decimal names
it.

The sign is kept apart: negative zero is written with its sign, and no integer is.

Main definitions:

* `ValueLens.Number.value` — the value of a finite number;
* `ValueLens.Number.Agree` — numbers of one value, where negative zero is kept apart from zero;
* `ValueLens.Number.text` — the text of a number.

Main results:

* `ValueLens.Number.agree_of_text_eq` — **finite numbers with the same text agree**;
* `ValueLens.Number.text_unambiguous` — so they do in front of the marks that end a value.
-/
import ValueLens.Number
import ValueLens.Proofs.DecimalLayout

set_option relaxedAutoImplicit false
set_option autoImplicit false

namespace ValueLens

open Text (Stops)

/-! ### Characters of a decimal -/

namespace Scalar

open DecimalText

/-- The characters of numbers. -/
def isNumeric (c : Char) : Bool :=
  c.isDigit || ['-', '+', '.', 'e'].contains c

theorem isNumeric_of_isDigit {c : Char} (h : c.isDigit = true) : isNumeric c = true := by
  simp [isNumeric, h]

theorem isNumeric_of_mem_chars {ws ps : List Nat} (h : ∀ d ∈ ws ++ ps, d < 10) {c : Char}
    (hc : c ∈ chars ws ps) : isNumeric c = true := by
  have hdigit {ds : List Nat} (hds : ∀ d ∈ ds, d ∈ ws ++ ps) (hc : c ∈ ds.map Numeral.digitChar) :
      isNumeric c = true := by
    obtain ⟨d, hd, rfl⟩ := List.mem_map.1 hc
    exact isNumeric_of_isDigit (Numeral.isDigit_digitChar (h d (hds d hd)))
  rcases List.mem_append.1 hc with hc | hc
  · exact hdigit (fun d hd => List.mem_append_left _ hd) hc
  · split at hc
    · simp at hc
    · rcases List.mem_cons.1 hc with rfl | hc
      · decide
      · exact hdigit (fun d hd => List.mem_append_right _ hd) hc

theorem isNumeric_of_mem_exponentText {e : Int} {c : Char} (hc : c ∈ (exponentText e).toList) :
    isNumeric c = true := by
  have hpadded : ∀ c ∈ (Numeral.zeroPadded 2 10 e.natAbs).toList, isNumeric c = true := by
    intro c hc
    rw [Numeral.zeroPadded, String.toList_ofList] at hc
    rcases List.mem_append.1 hc with hc | hc
    · rw [List.eq_of_mem_replicate hc]
      decide
    · exact isNumeric_of_isDigit (Numeral.isDigit_of_mem hc)
  rw [exponentText, String.toList_append] at hc
  rcases List.mem_append.1 hc with hc | hc
  · split at hc <;> (obtain rfl := List.mem_singleton.1 hc; decide)
  · exact hpadded c hc

theorem isNumeric_of_mem_layout {s : Scientific} (h : s.Proper) {c : Char}
    (hc : c ∈ (layout s).toList) : isNumeric c = true := by
  obtain ⟨ws, ps, e, hspelled, ⟨-, -, htext⟩ | htext⟩ := layout_cases h
  · rw [htext] at hc
    exact isNumeric_of_mem_chars hspelled.lt_ten hc
  · rw [htext] at hc
    rcases List.mem_append.1 hc with hc | hc
    · exact isNumeric_of_mem_chars hspelled.lt_ten hc
    · rcases List.mem_cons.1 hc with rfl | hc
      · decide
      · exact isNumeric_of_mem_exponentText hc

/-- A decimal that is laid out begins with a digit. -/
theorem exists_layout_eq_cons {s : Scientific} (h : s.Proper) :
    ∃ c cs, (layout s).toList = c :: cs ∧ c.isDigit = true := by
  obtain ⟨ws, ps, e, hspelled, hlayout⟩ := layout_cases h
  obtain ⟨d, ws, rfl⟩ := List.exists_cons_of_ne_nil hspelled.ne_nil
  have hdigit := Numeral.isDigit_digitChar (hspelled.lt_ten d (by simp))
  rcases hlayout with ⟨-, -, htext⟩ | htext
  · exact ⟨_, _, htext, hdigit⟩
  · exact ⟨_, _, htext, hdigit⟩

/-- **A decimal without an exponent in its text is below a million.** -/
theorem value_lt_of_not_mem {s : Scientific} (h : s.Proper) (he : 'e' ∉ (layout s).toList) :
    s.value < 10 ^ 6 := by
  obtain ⟨ws, ps, e, -, ⟨hsmall, -, -⟩ | htext⟩ := layout_cases h
  · have hexp : s.exponent + 1 ≤ (6 : Nat) := by
      simp only [leastExponential] at hsmall
      omega
    calc s.value < (10 : ℚ) ^ (s.exponent + 1) := Scientific.value_lt h
      _ ≤ (10 : ℚ) ^ ((6 : Nat) : Int) := zpow_le_zpow_right₀ (by norm_num) hexp
      _ = 10 ^ 6 := zpow_natCast 10 6
  · exact absurd (by simp [htext]) he

end Scalar

namespace Number

/-! ### Values of numbers -/

/-- Whether a number has a minus sign; negative zero has one. -/
def negative : Number → Bool
  | .int v => v.toInt < 0
  | .uint _ => false
  | .float x => x.negative

/-- The value of a number without its sign. -/
def magnitude : Number → ℚ
  | .int v => v.toInt.natAbs
  | .uint v => v.toNat
  | .float x => x.magnitude / 2 ^ Binary.Format.double.unitShift

/-- **The value of a finite number.** -/
def value (n : Number) : ℚ := if n.negative then -n.magnitude else n.magnitude

/-- The double zero with a minus sign. -/
def NegativeZero (n : Number) : Prop := n.negative = true ∧ n.magnitude = 0

/-- **Numbers of one value**, whatever represents them; negative zero is kept apart from zero. -/
def Agree (m n : Number) : Prop := m.value = n.value ∧ (m.NegativeZero ↔ n.NegativeZero)

/-- Neither an infinity nor a NaN. -/
def Finite : Number → Prop
  | .float x => x.isFinite = true
  | _ => True

theorem agree_of_parts {m n : Number} (hsign : m.negative = n.negative)
    (hmagnitude : m.magnitude = n.magnitude) : m.Agree n := by
  simp only [Agree, value, NegativeZero, hsign, hmagnitude, true_and, iff_self]

/-! ### Texts of numbers -/

/-- The text of a number. -/
def text : Number → String
  | .int v => Scalar.int 10 v
  | .uint v => Scalar.uint 10 v
  | .float x => Scalar.float x .double

/-- The characters of a number behind its sign. -/
def unsigned : Number → List Char
  | .int v => Numeral.writeChars 10 v.toInt.natAbs
  | .uint v => Numeral.writeChars 10 v.toNat
  | .float x => (Scalar.layout (x.shortest .up)).toList

theorem toList_text {n : Number} (h : n.Finite) :
    n.text.toList = (if n.negative then ['-'] else []) ++ n.unsigned := by
  cases n with
  | int v =>
      by_cases hneg : v.toInt < 0
      · simp [text, Scalar.int, Numeral.writeInt, Numeral.write, negative, unsigned, hneg]
      · simp [text, Scalar.int, Numeral.writeInt, Numeral.write, negative, unsigned, hneg]
  | uint v => simp [text, Scalar.uint, Numeral.write, negative, unsigned]
  | float x =>
      have hlt : x.field.val < Binary.Format.double.infinityField := by
        simpa [Finite, Binary.isFinite] using h
      have hnan : x.isNaN = false := by
        simp only [Binary.isNaN, decide_eq_false_iff_not]
        omega
      have hinf : x.isInfinite = false := by
        simp only [Binary.isInfinite, beq_eq_false_iff_ne]
        omega
      have hdigits : Scalar.atWidth x .double = x.shortest .up := if_pos h
      by_cases hneg : x.negative = true
      · simp [text, Scalar.float, hnan, hinf, hdigits, negative, unsigned, hneg]
      · simp [text, Scalar.float, hnan, hinf, hdigits, negative, unsigned, hneg]

theorem isNumeric_of_mem_text {n : Number} (h : n.Finite) {c : Char} (hc : c ∈ n.text.toList) :
    Scalar.isNumeric c = true := by
  rw [toList_text h] at hc
  rcases List.mem_append.1 hc with hc | hc
  · split at hc
    · obtain rfl := List.mem_singleton.1 hc
      decide
    · simp at hc
  · cases n with
    | int v => exact Scalar.isNumeric_of_isDigit (Numeral.isDigit_of_mem hc)
    | uint v => exact Scalar.isNumeric_of_isDigit (Numeral.isDigit_of_mem hc)
    | float x => exact Scalar.isNumeric_of_mem_layout (x.shortest_proper .up) hc

/-- Behind its sign a number begins with a digit. -/
theorem exists_unsigned_eq_cons (n : Number) : ∃ c cs, n.unsigned = c :: cs ∧ c.isDigit = true := by
  have hnumeral (k : Nat) : ∃ c cs, Numeral.writeChars 10 k = c :: cs ∧ c.isDigit = true := by
    obtain ⟨c, cs, hcs⟩ := List.exists_cons_of_ne_nil (Numeral.writeChars_ne_nil 10 k)
    exact ⟨c, cs, hcs, Numeral.isDigit_of_mem (n := k) (by rw [hcs]; simp)⟩
  cases n with
  | int v => exact hnumeral _
  | uint v => exact hnumeral _
  | float x => exact Scalar.exists_layout_eq_cons (x.shortest_proper .up)

/-! ### Texts determine numbers -/

/-- A number is written as a natural number or as a double. -/
theorem unsigned_cases (n : Number) :
    (∃ k : Nat, n.unsigned = Numeral.writeChars 10 k ∧ n.magnitude = k) ∨
      ∃ x : Double, n.unsigned = (Scalar.layout (x.shortest .up)).toList ∧
        n.magnitude = x.magnitude / 2 ^ Binary.Format.double.unitShift := by
  cases n with
  | int v => exact Or.inl ⟨_, rfl, rfl⟩
  | uint v => exact Or.inl ⟨_, rfl, rfl⟩
  | float x => exact Or.inr ⟨x, rfl, rfl⟩

/-- The decimal of a double is zero for the zeros alone. -/
theorem field_eq_zero_iff (x : Double) : (x.shortest .up).value = 0 ↔ x.field.val = 0 := by
  constructor
  · intro hzero
    by_contra hx
    have hpos := (Binary.shortest_roundsTo .up (Nat.pos_of_ne_zero hx)).pos (Nat.pos_of_ne_zero hx)
    rw [hzero, zero_mul] at hpos
    exact lt_irrefl _ hpos
  · intro hx
    rw [Binary.shortest_of_zero .up hx]
    simp [Scientific.zero, Scientific.value, Numeral.ofDigits]

/-- **Doubles with one decimal have one field.** -/
theorem field_eq_of_layout_eq {x y : Double}
    (h : (Scalar.layout (x.shortest .up)).toList = (Scalar.layout (y.shortest .up)).toList) :
    x.field.val = y.field.val := by
  obtain ⟨d, hd, hx⟩ := Scalar.parse?_layout (x.shortest_proper .up)
  obtain ⟨d', hd', hy⟩ := Scalar.parse?_layout (y.shortest_proper .up)
  rw [h, hd', Option.some.injEq] at hd
  have hvalue : (x.shortest .up).value = (y.shortest .up).value := by rw [← hx, ← hy, hd]
  rcases Nat.eq_zero_or_pos x.field.val with hzero | hpos
  · have hyzero := (field_eq_zero_iff y).1 (hvalue ▸ (field_eq_zero_iff x).2 hzero)
    rw [hzero, hyzero]
  · have hypos : 0 < y.field.val := by
      refine Nat.pos_of_ne_zero fun hyzero => ?_
      have := (field_eq_zero_iff x).1 (hvalue ▸ (field_eq_zero_iff y).2 hyzero)
      omega
    have hxr := Binary.shortest_roundsTo .up hpos
    rw [hvalue] at hxr
    exact hxr.field_unique (Binary.shortest_roundsTo .up hypos)

/-- A double that is written like a natural number has the decimal of this number, and is small. -/
theorem value_of_layout_eq {x : Double} {k : Nat}
    (h : (Scalar.layout (x.shortest .up)).toList = Numeral.writeChars 10 k) :
    (x.shortest .up).value = k ∧ k < 10 ^ 6 := by
  have hproper := x.shortest_proper .up
  obtain ⟨d, hd, hx⟩ := Scalar.parse?_layout hproper
  have hread : DecimalText.parse? (Numeral.writeChars 10 k) = some ⟨k, 0⟩ := by
    have hchars : Numeral.writeChars 10 k = DecimalText.chars (Numeral.digits 10 k) [] :=
      (Scalar.chars_nil _).symm
    rw [hchars, DecimalText.parse?_chars (Numeral.digits_ne_nil (by decide) k) ?_, List.append_nil,
      Numeral.ofDigits_digits (by decide)]
    · rfl
    · intro d hd
      rw [List.append_nil] at hd
      exact Numeral.lt_of_mem_digits (by decide) hd
  rw [h, hread, Option.some.injEq] at hd
  have hvalue : (x.shortest .up).value = k := by
    rw [← hx, ← hd]
    simp [DecimalText.rational]
  have hplain : 'e' ∉ (Scalar.layout (x.shortest .up)).toList := by
    rw [h]
    intro he
    exact absurd (Numeral.isDigit_of_mem he) (by decide)
  have hlt := Scalar.value_lt_of_not_mem hproper hplain
  rw [hvalue] at hlt
  exact ⟨hvalue, by exact_mod_cast hlt⟩

/-- **A double that is written like a natural number is this number.** -/
theorem magnitude_of_layout_eq {x : Double} {k : Nat}
    (h : (Scalar.layout (x.shortest .up)).toList = Numeral.writeChars 10 k) :
    x.magnitude = k * 2 ^ Binary.Format.double.unitShift := by
  obtain ⟨hvalue, hlt⟩ := value_of_layout_eq h
  have hmagnitude : x.magnitude = Binary.Format.double.magnitudeAt x.field := rfl
  rcases Nat.eq_zero_or_pos x.field.val with hzero | hpos
  · have hk : k = 0 := by
      have := (field_eq_zero_iff x).2 hzero
      rw [hvalue] at this
      exact_mod_cast this
    rw [hmagnitude, hzero, Binary.Format.magnitudeAt_zero, hk, Nat.zero_mul]
  · have hrounds := Binary.shortest_roundsTo .up hpos
    have hk : 0 < k := by
      refine Nat.pos_of_ne_zero fun hk => ?_
      have := (field_eq_zero_iff x).1 (by rw [hvalue, hk, Nat.cast_zero])
      omega
    -- the number is on the ladder, and it rounds to the field of the double
    obtain ⟨j, hj, hladder⟩ := Binary.Format.exists_magnitudeAt (f := .double) hk (by decide)
      (Nat.lt_trans hlt (by decide)) (by decide)
    have hself := Binary.Format.RoundsTo.magnitudeAt (f := .double) hj
    have hreal : ((Binary.Format.double.magnitudeAt j : Nat) : ℚ) =
        k * 2 ^ Binary.Format.double.unitShift := by
      rw [hladder, Nat.cast_mul, Nat.cast_pow, Nat.cast_ofNat]
    rw [hvalue, ← hreal] at hrounds
    rw [hmagnitude, hrounds.field_unique hself, hladder]

theorem magnitude_eq_of_unsigned_eq {m n : Number} (h : m.unsigned = n.unsigned) :
    m.magnitude = n.magnitude := by
  have hpow : (2 : ℚ) ^ Binary.Format.double.unitShift ≠ 0 := pow_ne_zero _ two_ne_zero
  -- a natural number against a double, in either order
  have hmixed {x : Double} {k : Nat}
      (hx : (Scalar.layout (x.shortest .up)).toList = Numeral.writeChars 10 k) :
      (x.magnitude / 2 ^ Binary.Format.double.unitShift : ℚ) = k := by
    rw [magnitude_of_layout_eq hx, Nat.cast_mul, Nat.cast_pow, Nat.cast_ofNat,
      mul_div_cancel_right₀ _ hpow]
  rcases unsigned_cases m with ⟨k, hm, hmv⟩ | ⟨x, hm, hmv⟩ <;>
    rcases unsigned_cases n with ⟨l, hn, hnv⟩ | ⟨y, hn, hnv⟩ <;>
      rw [hm, hn] at h <;> rw [hmv, hnv]
  · rw [Numeral.writeChars_injective h]
  · exact (hmixed h.symm).symm
  · exact hmixed h
  · have hfield := field_eq_of_layout_eq h
    have hmagnitude : x.magnitude = y.magnitude :=
      congrArg (Binary.Format.magnitudeAt Binary.Format.double) hfield
    rw [hmagnitude]

/-- **Finite numbers with the same text agree.** -/
theorem agree_of_text_eq {m n : Number} (hm : m.Finite) (hn : n.Finite)
    (h : m.text.toList = n.text.toList) : m.Agree n := by
  -- what begins with a digit does not begin with a sign
  have hsign (n : Number) (cs : List Char) : n.unsigned ≠ '-' :: cs := by
    obtain ⟨c, ds, hds, hc⟩ := n.exists_unsigned_eq_cons
    rw [hds]
    intro heq
    rw [(List.cons.inj heq).1] at hc
    exact absurd hc (by decide)
  rw [toList_text hm, toList_text hn] at h
  cases hmn : m.negative <;> cases hnn : n.negative <;>
    simp only [hmn, hnn, if_true, Bool.false_eq_true, if_false, List.nil_append,
      List.cons_append, List.cons.injEq, true_and] at h
  · exact agree_of_parts (hmn.trans hnn.symm) (magnitude_eq_of_unsigned_eq h)
  · exact absurd h (hsign m _)
  · exact absurd h.symm (hsign n _)
  · exact agree_of_parts (hmn.trans hnn.symm) (magnitude_eq_of_unsigned_eq h)

/-- **Numbers can be split off** in front of what is no part of a number. -/
theorem text_unambiguous {m n : Number} (hm : m.Finite) (hn : n.Finite) {rest rest' : List Char}
    (hrest : Stops Scalar.isNumeric rest) (hrest' : Stops Scalar.isNumeric rest')
    (h : m.text.toList ++ rest = n.text.toList ++ rest') : m.Agree n ∧ rest = rest' := by
  obtain ⟨htext, hrests⟩ := Text.append_inj_of_stops (fun c hc => isNumeric_of_mem_text hm hc)
    (fun c hc => isNumeric_of_mem_text hn hc) hrest hrest' h
  exact ⟨agree_of_text_eq hm hn htext, hrests⟩

end Number

end ValueLens
