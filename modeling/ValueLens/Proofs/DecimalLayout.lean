/-
**Reading a decimal back.**

A decimal is laid out in one of four ways: with an exponent, behind a point and zeros, with zeros
at its end, or with a point among its digits.  All four are a row of digits, perhaps with a point in
it, and perhaps an exponent behind; the grammar of decimals takes them apart again.  So the text of
a decimal determines the number it stands for, though neither its digits nor its exponent.

Main definitions:

* `ValueLens.DecimalText.rational` — the number that a decimal text stands for;
* `ValueLens.DecimalText.chars` — digits with a point among them;
* `ValueLens.Scientific.Spelled` — digits with a point and an exponent that stand for a decimal.

Main results:

* `ValueLens.DecimalText.parse?_chars`, `ValueLens.DecimalText.parse?_chars_exponent` — the grammar
  on digits without and with an exponent;
* `ValueLens.Scalar.layout_cases` — the layouts of a decimal as digits with a point;
* `ValueLens.Scalar.parse?_layout` — **the text of a decimal reads back as its value**.
-/
import ValueLens.Decimal.Reading
import ValueLens.Proofs.ShortestDecimal
import ValueLens.Proofs.Spelling
import ValueLens.Scalar

set_option relaxedAutoImplicit false
set_option autoImplicit false

namespace ValueLens

open Text (Stops)

namespace DecimalText

/-! ### The grammar on digits -/

/-- The number that a decimal text stands for. -/
def rational (d : DecimalText) : ℚ := d.digits * (10 : ℚ) ^ d.exponent

/-- Digits `ws`, and behind a point the digits `ps` if there are any. -/
def chars (ws ps : List Nat) : List Char :=
  ws.map Numeral.digitChar ++ if ps.isEmpty then [] else '.' :: ps.map Numeral.digitChar

theorem spanDigits_append {ds : List Nat} (h : ∀ d ∈ ds, d < 10) {rest : List Char}
    (hrest : Stops Char.isDigit rest) :
    spanDigits (ds.map Numeral.digitChar ++ rest) = (ds.map Numeral.digitChar, rest) := by
  have hdigits : ∀ c ∈ ds.map Numeral.digitChar, c.isDigit = true := by
    intro c hc
    obtain ⟨d, hd, rfl⟩ := List.mem_map.1 hc
    exact Numeral.isDigit_digitChar (h d hd)
  have hstop : rest.takeWhile Char.isDigit = [] ∧ rest.dropWhile Char.isDigit = rest := by
    cases rest with
    | nil => exact ⟨rfl, rfl⟩
    | cons c rest =>
        have hc : c.isDigit = false := hrest c rfl
        simp [hc]
  rw [spanDigits, List.takeWhile_append_of_pos hdigits, List.dropWhile_append_of_pos hdigits,
    hstop.1, hstop.2, List.append_nil]

theorem number_map {ds : List Nat} (h : ∀ d ∈ ds, d < 10) :
    number (ds.map Numeral.digitChar) = Numeral.ofDigits 10 ds := by
  have hvalues : ds.map (fun d => (Numeral.digitChar d).toNat - '0'.toNat) = ds := by
    conv_rhs => rw [← List.map_id ds]
    exact List.map_congr_left fun d hd => Numeral.toNat_digitChar (h d hd)
  rw [number, List.map_map]
  exact congrArg _ hvalues

/-- A sign and digits. -/
theorem exponentPart?_sign (negative : Bool) {ds : List Nat} (hne : ds ≠ [])
    (h : ∀ d ∈ ds, d < 10) :
    exponentPart? ((if negative then '-' else '+') :: ds.map Numeral.digitChar) =
      some (if negative then -(Numeral.ofDigits 10 ds : Int) else Numeral.ofDigits 10 ds) := by
  have hspan := spanDigits_append h (show Stops Char.isDigit [] by simp [Stops])
  rw [List.append_nil] at hspan
  cases negative <;> simp [exponentPart?, hspan, hne, number_map h]

/-- What the grammar makes of the digits and of what stands behind them. -/
theorem parse?_chars_append {ws ps : List Nat} (hws : ws ≠ []) (h : ∀ d ∈ ws ++ ps, d < 10)
    {rest : List Char} (hrest : Stops (fun c => c.isDigit || c == '.') rest) :
    parse? (chars ws ps ++ rest) =
      match rest with
      | [] => some ⟨Numeral.ofDigits 10 (ws ++ ps), -(ps.length : Int)⟩
      | c :: tail =>
          if c = 'e' ∨ c = 'E' then
            (exponentPart? tail).map fun e =>
              ⟨Numeral.ofDigits 10 (ws ++ ps), -(ps.length : Int) + e⟩
          else none := by
  have hw : ∀ d ∈ ws, d < 10 := fun d hd => h d (List.mem_append_left _ hd)
  have hp : ∀ d ∈ ps, d < 10 := fun d hd => h d (List.mem_append_right _ hd)
  have hdigit : Stops Char.isDigit rest := fun c hc => (Bool.or_eq_false_iff.1 (hrest c hc)).1
  have hwhole : (ws.map Numeral.digitChar).isEmpty = false := by simpa using hws
  have hnumber : number (ws.map Numeral.digitChar ++ ps.map Numeral.digitChar) =
      Numeral.ofDigits 10 (ws ++ ps) := by
    rw [← List.map_append, number_map h]
  cases ps with
  | nil =>
      have hspan := spanDigits_append hw hdigit
      simp only [chars, List.isEmpty_nil, if_true, List.append_nil, parse?, hspan]
      cases rest with
      | nil => simp_all
      | cons c tail =>
          have hpoint : c ≠ '.' := by
            have := (Bool.or_eq_false_iff.1 (hrest c rfl)).2
            simpa using this
          simp_all
  | cons p ps =>
      have hdot : Stops Char.isDigit ('.' :: ((p :: ps).map Numeral.digitChar ++ rest)) := by
        intro c hc
        obtain rfl := Option.some.inj hc
        decide
      have hspan := spanDigits_append hw hdot
      have hplaces := spanDigits_append hp hdigit
      simp only [chars, List.isEmpty_cons, Bool.false_eq_true, if_false, List.append_assoc,
        List.cons_append, parse?, hspan, hplaces, hwhole, hnumber, List.length_map, Bool.false_and]
      cases rest with
      | nil => rfl
      | cons c tail => rfl

/-- **Digits with a point.** -/
theorem parse?_chars {ws ps : List Nat} (hws : ws ≠ []) (h : ∀ d ∈ ws ++ ps, d < 10) :
    parse? (chars ws ps) = some ⟨Numeral.ofDigits 10 (ws ++ ps), -(ps.length : Int)⟩ := by
  rw [← List.append_nil (chars ws ps), parse?_chars_append hws h (by simp [Stops])]

/-- **Digits with a point and an exponent.** -/
theorem parse?_chars_exponent {ws ps : List Nat} (hws : ws ≠ []) (h : ∀ d ∈ ws ++ ps, d < 10)
    {tail : List Char} {e : Int} (he : exponentPart? tail = some e) :
    parse? (chars ws ps ++ 'e' :: tail) =
      some ⟨Numeral.ofDigits 10 (ws ++ ps), -(ps.length : Int) + e⟩ := by
  rw [parse?_chars_append hws h (by rintro c ⟨⟩; decide)]
  simp [he]

end DecimalText

namespace Scalar

open DecimalText

/-! ### Exponents -/

theorem toList_zeros (n : Nat) : (zeros n).toList = (List.replicate n 0).map Numeral.digitChar := by
  rw [zeros, Numeral.toList_pushn, List.map_replicate]
  rfl

/-- The digits of an exponent, with zeros in front. -/
theorem toList_zeroPadded (width n : Nat) :
    ∃ k, (Numeral.zeroPadded width 10 n).toList =
      (List.replicate k 0 ++ Numeral.digits 10 n).map Numeral.digitChar := by
  refine ⟨width - (Numeral.writeChars 10 n).length, ?_⟩
  simp [Numeral.zeroPadded, Numeral.writeChars, Numeral.clampRadix, Numeral.digitChar]

theorem exponentPart?_exponentText (e : Int) :
    exponentPart? (exponentText e).toList = some e := by
  obtain ⟨k, hk⟩ := toList_zeroPadded 2 e.natAbs
  have hne : List.replicate k 0 ++ Numeral.digits 10 e.natAbs ≠ [] := by
    simp [Numeral.digits_ne_nil (show 2 ≤ 10 by decide) e.natAbs]
  have hdigits : ∀ d ∈ List.replicate k 0 ++ Numeral.digits 10 e.natAbs, d < 10 := by
    intro d hd
    rcases List.mem_append.1 hd with hd | hd
    · rw [List.eq_of_mem_replicate hd]
      decide
    · exact Numeral.lt_of_mem_digits (by decide) hd
  have hvalue :
      Numeral.ofDigits 10 (List.replicate k 0 ++ Numeral.digits 10 e.natAbs) = e.natAbs := by
    rw [Numeral.ofDigits_append, Numeral.ofDigits_replicate_zero, Nat.zero_mul, Nat.zero_add,
      Numeral.ofDigits_digits (by decide)]
  have hsign : (if e < 0 then "-" else "+").toList = [if decide (e < 0) then '-' else '+'] := by
    by_cases he : e < 0 <;> simp [he]
  rw [exponentText, String.toList_append, hk, hsign, List.singleton_append,
    exponentPart?_sign _ hne hdigits, hvalue, Option.some.injEq]
  simp only [decide_eq_true_eq]
  split <;> omega

end Scalar

/-! ### Spelled decimals -/

namespace Scientific

/-- **Digits `ws` and `ps` around a point and an exponent** that stand for a decimal. -/
structure Spelled (s : Scientific) (ws ps : List Nat) (e : Int) : Prop where
  ne_nil : ws ≠ []
  lt_ten : ∀ d ∈ ws ++ ps, d < 10
  value : s.value = Numeral.ofDigits 10 (ws ++ ps) * (10 : ℚ) ^ (-(ps.length : Int) + e)

theorem lt_ten_of_mem_zeros {k d : Nat} (h : d ∈ List.replicate k 0) : d < 10 := by
  rw [List.eq_of_mem_replicate h]
  decide

namespace Proper

variable {s : Scientific} (h : s.Proper)

include h

/-- The point stands after the first digit, and the exponent counts the digits behind it. -/
theorem spelled_head {d : Nat} {ps : List Nat} (hdigits : s.digits = d :: ps) :
    s.Spelled [d] ps s.exponent := by
  refine ⟨by simp, fun x hx => h.lt_ten x (by simpa [hdigits] using hx), ?_⟩
  rw [Scientific.value, hdigits, List.singleton_append, List.length_cons]
  congr 2
  omega

/-- Zeros stand between the point and the digits. -/
theorem spelled_zeros_before (hneg : s.exponent < 0) :
    s.Spelled [0] (List.replicate (-s.exponent - 1).toNat 0 ++ s.digits) 0 := by
  refine ⟨by simp, ?_, ?_⟩
  · intro d hd
    simp only [List.mem_append, List.mem_singleton] at hd
    rcases hd with rfl | hd | hd
    · decide
    · exact lt_ten_of_mem_zeros hd
    · exact h.lt_ten d hd
  · have hlength : 0 < s.digits.length := List.length_pos_of_ne_nil h.ne_nil
    rw [← List.append_assoc, Numeral.ofDigits_append, List.singleton_append, ← List.replicate_succ,
      Numeral.ofDigits_replicate_zero, Nat.zero_mul, Nat.zero_add, Scientific.value]
    congr 2
    rw [List.length_append, List.length_replicate]
    omega

/-- Zeros stand behind the digits. -/
theorem spelled_zeros_behind (hle : s.digits.length ≤ s.exponent.toNat + 1)
    (hnonneg : ¬s.exponent < 0) :
    s.Spelled (s.digits ++ List.replicate (s.exponent.toNat + 1 - s.digits.length) 0) [] 0 := by
  refine ⟨by simp [h.ne_nil], ?_, ?_⟩
  · intro d hd
    simp only [List.append_nil, List.mem_append] at hd
    rcases hd with hd | hd
    · exact h.lt_ten d hd
    · exact lt_ten_of_mem_zeros hd
  · have hlength : 0 < s.digits.length := List.length_pos_of_ne_nil h.ne_nil
    rw [List.append_nil, Numeral.ofDigits_append, Numeral.ofDigits_replicate_zero, Nat.add_zero,
      List.length_replicate, Scientific.value, Nat.cast_mul, Nat.cast_pow, mul_assoc,
      ← zpow_natCast, Nat.cast_ofNat, ← zpow_add₀ (by norm_num)]
    congr 2
    simp only [List.length_nil]
    omega

/-- The point stands among the digits. -/
theorem spelled_split (hlt : s.exponent.toNat + 1 < s.digits.length) (hnonneg : ¬s.exponent < 0) :
    s.Spelled (s.digits.take (s.exponent.toNat + 1)) (s.digits.drop (s.exponent.toNat + 1)) 0 := by
  refine ⟨by simp [h.ne_nil], ?_, ?_⟩
  · rw [List.take_append_drop]
    exact h.lt_ten
  · rw [List.take_append_drop, Scientific.value]
    congr 2
    rw [List.length_drop]
    omega

end Proper

end Scientific

/-! ### Layouts -/

namespace Scalar

open DecimalText

theorem toList_digitText (ds : List Nat) :
    (Scientific.digitText ds).toList = ds.map Numeral.digitChar := String.toList_ofList

theorem chars_nil (ws : List Nat) : chars ws [] = ws.map Numeral.digitChar := by simp [chars]

theorem chars_of_ne_nil (ws : List Nat) {ps : List Nat} (h : ps ≠ []) :
    chars ws ps = ws.map Numeral.digitChar ++ '.' :: ps.map Numeral.digitChar := by
  simp [chars, h]

/-- The digits of a decimal with a point after the first. -/
theorem mantissa_eq {s : Scientific} (h : s.Proper) :
    ∃ d ps, s.digits = d :: ps ∧ s.mantissa.toList = chars [d] ps := by
  obtain ⟨digits, exponent⟩ := s
  match digits, h.ne_nil with
  | [d], _ => exact ⟨d, [], rfl, by simp [Scientific.mantissa, toList_digitText, chars_nil]⟩
  | d :: p :: ps, _ =>
      refine ⟨d, p :: ps, rfl, ?_⟩
      simp [Scientific.mantissa, toList_digitText, chars_of_ne_nil]

/-- **Positional notation** is a row of digits with a point. -/
theorem positional_cases {s : Scientific} (h : s.Proper) :
    ∃ ws ps : List Nat, s.Spelled ws ps 0 ∧ (positional s).toList = chars ws ps := by
  unfold positional
  split
  · next hneg =>
      refine ⟨_, _, h.spelled_zeros_before hneg, ?_⟩
      rw [chars_of_ne_nil _ (by simp [h.ne_nil])]
      simp [toList_zeros, toList_digitText, Numeral.digitChar]
  · simp only
    split
    · next hnonneg hle =>
        refine ⟨_, _, h.spelled_zeros_behind hle hnonneg, ?_⟩
        simp [chars_nil, toList_zeros, toList_digitText]
    · next hnonneg hgt =>
        have hlt : s.exponent.toNat + 1 < s.digits.length := Nat.lt_of_not_le hgt
        refine ⟨_, _, h.spelled_split hlt hnonneg, ?_⟩
        rw [chars_of_ne_nil _ (by simpa using hlt)]
        simp [toList_digitText]

/-- **A decimal laid out** is a row of digits with a point, without an exponent only if the decimal
is small. -/
theorem layout_cases {s : Scientific} (h : s.Proper) :
    ∃ (ws ps : List Nat) (e : Int), s.Spelled ws ps e ∧
      ((s.exponent < leastExponential ∧ e = 0 ∧ (layout s).toList = chars ws ps) ∨
        (layout s).toList = chars ws ps ++ 'e' :: (exponentText e).toList) := by
  unfold layout
  split
  · obtain ⟨d, ps, hdigits, hmantissa⟩ := mantissa_eq h
    exact ⟨_, _, _, h.spelled_head hdigits, Or.inr (by simp [hmantissa])⟩
  · next hsmall =>
      obtain ⟨ws, ps, hspelled, htext⟩ := positional_cases h
      exact ⟨ws, ps, 0, hspelled, Or.inl ⟨by omega, rfl, htext⟩⟩

/-- **The text of a decimal reads back as its value.** -/
theorem parse?_layout {s : Scientific} (h : s.Proper) :
    ∃ d, parse? (layout s).toList = some d ∧ d.rational = s.value := by
  obtain ⟨ws, ps, e, hspelled, hlayout⟩ := layout_cases h
  refine ⟨⟨Numeral.ofDigits 10 (ws ++ ps), -(ps.length : Int) + e⟩, ?_, hspelled.value.symm⟩
  rcases hlayout with ⟨-, rfl, htext⟩ | htext
  · rw [htext, parse?_chars hspelled.ne_nil hspelled.lt_ten, Int.add_zero]
  · rw [htext, parse?_chars_exponent hspelled.ne_nil hspelled.lt_ten (exponentPart?_exponentText e)]

end Scalar

end ValueLens
