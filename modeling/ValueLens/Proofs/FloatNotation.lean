/-
**From exponent notation to the notation of values.**

The text of a floating point number can be made from its text in exponent notation: the letter `e`
divides the digits from the exponent, the sign and the point are taken out of the digits, and the
digits are laid out again, with zeros before them, behind them or a point among them.  Slices are
taken out of the row of digits for that, and a slice that goes beyond the row would be an error.

For a value that is finite at its width no slice goes beyond the row.  The text that comes out is
the one that is written, and it stands for the very number that the exponent notation stands for,
with the same sign.

Main definitions:

* `ValueLens.ExponentText.relaid?` — a text in exponent notation laid out anew, with all slices
  checked;
* `ValueLens.ExponentText.denoted?` — sign and magnitude of a number as it is written;
* `ValueLens.ExponentText.Says` — what the text of a value has to say, given its exponent notation;
* `ValueLens.Binary.FiniteAt` — finite after rounding to a width.

Main results:

* `ValueLens.Binary.shortest_spec` — what the search for the shortest decimal comes to, in every
  format;
* `ValueLens.ExponentText.relaid?_text` — **every slice is within the digits**;
* `ValueLens.ExponentText.says_layout` — the digits stand for the same number wherever they are
  laid out;
* `ValueLens.Scalar.float_denotes_exponent_text` — what is written is what exponent notation says.
-/
import ValueLens.Proofs.Narrowing
import ValueLens.Verb

set_option relaxedAutoImplicit false
set_option autoImplicit false

namespace ValueLens

open Text (Stops)

/-! ### Shortest decimals of every format -/

namespace Numeral

theorem decimalLength_le {n k : Nat} (hk : 0 < k) (h : n < 2 ^ k) : decimalLength n ≤ k := by
  rcases Nat.eq_zero_or_pos n with rfl | hn
  · exact hk
  · have hpow : 2 ^ (decimalLength n - 1) < 2 ^ k := by
      calc 2 ^ (decimalLength n - 1) ≤ 10 ^ (decimalLength n - 1) :=
            Nat.pow_le_pow_left (by decide) _
        _ ≤ n := pow_le_of_decimalLength hn
        _ < 2 ^ k := h
    have := (Nat.pow_lt_pow_iff_right (by decide)).1 hpow
    omega

end Numeral

namespace Scientific

theorem rounded_proper (num den places : Nat) : (rounded num den places).Proper := by
  unfold rounded
  split
  · exact ⟨by simp, fun d hd => lt_ten_of_mem_zeros hd⟩
  · refine ⟨?_, fun d hd => ?_⟩
    · simp [(ofUnits_proper _ _).ne_nil]
    · exact (ofUnits_proper _ _).lt_ten d (List.mem_of_mem_take hd)

/-- The exponent of a quotient is within the binary lengths of its parts. -/
theorem exponentOf_bounds {num den k : Nat} (hk : 0 < k) (hnum : num < 2 ^ k) (hden : den < 2 ^ k) :
    -(k : Int) ≤ exponentOf num den ∧ exponentOf num den < k := by
  unfold exponentOf
  split
  · have hle : Numeral.decimalLength (num / den) ≤ k :=
      Numeral.decimalLength_le hk (Nat.lt_of_le_of_lt (Nat.div_le_self _ _) hnum)
    omega
  · next hlt =>
      have hle : Numeral.decimalLength ((den + num - 1) / num - 1) ≤ k := by
        refine Numeral.decimalLength_le hk (Nat.lt_of_le_of_lt ?_ hden)
        rcases Nat.eq_zero_or_pos num with rfl | hpos
        · simp
        · have hgrow := Nat.le_mul_of_pos_left den hpos
          refine Nat.sub_le_of_le_add (Nat.div_le_of_le_mul ?_)
          rw [Nat.mul_add, Nat.mul_one]
          omega
      have := Numeral.decimalLength_pos ((den + num - 1) / num - 1)
      omega

/-- So is the exponent of a number of units that is about as large. -/
theorem ofUnits_exponent_bounds {n a k m : Nat} {unit : Int} (hn : n ≤ a * tenDen unit + 1)
    (ha : a < 2 ^ k) (hunit : unit.natAbs ≤ m) :
    (ofUnits n unit).exponent.natAbs ≤ k + 5 * m + 1 := by
  have hten : tenDen unit ≤ 2 ^ (4 * m) := by
    calc tenDen unit ≤ 10 ^ m := Nat.pow_le_pow_right (by decide) (by omega)
      _ ≤ 16 ^ m := Nat.pow_le_pow_left (by decide) m
      _ = 2 ^ (4 * m) := (Nat.pow_mul 2 4 m).symm
  have hlt : n < 2 ^ (k + 4 * m + 1) := by
    have hproduct : a * tenDen unit < 2 ^ (k + 4 * m) := by
      rw [Nat.pow_add]
      exact Nat.lt_of_le_of_lt (Nat.mul_le_mul_left a hten)
        (Nat.mul_lt_mul_of_pos_right ha (Nat.two_pow_pos _))
    rw [Nat.pow_succ]
    omega
  have hlength : (Numeral.digits 10 n).length ≤ k + 4 * m + 1 :=
    Numeral.decimalLength_le (by omega) hlt
  have hpos : 0 < (Numeral.digits 10 n).length := Numeral.decimalLength_pos n
  simp only [ofUnits]
  omega

end Scientific

namespace Interval

theorem le_of_neighbour? {i : Interval} {tie : Tie} {unit : Int} {n : Nat}
    (h : i.neighbour? tie unit = some n) : n ≤ i.value * Scientific.tenDen unit + 1 := by
  have hquotient := Nat.div_le_self (i.value * Scientific.tenDen unit)
    (i.den * Scientific.tenNum unit)
  unfold neighbour? at h
  simp only at h
  split at h
  · cases h
  · cases h
    omega
  · cases h
    omega
  · split at h <;> cases h
    · omega
    · omega
    · omega
    · split <;> omega

end Interval

namespace Binary

variable {f : Format}

/-- **What the search for the shortest decimal comes to**, in every format: at least one digit, and
an exponent within the binary lengths of the quotient. -/
theorem shortest_spec (tie : Tie) (x : Binary f) {k : Nat} (hk : 0 < k)
    (hvalue : (Interval.ofBinary x).value < 2 ^ k) (hden : (Interval.ofBinary x).den < 2 ^ k) :
    (x.shortest tie).Proper ∧ (x.shortest tie).exponent.natAbs ≤ 6 * k + 81 := by
  have htop := Scientific.exponentOf_bounds hk hvalue hden
  unfold shortest
  split
  · exact ⟨⟨by simp [Scientific.zero], by simp [Scientific.zero]⟩, by simp [Scientific.zero]⟩
  · simp only
    split
    · next s hs =>
        obtain ⟨j, hj, hhit⟩ := List.exists_of_findSome?_eq_some hs
        obtain ⟨n, hn, rfl⟩ := Option.map_eq_some_iff.1 hhit
        have hrange : j < 17 := List.mem_range.1 hj
        have hbound := Scientific.ofUnits_exponent_bounds (m := k + 16)
          (Interval.le_of_neighbour? hn) hvalue (by omega)
        exact ⟨(Scientific.ofUnits_proper _ _).trimZeros, Nat.le_trans hbound (by omega)⟩
    · refine ⟨Scientific.rounded_proper _ _ _, ?_⟩
      unfold Scientific.rounded
      split
      · exact Nat.zero_le _
      · refine Nat.le_trans (Scientific.ofUnits_exponent_bounds (m := k + 16) ?_ hvalue ?_) ?_
        · exact Nat.le_trans (roundDiv_bounds _ _).2 (Nat.succ_le_succ (Nat.div_le_self _ _))
        · simp only [maxDigits]
          omega
        · omega

/-- The exponents of singles and doubles are small integers. -/
theorem shortest_of_isFinite (tie : Tie) {x : Binary f} (hbits : 2 ≤ 2 ^ f.exponentBits)
    (hshift : f.unitShift + 2 < f.fractionBits + 2 ^ f.exponentBits) (h : x.isFinite = true) :
    (x.shortest tie).Proper ∧
      (x.shortest tie).exponent.natAbs ≤ 6 * (f.fractionBits + 2 ^ f.exponentBits) + 81 := by
  have hexponent : f.fractionBits + 2 ^ f.exponentBits =
      f.fractionBits + (2 ^ f.exponentBits - 2) + 2 := by omega
  refine shortest_spec tie x (by omega) ?_ ?_
  · have hlt := f.magnitudeAt_strictMono (field_lt_of_isFinite h)
    rw [magnitudeAt_infinityField hbits] at hlt
    rw [Interval.ofBinary_value, hexponent, Nat.pow_add _ _ 2]
    omega
  · have hden : (Interval.ofBinary x).den = 2 ^ (f.unitShift + 2) := by
      rw [Nat.pow_add, Nat.mul_comm]
      rfl
    rw [hden]
    exact Nat.pow_lt_pow_right (by decide) hshift

end Binary

/-! ### Laying out anew -/

namespace ExponentText

open DecimalText

/-- The text before the first such character and the text behind it. -/
def splitOnce? (mark : Char) (cs : List Char) : Option (List Char × List Char) :=
  match cs.dropWhile (· != mark) with
  | [] => none
  | _ :: rest => some (cs.takeWhile (· != mark), rest)

/-- The slice up to a place, if the row is so long. -/
def front? (n : Nat) (cs : List Char) : Option (List Char) :=
  if n ≤ cs.length then some (cs.take n) else none

/-- The slice from a place on, if the row is so long. -/
def back? (n : Nat) (cs : List Char) : Option (List Char) :=
  if n ≤ cs.length then some (cs.drop n) else none

/-- An integer of thirty-two bits; what is none counts as zero. -/
def smallInteger (cs : List Char) : Int :=
  match exponentPart? cs with
  | some e => if -(2 ^ 31) ≤ e ∧ e < 2 ^ 31 then e else 0
  | none => 0

/-- Digits laid out for an exponent, with all slices checked. -/
def spread? (digits : List Char) (e : Int) : Option (List Char) := do
  if e < -4 ∨ 6 ≤ e then
    let first ← front? 1 digits
    let rest ← if 1 < digits.length then (back? 1 digits).map ('.' :: ·) else some []
    let sign := if e < 0 then '-' else '+'
    some (first ++ rest ++ 'e' :: sign :: (Numeral.zeroPadded 2 10 e.natAbs).toList)
  else if e < 0 then
    some ('0' :: '.' :: List.replicate (-e - 1).toNat '0' ++ digits)
  else
    let whole := e.toNat + 1
    if digits.length ≤ whole then
      some (digits ++ List.replicate (whole - digits.length) '0')
    else
      let ws ← front? whole digits
      let ps ← back? whole digits
      some (ws ++ '.' :: ps)

/-- The sign in front of a text and the text behind it. -/
def splitSign : List Char → Bool × List Char
  | '-' :: rest => (true, rest)
  | cs => (false, cs)

/-- The sign as it is written. -/
def signChars (negative : Bool) : List Char := if negative then ['-'] else []

/-- **A text in exponent notation laid out anew**: the exponent and the digits are taken out of it,
and the digits are spread for the exponent. -/
def relaid? (cs : List Char) : Option (List Char) :=
  let (mantissa, exponent) := (splitOnce? 'e' cs).getD (cs, ['0'])
  let (negative, mantissa) := splitSign mantissa
  (spread? (mantissa.filter Char.isDigit) (smallInteger exponent)).map (signChars negative ++ ·)

/-- **Sign and magnitude of a number as it is written.** -/
def denoted? (cs : List Char) : Option (Bool × ℚ) :=
  let (negative, unsigned) := splitSign cs
  (parse? unsigned).map fun d => (negative, d.rational)

/-- A number in exponent notation: the sign, one digit before the point, any digits behind it, and
the exponent without a plus sign. -/
def text (negative : Bool) (d : Nat) (ps : List Nat) (n : Int) : List Char :=
  signChars negative ++ chars [d] ps ++ 'e' :: (Numeral.writeInt 10 n).toList

/-! ### Taking exponent notation apart -/

theorem splitOnce?_append {mark : Char} {cs rest : List Char} (h : mark ∉ cs) :
    splitOnce? mark (cs ++ mark :: rest) = some (cs, rest) := by
  have hall : ∀ c ∈ cs, (c != mark) = true := by
    intro c hc
    simpa using fun heq : c = mark => h (heq ▸ hc)
  rw [splitOnce?, List.dropWhile_append_of_pos hall, List.takeWhile_append_of_pos hall]
  simp

theorem isDigit_of_mem_map {ds : List Nat} (h : ∀ d ∈ ds, d < 10) {c : Char}
    (hc : c ∈ ds.map Numeral.digitChar) : c.isDigit = true := by
  obtain ⟨d, hd, rfl⟩ := List.mem_map.1 hc
  exact Numeral.isDigit_digitChar (h d hd)

theorem not_mem_chars {ws ps : List Nat} (h : ∀ d ∈ ws ++ ps, d < 10) : 'e' ∉ chars ws ps := by
  have hdigit {ds : List Nat} (hds : ∀ d ∈ ds, d ∈ ws ++ ps) : 'e' ∉ ds.map Numeral.digitChar :=
    fun he => absurd (isDigit_of_mem_map (fun d hd => h d (hds d hd)) he) (by decide)
  rw [chars, List.mem_append, not_or]
  refine ⟨hdigit fun d hd => List.mem_append_left _ hd, ?_⟩
  split
  · exact List.not_mem_nil
  · rw [List.mem_cons, not_or]
    exact ⟨by decide, hdigit fun d hd => List.mem_append_right _ hd⟩

theorem filter_chars {ws ps : List Nat} (h : ∀ d ∈ ws ++ ps, d < 10) :
    (chars ws ps).filter Char.isDigit = (ws ++ ps).map Numeral.digitChar := by
  have hdigits {ds : List Nat} (hds : ∀ d ∈ ds, d ∈ ws ++ ps) :
      (ds.map Numeral.digitChar).filter Char.isDigit = ds.map Numeral.digitChar :=
    List.filter_eq_self.2 fun c hc => isDigit_of_mem_map (fun d hd => h d (hds d hd)) hc
  have hws := hdigits fun d (hd : d ∈ ws) => List.mem_append_left ps hd
  have hps := hdigits fun d (hd : d ∈ ps) => List.mem_append_right ws hd
  have hpoint : Char.isDigit '.' = false := by decide
  cases ps with
  | nil => simp [chars, hws]
  | cons p ps =>
      rw [Scalar.chars_of_ne_nil _ (by simp), List.filter_append, List.filter_cons, hpoint, hws,
        hps, List.map_append]
      rfl

theorem exponentPart?_digits {ds : List Nat} (hne : ds ≠ []) (h : ∀ d ∈ ds, d < 10) :
    exponentPart? (ds.map Numeral.digitChar) = some (Numeral.ofDigits 10 ds : Int) := by
  have hspan := spanDigits_append h (show Stops Char.isDigit [] by simp [Stops])
  rw [List.append_nil] at hspan
  cases ds with
  | nil => exact absurd rfl hne
  | cons d ds =>
      have hdigit := Numeral.isDigit_digitChar (h d (by simp))
      have hminus : Numeral.digitChar d ≠ '-' := by
        intro heq
        rw [heq] at hdigit
        exact absurd hdigit (by decide)
      have hplus : Numeral.digitChar d ≠ '+' := by
        intro heq
        rw [heq] at hdigit
        exact absurd hdigit (by decide)
      rw [List.map_cons] at hspan ⊢
      simp only [exponentPart?, hminus, hplus, if_false, hspan]
      rw [← List.map_cons, number_map h]
      simp

theorem exponentPart?_writeInt (n : Int) :
    exponentPart? (Numeral.writeInt 10 n).toList = some n := by
  have hne : Numeral.digits 10 n.natAbs ≠ [] := Numeral.digits_ne_nil (by decide) _
  have hdigits : ∀ d ∈ Numeral.digits 10 n.natAbs, d < 10 :=
    fun d hd => Numeral.lt_of_mem_digits (by decide) hd
  have hwrite : (Numeral.write 10 n.natAbs).toList =
      (Numeral.digits 10 n.natAbs).map Numeral.digitChar := String.toList_ofList
  have hvalue := Numeral.ofDigits_digits (show 2 ≤ 10 by decide) n.natAbs
  unfold Numeral.writeInt
  split
  · have hsign := exponentPart?_sign true hne hdigits
    rw [hvalue] at hsign
    rw [String.toList_append, hwrite]
    exact hsign.trans (congr_arg some (by simp only [if_true]; omega))
  · rw [hwrite, exponentPart?_digits hne hdigits, hvalue]
    exact congr_arg some (by omega)

theorem head?_ne_of_parse? {cs : List Char} {d : DecimalText} (h : parse? cs = some d) :
    cs.head? ≠ some '-' := by
  intro hminus
  obtain ⟨rest, rfl⟩ := List.head?_eq_some_iff.1 hminus
  have hspan : spanDigits ('-' :: rest) = ([], '-' :: rest) := rfl
  simp [parse?, hspan] at h

theorem splitSign_signChars {negative : Bool} {cs : List Char} (h : cs.head? ≠ some '-') :
    splitSign (signChars negative ++ cs) = (negative, cs) := by
  cases negative with
  | true => rfl
  | false =>
      change splitSign cs = _
      unfold splitSign
      split
      · simp at h
      · rfl

/-! ### Spreading the digits -/

/-- The exponents that are not written out. -/
def Small (e : Int) : Prop := -4 ≤ e ∧ e < 6

instance (e : Int) : Decidable (Small e) := inferInstanceAs (Decidable (_ ∧ _))

theorem layout_of_small {s : Scientific} (h : Small s.exponent) :
    Scalar.layout s = Scalar.positional s :=
  if_neg (by simp only [Small, Scalar.leastPositional, Scalar.leastExponential] at h ⊢; omega)

theorem layout_of_not_small {s : Scientific} (h : ¬Small s.exponent) :
    Scalar.layout s = s.mantissa ++ "e" ++ Scalar.exponentText s.exponent :=
  if_pos (by simp only [Small, Scalar.leastPositional, Scalar.leastExponential] at h ⊢; omega)

theorem toList_exponentText (e : Int) :
    (Scalar.exponentText e).toList =
      (if e < 0 then '-' else '+') :: (Numeral.zeroPadded 2 10 e.natAbs).toList := by
  rw [Scalar.exponentText, String.toList_append]
  split <;> rfl

/-- **Every slice is within the digits**, and the layout of the decimal comes out. -/
theorem spread?_digits {s : Scientific} (h : s.Proper) :
    spread? (s.digits.map Numeral.digitChar) s.exponent = some (Scalar.layout s).toList := by
  by_cases hsmall : Small s.exponent
  · have hbranch : ¬(s.exponent < -4 ∨ 6 ≤ s.exponent) := by
      simp only [Small] at hsmall
      omega
    rw [layout_of_small hsmall, spread?, if_neg hbranch]
    unfold Scalar.positional
    split
    · simp [Scalar.toList_zeros, Scalar.toList_digitText, Numeral.digitChar]
    · simp only [List.length_map]
      split
      · simp [Scalar.toList_zeros, Scalar.toList_digitText, Numeral.digitChar]
      · next hlong =>
          have hle : s.exponent.toNat + 1 ≤ s.digits.length := by omega
          simp [front?, back?, hle, Scalar.toList_digitText, List.map_take, List.map_drop]
  · have hbranch : s.exponent < -4 ∨ 6 ≤ s.exponent := by
      simp only [Small] at hsmall
      omega
    obtain ⟨d, ps, hdigits, hmantissa⟩ := Scalar.mantissa_eq h
    rw [layout_of_not_small hsmall, String.toList_append, String.toList_append, hmantissa,
      toList_exponentText, hdigits, spread?, if_pos hbranch]
    cases ps with
    | nil => simp [front?, chars]
    | cons p ps => simp [front?, back?, chars]

/-- **Exponent notation is laid out anew** without going beyond the digits. -/
theorem relaid?_text (negative : Bool) {d : Nat} {ps : List Nat} (h : ∀ k ∈ d :: ps, k < 10)
    {n : Int} (hn : n.natAbs < 2 ^ 31) :
    relaid? (text negative d ps n) =
      some (signChars negative ++ (Scalar.layout ⟨d :: ps, n⟩).toList) := by
  have hmark : 'e' ∉ signChars negative ++ chars [d] ps := by
    rw [List.mem_append, not_or]
    refine ⟨?_, not_mem_chars h⟩
    cases negative <;> decide
  have hhead : (chars [d] ps).head? ≠ some '-' :=
    head?_ne_of_parse? (parse?_chars (List.cons_ne_nil d []) h)
  have hinteger : smallInteger (Numeral.writeInt 10 n).toList = n := by
    rw [smallInteger, exponentPart?_writeInt]
    exact if_pos (by omega)
  have hproper : Scientific.Proper ⟨d :: ps, n⟩ := ⟨List.cons_ne_nil d ps, h⟩
  have hspread := spread?_digits hproper
  simp only [relaid?, text, splitOnce?_append hmark, Option.getD_some, splitSign_signChars hhead,
    hinteger]
  rw [filter_chars h, List.singleton_append, hspread, Option.map_some]

/-! ### What is written -/

theorem denoted?_signChars (negative : Bool) {cs : List Char} {d : DecimalText}
    (h : parse? cs = some d) :
    denoted? (signChars negative ++ cs) = some (negative, d.rational) := by
  simp only [denoted?, splitSign_signChars (head?_ne_of_parse? h), h, Option.map_some]

theorem denoted?_text (negative : Bool) {d : Nat} {ps : List Nat} (h : ∀ k ∈ d :: ps, k < 10)
    (n : Int) :
    denoted? (text negative d ps n) = some (negative, Scientific.value ⟨d :: ps, n⟩) := by
  have hproper : Scientific.Proper ⟨d :: ps, n⟩ := ⟨List.cons_ne_nil d ps, h⟩
  have hspelled := hproper.spelled_head rfl
  have hparse := parse?_chars_exponent hspelled.ne_nil h (exponentPart?_writeInt n)
  rw [text, List.append_assoc, denoted?_signChars negative hparse, hspelled.value]
  rfl

theorem not_mem_signChars (negative : Bool) : 'e' ∉ signChars negative := by
  cases negative <;> decide

/-- At least two digits stand for the exponent. -/
theorem exists_exponent_digits (n : Nat) :
    ∃ es : List Nat, 2 ≤ es.length ∧ (∀ k ∈ es, k < 10) ∧ Numeral.ofDigits 10 es = n ∧
      (Numeral.zeroPadded 2 10 n).toList = es.map Numeral.digitChar := by
  refine ⟨List.replicate (2 - (Numeral.digits 10 n).length) 0 ++ Numeral.digits 10 n,
    ?_, ?_, ?_, ?_⟩
  · rw [List.length_append, List.length_replicate]
    omega
  · intro k hk
    rcases List.mem_append.1 hk with hk | hk
    · exact Scientific.lt_ten_of_mem_zeros hk
    · exact Numeral.lt_of_mem_digits (by decide) hk
  · rw [Numeral.ofDigits_append, Numeral.ofDigits_replicate_zero, Nat.zero_mul, Nat.zero_add,
      Numeral.ofDigits_digits (by decide)]
  · simp [Numeral.zeroPadded, Numeral.writeChars, Numeral.clampRadix, Numeral.digitChar]

/-- **What a text in the notation of values says**: the number that exponent notation says, plain
exactly for small exponents, and otherwise with the same digits and the exponent behind them. -/
structure Says (negative : Bool) (d : Nat) (ps : List Nat) (n : Int) (cs : List Char) : Prop where
  denotes : ∃ q, denoted? (text negative d ps n) = some (negative, q) ∧
    denoted? cs = some (negative, q)
  plain_iff : 'e' ∉ cs ↔ -4 ≤ n ∧ n < 6
  plain : -4 ≤ n ∧ n < 6 → ∃ ws vs : List Nat, ws ≠ [] ∧ (∀ k ∈ ws ++ vs, k < 10) ∧
    cs = signChars negative ++ chars ws vs
  exponential : ¬(-4 ≤ n ∧ n < 6) → ∃ es : List Nat, 2 ≤ es.length ∧ (∀ k ∈ es, k < 10) ∧
    Numeral.ofDigits 10 es = n.natAbs ∧
    cs = signChars negative ++ chars [d] ps ++
      'e' :: (if n < 0 then '-' else '+') :: es.map Numeral.digitChar

/-- **A decimal laid out says what its exponent notation says.** -/
theorem says_layout (negative : Bool) {d : Nat} {ps : List Nat} (h : ∀ k ∈ d :: ps, k < 10)
    (n : Int) :
    Says negative d ps n (signChars negative ++ (Scalar.layout ⟨d :: ps, n⟩).toList) := by
  have hproper : Scientific.Proper ⟨d :: ps, n⟩ := ⟨List.cons_ne_nil d ps, h⟩
  obtain ⟨decimal, hparse, hvalue⟩ := Scalar.parse?_layout hproper
  have hdenotes := denoted?_signChars negative hparse
  rw [hvalue] at hdenotes
  by_cases hsmall : Small n
  · obtain ⟨ws, vs, hspelled, hchars⟩ := Scalar.positional_cases hproper
    rw [← layout_of_small hsmall] at hchars
    refine ⟨⟨_, denoted?_text negative h n, hdenotes⟩, iff_of_true ?_ hsmall, fun _ => ?_,
      fun hlarge => absurd hsmall hlarge⟩
    · rw [hchars, List.mem_append, not_or]
      exact ⟨not_mem_signChars negative, not_mem_chars hspelled.lt_ten⟩
    · exact ⟨ws, vs, hspelled.ne_nil, hspelled.lt_ten, by rw [hchars]⟩
  · obtain ⟨d', ps', hdigits, hmantissa⟩ := Scalar.mantissa_eq hproper
    obtain ⟨rfl, rfl⟩ := List.cons.inj hdigits
    obtain ⟨es, hlength, hes, hvalue, hexponent⟩ := exists_exponent_digits n.natAbs
    have hchars : (Scalar.layout ⟨d :: ps, n⟩).toList =
        chars [d] ps ++ 'e' :: (if n < 0 then '-' else '+') :: es.map Numeral.digitChar := by
      rw [layout_of_not_small hsmall, String.toList_append, String.toList_append, hmantissa,
        toList_exponentText, hexponent]
      simp
    refine ⟨⟨_, denoted?_text negative h n, hdenotes⟩, iff_of_false ?_ hsmall,
      fun h => absurd h hsmall, fun _ => ⟨es, hlength, hes, hvalue, ?_⟩⟩
    · rw [hchars]
      simp
    · rw [hchars, List.append_assoc]

end ExponentText

/-! ### Values that are finite at their width -/

namespace Binary

/-- Finite after rounding to a width. -/
def FiniteAt (x : Double) : FloatWidth → Prop
  | .double => x.isFinite = true
  | .single => x.narrow.isFinite = true

theorem FiniteAt.isFinite {x : Double} {w : FloatWidth} (h : x.FiniteAt w) : x.isFinite = true :=
  match w, h with
  | .double, h => h
  | .single, h => isFinite_of_isFinite_narrow h

end Binary

namespace Scalar

open Binary ExponentText

/-- The exponent notation of a finite datum. -/
theorem toList_exponential {f : Format} {y : Binary f} (h : y.isFinite = true) {d : Nat}
    {ps : List Nat} {n : Int} (hdigits : ∀ k ∈ d :: ps, k < 10)
    (hshortest : y.shortest .up = ⟨d :: ps, n⟩) :
    (Layout.exponential {} false y).toList = text y.negative d ps n := by
  obtain ⟨hnan, hinfinite⟩ := isFinite_iff.1 h
  have hproper : Scientific.Proper ⟨d :: ps, n⟩ := ⟨List.cons_ne_nil d ps, hdigits⟩
  obtain ⟨d', ps', hcons, hmantissa⟩ := mantissa_eq hproper
  obtain ⟨rfl, rfl⟩ := List.cons.inj hcons
  have hexponential : Layout.exponential {} false y =
      (if y.negative then "-" else "") ++ Layout.scientificText false ⟨d :: ps, n⟩ := by
    simp [Layout.exponential, hnan, hinfinite, hshortest, Layout.signed, Layout.signOf,
      Layout.fillUp]
  have hsign : (if y.negative then "-" else "").toList = signChars y.negative := by
    cases y.negative <;> rfl
  simp [hexponential, hsign, Layout.scientificText, Layout.exponentLetter, hmantissa, text]

/-- **A finite datum in both notations**, where the format has small exponents only. -/
theorem exponential_says {f : Format} {y : Binary f} (hbits : 2 ≤ 2 ^ f.exponentBits)
    (hshift : f.unitShift + 2 < f.fractionBits + 2 ^ f.exponentBits)
    (hfits : 6 * (f.fractionBits + 2 ^ f.exponentBits) + 81 < 2 ^ 31) (h : y.isFinite = true) :
    let cs := (Layout.exponential {} false y).toList
    let written := signChars y.negative ++ (layout (significant y)).toList
    ∃ (d : Nat) (ps : List Nat) (n : Int), (∀ k ∈ d :: ps, k < 10) ∧
      cs = text y.negative d ps n ∧ relaid? cs = some written ∧ Says y.negative d ps n written := by
  intro cs written
  obtain ⟨hproper, hexponent⟩ := shortest_of_isFinite .up hbits hshift h
  have hsignificant : significant y = y.shortest .up := if_pos h
  simp only [written, hsignificant]
  generalize hs : y.shortest .up = s at hproper hexponent
  obtain ⟨digits, n⟩ := s
  obtain ⟨d, ps, rfl⟩ := List.exists_cons_of_ne_nil hproper.ne_nil
  have hcs : cs = text y.negative d ps n := toList_exponential h hproper.lt_ten hs
  rw [hcs]
  exact ⟨d, ps, n, hproper.lt_ten, rfl,
    relaid?_text _ hproper.lt_ten (Nat.lt_of_le_of_lt hexponent hfits),
    says_layout _ hproper.lt_ten n⟩

theorem exponential_says_at {x : Double} {w : FloatWidth} (h : x.FiniteAt w) :
    let written := signChars x.negative ++ (layout (atWidth x w)).toList
    ∃ (t : String) (d : Nat) (ps : List Nat) (n : Int),
      Verb.float? .lowerExp {} x w = some t ∧ (∀ k ∈ d :: ps, k < 10) ∧
      t.toList = text x.negative d ps n ∧ relaid? t.toList = some written ∧
      Says x.negative d ps n written := by
  cases w with
  | double =>
      obtain ⟨d, ps, n, hsays⟩ := exponential_says (y := x) (by decide) (by decide) (by decide) h
      exact ⟨_, d, ps, n, rfl, hsays⟩
  | single =>
      obtain ⟨d, ps, n, hsays⟩ :=
        exponential_says (y := x.narrow) (by decide) (by decide) (by decide) h
      rw [negative_narrow] at hsays
      exact ⟨_, d, ps, n, rfl, hsays⟩

/-- **The text of a value is its exponent notation laid out anew.**  If the value is finite at its
width, no slice of the digits goes beyond them, and the text says what exponent notation says: it
has the same sign, stands for the same number, is plain for the exponents from minus four to five
and has the digits of exponent notation otherwise. -/
theorem float_denotes_exponent_text {x : Double} {w : FloatWidth} (h : x.FiniteAt w) :
    ∃ (t : String) (d : Nat) (ps : List Nat) (n : Int),
      Verb.float? .lowerExp {} x w = some t ∧
      (∀ k ∈ d :: ps, k < 10) ∧ t.toList = text x.negative d ps n ∧
      relaid? t.toList = some (float x w).toList ∧
      Says x.negative d ps n (float x w).toList := by
  have hfloat : (float x w).toList = signChars x.negative ++ (layout (atWidth x w)).toList := by
    rw [float_of_isFinite h.isFinite, String.toList_append]
    cases x.negative <;> rfl
  rw [hfloat]
  exact exponential_says_at h

/-- The smallest double above zero, with a minus sign. -/
def least : Double := ⟨true, ⟨1, by decide⟩⟩

/-- Minus the smallest double is written with the digits of its exponent notation. -/
theorem least_denotes_exponent_text :
    least.FiniteAt .double ∧
      ∃ (t : String) (d : Nat) (ps : List Nat) (n : Int),
        Verb.float? .lowerExp {} least .double = some t ∧
        (∀ k ∈ d :: ps, k < 10) ∧ t.toList = text true d ps n ∧
        relaid? t.toList = some (float least .double).toList ∧
        Says true d ps n (float least .double).toList :=
  have hfinite : least.FiniteAt .double := show least.isFinite = true by decide
  ⟨hfinite, float_denotes_exponent_text hfinite⟩

end Scalar

end ValueLens
