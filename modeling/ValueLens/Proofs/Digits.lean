/-
**Digits of a number.**

The digits of a positive number are its digits in the library's order, read from the other end, so
that what is known about those carries over.  Digits stand for the number they come from, and a
number with a given count of digits lies between two neighbouring powers of the radix.  The
characters of a numeral give back the digits one by one, so that different numbers have different
numerals.

Main results:

* `ValueLens.Numeral.digits_eq_reverse`, `ValueLens.Numeral.ofDigits_eq` — digits and their value in
  the terms of the library;
* `ValueLens.Numeral.ofDigits_digits` — **the digits of a number stand for it**;
* `ValueLens.Numeral.pow_le_of_decimalLength`, `ValueLens.Numeral.lt_pow_decimalLength` — how large
  a number of so many digits is;
* `ValueLens.Numeral.writeChars_injective` — **different numbers have different numerals**;
* `ValueLens.Numeral.read?_map_digitChar` — digits are read back as the number they stand for;
* `ValueLens.Numeral.read?_zeros_writeChars` — **a numeral is read back as its number**, also with
  zeros in front of it.
-/
import Mathlib.Data.Nat.Digits.Lemmas
import ValueLens.Numeral

set_option relaxedAutoImplicit false
set_option autoImplicit false

namespace ValueLens.Numeral

variable {radix : Nat}

/-! ### Digits -/

theorem digitsFrom_eq_reverse (hr : 2 ≤ radix) {fuel n : Nat} (hn : 0 < n) (hfuel : n ≤ fuel) :
    digitsFrom radix fuel n = (Nat.digits radix n).reverse := by
  induction fuel generalizing n with
  | zero => omega
  | succ fuel ih =>
      unfold digitsFrom
      split
      · next hlt => rw [Nat.digits_of_lt radix n (by omega) hlt, List.reverse_singleton]
      · next hge =>
          have hpos : 0 < n / radix := Nat.div_pos (by omega) (by omega)
          have hless : n / radix < n := Nat.div_lt_self hn (by omega)
          rw [Nat.digits_of_two_le_of_pos hr hn, List.reverse_cons, ih hpos (by omega)]

/-- **The digits of a positive number** are those of the library from the other end. -/
theorem digits_eq_reverse (hr : 2 ≤ radix) {n : Nat} (hn : 0 < n) :
    digits radix n = (Nat.digits radix n).reverse :=
  digitsFrom_eq_reverse hr hn (Nat.le_refl n)

@[simp] theorem digits_zero (radix : Nat) : digits radix 0 = [0] := rfl

theorem ofDigits_eq (radix : Nat) (ds : List Nat) :
    ofDigits radix ds = Nat.ofDigits radix ds.reverse := by
  rw [Nat.ofDigits_eq_foldr, List.foldr_reverse, ofDigits]
  congr 1
  funext n d
  simp [Nat.mul_comm, Nat.add_comm]

/-- **The digits of a number stand for it.** -/
theorem ofDigits_digits (hr : 2 ≤ radix) (n : Nat) : ofDigits radix (digits radix n) = n := by
  rcases Nat.eq_zero_or_pos n with rfl | hn
  · simp [ofDigits]
  · rw [ofDigits_eq, digits_eq_reverse hr hn, List.reverse_reverse, Nat.ofDigits_digits]

theorem lt_of_mem_digits (hr : 2 ≤ radix) {n d : Nat} (h : d ∈ digits radix n) : d < radix := by
  rcases Nat.eq_zero_or_pos n with rfl | hn
  · rw [digits_zero, List.mem_singleton] at h
    omega
  · rw [digits_eq_reverse hr hn, List.mem_reverse] at h
    exact Nat.digits_lt_base hr h

theorem digits_ne_nil (hr : 2 ≤ radix) (n : Nat) : digits radix n ≠ [] := by
  rcases Nat.eq_zero_or_pos n with rfl | hn
  · simp
  · rw [digits_eq_reverse hr hn]
    simp only [ne_eq, List.reverse_eq_nil_iff]
    exact Nat.digits_ne_nil_iff_ne_zero.2 (by omega)

/-! ### Values of digit lists -/

theorem ofDigits_append (radix : Nat) (ds es : List Nat) :
    ofDigits radix (ds ++ es) = ofDigits radix ds * radix ^ es.length + ofDigits radix es := by
  rw [ofDigits_eq, List.reverse_append, Nat.ofDigits_append, ← ofDigits_eq, ← ofDigits_eq,
    List.length_reverse, Nat.mul_comm, Nat.add_comm]

theorem ofDigits_replicate_zero (radix k : Nat) : ofDigits radix (List.replicate k 0) = 0 := by
  rw [ofDigits_eq, List.reverse_replicate, Nat.ofDigits_replicate_zero]

theorem ofDigits_lt (hr : 2 ≤ radix) {ds : List Nat} (h : ∀ d ∈ ds, d < radix) :
    ofDigits radix ds < radix ^ ds.length := by
  rw [ofDigits_eq, ← List.length_reverse]
  exact Nat.ofDigits_lt_base_pow_length hr fun d hd => h d (List.mem_reverse.1 hd)

/-! ### How many digits a number has -/

theorem lt_pow_decimalLength (n : Nat) : n < 10 ^ decimalLength n := by
  have hr : 2 ≤ 10 := by decide
  have h : ofDigits 10 (digits 10 n) < 10 ^ decimalLength n :=
    ofDigits_lt hr fun d hd => lt_of_mem_digits hr hd
  rwa [ofDigits_digits hr] at h

theorem decimalLength_pos (n : Nat) : 0 < decimalLength n :=
  List.length_pos_of_ne_nil (digits_ne_nil (by decide) n)

theorem pow_le_of_decimalLength {n : Nat} (hn : 0 < n) : 10 ^ (decimalLength n - 1) ≤ n := by
  have hlength : decimalLength n = (Nat.digits 10 n).length := by
    rw [decimalLength, digits_eq_reverse (by decide) hn, List.length_reverse]
  have hpow : 10 ^ decimalLength n ≤ 10 * n := by
    rw [hlength]
    exact Nat.base_pow_length_digits_le 10 n (by decide) (by omega)
  have hsucc : 10 ^ decimalLength n = 10 * 10 ^ (decimalLength n - 1) := by
    rw [← Nat.pow_succ', Nat.succ_eq_add_one, Nat.sub_add_cancel (decimalLength_pos n)]
  omega

/-! ### Characters -/

theorem toList_pushn (c : Char) (n : Nat) : ("".pushn c n).toList = List.replicate n c := by
  unfold String.pushn
  induction n with
  | zero => rfl
  | succ n ih => simp [Nat.repeat, ih, List.replicate_succ']

theorem digitValue?_digitChar {d : Nat} (h : d < 36) : digitValue? (digitChar d) = some d := by
  revert d
  decide

theorem isDigit_digitChar {d : Nat} (h : d < 10) : (digitChar d).isDigit = true := by
  revert d
  decide

theorem toNat_digitChar {d : Nat} (h : d < 10) : (digitChar d).toNat - '0'.toNat = d := by
  revert d
  decide

theorem clampRadix_bounds (radix : Nat) : 2 ≤ clampRadix radix ∧ clampRadix radix ≤ 36 := by
  simp only [clampRadix]
  omega

/-- Every character of a numeral is a digit of some radix. -/
theorem isSome_digitValue?_of_mem {n : Nat} {c : Char} (h : c ∈ writeChars radix n) :
    (digitValue? c).isSome := by
  obtain ⟨d, hd, rfl⟩ := List.mem_map.1 h
  have hlt : d < clampRadix radix := lt_of_mem_digits (clampRadix_bounds radix).1 hd
  rw [digitValue?_digitChar (Nat.lt_of_lt_of_le hlt (clampRadix_bounds radix).2)]
  rfl

theorem isDigit_of_mem {n : Nat} {c : Char} (h : c ∈ writeChars 10 n) : c.isDigit = true := by
  obtain ⟨d, hd, rfl⟩ := List.mem_map.1 h
  exact isDigit_digitChar (lt_of_mem_digits (by decide) hd)

theorem writeChars_ne_nil (radix n : Nat) : writeChars radix n ≠ [] := by
  simpa [writeChars] using digits_ne_nil (clampRadix_bounds radix).1 n

/-- Read one by one, the characters of a numeral give back the digits. -/
theorem map_digitValue?_writeChars (radix n : Nat) :
    (writeChars radix n).map digitValue? = (digits (clampRadix radix) n).map some := by
  rw [writeChars, List.map_map]
  refine List.map_congr_left fun d hd => ?_
  have hlt : d < clampRadix radix := lt_of_mem_digits (clampRadix_bounds radix).1 hd
  exact digitValue?_digitChar (Nat.lt_of_lt_of_le hlt (clampRadix_bounds radix).2)

/-- **Different numbers have different numerals.** -/
theorem writeChars_injective {n m : Nat} (h : writeChars radix n = writeChars radix m) : n = m := by
  have hdigits : digits (clampRadix radix) n = digits (clampRadix radix) m := by
    refine List.map_injective_iff.2 (Option.some_injective Nat) ?_
    rw [← map_digitValue?_writeChars, ← map_digitValue?_writeChars, h]
  rw [← ofDigits_digits (clampRadix_bounds radix).1 n, hdigits,
    ofDigits_digits (clampRadix_bounds radix).1]

/-! ### Reading -/

theorem mapM_digitValue? {ds : List Nat} (h : ∀ d ∈ ds, d < 36) :
    (ds.map digitChar).mapM digitValue? = some ds := by
  induction ds with
  | nil => rfl
  | cons d ds ih =>
      have hrest := ih fun d' hd' => h d' (List.mem_cons_of_mem _ hd')
      rw [List.map_cons, List.mapM_cons, digitValue?_digitChar (h d List.mem_cons_self), hrest]
      rfl

/-- **Digits are read back as the number they stand for.** -/
theorem read?_map_digitChar {ds : List Nat} (hr : radix ≤ 36) (hne : ds ≠ [])
    (h : ∀ d ∈ ds, d < radix) : read? radix (ds.map digitChar) = some (ofDigits radix ds) := by
  have hchars := mapM_digitValue? fun d hd => Nat.lt_of_lt_of_le (h d hd) hr
  have hall : ds.all (· < radix) = true := by simpa using h
  rw [read?, if_neg (by simpa using hne), hchars]
  change (if ds.all (· < radix) = true then _ else _) = _
  rw [if_pos hall]

/-- **A numeral is read back as its number**, also with zeros in front of it. -/
theorem read?_zeros_writeChars (radix zeros n : Nat) :
    read? (clampRadix radix) (List.replicate zeros '0' ++ writeChars radix n) = some n := by
  obtain ⟨hr, hle⟩ := clampRadix_bounds radix
  have hchars : List.replicate zeros '0' ++ writeChars radix n =
      (List.replicate zeros 0 ++ digits (clampRadix radix) n).map digitChar := by
    rw [writeChars, List.map_append, List.map_replicate]
    rfl
  have hne : List.replicate zeros 0 ++ digits (clampRadix radix) n ≠ [] := by
    simp [digits_ne_nil hr n]
  have hlt : ∀ d ∈ List.replicate zeros 0 ++ digits (clampRadix radix) n,
      d < clampRadix radix := by
    intro d hd
    rcases List.mem_append.1 hd with hd | hd
    · rw [List.eq_of_mem_replicate hd]
      omega
    · exact lt_of_mem_digits hr hd
  rw [hchars, read?_map_digitChar hle hne hlt, ofDigits_append, ofDigits_replicate_zero,
    Nat.zero_mul, Nat.zero_add, ofDigits_digits hr]

theorem read?_writeChars (radix n : Nat) :
    read? (clampRadix radix) (writeChars radix n) = some n :=
  read?_zeros_writeChars radix 0 n

end ValueLens.Numeral
