/-
**Numerals out of a buffer.**

The digits of an integer come out of division by the radix last digit first, so they are put into a
buffer from its end, and the filled part of the buffer is the numeral.  A buffer of sixty-four
places is enough for every integer of sixty-four bits in every radix, because in the smallest radix
a digit is a bit.  What the buffer holds in the end is the numeral as it is defined, and in the
decimal system it is also what the library writes for a number.

A numeral determines the integer: behind an optional minus sign stand digits below the radix, the
first of them is zero for the number zero only, and read in the radix they give the integer back.

Main definitions:

* `ValueLens.Numeral.fill?`, `ValueLens.Numeral.fromBuffer?` — the loop over a buffer, with every
  place and every digit checked;
* `ValueLens.Numeral.readInt?` — reading a sign and digits;
* `ValueLens.Numeral.IsNumeralOf` — what the text of an integer looks like.

Main results:

* `ValueLens.Numeral.fill?_eq` — **the loop finds a place for every digit**;
* `ValueLens.Numeral.write_ten` — decimal numerals are those of the library;
* `ValueLens.Scalar.integers_written_in_every_radix` — integers can be read back in every radix,
  and the buffer holds their numerals.
-/
import ValueLens.Proofs.Digits
import ValueLens.Scalar

set_option relaxedAutoImplicit false
set_option autoImplicit false

namespace ValueLens

namespace Numeral

variable {radix : Nat}

/-! ### The first and the last digit -/

theorem digits_of_lt {n : Nat} (h : n < radix) : digits radix n = [n] := by
  unfold digits
  cases n with
  | zero => rfl
  | succ n => exact if_pos h

/-- The last digit is the remainder, and the digits before it are those of the quotient. -/
theorem digits_of_le (hr : 2 ≤ radix) {n : Nat} (h : radix ≤ n) :
    digits radix n = digits radix (n / radix) ++ [n % radix] := by
  have hquotient : 0 < n / radix := Nat.div_pos h (by omega)
  rw [digits_eq_reverse hr (by omega), digits_eq_reverse hr hquotient,
    Nat.digits_of_two_le_of_pos hr (by omega), List.reverse_cons]

/-- **No zero stands in front** of a number that is not zero. -/
theorem head?_digits_ne_zero (hr : 2 ≤ radix) {n : Nat} (hn : 0 < n) :
    (digits radix n).head? ≠ some 0 := by
  have hne : Nat.digits radix n ≠ [] := Nat.digits_ne_nil_iff_ne_zero.2 (by omega)
  rw [digits_eq_reverse hr hn, List.head?_reverse, List.getLast?_eq_some_getLast hne]
  intro hzero
  exact Nat.getLast_digit_ne_zero radix (by omega) (Option.some.inj hzero)

/-! ### The buffer -/

/-- The characters of the digits. -/
def alphabet : List Char := "0123456789abcdefghijklmnopqrstuvwxyz".toList

/-- A place for every bit of an integer. -/
abbrev Buffer := Vector Char 64

/-- Puts a character into a place, if there is such a place. -/
def store? (buffer : Buffer) (place : Nat) (c : Char) : Option Buffer :=
  if h : place < 64 then some (buffer.set place c h) else none

/-- **The digit loop**: puts the digits of `rest` into the places before `pos`, the last digit
first, and gives the place of the first one.  There is no result if a digit has no character or if
the places run out. -/
def fill? (radix : UInt64) : Nat → UInt64 → Buffer → Option (Nat × Buffer)
  | 0, _, _ => none
  | pos + 1, rest, buffer => do
      let c ← alphabet[(rest % radix).toNat]?
      let buffer ← store? buffer pos c
      if rest / radix = 0 then some (pos, buffer) else fill? radix pos (rest / radix) buffer

/-- The filled part of the buffer. -/
def fromBuffer? (radix : Nat) (n : UInt64) : Option String :=
  (fill? (UInt64.ofNat (clampRadix radix)) 64 n (Vector.replicate 64 ' ')).map
    fun (pos, buffer) => String.ofList (buffer.toList.drop pos)

theorem getElem?_alphabet {d : Nat} (h : d < 36) : alphabet[d]? = some (digitChar d) := by
  revert d
  decide

/-- What is put in front of the filled part belongs to it. -/
theorem drop_set {pos : Nat} (h : pos < 64) (buffer : Buffer) (c : Char) :
    (buffer.set pos c h).toList.drop pos = c :: buffer.toList.drop (pos + 1) := by
  have hlength : pos < (buffer.toList.set pos c).length := by simpa using h
  rw [Vector.toList_set, List.drop_eq_getElem_cons hlength, List.getElem_set_self,
    List.drop_set_of_lt (Nat.lt_succ_self pos)]

/-- One turn of the loop, where there is a place left. -/
theorem fill?_succ {radix : UInt64} (hr : 2 ≤ radix.toNat) (hle : radix.toNat ≤ 36) {pos : Nat}
    (hpos : pos < 64) (rest : UInt64) (buffer : Buffer) :
    let filled := buffer.set pos (digitChar (rest.toNat % radix.toNat)) hpos
    fill? radix (pos + 1) rest buffer =
      if rest.toNat < radix.toNat then some (pos, filled)
      else fill? radix pos (rest / radix) filled := by
  intro filled
  have hdigit : (rest % radix).toNat = rest.toNat % radix.toNat := UInt64.toNat_mod ..
  have hchar : alphabet[(rest % radix).toNat]? = some (digitChar (rest.toNat % radix.toNat)) := by
    rw [hdigit]
    exact getElem?_alphabet (Nat.lt_of_lt_of_le (Nat.mod_lt _ (by omega)) hle)
  have hstore : store? buffer pos (digitChar (rest.toNat % radix.toNat)) = some filled :=
    dif_pos hpos
  have hlast : rest / radix = 0 ↔ rest.toNat < radix.toNat := by
    rw [← UInt64.toNat_inj, UInt64.toNat_div]
    exact Nat.div_eq_zero_iff_lt (by omega)
  simp only [fill?, hchar, hstore, hlast, Option.bind_eq_bind, Option.bind_some]

/-- **The loop finds a place for every digit** if the number has no more digits than there are
places: the numeral stands in front of what was filled before. -/
theorem fill?_eq {radix : UInt64} (hr : 2 ≤ radix.toNat) (hle : radix.toNat ≤ 36) {pos : Nat}
    (hpos : 0 < pos) (hplaces : pos ≤ 64) {rest : UInt64} (hroom : rest.toNat < radix.toNat ^ pos)
    (buffer : Buffer) :
    ∃ start filled, fill? radix pos rest buffer = some (start, filled) ∧
      filled.toList.drop start =
        (digits radix.toNat rest.toNat).map digitChar ++ buffer.toList.drop pos := by
  induction pos generalizing rest buffer with
  | zero => omega
  | succ pos ih =>
      rw [fill?_succ hr hle hplaces]
      split
      · next hlast =>
          refine ⟨pos, _, rfl, ?_⟩
          rw [drop_set, digits_of_lt hlast, Nat.mod_eq_of_lt hlast]
          rfl
      · next hmore =>
          have hquotient : (rest / radix).toNat = rest.toNat / radix.toNat := UInt64.toNat_div ..
          have hroom' : (rest / radix).toNat < radix.toNat ^ pos := by
            rw [hquotient]
            exact Nat.div_lt_of_lt_mul (by rwa [← Nat.pow_succ'])
          -- the quotient is not zero, so it needs a place
          have hpos' : 0 < pos := by
            have : 0 < rest.toNat / radix.toNat := Nat.div_pos (by omega) (by omega)
            refine Nat.pos_of_ne_zero fun hnone => ?_
            rw [hquotient, hnone, Nat.pow_zero] at hroom'
            omega
          obtain ⟨start, filled, hfill, hdrop⟩ := ih hpos' (by omega) hroom' _
          refine ⟨start, filled, hfill, ?_⟩
          rw [hdrop, drop_set, hquotient, digits_of_le hr (Nat.le_of_not_lt hmore),
            List.map_append, List.append_assoc]
          rfl

/-- The largest integer takes every place of the buffer in the smallest radix. -/
example : (fill? 2 64 (-1) (Vector.replicate 64 ' ')).map Prod.fst = some 0 := by
  decide +kernel

theorem toNat_clampRadix (radix : Nat) :
    (UInt64.ofNat (clampRadix radix)).toNat = clampRadix radix := by
  have hle := (clampRadix_bounds radix).2
  exact UInt64.toNat_ofNat_of_lt (Nat.lt_of_le_of_lt hle (by decide))

/-- **The buffer holds the numeral.** -/
theorem fromBuffer?_eq (radix : Nat) (n : UInt64) :
    fromBuffer? radix n = some (write radix n.toNat) := by
  obtain ⟨hr, hle⟩ := clampRadix_bounds radix
  have hradix := toNat_clampRadix radix
  have hroom : n.toNat < (UInt64.ofNat (clampRadix radix)).toNat ^ 64 := by
    rw [hradix]
    exact Nat.lt_of_lt_of_le n.toNat_lt (Nat.pow_le_pow_left hr 64)
  obtain ⟨start, filled, hfill, hdrop⟩ := fill?_eq (by omega) (by omega) (by decide)
    (Nat.le_refl 64) hroom (Vector.replicate 64 ' ')
  have hrest : (Vector.replicate 64 ' ').toList.drop 64 = [] := by simp
  rw [hrest, List.append_nil, hradix] at hdrop
  rw [fromBuffer?, hfill, Option.map_some]
  exact congrArg (fun cs => some (String.ofList cs)) hdrop

/-! ### The decimal system -/

/-- Decimal digits are those of the library. -/
theorem writeChars_ten (n : Nat) : writeChars 10 n = Nat.toDigits 10 n := by
  have hchar : ∀ d < 10, digitChar d = Nat.digitChar d := by decide
  have hten : writeChars 10 n = (digits 10 n).map digitChar := rfl
  rw [hten]
  induction n using Nat.strong_induction_on with
  | _ n ih =>
      rcases Nat.lt_or_ge n 10 with hlt | hge
      · rw [digits_of_lt hlt, Nat.toDigits_of_lt_base hlt, List.map_singleton, hchar n hlt]
      · rw [digits_of_le (by decide) hge, Nat.toDigits_eq_if (by decide), if_neg (by omega),
          List.map_append, ih (n / 10) (by omega) rfl, List.map_singleton,
          hchar _ (Nat.mod_lt n (by decide))]

/-- **Decimal numerals are those of the library.** -/
theorem write_ten (n : Nat) : write 10 n = toString n := by
  rw [write, writeChars_ten, ← Nat.toList_repr, String.ofList_toList]
  rfl

theorem writeInt_ten (z : Int) : writeInt 10 z = toString z := by
  rw [writeInt, write_ten]
  cases z with
  | ofNat n => exact if_neg (Int.not_lt.2 (Int.natCast_nonneg n))
  | negSucc n => exact if_pos (Int.negSucc_lt_zero n)

/-! ### Reading -/

/-- Reads an optional minus sign and digits. -/
def readInt? (radix : Nat) : List Char → Option Int
  | '-' :: cs => (read? radix cs).map fun n => -Int.ofNat n
  | cs => (read? radix cs).map Int.ofNat

/-- The sign of an integer as it is written. -/
def minus (z : Int) : List Char := if z < 0 then ['-'] else []

/-- **What the text of an integer looks like**: a minus sign for a negative number, then digits
below the radix of which the first is zero for zero only; and reading gives the integer back. -/
structure IsNumeralOf (radix : Nat) (z : Int) (cs : List Char) : Prop where
  digits : ∃ ds, cs = minus z ++ ds ∧ ds ≠ [] ∧ (∀ c ∈ ds, c ∈ alphabet.take radix) ∧
    (ds.head? = some '0' → z = 0 ∧ ds = ['0'])
  reads : readInt? radix cs = some z

theorem mem_alphabet_of_mem_writeChars {n : Nat} {c : Char} (h : c ∈ writeChars radix n) :
    c ∈ alphabet.take (clampRadix radix) := by
  obtain ⟨hr, hle⟩ := clampRadix_bounds radix
  obtain ⟨d, hd, rfl⟩ := List.mem_map.1 h
  have hlt : d < clampRadix radix := lt_of_mem_digits hr hd
  have hget : (alphabet.take (clampRadix radix))[d]? = some (digitChar d) := by
    rw [List.getElem?_take_of_lt hlt, getElem?_alphabet (by omega)]
  exact List.mem_of_getElem? hget

theorem eq_zero_of_head?_writeChars {n : Nat} (h : (writeChars radix n).head? = some '0') :
    n = 0 := by
  obtain ⟨hr, hle⟩ := clampRadix_bounds radix
  refine Nat.eq_zero_of_not_pos fun hn => ?_
  rw [writeChars, List.head?_map, Option.map_eq_some_iff] at h
  obtain ⟨d, hd, hchar⟩ := h
  have hlt : d < clampRadix radix := lt_of_mem_digits hr (List.mem_of_head? hd)
  have hvalue := digitValue?_digitChar (show d < 36 by omega)
  rw [hchar] at hvalue
  obtain rfl : 0 = d := Option.some.inj hvalue
  exact head?_digits_ne_zero hr hn hd

/-- No digit is a minus sign. -/
theorem head?_writeChars_ne_minus (radix n : Nat) : (writeChars radix n).head? ≠ some '-' := by
  intro h
  have hdigit := isSome_digitValue?_of_mem (List.mem_of_head? h)
  exact absurd hdigit (by decide)

theorem readInt?_of_head? {cs : List Char} (h : cs.head? ≠ some '-') :
    readInt? radix cs = (read? radix cs).map Int.ofNat := by
  unfold readInt?
  split
  · simp at h
  · rfl

theorem toList_writeInt (radix : Nat) (z : Int) :
    (writeInt radix z).toList = minus z ++ writeChars radix z.natAbs := by
  unfold writeInt minus write
  split
  · rw [String.toList_append, String.toList_ofList, String.toList_ofList]
  · rw [String.toList_ofList, List.nil_append]

/-- **The numeral of an integer can be read back.** -/
theorem isNumeralOf_writeInt (radix : Nat) (z : Int) :
    IsNumeralOf (clampRadix radix) z (writeInt radix z).toList := by
  rw [toList_writeInt]
  refine ⟨⟨writeChars radix z.natAbs, rfl, writeChars_ne_nil radix _,
    fun c hc => mem_alphabet_of_mem_writeChars hc, fun hhead => ?_⟩, ?_⟩
  · have hzero := eq_zero_of_head?_writeChars hhead
    rw [hzero]
    exact ⟨Int.natAbs_eq_zero.1 hzero, rfl⟩
  · unfold minus
    split
    · rw [List.singleton_append, readInt?, read?_writeChars, Option.map_some, Option.some.injEq,
        Int.ofNat_eq_natCast]
      omega
    · rw [List.nil_append, readInt?_of_head? (head?_writeChars_ne_minus radix _), read?_writeChars,
        Option.map_some, Option.some.injEq, Int.ofNat_eq_natCast]
      omega

theorem writeInt_natCast (radix n : Nat) : writeInt radix n = write radix n :=
  if_neg (by omega)

end Numeral

/-! ### Integers of sixty-four bits -/

namespace Scalar

open Numeral

/-- The magnitude of a signed integer, which an unsigned one has room for. -/
def magnitude (v : Int64) : UInt64 := UInt64.ofNat v.toInt.natAbs

theorem toNat_magnitude (v : Int64) : (magnitude v).toNat = v.toInt.natAbs := by
  have hlow := v.le_toInt
  have hhigh := v.toInt_lt
  have hsize : UInt64.size = 2 ^ 64 := rfl
  exact UInt64.toNat_ofNat_of_lt (by omega)

/-- The sign, and the magnitude out of the buffer. -/
def intFromBuffer? (radix : Nat) (v : Int64) : Option String :=
  (fromBuffer? radix (magnitude v)).map fun digits => if v < 0 then "-" ++ digits else digits

theorem intFromBuffer?_eq (radix : Nat) (v : Int64) :
    intFromBuffer? radix v = some (int radix v) := by
  have hsign : v < 0 ↔ v.toInt < 0 := Int64.lt_iff_toInt_lt
  rw [intFromBuffer?, fromBuffer?_eq, Option.map_some, toNat_magnitude, int, writeInt]
  simp only [hsign]

/-- **Integers are written so that they can be read back, in every radix.**  A radix out of range
acts as the nearest bound.  The loop over the buffer finds a place for every digit and comes to the
same text; and in the decimal system this is the text that the library writes. -/
theorem integers_written_in_every_radix (radix : Nat) (v : Int64) (n : UInt64) :
    let base := if radix < 2 then 2 else if 36 < radix then 36 else radix
    IsNumeralOf base v.toInt (int radix v).toList ∧
    IsNumeralOf base n.toNat (uint radix n).toList ∧
    intFromBuffer? radix v = some (int radix v) ∧ fromBuffer? radix n = some (uint radix n) ∧
    int 10 v = toString v.toInt ∧ uint 10 n = toString n.toNat := by
  intro base
  have hbase : base = clampRadix radix := by
    simp only [base, clampRadix]
    split
    · omega
    · split <;> omega
  refine ⟨?_, ?_, intFromBuffer?_eq radix v, fromBuffer?_eq radix n, writeInt_ten _, write_ten _⟩
  · rw [hbase]
    exact isNumeralOf_writeInt radix v.toInt
  · have huint : uint radix n = writeInt radix n.toNat := (writeInt_natCast radix n.toNat).symm
    rw [hbase, huint]
    exact isNumeralOf_writeInt radix n.toNat

end Scalar

end ValueLens
