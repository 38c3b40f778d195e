/-
**Integers under the verbs of a radix.**

Under a verb of a radix an integer is a sign, the mark of the radix and digits, and around these or
between them stands what fills the text up to its width.  The sign is that of the number, so the
digits are those of the magnitude also for negative numbers.  Zeros stand between the mark and the
digits, where they do not change what the digits say; any other character stands outside.  So the
number can be read off its text as soon as the padding is taken away.

Main definitions:

* `ValueLens.Verb.Shows` — a value for which no answer stands in;
* `ValueLens.Verb.numberText?` — the text of a number under a verb;
* `ValueLens.Layout.Pads` — how a text is filled up to a width;
* `ValueLens.Verb.System`, `ValueLens.Verb.system?` — the mark and the digits of a radix.

Main results:

* `ValueLens.Verb.walk_of_shows` — a number that shows itself is written as its text;
* `ValueLens.Layout.signed_pads` — **zeros stand behind the sign, other padding outside**;
* `ValueLens.Verb.integers_read_back` — integers can be read back.
-/
import Mathlib.Data.Bool.AllAny
import ValueLens.Proofs.DigitLoop
import ValueLens.Proofs.ExactOrder
import ValueLens.Proofs.VerbBytes

set_option relaxedAutoImplicit false
set_option autoImplicit false

namespace ValueLens

/-! ### Numbers that show themselves -/

namespace Verb

variable {s : Scene} {v : Verb} {l : Layout} {id : NodeId} {shape : Shape}

/-- **A value of a shape for which no answer stands in.** -/
structure Shows (s : Scene) (v : Verb) (id : NodeId) (shape : Shape) : Prop where
  shape_eq : s.graph.shape id = shape
  silent : v.standsIn (answer s id) = false

/-- The text of a number under a verb, if the verb is for such numbers. -/
def numberText? (v : Verb) (l : Layout) : Shape → Option String
  | .int z _ => v.integer? l z.toInt
  | .uint n _ => v.integer? l n.toNat
  | .float x w => v.float? l x w
  | .complex re im _ => v.complex? l re im
  | _ => none

theorem structural_of_numberText? {t : String} (hshape : s.graph.shape id = shape)
    (ht : v.numberText? l shape = some t) (below : Below) (locked : Address → Below)
    (depth : Nat) : structural s v l below locked depth id = Trace.write t := by
  unfold structural
  rw [hshape]
  cases shape with
  | int z bits => exact congrArg (leaf s v id) ht
  | uint n bits => exact congrArg (leaf s v id) ht
  | float x w => exact congrArg (leaf s v id) ht
  | complex re im w => exact congrArg (leaf s v id) ht
  | _ => cases ht

/-- **A number that shows itself is written as its text**, wherever the walk comes to it. -/
theorem walk_of_shows {t : String} (h : Shows s v id shape) (ht : v.numberText? l shape = some t)
    (n depth : Nat) :
    (walk s v l (n + 1) depth id).text = t ∧ (walk s v l (n + 1) depth id).result = some () := by
  rw [walk]
  constructor
  · rw [level_text_of_not_standsIn h.silent, structural_of_numberText? h.shape_eq ht]
    simp [Trace.text, Trace.write, Trace.emit, Effect.text?]
  · rw [level_of_not_standsIn h.silent, Trace.bind_of_some (heard_result s id),
      structural_of_numberText? h.shape_eq ht]
    rfl

theorem format_of_shows {t : String} (h : Shows s v id shape)
    (ht : v.numberText? l shape = some t) :
    (s.format (.verb v) l id).text = t ∧ (s.format (.verb v) l id).result = some () := by
  have hpointer : v ≠ .pointer := by
    rintro rfl
    cases shape with
    | _ => cases ht
  rw [Scene.format, apply_eq_walk hpointer]
  exact walk_of_shows h ht _ 0

end Verb

/-! ### Padding -/

namespace Layout

/-- **How a text is filled up to a width.**  The `head` is a sign and a mark, which zeros do not go
in front of. -/
structure Pads (l : Layout) (head body cs : List Char) : Prop where
  parts : ∃ before zeros after : Nat,
    cs = List.replicate before l.fill ++ head ++ List.replicate zeros '0' ++ body ++
      List.replicate after l.fill ∧
    (l.zero = true → before = 0 ∧ after = 0) ∧
    (l.zero = false → zeros = 0 ∧
      match l.alignment.getD .right with
      | .left => before = 0
      | .center => before ≤ after ∧ after ≤ before + 1
      | .right => after = 0)
  length : cs.length = max (l.width.getD 0) (head.length + body.length)

theorem toList_surround (fill : Char) (alignment : Alignment) (missing : Nat) (t : String) :
    ∃ before after : Nat, before + after = missing ∧
      (surround fill alignment missing t).toList =
        List.replicate before fill ++ t.toList ++ List.replicate after fill ∧
      match alignment with
      | .left => before = 0
      | .center => before ≤ after ∧ after ≤ before + 1
      | .right => after = 0 := by
  cases alignment with
  | left => exact ⟨0, missing, by omega, by simp [surround, Numeral.toList_pushn], rfl⟩
  | center =>
      refine ⟨missing / 2, missing - missing / 2, by omega, ?_, by omega, by omega⟩
      simp [surround, Numeral.toList_pushn]
  | right => exact ⟨missing, 0, by omega, by simp [surround, Numeral.toList_pushn], rfl⟩

theorem pads_of_no_width {l : Layout} (hwidth : l.width = none) (head body : List Char) :
    l.Pads head body (head ++ body) := by
  refine ⟨⟨0, 0, 0, by simp, fun _ => ⟨rfl, rfl⟩, fun _ => ⟨rfl, ?_⟩⟩, ?_⟩
  · cases l.alignment.getD .right with
    | left => rfl
    | center => exact ⟨Nat.le_refl 0, Nat.zero_le 1⟩
    | right => rfl
  · simp [hwidth]

theorem signed_of_no_width {l : Layout} (hwidth : l.width = none) (sign body : String) :
    l.signed sign body = sign ++ body := by
  cases hzero : l.zero with
  | true => simp [signed, hzero, hwidth, fillUp]
  | false => simp [signed, hzero, fillUp, hwidth]

/-- **Zeros stand behind the sign, other padding outside**, and the width is kept. -/
theorem signed_pads (l : Layout) (sign body : String) :
    l.Pads sign.toList body.toList (l.signed sign body).toList := by
  cases hwidth : l.width with
  | none =>
      rw [signed_of_no_width hwidth, String.toList_append]
      exact pads_of_no_width hwidth _ _
  | some w =>
      cases hzero : l.zero with
      | true =>
          obtain ⟨zeros, after, hmissing, hchars, hafter⟩ :=
            toList_surround '0' .right (w - sign.length - body.length) body
          obtain rfl : after = 0 := hafter
          have hsigned : (l.signed sign body).toList =
              sign.toList ++ (List.replicate zeros '0' ++ body.toList) := by
            simp only [signed, hzero, hwidth, String.toList_append, hchars]
            simp
          rw [hsigned]
          refine ⟨⟨0, zeros, 0, by simp, fun _ => ⟨rfl, rfl⟩, by simp [hzero]⟩, ?_⟩
          simp only [hwidth, Option.getD_some, List.length_append, List.length_replicate,
            String.length_toList]
          omega
      | false =>
          obtain ⟨before, after, hmissing, hchars, hbefore⟩ := toList_surround l.fill
            (l.alignment.getD .right) (w - (sign ++ body).length) (sign ++ body)
          have hsigned : (l.signed sign body).toList =
              List.replicate before l.fill ++ (sign ++ body).toList ++
                List.replicate after l.fill := by
            simp only [signed, hzero, fillUp, hwidth, hchars]
          rw [hsigned]
          refine ⟨⟨before, 0, after, by simp, by simp [hzero], fun _ => ⟨rfl, hbefore⟩⟩, ?_⟩
          rw [String.length_append] at hmissing
          simp only [hwidth, Option.getD_some, List.length_append, List.length_replicate,
            String.length_toList, String.toList_append]
          omega

end Layout

/-! ### Magnitudes -/

namespace Verb

/-- The mark of a radix and its digits in their order. -/
structure System where
  mark : List Char
  digits : List Char

/-- The radix is the number of digits. -/
def System.radix (system : System) : Nat := system.digits.length

namespace System

def lowerHex : System := ⟨"0x".toList, "0123456789abcdef".toList⟩

def upperHex : System := ⟨"0x".toList, "0123456789ABCDEF".toList⟩

def octal : System := ⟨"0o".toList, "01234567".toList⟩

def binary : System := ⟨"0b".toList, "01".toList⟩

end System

/-- The system of a verb for integers. -/
def system? : Verb → Option System
  | .lowerHex => some .lowerHex
  | .upperHex => some .upperHex
  | .octal => some .octal
  | .binary => some .binary
  | _ => none

/-- **Digits of a system that say a number**, also with zeros in front of them. -/
structure System.Says (system : System) (n : Nat) (cs : List Char) : Prop where
  ne_nil : cs ≠ []
  mem_digits : ∀ c ∈ cs, c ∈ system.digits
  eq_zero : cs.head? = some '0' → n = 0
  reads : ∀ zeros, Numeral.read? system.radix (List.replicate zeros '0' ++ cs) = some n

/-- A numeral says its number in small letters. -/
theorem System.says_writeChars (system : System)
    (hdigits : system.digits = Numeral.alphabet.take system.radix)
    (hradix : Numeral.clampRadix system.radix = system.radix) (n : Nat) :
    system.Says n (Numeral.writeChars system.radix n) := by
  refine ⟨Numeral.writeChars_ne_nil _ n, fun c hc => ?_, Numeral.eq_zero_of_head?_writeChars,
    fun zeros => ?_⟩
  · have hmem := Numeral.mem_alphabet_of_mem_writeChars hc
    rwa [hradix, ← hdigits] at hmem
  · have hread := Numeral.read?_zeros_writeChars system.radix zeros n
    rwa [hradix] at hread

theorem mapM_digitValue?_toUpper {cs : List Char} (h : ∀ c ∈ cs, c ∈ Numeral.alphabet) :
    (cs.map Char.toUpper).mapM Numeral.digitValue? = cs.mapM Numeral.digitValue? := by
  have hchar : ∀ c ∈ Numeral.alphabet,
      Numeral.digitValue? c.toUpper = Numeral.digitValue? c :=
    List.all_iff_forall_prop.1 (by decide)
  induction cs with
  | nil => rfl
  | cons c cs ih =>
      rw [List.map_cons, List.mapM_cons, List.mapM_cons, hchar c (h c (by simp)),
        ih fun c' hc' => h c' (by simp [hc'])]

/-- Capital letters say the same number. -/
theorem System.Says.upper {system capital : System} {n : Nat} {cs : List Char}
    (h : system.Says n cs) (hdigits : system.digits = Numeral.alphabet.take system.radix)
    (hcapital : capital.digits = system.digits.map Char.toUpper) :
    capital.Says n (cs.map Char.toUpper) := by
  have hmem : ∀ c ∈ cs, c ∈ Numeral.alphabet := fun c hc =>
    List.mem_of_mem_take (hdigits ▸ h.mem_digits c hc)
  have hradix : capital.radix = system.radix := by
    rw [System.radix, hcapital, List.length_map]
    rfl
  have hzero : ∀ c ∈ Numeral.alphabet, c.toUpper = '0' → c = '0' :=
    List.all_iff_forall_prop.1 (by decide)
  refine ⟨by simpa using h.ne_nil, ?_, ?_, fun zeros => ?_⟩
  · intro c hc
    obtain ⟨c', hc', rfl⟩ := List.mem_map.1 hc
    rw [hcapital]
    exact List.mem_map_of_mem (h.mem_digits c' hc')
  · intro hhead
    rw [List.head?_map, Option.map_eq_some_iff] at hhead
    obtain ⟨c, hc, hupper⟩ := hhead
    obtain rfl := hzero c (hmem c (List.mem_of_head? hc)) hupper
    exact h.eq_zero hc
  · have hchars : List.replicate zeros '0' ++ cs.map Char.toUpper =
        (List.replicate zeros '0' ++ cs).map Char.toUpper := by
      rw [List.map_append, List.map_replicate]
      rfl
    have hall : ∀ c ∈ List.replicate zeros '0' ++ cs, c ∈ Numeral.alphabet := by
      intro c hc
      rcases List.mem_append.1 hc with hc | hc
      · rw [List.eq_of_mem_replicate hc]
        decide
      · exact hmem c hc
    rw [hradix, ← h.reads zeros, hchars, Numeral.read?, Numeral.read?, List.isEmpty_map,
      mapM_digitValue?_toUpper hall]

/-- **The mark and the digits that a verb gives a magnitude** are those of its system. -/
theorem radixDigits?_says {v : Verb} {system : System} (hv : v.system? = some system) (n : Nat) :
    ∃ mark digits : String, v.radixDigits? n = some (mark, digits) ∧ mark.toList = system.mark ∧
      system.Says n digits.toList := by
  have htoList (radix : Nat) : (Numeral.write radix n).toList = Numeral.writeChars radix n :=
    String.toList_ofList
  cases v with
  | lowerHex =>
      obtain rfl := Option.some.inj hv
      refine ⟨_, _, rfl, rfl, ?_⟩
      rw [htoList]
      exact System.lowerHex.says_writeChars (by decide) (by decide) n
  | upperHex =>
      obtain rfl := Option.some.inj hv
      refine ⟨_, _, rfl, rfl, ?_⟩
      have hlower := System.lowerHex.says_writeChars (by decide) (by decide) n
      rw [Numeral.upper, String.toList_map, htoList]
      exact hlower.upper (by decide) (by decide)
  | octal =>
      obtain rfl := Option.some.inj hv
      refine ⟨_, _, rfl, rfl, ?_⟩
      rw [htoList]
      exact System.octal.says_writeChars (by decide) (by decide) n
  | binary =>
      obtain rfl := Option.some.inj hv
      refine ⟨_, _, rfl, rfl, ?_⟩
      rw [htoList]
      exact System.binary.says_writeChars (by decide) (by decide) n
  | _ => cases hv

/-! ### Integers -/

/-- The sign that a layout asks for. -/
def signChars (l : Layout) (z : Int) : List Char :=
  if z < 0 then ['-'] else if l.plus then ['+'] else []

/-- The integer of a sign and a magnitude. -/
def signedValue (sign : List Char) (n : Nat) : Int := if sign = ['-'] then -n else n

theorem numberText?_of_integer? {v : Verb} {l : Layout} {shape : Shape} {z : Int}
    (hz : shape.integer? = some z) : v.numberText? l shape = v.integer? l z := by
  cases shape with
  | int z' bits =>
      obtain rfl := Option.some.inj hz
      rfl
  | uint n bits =>
      obtain rfl := Option.some.inj hz
      rfl
  | _ => cases hz

theorem toList_signOf (l : Layout) (z : Int) :
    (l.signOf (decide (z < 0))).toList = signChars l z := by
  unfold Layout.signOf signChars
  by_cases hz : z < 0
  · simp [hz]
  · cases l.plus <;> simp [hz]

theorem signedValue_signChars (l : Layout) (z : Int) :
    signedValue (signChars l z) z.natAbs = z := by
  unfold signedValue signChars
  by_cases hz : z < 0
  · simp only [hz, if_true]
    omega
  · cases l.plus <;> simp [hz] <;> omega

/-- **Integers can be read back under the verbs of a radix.**  Wherever the walk comes to an integer
for which no answer stands in, its text is the sign, the mark of the radix under the alternate flag
and digits of the radix, padded to the width; and sign and digits say the integer. -/
theorem integers_read_back {s : Scene} {v : Verb} {system : System} {id : NodeId} {shape : Shape}
    {z : Int} (hv : v.system? = some system) (hz : shape.integer? = some z)
    (hshows : Shows s v id shape) (l : Layout) :
    let text := (s.format (.verb v) l id).text
    let sign := signChars l z
    let mark := if l.alternate then system.mark else []
    (s.format (.verb v) l id).result = some () ∧
    (∀ n depth, (walk s v l (n + 1) depth id).text = text) ∧
    ∃ digits magnitude, l.Pads (sign ++ mark) digits text.toList ∧
      system.Says magnitude digits ∧ signedValue sign magnitude = z := by
  intro text sign mark
  obtain ⟨m, digits, hdigits, hmark, hsays⟩ := radixDigits?_says hv z.natAbs
  have hinteger : v.numberText? l shape = some (l.integral (decide (z < 0)) m digits) := by
    rw [numberText?_of_integer? hz, integer?, hdigits]
  obtain ⟨htext, hresult⟩ := format_of_shows hshows hinteger
  have hpads : l.Pads (sign ++ mark) digits.toList text.toList := by
    have hhead : (l.signOf (decide (z < 0)) ++ if l.alternate then m else "").toList =
        sign ++ mark := by
      rw [String.toList_append, toList_signOf]
      cases halt : l.alternate <;> simp [mark, sign, halt, hmark]
    rw [← hhead, show text = _ from htext]
    exact l.signed_pads _ _
  refine ⟨hresult, fun n depth => ?_, digits.toList, z.natAbs, hpads, hsays,
    signedValue_signChars l z⟩
  exact (walk_of_shows hshows hinteger n depth).1.trans htext.symm

/-- The smallest and the largest integer. -/
def extremes : Graph :=
  ⟨#[{ shape := .int Int64.minValue 64, typeName := "i64" },
     { shape := .uint (-1) 64, typeName := "u64" }]⟩

/-- The smallest integer in binary digits with stars around it, and the largest one in capital
letters with a sign, a mark and zeros. -/
theorem extremes_read_back :
    let s : Scene := ⟨extremes, {}, true⟩
    let starred : Layout := { fill := '*', alignment := some .center, width := some 67 }
    let full : Layout := { plus := true, alternate := true, zero := true, width := some 20 }
    Shows s .binary 0 (.int Int64.minValue 64) ∧ Shows s .upperHex 1 (.uint (-1) 64) ∧
    (s.format (.verb .binary) starred 0).text.toList =
      '*' :: '-' :: '1' :: List.replicate 63 '0' ++ ['*'] ∧
    (s.format (.verb .upperHex) full 1).text = "+0x0FFFFFFFFFFFFFFFF" ∧
    (∃ digits magnitude,
      starred.Pads ['-'] digits (s.format (.verb .binary) starred 0).text.toList ∧
      System.binary.Says magnitude digits ∧ signedValue ['-'] magnitude = -2 ^ 63) ∧
    (∃ digits magnitude,
      full.Pads ['+', '0', 'x'] digits (s.format (.verb .upperHex) full 1).text.toList ∧
      System.upperHex.Says magnitude digits ∧ signedValue ['+'] magnitude = 2 ^ 64 - 1) := by
  intro s starred full
  have hsmallest : Shows s .binary 0 (.int Int64.minValue 64) := ⟨rfl, rfl⟩
  have hlargest : Shows s .upperHex 1 (.uint (-1) 64) := ⟨rfl, rfl⟩
  have hlow : Shape.integer? (.int Int64.minValue 64) = some (-2 ^ 63) := by decide
  have hhigh : Shape.integer? (.uint (-1) 64) = some (2 ^ 64 - 1) := by decide
  have hbinary : system? .binary = some .binary := rfl
  have hupper : system? .upperHex = some .upperHex := rfl
  exact ⟨hsmallest, hlargest, by decide +kernel, by decide +kernel,
    (integers_read_back hbinary hlow hsmallest starred).2.2,
    (integers_read_back hupper hhigh hlargest full).2.2⟩

end Verb

end ValueLens
