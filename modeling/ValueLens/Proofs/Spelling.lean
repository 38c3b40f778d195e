/-
**Spellings that tell where they end.**

A text made of several spellings in a row can be taken apart again if each of them tells where it
ends, perhaps with the help of what may follow.  Such a spelling is called *unambiguous*: a text
that begins with it determines what is spelled, up to what counts as the same, and the rest.

There are two ways to be unambiguous.  A spelling may be made of characters of one class while the
rest begins outside the class, as for numerals in front of punctuation.  Or the spelling may mark
its own end, as quoted text does: every quotation mark inside is behind a backslash, and the
spelling of each character is unambiguous by itself.

Main definitions:

* `ValueLens.Text.Unambiguous` — spellings that can be split off;
* `ValueLens.Text.Stops` — rests that begin outside a class of characters.

Main results:

* `ValueLens.Text.append_inj_of_stops` — a row of characters of one class ends where the class does;
* `ValueLens.Text.escape_unambiguous` — each character inside quotation marks;
* `ValueLens.Text.quotedChars_unambiguous` — **quoted texts are unambiguous**.
-/
import ValueLens.Proofs.Digits
import ValueLens.Text.Quoted

set_option relaxedAutoImplicit false
set_option autoImplicit false

namespace ValueLens.Text

/-! ### Splitting a text -/

/-- **A spelling that can be split off the front of a text** whose rest has `Ends`: the text
determines what is spelled, up to `Same`, and the rest. -/
def Unambiguous {α : Type} (Ends : List Char → Prop) (Same : α → α → Prop)
    (spell : α → List Char) : Prop :=
  ∀ {a b : α} {rest rest' : List Char}, Ends rest → Ends rest' →
    spell a ++ rest = spell b ++ rest' → Same a b ∧ rest = rest'

/-- The rest does not go on with a character of the class. -/
def Stops (p : Char → Bool) (rest : List Char) : Prop := ∀ c ∈ rest.head?, p c = false

/-- A row of characters of one class ends where the class does. -/
theorem append_inj_of_stops {p : Char → Bool} {s t rest rest' : List Char}
    (hs : ∀ c ∈ s, p c = true) (ht : ∀ c ∈ t, p c = true) (hrest : Stops p rest)
    (hrest' : Stops p rest') (h : s ++ rest = t ++ rest') : s = t ∧ rest = rest' := by
  -- whichever row is longer would go on into the other rest
  have hshort {s t rest rest' : List Char} (ht : ∀ c ∈ t, p c = true) (hrest : Stops p rest)
      (more : List Char) (hmore : t = s ++ more) (hr : rest = more ++ rest') : more = [] := by
    cases more with
    | nil => rfl
    | cons c more =>
        have hin : p c = true := ht c (by simp [hmore])
        have hout : p c = false := hrest c (by simp [hr])
        rw [hin] at hout
        exact absurd hout (by simp)
  rcases List.append_eq_append_iff.1 h with ⟨more, hmore, hr⟩ | ⟨more, hmore, hr⟩
  · obtain rfl := hshort ht hrest more hmore hr
    exact ⟨by simpa using hmore.symm, by simpa using hr⟩
  · obtain rfl := hshort hs hrest' more hmore hr
    exact ⟨by simpa using hmore, by simpa using hr.symm⟩

/-- Numerals in front of anything that is no digit. -/
theorem writeChars_unambiguous (radix : Nat) :
    Unambiguous (Stops fun c => (Numeral.digitValue? c).isSome) Eq (Numeral.writeChars radix) := by
  intro n m rest rest' hrest hrest' h
  have hdigit {n : Nat} : ∀ c ∈ Numeral.writeChars radix n, (Numeral.digitValue? c).isSome = true :=
    fun c hc => Numeral.isSome_digitValue?_of_mem hc
  obtain ⟨hchars, hrests⟩ := append_inj_of_stops hdigit hdigit hrest hrest' h
  exact ⟨Numeral.writeChars_injective hchars, hrests⟩

/-! ### Quoted text -/

/-- The characters with a short escape, behind the letter of it. -/
def shortEscapes : List (Char × Char) :=
  [('0', '\x00'), ('t', '\t'), ('r', '\r'), ('n', '\n'), ('"', '"'), ('\\', '\\')]

/-- **The three ways to spell a character**: a short escape, its number, or itself. -/
theorem escape_cases (c : Char) :
    (∃ letter, (letter, c) ∈ shortEscapes ∧ escape c = ['\\', letter]) ∨
      escape c = escapeByNumber c ∨ (c ≠ '\\' ∧ c ≠ '"' ∧ escape c = [c]) := by
  unfold escape
  repeat' split
  all_goals simp_all [shortEscapes]

theorem escape_unambiguous : Unambiguous (fun _ => True) Eq escape := by
  intro c d rest rest' _ _ h
  have hletters : ∀ p ∈ shortEscapes, p.1 ≠ 'u' ∧ ∀ q ∈ shortEscapes, p.1 = q.1 → p.2 = q.2 := by
    decide
  rcases escape_cases c with ⟨letter, hc, hce⟩ | hce | ⟨hcb, hcq, hce⟩ <;>
    rcases escape_cases d with ⟨letter', hd, hde⟩ | hde | ⟨hdb, hdq, hde⟩ <;>
      simp only [hce, hde, escapeByNumber, List.cons_append, List.nil_append, List.append_assoc,
        List.cons.injEq, true_and] at h
  · exact ⟨(hletters _ hc).2 _ hd h.1, h.2⟩
  · exact absurd h.1 (hletters _ hc).1
  · exact absurd h.1.symm hdb
  · exact absurd h.1.symm (hletters _ hd).1
  · -- the numbers end at the closing braces
    have hbrace (rest : List Char) :
        Stops (fun c => (Numeral.digitValue? c).isSome) ('\x7d' :: rest) := by
      intro x hx
      obtain rfl := Option.some.inj hx
      decide
    obtain ⟨hnumber, hrest⟩ := writeChars_unambiguous 16 (hbrace rest) (hbrace rest') h
    exact ⟨Char.ext (UInt32.toNat_inj.1 hnumber), (List.cons.inj hrest).2⟩
  · exact absurd h.1.symm hdb
  · exact absurd h.1 hcb
  · exact absurd h.1 hcb
  · exact h

/-- The spelling of a character does not begin with a quotation mark. -/
theorem escape_append_ne (c : Char) (rest rest' : List Char) : escape c ++ rest ≠ '"' :: rest' := by
  intro h
  rcases escape_cases c with ⟨letter, -, hc⟩ | hc | ⟨-, hcq, hc⟩ <;>
    simp [hc, escapeByNumber] at h
  exact hcq h.1

/-- **Quoted texts are unambiguous**: the first quotation mark without a backslash is the end. -/
theorem quotedChars_unambiguous : Unambiguous (fun _ => True) Eq quotedChars := by
  intro s t rest rest' _ _ h
  simp only [quotedChars, List.append_assoc, List.cons_append, List.nil_append, List.cons.injEq,
    true_and] at h
  induction s generalizing t with
  | nil =>
      cases t with
      | nil => exact ⟨rfl, by simpa using h⟩
      | cons d t =>
          rw [List.flatMap_cons, List.append_assoc] at h
          exact absurd h.symm (escape_append_ne d _ rest)
  | cons c s ih =>
      cases t with
      | nil =>
          rw [List.flatMap_cons, List.append_assoc] at h
          exact absurd h (escape_append_ne c _ rest')
      | cons d t =>
          rw [List.flatMap_cons, List.flatMap_cons, List.append_assoc, List.append_assoc] at h
          obtain ⟨rfl, htail⟩ := escape_unambiguous trivial trivial h
          obtain ⟨rfl, hrest⟩ := ih htail
          exact ⟨rfl, hrest⟩

end ValueLens.Text
