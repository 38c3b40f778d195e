/-
**What a short type name keeps.**

A full type name can be read from left to right as a list of tokens: words that go on for as long as
they can, separators of two colons, and all other characters one by one.  There is exactly one such
reading.  The short name drops the separators and the words that stand directly before one, and
keeps every other token, in order.

The function itself knows nothing of tokens.  It reads one character at a time and keeps the word it
is in aside; the invariant of its loop is that the word kept aside is let through exactly if no
separator comes next.

Main definitions:

* `ValueLens.TypeName.Token`, `ValueLens.TypeName.Splits` — tokens, and which lists of them are a
  reading of a text;
* `ValueLens.TypeName.tokens` — the reading;
* `ValueLens.TypeName.kept` — the text of the tokens that stay.

Main results:

* `ValueLens.TypeName.splits_iff` — **a text has one reading**;
* `ValueLens.TypeName.short_drops_path_prefixes` — **the short name is what is kept of the
  reading**, and shortening it again changes nothing if no colon stands by itself.
-/
import ValueLens.TypeName

set_option relaxedAutoImplicit false
set_option autoImplicit false

namespace ValueLens.TypeName

/-! ### Readings -/

/-- **A piece of a full type name.** -/
inductive Token where
  | word (chars : List Char)
  | separator
  | single (char : Char)
  deriving DecidableEq, Repr

/-- The text of a token. -/
def Token.chars : Token → List Char
  | .word w => w
  | .separator => [':', ':']
  | .single c => [c]

/-- A text whose first character, if there is one, does not go on with a word. -/
def EndsWord (cs : List Char) : Prop := ∀ c, cs.head? = some c → isWordChar c = false

/-- **The readings of a text**, from left to right: a word takes all the characters it can, and two
colons that stand next to each other are a separator. -/
inductive Splits : List Char → List Token → Prop
  | nil : Splits [] []
  | word {w rest : List Char} {ts : List Token} (hne : w ≠ [])
      (hword : ∀ c ∈ w, isWordChar c = true) (hmax : EndsWord rest) (h : Splits rest ts) :
      Splits (w ++ rest) (.word w :: ts)
  | separator {rest : List Char} {ts : List Token} (h : Splits rest ts) :
      Splits (':' :: ':' :: rest) (.separator :: ts)
  | single {c : Char} {rest : List Char} {ts : List Token} (hc : isWordChar c = false)
      (hgreedy : c = ':' → rest.head? ≠ some ':') (h : Splits rest ts) :
      Splits (c :: rest) (.single c :: ts)

/-- A character of a word in front of a reading. -/
def Token.push (c : Char) : List Token → List Token
  | .word w :: ts => .word (c :: w) :: ts
  | ts => .word [c] :: ts

/-- **The reading of a text.** -/
def tokens : List Char → List Token
  | [] => []
  | ':' :: ':' :: rest => .separator :: tokens rest
  | c :: rest => if isWordChar c then Token.push c (tokens rest) else .single c :: tokens rest

theorem isWordChar_colon : isWordChar ':' = false := by decide

/-- A colon takes part in no word, so a word character starts no separator. -/
theorem ne_colon_of_isWordChar {c : Char} (h : isWordChar c = true) : c ≠ ':' := by
  rintro rfl
  rw [isWordChar_colon] at h
  exact Bool.false_ne_true h

@[simp] theorem endsWord_nil : EndsWord [] := by simp [EndsWord]

@[simp] theorem endsWord_cons {c : Char} {rest : List Char} :
    EndsWord (c :: rest) ↔ isWordChar c = false := by simp [EndsWord]

/-- Where a word starts, no word ends. -/
theorem not_endsWord_append {w rest : List Char} (hne : w ≠ [])
    (hword : ∀ c ∈ w, isWordChar c = true) : ¬EndsWord (w ++ rest) := by
  obtain ⟨c, w, rfl⟩ := List.exists_cons_of_ne_nil hne
  have hc : isWordChar c = true := hword c (by simp)
  simp [hc]

/-- The reading of a character that starts no separator. -/
theorem tokens_cons {c : Char} {rest : List Char} (h : c = ':' → rest.head? ≠ some ':') :
    tokens (c :: rest) =
      if isWordChar c then Token.push c (tokens rest) else .single c :: tokens rest := by
  refine tokens.eq_3 c rest ?_
  rintro rest' rfl rfl
  exact h rfl rfl

theorem tokens_cons_of_isWordChar {c : Char} (h : isWordChar c = true) (rest : List Char) :
    tokens (c :: rest) = Token.push c (tokens rest) := by
  rw [tokens_cons fun hc => absurd hc (ne_colon_of_isWordChar h), if_pos h]

/-- A reading starts with a word only where the text does. -/
theorem Splits.push_eq {cs : List Char} {ts : List Token} (h : Splits cs ts) (hend : EndsWord cs)
    (c : Char) : Token.push c ts = .word [c] :: ts := by
  cases h with
  | nil => rfl
  | separator h => rfl
  | single hc hgreedy h => rfl
  | word hne hword hmax h => exact absurd hend (not_endsWord_append hne hword)

/-- A word is read whole. -/
theorem tokens_word_append {w rest : List Char} (hne : w ≠ [])
    (hword : ∀ c ∈ w, isWordChar c = true)
    (hpush : ∀ c, Token.push c (tokens rest) = .word [c] :: tokens rest) :
    tokens (w ++ rest) = .word w :: tokens rest := by
  induction w with
  | nil => exact absurd rfl hne
  | cons c w ih =>
      rw [List.cons_append, tokens_cons_of_isWordChar (hword c (by simp))]
      cases w with
      | nil => exact hpush c
      | cons d w =>
          rw [ih (by simp) fun x hx => hword x (List.mem_cons_of_mem _ hx)]
          rfl

/-- There is no reading but `tokens`. -/
theorem Splits.eq_tokens {cs : List Char} {ts : List Token} (h : Splits cs ts) :
    ts = tokens cs := by
  induction h with
  | nil => rfl
  | @word w rest ts hne hword hmax h ih =>
      subst ih
      exact (tokens_word_append hne hword (h.push_eq hmax)).symm
  | separator h ih => rw [ih, tokens]
  | single hc hgreedy h ih => rw [ih, tokens_cons hgreedy, if_neg (by simp [hc])]

/-- A word character in front of a text is read as part of a word. -/
theorem Splits.push {c : Char} {rest : List Char} {ts : List Token} (h : Splits rest ts)
    (hc : isWordChar c = true) : Splits (c :: rest) (Token.push c ts) := by
  have hone (hend : EndsWord rest) : Splits (c :: rest) (Token.push c ts) := by
    rw [h.push_eq hend]
    exact Splits.word (w := [c]) (by simp) (by simpa using hc) hend h
  cases h with
  | nil => exact hone endsWord_nil
  | separator h => exact hone (endsWord_cons.2 isWordChar_colon)
  | single hs hgreedy h => exact hone (endsWord_cons.2 hs)
  | @word w rest ts hne hword hmax h =>
      exact Splits.word (w := c :: w) (by simp) (by simpa [hc] using hword) hmax h

theorem splits_tokens (cs : List Char) : Splits cs (tokens cs) := by
  fun_induction tokens cs with
  | case1 => exact Splits.nil
  | case2 rest ih => exact Splits.separator ih
  | case3 c rest hno hc ih => exact ih.push hc
  | case4 c rest hno hc ih =>
      refine Splits.single (by simpa using hc) ?_ ih
      rintro rfl hhead
      obtain ⟨rest', rfl⟩ := List.head?_eq_some_iff.1 hhead
      exact hno rest' rfl rfl

/-- **A text has one reading.** -/
theorem splits_iff (cs : List Char) (ts : List Token) : Splits cs ts ↔ ts = tokens cs := by
  constructor
  · exact Splits.eq_tokens
  · rintro rfl
    exact splits_tokens cs

/-! ### What is kept of a reading -/

/-- Whether a token stays in the short name, given the token that follows it. -/
def Token.stays (next : Option Token) : Token → Bool
  | .word _ => next != some .separator
  | .separator => false
  | .single _ => true

/-- **The text of the tokens that stay**, in order. -/
def kept : List Token → List Char
  | [] => []
  | t :: ts => (if t.stays ts.head? then t.chars else []) ++ kept ts

/-! ### The loop -/

theorem shortFrom_cons (word : List Char) {c : Char} {rest : List Char}
    (h : c = ':' → rest.head? ≠ some ':') :
    shortFrom word (c :: rest) =
      if isWordChar c then shortFrom (c :: word) rest
      else word.reverse ++ c :: shortFrom [] rest := by
  refine shortFrom.eq_3 word c rest ?_
  rintro rest' rfl rfl
  exact h rfl rfl

/-- A word is put aside as a whole. -/
theorem shortFrom_word_append (word : List Char) {w : List Char}
    (hword : ∀ c ∈ w, isWordChar c = true) (rest : List Char) :
    shortFrom word (w ++ rest) = shortFrom (w.reverse ++ word) rest := by
  induction w generalizing word with
  | nil => rfl
  | cons c w ih =>
      have hc : isWordChar c = true := hword c (by simp)
      rw [List.cons_append, shortFrom_cons word fun h => absurd h (ne_colon_of_isWordChar hc),
        if_pos hc, ih (c :: word) fun x hx => hword x (List.mem_cons_of_mem _ hx)]
      simp

/-- **The word kept aside is let through exactly if no separator comes next.** -/
theorem Splits.shortFrom_aside {cs : List Char} {ts : List Token} (h : Splits cs ts)
    (hend : EndsWord cs) (word : List Char) :
    shortFrom word cs =
      (if ts.head? = some .separator then [] else word.reverse) ++ shortFrom [] cs := by
  cases h with
  | nil => simp [shortFrom]
  | separator h => simp [shortFrom]
  | single hc hgreedy h => simp [shortFrom_cons _ hgreedy, hc]
  | word hne hword hmax h => exact absurd hend (not_endsWord_append hne hword)

/-- **The loop keeps what is kept of a reading.** -/
theorem Splits.shortFrom_eq {cs : List Char} {ts : List Token} (h : Splits cs ts) :
    shortFrom [] cs = kept ts := by
  induction h with
  | nil => rfl
  | @word w rest ts hne hword hmax h ih =>
      rw [shortFrom_word_append [] hword, h.shortFrom_aside hmax, ih]
      by_cases hnext : ts.head? = some .separator
      · simp [kept, Token.stays, hnext]
      · simp [kept, Token.stays, Token.chars, hnext]
  | separator h ih => simp [shortFrom, kept, Token.stays, ih]
  | single hc hgreedy h ih =>
      simp [shortFrom_cons _ hgreedy, hc, kept, Token.stays, Token.chars, ih]

theorem toList_short (name : String) : (short name).toList = kept (tokens name.toList) := by
  rw [short, String.toList_ofList, (splits_tokens name.toList).shortFrom_eq]

/-! ### Names without colons -/

/-- A colon is kept only where it stands by itself. -/
theorem Splits.colon_not_mem_kept {cs : List Char} {ts : List Token} (h : Splits cs ts)
    (halone : .single ':' ∉ ts) : ':' ∉ kept ts := by
  induction h with
  | nil => simp [kept]
  | @word w rest ts hne hword hmax h ih =>
      have hrest := ih fun hmem => halone (List.mem_cons_of_mem _ hmem)
      have hw : ':' ∉ w := fun hmem => ne_colon_of_isWordChar (hword ':' hmem) rfl
      unfold kept
      split
      · simpa [Token.chars] using ⟨hw, hrest⟩
      · simpa using hrest
  | separator h ih =>
      have hrest := ih fun hmem => halone (List.mem_cons_of_mem _ hmem)
      simpa [kept, Token.stays] using hrest
  | @single c rest ts hc hgreedy h ih =>
      have hrest := ih fun hmem => halone (List.mem_cons_of_mem _ hmem)
      have hcolon : ':' ≠ c := by
        rintro rfl
        exact halone (List.mem_cons_self ..)
      simpa [kept, Token.stays, Token.chars] using ⟨hcolon, hrest⟩

/-- Where there is no colon the loop lets everything through. -/
theorem shortFrom_of_not_mem {cs : List Char} (h : ':' ∉ cs) (word : List Char) :
    shortFrom word cs = word.reverse ++ cs := by
  induction cs generalizing word with
  | nil => simp [shortFrom]
  | cons c cs ih =>
      rw [List.mem_cons, not_or] at h
      obtain ⟨hc, hcs⟩ := h
      rw [shortFrom_cons word fun hcolon => absurd hcolon.symm hc]
      split
      · rw [ih hcs]
        simp
      · rw [ih hcs]
        rfl

theorem short_of_not_mem {name : String} (h : ':' ∉ name.toList) : short name = name := by
  rw [short, shortFrom_of_not_mem h]
  simp

/-- **The short name drops exactly the path prefixes.**  Every name has one reading, and the short
name is the text of its tokens without the separators and the words directly before one.  So if no
colon stands by itself, the short name has no colon at all, and shortening it changes nothing. -/
theorem short_drops_path_prefixes (name : String) :
    (∀ ts, Splits name.toList ts ↔ ts = tokens name.toList) ∧
      (short name).toList = kept (tokens name.toList) ∧
      (.single ':' ∉ tokens name.toList →
        ':' ∉ (short name).toList ∧ short (short name) = short name) := by
  refine ⟨splits_iff name.toList, toList_short name, ?_⟩
  intro halone
  have hnone : ':' ∉ (short name).toList := by
    rw [toList_short]
    exact (splits_tokens name.toList).colon_not_mem_kept halone
  exact ⟨hnone, short_of_not_mem hnone⟩

/-- A pair of types with paths, one of which starts at the root. -/
theorem pair_drops_path_prefixes :
    .single ':' ∉ tokens "(alloc::vec::Vec<u8>, ::core::Unit)".toList ∧
      short "(alloc::vec::Vec<u8>, ::core::Unit)" = "(Vec<u8>, Unit)" ∧
      ':' ∉ "(Vec<u8>, Unit)".toList ∧ short "(Vec<u8>, Unit)" = "(Vec<u8>, Unit)" := by
  have halone : .single ':' ∉ tokens "(alloc::vec::Vec<u8>, ::core::Unit)".toList := by
    decide +kernel
  have hshort : short "(alloc::vec::Vec<u8>, ::core::Unit)" = "(Vec<u8>, Unit)" := by
    decide +kernel
  obtain ⟨-, -, hnone⟩ := short_drops_path_prefixes "(alloc::vec::Vec<u8>, ::core::Unit)"
  rw [hshort] at hnone
  exact ⟨halone, hshort, hnone halone⟩

-- Colons that stand by themselves may come together in the short name and look like a separator.
example : short ":x:::" = "::" ∧ short (short ":x:::") = "" := by decide +kernel

end ValueLens.TypeName
