/-
**The text of a document can be taken apart.**

A dumped document is its type in parentheses, its lengths, and its content.  The lines of a
container stand between braces, each behind the indentation of its depth, which may be any text.
Reading needs no knowledge of the indentation: the lengths tell how many lines there are, both texts
have the same indentation at the same depth, and it is cancelled.  What remains is that every piece
tells where it ends: types end at the parenthesis, lengths at the quotation mark or the brace,
quoted texts at their closing mark, and numbers where the next mark stands.

Main definitions:

* `ValueLens.Json.Value.block` — the text of a document without the indentation in front.

Main results:

* `ValueLens.Mode.lengths_injective` — the lengths of a container tell how many parts it has;
* `ValueLens.Json.Value.block_unambiguous` — **a document can be told from its text**, up to
  agreement.
-/
import ValueLens.Proofs.Agreement
import ValueLens.Proofs.Writing

set_option relaxedAutoImplicit false
set_option autoImplicit false

namespace ValueLens

open Text (Stops)

/-! ### Lengths -/

namespace Mode

/-- The four forms of lengths. -/
theorem toList_lengths (c : Config) (n capacity : Nat) (always : Bool) :
    (lengths c n capacity always).toList =
      match n != 0 || always, !c.disableCapacities && capacity != 0 with
      | true, true =>
          "(len=".toList ++ (Numeral.writeChars 10 n ++ (" cap=".toList ++
            (Numeral.writeChars 10 capacity ++ ") ".toList)))
      | true, false => "(len=".toList ++ (Numeral.writeChars 10 n ++ ") ".toList)
      | false, true => "(cap=".toList ++ (Numeral.writeChars 10 capacity ++ ") ".toList)
      | false, false => [] := by
  unfold lengths
  cases n != 0 || always <;> cases !c.disableCapacities && capacity != 0 <;>
    simp [Numeral.decimal, Numeral.write]

theorem lengths_zero (c : Config) : (lengths c 0 0 false).toList = [] := by
  simp [lengths]

/-- A length that is shown can be split off: no digit follows it. -/
theorem exists_toList_lengths (c : Config) {n : Nat} (capacity : Nat) {always : Bool}
    (h : (n != 0 || always) = true) :
    ∃ tail, Stops (fun c => (Numeral.digitValue? c).isSome) tail ∧
      (lengths c n capacity always).toList =
        "(len=".toList ++ (Numeral.writeChars 10 n ++ tail) := by
  rw [toList_lengths, h]
  cases !c.disableCapacities && capacity != 0
  · exact ⟨_, by rintro c ⟨⟩; decide, rfl⟩
  · exact ⟨_, by rintro c ⟨⟩; decide, rfl⟩

/-- **The lengths of a container tell how many parts it has.** -/
theorem lengths_injective {c : Config} {n m : Nat} (capacity : Nat → Nat) {always : Bool}
    (hzero : capacity 0 = 0)
    (h : (lengths c n (capacity n) always).toList = (lengths c m (capacity m) always).toList) :
    n = m := by
  -- a length that is not shown belongs to an empty container
  have hhidden {n : Nat} (hn : (n != 0 || always) = false) :
      n = 0 ∧ (lengths c n (capacity n) always).toList = [] := by
    obtain ⟨hn, rfl⟩ := Bool.or_eq_false_iff.1 hn
    obtain rfl : n = 0 := by simpa using hn
    exact ⟨rfl, by rw [hzero, lengths_zero]⟩
  cases hn : (n != 0 || always) <;> cases hm : (m != 0 || always)
  · rw [(hhidden hn).1, (hhidden hm).1]
  · obtain ⟨tail, -, hshown⟩ := exists_toList_lengths c (capacity m) hm
    rw [(hhidden hn).2, hshown] at h
    exact absurd h.symm (by simp)
  · obtain ⟨tail, -, hshown⟩ := exists_toList_lengths c (capacity n) hn
    rw [(hhidden hm).2, hshown] at h
    exact absurd h (by simp)
  · obtain ⟨tail, htail, hshown⟩ := exists_toList_lengths c (capacity n) hn
    obtain ⟨tail', htail', hshown'⟩ := exists_toList_lengths c (capacity m) hm
    rw [hshown, hshown', List.append_cancel_left_eq] at h
    exact (Text.writeChars_unambiguous 10 htail htail' h).1

/-- Lengths hold no mark that a content begins with. -/
theorem ne_of_mem_lengths {c : Config} {n capacity : Nat} {always : Bool} {x : Char}
    (hx : x ∈ (lengths c n capacity always).toList) : x ≠ '"' ∧ x ≠ '\x7b' := by
  have hdigits {k : Nat} (hk : x ∈ Numeral.writeChars 10 k) : x ≠ '"' ∧ x ≠ '\x7b' := by
    have hdigit := Numeral.isDigit_of_mem hk
    constructor <;> (rintro rfl; exact absurd hdigit (by decide))
  have hplain {t : String} (ht : ∀ y ∈ t.toList, y ≠ '"' ∧ y ≠ '\x7b') (hxt : x ∈ t.toList) :
      x ≠ '"' ∧ x ≠ '\x7b' := ht x hxt
  rw [toList_lengths] at hx
  split at hx <;> simp only [List.mem_append, List.not_mem_nil] at hx
  · rcases hx with hx | hx | hx | hx | hx
    · exact hplain (by simp) hx
    · exact hdigits hx
    · exact hplain (by simp) hx
    · exact hdigits hx
    · exact hplain (by simp) hx
  all_goals
    rcases hx with hx | hx | hx
    · exact hplain (by simp) hx
    · exact hdigits hx
    · exact hplain (by simp) hx

end Mode

namespace Json.Value

open Mode (margin tag ending)

/-! ### The text of a document -/

/-- A quoted text behind its length. -/
def quotation (c : Config) (t : String) : List Char :=
  (Mode.lengths c t.utf8ByteSize 0 false).toList ++ Text.quotedChars t.toList

mutual

/-- The lengths and the content of a document. -/
def content (c : Config) (depth : Nat) : Value → List Char
  | .null => Mode.nilMark.toList
  | .bool b => (Scalar.bool b).toList
  | .number n => n.text.toList
  | .text t => quotation c t
  | .array items =>
      (Mode.lengths c items.length items.length false).toList ++ ['\x7b', '\n'] ++
        itemLines c (depth + 1) items ++ margin c depth ++ ['\x7d']
  | .object members =>
      (Mode.lengths c members.length 0 true).toList ++ ['\x7b', '\n'] ++
        memberLines c (depth + 1) members ++ margin c depth ++ ['\x7d']

/-- The lines of the items of an array. -/
def itemLines (c : Config) (depth : Nat) : List Value → List Char
  | [] => []
  | v :: rest =>
      margin c depth ++ (tag v.kind ++ content c depth v) ++ ending rest.isEmpty ++
        itemLines c depth rest

/-- The lines of the members of an object. -/
def memberLines (c : Config) (depth : Nat) : List (String × Value) → List Char
  | [] => []
  | (name, v) :: rest =>
      margin c depth ++ (tag nameKind ++ quotation c name) ++ [':', ' '] ++
        (tag v.kind ++ content c depth v) ++ ending rest.isEmpty ++ memberLines c depth rest

end

/-- **The text of a document**, without the indentation in front. -/
def block (c : Config) (depth : Nat) (v : Value) : List Char := tag v.kind ++ content c depth v

/-! ### Pieces of the text -/

/-- Types end at the parenthesis. -/
theorem tag_inj {t t' : String} (ht : ')' ∉ t.toList) (ht' : ')' ∉ t'.toList)
    {rest rest' : List Char} (h : tag t ++ rest = tag t' ++ rest') : t = t' ∧ rest = rest' := by
  have hclass {t : String} (ht : ')' ∉ t.toList) : ∀ c ∈ t.toList, (c != ')') = true := by
    intro c hc
    simp only [bne_iff_ne]
    rintro rfl
    exact ht hc
  have hstop (rest : List Char) : Stops (fun c => c != ')') (')' :: rest) := by
    rintro c ⟨⟩
    decide
  simp only [tag, String.toList_append, String.reduceToList, List.cons_append, List.nil_append,
    List.append_assoc, List.cons.injEq, true_and] at h
  obtain ⟨hname, hrest⟩ := Text.append_inj_of_stops (hclass ht) (hclass ht') (hstop _) (hstop _) h
  exact ⟨String.toList_inj.1 hname, by simpa using hrest⟩

theorem not_mem_kind (v : Value) : ')' ∉ v.kind.toList := by
  cases v <;> simp [kind]

/-- The type of a document can be split off. -/
theorem kind_of_block {c : Config} {depth : Nat} {a b : Value} {rest rest' : List Char}
    (h : block c depth a ++ rest = block c depth b ++ rest') :
    a.kind = b.kind ∧ content c depth a ++ rest = content c depth b ++ rest' := by
  rw [block, block, List.append_assoc, List.append_assoc] at h
  exact tag_inj a.not_mem_kind b.not_mem_kind h

/-- Lengths end where the content begins. -/
theorem lengths_split {c : Config} {n m capacity capacity' : Nat} {always : Bool} {mark : Char}
    (hmark : mark = '"' ∨ mark = '\x7b') {rest rest' : List Char}
    (h : (Mode.lengths c n capacity always).toList ++ mark :: rest =
      (Mode.lengths c m capacity' always).toList ++ mark :: rest') :
    (Mode.lengths c n capacity always).toList = (Mode.lengths c m capacity' always).toList ∧
      rest = rest' := by
  have hclass {n capacity : Nat} : ∀ x ∈ (Mode.lengths c n capacity always).toList,
      (x != mark) = true := by
    intro x hx
    obtain ⟨hquote, hbrace⟩ := Mode.ne_of_mem_lengths hx
    rcases hmark with rfl | rfl
    · simpa using hquote
    · simpa using hbrace
  have hstop (rest : List Char) : Stops (fun x => x != mark) (mark :: rest) := by
    rintro x ⟨⟩
    simp
  obtain ⟨hlengths, hrest⟩ := Text.append_inj_of_stops hclass hclass (hstop rest) (hstop rest') h
  exact ⟨hlengths, (List.cons.inj hrest).2⟩

theorem quotation_unambiguous (c : Config) :
    Text.Unambiguous (fun _ => True) Eq (quotation c) := by
  intro s t rest rest' _ _ h
  rw [quotation, quotation, List.append_assoc, List.append_assoc] at h
  have hsplit := (lengths_split (Or.inl rfl) (by simpa [Text.quotedChars] using h)).1
  rw [hsplit, List.append_cancel_left_eq] at h
  obtain ⟨hchars, hrest⟩ := Text.quotedChars_unambiguous trivial trivial h
  exact ⟨String.toList_inj.1 hchars, hrest⟩

/-- What stands after a part of a container does not go on with a number. -/
theorem stops_ending (last : Bool) (rest : List Char) :
    Stops Scalar.isNumeric (ending last ++ rest) := by
  cases last <;> (rintro c ⟨⟩; decide)

/-- Of two lists of one length both are at their end or none. -/
theorem isEmpty_eq_of_length_eq {α : Type} {xs ys : List α} (h : xs.length = ys.length) :
    xs.isEmpty = ys.isEmpty := by
  cases xs <;> cases ys <;> simp_all

/-! ### Documents -/

mutual

/-- **A document can be told from its text**, whatever follows that is no part of a number. -/
theorem block_unambiguous (c : Config) :
    ∀ (a b : Value) {depth : Nat} {rest rest' : List Char}, a.Finite → b.Finite →
      Stops Scalar.isNumeric rest → Stops Scalar.isNumeric rest' →
      block c depth a ++ rest = block c depth b ++ rest' → a.Agree b ∧ rest = rest'
  | .null, b, depth, rest, rest', _, _, _, _, h => by
      obtain ⟨hkind, h⟩ := kind_of_block h
      cases b with
      | null => exact ⟨trivial, List.append_cancel_left h⟩
      | _ => simp [kind] at hkind
  | .bool x, b, depth, rest, rest', _, _, _, _, h => by
      obtain ⟨hkind, h⟩ := kind_of_block h
      cases b with
      | bool y => cases x <;> cases y <;> simp_all [content, Scalar.bool, Agree]
      | _ => simp [kind] at hkind
  | .number m, b, depth, rest, rest', ha, hb, hr, hr', h => by
      obtain ⟨hkind, h⟩ := kind_of_block h
      cases b with
      | number n => exact Number.text_unambiguous ha hb hr hr' h
      | _ => simp [kind] at hkind
  | .text s, b, depth, rest, rest', _, _, _, _, h => by
      obtain ⟨hkind, h⟩ := kind_of_block h
      cases b with
      | text t => exact quotation_unambiguous c trivial trivial h
      | _ => simp [kind] at hkind
  | .array xs, b, depth, rest, rest', ha, hb, _, _, h => by
      obtain ⟨hkind, h⟩ := kind_of_block h
      cases b with
      | array ys =>
          simp only [content, List.append_assoc, List.cons_append, List.nil_append] at h
          obtain ⟨hlengths, h⟩ := lengths_split (Or.inr rfl) h
          -- as many lines on both sides, so that neither can end within the other
          have hlength : xs.length = ys.length := Mode.lengths_injective id rfl hlengths
          obtain ⟨hitems, h⟩ := itemLines_unambiguous c xs ys hlength ha hb (List.cons.inj h).2
          exact ⟨hitems, (List.cons.inj (List.append_cancel_left h)).2⟩
      | _ => simp [kind] at hkind
  | .object xs, b, depth, rest, rest', ha, hb, _, _, h => by
      obtain ⟨hkind, h⟩ := kind_of_block h
      cases b with
      | object ys =>
          simp only [content, List.append_assoc, List.cons_append, List.nil_append] at h
          obtain ⟨hlengths, h⟩ := lengths_split (Or.inr rfl) h
          have hlength : xs.length = ys.length := Mode.lengths_injective (fun _ => 0) rfl hlengths
          obtain ⟨hmembers, h⟩ := memberLines_unambiguous c xs ys hlength ha hb (List.cons.inj h).2
          exact ⟨⟨ys, hmembers, List.Perm.refl ys⟩, (List.cons.inj (List.append_cancel_left h)).2⟩
      | _ => simp [kind] at hkind

/-- The lines of as many items. -/
theorem itemLines_unambiguous (c : Config) :
    ∀ (xs ys : List Value) {depth : Nat} {rest rest' : List Char}, xs.length = ys.length →
      FiniteItems xs → FiniteItems ys →
      itemLines c depth xs ++ rest = itemLines c depth ys ++ rest' →
      AgreeItems xs ys ∧ rest = rest'
  | [], [], depth, rest, rest', _, _, _, h => ⟨trivial, h⟩
  | x :: xs, y :: ys, depth, rest, rest', hlength, hx, hy, h => by
      have hlength : xs.length = ys.length := Nat.succ.inj hlength
      -- the indentation is the same text on both sides, whatever it looks like
      simp only [itemLines, List.append_assoc, List.append_cancel_left_eq] at h
      obtain ⟨hxy, h⟩ := block_unambiguous c x y hx.1 hy.1 (stops_ending _ _) (stops_ending _ _)
        (by simpa only [block, List.append_assoc] using h)
      rw [isEmpty_eq_of_length_eq hlength, List.append_cancel_left_eq] at h
      obtain ⟨hrest, h⟩ := itemLines_unambiguous c xs ys hlength hx.2 hy.2 h
      exact ⟨⟨hxy, hrest⟩, h⟩
  | [], _ :: _, _, _, _, hlength, _, _, _ => by simp at hlength
  | _ :: _, [], _, _, _, hlength, _, _, _ => by simp at hlength

/-- The lines of as many members. -/
theorem memberLines_unambiguous (c : Config) :
    ∀ (xs ys : List (String × Value)) {depth : Nat} {rest rest' : List Char},
      xs.length = ys.length → FiniteMembers xs → FiniteMembers ys →
      memberLines c depth xs ++ rest = memberLines c depth ys ++ rest' →
      AgreeMembers xs ys ∧ rest = rest'
  | [], [], depth, rest, rest', _, _, _, h => ⟨trivial, h⟩
  | (n, x) :: xs, (m, y) :: ys, depth, rest, rest', hlength, hx, hy, h => by
      have hlength : xs.length = ys.length := Nat.succ.inj hlength
      simp only [memberLines, List.append_assoc, List.append_cancel_left_eq] at h
      obtain ⟨hname, h⟩ := quotation_unambiguous c trivial trivial h
      obtain ⟨hxy, h⟩ := block_unambiguous c x y hx.1 hy.1 (stops_ending _ _) (stops_ending _ _)
        (by simpa only [block, List.append_assoc, List.append_cancel_left_eq] using h)
      rw [isEmpty_eq_of_length_eq hlength, List.append_cancel_left_eq] at h
      obtain ⟨hrest, h⟩ := memberLines_unambiguous c xs ys hlength hx.2 hy.2 h
      exact ⟨⟨hname, hxy, hrest⟩, h⟩
  | [], _ :: _, _, _, _, hlength, _, _, _ => by simp at hlength
  | _ :: _, [], _, _, _, hlength, _, _, _ => by simp at hlength

end

end Json.Value

end ValueLens
