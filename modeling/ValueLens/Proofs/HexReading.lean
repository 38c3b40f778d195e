/-
**Reading a hex dump back.**

A hex dump is made to be looked at, and it loses nothing: its lines can be found again in its text,
and each of them tells where it starts, which bytes it shows and how they look as characters.  A
reader needs to know the layout only.  The offset goes up to the first blank, each column has its
place behind it, and what stands between the bars is the gutter, whatever bars and blanks there are
in it.

An indented dump is the dump with a margin in front of every line.  Its lines are those of the dump
again, because no line holds a line break or ends in a carriage return, so that taking a text apart
at its line breaks neither splits nor trims a line.

Main definitions:

* `ValueLens.Text.lines` — the lines of a text;
* `ValueLens.HexDump.foundLines` — the lines that are found in the text of a dump;
* `ValueLens.HexDump.offsetOf`, `ValueLens.HexDump.bytesOf`, `ValueLens.HexDump.gutterOf` — what is
  read from a line.

Main results:

* `ValueLens.Text.lines_flatMap` — lines that are written one after another are found again;
* `ValueLens.HexDump.bytesOf_line`, `ValueLens.HexDump.gutterOf_line` — what is read from a line of
  a dump;
* `ValueLens.HexDump.dump_reads_back` — **a hex dump is lossless**, and a margin is all that an
  indentation adds.
-/
import ValueLens.HexDump
import ValueLens.Proofs.Digits

set_option relaxedAutoImplicit false
set_option autoImplicit false

namespace ValueLens

/-! ### Lines of a text -/

namespace Text

/-- **The lines of a text.**  A line ends at a line feed, together with a carriage return in front
of it; the end of the text ends the last line. -/
def lines : List Char → List (List Char)
  | [] => []
  | '\r' :: '\n' :: cs => [] :: lines cs
  | '\n' :: cs => [] :: lines cs
  | c :: cs =>
      match lines cs with
      | [] => [[c]]
      | l :: ls => (c :: l) :: ls

/-- A line that can be found again: it holds no line feed and does not end in a carriage return. -/
structure IsLine (l : List Char) : Prop where
  no_feed : '\n' ∉ l
  no_return : l.getLast? ≠ some '\r'

theorem lines_cons {c : Char} {cs : List Char} (hfeed : c ≠ '\n')
    (hreturn : c = '\r' → cs.head? ≠ some '\n') :
    lines (c :: cs) = match lines cs with | [] => [[c]] | l :: ls => (c :: l) :: ls := by
  rw [lines]
  · rintro cs' rfl rfl
    exact hreturn rfl rfl
  · exact fun h => hfeed h

theorem lines_line_append {l : List Char} (h : IsLine l) (cs : List Char) :
    lines (l ++ '\n' :: cs) = l :: lines cs := by
  induction l with
  | nil => rw [List.nil_append, lines]
  | cons c l ih =>
      have hl : IsLine l := by
        refine ⟨fun hfeed => h.no_feed (List.mem_cons_of_mem _ hfeed), fun hreturn => ?_⟩
        refine h.no_return ?_
        cases l with
        | nil => simp at hreturn
        | cons d l => rwa [List.getLast?_cons_cons]
      rw [List.cons_append, lines_cons, ih hl]
      · rintro rfl
        exact h.no_feed List.mem_cons_self
      · rintro rfl
        cases l with
        | nil => exact absurd rfl h.no_return
        | cons d l =>
            rintro hd
            exact hl.no_feed (by simp_all)

/-- **Lines that are written one after another are found again.** -/
theorem lines_flatMap {ls : List (List Char)} (h : ∀ l ∈ ls, IsLine l) :
    lines (ls.flatMap fun l => l ++ ['\n']) = ls := by
  induction ls with
  | nil => rfl
  | cons l ls ih =>
      have hrest := ih fun l' hl' => h l' (List.mem_cons_of_mem _ hl')
      rw [List.flatMap_cons, List.append_assoc, List.singleton_append,
        lines_line_append (h l List.mem_cons_self), hrest]

end Text

namespace HexDump

/-! ### What is read from a line -/

/-- The offset: all in front of the first blank. -/
def offsetOf (l : List Char) : List Char := l.takeWhile (· != ' ')

/-- What stands behind the offset and the two blanks after it. -/
def bodyOf (l : List Char) : List Char := (l.dropWhile (· != ' ')).drop 2

/-- Where a column starts behind the offset: three characters each, and the gap after the eighth. -/
def columnStart (index : Nat) : Nat := if index < 8 then 3 * index else 3 * index + 1

/-- The two characters of a column. -/
def cellOf (l : List Char) (index : Nat) : List Char :=
  ((bodyOf l).drop (columnStart index)).take 2

/-- The byte that two digits stand for. -/
def readByte? (cs : List Char) : Option UInt8 := (Numeral.read? 16 cs).map UInt8.ofNat

/-- **The bytes of a line**: what the columns stand for, from left to right; blank columns stand for
nothing. -/
def bytesOf (l : List Char) : List UInt8 :=
  (List.range rowSize).filterMap fun index => readByte? (cellOf l index)

/-- **The gutter of a line**: what stands between the bar behind the columns and the bar at the
end. -/
def gutterOf (l : List Char) : List Char :=
  ((bodyOf l).drop (columnStart rowSize + 2)).dropLast

/-! ### The columns of a line -/

theorem readByte?_byteChars (b : UInt8) : readByte? (byteChars b) = some b := by
  have hb := b.toNat_lt
  have hdigits : ∀ d ∈ [b.toNat / 16, b.toNat % 16], d < 16 := by
    simp only [List.mem_cons, List.not_mem_nil, or_false]
    omega
  have hvalue : Numeral.ofDigits 16 [b.toNat / 16, b.toNat % 16] = b.toNat := by
    simp only [Numeral.ofDigits, List.foldl_cons, List.foldl_nil]
    omega
  have hread := Numeral.read?_map_digitChar (by decide) (by simp) hdigits
  rw [hvalue] at hread
  change (Numeral.read? 16 ([b.toNat / 16, b.toNat % 16].map Numeral.digitChar)).map _ = _
  rw [hread, Option.map_some, UInt8.ofNat_toNat]

/-- The two characters that a column shows, with blanks for a byte that is not there. -/
def shown (row : List UInt8) (index : Nat) : List Char := row[index]?.elim [' ', ' '] byteChars

/-- A column is two characters and a gap. -/
theorem column_eq (row : List UInt8) (index : Nat) :
    column row index = shown row index ++ if index = 7 then [' ', ' '] else [' '] := by
  unfold column shown
  cases row[index]? with
  | none => by_cases h : index = 7 <;> simp [h]
  | some b => by_cases h : index = 7 <;> simp [h]

theorem length_shown (row : List UInt8) (index : Nat) : (shown row index).length = 2 := by
  unfold shown
  cases row[index]? with
  | _ => rfl

/-- A column ends where the next one starts. -/
theorem columnStart_succ (row : List UInt8) {index : Nat} (h : index < rowSize) :
    columnStart (index + 1) = columnStart index + (column row index).length := by
  rw [column_eq, List.length_append, length_shown]
  simp only [columnStart, rowSize] at h ⊢
  by_cases hgap : index = 7
  · simp [hgap]
  · simp only [hgap, if_false, List.length_singleton]
    split <;> split <;> omega

/-- All columns from one on. -/
theorem drop_columns (row : List UInt8) {index : Nat} (h : index ≤ rowSize) (rest : List Char) :
    ((List.range rowSize).flatMap (column row) ++ rest).drop (columnStart index) =
      (List.range' index (rowSize - index)).flatMap (column row) ++ rest := by
  induction index with
  | zero => rw [List.range_eq_range']; rfl
  | succ index ih =>
      have hsplit : List.range' index (rowSize - index) =
          index :: List.range' (index + 1) (rowSize - (index + 1)) := by
        rw [← List.range'_succ]
        congr 1
        omega
      rw [columnStart_succ row h, ← List.drop_drop, ih (Nat.le_of_succ_le h), hsplit,
        List.flatMap_cons, List.append_assoc, List.drop_left]

/-- What a list holds at the first places. -/
theorem filterMap_getElem?_range {α : Type} (xs : List α) (n : Nat) :
    (List.range n).filterMap (fun i => xs[i]?) = xs.take n := by
  induction n with
  | zero => rfl
  | succ n ih =>
      rw [List.range_succ, List.filterMap_append, ih, List.take_add_one]
      cases h : xs[n]? with
      | _ => simp [h]

/-! ### A line of a dump -/

section Line

variable (offset : Nat) (row : List UInt8)

theorem toList_zeroPadded (width radix n : Nat) :
    (Numeral.zeroPadded width radix n).toList =
      List.replicate (width - (Numeral.writeChars radix n).length) '0' ++
        Numeral.writeChars radix n := by
  rw [Numeral.zeroPadded, String.toList_ofList]

/-- Digits are no blanks. -/
theorem ne_blank_of_mem_offset :
    ∀ c ∈ (Numeral.zeroPadded 8 16 offset).toList, (c != ' ') = true := by
  intro c h
  rw [toList_zeroPadded, List.mem_append] at h
  rcases h with h | h
  · rw [List.eq_of_mem_replicate h]
    rfl
  · have hdigit := Numeral.isSome_digitValue?_of_mem h
    by_contra hblank
    obtain rfl : c = ' ' := by simpa using hblank
    exact absurd hdigit (by decide)

theorem offsetOf_line : offsetOf (line offset row) = (Numeral.zeroPadded 8 16 offset).toList := by
  simp only [offsetOf, line, List.append_assoc]
  rw [List.takeWhile_append_of_pos (ne_blank_of_mem_offset offset)]
  simp

theorem bodyOf_line :
    bodyOf (line offset row) =
      (List.range rowSize).flatMap (column row) ++
        ([' ', '|'] ++ (row.map gutterChar ++ ['|'])) := by
  simp only [bodyOf, line, List.append_assoc]
  rw [List.dropWhile_append_of_pos (ne_blank_of_mem_offset offset)]
  simp

theorem cellOf_line {index : Nat} (h : index < rowSize) :
    cellOf (line offset row) index = shown row index := by
  have hfirst : List.range' index (rowSize - index) =
      index :: List.range' (index + 1) (rowSize - (index + 1)) := by
    rw [← List.range'_succ]
    congr 1
    omega
  rw [cellOf, bodyOf_line, drop_columns row (Nat.le_of_lt h), hfirst, List.flatMap_cons, column_eq,
    List.append_assoc, List.append_assoc, ← length_shown row index, List.take_left]

/-- **The columns of a line stand for its bytes.** -/
theorem bytesOf_line {row : List UInt8} (hrow : row.length ≤ rowSize) :
    bytesOf (line offset row) = row := by
  have hcell : ∀ index ∈ List.range rowSize,
      readByte? (cellOf (line offset row) index) = row[index]? := by
    intro index hindex
    rw [cellOf_line offset row (List.mem_range.1 hindex), shown]
    cases row[index]? with
    | none => rfl
    | some b => exact readByte?_byteChars b
  rw [bytesOf, List.filterMap_congr hcell, filterMap_getElem?_range, List.take_of_length_le hrow]

/-- **The gutter of a line shows its bytes.** -/
theorem gutterOf_line : gutterOf (line offset row) = row.map gutterChar := by
  rw [gutterOf, bodyOf_line, ← List.drop_drop, drop_columns row (Nat.le_refl _)]
  simp

/-- No character of a line is a line feed. -/
theorem feed_not_mem_line : '\n' ∉ line offset row := by
  have hcolumn (index : Nat) : '\n' ∉ column row index := by
    have hdigit {d : Nat} (hd : d < 16) : '\n' ≠ Numeral.digitChar d := by
      revert d
      decide
    rw [column_eq, shown]
    cases row[index]? with
    | none => by_cases h : index = 7 <;> simp [h]
    | some b =>
        have hb := b.toNat_lt
        have hhigh := hdigit (show b.toNat / 16 < 16 by omega)
        have hlow := hdigit (show b.toNat % 16 < 16 by omega)
        by_cases h : index = 7 <;> simp [h, byteChars, hhigh, hlow]
  have hgutter (b : UInt8) : '\n' ≠ gutterChar b := by
    have hall : ∀ n < 256, '\n' ≠ gutterChar (UInt8.ofNat n) := by decide +kernel
    rw [← UInt8.ofNat_toNat (x := b)]
    exact hall b.toNat b.toNat_lt
  have hoffset : '\n' ∉ (Numeral.zeroPadded 8 16 offset).toList := by
    rw [toList_zeroPadded, List.mem_append]
    rintro (h | h)
    · exact absurd (List.eq_of_mem_replicate h) (by decide)
    · exact absurd (Numeral.isSome_digitValue?_of_mem h) (by decide)
  simp only [line, List.mem_append, List.mem_cons, List.mem_flatMap, List.mem_map]
  rintro (((((h | h) | ⟨index, -, h⟩) | h) | ⟨b, -, h⟩) | h)
  · exact hoffset h
  · simp at h
  · exact hcolumn index h
  · simp at h
  · exact hgutter b h.symm
  · simp at h

/-- The bar at its end keeps a line together, also behind a margin. -/
theorem isLine_margin_append {margin : List Char} (hmargin : '\n' ∉ margin) :
    Text.IsLine (margin ++ line offset row) := by
  refine ⟨?_, ?_⟩
  · rw [List.mem_append]
    rintro (h | h)
    · exact hmargin h
    · exact feed_not_mem_line offset row h
  · rw [line, ← List.append_assoc, List.getLast?_concat]
    decide

end Line

/-! ### The rows of a dump -/

theorem rowsFrom_cons (fuel : Nat) {bytes : List UInt8} (h : bytes ≠ []) :
    rowsFrom (fuel + 1) bytes =
      bytes.take rowSize :: rowsFrom fuel (bytes.drop rowSize) := by
  cases bytes with
  | nil => exact absurd rfl h
  | cons b bytes => rfl

theorem rowsFrom_spec {fuel : Nat} {bytes : List UInt8} (h : bytes.length ≤ fuel) :
    (rowsFrom fuel bytes).length = (bytes.length + 15) / 16 ∧
      (rowsFrom fuel bytes).flatten = bytes ∧
      ∀ row ∈ rowsFrom fuel bytes, row.length ≤ rowSize := by
  induction fuel generalizing bytes with
  | zero =>
      obtain rfl : bytes = [] := List.length_eq_zero_iff.1 (by omega)
      simp [rowsFrom]
  | succ fuel ih =>
      by_cases hbytes : bytes = []
      · simp [hbytes, rowsFrom]
      · have hpos := List.length_pos_of_ne_nil hbytes
        have hrest : (bytes.drop rowSize).length = bytes.length - 16 := List.length_drop
        obtain ⟨hlength, hflatten, hrows⟩ := ih (show (bytes.drop rowSize).length ≤ fuel by omega)
        rw [rowsFrom_cons fuel hbytes]
        refine ⟨?_, ?_, ?_⟩
        · rw [List.length_cons, hlength, hrest]
          omega
        · rw [List.flatten_cons, hflatten, List.take_append_drop]
        · rintro row hrow
          rcases List.mem_cons.1 hrow with rfl | hrow
          · exact List.length_take_le _ _
          · exact hrows row hrow

/-- **The rows of some bytes**: as many as are needed, none longer than a line, and together they
are the bytes. -/
theorem rows_spec (bytes : List UInt8) :
    (rows bytes).length = (bytes.length + 15) / 16 ∧ (rows bytes).flatten = bytes ∧
      ∀ row ∈ rows bytes, row.length ≤ rowSize :=
  rowsFrom_spec (Nat.le_refl _)

theorem length_linesFrom (offset : Nat) (rs : List (List UInt8)) :
    (linesFrom offset rs).length = rs.length := by
  induction rs generalizing offset with
  | nil => rfl
  | cons row rs ih => rw [linesFrom, List.length_cons, List.length_cons, ih]

theorem getElem?_linesFrom (offset : Nat) (rs : List (List UInt8)) (i : Nat) :
    (linesFrom offset rs)[i]? = rs[i]?.map (line (offset + 16 * i)) := by
  induction rs generalizing offset i with
  | nil => rfl
  | cons row rs ih =>
      cases i with
      | zero => rfl
      | succ i =>
          have hnext : offset + rowSize + 16 * i = offset + 16 * (i + 1) := by
            simp only [rowSize]
            omega
          rw [linesFrom, List.getElem?_cons_succ, List.getElem?_cons_succ, ih, hnext]

/-- What is read from the lines one after another. -/
theorem flatMap_linesFrom {α : Type} {read : List Char → List α} {content : List UInt8 → List α}
    (offset : Nat) {rs : List (List UInt8)}
    (h : ∀ row ∈ rs, ∀ offset, read (line offset row) = content row) :
    (linesFrom offset rs).flatMap read = rs.flatMap content := by
  induction rs generalizing offset with
  | nil => rfl
  | cons row rs ih =>
      rw [linesFrom, List.flatMap_cons, List.flatMap_cons, h row List.mem_cons_self,
        ih _ fun row' hrow' => h row' (List.mem_cons_of_mem _ hrow')]

/-- **The lines of a dump are found again in its text**, and behind any margin without line
feeds. -/
theorem lines_flatMap_margin {margin : List Char} (hmargin : '\n' ∉ margin) (bytes : List UInt8) :
    Text.lines ((lines bytes).flatMap fun l => margin ++ l ++ ['\n']) =
      (lines bytes).map (margin ++ ·) := by
  have hlines : ∀ l ∈ (lines bytes).map (margin ++ ·), Text.IsLine l := by
    intro l hl
    obtain ⟨l, hmem, rfl⟩ := List.mem_map.1 hl
    obtain ⟨i, hi⟩ := List.mem_iff_getElem?.1 hmem
    rw [lines, getElem?_linesFrom] at hi
    obtain ⟨row, -, rfl⟩ := Option.map_eq_some_iff.1 hi
    exact isLine_margin_append _ row hmargin
  have hfound := Text.lines_flatMap hlines
  rwa [List.flatMap_map] at hfound

theorem lines_text (bytes : List UInt8) : Text.lines (text bytes).toList = lines bytes := by
  have hfound := lines_flatMap_margin List.not_mem_nil bytes
  simpa [text] using hfound

/-- What is read of an offset. -/
theorem offset_reads_back (n : Nat) :
    Numeral.read? 16 (Numeral.zeroPadded 8 16 n).toList = some n ∧
      8 ≤ (Numeral.zeroPadded 8 16 n).toList.length ∧
      ∀ c ∈ (Numeral.zeroPadded 8 16 n).toList, c ∈ "0123456789abcdef".toList := by
  rw [toList_zeroPadded]
  refine ⟨Numeral.read?_zeros_writeChars 16 _ n, ?_, ?_⟩
  · rw [List.length_append, List.length_replicate]
    omega
  · intro c hc
    rcases List.mem_append.1 hc with hc | hc
    · rw [List.eq_of_mem_replicate hc]
      decide
    · obtain ⟨d, hd, rfl⟩ := List.mem_map.1 hc
      have hall : ∀ d < 16, Numeral.digitChar d ∈ "0123456789abcdef".toList := by decide
      exact hall d (Numeral.lt_of_mem_digits (by decide) hd)

/-! ### The whole dump -/

/-- **The lines that are found in the text of a dump.** -/
def foundLines (bytes : List UInt8) : List (List Char) := Text.lines (text bytes).toList

/-- The margin of an indented dump. -/
def margin (indent : String) (depth : Nat) : List Char :=
  (List.replicate depth indent.toList).flatten

/-- **A hex dump is lossless.**  Its text is one line for every sixteen bytes.  Each line starts
with the place of its first byte in eight lowercase hexadecimal digits, or more where these are not
enough; the columns of all lines stand for the bytes, and the gutters show each byte as itself if it
is visible or a space and as a dot otherwise.  An indented dump is the same lines behind a margin,
and where the margin has no line feed these are all its lines. -/
theorem dump_reads_back (bytes : List UInt8) :
    (text bytes).toList = (foundLines bytes).flatMap (fun l => l ++ ['\n']) ∧
      (foundLines bytes).length = (bytes.length + 15) / 16 ∧
      (∀ i l, (foundLines bytes)[i]? = some l →
        (Numeral.zeroPadded 8 16 (16 * i)).toList ++ [' ', ' '] <+: l ∧
          Numeral.read? 16 (offsetOf l) = some (16 * i) ∧ 8 ≤ (offsetOf l).length ∧
          ∀ c ∈ offsetOf l, c ∈ "0123456789abcdef".toList) ∧
      (foundLines bytes).flatMap bytesOf = bytes ∧
      ((foundLines bytes).flatMap gutterOf).length = bytes.length ∧
      (∀ (j : Nat) (b : UInt8), bytes[j]? = some b → ((foundLines bytes).flatMap gutterOf)[j]? =
        some (if 32 ≤ b ∧ b ≤ 126 then Char.ofNat b.toNat else '.')) ∧
      ∀ (indent : String) (depth : Nat),
        (indented indent depth bytes).toList =
            (foundLines bytes).flatMap (fun l => margin indent depth ++ l ++ ['\n']) ∧
          ('\n' ∉ indent.toList → Text.lines (indented indent depth bytes).toList =
            (foundLines bytes).map (margin indent depth ++ ·)) := by
  have hls : foundLines bytes = linesFrom 0 (rows bytes) := lines_text bytes
  obtain ⟨hlength, hflatten, hrows⟩ := rows_spec bytes
  have hgutters : (foundLines bytes).flatMap gutterOf = bytes.map gutterChar := by
    rw [hls, flatMap_linesFrom 0 fun row _ offset => gutterOf_line offset row, List.flatMap_def,
      ← List.map_flatten, hflatten]
  refine ⟨?_, ?_, ?_, ?_, ?_, ?_, ?_⟩
  · rw [hls, text, String.toList_ofList]
    rfl
  · rw [hls, length_linesFrom, hlength]
  · intro i l hl
    rw [hls, getElem?_linesFrom, Nat.zero_add] at hl
    obtain ⟨row, -, rfl⟩ := Option.map_eq_some_iff.1 hl
    rw [offsetOf_line]
    refine ⟨?_, offset_reads_back _⟩
    simp only [line, List.append_assoc]
    rw [← List.append_assoc]
    exact List.prefix_append _ _
  · rw [hls, flatMap_linesFrom 0 fun row hrow offset => bytesOf_line offset (hrows row hrow),
      List.flatMap_id', hflatten]
  · rw [hgutters, List.length_map]
  · intro j b hb
    rw [hgutters, List.getElem?_map, hb]
    rfl
  · intro indent depth
    have htext : (indented indent depth bytes).toList =
        (foundLines bytes).flatMap fun l => margin indent depth ++ l ++ ['\n'] := by
      rw [hls, indented, String.toList_ofList]
      rfl
    refine ⟨htext, fun hindent => ?_⟩
    rw [htext, hls]
    refine lines_flatMap_margin ?_ bytes
    simp only [margin, List.mem_flatten]
    rintro ⟨part, hpart, hfeed⟩
    rw [List.eq_of_mem_replicate hpart] at hfeed
    exact hindent hfeed

/-- Eighteen bytes, among them bars, blanks, a line feed and a carriage return at the end of a
line. -/
def specimen : List UInt8 :=
  [124, 32, 10, 0, 255, 65, 66, 67, 124, 124, 127, 126, 48, 49, 32, 13, 32, 124]

/-- The specimen is read back from two lines, also behind a margin that looks like a gutter. -/
theorem specimen_reads_back :
    (foundLines specimen).length = 2 ∧ (foundLines specimen).flatMap bytesOf = specimen ∧
      (∃ l, (foundLines specimen)[1]? = some l ∧ Numeral.read? 16 (offsetOf l) = some 16) ∧
      specimen[2]? = some 10 ∧ ((foundLines specimen).flatMap gutterOf)[2]? = some '.' ∧
      '\n' ∉ "| ".toList ∧ Text.lines (indented "| " 2 specimen).toList =
        (foundLines specimen).map (['|', ' ', '|', ' '] ++ ·) := by
  obtain ⟨-, hlength, hoffsets, hbytes, -, hgutters, hindented⟩ := dump_reads_back specimen
  obtain ⟨-, hmargin⟩ := hindented "| " 2
  have htwo : (foundLines specimen).length = 2 := hlength
  have hsecond : (foundLines specimen)[1]? = some (foundLines specimen)[1] :=
    List.getElem?_eq_getElem (by omega)
  exact ⟨htwo, hbytes, ⟨_, hsecond, (hoffsets 1 _ hsecond).2.1⟩, rfl, hgutters 2 10 rfl, by decide,
    hmargin (by decide)⟩

end HexDump

end ValueLens
