import SpectralResponse.Proofs.Except
import SpectralResponse.Proofs.Scalar.Rational
import SpectralResponse.Spectrum.Table
import Mathlib.Data.List.TakeWhile

/-!
# Text that is read as columns

Columns grow while a text is read: each line that holds a row puts one number on top of each column, and the
first such line starts the columns. That there are no columns yet tells that no row has been read, which is safe
because a line that holds a row has at least one word (`Text.words_eq_nil_iff`). The invariant `Held` says what the
columns are after some rows.

Which lines hold rows and what stands in them is said apart from the reader: by the first character of a line that
is not blank (`HoldsRow`), and by the words of these lines (`wordRows`).

## What is proved

* `isRow_iff` — the reader takes a line for a row if its first character that is not blank starts no comment.
* `Held.addRow` — one step: a row that is not refused is put on top of the columns.
* `Held.of_foldlM`, `Held.exists_foldlM` — a run: the columns hold all rows, and rows that agree are all taken.
* `text_is_read_iff_well_formed` — a text is read exactly if its rows are numbers and agree in length, and what comes
  out is column by column what stands in the text.
-/

namespace SpectralResponse

/-! ### Words -/

namespace Text

theorem flatten_splitAt (isCut : Char → Bool) (cs : List Char) :
    (splitAt isCut cs).flatten = cs.filter (!isCut ·) := by
  induction cs with
  | nil => rfl
  | cons c cs ih =>
    by_cases hc : isCut c
    · simp [splitAt, hc, ih]
    · cases hpieces : splitAt isCut cs <;> simp_all [splitAt]

/-- The words are the text without its blanks. -/
theorem flatten_words (cs : List Char) : (words cs).flatten = cs.filter (!isBlank ·) := by
  rw [words, List.flatten_filter_not_isEmpty, flatten_splitAt]

theorem words_eq_nil_iff {cs : List Char} : words cs = [] ↔ ∀ c ∈ cs, isBlank c = true := by
  have hblank : (words cs).flatten = [] ↔ ∀ c ∈ cs, isBlank c = true := by simp [flatten_words]
  rw [← hblank]
  constructor
  · intro h
    rw [h, List.flatten_nil]
  · intro h
    rw [List.eq_nil_iff_forall_not_mem]
    intro word hword
    have hempty := List.flatten_eq_nil_iff.1 h word hword
    simp [words, hempty] at hword

/-- Without blanks at its ends a text starts with its first character that is not blank. -/
theorem head?_trimmed (cs : List Char) : (trimmed cs).head? = cs.find? (!isBlank ·) := by
  have hstart : (cs.dropWhile isBlank).head? = cs.find? (!isBlank ·) := by
    simp [List.find?_eq_head?_dropWhile_not]
  rw [← hstart, trimmed]
  cases hrest : cs.dropWhile isBlank with
  | nil => rfl
  | cons c rest =>
    rw [hrest, List.head?_cons] at hstart
    have hc : isBlank c = false := by simpa using List.find?_some hstart.symm
    rw [List.reverse_cons, List.dropWhile_append]
    split <;> simp [hc]

end Text

namespace Columns

variable {α : Type} {number? : List Char → Option α} {origin : String} {least line : Nat}

/-! ### Rows of a text -/

/-- Some character of the line is not blank, and the first such character starts no comment. -/
def HoldsRow (line : List Char) : Prop := ∃ c ∈ line.find? (!Text.isBlank ·), c ≠ '#' ∧ c ≠ '!'

instance : DecidablePred HoldsRow := fun line =>
  inferInstanceAs (Decidable (∃ c ∈ line.find? (!Text.isBlank ·), c ≠ '#' ∧ c ≠ '!'))

/-- The words of each line that holds a row. -/
def wordRows (text : List Char) : List (List (List Char)) :=
  ((Text.lines text).filter (HoldsRow ·)).map Text.words

theorem isRow_iff {line : List Char} : isRow line = true ↔ HoldsRow line := by
  rw [isRow, HoldsRow, ← Text.head?_trimmed]
  cases Text.trimmed line <;> simp

/-- A line that holds a row has a word. -/
theorem HoldsRow.words_ne_nil {line : List Char} (h : HoldsRow line) : Text.words line ≠ [] := by
  obtain ⟨c, hc, -⟩ := h
  intro hnone
  have hblank := Text.words_eq_nil_iff.1 hnone c (List.mem_of_find?_eq_some hc)
  have hnot := List.find?_some hc
  simp [hblank] at hnot

theorem map_words_rowLines (text : List Char) :
    (rowLines text).map (fun line => Text.words line.1) = wordRows text := by
  have hlines : (rowLines text).map Prod.fst = (Text.lines text).filter (HoldsRow ·) := by
    rw [rowLines, ← List.zipIdx_map_fst 1 (Text.lines text), List.filter_map]
    simp [Function.comp_def, ← isRow_iff]
  rw [wordRows, ← hlines, List.map_map]
  rfl

theorem words_ne_nil_of_mem (text : List Char) : ∀ line ∈ rowLines text, Text.words line.1 ≠ [] := fun _ hline =>
  (isRow_iff.1 (List.mem_filter.1 hline).2).words_ne_nil

/-! ### Numbers of a row -/

theorem readWords_eq_ok {words : List (List Char)} {row : List α} :
    readWords number? origin line words = .ok row ↔
      List.Forall₂ (fun word value => number? word = some value) words row := by
  induction words generalizing row with
  | nil =>
    rw [readWords, List.forall₂_nil_left_iff]
    exact ⟨fun h => (Except.ok.inj h).symm, fun h => by rw [h]⟩
  | cons word words ih =>
    rw [readWords, List.forall₂_cons_left_iff]
    cases hvalue : number? word with
    | none => simp
    | some value =>
      dsimp only
      rw [Except.map_eq_ok]
      simp [ih, eq_comm]

theorem exists_readWords (origin : String) (line : Nat) {words : List (List Char)}
    (h : ∀ word ∈ words, (number? word).isSome) :
    ∃ row, readWords number? origin line words = .ok row := by
  obtain ⟨row, hrow⟩ := Except.exists_forall₂ fun word hword => Option.isSome_iff_exists.1 (h word hword)
  exact ⟨row, readWords_eq_ok.2 hrow⟩

/-! ### Columns that grow -/

/-- The columns, each with its last number first, are those of the rows. -/
structure Held (least : Nat) (rows columns : List (List α)) : Prop where
  /-- Columns are started by the first row. -/
  started : columns = [] ↔ rows = []
  /-- There is a column for each number of a row, and there are enough of them. -/
  width : ∀ row ∈ rows, row.length = columns.length ∧ least ≤ row.length
  /-- A column has a number of each row, from its place in that row. -/
  entries : ∀ (j : Nat) (column : List α), columns[j]? = some column →
    List.Forall₂ (fun row value => row[j]? = some value) rows column.reverse

theorem held_nil (least : Nat) : Held least ([] : List (List α)) [] :=
  ⟨Iff.rfl, fun _ h => absurd h List.not_mem_nil, fun _ _ h => by cases h⟩

/-- A row is refused if it is the first and too short, or if it is not as long as those before. -/
theorem columnsFor_eq_ok {columns started : List (List α)} {width : Nat} :
    columnsFor origin least columns line width = .ok started ↔
      (columns = [] ∧ least ≤ width ∧ started = List.replicate width []) ∨
        (columns ≠ [] ∧ width = columns.length ∧ started = columns) := by
  rw [columnsFor]
  by_cases hnone : columns = []
  · by_cases hshort : width < least
    · simp [hnone, hshort]
    · simp [hnone, hshort, Nat.le_of_not_lt hshort, eq_comm]
  · rw [if_neg (by simpa using hnone)]
    by_cases hwidth : width = columns.length
    · rw [if_pos hwidth]
      simp [hnone, hwidth, eq_comm (a := started)]
    · rw [if_neg hwidth]
      simp [hnone, hwidth]

namespace Held

variable {rows columns : List (List α)} (h : Held least rows columns)
include h

/-- The columns that a row is added to are those of the rows before, one for each of its numbers. -/
theorem of_columnsFor {started : List (List α)} {width : Nat}
    (hs : columnsFor origin least columns line width = .ok started) :
    started.length = width ∧ least ≤ width ∧ (∀ row ∈ rows, row.length = width) ∧
      ∀ (j : Nat) (column : List α), started[j]? = some column →
        List.Forall₂ (fun row value => row[j]? = some value) rows column.reverse := by
  rcases columnsFor_eq_ok.1 hs with ⟨hnone, hleast, rfl⟩ | ⟨hsome, hwidth, rfl⟩
  · rw [h.started.1 hnone]
    refine ⟨List.length_replicate, hleast, ?_, ?_⟩
    · intro row hrow
      exact absurd hrow List.not_mem_nil
    · intro j column hj
      rw [List.eq_of_mem_replicate (List.mem_of_getElem? hj)]
      exact .nil
  · obtain ⟨row, hrow⟩ := List.exists_mem_of_ne_nil rows fun hnone => hsome (h.started.2 hnone)
    obtain ⟨hlen, hleast⟩ := h.width row hrow
    exact ⟨hwidth.symm, by omega, fun row hrow => (h.width row hrow).1.trans hwidth.symm, h.entries⟩

/-- One step: a row that is not refused is put on top of the columns. -/
theorem addRow {started : List (List α)} {row : List α} (hne : row ≠ [])
    (hs : columnsFor origin least columns line row.length = .ok started) :
    Held least (rows ++ [row]) (List.zipWith List.cons row started) := by
  obtain ⟨hlen, hleast, hrows, hentries⟩ := h.of_columnsFor hs
  have hwidth : (List.zipWith List.cons row started).length = row.length := by
    rw [List.length_zipWith, hlen, Nat.min_self]
  constructor
  · rw [← List.length_eq_zero_iff, hwidth, List.length_eq_zero_iff]
    simp [hne]
  · intro row' hrow'
    have hlen' : row'.length = row.length := by
      rcases List.mem_append.1 hrow' with hold | hnew
      · exact hrows row' hold
      · rw [List.mem_singleton.1 hnew]
    rw [hwidth, hlen']
    exact ⟨rfl, hleast⟩
  · intro j column hj
    obtain ⟨value, below, hvalue, hbelow, rfl⟩ := List.getElem?_zipWith_eq_some.1 hj
    rw [List.reverse_cons]
    exact List.rel_append (hentries j below hbelow) (.cons hvalue .nil)

/-- A run: the columns come to hold the numbers of all lines behind the rows before. -/
theorem of_foldlM {lines : List (List Char × Nat)} {final : List (List α)}
    (hwords : ∀ line ∈ lines, Text.words line.1 ≠ [])
    (hf : lines.foldlM (Columns.addRow number? origin least) columns = .ok final) :
    ∃ more, List.Forall₂ (List.Forall₂ fun word value => number? word = some value)
        (lines.map fun line => Text.words line.1) more ∧ Held least (rows ++ more) final := by
  induction lines generalizing rows columns with
  | nil =>
    cases Except.ok.inj hf
    exact ⟨[], .nil, by rwa [List.append_nil]⟩
  | cons line lines ih =>
    obtain ⟨hline, hlines⟩ := List.forall_mem_cons.1 hwords
    rw [List.foldlM_cons] at hf
    obtain ⟨next, hstep, hf⟩ := Except.bind_eq_ok.1 hf
    obtain ⟨row, hrow, hstep⟩ := Except.bind_eq_ok.1 hstep
    obtain ⟨started, hstarted, hstep⟩ := Except.bind_eq_ok.1 hstep
    cases Except.ok.inj hstep
    have hrow := readWords_eq_ok.1 hrow
    have hne : row ≠ [] := by
      rintro rfl
      exact hline (List.forall₂_nil_right_iff.1 hrow)
    obtain ⟨more, hmore, hheld⟩ := ih (h.addRow hne hstarted) hlines hf
    rw [List.append_assoc] at hheld
    exact ⟨row :: more, .cons hrow hmore, hheld⟩

/-- A run: rows of numbers that agree in length with those before are all taken. -/
theorem exists_foldlM (origin : String) {lines : List (List Char × Nat)} {width : Nat} (hleast : least ≤ width)
    (hrows : ∀ row ∈ rows, row.length = width)
    (hwords : ∀ line ∈ lines, Text.words line.1 ≠ [] ∧ (Text.words line.1).length = width ∧
      ∀ word ∈ Text.words line.1, (number? word).isSome) :
    ∃ final, lines.foldlM (Columns.addRow number? origin least) columns = .ok final := by
  induction lines generalizing rows columns with
  | nil => exact ⟨columns, rfl⟩
  | cons line lines ih =>
    obtain ⟨⟨hsome, hwidth, hnumbers⟩, hlines⟩ := List.forall_mem_cons.1 hwords
    obtain ⟨row, hrow⟩ := exists_readWords origin line.2 hnumbers
    have hlen : row.length = width := by rw [← (readWords_eq_ok.1 hrow).length_eq, hwidth]
    have hne : row ≠ [] := by
      rintro rfl
      exact hsome (List.forall₂_nil_right_iff.1 (readWords_eq_ok.1 hrow))
    obtain ⟨started, hstarted⟩ : ∃ started, columnsFor origin least columns line.2 row.length = .ok started := by
      by_cases hnone : columns = []
      · exact ⟨_, columnsFor_eq_ok.2 (.inl ⟨hnone, by omega, rfl⟩)⟩
      · obtain ⟨before, hbefore⟩ := List.exists_mem_of_ne_nil rows fun hnil => hnone (h.started.2 hnil)
        have hbefore : columns.length = width := (h.width before hbefore).1.symm.trans (hrows before hbefore)
        exact ⟨_, columnsFor_eq_ok.2 (.inr ⟨hnone, by omega, rfl⟩)⟩
    have hrows' : ∀ row' ∈ rows ++ [row], row'.length = width := by
      intro row' hrow'
      rcases List.mem_append.1 hrow' with hold | hnew
      · exact hrows row' hold
      · rw [List.mem_singleton.1 hnew, hlen]
    obtain ⟨final, hfinal⟩ := ih (h.addRow hne hstarted) hrows' hlines
    refine ⟨final, ?_⟩
    rw [List.foldlM_cons]
    refine Except.bind_eq_ok.2 ⟨_, Except.bind_eq_ok.2 ⟨row, hrow, ?_⟩, hfinal⟩
    exact Except.bind_eq_ok.2 ⟨started, hstarted, rfl⟩

end Held

/-! ### Texts -/

/-- There is a row, all words are numbers, and the rows agree in length and have enough words. -/
structure WellFormed (number? : List Char → Option α) (least : Nat) (rows : List (List (List Char))) : Prop where
  /-- There is a row. -/
  nonempty : rows ≠ []
  /-- Every word is a number. -/
  numbers : ∀ row ∈ rows, ∀ word ∈ row, (number? word).isSome
  /-- All rows have the same number of words, at least the given number. -/
  width : ∃ width, least ≤ width ∧ ∀ row ∈ rows, row.length = width

/-- The columns are those of the numbers in the rows. -/
structure HoldsWords (number? : List Char → Option α) (rows : List (List (List Char))) (columns : List (List α)) :
    Prop where
  /-- There is a column for each word of a row. -/
  width : ∀ row ∈ rows, columns.length = row.length
  /-- The columns are of equal length. -/
  height : ∀ column ∈ columns, column.length = rows.length
  /-- A column holds, in the order of the rows, the numbers of the words that stand in its place. -/
  entries : ∀ (j : Nat) (column : List α), columns[j]? = some column →
    List.Forall₂ (fun row value => ∃ word, row[j]? = some word ∧ number? word = some value) rows column

/-- What stands in one place of each row is the number of the word in that place of each line. -/
theorem forall₂_place {words : List (List (List Char))} {rows : List (List α)} {column : List α} {j : Nat}
    (hwords : List.Forall₂ (List.Forall₂ fun word value => number? word = some value) words rows)
    (hrows : List.Forall₂ (fun row value => row[j]? = some value) rows column) :
    List.Forall₂ (fun row value => ∃ word, row[j]? = some word ∧ number? word = some value) words column := by
  induction hwords generalizing column with
  | nil =>
    cases hrows
    exact .nil
  | cons hrow _ ih =>
    cases hrows with
    | cons hvalue hrest =>
      obtain ⟨word, hword, hnumber⟩ := Except.getElem?_of_forall₂ hrow.flip hvalue
      exact .cons ⟨word, hword, hnumber⟩ (ih hrest)

theorem Held.holdsWords {words : List (List (List Char))} {rows columns : List (List α)}
    (h : Held least rows columns)
    (hwords : List.Forall₂ (List.Forall₂ fun word value => number? word = some value) words rows) :
    HoldsWords number? words (columns.map List.reverse) := by
  have hentries (j : Nat) (column : List α) (hj : (columns.map List.reverse)[j]? = some column) :
      List.Forall₂ (fun row value => ∃ word, row[j]? = some word ∧ number? word = some value) words column := by
    rw [List.getElem?_map, Option.map_eq_some_iff] at hj
    obtain ⟨held, hheld, rfl⟩ := hj
    exact forall₂_place hwords (h.entries j held hheld)
  refine ⟨?_, ?_, hentries⟩
  · intro row hrow
    obtain ⟨i, hi⟩ := List.mem_iff_getElem?.1 hrow
    obtain ⟨row', hrow', hsame⟩ := Except.getElem?_of_forall₂ hwords hi
    rw [List.length_map, hsame.length_eq, (h.width row' (List.mem_of_getElem? hrow')).1]
  · intro column hcolumn
    obtain ⟨j, hj⟩ := List.mem_iff_getElem?.1 hcolumn
    exact (hentries j column hj).length_eq.symm

/-- What is read are the columns of rows of numbers, of which there is at least one. -/
theorem parse_eq_ok {text : List Char} {columns : List (List α)} (h : parse number? origin least text = .ok columns) :
    ∃ rows held, rows ≠ [] ∧ Held least rows held ∧ columns = held.map List.reverse ∧
      List.Forall₂ (List.Forall₂ fun word value => number? word = some value) (wordRows text) rows := by
  obtain ⟨held, hfold, h⟩ := Except.bind_eq_ok.1 h
  obtain ⟨hsome, h⟩ := Except.guard_eq_ok.1 h
  obtain ⟨rows, hrows, hheld⟩ := (held_nil least).of_foldlM (words_ne_nil_of_mem text) hfold
  rw [List.nil_append] at hheld
  rw [map_words_rowLines] at hrows
  refine ⟨rows, held, fun hnone => hsome ?_, hheld, (Except.ok.inj h).symm, hrows⟩
  rw [hheld.started.2 hnone]
  rfl

/-- The rows of a text that is read are well formed. -/
theorem wellFormed_of_parse {text : List Char} {columns : List (List α)}
    (h : parse number? origin least text = .ok columns) : WellFormed number? least (wordRows text) := by
  obtain ⟨rows, held, hsome, hheld, -, hrows⟩ := parse_eq_ok h
  refine ⟨?_, ?_, held.length, ?_, ?_⟩
  · intro hnone
    rw [hnone] at hrows
    exact hsome (List.forall₂_nil_left_iff.1 hrows)
  · intro words hwords word hword
    obtain ⟨i, hi⟩ := List.mem_iff_getElem?.1 hwords
    obtain ⟨row, -, hrow⟩ := Except.getElem?_of_forall₂ hrows hi
    obtain ⟨j, hj⟩ := List.mem_iff_getElem?.1 hword
    obtain ⟨value, -, hvalue⟩ := Except.getElem?_of_forall₂ hrow hj
    rw [hvalue]
    rfl
  · obtain ⟨row, hrow⟩ := List.exists_mem_of_ne_nil rows hsome
    obtain ⟨hlen, hleast⟩ := hheld.width row hrow
    omega
  · intro words hwords
    obtain ⟨i, hi⟩ := List.mem_iff_getElem?.1 hwords
    obtain ⟨row, hrow, hsame⟩ := Except.getElem?_of_forall₂ hrows hi
    rw [hsame.length_eq, (hheld.width row (List.mem_of_getElem? hrow)).1]

/-- A text with well formed rows is read. -/
theorem WellFormed.exists_parse {text : List Char} (h : WellFormed number? least (wordRows text)) :
    ∃ columns, parse number? origin least text = .ok columns := by
  obtain ⟨hsome, hnumbers, width, hleast, hwidth⟩ := h
  have hlines : ∀ line ∈ rowLines text, Text.words line.1 ∈ wordRows text := fun line hline => by
    rw [← map_words_rowLines]
    exact List.mem_map_of_mem hline
  obtain ⟨held, hfold⟩ := (held_nil least).exists_foldlM origin hleast (fun _ h => absurd h List.not_mem_nil)
    fun line hline =>
      ⟨words_ne_nil_of_mem text line hline, hwidth _ (hlines line hline), hnumbers _ (hlines line hline)⟩
  obtain ⟨rows, hrows, hheld⟩ := (held_nil least).of_foldlM (words_ne_nil_of_mem text) hfold
  rw [map_words_rowLines] at hrows
  have hstarted : held ≠ [] := by
    intro hnone
    rw [List.nil_append] at hheld
    rw [hheld.started.1 hnone] at hrows
    exact hsome (List.forall₂_nil_right_iff.1 hrows)
  exact ⟨held.map List.reverse, Except.bind_eq_ok.2 ⟨held, hfold,
    Except.guard_eq_ok.2 ⟨by simpa using hstarted, rfl⟩⟩⟩

/-- For any reader of numbers, a text is read as columns exactly if, among the lines that are not blank and do not
start with `#` or `!`, there is one, all their words are numbers, and they have the same number of words, at least the
given number. The columns then are of equal length, one for each word of a line, and hold in the order of the lines
the numbers of the words in their place. -/
theorem text_is_read_iff_well_formed (number? : List Char → Option α) (origin : String) (least : Nat)
    (text : List Char) :
    ((∃ columns, parse number? origin least text = .ok columns) ↔ WellFormed number? least (wordRows text)) ∧
      ∀ columns, parse number? origin least text = .ok columns → HoldsWords number? (wordRows text) columns := by
  constructor
  · constructor
    · rintro ⟨columns, h⟩
      exact wellFormed_of_parse h
    · intro h
      exact h.exists_parse
  · intro columns h
    obtain ⟨rows, held, -, hheld, rfl, hrows⟩ := parse_eq_ok h
    exact hheld.holdsWords hrows

/-- A comment, a row that ends in a carriage return, a blank line, a comment behind blanks, and a row with tabs. -/
def commented : List Char := "# lo hi\n1 2.5\r\n\n  ! flux\n3\t4e1 \n".toList

/-- The two rows among comments and blank lines are read; for three columns they are too short. -/
theorem commented_text_is_read :
    parse Spectrum.wordValue? "rows" 2 commented = .ok [[1, 3], [(5 : ℚ) / 2, 40]] ∧
      HoldsWords (Spectrum.wordValue? (α := ℚ)) (wordRows commented) [[1, 3], [5 / 2, 40]] ∧
      ¬ WellFormed (Spectrum.wordValue? (α := ℚ)) 3 (wordRows commented) := by
  have hread : parse Spectrum.wordValue? "rows" 2 commented = .ok [[1, 3], [(5 : ℚ) / 2, 40]] := by decide +kernel
  refine ⟨hread, (text_is_read_iff_well_formed _ _ _ _).2 _ hread, ?_⟩
  intro h
  obtain ⟨columns, hread⟩ := (text_is_read_iff_well_formed (Spectrum.wordValue? (α := ℚ)) "rows" 3 commented).1.2 h
  have hrefused : (parse (Spectrum.wordValue? (α := ℚ)) "rows" 3 commented).isOk = false := by decide +kernel
  rw [hread] at hrefused
  cases hrefused

end Columns

end SpectralResponse
