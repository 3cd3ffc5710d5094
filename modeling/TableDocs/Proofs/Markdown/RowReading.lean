import TableDocs.Proofs.Markdown.DocumentStructure
import TableDocs.Proofs.Text.Trim

/-!
# TableDocs — rows are read back

A text is escaped, put on one line and trimmed before it becomes a cell. A reader who knows only
that bare pipes part the cells and that an escaped pipe stands for a pipe gets the text back, but
for its line ends and the blanks around it.

* **`readCell`**, **`onOneLine`** — what such a reader makes of a cell, and what can be got back of
  a text.
* **`unescapePipes_escapePipes`** — escaping is undone, also where backslashes stand before a pipe.
* **`lines_escapePipes`**, **`trim_escapePipes`** — escaping commutes with the other two steps, for
  it touches neither line ends nor blanks. So it can be undone although it is not the last step.
* **`rows_read_back`** — the five cells of a row tell the texts and labels of its column.
-/

namespace TableDocs.Markdown

/-- Puts a pipe for each backslash with a pipe behind it, from left to right. -/
def unescapePipes : List Char → List Char
  | '\\' :: '|' :: rest => '|' :: unescapePipes rest
  | c :: rest => c :: unescapePipes rest
  | [] => []

/-- What a reader makes of the text between two bare pipes. -/
def readCell (text : List Char) : List Char :=
  unescapePipes (Text.trimWhere Text.isBlank text)

/-- The lines of a text, one space apart and without the blanks around them. -/
def onOneLine (text : String) : List Char :=
  Text.trimWhere Text.isBlank (joinLines text.toList)

/-! ## Escaping is undone

Reading from left to right, a backslash belongs to an escape if a pipe follows it. In an escaped
text that is so exactly for the backslashes that the escaping put in, since no escaped text begins
with a pipe. -/

section Escaping

theorem escapePipes_pipe (s : List Char) : escapePipes ('|' :: s) = '\\' :: '|' :: escapePipes s :=
  rfl

theorem escapePipes_other {c : Char} (hc : c ≠ '|') (s : List Char) :
    escapePipes (c :: s) = c :: escapePipes s := by
  rw [escapePipes, List.flatMap_cons, if_neg hc]
  rfl

theorem escapePipes_append (s t : List Char) :
    escapePipes (s ++ t) = escapePipes s ++ escapePipes t :=
  List.flatMap_append

/-- An escaped text does not begin with a pipe, so a backslash in front of it stays one. -/
theorem head?_escapePipes (s : List Char) : (escapePipes s).head? ≠ some '|' := by
  cases s with
  | nil => simp [escapePipes]
  | cons c s =>
    by_cases hc : c = '|'
    · subst hc
      rw [escapePipes_pipe]
      simp
    · rw [escapePipes_other hc]
      simpa using hc

/-- A character in front of no pipe is read as it stands. -/
theorem unescapePipes_cons {c : Char} {s : List Char} (h : s.head? ≠ some '|') :
    unescapePipes (c :: s) = c :: unescapePipes s := by
  rw [unescapePipes.eq_def]
  split
  · next he =>
    cases he
    exact absurd rfl h
  · next he =>
    cases he
    rfl
  · next he => exact absurd he (List.cons_ne_nil c s)

/-- **Escaping is undone exactly.** -/
theorem unescapePipes_escapePipes (s : List Char) : unescapePipes (escapePipes s) = s := by
  induction s with
  | nil => rfl
  | cons c s ih =>
    by_cases hc : c = '|'
    · subst hc
      rw [escapePipes_pipe, unescapePipes, ih]
    · rw [escapePipes_other hc, unescapePipes_cons (head?_escapePipes s), ih]

end Escaping

/-! ## Lines of an escaped text

A pipe and the backslash in front of it end no line and are no blanks, so the steps behind the
escaping see a text with the same lines and the same ends. -/

section Lines

theorem ne_pipe_of_isLineEnd {c : Char} (h : Text.isLineEnd c = true) : c ≠ '|' := by
  rintro rfl
  exact absurd h (by decide)

/-- A line feed stands in front of an escaped text only if it stood there before. -/
theorem head?_of_escapePipes {s : List Char} (h : (escapePipes s).head? = some '\n') :
    s.head? = some '\n' := by
  cases s with
  | nil => exact absurd h (by simp [escapePipes])
  | cons c s =>
    by_cases hc : c = '|'
    · subst hc
      rw [escapePipes_pipe] at h
      exact absurd h (by simp)
    · rwa [escapePipes_other hc] at h

/-- The line under way is escaped like the text behind it. -/
theorem linesFrom_escapePipes {pending pending' : List Char} (s : List Char)
    (h : pending'.reverse = escapePipes pending.reverse) :
    Text.linesFrom pending' (escapePipes s) = (Text.linesFrom pending s).map escapePipes := by
  -- The cases are those of the function that cuts lines: the end of the text, a pair of line ends,
  -- another one, and any other character, which alone can be a pipe.
  fun_induction Text.linesFrom pending s generalizing pending' with
  | case1 pending hempty =>
    obtain rfl := List.isEmpty_iff.mp hempty
    obtain rfl := List.reverse_eq_nil_iff.mp h
    rfl
  | case2 pending hne =>
    have hne' : pending'.isEmpty = false := by
      rw [List.isEmpty_eq_false_iff]
      rintro rfl
      have hlength := congrArg unescapePipes h
      rw [unescapePipes_escapePipes] at hlength
      exact hne (by simpa [unescapePipes] using hlength)
    rw [Bool.not_eq_true] at hne
    show Text.linesFrom pending' [] = _
    rw [Text.linesFrom, if_neg (by simp [hne']), h]
    rfl
  | case3 pending rest ih =>
    have hescape : escapePipes ('\r' :: '\n' :: rest) = '\r' :: '\n' :: escapePipes rest := rfl
    rw [hescape, Text.linesFrom, ih rfl, List.map_cons, h]
  | case4 pending c rest hpair hend ih =>
    have hpair' : c = '\r' → (escapePipes rest).head? ≠ some '\n' := by
      intro hc hhead
      obtain ⟨rest', rfl⟩ := List.head?_eq_some_iff.mp (head?_of_escapePipes hhead)
      exact hpair rest' hc rfl
    rw [escapePipes_other (ne_pipe_of_isLineEnd hend), Text.linesFrom_of_isLineEnd hend hpair',
      ih rfl, List.map_cons, h]
  | case5 pending c rest hpair hend ih =>
    rw [Bool.not_eq_true] at hend
    by_cases hc : c = '|'
    · subst hc
      rw [escapePipes_pipe, Text.linesFrom_of_other (by decide), Text.linesFrom_of_other hend]
      refine ih ?_
      rw [List.reverse_cons, List.reverse_cons, h, List.reverse_cons, escapePipes_append,
        List.append_assoc]
      rfl
    · rw [escapePipes_other hc, Text.linesFrom_of_other hend]
      refine ih ?_
      rw [List.reverse_cons, h, List.reverse_cons, escapePipes_append, escapePipes_other hc]
      rfl

/-- The lines of an escaped text are the escaped lines of the text. -/
theorem lines_escapePipes (s : List Char) :
    Text.lines (escapePipes s) = (Text.lines s).map escapePipes :=
  linesFrom_escapePipes s rfl

/-- Joining lines with spaces commutes with escaping. -/
theorem escapePipes_intercalate (lines : List (List Char)) :
    escapePipes (List.intercalate [' '] lines) =
      List.intercalate [' '] (lines.map escapePipes) := by
  induction lines with
  | nil => rfl
  | cons line lines ih =>
    cases lines with
    | nil => simp [List.intercalate]
    | cons next lines =>
      rw [List.intercalate_cons_cons, escapePipes_append, escapePipes_append, ih]
      simp only [List.map_cons, List.intercalate_cons_cons]
      rfl

/-- So does putting a text on one line. -/
theorem joinLines_escapePipes (s : List Char) :
    joinLines (escapePipes s) = escapePipes (joinLines s) := by
  rw [joinLines, lines_escapePipes, joinLines, escapePipes_intercalate]

end Lines

/-! ## Ends of an escaped text

Trimming drops blanks at the front and at the back. The character that stops it is the same before
the escaping and after, or it is a pipe, which becomes two characters that are no blanks. -/

section Ends

/-- Blanks at the front. -/
theorem dropWhile_escapePipes (s : List Char) :
    (escapePipes s).dropWhile Text.isBlank = escapePipes (s.dropWhile Text.isBlank) := by
  induction s with
  | nil => rfl
  | cons c s ih =>
    by_cases hc : c = '|'
    · subst hc
      rfl
    · rw [escapePipes_other hc, List.dropWhile_cons, List.dropWhile_cons]
      split
      · exact ih
      · rw [escapePipes_other hc]

/-- Blanks at the back. The induction takes characters off that end. -/
theorem rdropWhile_escapePipes (s : List Char) :
    (escapePipes s).rdropWhile Text.isBlank = escapePipes (s.rdropWhile Text.isBlank) := by
  induction s using List.reverseRecOn with
  | nil => rfl
  | append_singleton s c ih =>
    -- a pipe is escaped and no blank, and any other character is written as it is
    by_cases hc : c = '|'
    · subst hc
      have hlast : escapePipes (s ++ ['|']) = (escapePipes s ++ ['\\']) ++ ['|'] := by
        rw [escapePipes_append, List.append_assoc]
        rfl
      rw [hlast, List.rdropWhile_concat_neg _ _ _ (by decide),
        List.rdropWhile_concat_neg _ _ _ (by decide), hlast]
    · have hlast : escapePipes (s ++ [c]) = escapePipes s ++ [c] := by
        rw [escapePipes_append, escapePipes_other hc]
        rfl
      rw [hlast, List.rdropWhile_concat, List.rdropWhile_concat]
      split
      · exact ih
      · exact hlast.symm

/-- Escaping moves no end of a text, so the blanks around it can be dropped before or after. -/
theorem trim_escapePipes (s : List Char) :
    Text.trimWhere Text.isBlank (escapePipes s) =
      escapePipes (Text.trimWhere Text.isBlank s) := by
  rw [Text.trimWhere_eq_rdropWhile, dropWhile_escapePipes, rdropWhile_escapePipes,
    ← Text.trimWhere_eq_rdropWhile]

/-- The spaces around a cell are trimmed away. -/
theorem trim_padded (s : List Char) :
    Text.trimWhere Text.isBlank (padded s) = Text.trimWhere Text.isBlank s := by
  have hspace : Text.isBlank ' ' = true := by decide
  rw [Text.trimWhere_eq_rdropWhile, Text.trimWhere_eq_rdropWhile, padded, List.cons_append,
    List.dropWhile_cons_of_pos hspace, List.dropWhile_append]
  split
  · next hempty =>
    rw [List.isEmpty_iff.mp hempty]
    rfl
  · rw [List.rdropWhile_concat_pos _ _ _ hspace]

end Ends

/-! ## Rows

A row is cut at its bare pipes into the cells it was made of, and each cell is read on its own. -/

/-- A line tells a reader one column: it is one line, and its bare pipes part the column's name, its
type, the answers to the two questions and its comment. -/
structure ReadsBack (l : Labels) (c : ColumnDoc) (line : List Char) : Prop where
  oneLine : ∀ ch ∈ line, Text.isLineEnd ch = false
  cells : ∃ cells, cellsOf line = [] :: (cells ++ [[]]) ∧
    cells.map readCell = [onOneLine c.name, onOneLine c.type, (l.answer c.nullable).toList,
      (l.answer c.isPrimaryKey).toList, onOneLine c.comment]

/-- **A cell is read back.** -/
theorem readCell_padded_cell (text : String) : readCell (padded (cell text)) = onOneLine text := by
  rw [readCell, trim_padded, cell, Text.trimWhere_idem, joinLines_escapePipes, trim_escapePipes,
    unescapePipes_escapePipes, onOneLine]

/-- The answers have no pipe and no blank at an end in either locale. -/
theorem readCell_padded_answer (locale : Locale) (b : Bool) :
    readCell (padded (locale.labels.answer b).toList) = (locale.labels.answer b).toList := by
  cases locale <;> cases b <;> decide +kernel

/-- Each row tells its column. -/
theorem readsBack_columnRow (locale : Locale) (c : ColumnDoc) :
    ReadsBack locale.labels c (columnRow locale.labels c) where
  oneLine := row_oneLine (columnRow_cells locale c)
  cells := by
    refine ⟨_, cellsOf_row (columnRow_cells locale c), ?_⟩
    simp only [List.map_cons, List.map_nil, readCell_padded_cell, readCell_padded_answer]

theorem infix_flatMap_append {α β : Type} {as : List α} {a : α} (ha : a ∈ as)
    (f g : α → List β) : g a <:+: as.flatMap fun a => f a ++ g a :=
  (List.suffix_append (f a) (g a)).isInfix.trans
    (List.infix_of_mem_flatten (List.mem_map_of_mem (f := fun a => f a ++ g a) ha))

/-- The rows of a table stand in the document one below the other. -/
theorem rows_infix_writtenLines (locale : Locale) {c : Collection} {d : DatabaseDoc} {t : TableDoc}
    (hd : d ∈ c.databases) (ht : t ∈ d.tables) :
    t.columns.map (columnRow locale.labels) <:+: writtenLines (render locale c).toList := by
  rw [writtenLines_render]
  -- the rows stand behind the description and the two lines of the header
  have hrows : t.columns.map (columnRow locale.labels) <:+: tableLines locale.labels t :=
    ⟨[_, _, _], [], List.append_nil _⟩
  have htable := hrows.trans
    (infix_flatMap_append ht (fun t => writtenLines (tableHeading locale.labels t)) _)
  have hdatabase := htable.trans
    (infix_flatMap_append hd (fun d => writtenLines (databaseHeading locale.labels d))
      fun d => d.tables.flatMap fun t =>
        writtenLines (tableHeading locale.labels t) ++ tableLines locale.labels t)
  exact hdatabase.trans (List.suffix_cons _ _).isInfix

/-- **Rows are read back**: the document has, for each table, the rows of its columns one below the
other, and each of them tells its column. -/
theorem rows_read_back (locale : Locale) (c : Collection) :
    ∃ text, renderIn locale.name c = .ok text ∧ ∀ d ∈ c.databases, ∀ t ∈ d.tables,
      t.columns.map (columnRow locale.labels) <:+: writtenLines text.toList ∧
        ∀ column ∈ t.columns, ReadsBack locale.labels column (columnRow locale.labels column) := by
  have hrender : renderIn locale.name c = .ok (render locale c) := by cases locale <;> rfl
  refine ⟨render locale c, hrender, fun d hd t ht => ?_⟩
  exact ⟨rows_infix_writtenLines locale hd ht, fun column _ => readsBack_columnRow locale column⟩

/-- A column with a backslash in front of a pipe, one at the end of a cell, and lines within the
comment. -/
def awkwardColumn : ColumnDoc where
  name := "a\\|b"
  type := "x\\"
  nullable := true
  isPrimaryKey := false
  comment := " one\r\n|two|\u2028"

def awkwardTable : TableDoc where
  name := "t"
  columns := [awkwardColumn]

def awkwardCollection : Collection where
  databases := [{ name := "d", tables := [awkwardTable] }]

/-- Pipes and backslashes come back, and the line ends of the comment are spaces. -/
theorem rows_read_back_awkward :
    ∃ text, renderIn "en" awkwardCollection = .ok text ∧
      [columnRow Locale.en.labels awkwardColumn] <:+: writtenLines text.toList ∧
      ReadsBack Locale.en.labels awkwardColumn (columnRow Locale.en.labels awkwardColumn) ∧
      (cellsOf (columnRow Locale.en.labels awkwardColumn)).map (String.ofList ∘ readCell) =
        ["", "a\\|b", "x\\", "Yes", "No", "one |two|", ""] := by
  obtain ⟨text, hrender, hrows⟩ := rows_read_back .en awkwardCollection
  obtain ⟨hrowsIn, hreads⟩ := hrows _ List.mem_cons_self _ List.mem_cons_self
  exact ⟨text, hrender, hrowsIn, hreads _ List.mem_cons_self, by decide +kernel⟩

end TableDocs.Markdown
