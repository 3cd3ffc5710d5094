import TableDocs.Proofs.Markdown.Cells
import TableDocs.Proofs.Text.Words

/-!
# TableDocs — the structure of the rendered document

A reader of the document knows its lines only: those that open a database, those that open a table,
and what stands below each.

* **`Outline.ofText`** — what such a reader finds in a text.
* **`outline`** — what the collection says that there is to find.
* **`writtenLines_render`** — the lines of a document. Comments, types and column names stay in one
  line each, whatever they hold. Names of databases and tables stand in their headings as they are.
* **`document_structured`** — so the reader finds the outline of the collection if and only if no
  name holds a line feed.
-/

namespace TableDocs.Markdown

/-! ## Lines and sections

A reader that knows nothing of the collection sees lines and the marks at their beginning. Empty
lines are for the eye only, so it leaves them out. -/

/-- The lines of a text, without the empty ones. -/
def writtenLines (text : List Char) : List (List Char) :=
  (text.splitOn '\n').filter fun line => !line.isEmpty

/-- Cuts a list in front of each element that opens a section: what stands in front of the first
one, and each one with what is below it. -/
def sections {α : Type} (opens : α → Bool) : List α → List α × List (α × List α)
  | [] => ([], [])
  | a :: rest =>
    let (front, others) := sections opens rest
    if opens a then ([], (a, front) :: others) else (a :: front, others)

/-- The heading of a table and the lines below it. -/
structure TableSection where
  heading : List Char
  lines : List (List Char)
  deriving DecidableEq

/-- The heading of a database, the lines between it and the first table, and the tables. -/
structure DatabaseSection where
  heading : List Char
  front : List (List Char)
  tables : List TableSection
  deriving DecidableEq

/-- The lines in front of the first database and the databases. -/
structure Outline where
  front : List (List Char)
  databases : List DatabaseSection
  deriving DecidableEq

/-- A heading of the second level. -/
def opensDatabase (line : List Char) : Bool :=
  "## ".toList.isPrefixOf line

/-- A heading of the third level. -/
def opensTable (line : List Char) : Bool :=
  "### ".toList.isPrefixOf line

def DatabaseSection.ofLines (heading : List Char) (lines : List (List Char)) : DatabaseSection :=
  let (front, tables) := sections opensTable lines
  ⟨heading, front, tables.map fun (heading, lines) => ⟨heading, lines⟩⟩

def Outline.ofText (text : List Char) : Outline :=
  let (front, databases) := sections opensDatabase (writtenLines text)
  ⟨front, databases.map fun (heading, lines) => .ofLines heading lines⟩

/-! ## The outline of a collection

This is what the document should show, said without rendering anything: the headings as the renderer
spells them and the lines below each. -/

def titleLine (l : Labels) : List Char :=
  "# ".toList ++ l.title.toList

/-- The lines below the heading of a table: its description, the header of its columns, a separator
and one row for each column. -/
def tableLines (l : Labels) (t : TableDoc) : List (List Char) :=
  description l t :: headerRow l :: separatorRow :: t.columns.map (columnRow l)

def tableSection (l : Labels) (t : TableDoc) : TableSection :=
  ⟨tableHeading l t, tableLines l t⟩

def databaseSection (l : Labels) (d : DatabaseDoc) : DatabaseSection :=
  ⟨databaseHeading l d, [], d.tables.map (tableSection l)⟩

/-- The title in front, and a section for each database. -/
def outline (l : Labels) (c : Collection) : Outline :=
  ⟨[titleLine l], c.databases.map (databaseSection l)⟩

/-- The lines of a collection's document. Only headings may take more than one line. -/
def documentLines (l : Labels) (c : Collection) : List (List Char) :=
  titleLine l :: c.databases.flatMap fun d =>
    writtenLines (databaseHeading l d) ++ d.tables.flatMap fun t =>
      writtenLines (tableHeading l t) ++ tableLines l t

/-- No name of a database or a table holds a line feed. -/
def NamesOnOneLine (c : Collection) : Prop :=
  ∀ d ∈ c.databases, '\n' ∉ d.name.toList ∧ ∀ t ∈ d.tables, '\n' ∉ t.name.toList

instance (c : Collection) : Decidable (NamesOnOneLine c) :=
  inferInstanceAs (Decidable (∀ d ∈ c.databases, _ ∧ ∀ t ∈ d.tables, _))

/-! ## Lines of joined and shortened texts

The renderer joins its pieces with line feeds and cuts the line feeds at the end. The lines of the
whole are therefore the lines of the pieces. -/

section Lines

variable {s t : List Char}

@[simp]
theorem writtenLines_nil : writtenLines [] = [] := by
  simp [writtenLines]

/-- A line feed ends one line and begins the next. -/
theorem writtenLines_append_cons (s t : List Char) :
    writtenLines (s ++ '\n' :: t) = writtenLines s ++ writtenLines t := by
  have hsplit : (s ++ '\n' :: t).splitOn '\n' = s.splitOn '\n' ++ t.splitOn '\n' :=
    List.splitOnP_append_cons s t (by decide)
  rw [writtenLines, hsplit, List.filter_append]
  rfl

/-- A text without line feeds is one line. -/
theorem writtenLines_of_not_mem (h : '\n' ∉ s) (hne : s ≠ []) : writtenLines s = [s] := by
  have hsplit : s.splitOn '\n' = [s] := by
    apply List.splitOnP_eq_singleton
    intro ch hch
    rw [beq_eq_false_iff_ne]
    rintro rfl
    exact h hch
  simp [writtenLines, hsplit, hne]

/-- Joining pieces with line feeds joins their lines. -/
theorem writtenLines_intercalate (ps : List (List Char)) :
    writtenLines (List.intercalate ['\n'] ps) = ps.flatMap writtenLines := by
  induction ps with
  | nil => simp [List.intercalate]
  | cons p ps ih =>
    cases ps with
    | nil => simp [List.intercalate]
    | cons q ps =>
      rw [List.intercalate_cons_cons, List.append_assoc, List.singleton_append,
        writtenLines_append_cons, ih, ← List.flatMap_cons]

/-- No line holds a line feed. -/
theorem not_mem_of_mem_splitOn : ∀ line ∈ s.splitOn '\n', '\n' ∉ line := by
  induction s with
  | nil => simp
  | cons c s ih =>
    -- a line break starts a new line, and any other character is put in front of the first one
    have hstep : (c :: s).splitOn '\n' = if (c == '\n') = true then [] :: s.splitOn '\n'
        else (s.splitOn '\n').modifyHead (List.cons c) :=
      List.splitOnP_cons_eq_if_modifyHead c s
    obtain ⟨first, others, hlines⟩ :=
      List.exists_cons_of_ne_nil (List.splitOnP_ne_nil (· == '\n') s)
    have hlines : s.splitOn '\n' = first :: others := hlines
    rw [hlines] at ih hstep
    intro line hline
    rw [hstep] at hline
    split at hline
    next =>
      rcases List.mem_cons.mp hline with rfl | hline
      · simp
      · exact ih line hline
    next hc =>
      rcases List.mem_cons.mp hline with rfl | hline
      · have hfirst : '\n' ∉ first := ih first (by simp)
        have hc : '\n' ≠ c := fun h => hc (by simp [← h])
        simp [hfirst, hc]
      · exact ih line (by simp [hline])

theorem not_mem_of_mem_writtenLines {line : List Char} (h : line ∈ writtenLines s) :
    '\n' ∉ line :=
  not_mem_of_mem_splitOn line (List.mem_of_mem_filter h)

theorem dropLineEnds_append_lineFeed (s : List Char) :
    dropLineEnds (s ++ ['\n']) = dropLineEnds s := by
  simp [dropLineEnds]

theorem dropLineEnds_append_other {c : Char} (hc : c ≠ '\n') (s : List Char) :
    dropLineEnds (s ++ [c]) = s ++ [c] := by
  simp [dropLineEnds, hc]

/-- Cutting the line feeds at the end, all but one, loses no line that has a character. -/
theorem writtenLines_dropLineEnds (s : List Char) :
    writtenLines (dropLineEnds s ++ ['\n']) = writtenLines s := by
  -- The induction takes the line ends off one by one. Each has an empty line behind it.
  induction s using List.reverseRecOn with
  | nil => rfl
  | append_singleton s c ih =>
    by_cases hc : c = '\n'
    · subst hc
      rw [dropLineEnds_append_lineFeed, ih, writtenLines_append_cons, writtenLines_nil,
        List.append_nil]
    · rw [dropLineEnds_append_other hc, writtenLines_append_cons, writtenLines_nil,
        List.append_nil]

/-- What is left then ends with another character, if there is one. -/
theorem exists_last_dropLineEnds (h : ∃ ch ∈ s, ch ≠ '\n') :
    ∃ front last, dropLineEnds s = front ++ [last] ∧ last ≠ '\n' := by
  induction s using List.reverseRecOn with
  | nil => simp at h
  | append_singleton s c ih =>
    by_cases hc : c = '\n'
    · subst hc
      rw [dropLineEnds_append_lineFeed]
      apply ih
      simpa using h
    · exact ⟨s, c, dropLineEnds_append_other hc s, hc⟩

end Lines

/-! ## Sections of joined lists

The cut in front of each heading is undone by joining the sections again. The converse holds where
no line below a heading opens a section itself. -/

section Sections

variable {α β : Type} {opens : α → Bool}

/-- Lines in front of the first heading stay in front. -/
theorem sections_append {front : List α} (h : ∀ a ∈ front, opens a = false) (ls : List α) :
    sections opens (front ++ ls) = (front ++ (sections opens ls).1, (sections opens ls).2) := by
  induction front with
  | nil => rfl
  | cons a front ih =>
    have hfront : ∀ b ∈ front, opens b = false := fun b hb => h b (List.mem_cons_of_mem _ hb)
    have ha : opens a = false := h a List.mem_cons_self
    rw [List.cons_append, sections, ih hfront, ha]
    rfl

/-- Sections that were joined are found again. -/
theorem sections_flatMap {xs : List β} {head : β → α} {body : β → List α}
    (hhead : ∀ x ∈ xs, opens (head x) = true)
    (hbody : ∀ x ∈ xs, ∀ a ∈ body x, opens a = false) :
    sections opens (xs.flatMap fun x => head x :: body x) =
      ([], xs.map fun x => (head x, body x)) := by
  induction xs with
  | nil => rfl
  | cons x xs ih =>
    have hxs := ih (fun y hy => hhead y (List.mem_cons_of_mem _ hy))
      (fun y hy => hbody y (List.mem_cons_of_mem _ hy))
    rw [List.flatMap_cons, List.cons_append, sections,
      sections_append (hbody x List.mem_cons_self), hxs, hhead x List.mem_cons_self]
    simp

/-- Whatever is found stands in the list that was cut. -/
theorem mem_of_mem_sections {ls : List α} {a : α} {below : List α}
    (h : (a, below) ∈ (sections opens ls).2) : a ∈ ls ∧ below ⊆ ls := by
  -- the induction also needs that what stands in front of the first heading comes from the list
  suffices hall : (sections opens ls).1 ⊆ ls ∧
      ∀ x ∈ (sections opens ls).2, x.1 ∈ ls ∧ x.2 ⊆ ls from hall.2 _ h
  clear h
  induction ls with
  | nil => exact ⟨fun _ hb => hb, fun _ hx => absurd hx List.not_mem_nil⟩
  | cons b ls ih =>
    obtain ⟨hfront, hothers⟩ := ih
    have hothers : ∀ x ∈ (sections opens ls).2, x.1 ∈ b :: ls ∧ x.2 ⊆ b :: ls := fun x hx =>
      ⟨List.mem_cons_of_mem _ (hothers x hx).1, List.subset_cons_of_subset _ (hothers x hx).2⟩
    rw [sections]
    cases opens b with
    | true =>
      refine ⟨List.nil_subset _, ?_⟩
      intro x hx
      rcases List.mem_cons.mp hx with rfl | hx
      · exact ⟨List.mem_cons_self, List.subset_cons_of_subset _ hfront⟩
      · exact hothers x hx
    | false => exact ⟨List.cons_subset_cons b hfront, hothers⟩

end Sections

/-! ## The lines of a table

Comments, types and column names are put into cells, which have no line end and no bare mark. So
each line below a table is one line, and it begins with a star or a bar, never with the mark of a
heading. -/

/-- The words of a set of labels. -/
def Labels.words (l : Labels) : List String :=
  [l.title, l.database, l.table, l.tableComment, l.none, l.column, l.type, l.nullable, l.primaryKey,
    l.comment, l.yes, l.no]

/-- The words of the locales need no escape, which is a look at their tables. -/
theorem oneCell_of_mem_words (locale : Locale) {w : String} (h : w ∈ locale.labels.words) :
    OneCell w.toList := by
  have hwords : (locale.labels.words.all fun w =>
      w.toList.all fun ch => !Text.isLineEnd ch && ch != '|') = true := by
    cases locale <;> decide +kernel
  have hplain : ∀ ch ∈ w.toList, Text.isLineEnd ch = false ∧ ch ≠ '|' := by
    simpa using List.all_eq_true.mp hwords w h
  exact ⟨fun ch hch => (hplain ch hch).1, guarded_of_no_pipe fun ch hch => (hplain ch hch).2⟩

theorem not_mem_of_oneLine {s : List Char} (h : ∀ ch ∈ s, Text.isLineEnd ch = false) :
    '\n' ∉ s :=
  fun hmem => absurd (h '\n' hmem) (by decide)

section Table

variable (locale : Locale)

/-- What stands in the row of a column keeps to one cell, whatever the column holds. -/
theorem columnRow_cells (c : ColumnDoc) :
    ∀ text ∈ [cell c.name, cell c.type, (locale.labels.answer c.nullable).toList,
      (locale.labels.answer c.isPrimaryKey).toList, cell c.comment], OneCell text := by
  have hanswer : ∀ b, OneCell (locale.labels.answer b).toList := by
    intro b
    apply oneCell_of_mem_words locale
    cases b <;> simp [Labels.answer, Labels.words]
  simp [oneCell_cell, hanswer]

theorem headerRow_cells :
    ∀ text ∈ [locale.labels.column.toList, locale.labels.type.toList,
      locale.labels.nullable.toList, locale.labels.primaryKey.toList,
      locale.labels.comment.toList], OneCell text := by
  intro text htext
  simp only [List.mem_cons, List.not_mem_nil, or_false] at htext
  rcases htext with rfl | rfl | rfl | rfl | rfl <;>
    exact oneCell_of_mem_words locale (by simp [Labels.words])

/-- The description of a table is one line, with or without a comment. -/
theorem description_oneLine (t : TableDoc) :
    ∀ ch ∈ description locale.labels t, Text.isLineEnd ch = false := by
  have htext : OneCell (if (cell t.comment).isEmpty then locale.labels.none.toList
      else cell t.comment) := by
    split
    · exact oneCell_of_mem_words locale (by simp [Labels.words])
    · exact oneCell_cell _
  have hlabel : OneCell locale.labels.tableComment.toList :=
    oneCell_of_mem_words locale (by simp [Labels.words])
  intro ch hch
  simp only [description, List.mem_append] at hch
  rcases hch with ((hch | hch) | hch) | hch
  · exact Text.oneLine_of_all (s := "**".toList) (by decide) ch hch
  · exact hlabel.oneLine ch hch
  · exact Text.oneLine_of_all (s := ":** ".toList) (by decide) ch hch
  · exact htext.oneLine ch hch

/-- Each line below the heading of a table is one line, and it opens no section. -/
theorem tableLines_below (t : TableDoc) : ∀ line ∈ tableLines locale.labels t,
    (∀ ch ∈ line, Text.isLineEnd ch = false) ∧ (line.head? = some '*' ∨ line.head? = some '|') := by
  intro line hline
  simp only [tableLines, List.mem_cons, List.mem_map] at hline
  rcases hline with rfl | rfl | rfl | ⟨c, -, rfl⟩
  · exact ⟨description_oneLine locale t, .inl rfl⟩
  · exact ⟨row_oneLine (headerRow_cells locale), .inr rfl⟩
  · exact ⟨Text.oneLine_of_all (by decide), .inr rfl⟩
  · exact ⟨row_oneLine (columnRow_cells locale c), .inr rfl⟩

/-- A line that begins with another mark opens nothing. -/
theorem opens_of_head?_ne {line : List Char} (h : line.head? ≠ some '#') :
    opensDatabase line = false ∧ opensTable line = false := by
  cases line with
  | nil => exact ⟨rfl, rfl⟩
  | cons c line =>
    have hc : ('#' == c) = false := beq_eq_false_iff_ne.mpr fun hc => h (congrArg some hc.symm)
    simp [opensDatabase, opensTable, List.isPrefixOf, hc]

theorem opens_of_mem_tableLines {t : TableDoc} {line : List Char}
    (h : line ∈ tableLines locale.labels t) :
    opensDatabase line = false ∧ opensTable line = false := by
  apply opens_of_head?_ne
  rcases (tableLines_below locale t line h).2 with hhead | hhead <;> simp [hhead]

theorem flatMap_writtenLines {lines : List (List Char)}
    (h : ∀ line ∈ lines, '\n' ∉ line ∧ line ≠ []) : lines.flatMap writtenLines = lines := by
  induction lines with
  | nil => rfl
  | cons line lines ih =>
    obtain ⟨hline, hne⟩ := h line List.mem_cons_self
    rw [List.flatMap_cons, writtenLines_of_not_mem hline hne,
      ih fun l hl => h l (List.mem_cons_of_mem _ hl)]
    rfl

/-- Only the heading of a table can be cut into several lines. -/
theorem flatMap_writtenLines_tablePieces (t : TableDoc) :
    (tablePieces locale.labels t).flatMap writtenLines =
      writtenLines (tableHeading locale.labels t) ++ tableLines locale.labels t := by
  have hlines : (tableLines locale.labels t).flatMap writtenLines = tableLines locale.labels t := by
    apply flatMap_writtenLines
    intro line hline
    obtain ⟨honeLine, hhead⟩ := tableLines_below locale t line hline
    refine ⟨not_mem_of_oneLine honeLine, ?_⟩
    rintro rfl
    simp at hhead
  rw [← hlines]
  simp [tablePieces, tableLines]

end Table

/-! ## The document

The lines of the document are computed from the pieces. From there on both directions of the main
result speak about lists of lines only. -/

section Document

variable {locale : Locale} {c : Collection}

/-- **The lines of a document.** -/
theorem writtenLines_render (locale : Locale) (c : Collection) :
    writtenLines (render locale c).toList = documentLines locale.labels c := by
  have htitle : writtenLines (titleLine locale.labels) = [titleLine locale.labels] := by
    cases locale <;> decide +kernel
  rw [render, String.toList_ofList, writtenLines_dropLineEnds, writtenLines_intercalate, pieces,
    List.flatMap_append, List.flatMap_assoc]
  simp only [databasePieces, List.flatMap_append, List.flatMap_assoc,
    flatMap_writtenLines_tablePieces]
  simp only [documentLines, List.flatMap_cons, List.flatMap_nil, writtenLines_nil, List.append_nil]
  rw [← titleLine, htitle]
  rfl

/-- A document ends with one line feed, and with a character in front of it. -/
theorem render_ends (locale : Locale) (c : Collection) :
    ∃ front last, (render locale c).toList = front ++ [last, '\n'] ∧ last ≠ '\n' := by
  have hsharp : ∃ ch ∈ List.intercalate ['\n'] (pieces locale.labels c), ch ≠ '\n' := by
    refine ⟨'#', ?_, by decide⟩
    rw [pieces, List.cons_append, List.cons_append, List.intercalate_cons_cons]
    simp
  obtain ⟨front, last, hdropped, hlast⟩ := exists_last_dropLineEnds hsharp
  refine ⟨front, last, ?_, hlast⟩
  rw [render, String.toList_ofList, hdropped, List.append_assoc]
  rfl

theorem not_mem_of_mem_words (locale : Locale) {w : String} (h : w ∈ locale.labels.words) :
    '\n' ∉ w.toList :=
  not_mem_of_oneLine (oneCell_of_mem_words locale h).oneLine

/-- A heading holds a line feed exactly if the name in it does. -/
theorem mem_databaseHeading_iff (locale : Locale) {d : DatabaseDoc} :
    '\n' ∈ databaseHeading locale.labels d ↔ '\n' ∈ d.name.toList := by
  have hlabel : '\n' ∉ locale.labels.database.toList :=
    not_mem_of_mem_words locale (by simp [Labels.words])
  simp [databaseHeading, hlabel]

theorem mem_tableHeading_iff (locale : Locale) {t : TableDoc} :
    '\n' ∈ tableHeading locale.labels t ↔ '\n' ∈ t.name.toList := by
  have hlabel : '\n' ∉ locale.labels.table.toList :=
    not_mem_of_mem_words locale (by simp [Labels.words])
  simp [tableHeading, hlabel]

theorem opensDatabase_databaseHeading (l : Labels) (d : DatabaseDoc) :
    opensDatabase (databaseHeading l d) = true := by
  simp [opensDatabase, databaseHeading, List.isPrefixOf]

theorem opens_tableHeading (l : Labels) (t : TableDoc) :
    opensDatabase (tableHeading l t) = false ∧ opensTable (tableHeading l t) = true := by
  simp [opensDatabase, opensTable, tableHeading, List.isPrefixOf]

theorem databases_ofText (text : List Char) : (Outline.ofText text).databases =
    (sections opensDatabase (writtenLines text)).2.map fun x => .ofLines x.1 x.2 :=
  rfl

theorem tables_ofLines (heading : List Char) (lines : List (List Char)) :
    (DatabaseSection.ofLines heading lines).tables =
      (sections opensTable lines).2.map fun x => ⟨x.1, x.2⟩ :=
  rfl

/-- If no name breaks, each heading is one line. -/
theorem documentLines_of_namesOnOneLine (h : NamesOnOneLine c) :
    documentLines locale.labels c =
      titleLine locale.labels :: c.databases.flatMap fun d =>
        databaseHeading locale.labels d :: d.tables.flatMap fun t =>
          tableHeading locale.labels t :: tableLines locale.labels t := by
  rw [documentLines]
  congr 1
  refine List.flatMap_congr fun d hd => ?_
  -- a heading is one line where its name holds no line break
  obtain ⟨hname, htables⟩ := h d hd
  have hheading : writtenLines (databaseHeading locale.labels d) =
      [databaseHeading locale.labels d] :=
    writtenLines_of_not_mem (mt (mem_databaseHeading_iff locale).mp hname)
      (by simp [databaseHeading])
  rw [hheading, List.singleton_append]
  congr 1
  refine List.flatMap_congr fun t ht => ?_
  have hheading : writtenLines (tableHeading locale.labels t) = [tableHeading locale.labels t] :=
    writtenLines_of_not_mem (mt (mem_tableHeading_iff locale).mp (htables t ht))
      (by simp [tableHeading])
  rw [hheading, List.singleton_append]

/-- Then the reader finds what the collection says. -/
theorem ofText_render (h : NamesOnOneLine c) :
    Outline.ofText (render locale c).toList = outline locale.labels c := by
  have htitle : ∀ line ∈ [titleLine locale.labels], opensDatabase line = false := by
    simp [titleLine, opensDatabase, List.isPrefixOf]
  -- No line between two database headings opens a database.
  have hbelow : ∀ d ∈ c.databases,
      ∀ line ∈ d.tables.flatMap fun t =>
        tableHeading locale.labels t :: tableLines locale.labels t, opensDatabase line = false := by
    intro d _ line hline
    obtain ⟨t, -, hline⟩ := List.mem_flatMap.mp hline
    rcases List.mem_cons.mp hline with rfl | hline
    · exact (opens_tableHeading _ t).1
    · exact (opens_of_mem_tableLines locale hline).1
  have htables : ∀ d : DatabaseDoc, sections opensTable (d.tables.flatMap fun t =>
      tableHeading locale.labels t :: tableLines locale.labels t) =
        ([], d.tables.map fun t => (tableHeading locale.labels t, tableLines locale.labels t)) :=
    fun d => sections_flatMap (fun t _ => (opens_tableHeading _ t).2)
      (fun t _ line hline => (opens_of_mem_tableLines locale hline).2)
  rw [Outline.ofText, writtenLines_render, documentLines_of_namesOnOneLine h,
    ← List.singleton_append, sections_append htitle,
    sections_flatMap (fun d _ => opensDatabase_databaseHeading _ d) hbelow]
  simp [outline, databaseSection, DatabaseSection.ofLines, htables, tableSection]

/-- And it finds that only then: a heading that is found is a line of the text. -/
theorem namesOnOneLine_of_ofText
    (h : Outline.ofText (render locale c).toList = outline locale.labels c) : NamesOnOneLine c := by
  have hdatabases : c.databases.map (databaseSection locale.labels) =
      (Outline.ofText (render locale c).toList).databases := by rw [h, outline]
  rw [databases_ofText] at hdatabases
  intro d hd
  have hmem := List.mem_map_of_mem (f := databaseSection locale.labels) hd
  rw [hdatabases] at hmem
  obtain ⟨⟨heading, lines⟩, hsection, heq⟩ := List.mem_map.mp hmem
  obtain ⟨hheading, hlines⟩ := mem_of_mem_sections hsection
  have hname : heading = databaseHeading locale.labels d := congrArg DatabaseSection.heading heq
  have htables : (DatabaseSection.ofLines heading lines).tables =
      d.tables.map (tableSection locale.labels) := congrArg DatabaseSection.tables heq
  rw [tables_ofLines] at htables
  -- a heading that is found is a line, and no line holds a line feed
  constructor
  · rw [← mem_databaseHeading_iff locale, ← hname]
    exact not_mem_of_mem_writtenLines hheading
  · intro t ht
    have hmem := List.mem_map_of_mem (f := tableSection locale.labels) ht
    rw [← htables] at hmem
    obtain ⟨⟨heading, below⟩, hsection, heq⟩ := List.mem_map.mp hmem
    have hname : heading = tableHeading locale.labels t := congrArg TableSection.heading heq
    rw [← mem_tableHeading_iff locale, ← hname]
    exact not_mem_of_mem_writtenLines (hlines (mem_of_mem_sections hsection).1)

/-- What a reader of a document of a collection can rely on. -/
structure StructuredDocument (locale : Locale) (c : Collection) (text : List Char) : Prop where
  /-- One line feed is at the end. -/
  ends : ∃ front last, text = front ++ [last, '\n'] ∧ last ≠ '\n'
  /-- Whatever the texts hold, only headings take more than one line. -/
  lines : writtenLines text = documentLines locale.labels c
  /-- A row shows the cells of its column. -/
  cells : ∀ d ∈ c.databases, ∀ t ∈ d.tables, ∀ column ∈ t.columns,
    cellsOf (columnRow locale.labels column) =
      [] :: ([cell column.name, cell column.type, (locale.labels.answer column.nullable).toList,
        (locale.labels.answer column.isPrimaryKey).toList, cell column.comment].map padded ++ [[]])
  /-- The sections are those of the collection unless a name breaks its heading. -/
  outline_iff : Outline.ofText text = outline locale.labels c ↔ NamesOnOneLine c

/-- **The structure of a document.** Each supported locale has a document for each collection. It
has the sections of the collection if and only if no name of a database or a table holds a line
feed; no other text can change them. -/
theorem document_structured (locale : Locale) (c : Collection) :
    ∃ text, renderIn locale.name c = .ok text ∧ StructuredDocument locale c text.toList := by
  have hrender : renderIn locale.name c = .ok (render locale c) := by cases locale <;> rfl
  refine ⟨render locale c, hrender, render_ends locale c, writtenLines_render locale c, ?_, ?_⟩
  · intro _ _ _ _ column _
    exact cellsOf_row (columnRow_cells locale column)
  · exact ⟨namesOnOneLine_of_ofText, ofText_render⟩

/-- A database whose name goes on in a second line. -/
def brokenName : Collection :=
  ⟨[{ name := "a\n## Database: b" }]⟩

/-- The second line of the name is a heading of its own: the document shows two databases. -/
theorem document_structured_brokenName :
    ∃ text, renderIn "en" brokenName = .ok text ∧
      StructuredDocument .en brokenName text.toList ∧
      Outline.ofText text.toList ≠ outline Locale.en.labels brokenName ∧
      (Outline.ofText text.toList).databases.map DatabaseSection.heading =
        ["## Database: a".toList, "## Database: b".toList] := by
  obtain ⟨text, htext, hstructured⟩ := document_structured .en brokenName
  refine ⟨text, htext, hstructured, ?_, ?_⟩
  · rw [Ne, hstructured.outline_iff]
    decide +kernel
  · obtain rfl : render .en brokenName = text := Except.ok.inj htext
    decide +kernel

end Document

end TableDocs.Markdown
