import TableDocs.Proofs.Sql.PrimaryKeys
import TableDocs.Proofs.Sql.ScanAccount
import TableDocs.Proofs.Sql.Slice
import TableDocs.Proofs.Sql.TokenPlaces

/-!
# TableDocs — a body read alone

The body of a table can be cut out of its script and read by itself. Its lexemes then stand in
another text, and all of them by the same number of characters and lines nearer to the front.

* **`moved`**, **`slice_bodyText`** — the lexemes of the body are those of the script moved, and
  what stands between two of them is the same text in both.
* **`readBody_moved`** — so the items are read alike, and the anomalies differ in their lines only.
* **`body_alone`** — reading the text between the parentheses of an accepted table gives the columns
  of the table, its anomalies and its key columns.
-/

namespace TableDocs.Sql

/-- The text between two parentheses. -/
def bodyText (script : Array Char) (opening closing : Lexeme) : String :=
  String.ofList (slice script opening.stop closing.start)

/-- Moves lexemes a number of characters and lines towards the end. -/
def moved (offset lines : Nat) : Relabeling where
  toFun l := { l with start := l.start + offset, stop := l.stop + offset, line := l.line + lines }
  sameRole _ := .inl rfl

/-- The same anomaly some lines further down. -/
def Anomaly.moved (lines : Nat) (a : Anomaly) : Anomaly :=
  { a with line := a.line + lines }

section Body

variable {script : Array Char} {opening closing : Lexeme} {body : List Lexeme}

/-- A stretch of the body is a stretch of the script. -/
theorem slice_bodyText (start : Nat) {stop : Nat}
    (h : stop ≤ (bodyText script opening closing).toList.toArray.size) :
    slice (bodyText script opening closing).toList.toArray start stop =
      slice script (start + opening.stop) (stop + opening.stop) := by
  rw [bodyText, String.toList_ofList] at h ⊢
  exact slice_slice h

variable (lines : Nat)

/-- Each lexeme beside itself when moved. -/
theorem zip_moved (offset : Nat) (ls : List Lexeme) :
    ls.zip (ls.map (moved offset lines)) = ls.map fun l => (l, moved offset lines l) := by
  induction ls with
  | nil => rfl
  | cons l ls ih => rw [List.map_cons, List.zip_cons_cons, ih, List.map_cons]

/-- **The body is written in the script as it is written alone.** -/
theorem sameWriting_moved
    (h : ∀ l ∈ body, l.stop ≤ (bodyText script opening closing).toList.toArray.size) :
    SameWriting (bodyText script opening closing).toList.toArray script body
      (body.map (moved opening.stop lines)) where
  lexemes := by
    rw [List.forall₂_map_right_iff, List.forall₂_same]
    exact fun l hl => ⟨rfl, slice_bodyText l.start (h l hl)⟩
  gaps := by
    -- both ends of a gap move alike
    rw [zip_moved, List.isChain_map, List.isChain_iff_getElem]
    intro i _
    exact Nat.add_lt_add_iff_right.symm
  stretches := by
    rw [zip_moved]
    intro first hfirst last hlast
    obtain ⟨l, -, rfl⟩ := List.mem_map.mp hfirst
    obtain ⟨l', hl', rfl⟩ := List.mem_map.mp hlast
    exact slice_bodyText l.start (h l' hl')

/-! ## Items

The reader of an item looks at texts and gaps, both of which are the same in the two texts. Only
the line of an anomaly is a place in the script, and that line moves. -/

/-- An item is read alike in both texts; the anomaly that it may give is moved with it. -/
theorem readItem_moved (keys : List String) {item : List Lexeme} (hitem : item ≠ [])
    (h : ∀ l ∈ item, l.stop ≤ (bodyText script opening closing).toList.toArray.size) :
    readItem script keys (item.map (moved opening.stop lines)) =
      (readItem (bodyText script opening closing).toList.toArray keys item).mapError
        (Anomaly.moved lines) := by
  have hread := (sameWriting_moved lines h).read_eq keys
  obtain ⟨first, rest, rfl⟩ := List.exists_cons_of_ne_nil hitem
  rw [readItem, readItem, ← hread]
  cases ColumnDef.read (bodyText script opening closing).toList.toArray keys (first :: rest) with
  | ok column => rfl
  | error cause =>
    -- the cause is the same, and so is the text that is cited
    have hstop := h (rest.getLastD first) List.getLastD_mem_cons
    have hfragment := slice_bodyText first.start hstop
    simp only [List.map_cons, List.getLastD_map, Except.mapError, Lexeme.sliceTo]
    rw [hfragment]
    rfl

/-- **The items of a body are read alike in both texts.** -/
theorem readBody_moved
    (h : ∀ l ∈ body, l.stop ≤ (bodyText script opening closing).toList.toArray.size) :
    readBody script (body.map (moved opening.stop lines)) =
      (readBody (bodyText script opening closing).toList.toArray body).map
        (Except.mapError (Anomaly.moved lines)) := by
  have hdefines : definesColumn ∘ List.map (moved opening.stop lines) = definesColumn := by
    funext item
    simp [definesColumn]
  have hitems : ∀ (script : Array Char) (ls : List Lexeme), readBody script ls =
      ((Group.segments ls).filter definesColumn).map (readItem script (PrimaryKey.keyNames ls)) :=
    fun _ _ => rfl
  rw [hitems, hitems, Group.segments_map, PrimaryKey.keyNames_map, List.filter_map, hdefines,
    List.map_map, List.map_map]
  apply List.map_congr_left
  intro item hitem
  obtain ⟨hmem, hcolumn⟩ := List.mem_filter.mp hitem
  -- the items are cut at the same places, and each one lies in the body
  have hwithin : item <:+: body := Group.infix_of_mem_segments hmem
  have hne : item ≠ [] := by
    rintro rfl
    exact absurd hcolumn (by decide)
  exact readItem_moved lines _ hne fun l hl => h l (hwithin.subset hl)

end Body

/-! ## Results

Anomalies are moved after the body is read. Doing so to all results changes the failures and leaves
the columns alone. -/

section Results

variable {α ε ε' : Type} (f : ε → ε')

/-- The columns are those that were read. -/
theorem successes_mapError (results : List (Except ε α)) :
    successes (results.map (Except.mapError f)) = successes results := by
  induction results with
  | nil => rfl
  | cons result results ih =>
    cases result with
    | error e => exact ih
    | ok a => exact congrArg (a :: ·) ih

/-- The anomalies are changed one by one. -/
theorem failures_mapError (results : List (Except ε α)) :
    failures (results.map (Except.mapError f)) = (failures results).map f := by
  induction results with
  | nil => rfl
  | cons result results ih =>
    cases result with
    | error e => exact congrArg (f e :: ·) ih
    | ok a => exact ih

end Results

/-! ## The body of a table

The text is cut out between the two parentheses of an accepted visit. Whether it gives the same
lexemes alone is up to the tokenizer, so this is asked for. -/

/-- What a text says alone about the body of a table: the columns, the anomalies with their lines
counted from `lines` on, and the key columns. -/
structure TellsBody (dialect : Dialect) (text : String) (lines : Nat) (inner : List Lexeme)
    (table : Table) (skipped : List Anomaly) : Prop where
  columns : ∃ alone, columnsOf dialect text = .ok (table.columns, alone) ∧
    skipped = alone.map (Anomaly.moved lines)
  /-- The names are those that the flags of the table's columns go by. -/
  keys : ∃ names, primaryKeysOf dialect text = .ok names ∧ names.Nodup ∧
    (∀ name, name ∈ names ↔ name ∈ PrimaryKey.keyNames inner) ∧
    ∀ column ∈ table.columns, column.isPrimaryKey = names.contains column.name

/-- An accepted table whose body reads alone as it reads in the script, if the text between its
parentheses is cut into the same lexemes. -/
structure ReadsAlone (dialect : Dialect) (script : Array Char) (ls : List Lexeme)
    (opening closing : Nat) (table : Table) (skipped : List Anomaly) (opens closes : Lexeme) :
    Prop where
  -- The indices are those of two parentheses that match.
  opens_at : ls[opening]? = some opens ∧ opens.isPunct .openParen = true
  closes_at : ∃ behind, ls.drop closing = closes :: behind ∧
    Group.close? 0 (ls.drop (opening + 1)) = some ⟨between ls opening closing, closes, behind⟩
  alone : ∀ (lines : Nat) (body : List Lexeme),
    Lexeme.ofScript dialect (bodyText script opens closes).toList.toArray = .ok body →
    between ls opening closing = body.map (moved opens.stop lines) →
      TellsBody dialect (bodyText script opens closes) lines (between ls opening closing) table
        skipped

/-- What was read from the moved lexemes, told of the text alone. -/
theorem tellsBody_of_moved {dialect : Dialect} {script : Array Char} {opens closes : Lexeme}
    {lines : Nat} {body : List Lexeme}
    (hlex : Lexeme.ofScript dialect (bodyText script opens closes).toList.toArray = .ok body)
    {table : Table} {skipped : List Anomaly}
    (hcolumns : table.columns = successes (readBody script (body.map (moved opens.stop lines))))
    (hskipped : skipped = failures (readBody script (body.map (moved opens.stop lines)))) :
    TellsBody dialect (bodyText script opens closes) lines (body.map (moved opens.stop lines)) table
      skipped := by
  have hstops := Lexeme.stop_le_of_ofScript hlex
  have hbody : readBody script (body.map (moved opens.stop lines)) = _ :=
    readBody_moved lines hstops
  rw [hbody, successes_mapError] at hcolumns
  rw [hbody, failures_mapError] at hskipped
  -- the key columns are listed in order and without repetition
  have hnames : ∀ name,
      name ∈ (PrimaryKey.keyNames body).eraseDups.mergeSort (fun a b => decide (a ≤ b)) ↔
        name ∈ PrimaryKey.keyNames body := by
    intro name
    rw [List.mem_mergeSort, List.mem_eraseDups]
  constructor
  · refine ⟨failures (readBody (bodyText script opens closes).toList.toArray body), ?_, hskipped⟩
    rw [columnsOf, hlex, hcolumns]
    rfl
  · refine ⟨_, by rw [primaryKeysOf, hlex]; rfl, ?_, ?_, ?_⟩
    · rw [(List.mergeSort_perm _ _).nodup_iff]
      exact nodup_eraseDups _
    · intro name
      rw [hnames, PrimaryKey.keyNames_map]
    · intro column hcolumn
      rw [hcolumns] at hcolumn
      rw [Bool.eq_iff_iff, readBody_keys hcolumn, List.contains_iff_mem, hnames]

/-- **A body reads alone as it reads in its script.** The tables of a script are those of the
accepted visits. The text between the parentheses of each, if it is cut into the same lexemes when
it stands alone, gives the same columns, anomalies and key columns. -/
theorem body_alone {dialect : Dialect} {text : String} {ls : List Lexeme}
    (hlex : Lexeme.ofScript dialect text.toList.toArray = .ok ls) :
    (readScript dialect text).tables =
        (visits text.toList.toArray ls).filterMap Visit.table? ∧
      (readScript dialect text).anomalies =
        (visits text.toList.toArray ls).flatMap (fun v => v.finding.anomalies) ∧
      ∀ start opening closing stop table skipped,
        .accepted start opening closing stop table skipped ∈ visits text.toList.toArray ls →
          ∃ opens closes, ReadsAlone dialect text.toList.toArray ls opening closing table skipped
            opens closes := by
  rw [readScript_of_lexemes hlex]
  refine ⟨tables_ofFindings_scan _ ls, anomalies_ofFindings_scan _ ls, ?_⟩
  intro start opening closing stop table skipped hv
  have hlocated := (located_of_mem_visitsFrom (List.suffix_refl ls) hv).1
  obtain ⟨hcolumns, hskipped, -⟩ := hlocated.parts
  cases hlocated with
  | @accepted _ _ _ _ _ _ create terminator header body trailer after hcreate hheader hopening hbody
      hclosing hend hstop hread horder =>
    obtain ⟨_, _, -, hextent⟩ := Header.read?_extent hheader
    -- what stands between the parentheses is what the definition was read from
    have hbehind : ls.drop (opening + 1) = header.rest := by
      rw [← List.drop_drop, hopening, List.drop_one, List.tail_cons]
    have hinner : between ls opening closing = body.inner :=
      between_eq (by rw [hopening, (Group.close?_extent hbody).1]) hclosing
    refine ⟨header.opening, body.close, ⟨?_, hextent.opening_isPunct⟩, ⟨body.rest, hclosing, ?_⟩,
      ?_⟩
    · rw [← List.head?_drop, hopening]
      rfl
    · rw [hbehind, hinner]
      exact hbody
    · intro lines lexemes hlex' hmoved
      rw [hmoved] at hcolumns hskipped ⊢
      exact tellsBody_of_moved hlex' hcolumns hskipped

/-- A table behind a comment, with a default in parentheses, an item that is no column and a key. -/
def commentedScript : String :=
  "-- one table\nCREATE TABLE t (\n  a INT DEFAULT (1 + 2),\n  1,\n  PRIMARY KEY (a)\n);"

def commentedBody : String :=
  "\n  a INT DEFAULT (1 + 2),\n  1,\n  PRIMARY KEY (a)\n"

def commentedBodyLexemes : List Lexeme :=
  [⟨.word "a", 3, 4, 2⟩, ⟨.word "INT", 5, 8, 2⟩, ⟨.word "DEFAULT", 9, 16, 2⟩,
    ⟨.punct .openParen, 17, 18, 2⟩, ⟨.word "1", 18, 19, 2⟩, ⟨.word "+", 20, 21, 2⟩,
    ⟨.word "2", 22, 23, 2⟩, ⟨.punct .closeParen, 23, 24, 2⟩, ⟨.punct .comma, 24, 25, 2⟩,
    ⟨.word "1", 28, 29, 3⟩, ⟨.punct .comma, 29, 30, 3⟩, ⟨.word "PRIMARY", 33, 40, 4⟩,
    ⟨.word "KEY", 41, 44, 4⟩, ⟨.punct .openParen, 45, 46, 4⟩, ⟨.word "a", 46, 47, 4⟩,
    ⟨.punct .closeParen, 47, 48, 4⟩]

def commentedLexemes : List Lexeme :=
  [⟨.word "CREATE", 13, 19, 2⟩, ⟨.word "TABLE", 20, 25, 2⟩, ⟨.word "t", 26, 27, 2⟩,
      ⟨.punct .openParen, 28, 29, 2⟩] ++
    commentedBodyLexemes.map (moved 29 1) ++
    [⟨.punct .closeParen, 78, 79, 6⟩, ⟨.punct .semicolon, 79, 80, 6⟩]

def commentedTable : Table where
  name := "t"
  columns := [{ name := "a", type := "INT", isPrimaryKey := true, default? := some "(1 + 2)" }]
  startLine := 2
  endLine := 6

/-- The body of the table stands 29 characters and one line behind its own text. -/
theorem body_alone_commented :
    Lexeme.ofScript Dialect.mysql commentedScript.toList.toArray = .ok commentedLexemes ∧
      Lexeme.ofScript Dialect.mysql commentedBody.toList.toArray = .ok commentedBodyLexemes ∧
      readScript Dialect.mysql commentedScript = ⟨[commentedTable], [⟨.noColumnName, 4, "1"⟩]⟩ ∧
      columnsOf Dialect.mysql commentedBody =
        .ok (commentedTable.columns, [⟨.noColumnName, 3, "1"⟩]) ∧
      primaryKeysOf Dialect.mysql commentedBody = .ok ["a"] ∧
      TellsBody .mysql commentedBody 1 (commentedBodyLexemes.map (moved 29 1)) commentedTable
        [⟨.noColumnName, 4, "1"⟩] := by
  have hlex : Lexeme.ofScript Dialect.mysql commentedScript.toList.toArray =
      .ok commentedLexemes := by
    decide +kernel
  have hbody : Lexeme.ofScript Dialect.mysql commentedBody.toList.toArray =
      .ok commentedBodyLexemes := by
    decide +kernel
  have hvisit : Visit.accepted 0 3 20 21 commentedTable [⟨.noColumnName, 4, "1"⟩] ∈
      visits commentedScript.toList.toArray commentedLexemes := by
    decide +kernel
  obtain ⟨opens, closes, hopens, ⟨behind, hcloses, -⟩, halone⟩ :=
    (body_alone hlex).2.2 _ _ _ _ _ _ hvisit
  obtain rfl : opens = ⟨.punct .openParen, 28, 29, 2⟩ := by
    have h : commentedLexemes[3]? = some ⟨.punct .openParen, 28, 29, 2⟩ := by decide +kernel
    exact Option.some.inj (hopens.1.symm.trans h)
  obtain rfl : closes = ⟨.punct .closeParen, 78, 79, 6⟩ := by
    have h : commentedLexemes.drop 20 =
        [⟨.punct .closeParen, 78, 79, 6⟩, ⟨.punct .semicolon, 79, 80, 6⟩] := by decide +kernel
    exact (List.cons.inj (hcloses.symm.trans h)).1
  have htext : bodyText commentedScript.toList.toArray ⟨.punct .openParen, 28, 29, 2⟩
      ⟨.punct .closeParen, 78, 79, 6⟩ = commentedBody := by
    decide +kernel
  have hinner : between commentedLexemes 3 20 = commentedBodyLexemes.map (moved 29 1) := by
    decide +kernel
  rw [htext, hinner] at halone
  refine ⟨hlex, hbody, ?_, ?_, ?_, halone 1 _ hbody rfl⟩
  · rw [readScript_of_lexemes hlex]
    decide +kernel
  · rw [columnsOf, hbody]
    decide +kernel
  · rw [primaryKeysOf, hbody]
    decide +kernel

end TableDocs.Sql
