import TableDocs.Proofs.Sql.Transcription

/-!
# TableDocs — where comments come from

A comment is the text of one lexeme. This module says of which one, so that it can be followed when
lexemes change:

* **`ColumnDef.commentSource?`** — for a column, the literal behind the last word `COMMENT` that the
  reader of attributes stops at.
* **`TableOptions.commentSource?`** — for a table, the value of the first option `COMMENT`.
* **`Visit.commentSources`** — for a table at given indices, the sources of all its comments. They
  are found by keywords and marks alone, so a relabeling of the lexemes only relabels them
  (`commentSources_map`).
* **`Visit.Located.comments_eq`** — the comments of a table are the texts of these lexemes.
-/

namespace TableDocs.Sql

/-- The comment that a lexeme gives; without a lexeme it is empty. -/
def commentOf (source? : Option Lexeme) : String :=
  (source?.bind Lexeme.valueText?).getD ""

/-! ## Columns

A column may have several comments, and the last one counts. The reader overwrites its answer, so
the sources are searched from behind. -/

namespace ColumnDef

/-- The literal that an attribute gives as the comment. -/
def commentGiven? : List Lexeme → Option Lexeme
  | l :: value :: _ =>
    match value.kind with
    | .literal _ _ => if l.keyword = "COMMENT" then some value else none
    | _ => none
  | _ => none

/-- What gives a comment has a text. -/
theorem valueText?_of_commentGiven? {s : List Lexeme} {value : Lexeme}
    (h : commentGiven? s = some value) : value.valueText?.isSome = true := by
  rw [commentGiven?.eq_def] at h
  split at h
  · next l value' rest =>
    split at h
    · next text quote hvalue =>
      split at h
      · cases h
        rw [Lexeme.valueText?, hvalue]
        rfl
      · exact absurd h (by simp)
    · exact absurd h (by simp)
  · exact absurd h (by simp)

/-- The source of a column's comment: the last of its attributes that gives one counts. -/
def commentSource? (attributes : List Lexeme) : Option Lexeme :=
  (attributeStarts attributes).reverse.findSome? commentGiven?

/-- One attribute sets the comment or leaves it. -/
theorem comment_heard (script : Array Char) (a : Attributes) (l : Lexeme) (rest : List Lexeme) :
    (heard script a l rest).comment =
      ((commentGiven? (l :: rest)).bind Lexeme.valueText?).getD a.comment := by
  -- no other keyword gives a comment
  have other : l.keyword ≠ "COMMENT" → commentGiven? (l :: rest) = none := by
    intro hl
    cases rest with
    | nil => rfl
    | cons value more =>
      rw [commentGiven?]
      split
      · exact if_neg hl
      · rfl
  rw [heard.eq_def]
  split
  · -- `NOT NULL`
    next h =>
    have hl : l.keyword = "NOT" := of_decide_eq_true (Bool.and_eq_true_iff.mp h).1
    rw [other (by rw [hl]; decide)]
    rfl
  · split
    · -- `DEFAULT`
      next hl =>
      rw [other (by rw [hl]; decide)]
      cases rest <;> rfl
    · split
      · -- `COMMENT`
        next hl =>
        cases rest with
        | nil => rfl
        | cons value more =>
          simp only [commentGiven?]
          cases hvalue : value.kind <;> simp [hl, Lexeme.valueText?, hvalue]
      · next hl =>
        rw [other hl]
        rfl

/-- **The comment of a column** is the text of its source. -/
theorem comment_readAttributes (script : Array Char) (a : Attributes) (ls : List Lexeme) :
    (readAttributes script a ls).comment =
      ((commentSource? ls).bind Lexeme.valueText?).getD a.comment := by
  rw [commentSource?]
  fun_induction attributeStarts ls generalizing a with
  | case1 =>
    rw [readAttributes]
    rfl
  | case2 l rest ih =>
    rw [readAttributes_step, ih, comment_heard, List.reverse_cons, List.findSome?_append,
      List.findSome?_singleton]
    -- a source further back hides the one found here
    cases hlater : (attributeStarts (afterAttribute l rest)).reverse.findSome? commentGiven? with
    | none => rfl
    | some value =>
      obtain ⟨s, -, hgiven⟩ := List.exists_of_findSome?_eq_some hlater
      obtain ⟨text, htext⟩ := Option.isSome_iff_exists.mp (valueText?_of_commentGiven? hgiven)
      simp [htext]

end ColumnDef

/-- The sources of the comments of a body's columns, in source order. -/
def columnSources (script : Array Char) (body : List Lexeme) : List (Option Lexeme) :=
  ((Group.segments body).filter definesColumn).filterMap fun item =>
    (ColumnDef.read script (PrimaryKey.keyNames body) item).toOption.map fun _ =>
      ColumnDef.commentSource? (ColumnDef.attributesOf item)

/-- The comments of the columns of a body. -/
theorem comments_readBody (script : Array Char) (body : List Lexeme) :
    (successes (readBody script body)).map Column.comment =
      (columnSources script body).map commentOf := by
  have hitems : ∀ items : List (List Lexeme),
      (successes (items.map (readItem script (PrimaryKey.keyNames body)))).map Column.comment =
        (items.filterMap fun item =>
          (ColumnDef.read script (PrimaryKey.keyNames body) item).toOption.map fun _ =>
            ColumnDef.commentSource? (ColumnDef.attributesOf item)).map commentOf := by
    intro items
    -- for any items, since the key columns are those of the whole body
    induction items with
    | nil => rfl
    | cons item items ih =>
      rw [List.map_cons, successes_readItem, List.map_append, ih, List.filterMap_cons]
      cases hread : ColumnDef.read script (PrimaryKey.keyNames body) item with
      | error cause => rfl
      | ok column =>
        obtain ⟨-, part, type, -, -, -, -, -, hcomment, -⟩ := ColumnDef.read_ok hread
        rw [ColumnDef.comment_readAttributes] at hcomment
        exact congrArg (· :: _) hcomment
  exact hitems _

/-! ## Options

A table may have several options with one keyword, and the first one counts. Here the options are
kept in a list and searched from the front. -/

namespace TableOptions

/-- The lexemes that give a trailer's options their values, each with its keyword. -/
def givenAfter (previous? : Option Lexeme) : List Lexeme → List (String × Lexeme)
  | [] => []
  | l :: rest =>
    match step previous? l rest with
    | .given keyword value => (keyword, value) :: givenAfter (some l) rest
    | _ => givenAfter (some l) rest

/-- The source of a table's comment: its first option `COMMENT` counts. -/
def commentSource? (trailer : List Lexeme) : Option Lexeme :=
  ((givenAfter none trailer).find? fun given => given.1 = "COMMENT").map Prod.snd

/-- The option with the text of a lexeme. -/
def entryOf (given : String × Lexeme) : Entry :=
  ⟨given.1, given.2.valueText?.getD ""⟩

/-- The options are the texts of the lexemes that give them. -/
theorem entries_eq {previous? : Option Lexeme} {trailer : List Lexeme} {entries : List Entry}
    (h : entriesAfter? previous? trailer = some entries) :
    entries = (givenAfter previous? trailer).map entryOf := by
  induction trailer generalizing previous? entries with
  | nil =>
    cases h
    rfl
  | cons l rest ih =>
    rw [entriesAfter?_cons] at h
    rw [givenAfter]
    -- both go through the trailer step by step
    cases hs : step previous? l rest with
    | refused =>
      rw [hs] at h
      exact absurd h (by simp)
    | passed =>
      rw [hs] at h
      exact ih h
    | given keyword value =>
      rw [hs] at h
      obtain ⟨more, hmore, rfl⟩ := Option.map_eq_some_iff.mp h
      rw [ih hmore]
      rfl

/-- **The comment of a table** is the text of its source. -/
theorem comment_eq {trailer : List Lexeme} {options : List Entry}
    (h : read? trailer = some options) :
    (value? "COMMENT" options).getD "" = commentOf (commentSource? trailer) := by
  have hkeyword : (fun e : Entry => decide (e.keyword = "COMMENT")) ∘ entryOf =
      fun given => decide (given.1 = "COMMENT") := rfl
  rw [entries_eq h, value?, commentSource?, List.find?_map, Option.map_map, hkeyword]
  cases (givenAfter none trailer).find? fun given => decide (given.1 = "COMMENT") <;> rfl

end TableOptions

/-! ## Tables

The comments of a table are put in a fixed order, so that they can be compared with their sources
one by one. -/

namespace Visit

/-- The comments of a table: its own, then those of its columns. -/
def comments : Visit → List String
  | accepted _ _ _ _ table _ => table.comment :: table.columns.map Column.comment
  | rejected _ _ _ => []

/-- The sources of the comments of a table, in the same order. -/
def commentSources (script : Array Char) (ls : List Lexeme) : Visit → List (Option Lexeme)
  | accepted _ opening closing stop _ _ =>
    TableOptions.commentSource? (between ls closing stop) ::
      columnSources script (between ls opening closing)
  | rejected _ _ _ => []

/-- **The comments of a table** are the texts of their sources. -/
theorem Located.comments_eq {script : Array Char} {ls : List Lexeme} {v : Visit}
    (h : v.Located script ls) : v.comments = (v.commentSources script ls).map commentOf := by
  cases v with
  | rejected => rfl
  | accepted start opening closing stop table skipped =>
    obtain ⟨hcolumns, -, options, hoptions, hcomment⟩ := h.parts
    rw [comments, commentSources, List.map_cons, ← comments_readBody, ← hcolumns, hcomment,
      TableOptions.comment_eq hoptions]

end Visit

/-! ## Sources of relabeled lexemes

To find a source no text of a literal is looked at. So relabeled lexemes have the relabeled sources.
-/

section Relabeled

variable (r : Relabeling)

namespace ColumnDef

/-- Attributes start at the same places. -/
theorem attributeStarts_map (ls : List Lexeme) :
    attributeStarts (ls.map r) = (attributeStarts ls).map (List.map r) := by
  fun_induction attributeStarts ls with
  | case1 => rw [List.map_nil, attributeStarts]; rfl
  | case2 l rest ih => rw [List.map_cons, attributeStarts, afterAttribute_map, ih]; rfl

/-- The same attributes give a comment. -/
theorem commentGiven?_map (s : List Lexeme) :
    commentGiven? (s.map r) = (commentGiven? s).map r := by
  match s with
  | [] => rfl
  | [_] => rfl
  | l :: value :: rest =>
    simp only [List.map_cons, commentGiven?, Lexeme.keyword_relabel]
    cases hvalue : value.kind with
    | literal text quote =>
      obtain ⟨text', hr⟩ := Lexeme.exists_literal_relabel r hvalue
      rw [hr]
      split_ifs <;> rfl
    | _ => rw [Lexeme.kind_relabel r (by simp [hvalue]), hvalue]; rfl

theorem commentSource?_map (ls : List Lexeme) :
    commentSource? (ls.map r) = (commentSource? ls).map r := by
  rw [commentSource?, commentSource?, attributeStarts_map, ← List.map_reverse, List.findSome?_map,
    List.map_findSome?]
  congr 1
  funext s
  exact commentGiven?_map r s

/-- The attributes of an item start at the same place. -/
theorem attributesOf_map (item : List Lexeme) :
    attributesOf (item.map r) = (attributesOf item).map r := by
  rw [attributesOf, attributesOf, Name.read?_map]
  rcases Name.read? item with _ | ⟨name, _ | ⟨base, rest⟩⟩
  · rfl
  · rfl
  · simp only [Option.map_some, List.map_cons, TypeText.split?_map, Option.map_map]
    cases TypeText.split? base rest <;> rfl

end ColumnDef

theorem TableOptions.givenAfter_map (previous? : Option Lexeme) (trailer : List Lexeme) :
    givenAfter (previous?.map r) (trailer.map r) =
      (givenAfter previous? trailer).map fun (keyword, value) => (keyword, r value) := by
  induction trailer generalizing previous? with
  | nil => rfl
  | cons l rest ih =>
    have htail := ih (some l)
    rw [Option.map_some] at htail
    rw [List.map_cons, givenAfter, givenAfter, step_map, htail]
    cases step previous? l rest <;> rfl

theorem TableOptions.commentSource?_map (trailer : List Lexeme) :
    commentSource? (trailer.map r) = (commentSource? trailer).map r := by
  have hgiven := givenAfter_map r none trailer
  rw [Option.map_none] at hgiven
  rw [commentSource?, commentSource?, hgiven, List.find?_map, Option.map_map, Option.map_map]
  rfl

theorem between_map (ls : List Lexeme) (first last : Nat) :
    between (ls.map r) first last = (between ls first last).map r := by
  rw [between, between, List.map_drop, List.map_take]

end Relabeled

end TableDocs.Sql
