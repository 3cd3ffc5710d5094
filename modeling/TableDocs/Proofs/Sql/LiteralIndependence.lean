import TableDocs.Proofs.Sql.CommentSource

/-!
# TableDocs — literals never steer

The text of a literal is data: whatever stands in it, the walk through a script stops at the same
lexemes and finds the same tables there. Only a literal in double quotes can be a name, so those are
left alone.

* **`Lexeme.rewriteText`** — a literal with another text, in the same quotes and at the same place.
  This is a relabeling (`rewriting`), and it leaves the script as it is.
* **`Visit.Agree.eq_withComments`** — so the two walks differ in comments only: types, defaults and
  fragments are cut out of one script at the same places.
* **`Visit.commentSources_rewriting`** — the comments come from the same lexemes.
* **`literals_never_steer`** — each comment is rewritten exactly when its lexeme is.
-/

namespace TableDocs.Sql

/-! ## Rewriting literals

The new text of a literal is any function of its old one. The places of the lexemes stay, though a
rewritten text need not have the length of the old one: it stands for the value of the lexeme, and
the script is not touched. -/

namespace Lexeme

/-- A literal that cannot be a name: its quotes are no double quotes. -/
def isPlainLiteral (l : Lexeme) : Bool :=
  match l.kind with
  | .literal _ quote => quote ≠ '"'
  | _ => false

/-- The lexeme with the text of a plain literal rewritten. -/
def rewriteText (f : String → String) (l : Lexeme) : Lexeme :=
  match l.kind with
  | .literal text quote => if quote = '"' then l else { l with kind := .literal (f text) quote }
  | _ => l

variable (f : String → String) (l : Lexeme)

/-- A rewritten lexeme stays where it is. -/
theorem rewriteText_place :
    (l.rewriteText f).start = l.start ∧ (l.rewriteText f).stop = l.stop ∧
      (l.rewriteText f).line = l.line := by
  rw [rewriteText]
  split
  · split <;> exact ⟨rfl, rfl, rfl⟩
  · exact ⟨rfl, rfl, rfl⟩

/-- To the reader it plays the same role as before. -/
theorem rewriteText_sameRole : l.kind.SameRole (l.rewriteText f).kind := by
  rw [rewriteText]
  split
  · next text quote hkind =>
    split
    · exact .inl rfl
    · next hquote => exact .inr ⟨text, f text, quote, hquote, hkind, rfl⟩
  · exact .inl rfl

end Lexeme

/-- The relabeling that rewrites the text of each plain literal. -/
def rewriting (f : String → String) : Relabeling :=
  ⟨Lexeme.rewriteText f, Lexeme.rewriteText_sameRole f⟩

/-- The relabeling that changes nothing. -/
def unchanged : Relabeling :=
  ⟨id, fun _ => .inl rfl⟩

/-- The comment that a source gives after the rewriting. -/
def rewrittenComment (f : String → String) (source? : Option Lexeme) : String :=
  if source?.any Lexeme.isPlainLiteral then f (commentOf source?) else commentOf source?

/-- The comment of a rewritten source is the rewritten comment. -/
theorem commentOf_rewriting (f : String → String) (source? : Option Lexeme) :
    commentOf (source?.map (rewriting f)) = rewrittenComment f source? := by
  cases source? with
  | none => rfl
  | some l =>
    cases hkind : l.kind with
    | literal text quote =>
      by_cases hquote : quote = '"' <;>
        simp [commentOf, rewrittenComment, rewriting, Lexeme.rewriteText, Lexeme.isPlainLiteral,
          Lexeme.valueText?, hkind, hquote]
    | _ =>
      simp [commentOf, rewrittenComment, rewriting, Lexeme.rewriteText, Lexeme.isPlainLiteral,
        Lexeme.valueText?, hkind]

/-! ## Other comments

What may differ between the two readings is named here, so that everything else can be said to be
equal. -/

/-- The table with other comments: its own, then those of its columns. -/
def Table.withComments (t : Table) (comments : List String) : Table :=
  { t with
    columns := List.zipWith (fun c comment => { c with comment := comment }) t.columns comments.tail
    comment := comments.headD t.comment }

/-- The visit with other comments for its table. -/
def Visit.withComments (comments : List String) : Visit → Visit
  | accepted start opening closing stop table skipped =>
    accepted start opening closing stop (table.withComments comments) skipped
  | rejected start opening anomaly => rejected start opening anomaly

/-! ## Two readings at the same places

Both readings cite the same script at the same places. So a text that is cited is the same in both,
and only the text of a literal can differ. -/

section SamePlaces

variable {script : Array Char} {f : String → String} {ls : List Lexeme}

/-- The lexemes as they are in the script. -/
def original (script : Array Char) : Layout :=
  ⟨script, unchanged⟩

/-- The lexemes with rewritten literals, at the same places of the same script. -/
def rewritten (script : Array Char) (f : String → String) : Layout :=
  ⟨script, rewriting f⟩

theorem lexemes_original (script : Array Char) (ls : List Lexeme) :
    (original script).lexemes ls = ls :=
  List.map_id ls

theorem line_rewritten (l : Lexeme) :
    ((rewritten script f).place l).line = ((original script).place l).line :=
  (Lexeme.rewriteText_place f l).2.2

/-- Texts that are cited do not depend on the texts of literals. -/
theorem cite_rewritten (first last : Lexeme) :
    (rewritten script f).cite first last = (original script).cite first last := by
  have hstart : ((rewritten script f).place first).start = first.start :=
    (Lexeme.rewriteText_place f first).1
  have hstop : ((rewritten script f).place last).stop = last.stop :=
    (Lexeme.rewriteText_place f last).2.1
  rw [Layout.cite, Lexeme.sliceTo, hstart, hstop]
  rfl

/-- The original lexemes and the rewritten ones are two layouts of the same text. -/
theorem sameText_rewritten (script : Array Char) (f : String → String) (ls : List Lexeme) :
    SameText (original script) (rewritten script f) ls := by
  refine ⟨fun l _ => (cite_rewritten l l).symm, ?_⟩
  rw [List.isChain_iff_getElem]
  intro i hi
  have hstop : ((rewritten script f).place ls[i]).stop = ls[i].stop :=
    (Lexeme.rewriteText_place f _).2.1
  have hstart : ((rewritten script f).place ls[i + 1]).start = ls[i + 1].start :=
    (Lexeme.rewriteText_place f _).1
  rw [hstop, hstart]
  rfl

theorem SameStretch.eq_of_rewritten {text? text'? : Option String}
    (h : SameStretch (original script) (rewritten script f) ls text? text'?) : text'? = text? := by
  rcases h with ⟨rfl, rfl⟩ | ⟨first, -, last, -, rfl, rfl⟩
  · rfl
  · rw [cite_rewritten]

/-- An anomaly cites the script, so it is the same. -/
theorem Anomaly.Agree.eq_of_rewritten {a a' : Anomaly}
    (h : a.Agree (original script) (rewritten script f) ls a') : a' = a := by
  obtain ⟨cause, place, -, first, -, last, -, rfl, rfl⟩ := h
  rw [line_rewritten, cite_rewritten]

/-- A column is the same but for its comment. -/
theorem Column.Agree.eq_withComment {c c' : Column}
    (h : c.Agree (original script) (rewritten script f) ls c') :
    c' = { c with comment := c'.comment } := by
  obtain ⟨name, type, nullable, isPrimaryKey, comment, default?⟩ := c
  obtain ⟨name', type', nullable', isPrimaryKey', comment', default?'⟩ := c'
  obtain ⟨rfl, rfl, rfl, rfl, -, hdefault⟩ := h
  obtain rfl : default?' = default? := hdefault.eq_of_rewritten
  rfl

/-- So is a table but for its comment and those of its columns. -/
theorem Table.Agree.eq_withComments {t t' : Table}
    (h : t.Agree (original script) (rewritten script f) ls t') :
    t' = t.withComments (t'.comment :: t'.columns.map Column.comment) := by
  have hcolumns : t'.columns = List.zipWith (fun c comment => { c with comment := comment })
      t.columns (t'.columns.map Column.comment) := by
    have hall := h.columns
    generalize t.columns = columns at hall
    generalize t'.columns = columns' at hall
    induction hall with
    | nil => rfl
    | cons hc _ ih =>
      rw [List.map_cons, List.zipWith_cons_cons, ← hc.eq_withComment, ← ih]
  -- the lines are those of the same lexemes
  obtain ⟨first, -, hstart, hstart'⟩ := h.startLine
  obtain ⟨last, -, hend, hend'⟩ := h.endLine
  rw [line_rewritten, ← hstart] at hstart'
  rw [line_rewritten, ← hend] at hend'
  rw [Table.withComments, List.tail_cons, List.headD_cons, ← hcolumns, h.name, ← hstart', ← hend']

/-- **The readings differ in comments only.** -/
theorem Visit.Agree.eq_withComments {v v' : Visit}
    (h : v.Agree (original script) (rewritten script f) ls v') :
    v' = v.withComments v'.comments := by
  cases h with
  | @accepted start opening closing stop t t' skipped skipped' htable hskipped =>
    have hsame : skipped' = skipped := by
      have hall := hskipped.imp fun _ _ ha => Anomaly.Agree.eq_of_rewritten ha
      rw [← List.forall₂_eq_eq_eq]
      exact hall.flip
    rw [Visit.withComments, Visit.comments, ← htable.eq_withComments, hsame]
  | rejected ha => rw [Visit.withComments, ha.eq_of_rewritten]

end SamePlaces

/-! ## The sources of rewritten comments

That only comments differ says nothing of how. Each comment comes from one lexeme, the same in both
readings, and that lexeme is rewritten or not. -/

section Sources

variable (script : Array Char) (f : String → String)

/-- The comments of columns come from the rewritten sources. -/
theorem columnSources_rewriting (body : List Lexeme) :
    columnSources script (body.map (rewriting f)) =
      (columnSources script body).map (Option.map (rewriting f)) := by
  have hdefines : definesColumn ∘ List.map (rewriting f) = definesColumn := by
    funext item
    simp [definesColumn]
  rw [columnSources, columnSources, Group.segments_map, PrimaryKey.keyNames_map, List.filter_map,
    hdefines, List.filterMap_map, List.map_filterMap]
  congr 1
  funext item
  -- an item is a column in both readings or in none
  have hread := ColumnDef.read_agree (PrimaryKey.keyNames body) (sameText_rewritten script f item)
  rw [lexemes_original] at hread
  have hright : ColumnDef.read script (PrimaryKey.keyNames body) (item.map (rewriting f)) =
      ColumnDef.read (rewritten script f).script (PrimaryKey.keyNames body)
        ((rewritten script f).lexemes item) := rfl
  have hleft : ColumnDef.read script (PrimaryKey.keyNames body) item =
      ColumnDef.read (original script).script (PrimaryKey.keyNames body) item := rfl
  rw [Function.comp_apply, hright, hleft, ColumnDef.attributesOf_map, ColumnDef.commentSource?_map]
  rcases hread.exists_or_exists with ⟨cause, cause', hp, hq, -⟩ | ⟨column, column', hp, hq, -⟩
  · rw [hp, hq]
    rfl
  · rw [hp, hq]
    rfl

/-- Comments come from the same lexemes, whatever their texts are. -/
theorem Visit.commentSources_rewriting (ls : List Lexeme) (comments : List String) (v : Visit) :
    (v.withComments comments).commentSources script (ls.map (rewriting f)) =
      (v.commentSources script ls).map (Option.map (rewriting f)) := by
  cases v with
  | accepted start opening closing stop table skipped =>
    rw [withComments, commentSources, commentSources, between_map, between_map,
      TableOptions.commentSource?_map, columnSources_rewriting, List.map_cons]
  | rejected => rfl

end Sources

/-! ## The result

The walk is compared visit by visit. The comments of a visit are those of its sources, in both
readings. -/

/-- What the rewriting of literals by `f` changes in the reading of `ls`. -/
structure Unsteered (script : Array Char) (f : String → String) (ls : List Lexeme) : Prop where
  -- The comments of the tables are the texts of their sources.
  comments : ∀ v ∈ visits script ls, v.comments = (v.commentSources script ls).map commentOf
  -- The walk stops at the same lexemes, and a comment changes only when its source is rewritten.
  walk : visits script (ls.map (Lexeme.rewriteText f)) =
    (visits script ls).map fun v =>
      v.withComments ((v.commentSources script ls).map (rewrittenComment f))
  -- So the tables are the same but for these comments, in the same order,
  tables : (ScriptReading.ofFindings (scan script (ls.map (Lexeme.rewriteText f)))).tables =
    (visits script ls).filterMap fun v =>
      v.table?.map fun t =>
        t.withComments ((v.commentSources script ls).map (rewrittenComment f))
  original : (ScriptReading.ofFindings (scan script ls)).tables =
    (visits script ls).filterMap Visit.table?
  -- and the same parts of the script are skipped.
  anomalies : (ScriptReading.ofFindings (scan script (ls.map (Lexeme.rewriteText f)))).anomalies =
    (ScriptReading.ofFindings (scan script ls)).anomalies

/-- The walk through the rewritten lexemes, visit by visit. -/
theorem visits_rewriteText (script : Array Char) (f : String → String) (ls : List Lexeme) :
    visits script (ls.map (Lexeme.rewriteText f)) =
      (visits script ls).map fun v =>
        v.withComments ((v.commentSources script ls).map (rewrittenComment f)) := by
  have hagree := visits_agree (sameText_rewritten script f ls)
  rw [lexemes_original] at hagree
  have hlocated : ∀ v ∈ visits script (ls.map (rewriting f)),
      v.Located script (ls.map (rewriting f)) :=
    fun v hv => (located_of_mem_visitsFrom (List.suffix_refl _) hv).1
  change List.Forall₂ _ (visits script ls) (visits script (ls.map (rewriting f))) at hagree
  change visits script (ls.map (rewriting f)) = _
  generalize visits script (ls.map (rewriting f)) = vs' at hagree hlocated ⊢
  generalize visits script ls = vs at hagree ⊢
  induction hagree with
  | nil => rfl
  | @cons v v' vs vs' hv _ ih =>
    -- the comments that the second reading finds are those of its own sources
    have hcomments : v'.comments = (v.commentSources script ls).map (rewrittenComment f) := by
      rw [(hlocated v' List.mem_cons_self).comments_eq, hv.eq_withComments,
        Visit.commentSources_rewriting, List.map_map]
      exact List.map_congr_left fun source? _ => commentOf_rewriting f source?
    rw [List.map_cons, ← hcomments, ← hv.eq_withComments,
      ih fun w hw => hlocated w (List.mem_cons_of_mem v' hw)]

theorem anomalies_withComments (v : Visit) (comments : List String) :
    (v.withComments comments).finding.anomalies = v.finding.anomalies := by
  cases v <;> rfl

theorem table?_withComments (v : Visit) (comments : List String) :
    (v.withComments comments).table? = v.table?.map fun t => t.withComments comments := by
  cases v <;> rfl

/-- **Literals never steer the reader.** Rewriting the texts of literals, except those in double
quotes, changes nothing in the reading of a script but the comments that come from such a
literal. -/
theorem literals_never_steer (script : Array Char) (f : String → String) (ls : List Lexeme) :
    Unsteered script f ls where
  comments v hv := (located_of_mem_visitsFrom (List.suffix_refl _) hv).1.comments_eq
  walk := visits_rewriteText script f ls
  tables := by
    rw [tables_ofFindings_scan, visits_rewriteText, List.filterMap_map]
    congr 1
    funext v
    exact table?_withComments v _
  original := tables_ofFindings_scan script ls
  anomalies := by
    rw [anomalies_ofFindings_scan, anomalies_ofFindings_scan, visits_rewriteText, List.flatMap_map]
    congr 1
    funext v
    exact anomalies_withComments v _

end TableDocs.Sql
