import TableDocs.Collection.Document
import TableDocs.Proofs.Sql.StatementIsolation
import TableDocs.Proofs.Sql.TwoReadings

/-!
# TableDocs — the layout of a script is not documented

Two scripts may differ in the blanks and comments between their lexemes, and so in the places and
lines of the lexemes. As long as the lexemes themselves are spelled alike and there is a gap between
the same neighbours, the documents of both scripts are the same.

* **`SameButLayout`** — the scripts that are compared.
* **`numbered`, `placeIn`** — both lists of lexemes are layouts of one list, in which each lexeme
  stands at its own index. So what `TwoReadings` says of two layouts applies to them.
* **`layout_independent`** — the walks stop at the same lexemes, find the same tables there and
  report anomalies of the same causes, and the documents are equal.
-/

namespace TableDocs.Sql

/-- Two lists of lexemes, each in its own script, that differ in layout only. -/
structure SameButLayout (script script' : Array Char) (ls ls' : List Lexeme) : Prop where
  /-- The lexemes are of the same kinds and are spelled alike. -/
  lexemes : List.Forall₂ (fun l l' => l.kind = l'.kind ∧
    slice script l.start l.stop = slice script' l'.start l'.stop) ls ls'
  /-- Between the same neighbours there is a gap. -/
  gaps : (ls.zip ls').IsChain fun pair next =>
    (pair.1.stop < next.1.start ↔ pair.2.stop < next.2.start)

/-- Two visits stop at the same lexemes. They find tables with one documentation, or they report
anomalies of one cause. -/
inductive Visit.SameDocument : Visit → Visit → Prop
  | accepted {start opening closing stop : Nat} {t t' : Table} {skipped skipped' : List Anomaly}
      (htable : TableDoc.ofTable t = TableDoc.ofTable t')
      (hskipped : skipped.map Anomaly.cause = skipped'.map Anomaly.cause) :
      SameDocument (.accepted start opening closing stop t skipped)
        (.accepted start opening closing stop t' skipped')
  | rejected {start opening : Nat} {a a' : Anomaly} (ha : a.cause = a'.cause) :
      SameDocument (.rejected start opening a) (.rejected start opening a')

/-- Two readings of scripts are documented alike. -/
structure ScriptReading.SameDocument (reading reading' : ScriptReading) : Prop where
  tables : reading.tables.map TableDoc.ofTable = reading'.tables.map TableDoc.ofTable
  causes : reading.anomalies.map Anomaly.cause = reading'.anomalies.map Anomaly.cause
  json : ∀ (name : String) (before after : List (String × List Table)) (indent : Int),
    (Collection.ofSources (before ++ (name, reading.tables) :: after)).toJson indent =
      (Collection.ofSources (before ++ (name, reading'.tables) :: after)).toJson indent

/-! ## One list behind both

Nothing that is read depends on the places of lexemes, but it is read from lexemes that have places.
So both scripts are compared with a third list, whose places are indices. -/

/-- Lexemes with their indices as places. -/
def numbered (ls : List Lexeme) : List Lexeme :=
  ls.mapIdx fun i l => { l with start := i }

/-- Puts numbered lexemes at the places of the lexemes of a list. -/
def placeIn (ls : List Lexeme) : Relabeling where
  toFun k :=
    match ls[k.start]? with
    | some l => { l with kind := k.kind }
    | none => k
  sameRole k := by
    left
    split <;> rfl

/-- A lexeme keeps its kind wherever it is put. -/
theorem kind_placeIn (ls : List Lexeme) (k : Lexeme) : (placeIn ls k).kind = k.kind := by
  simp only [placeIn]
  split <;> rfl

/-- Numbered lexemes, put at the places of a list of the same kinds, are that list. -/
theorem map_placeIn_numbered {ls ls' : List Lexeme}
    (h : List.Forall₂ (fun l l' => l.kind = l'.kind) ls ls') :
    (numbered ls).map (placeIn ls') = ls' := by
  obtain ⟨hlength, hkind⟩ := List.forall₂_iff_get.mp h
  refine List.ext_getElem (by simp [numbered, hlength]) ?_
  intro i hi hi'
  have hi : i < ls.length := by omega
  have hk : ls[i].kind = ls'[i].kind := hkind i hi hi'
  simp [numbered, placeIn, hi', hk]

section SameButLayout

variable {script script' : Array Char} {ls ls' : List Lexeme}

theorem map_placeIn_self (ls : List Lexeme) : (numbered ls).map (placeIn ls) = ls :=
  map_placeIn_numbered (List.forall₂_same.mpr fun _ _ => rfl)

/-- The places in both lists at once are the pairs of lexemes of the same index. -/
theorem map_placeIn_zip (h : List.Forall₂ (fun l l' => l.kind = l'.kind) ls ls') :
    (numbered ls).map (fun k => (placeIn ls k, placeIn ls' k)) = ls.zip ls' :=
  calc (numbered ls).map (fun k => (placeIn ls k, placeIn ls' k))
      = ((numbered ls).map (placeIn ls)).zip ((numbered ls).map (placeIn ls')) := by
        rw [List.zip_map']
    _ = ls.zip ls' := by rw [map_placeIn_self, map_placeIn_numbered h]

theorem SameButLayout.kinds (h : SameButLayout script script' ls ls') :
    List.Forall₂ (fun l l' => l.kind = l'.kind) ls ls' :=
  h.lexemes.imp fun _ _ => And.left

theorem SameButLayout.map_right (h : SameButLayout script script' ls ls') :
    (numbered ls).map (placeIn ls') = ls' :=
  map_placeIn_numbered h.kinds

/-- Two lists that differ in layout only are two layouts of the same text. -/
theorem SameButLayout.sameText (h : SameButLayout script script' ls ls') :
    SameText ⟨script, placeIn ls⟩ ⟨script', placeIn ls'⟩ (numbered ls) := by
  have hzip := map_placeIn_zip h.kinds
  constructor
  · intro k hk
    have hplaces : (placeIn ls k, placeIn ls' k) ∈ ls.zip ls' := by
      rw [← hzip]
      exact List.mem_map_of_mem hk
    exact (List.forall₂_zip h.lexemes hplaces).2
  · have hgaps := h.gaps
    rw [← hzip, List.isChain_map] at hgaps
    exact hgaps

/-- The text of a type does not depend on what fills its gaps. -/
theorem SameButLayout.normalize_eq (h : SameButLayout script script' ls ls') :
    TypeText.normalize script ls = TypeText.normalize script' ls' := by
  have hnormalize := TypeText.normalize_eq h.sameText
  rwa [Layout.lexemes, Layout.lexemes, map_placeIn_self, h.map_right] at hnormalize

end SameButLayout

/-! ## What agrees is documented alike

In both layouts a lexeme is of the same kind, so a value that comes from one lexeme is the same. -/

section Documents

variable {p q : Layout} {ls : List Lexeme}

/-- A value is the same text in both scripts. -/
theorem SameValue.eq (hkind : ∀ l, (p.place l).kind = (q.place l).kind) {text text' : String}
    (h : SameValue p q ls text text') : text = text' := by
  rcases h with ⟨rfl, rfl⟩ | ⟨l, -, htext, htext'⟩
  · rfl
  · rw [Lexeme.valueText?, hkind, ← Lexeme.valueText?, htext'] at htext
    exact (Option.some.inj htext).symm

/-- So columns that agree are documented alike. -/
theorem ColumnDoc.ofColumn_eq (hkind : ∀ l, (p.place l).kind = (q.place l).kind) {c c' : Column}
    (h : c.Agree p q ls c') : ColumnDoc.ofColumn c = ColumnDoc.ofColumn c' := by
  rw [ColumnDoc.ofColumn, ColumnDoc.ofColumn, h.name, h.type, h.nullable, h.isPrimaryKey,
    h.comment.eq hkind]

theorem map_eq_of_forall₂ {α β : Type} {R : α → α → Prop} {f : α → β} {as as' : List α}
    (h : List.Forall₂ R as as') (hf : ∀ a a', R a a' → f a = f a') : as.map f = as'.map f := by
  induction h with
  | nil => rfl
  | cons ha _ ih => rw [List.map_cons, List.map_cons, hf _ _ ha, ih]

/-- And so are tables. -/
theorem TableDoc.ofTable_eq (hkind : ∀ l, (p.place l).kind = (q.place l).kind) {t t' : Table}
    (h : t.Agree p q ls t') : TableDoc.ofTable t = TableDoc.ofTable t' := by
  rw [TableDoc.ofTable, TableDoc.ofTable, h.name, h.comment.eq hkind,
    map_eq_of_forall₂ h.columns fun _ _ => ColumnDoc.ofColumn_eq hkind]

theorem Anomaly.Agree.cause_eq {a a' : Anomaly} (h : a.Agree p q ls a') : a.cause = a'.cause := by
  obtain ⟨cause, -, -, -, -, -, -, rfl, rfl⟩ := h
  rfl

/-- Visits that agree find the same documentation. -/
theorem Visit.Agree.sameDocument (hkind : ∀ l, (p.place l).kind = (q.place l).kind) {v v' : Visit}
    (h : v.Agree p q ls v') : v.SameDocument v' := by
  cases h with
  | accepted htable hskipped =>
    exact .accepted (TableDoc.ofTable_eq hkind htable)
      (map_eq_of_forall₂ hskipped fun _ _ => Anomaly.Agree.cause_eq)
  | rejected ha => exact .rejected ha.cause_eq

end Documents

/-- Visits with the same documentation give the same tables and causes, one by one. -/
theorem tables_and_causes_eq {vs vs' : List Visit} (h : List.Forall₂ Visit.SameDocument vs vs') :
    let reading := ScriptReading.ofFindings (vs.map Visit.finding)
    let reading' := ScriptReading.ofFindings (vs'.map Visit.finding)
    reading.tables.map TableDoc.ofTable = reading'.tables.map TableDoc.ofTable ∧
      reading.anomalies.map Anomaly.cause = reading'.anomalies.map Anomaly.cause := by
  induction h with
  | nil => exact ⟨rfl, rfl⟩
  | cons hv _ ih =>
    obtain ⟨htables, hcauses⟩ := ih
    cases hv with
    | accepted htable hskipped =>
      refine ⟨congrArg₂ List.cons htable htables, ?_⟩
      simp only [ScriptReading.ofFindings, List.map_cons, List.flatMap_cons, List.map_append]
      exact congrArg₂ (· ++ ·) hskipped hcauses
    | rejected ha => exact ⟨htables, congrArg₂ List.cons ha hcauses⟩

/-- The text of a document depends on the documented tables alone. -/
theorem ScriptReading.sameDocument_of_eq {reading reading' : ScriptReading}
    (htables : reading.tables.map TableDoc.ofTable = reading'.tables.map TableDoc.ofTable)
    (hcauses : reading.anomalies.map Anomaly.cause = reading'.anomalies.map Anomaly.cause) :
    reading.SameDocument reading' := by
  refine ⟨htables, hcauses, ?_⟩
  intro name before after indent
  have hsources : Collection.ofSources (before ++ (name, reading.tables) :: after) =
      Collection.ofSources (before ++ (name, reading'.tables) :: after) := by
    simp only [Collection.ofSources, List.map_append, List.map_cons, htables]
  rw [hsources]

/-- **Layout is not documented.** The walks through two scripts that differ in layout only stop at
the same lexemes and document the same there. So the tables are documented alike, the anomalies have
the same causes in the same order, and any document that the tables are part of is the same text. -/
theorem layout_independent {script script' : Array Char} {ls ls' : List Lexeme}
    (h : SameButLayout script script' ls ls') :
    List.Forall₂ Visit.SameDocument (visits script ls) (visits script' ls') ∧
      (ScriptReading.ofFindings (scan script ls)).SameDocument
        (ScriptReading.ofFindings (scan script' ls')) ∧
      ∀ (tokenizer tokenizer' : Tokenizer) (text text' : String),
        text.toList.toArray = script → text'.toList.toArray = script' →
        Lexeme.ofScript tokenizer script = .ok ls → Lexeme.ofScript tokenizer' script' = .ok ls' →
          (readScript tokenizer text).SameDocument (readScript tokenizer' text') := by
  have hkind : ∀ k, (placeIn ls k).kind = (placeIn ls' k).kind := fun k => by
    rw [kind_placeIn, kind_placeIn]
  have hvisits : List.Forall₂ Visit.SameDocument (visits script ls) (visits script' ls') := by
    -- Both lists are layouts of the numbered lexemes, and the walks through two layouts agree.
    have hagree := (visits_agree h.sameText).imp fun _ _ hv => hv.sameDocument hkind
    rwa [Layout.lexemes, Layout.lexemes, map_placeIn_self, h.map_right] at hagree
  have hreading : (ScriptReading.ofFindings (scan script ls)).SameDocument
      (ScriptReading.ofFindings (scan script' ls')) := by
    obtain ⟨htables, hcauses⟩ := tables_and_causes_eq hvisits
    rw [visits, visits, map_finding_visitsFrom, map_finding_visitsFrom] at htables hcauses
    exact ScriptReading.sameDocument_of_eq htables hcauses
  refine ⟨hvisits, hreading, ?_⟩
  rintro tokenizer tokenizer' text text' rfl rfl hlex hlex'
  rw [readScript_of_lexemes hlex, readScript_of_lexemes hlex']
  exact hreading

/-- A table on one line, with an item that is no column. -/
def flatScript : String :=
  "CREATE TABLE t ( a INT  UNSIGNED DEFAULT 1 + 2, 1 );"

/-- The same table on several lines, with comments. -/
def spreadScript : String :=
  "CREATE TABLE t (\n  a INT /* no sign */ UNSIGNED DEFAULT 1 -- one\n + 2,\n  1\n);"

def flatLexemes : List Lexeme :=
  [⟨.word "CREATE", 0, 6, 1⟩, ⟨.word "TABLE", 7, 12, 1⟩, ⟨.word "t", 13, 14, 1⟩,
    ⟨.punct .openParen, 15, 16, 1⟩, ⟨.word "a", 17, 18, 1⟩, ⟨.word "INT", 19, 22, 1⟩,
    ⟨.word "UNSIGNED", 24, 32, 1⟩, ⟨.word "DEFAULT", 33, 40, 1⟩, ⟨.word "1", 41, 42, 1⟩,
    ⟨.word "+", 43, 44, 1⟩, ⟨.word "2", 45, 46, 1⟩, ⟨.punct .comma, 46, 47, 1⟩,
    ⟨.word "1", 48, 49, 1⟩, ⟨.punct .closeParen, 50, 51, 1⟩, ⟨.punct .semicolon, 51, 52, 1⟩]

def spreadLexemes : List Lexeme :=
  [⟨.word "CREATE", 0, 6, 1⟩, ⟨.word "TABLE", 7, 12, 1⟩, ⟨.word "t", 13, 14, 1⟩,
    ⟨.punct .openParen, 15, 16, 1⟩, ⟨.word "a", 19, 20, 2⟩, ⟨.word "INT", 21, 24, 2⟩,
    ⟨.word "UNSIGNED", 39, 47, 2⟩, ⟨.word "DEFAULT", 48, 55, 2⟩, ⟨.word "1", 56, 57, 2⟩,
    ⟨.word "+", 66, 67, 3⟩, ⟨.word "2", 68, 69, 3⟩, ⟨.punct .comma, 69, 70, 3⟩,
    ⟨.word "1", 73, 74, 4⟩, ⟨.punct .closeParen, 75, 76, 5⟩, ⟨.punct .semicolon, 76, 77, 5⟩]

/-- The two layouts are documented alike, though the lines of the table and of the anomaly differ.
-/
theorem layout_independent_spread :
    SameButLayout flatScript.toList.toArray spreadScript.toList.toArray flatLexemes spreadLexemes ∧
      Lexeme.ofScript Dialect.mysql flatScript.toList.toArray = .ok flatLexemes ∧
      Lexeme.ofScript Dialect.mysql spreadScript.toList.toArray = .ok spreadLexemes ∧
      (readScript Dialect.mysql flatScript).SameDocument (readScript Dialect.mysql spreadScript) ∧
      readScript Dialect.mysql flatScript =
        ⟨[{ name := "t"
            columns := [{ name := "a", type := "INT UNSIGNED", default? := some "1" }]
            startLine := 1
            endLine := 1 }],
          [⟨.noColumnName, 1, "1"⟩]⟩ ∧
      readScript Dialect.mysql spreadScript =
        ⟨[{ name := "t"
            columns := [{ name := "a", type := "INT UNSIGNED", default? := some "1" }]
            startLine := 1
            endLine := 5 }],
          [⟨.noColumnName, 4, "1"⟩]⟩ := by
  have hsame : SameButLayout flatScript.toList.toArray spreadScript.toList.toArray flatLexemes
      spreadLexemes := ⟨by decide +kernel, by decide +kernel⟩
  have hflat : Lexeme.ofScript Dialect.mysql flatScript.toList.toArray = .ok flatLexemes := by
    decide +kernel
  have hspread : Lexeme.ofScript Dialect.mysql spreadScript.toList.toArray = .ok spreadLexemes := by
    decide +kernel
  refine ⟨hsame, hflat, hspread, ?_, ?_, ?_⟩
  · exact (layout_independent hsame).2.2 _ _ _ _ rfl rfl hflat hspread
  · rw [readScript_of_lexemes hflat]
    decide +kernel
  · rw [readScript_of_lexemes hspread]
    decide +kernel

end TableDocs.Sql
