import TableDocs.Proofs.Sql.BodyPartition
import TableDocs.Proofs.Sql.StatementIsolation
import TableDocs.Proofs.Sql.TokenPlaces
import TableDocs.Proofs.Text.Words

/-!
# TableDocs — the records of what was skipped

Anomalies about tables and anomalies about columns come from different places of the walk and end up
in one list. Each tells the line of a lexeme of its own and cites what stands between two lexemes,
in a form that fits on one line.

* **`Anomaly.OneLine`** — what a fragment and the text of a record are like, whatever was skipped.
* **`Skipped`** — what was skipped: an item of a body, or the header or the options of a definition.
* **`Reported`** — the lines of anomalies are among the lines of the lexemes that the walk has
  passed, each lexeme counted once. The walk passes lexemes in order, so stretch after stretch adds
  up (`Reported.append`).
* **`anomalies_orderly`** — so where lines never decrease, anomalies are in the order of lines.
* **`ordered_anomalies`** — the lines of a script never do.
-/

namespace TableDocs.Sql

/-! ## Fragments

A fragment has single spaces between its words, and a long one ends in dots. The dots are a word, so
cutting leaves it in that form. -/

namespace Anomaly

/-- The dots are one word. -/
theorem isWord_dots : Text.IsWord ['.', '.', '.'] :=
  ⟨by decide, by simp [Text.isBlank]⟩

/-- A fragment has single spaces between its words. -/
theorem collapsed_shorten (text : List Char) : Text.Collapsed (shorten text) := by
  rw [shorten]
  split
  · exact (Text.collapsed_collapse text).cut isWord_dots _
  · exact Text.collapsed_collapse text

/-- A fragment is never longer than the limit. -/
theorem length_shorten_le (text : List Char) : (shorten text).length ≤ fragmentLimit := by
  rw [shorten]
  split
  · rw [List.length_append, List.length_take]
    exact Nat.add_le_add_right (Nat.min_le_left _ _) _
  · next h => exact Nat.le_of_not_lt h

/-- A text in that form that is short enough stays as it is. -/
theorem shorten_eq_self {text : List Char} (h : Text.Collapsed text)
    (hlength : text.length ≤ fragmentLimit) : shorten text = text := by
  rw [shorten, h.collapse_eq]
  exact if_neg (Nat.not_lt.mpr hlength)

/-- **A fragment is short already.** -/
theorem shorten_idem (text : List Char) : shorten (shorten text) = shorten text :=
  shorten_eq_self (collapsed_shorten text) (length_shorten_le text)

/-- Texts with the same words, however they are spread, have one fragment. -/
theorem shorten_eq_of_wordsOf {ws : List (List Char)} {text text' : List Char}
    (h : Text.WordsOf ws text) (h' : Text.WordsOf ws text') : shorten text' = shorten text := by
  rw [shorten, shorten, Text.collapse, Text.collapse, h.words_eq, h'.words_eq]

/-! ## Texts of records

A record is put together from constant texts, a number and a fragment. None of them holds the end of
a line. -/

/-- No digit ends a line. -/
theorem isLineEnd_of_isDigit {c : Char} (h : c.isDigit = true) : Text.isLineEnd c = false := by
  rw [← Bool.not_eq_true]
  intro hend
  have hzero : '0'.val.toNat = 48 := rfl
  have hnine : '9'.val.toNat = 57 := rfl
  simp only [Char.isDigit, Text.isLineEnd, Char.toNat, Bool.and_eq_true, Bool.or_eq_true,
    decide_eq_true_eq, beq_iff_eq, UInt32.le_iff_toNat_le] at h hend
  omega

/-- No number ends a line. -/
theorem oneLine_toString (n : Nat) : ∀ c ∈ (toString n).toList, Text.isLineEnd c = false := by
  intro c hc
  have hdigits : (toString n).toList = Nat.toDigits 10 n := String.toList_ofList
  rw [hdigits] at hc
  exact isLineEnd_of_isDigit (Nat.isDigit_of_mem_toDigits (by decide) (by decide) hc)

/-- No part of a record ends a line. -/
theorem describe_oneLine {a : Anomaly} (h : Text.Collapsed a.fragment.toList) :
    ∀ c ∈ a.describe.toList, Text.isLineEnd c = false := by
  have hsubject : (a.cause.subject.toList.all fun c => !Text.isLineEnd c) = true := by
    cases a.cause <;> decide
  have hreason : (a.cause.reason.toList.all fun c => !Text.isLineEnd c) = true := by
    cases a.cause <;> decide
  simp only [describe, String.toList_append, List.forall_mem_append]
  exact ⟨⟨⟨⟨⟨⟨⟨Text.oneLine_of_all (by decide), oneLine_toString a.line⟩,
    Text.oneLine_of_all (by decide)⟩, Text.oneLine_of_all hsubject⟩,
    Text.oneLine_of_all (by decide)⟩, Text.oneLine_of_all hreason⟩,
    Text.oneLine_of_all (by decide)⟩, fun c hc => h.isLineEnd_eq_false hc⟩

/-- What the record of a skipped text is like. -/
structure OneLine (a : Anomaly) (text : List Char) : Prop where
  bounded : a.fragment.length ≤ fragmentLimit
  collapsed : Text.Collapsed a.fragment.toList
  /-- The words of the text decide alone. -/
  words : ∀ ws text', Text.WordsOf ws text → Text.WordsOf ws text' →
    String.ofList (shorten text') = a.fragment
  fixed : String.ofList (shorten a.fragment.toList) = a.fragment
  described : Text.lines a.describe.toList = [a.describe.toList]

/-- **Every record is one line.** -/
theorem oneLine_ofText (cause : Cause) (line : Nat) (text : List Char) :
    (ofText cause line text).OneLine text := by
  have hfragment : (ofText cause line text).fragment.toList = shorten text := String.toList_ofList
  have hcollapsed : Text.Collapsed (ofText cause line text).fragment.toList := by
    rw [hfragment]
    exact collapsed_shorten text
  refine
    { bounded := ?_
      collapsed := hcollapsed
      words := fun ws text' h h' => congrArg String.ofList (shorten_eq_of_wordsOf h h')
      fixed := ?_
      described := Text.lines_eq_singleton (describe_oneLine hcollapsed) ?_ }
  · rw [← String.length_toList, hfragment]
    exact length_shorten_le text
  · rw [hfragment, shorten_idem]
    rfl
  · simp [describe]

end Anomaly

/-! ## Anomalies along the walk

An anomaly is about something that stands in the script: about a definition, or about an item of its
body. Both are found from the header, so what was skipped is told by a header among the lexemes and
what follows it. -/

/-- A header among the lexemes `ls`. -/
def IsHeader (ls : List Lexeme) (create : Lexeme) (header : Header) : Prop :=
  ∃ rest, create :: rest <:+ ls ∧ Header.read? (create :: rest) = some header

/-- What stands in the parentheses behind a header. -/
def IsBody (ls : List Lexeme) (body : Group) : Prop :=
  ∃ create header, IsHeader ls create header ∧ Group.close? 0 header.rest = some body

/-- What an anomaly is about, by the first and the last lexeme of what was skipped. -/
inductive Skipped (script : Array Char) (ls : List Lexeme) : Anomaly → Lexeme → Lexeme → Prop
  | definition {create first last : Lexeme} {header : Header} {cause : Cause}
      (hheader : IsHeader ls create header)
      (hrefused : RefusedDefinition create header cause first last) :
      Skipped script ls (.ofText cause create.line (first.sliceTo script last)) first last
  /-- The whole item is cited, from the line where it starts. -/
  | item {body : Group} {first : Lexeme} {rest : List Lexeme} {cause : Cause}
      (hbody : IsBody ls body) (hitem : first :: rest ∈ Group.segments body.inner)
      (hcolumn : definesColumn (first :: rest) = true)
      (hread : ColumnDef.read script (PrimaryKey.keyNames body.inner) (first :: rest) =
        .error cause) :
      Skipped script ls (.ofText cause first.line (first.sliceTo script (rest.getLastD first)))
        first (rest.getLastD first)

/-- Whatever an anomaly is about, its fragment is a short form of it. -/
theorem Skipped.oneLine {script : Array Char} {ls : List Lexeme} {a : Anomaly}
    {first last : Lexeme} (h : Skipped script ls a first last) :
    a.OneLine (first.sliceTo script last) := by
  cases h with
  | definition => exact Anomaly.oneLine_ofText ..
  | item => exact Anomaly.oneLine_ofText ..

/-- Anomalies that reading the lexemes `ls` of a list `all` has reported. -/
structure Reported (script : Array Char) (all ls : List Lexeme) (as : List Anomaly) : Prop where
  /-- Each tells the line of a lexeme of its own, one behind the other. -/
  lines : (as.map Anomaly.line).Sublist (ls.map Lexeme.line)
  cites : ∀ a ∈ as, ∃ first ∈ all, ∃ last ∈ all, Skipped script all a first last

namespace Reported

variable {script : Array Char} {all ls ls' : List Lexeme} {as as' : List Anomaly}

theorem nil (script : Array Char) (all ls : List Lexeme) : Reported script all ls [] :=
  ⟨List.nil_sublist _, List.forall_mem_nil _⟩

theorem mono (h : Reported script all ls as) (hls : ls.Sublist ls') : Reported script all ls' as :=
  ⟨h.lines.trans (hls.map _), h.cites⟩

theorem append (h : Reported script all ls as) (h' : Reported script all ls' as') :
    Reported script all (ls ++ ls') (as ++ as') := by
  constructor
  · rw [List.map_append, List.map_append]
    exact h.lines.append h'.lines
  · exact List.forall_mem_append.mpr ⟨h.cites, h'.cites⟩

theorem singleton {a : Anomaly} {l first last : Lexeme} (hline : a.line = l.line)
    (h : Skipped script all a first last) (hfirst : first ∈ all) (hlast : last ∈ all) :
    Reported script all [l] [a] := by
  refine ⟨?_, List.forall_mem_singleton.mpr ⟨first, hfirst, last, hlast, h⟩⟩
  rw [List.map_singleton, List.map_singleton, hline]

end Reported

section Walk

variable {script : Array Char} {all : List Lexeme} {body : Group}

/-- An item gives at most one anomaly, on the line of its first lexeme. -/
theorem Outcome.reported {item : List Lexeme} {columns : List Column} {as : List Anomaly}
    (h : Outcome script (PrimaryKey.keyNames body.inner) item columns as) (hbody : IsBody all body)
    (hitem : item ∈ Group.segments body.inner) (hall : item ⊆ all) :
    Reported script all item as := by
  cases h with
  | passed => exact .nil ..
  | column => exact .nil ..
  | @anomaly first rest cause hcolumn hread =>
    have hfirst : first ∈ all := hall List.mem_cons_self
    have hlast : rest.getLastD first ∈ all := hall List.getLastD_mem_cons
    have hskipped := Skipped.item hbody hitem hcolumn hread
    exact (Reported.singleton rfl hskipped hfirst hlast).mono
      (List.sublist_append_left [first] rest)

theorem reported_outcomes {items : List (List Lexeme)}
    {outcomes : List (List Column × List Anomaly)}
    (h : List.Forall₂ (fun item o => Outcome script (PrimaryKey.keyNames body.inner) item o.1 o.2)
      items outcomes)
    (hbody : IsBody all body)
    (hitems : ∀ item ∈ items, item ∈ Group.segments body.inner ∧ item ⊆ all) :
    Reported script all items.flatten (outcomes.flatMap Prod.snd) := by
  induction h with
  | nil => exact .nil ..
  | cons houtcome _ ih =>
    obtain ⟨⟨hitem, hall⟩, hrest⟩ := List.forall_mem_cons.mp hitems
    rw [List.flatten_cons, List.flatMap_cons]
    exact (houtcome.reported hbody hitem hall).append (ih hrest)

theorem Group.Cut.flatten_sublist {d : Int} {ls : List Lexeme} {items : List (List Lexeme)}
    (h : Group.Cut d ls items) : items.flatten.Sublist ls := by
  induction h with
  | last => simp
  | cons _ _ _ _ ih =>
    rw [List.flatten_cons]
    exact (List.Sublist.refl _).append (ih.cons _)

/-- **The anomalies of a body** follow its items. -/
theorem reported_readBody (hbody : IsBody all body) (hinner : body.inner ⊆ all) :
    Reported script all body.inner (failures (readBody script body.inner)) := by
  obtain ⟨outcomes, houtcomes, -, hanomalies⟩ :=
    outcomes_of_items script (PrimaryKey.keyNames body.inner) (Group.segments body.inner)
  have hcut : (Group.segments body.inner).flatten.Sublist body.inner :=
    (Group.cut_segmentsFrom 0 body.inner).flatten_sublist
  have hitems : ∀ item ∈ Group.segments body.inner,
      item ∈ Group.segments body.inner ∧ item ⊆ all := fun item hitem =>
    ⟨hitem, List.Subset.trans (Group.infix_of_mem_segments hitem).subset hinner⟩
  rw [show failures (readBody script body.inner) = outcomes.flatMap Prod.snd from hanomalies]
  exact (reported_outcomes houtcomes hbody hitems).mono hcut

/-- **The anomaly of a definition** stands on the line of its `CREATE`. -/
theorem reported_readDefinition {create : Lexeme} {rest : List Lexeme} {header : Header}
    {a : Anomaly} (hls : create :: rest <:+ all)
    (hheader : Header.read? (create :: rest) = some header)
    (h : readDefinition script create header = .error a) : Reported script all [create] [a] := by
  obtain ⟨cause, first, last, hrefused, rfl⟩ := refused_of_readDefinition h
  have hopening : header.opening :: header.rest <:+ rest := Header.opening_suffix_of_read? hheader
  have hopening' : header.opening :: header.rest ⊆ all :=
    (hopening.trans ((List.suffix_cons create rest).trans hls)).subset
  have hcreate : create :: header.rest ⊆ all :=
    List.cons_subset.mpr ⟨hls.subset List.mem_cons_self, (List.cons_subset.mp hopening').2⟩
  exact .singleton rfl (.definition ⟨rest, hls, hheader⟩ hrefused) (hcreate hrefused.first_mem)
    (hopening' hrefused.last_mem)

/-- **The anomalies of a walk**, about tables and about columns. -/
theorem reported_scan {ls : List Lexeme} (hls : ls <:+ all) :
    Reported script all ls ((scan script ls).flatMap Finding.anomalies) := by
  induction ls using scan_induction script with
  | nil =>
    rw [scan_nil]
    exact .nil ..
  | pass l rest hh ih =>
    rw [scan_of_none hh]
    exact (ih ((List.suffix_cons l rest).trans hls)).mono (List.sublist_cons_self l rest)
  | broken l rest header a hh hd ih =>
    -- the walk goes on behind the opening parenthesis, so `CREATE` is not passed twice
    have hheader : header.opening :: header.rest <:+ rest := Header.opening_suffix_of_read? hh
    have hbehind : header.rest <:+ rest := (List.suffix_cons _ _).trans hheader
    have hrest : rest <:+ all := (List.suffix_cons l rest).trans hls
    have hbroken : Reported script all [l] [a] := reported_readDefinition hls hh hd
    rw [scan_of_error hh hd, List.flatMap_cons]
    exact (hbroken.append (ih (hbehind.trans hrest))).mono (hbehind.sublist.cons_cons l)
  | table l rest header body trailer terminator after t skipped hh hd hbody hend ih =>
    have hheader : header.rest <:+ rest :=
      (List.suffix_cons _ _).trans (Header.opening_suffix_of_read? hh)
    have hrest : header.rest <:+ all := hheader.trans ((List.suffix_cons l rest).trans hls)
    have hbehind : after <:+ body.rest :=
      (List.suffix_cons _ _).trans (Lexeme.mark_suffix_of_splitAt? hend)
    have hsplit : header.rest = body.inner ++ body.close :: body.rest :=
      (Group.close?_extent hbody).1
    have hafter : after <:+ header.rest := by
      rw [hsplit]
      exact hbehind.trans ((List.suffix_cons _ _).trans (List.suffix_append _ _))
    obtain ⟨body', -, -, -, hbody', -, -, -, hskipped⟩ := readDefinition_ok hd
    obtain rfl : body = body' := Option.some.inj (hbody.symm.trans hbody')
    have hinner : body.inner ⊆ all := by
      refine List.Subset.trans ?_ hrest.subset
      rw [hsplit]
      exact List.subset_append_left _ _
    have hskipped' : Reported script all body.inner skipped := by
      rw [hskipped]
      exact reported_readBody ⟨l, header, ⟨rest, hls, hh⟩, hbody⟩ hinner
    -- the items come before all that stands behind the terminator
    have hpassed : (body.inner ++ after).Sublist (l :: rest) := by
      refine .trans ?_ (hheader.sublist.cons l)
      rw [hsplit]
      exact (List.Sublist.refl body.inner).append (hbehind.sublist.cons body.close)
    rw [scan_of_ok hh hd, List.flatMap_cons]
    exact (hskipped'.append (ih (hafter.trans hrest))).mono hpassed

end Walk

/-! ## The account

Both parts come from the walk: the order from the lines that it has passed, and the form from the
one function that makes records. -/

/-- What the anomalies of a walk through `ls` are like. -/
structure OrderlyAnomalies (script : Array Char) (ls : List Lexeme) (as : List Anomaly) : Prop where
  /-- Tables and columns together, in the order of lines. -/
  ordered : (ls.Pairwise fun l l' => l.line ≤ l'.line) → as.Pairwise fun a a' => a.line ≤ a'.line
  /-- Each is the record of what was skipped, which is a stretch of the script. -/
  oneLine : ∀ a ∈ as, ∃ first ∈ ls, ∃ last ∈ ls,
    Skipped script ls a first last ∧ a.OneLine (first.sliceTo script last)

theorem Reported.orderly {script : Array Char} {ls : List Lexeme} {as : List Anomaly}
    (h : Reported script ls ls as) : OrderlyAnomalies script ls as := by
  constructor
  · intro hlines
    exact List.pairwise_map.mp ((List.pairwise_map.mpr hlines).sublist h.lines)
  · intro a ha
    obtain ⟨first, hfirst, last, hlast, hskipped⟩ := h.cites a ha
    exact ⟨first, hfirst, last, hlast, hskipped, hskipped.oneLine⟩

/-- **The anomalies of a script** are in the order of lines, for the lexemes of a script are. -/
theorem ordered_anomalies (dialect : Dialect) (text : String) :
    (readScript dialect text).anomalies.Pairwise fun a a' => a.line ≤ a'.line := by
  cases hlex : Lexeme.ofScript dialect text.toList.toArray with
  | error fault =>
    rw [readScript]
    simp only [hlex]
    exact List.pairwise_singleton ..
  | ok ls =>
    rw [readScript_of_lexemes hlex]
    exact (reported_scan (List.suffix_refl ls)).orderly.ordered (Lexeme.lines_of_ofScript hlex)

/-- **The records of what was skipped** are ordered, bounded and on one line each. Where a script
cannot be cut into tokens this holds of the one record that tells so. -/
theorem anomalies_orderly :
    (∀ script ls,
      OrderlyAnomalies script ls (ScriptReading.ofFindings (scan script ls)).anomalies) ∧
      ∀ tokenizer text,
        (∀ ls, Lexeme.ofScript tokenizer text.toList.toArray = .ok ls →
          OrderlyAnomalies text.toList.toArray ls (readScript tokenizer text).anomalies) ∧
        ∀ fault, Lexeme.ofScript tokenizer text.toList.toArray = .error fault →
          ∃ a, (readScript tokenizer text).anomalies = [a] ∧
            a.OneLine (fault.message text.toList).toList := by
  have hscan : ∀ script ls,
      OrderlyAnomalies script ls (ScriptReading.ofFindings (scan script ls)).anomalies :=
    fun script ls => (reported_scan (List.suffix_refl ls)).orderly
  refine ⟨hscan, fun tokenizer text => ⟨fun ls hlex => ?_, fun fault hlex => ?_⟩⟩
  · rw [readScript_of_lexemes hlex]
    exact hscan _ ls
  · refine ⟨_, ?_, Anomaly.oneLine_ofText .noTokens 1 _⟩
    rw [readScript]
    simp only [hlex]
    rfl

end TableDocs.Sql
