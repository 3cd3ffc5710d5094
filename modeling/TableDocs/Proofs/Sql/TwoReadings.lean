import TableDocs.Proofs.Sql.BodyPartition
import TableDocs.Proofs.Sql.Relabeling
import TableDocs.Proofs.Sql.ScanAccount

/-!
# TableDocs — two readings of the same lexemes

One list of lexemes can be laid out in two scripts. The readers then find the same things at the
same lexemes, and what they take from the scripts they take from the same places. A `Layout` is a
script together with the places that the lexemes have in it, and for two layouts `p` and `q`:

* **`SameText`** — what the scripts must share: the text of each lexeme, and whether there is a gap
  between two neighbours.
* **`Column.Agree`, `Table.Agree`, `Anomaly.Agree`** — what the results then share. A comment comes
  from one lexeme, a default and a fragment from one stretch, and a line from one lexeme, the same
  one in both readings.
* **`visits_agree`** — the walks through the two scripts stop at the same lexemes and find the same
  things there.
-/

namespace TableDocs.Sql

/-- A script and the lexemes that stand for given ones in it. -/
structure Layout where
  script : Array Char
  place : Relabeling

namespace Layout

/-- The given lexemes as they stand in the script. -/
def lexemes (p : Layout) (ls : List Lexeme) : List Lexeme :=
  ls.map p.place

theorem lexemes_nil (p : Layout) : p.lexemes [] = [] := rfl

theorem lexemes_cons (p : Layout) (l : Lexeme) (ls : List Lexeme) :
    p.lexemes (l :: ls) = p.place l :: p.lexemes ls := rfl

/-- The text of the script from one lexeme to another. -/
def cite (p : Layout) (first last : Lexeme) : List Char :=
  (p.place first).sliceTo p.script (p.place last)

end Layout

section Agreement

variable (p q : Layout)

/-- Each lexeme has the same text in both scripts, and there is a gap between the same
neighbours. -/
structure SameText (ls : List Lexeme) : Prop where
  slices : ∀ l ∈ ls, p.cite l l = q.cite l l
  gaps : ls.IsChain fun l next =>
    ((p.place l).stop < (p.place next).start ↔ (q.place l).stop < (q.place next).start)

/-- Two texts are empty, or they are the values of one lexeme. -/
def SameValue (ls : List Lexeme) (text text' : String) : Prop :=
  (text = "" ∧ text' = "") ∨
    ∃ l ∈ ls, (p.place l).valueText? = some text ∧ (q.place l).valueText? = some text'

/-- Two texts are missing, or they are the texts of one stretch. -/
def SameStretch (ls : List Lexeme) (text? text'? : Option String) : Prop :=
  (text? = none ∧ text'? = none) ∨
    ∃ first ∈ ls, ∃ last ∈ ls, text? = some (String.ofList (p.cite first last)) ∧
      text'? = some (String.ofList (q.cite first last))

structure ColumnDef.Attributes.Agree (ls : List Lexeme) (a a' : ColumnDef.Attributes) : Prop where
  nullable : a.nullable = a'.nullable
  comment : SameValue p q ls a.comment a'.comment
  default : SameStretch p q ls a.default? a'.default?

/-- Two columns differ at most in the texts that one lexeme or one stretch gives in both scripts. -/
structure Column.Agree (ls : List Lexeme) (c c' : Column) : Prop where
  name : c.name = c'.name
  type : c.type = c'.type
  nullable : c.nullable = c'.nullable
  isPrimaryKey : c.isPrimaryKey = c'.isPrimaryKey
  comment : SameValue p q ls c.comment c'.comment
  default : SameStretch p q ls c.default? c'.default?

/-- Two anomalies have the same cause and cite one stretch. -/
def Anomaly.Agree (ls : List Lexeme) (a a' : Anomaly) : Prop :=
  ∃ cause, ∃ place ∈ ls, ∃ first ∈ ls, ∃ last ∈ ls,
    a = .ofText cause (p.place place).line (p.cite first last) ∧
      a' = .ofText cause (q.place place).line (q.cite first last)

structure Table.Agree (ls : List Lexeme) (t t' : Table) : Prop where
  name : t.name = t'.name
  columns : List.Forall₂ (Column.Agree p q ls) t.columns t'.columns
  comment : SameValue p q ls t.comment t'.comment
  startLine : ∃ l ∈ ls, t.startLine = (p.place l).line ∧ t'.startLine = (q.place l).line
  endLine : ∃ l ∈ ls, t.endLine = (p.place l).line ∧ t'.endLine = (q.place l).line

/-- Two visits stop at the same lexemes, and both find a table or both a broken definition. -/
inductive Visit.Agree (ls : List Lexeme) : Visit → Visit → Prop
  | accepted {start opening closing stop : Nat} {t t' : Table} {skipped skipped' : List Anomaly}
      (htable : t.Agree p q ls t')
      (hskipped : List.Forall₂ (Anomaly.Agree p q ls) skipped skipped') :
      Agree ls (.accepted start opening closing stop t skipped)
        (.accepted start opening closing stop t' skipped')
  | rejected {start opening : Nat} {a a' : Anomaly} (ha : a.Agree p q ls a') :
      Agree ls (.rejected start opening a) (.rejected start opening a')

end Agreement

/-- Two results are both errors or both values, and they are alike. -/
inductive ResultsAgree {ε α : Type} (E : ε → ε → Prop) (R : α → α → Prop) :
    Except ε α → Except ε α → Prop
  | error {e e' : ε} (he : E e e') : ResultsAgree E R (.error e) (.error e')
  | ok {a a' : α} (ha : R a a') : ResultsAgree E R (.ok a) (.ok a')

namespace ResultsAgree

variable {ε α : Type} {E : ε → ε → Prop} {R : α → α → Prop} {results results' : List (Except ε α)}

theorem imp {E' : ε → ε → Prop} {R' : α → α → Prop} {result result' : Except ε α}
    (h : ResultsAgree E R result result') (hE : ∀ e e', E e e' → E' e e')
    (hR : ∀ a a', R a a' → R' a a') : ResultsAgree E' R' result result' := by
  cases h with
  | error he => exact .error (hE _ _ he)
  | ok ha => exact .ok (hR _ _ ha)

theorem exists_or_exists {result result' : Except ε α} (h : ResultsAgree E R result result') :
    (∃ e e', result = .error e ∧ result' = .error e' ∧ E e e') ∨
      ∃ a a', result = .ok a ∧ result' = .ok a' ∧ R a a' := by
  cases h with
  | error he => exact .inl ⟨_, _, rfl, rfl, he⟩
  | ok ha => exact .inr ⟨_, _, rfl, rfl, ha⟩

/-- Results that agree have successes that agree, one by one. -/
theorem successes (h : List.Forall₂ (ResultsAgree E R) results results') :
    List.Forall₂ R (Sql.successes results) (Sql.successes results') := by
  induction h with
  | nil => exact .nil
  | cons hr _ ih =>
    cases hr with
    | error => exact ih
    | ok ha => exact .cons ha ih

/-- And failures that agree. -/
theorem failures (h : List.Forall₂ (ResultsAgree E R) results results') :
    List.Forall₂ E (Sql.failures results) (Sql.failures results') := by
  induction h with
  | nil => exact .nil
  | cons hr _ ih =>
    cases hr with
    | error he => exact .cons he ih
    | ok => exact ih

end ResultsAgree

variable {p q : Layout} {ls ls' : List Lexeme}

/-! ## More lexemes

What agrees in a part of the lexemes agrees in all of them. -/

/-- A stretch of the same text is the same text. -/
theorem SameText.of_infix (h : SameText p q ls) (hwithin : ls' <:+: ls) : SameText p q ls' :=
  ⟨fun l hl => h.slices l (hwithin.subset hl), h.gaps.infix hwithin⟩

theorem SameValue.mono {text text' : String} (h : SameValue p q ls text text') (hls : ls ⊆ ls') :
    SameValue p q ls' text text' := by
  rcases h with h | ⟨l, hl, h⟩
  · exact .inl h
  · exact .inr ⟨l, hls hl, h⟩

theorem SameStretch.mono {text? text'? : Option String} (h : SameStretch p q ls text? text'?)
    (hls : ls ⊆ ls') : SameStretch p q ls' text? text'? := by
  rcases h with h | ⟨first, hfirst, last, hlast, h⟩
  · exact .inl h
  · exact .inr ⟨first, hls hfirst, last, hls hlast, h⟩

/-- What agrees on some lexemes agrees on more of them. -/
theorem Column.Agree.mono {c c' : Column} (h : c.Agree p q ls c') (hls : ls ⊆ ls') :
    c.Agree p q ls' c' :=
  ⟨h.name, h.type, h.nullable, h.isPrimaryKey, h.comment.mono hls, h.default.mono hls⟩

theorem Anomaly.Agree.mono {a a' : Anomaly} (h : a.Agree p q ls a') (hls : ls ⊆ ls') :
    a.Agree p q ls' a' := by
  obtain ⟨cause, place, hplace, first, hfirst, last, hlast, h⟩ := h
  exact ⟨cause, place, hls hplace, first, hls hfirst, last, hls hlast, h⟩

/-! ## Types

The text of a type is cut out of the script lexeme by lexeme, with a space wherever there was a gap.
Both are the same in two layouts of the same text. -/

namespace TypeText

theorem closesUp_relabel (r : Relabeling) (l : Lexeme) : closesUp (r l) = closesUp l := by
  simp [closesUp]

theorem opensTight_relabel (r : Relabeling) (l : Lexeme) : opensTight (r l) = opensTight l := by
  simp [opensTight]

/-- The text behind the first lexeme, with its gaps. -/
theorem textAfter_eq {previous : Lexeme} (h : SameText p q (previous :: ls)) :
    textAfter p.script (p.place previous) (p.lexemes ls) =
      textAfter q.script (q.place previous) (q.lexemes ls) := by
  induction ls generalizing previous with
  | nil => rfl
  | cons l ls ih =>
    -- whether a space is written depends on the gap and on the two lexemes, and these are alike
    have hgap : gap (p.place previous) (p.place l) = gap (q.place previous) (q.place l) := by
      have := (List.isChain_cons_cons.mp h.gaps).1
      simp only [gap, closesUp_relabel, opensTight_relabel, this]
    have hslice : p.cite l l = q.cite l l := h.slices l (by simp)
    have htail := ih (h.of_infix (List.suffix_cons previous (l :: ls)).isInfix)
    exact congrArg₂ (· ++ ·) (congrArg₂ (· ++ ·) hgap hslice) htail

/-- The text of a type depends on the text of its lexemes and on where there is a gap. -/
theorem normalize_eq (h : SameText p q ls) :
    normalize p.script (p.lexemes ls) = normalize q.script (q.lexemes ls) := by
  cases ls with
  | nil => rfl
  | cons l ls => exact congrArg₂ (· ++ ·) (h.slices l (by simp)) (textAfter_eq h)

end TypeText

/-! ## Columns

A column takes its name from a lexeme, its type and default from stretches of the script, and its
comment from the value of a lexeme. In two layouts each of these is found at the same lexemes. -/

namespace ColumnDef

theorem valueText_lexemes (p : Layout) (first : Lexeme) (value : List Lexeme) :
    valueText p.script (p.place first) (p.lexemes value) =
      String.ofList (p.cite first (value.getLastD first)) := by
  rw [valueText, Layout.lexemes]
  cases value with
  | nil => rfl
  | cons l value => simp only [List.map_cons, List.getLastD_cons, List.getLastD_map]; rfl

theorem getLastD_value_mem (first : Lexeme) (more : List Lexeme) :
    (splitValue first more).1.getLastD first ∈ first :: more := by
  have hextent := splitValue_extent first more
  generalize (splitValue first more).1 = value at hextent ⊢
  cases value with
  | nil => exact List.mem_cons_self
  | cons l value =>
    rw [hextent, List.getLastD_cons]
    exact List.mem_append_left _ List.getLastD_mem_cons

/-- What an attribute is heard to say agrees. -/
theorem heard_agree {a a' : Attributes} (h : a.Agree p q ls a') {l : Lexeme} {rest : List Lexeme}
    (hrest : rest ⊆ ls) :
    (heard p.script a (p.place l) (p.lexemes rest)).Agree p q ls
      (heard q.script a' (q.place l) (q.lexemes rest)) := by
  have hmarker : ∀ r : Layout,
      isNotNull (r.place l :: r.lexemes rest) = isNotNull (l :: rest) := by
    intro r
    simp [isNotNull, Layout.lexemes]
  rw [heard.eq_def, heard.eq_def, hmarker, hmarker, Lexeme.keyword_relabel, Lexeme.keyword_relabel]
  split
  · exact { h with nullable := rfl }
  · split
    · -- `DEFAULT`
      cases rest with
      | nil => exact h
      | cons first more =>
        have hvalue : ∀ r : Layout, valueText r.script (r.place first)
            (splitValue (r.place first) (more.map r.place)).1 =
              String.ofList (r.cite first ((splitValue first more).1.getLastD first)) := by
          intro r
          rw [splitValue_map]
          exact valueText_lexemes r first _
        simp only [Layout.lexemes, List.map_cons, hvalue]
        exact { h with
          default := .inr ⟨first, hrest List.mem_cons_self, _,
            hrest (getLastD_value_mem first more), rfl, rfl⟩ }
    · split
      · -- `COMMENT`
        cases rest with
        | nil => exact h
        | cons value more =>
          simp only [Layout.lexemes, List.map_cons]
          cases hvalue : value.kind with
          | literal text quote =>
            obtain ⟨text₁, h₁⟩ := Lexeme.exists_literal_relabel p.place hvalue
            obtain ⟨text₂, h₂⟩ := Lexeme.exists_literal_relabel q.place hvalue
            rw [h₁, h₂]
            exact { h with
              comment := .inr ⟨value, hrest List.mem_cons_self, by rw [Lexeme.valueText?, h₁],
                by rw [Lexeme.valueText?, h₂]⟩ }
          | _ =>
            rw [Lexeme.kind_relabel p.place (by simp [hvalue]),
              Lexeme.kind_relabel q.place (by simp [hvalue]), hvalue]
            exact h
      · exact h

/-- **The attributes agree.** -/
theorem readAttributes_agree {a a' : Attributes} (h : a.Agree p q ls a') {rest : List Lexeme}
    (hrest : rest ⊆ ls) :
    (readAttributes p.script a (p.lexemes rest)).Agree p q ls
      (readAttributes q.script a' (q.lexemes rest)) := by
  -- The induction runs along the places at which the reader looks for an attribute.
  fun_induction attributeStarts rest generalizing a a' with
  | case1 =>
    rw [Layout.lexemes_nil, Layout.lexemes_nil, readAttributes, readAttributes]
    exact h
  | case2 l rest ih =>
    have htail : rest ⊆ ls := List.Subset.trans (List.subset_cons_self l rest) hrest
    have hafter : afterAttribute l rest ⊆ ls :=
      List.Subset.trans (passed_afterAttribute l rest).suffix.subset htail
    have hstep : ∀ (r : Layout) (b : Attributes),
        readAttributes r.script b (r.lexemes (l :: rest)) =
          readAttributes r.script (heard r.script b (r.place l) (r.lexemes rest))
            (r.lexemes (afterAttribute l rest)) := by
      intro r b
      rw [Layout.lexemes_cons, readAttributes_step]
      exact congrArg _ (afterAttribute_map r.place l rest)
    rw [hstep, hstep]
    exact ih (heard_agree h htail) hafter

/-- **Columns agree.** Two readings of one definition fail for the same cause or give columns that
agree. -/
theorem read_agree (keys : List String) {item : List Lexeme} (h : SameText p q item) :
    ResultsAgree (· = ·) (Column.Agree p q item) (read p.script keys (p.lexemes item))
      (read q.script keys (q.lexemes item)) := by
  rw [read, read, Layout.lexemes, Layout.lexemes, Group.balanced_map, Group.balanced_map,
    Name.read?_map, Name.read?_map]
  split
  · exact .error rfl
  · rcases hname : Name.read? item with _ | ⟨name, _ | ⟨base, rest⟩⟩
    · exact .error rfl
    · exact .error rfl
    · simp only [Option.map_some, List.map_cons, Lexeme.keyword_relabel, TypeText.split?_map]
      split
      · exact .error rfl
      · rcases htype : TypeText.split? base rest with _ | ⟨type, attributes⟩
        · exact .error rfl
        · obtain ⟨part, hitem, -⟩ := Name.read?_spelling hname
          -- the parts of the item are stretches of it, so they are the same text in both layouts
          have hextent : part ++ type ++ attributes = item := by
            rw [hitem, TypeText.split?_extent htype, List.append_assoc]
          have hwithin : type <:+: item := ⟨part, attributes, hextent⟩
          have hsuffix : attributes <:+ item := ⟨part ++ type, hextent⟩
          have hnone : ({} : Attributes).Agree p q item {} :=
            ⟨rfl, .inl ⟨rfl, rfl⟩, .inl ⟨rfl, rfl⟩⟩
          have hattributes := readAttributes_agree hnone hsuffix.subset
          exact .ok
            { name := rfl
              type := congrArg String.ofList (TypeText.normalize_eq (h.of_infix hwithin))
              nullable := hattributes.nullable
              isPrimaryKey := rfl
              comment := hattributes.comment
              default := hattributes.default }

end ColumnDef

/-! ## Bodies

Items are cut and sorted by the kinds of their lexemes. So both bodies have the same items, and what
is read of them agrees one by one. -/

/-- An item gives a column in both layouts or an anomaly in both. -/
theorem readItem_agree (keys : List String) {item : List Lexeme} (h : SameText p q item)
    (hitem : item ≠ []) :
    ResultsAgree (Anomaly.Agree p q item) (Column.Agree p q item)
      (readItem p.script keys (p.lexemes item)) (readItem q.script keys (q.lexemes item)) := by
  obtain ⟨first, rest, rfl⟩ := List.exists_cons_of_ne_nil hitem
  have hread := ColumnDef.read_agree keys h
  rw [readItem, readItem]
  generalize ColumnDef.read p.script keys (p.lexemes (first :: rest)) = result at hread ⊢
  generalize ColumnDef.read q.script keys (q.lexemes (first :: rest)) = result' at hread ⊢
  cases hread with
  | ok hc => exact .ok hc
  | @error cause _ he =>
    subst he
    -- both anomalies cite the item from its first lexeme to its last
    refine .error ⟨cause, first, List.mem_cons_self, first, List.mem_cons_self, rest.getLastD first,
      List.getLastD_mem_cons, ?_, ?_⟩
    · simp only [List.getLastD_map, Layout.cite]
    · simp only [List.getLastD_map, Layout.cite]

/-- **Bodies agree.** Both readings find the same items, and the results of each item agree. -/
theorem readBody_agree {body : List Lexeme} (h : SameText p q body) :
    List.Forall₂ (ResultsAgree (Anomaly.Agree p q body) (Column.Agree p q body))
      (readBody p.script (p.lexemes body)) (readBody q.script (q.lexemes body)) := by
  have hbody : ∀ r : Layout, readBody r.script (r.lexemes body) =
      ((Group.segments body).filter definesColumn).map fun item =>
        readItem r.script (PrimaryKey.keyNames body) (r.lexemes item) := by
    intro r
    -- moving the lexemes of an item does not change whether it defines a column
    have hdefines : (definesColumn ∘ List.map r.place) = definesColumn := by
      funext item
      simp [definesColumn]
    calc readBody r.script (r.lexemes body)
        = (((Group.segments body).map (List.map r.place)).filter definesColumn).map
            (readItem r.script (PrimaryKey.keyNames body)) := by
          rw [readBody, Layout.lexemes, Group.segments_map, PrimaryKey.keyNames_map]
          rfl
      _ = _ := by
          rw [List.filter_map, List.map_map, hdefines]
          rfl
  rw [hbody, hbody, List.forall₂_map_left_iff, List.forall₂_map_right_iff, List.forall₂_same]
  intro item hitem
  obtain ⟨hmem, hdefines⟩ := List.mem_filter.mp hitem
  have hwithin : item <:+: body := Group.infix_of_mem_segments hmem
  have hne : item ≠ [] := by
    rintro rfl
    exact absurd hdefines (by decide)
  exact (readItem_agree (PrimaryKey.keyNames body) (h.of_infix hwithin) hne).imp
    (fun _ _ he => he.mono hwithin.subset) (fun _ _ hc => hc.mono hwithin.subset)

/-! ## Options

The reader of a trailer looks at kinds only, so both readings give entries with the same keywords.
Their values come from the same lexemes. -/

namespace TableOptions

/-- Two options have the same keyword, and their values are the values of one lexeme. -/
def Entry.Agree (p q : Layout) (ls : List Lexeme) (e e' : Entry) : Prop :=
  e.keyword = e'.keyword ∧
    ∃ l ∈ ls, (p.place l).valueText? = some e.value ∧ (q.place l).valueText? = some e'.value

/-- **Options agree.** -/
theorem entriesAfter?_agree {previous? : Option Lexeme} {trailer : List Lexeme}
    (htrailer : trailer ⊆ ls) :
    Option.Rel (List.Forall₂ (Entry.Agree p q ls))
      (entriesAfter? (previous?.map p.place) (p.lexemes trailer))
      (entriesAfter? (previous?.map q.place) (q.lexemes trailer)) := by
  induction trailer generalizing previous? with
  | nil => exact .some .nil
  | cons l rest ih =>
    have hrest : rest ⊆ ls := List.Subset.trans (List.subset_cons_self l rest) htrailer
    have htail := @ih (some l) hrest
    have hstep : ∀ r : Layout,
        step (previous?.map r.place) (r.place l) (r.lexemes rest) =
          (step previous? l rest).map r.place := fun r => step_map r.place previous? l rest
    rw [Layout.lexemes_cons, Layout.lexemes_cons, entriesAfter?_cons, entriesAfter?_cons, hstep,
      hstep]
    -- Both readings take the same step; only the value that it gives comes from a place.
    cases hs : step previous? l rest with
    | refused => exact .none
    | passed => exact htail
    | given keyword value =>
      obtain ⟨hmem, hsome⟩ := given_of_step hs
      have hvalue : ∀ r : Layout,
          (r.place value).valueText? = some ((r.place value).valueText?.getD "") := by
        intro r
        rw [← Lexeme.isSome_valueText?_relabel r.place value] at hsome
        obtain ⟨text, htext⟩ := Option.isSome_iff_exists.mp hsome
        rw [htext, Option.getD_some]
      have hentry : Entry.Agree p q ls ⟨keyword, (p.place value).valueText?.getD ""⟩
          ⟨keyword, (q.place value).valueText?.getD ""⟩ :=
        ⟨rfl, value, htrailer hmem, hvalue p, hvalue q⟩
      rw [Option.map_some, Option.map_some] at htail
      simp only [Step.map]
      generalize entriesAfter? (some (p.place l)) (p.lexemes rest) = entries? at htail ⊢
      generalize entriesAfter? (some (q.place l)) (q.lexemes rest) = entries?' at htail ⊢
      cases htail with
      | none => exact .none
      | some hentries => exact .some (.cons hentry hentries)

/-- The value of a keyword comes from one lexeme. -/
theorem value?_agree (keyword : String) {entries entries' : List Entry}
    (h : List.Forall₂ (Entry.Agree p q ls) entries entries') :
    SameValue p q ls ((value? keyword entries).getD "") ((value? keyword entries').getD "") := by
  induction h with
  | nil => exact .inl ⟨rfl, rfl⟩
  | @cons e e' entries entries' he _ ih =>
    obtain ⟨hkeyword, hvalue⟩ := he
    rw [value?, value?, List.find?_cons, List.find?_cons, ← hkeyword]
    cases hk : decide (e.keyword = keyword) with
    | true => exact .inr hvalue
    | false => exact ih

end TableOptions

/-! ## Definitions

A definition is read or refused in both layouts alike, and what it leaves for the walk is the same
stretch of lexemes. -/

/-- Two results of reading a definition: an anomaly each, or tables that agree and the same lexemes
behind them. -/
def DefinitionsAgree (p q : Layout) (ls rest : List Lexeme) :
    Except Anomaly (Table × List Anomaly × List Lexeme) →
      Except Anomaly (Table × List Anomaly × List Lexeme) → Prop :=
  ResultsAgree (Anomaly.Agree p q ls) fun (t, skipped, after) (t', skipped', after') =>
    t.Agree p q ls t' ∧ List.Forall₂ (Anomaly.Agree p q ls) skipped skipped' ∧
      ∃ behind, behind <:+ rest ∧ after = p.lexemes behind ∧ after' = q.lexemes behind

/-- **Definitions agree.** -/
theorem readDefinition_agree (h : SameText p q ls) {create : Lexeme} {header : Header}
    (hcreate : create ∈ ls) (hopening : header.opening ∈ ls) (hrest : header.rest <:+: ls) :
    DefinitionsAgree p q ls header.rest
      (readDefinition p.script (p.place create) (header.map p.place))
      (readDefinition q.script (q.place create) (header.map q.place)) := by
  rw [readDefinition, readDefinition]
  simp only [Header.map, Group.close?_map]
  cases hbody : Group.close? 0 header.rest with
  | none => exact .error ⟨_, create, hcreate, create, hcreate, _, hopening, rfl, rfl⟩
  | some body =>
    obtain ⟨hextent, -⟩ := Group.close?_extent hbody
    simp only [Option.map_some, Group.map, Lexeme.splitAt?_map]
    cases hend : Lexeme.splitAt? .semicolon body.rest with
    | none => exact .error ⟨_, create, hcreate, create, hcreate, _, hopening, rfl, rfl⟩
    | some found =>
      obtain ⟨trailer, terminator, after⟩ := found
      -- Every lexeme that the table or an anomaly tells about is one of the list.
      have hsplit := (Lexeme.splitAt?_extent hend).1
      have hinner : body.inner <:+: ls :=
        List.IsInfix.trans ⟨[], _, hextent.symm⟩ hrest
      have hclose : body.close ∈ ls := hrest.subset (by rw [hextent]; simp)
      have hterminator : terminator ∈ ls := hrest.subset (by rw [hextent, hsplit]; simp)
      have htrailer : trailer ⊆ ls := fun l hl => hrest.subset (by rw [hextent, hsplit]; simp [hl])
      have hafter : after <:+ header.rest :=
        (List.suffix_cons terminator after).trans (terminator_suffix hbody hend)
      have hoptions := @TableOptions.entriesAfter?_agree p q ls none trailer htrailer
      simp only [Option.map_some, TableOptions.read?]
      rw [Option.map_none, Option.map_none, Layout.lexemes, Layout.lexemes] at hoptions
      generalize TableOptions.entriesAfter? none (trailer.map p.place) = options? at hoptions ⊢
      generalize TableOptions.entriesAfter? none (trailer.map q.place) = options?' at hoptions ⊢
      cases hoptions with
      | none =>
        exact .error ⟨_, create, hcreate, body.close, hclose, terminator, hterminator, rfl, rfl⟩
      | some hentries =>
        have hitems := readBody_agree (h.of_infix hinner)
        have hcolumns := (ResultsAgree.successes hitems).imp fun _ _ hc => hc.mono hinner.subset
        have hskipped := (ResultsAgree.failures hitems).imp fun _ _ ha => ha.mono hinner.subset
        refine .ok ⟨?_, hskipped, after, hafter, rfl, rfl⟩
        exact
          { name := rfl
            columns := hcolumns
            comment := TableOptions.value?_agree "COMMENT" hentries
            startLine := ⟨create, hcreate, rfl, rfl⟩
            endLine := ⟨terminator, hterminator, rfl, rfl⟩ }

/-! ## Scripts

The three steps of the walk in one layout, told by the lexemes that are laid out. -/

section Steps

variable (r : Layout) {l : Lexeme} {rest : List Lexeme} {header : Header}

theorem indexBefore_lexemes (total : Nat) (ls : List Lexeme) :
    indexBefore total (r.lexemes ls) = indexBefore total ls := by
  rw [indexBefore, indexBefore, Layout.lexemes, List.length_map]

theorem read?_lexemes :
    Header.read? (r.lexemes (l :: rest)) = (Header.read? (l :: rest)).map (Header.map r.place) :=
  Header.read?_map r.place (l :: rest)

theorem visitsFrom_lexemes_of_none (total : Nat) (h : Header.read? (l :: rest) = none) :
    visitsFrom r.script total (r.lexemes (l :: rest)) =
      visitsFrom r.script total (r.lexemes rest) := by
  have hnone : Header.read? (r.lexemes (l :: rest)) = none := by
    rw [read?_lexemes, h]
    rfl
  exact visitsFrom_of_none total hnone

theorem visitsFrom_lexemes_of_error (total : Nat) (h : Header.read? (l :: rest) = some header)
    {a : Anomaly} (hd : readDefinition r.script (r.place l) (header.map r.place) = .error a) :
    visitsFrom r.script total (r.lexemes (l :: rest)) =
      .rejected (indexBefore total rest) (indexBefore total header.rest) a ::
        visitsFrom r.script total (r.lexemes header.rest) := by
  have hsome : Header.read? (r.lexemes (l :: rest)) = some (header.map r.place) := by
    rw [read?_lexemes, h]
    rfl
  have hopening : indexBefore total (header.map r.place).rest = indexBefore total header.rest :=
    indexBefore_lexemes r total header.rest
  rw [Layout.lexemes_cons] at hsome ⊢
  rw [visitsFrom_of_error total hsome hd, hopening, indexBefore_lexemes]
  rfl

theorem visitsFrom_lexemes_of_ok (total : Nat) (h : Header.read? (l :: rest) = some header)
    {t : Table} {skipped : List Anomaly} {behind : List Lexeme} {body : Group}
    (hd : readDefinition r.script (r.place l) (header.map r.place) =
      .ok (t, skipped, r.lexemes behind))
    (hbody : Group.close? 0 header.rest = some body) :
    visitsFrom r.script total (r.lexemes (l :: rest)) =
      .accepted (indexBefore total rest) (indexBefore total header.rest)
          (indexBefore total body.rest) (indexBefore total behind) t skipped ::
        visitsFrom r.script total (r.lexemes behind) := by
  -- indices are counted from the end, so they do not change with the layout
  have hsome : Header.read? (r.lexemes (l :: rest)) = some (header.map r.place) := by
    rw [read?_lexemes, h]
    rfl
  have hbody' : Group.close? 0 (header.map r.place).rest = some (body.map r.place) := by
    rw [Header.map, Group.close?_map, hbody]
    rfl
  have hopening : indexBefore total (header.map r.place).rest = indexBefore total header.rest :=
    indexBefore_lexemes r total header.rest
  have hclosing : indexBefore total (body.map r.place).rest = indexBefore total body.rest :=
    indexBefore_lexemes r total body.rest
  rw [Layout.lexemes_cons] at hsome ⊢
  rw [visitsFrom_of_ok total hsome hd hbody', hopening, hclosing, indexBefore_lexemes,
    indexBefore_lexemes]

/-- A definition that is read in a layout has its body there, at the same lexemes. -/
theorem close?_of_readDefinition {t : Table} {skipped : List Anomaly} {after : List Lexeme}
    (h : readDefinition r.script (r.place l) (header.map r.place) = .ok (t, skipped, after)) :
    ∃ body, Group.close? 0 header.rest = some body := by
  obtain ⟨body', -, -, -, hbody, -⟩ := readDefinition_ok h
  rw [Header.map, Group.close?_map] at hbody
  obtain ⟨body, hbody, -⟩ := Option.map_eq_some_iff.mp hbody
  exact ⟨body, hbody⟩

end Steps

/-- **The walks agree.** -/
theorem visitsFrom_agree (h : SameText p q ls) (total : Nat) (rest : List Lexeme)
    (hrest : rest <:+: ls) :
    List.Forall₂ (Visit.Agree p q ls) (visitsFrom p.script total (p.lexemes rest))
      (visitsFrom q.script total (q.lexemes rest)) := by
  -- Both walks pass over the same lexemes and stop at the same headers. So they can be followed
  -- together, on the lexemes that are left.
  match rest with
  | [] =>
    rw [Layout.lexemes_nil, Layout.lexemes_nil, visitsFrom, visitsFrom]
    exact .nil
  | l :: rest =>
    cases hread : Header.read? (l :: rest) with
    | none =>
      rw [visitsFrom_lexemes_of_none p total hread, visitsFrom_lexemes_of_none q total hread]
      exact visitsFrom_agree h total rest
        (List.IsInfix.trans (List.suffix_cons l rest).isInfix hrest)
    | some header =>
      have hcreate : l ∈ ls := hrest.subset List.mem_cons_self
      have hsuffix : header.opening :: header.rest <:+ l :: rest :=
        (Header.opening_suffix_of_read? hread).trans (List.suffix_cons l rest)
      have hopening : header.opening ∈ ls := hrest.subset (hsuffix.subset List.mem_cons_self)
      have hbehind : header.rest <:+: ls :=
        List.IsInfix.trans ((List.suffix_cons _ _).trans hsuffix).isInfix hrest
      rcases (readDefinition_agree h hcreate hopening hbehind).exists_or_exists with
        ⟨a, a', hp, hq, ha⟩ | ⟨⟨t, skipped, after⟩, ⟨t', skipped', after'⟩, hp, hq, ht⟩
      · rw [visitsFrom_lexemes_of_error p total hread hp,
          visitsFrom_lexemes_of_error q total hread hq]
        exact .cons (.rejected ha) (visitsFrom_agree h total header.rest hbehind)
      · obtain ⟨htable, hskipped, behind, hafter, rfl, rfl⟩ := ht
        obtain ⟨body, hbody⟩ := close?_of_readDefinition p hp
        -- both go on behind the same semicolon, which stands behind the header
        have := hafter.length_le
        rw [visitsFrom_lexemes_of_ok p total hread hp hbody,
          visitsFrom_lexemes_of_ok q total hread hq hbody]
        exact .cons (.accepted htable hskipped)
          (visitsFrom_agree h total behind (List.IsInfix.trans hafter.isInfix hbehind))
termination_by rest.length
decreasing_by
  · simp
  · exact Header.length_of_read? hread
  · have := Header.length_of_read? hread
    omega

/-- The walks through two layouts stop at the same lexemes, and what they find there agrees. -/
theorem visits_agree (h : SameText p q ls) :
    List.Forall₂ (Visit.Agree p q ls) (visits p.script (p.lexemes ls))
      (visits q.script (q.lexemes ls)) := by
  rw [visits, visits, Layout.lexemes, Layout.lexemes, List.length_map, List.length_map]
  exact visitsFrom_agree h ls.length ls (List.infix_refl ls)

end TableDocs.Sql
