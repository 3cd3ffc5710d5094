import TableDocs.Sql.Script
import TableDocs.Proofs.Sql.GroupExtent

/-!
# TableDocs — the extent of a table definition

What the walk through a script can do at a lexeme, said once:

* **`readDefinition_ok`** — a definition that can be read is a closed body, a trailer of options and
  the first semicolon behind the body.
* **`refused_of_readDefinition`** — a definition that cannot be read gives one anomaly, which cites
  its header or its options.
* **`scan_of_none`, `scan_of_error`, `scan_of_ok`** — the three steps of the walk, and
  **`scan_induction`**, the induction along them.
-/

namespace TableDocs.Sql

/-! ## Options

The trailer of a definition is read lexeme by lexeme. A `Step` is all that the reader can do at one
of them; a parenthesis is refused, so options hold no group. -/

namespace Lexeme

/-- The text of a word. -/
def wordText? (l : Lexeme) : Option String :=
  match l.kind with
  | .word text => some text
  | _ => none

/-- Is it a mark? -/
def isMark (l : Lexeme) : Bool :=
  match l.kind with
  | .punct _ => true
  | _ => false

end Lexeme

namespace TableOptions

/-- What the reader of a trailer does at a lexeme. -/
inductive Step
  | refused
  | passed
  /-- An option gets its value from a lexeme. -/
  | given (keyword : String) (value : Lexeme)

/-- The step of the reader at `l`, behind `previous?` and in front of `rest`. -/
def step (previous? : Option Lexeme) (l : Lexeme) (rest : List Lexeme) : Step :=
  if l.isWord then .passed
  else if l.valueText?.isSome then
    match previous?.bind Lexeme.wordText? with
    | some keyword => .given (Text.upper keyword) l
    | none => if previous?.any (Lexeme.isPunct .equals) then .passed else .refused
  else if l.isPunct .equals then
    match previous?.bind Lexeme.wordText?, rest with
    | some keyword, value :: _ =>
      if value.valueText?.isSome then .given (Text.upper keyword) value else .refused
    | _, _ => .refused
  else if l.isPunct .comma then if previous?.all Lexeme.isMark then .refused else .passed
  else .refused

/-- The reader does one step and goes on. -/
theorem entriesAfter?_cons (previous? : Option Lexeme) (l : Lexeme) (rest : List Lexeme) :
    entriesAfter? previous? (l :: rest) =
      match step previous? l rest with
      | .refused => none
      | .passed => entriesAfter? (some l) rest
      | .given keyword value =>
        (entriesAfter? (some l) rest).map (⟨keyword, value.valueText?.getD ""⟩ :: ·) := by
  rw [entriesAfter?.eq_def]
  simp only
  -- by the kind of the lexeme, then by that of the one in front of it or behind it
  cases hl : l.kind with
  | word text => simp [step, Lexeme.isWord, hl]
  | name text => simp [step, Lexeme.isWord, Lexeme.valueText?, Lexeme.isPunct, hl]
  | literal text quote =>
    cases previous? with
    | none => simp [step, Lexeme.isWord, Lexeme.valueText?, hl]
    | some m =>
      cases hm : m.kind with
      | punct mark =>
        cases mark <;>
          simp [step, Lexeme.isWord, Lexeme.valueText?, Lexeme.wordText?, Lexeme.isPunct, hl, hm]
      | _ => simp [step, Lexeme.isWord, Lexeme.valueText?, Lexeme.wordText?, Lexeme.isPunct, hl, hm]
  | punct mark =>
    cases mark with
    | equals =>
      cases previous? with
      | none => simp [step, Lexeme.isWord, Lexeme.valueText?, Lexeme.isPunct, hl]
      | some m =>
        cases hm : m.kind with
        | word keyword =>
          cases rest with
          | nil =>
            simp [step, Lexeme.isWord, Lexeme.valueText?, Lexeme.wordText?, Lexeme.isPunct, hl, hm]
          | cons value more =>
            cases hv : value.kind <;>
              simp [step, Lexeme.isWord, Lexeme.valueText?, Lexeme.wordText?, Lexeme.isPunct, hl,
                hm, hv]
        | _ =>
          simp [step, Lexeme.isWord, Lexeme.valueText?, Lexeme.wordText?, Lexeme.isPunct, hl, hm]
    | comma =>
      cases previous? with
      | none => simp [step, Lexeme.isWord, Lexeme.valueText?, Lexeme.isPunct, hl]
      | some m =>
        cases hm : m.kind <;>
          simp [step, Lexeme.isWord, Lexeme.valueText?, Lexeme.isMark, Lexeme.isPunct, hl, hm]
    | _ => simp [step, Lexeme.isWord, Lexeme.valueText?, Lexeme.isPunct, hl]

/-- The lexeme that gives a value is one of the trailer. -/
theorem given_of_step {previous? : Option Lexeme} {l value : Lexeme} {rest : List Lexeme}
    {keyword : String} (h : step previous? l rest = .given keyword value) :
    value ∈ l :: rest ∧ value.valueText?.isSome = true := by
  rw [step.eq_def] at h
  -- a value is given by a literal alone or behind an equals sign; no other branch gives one
  split at h
  · exact absurd h (by simp)
  · split at h
    · next hl =>
      split at h
      · cases h
        exact ⟨List.mem_cons_self, hl⟩
      · split at h <;> exact absurd h (by simp)
    · split at h
      · split at h
        · split at h
          · next hvalue =>
            cases h
            exact ⟨List.mem_cons_of_mem _ List.mem_cons_self, hvalue⟩
          · exact absurd h (by simp)
        · exact absurd h (by simp)
      · split at h
        · split at h <;> exact absurd h (by simp)
        · exact absurd h (by simp)

/-- A parenthesis is never part of the options. -/
theorem step_of_openParen {l : Lexeme} (h : l.isPunct .openParen = true)
    (previous? : Option Lexeme) (rest : List Lexeme) : step previous? l rest = .refused := by
  simp [step, Lexeme.isWord, Lexeme.valueText?, Lexeme.isPunct, Lexeme.kind_of_isPunct h]

/-- A readable trailer stays readable behind its first lexeme, which opens no group. -/
theorem entriesAfter?_tail {previous? : Option Lexeme} {l : Lexeme} {rest : List Lexeme}
    {entries : List Entry} (h : entriesAfter? previous? (l :: rest) = some entries) :
    l.isPunct .openParen = false ∧ ∃ more, entriesAfter? (some l) rest = some more := by
  rw [entriesAfter?_cons] at h
  constructor
  · rw [Bool.eq_false_iff]
    intro hopen
    rw [step_of_openParen hopen] at h
    exact absurd h (by simp)
  · split at h
    · exact absurd h (by simp)
    · exact ⟨entries, h⟩
    · obtain ⟨more, hmore, -⟩ := Option.map_eq_some_iff.mp h
      exact ⟨more, hmore⟩

/-- So a readable trailer has no parenthesis at all. -/
theorem isPunct_openParen_of_entriesAfter? {previous? : Option Lexeme} {trailer : List Lexeme}
    {entries : List Entry} (h : entriesAfter? previous? trailer = some entries) :
    ∀ l ∈ trailer, l.isPunct .openParen = false := by
  induction trailer generalizing previous? entries with
  | nil => simp
  | cons l rest ih =>
    obtain ⟨hl, more, hmore⟩ := entriesAfter?_tail h
    intro x hx
    rcases List.mem_cons.mp hx with rfl | hx
    · exact hl
    · exact ih hmore x hx

end TableOptions

/-! ## Anomalies of a body are about columns

This tells them from the anomalies of broken definitions, which are about tables. -/

/-- Each cause for which an item is refused is about a column. -/
theorem ColumnDef.subject_of_read_error {script : Array Char} {keys : List String}
    {item : List Lexeme} {cause : Cause} (h : ColumnDef.read script keys item = .error cause) :
    cause.subject = "column" := by
  rw [ColumnDef.read] at h
  split at h
  · cases h; rfl
  · split at h
    · cases h; rfl
    · cases h; rfl
    · split at h
      · cases h; rfl
      · split at h
        · cases h; rfl
        · exact absurd h (by simp)

/-- An anomaly of a body is the anomaly of one of its items. -/
theorem mem_failures_readBody {script : Array Char} {body : List Lexeme} {a : Anomaly}
    (h : a ∈ failures (readBody script body)) :
    ∃ item ∈ Group.segments body,
      ColumnDef.read script (PrimaryKey.keyNames body) item = .error a.cause := by
  obtain ⟨result, hresult, ha⟩ := List.mem_filterMap.mp h
  obtain ⟨item, hitem, rfl⟩ := List.mem_map.mp hresult
  refine ⟨item, (List.mem_filter.mp hitem).1, ?_⟩
  rw [readItem] at ha
  cases hread : ColumnDef.read script (PrimaryKey.keyNames body) item with
  | ok column => rw [hread] at ha; cases ha
  | error cause =>
    rw [hread] at ha
    cases item with
    | nil => cases ha; rfl
    | cons first rest => cases ha; rfl

/-- So each anomaly of a body is about a column. -/
theorem subject_of_mem_failures {script : Array Char} {body : List Lexeme} {a : Anomaly}
    (h : a ∈ failures (readBody script body)) : a.cause.subject = "column" := by
  obtain ⟨item, -, hread⟩ := mem_failures_readBody h
  exact ColumnDef.subject_of_read_error hread

/-! ## Definitions

A definition has three parts behind its header, and each of them can be missing: the end of the
body, the semicolon, options that can be read. That gives the three reasons to refuse it. -/

section Definition

variable {script : Array Char} {create : Lexeme} {header : Header}

/-- **A definition that can be read.** Behind the header come the body up to its closing
parenthesis, then the options up to the first semicolon. -/
theorem readDefinition_ok {table : Table} {skipped : List Anomaly} {after : List Lexeme}
    (h : readDefinition script create header = .ok (table, skipped, after)) :
    ∃ body trailer terminator options,
      Group.close? 0 header.rest = some body ∧
      Lexeme.splitAt? .semicolon body.rest = some (trailer, terminator, after) ∧
      TableOptions.read? trailer = some options ∧
      table =
        { name := header.name
          columns := successes (readBody script body.inner)
          comment := (TableOptions.value? "COMMENT" options).getD ""
          startLine := create.line
          endLine := terminator.line } ∧
      skipped = failures (readBody script body.inner) := by
  rw [readDefinition] at h
  simp only at h
  -- the body, the end and the options, each read from what the one before it has left
  split at h
  · exact absurd h (by simp)
  · next body hbody =>
    split at h
    · exact absurd h (by simp)
    · next trailer terminator rest hend =>
      split at h
      · exact absurd h (by simp)
      · next options hoptions =>
        cases h
        exact ⟨body, trailer, terminator, options, hbody, hend, hoptions, rfl, rfl⟩

/-- The semicolon stands behind the body, so it is in the same list. -/
theorem terminator_suffix {rest : List Lexeme} {body : Group} {trailer after : List Lexeme}
    {terminator : Lexeme} (hbody : Group.close? 0 rest = some body)
    (hend : Lexeme.splitAt? .semicolon body.rest = some (trailer, terminator, after)) :
    terminator :: after <:+ rest :=
  (Lexeme.mark_suffix_of_splitAt? hend).trans
    ((List.suffix_cons _ _).trans (Group.close_suffix_of_close? hbody))

/-- The trailer of a table that was read has no parenthesis. -/
theorem isPunct_openParen_of_trailer {table : Table} {skipped : List Anomaly} {body : Group}
    {trailer after after' : List Lexeme} {terminator : Lexeme}
    (h : readDefinition script create header = .ok (table, skipped, after'))
    (hbody : Group.close? 0 header.rest = some body)
    (hend : Lexeme.splitAt? .semicolon body.rest = some (trailer, terminator, after)) :
    ∀ l ∈ trailer, l.isPunct .openParen = false := by
  obtain ⟨body', trailer', terminator', options, hbody', hend', hoptions, -⟩ := readDefinition_ok h
  rw [hbody] at hbody'
  cases hbody'
  rw [hend] at hend'
  cases hend'
  exact TableOptions.isPunct_openParen_of_entriesAfter? hoptions

/-- Why a definition is refused, with the first and the last lexeme of what is cited: the header,
when its body or its statement does not end, or else what stands between the body and the semicolon.
-/
inductive RefusedDefinition (create : Lexeme) (header : Header) : Cause → Lexeme → Lexeme → Prop
  | unclosed (hbody : Group.close? 0 header.rest = none) :
      RefusedDefinition create header .unclosedBody create header.opening
  | unterminated {body : Group} (hbody : Group.close? 0 header.rest = some body)
      (hend : Lexeme.splitAt? .semicolon body.rest = none) :
      RefusedDefinition create header .missingTerminator create header.opening
  | options {body : Group} {trailer after : List Lexeme} {terminator : Lexeme}
      (hbody : Group.close? 0 header.rest = some body)
      (hend : Lexeme.splitAt? .semicolon body.rest = some (trailer, terminator, after))
      (hoptions : TableOptions.read? trailer = none) :
      RefusedDefinition create header .unknownOptions body.close terminator

namespace RefusedDefinition

variable {cause : Cause} {first last : Lexeme}

/-- A refused definition is about the table. -/
theorem subject_eq (h : RefusedDefinition create header cause first last) :
    cause.subject = "table" := by
  cases h <;> rfl

/-- What is cited begins with the CREATE or behind the header. -/
theorem first_mem (h : RefusedDefinition create header cause first last) :
    first ∈ create :: header.rest := by
  cases h with
  | unclosed => exact List.mem_cons_self
  | unterminated => exact List.mem_cons_self
  | options hbody =>
    exact List.mem_cons_of_mem create
      ((Group.close_suffix_of_close? hbody).subset List.mem_cons_self)

/-- And it ends with the opening parenthesis or behind it. -/
theorem last_mem (h : RefusedDefinition create header cause first last) :
    last ∈ header.opening :: header.rest := by
  cases h with
  | unclosed => exact List.mem_cons_self
  | unterminated => exact List.mem_cons_self
  | options hbody hend =>
    exact List.mem_cons_of_mem header.opening
      ((terminator_suffix hbody hend).subset List.mem_cons_self)

end RefusedDefinition

/-- **A definition that cannot be read** gives one anomaly, on the line of its `CREATE`. -/
theorem refused_of_readDefinition {a : Anomaly}
    (h : readDefinition script create header = .error a) :
    ∃ cause first last, RefusedDefinition create header cause first last ∧
      a = .ofText cause create.line (first.sliceTo script last) := by
  rw [readDefinition] at h
  simp only at h
  -- the same three steps, each with the refusal of its own
  split at h
  · next hbody =>
    cases h
    exact ⟨_, _, _, .unclosed hbody, rfl⟩
  · next body hbody =>
    split at h
    · next hend =>
      cases h
      exact ⟨_, _, _, .unterminated hbody hend, rfl⟩
    · next trailer terminator after hend =>
      split at h
      · next hoptions =>
        cases h
        exact ⟨_, _, _, .options hbody hend hoptions, rfl⟩
      · exact absurd h (by simp)

/-- So an anomaly of a definition is about the table. -/
theorem subject_of_readDefinition {a : Anomaly}
    (h : readDefinition script create header = .error a) : a.cause.subject = "table" := by
  obtain ⟨cause, first, last, hrefused, rfl⟩ := refused_of_readDefinition h
  exact hrefused.subject_eq

end Definition

/-! ## The steps of the walk

The walk has four equations, by what stands at its lexeme. They are stated without its termination
argument, so no later proof has to open the function again. -/

section Scan

variable {script : Array Char} {l : Lexeme} {rest : List Lexeme}

@[simp] theorem scan_nil : scan script [] = [] := by
  rw [scan]

/-- Where no header starts, the walk passes the lexeme. -/
theorem scan_of_none (h : Header.read? (l :: rest) = none) :
    scan script (l :: rest) = scan script rest := by
  rw [scan]
  split
  · rfl
  · next hh => rw [h] at hh; exact absurd hh (by simp)

/-- A broken definition is one finding, and the walk goes on behind its parenthesis. -/
theorem scan_of_error {header : Header} {a : Anomaly} (h : Header.read? (l :: rest) = some header)
    (hd : readDefinition script l header = .error a) :
    scan script (l :: rest) = .broken a :: scan script header.rest := by
  rw [scan]
  split
  · next hh => rw [h] at hh; exact absurd hh (by simp)
  · next header' hh =>
    rw [h] at hh
    cases hh
    split
    · next a' hd' => rw [hd] at hd'; cases hd'; rfl
    · next hd' => rw [hd] at hd'; exact absurd hd' (by simp)

/-- A table is one finding, and the walk goes on behind its semicolon. -/
theorem scan_of_ok {header : Header} {table : Table} {skipped : List Anomaly}
    {after : List Lexeme} (h : Header.read? (l :: rest) = some header)
    (hd : readDefinition script l header = .ok (table, skipped, after)) :
    scan script (l :: rest) = .table table skipped :: scan script after := by
  rw [scan]
  split
  · next hh => rw [h] at hh; exact absurd hh (by simp)
  · next header' hh =>
    rw [h] at hh
    cases hh
    split
    · next hd' => rw [hd] at hd'; exact absurd hd' (by simp)
    · next hd' => rw [hd] at hd'; cases hd'; rfl

/-- **Induction along the walk.** What holds of no lexemes and is kept by each of the three steps
holds of all lists. In the last step the definition lies open piece by piece. -/
@[elab_as_elim]
theorem scan_induction (script : Array Char) {motive : List Lexeme → Prop} (nil : motive [])
    (pass : ∀ l rest, Header.read? (l :: rest) = none → motive rest → motive (l :: rest))
    (broken : ∀ l rest header a, Header.read? (l :: rest) = some header →
      readDefinition script l header = .error a → motive header.rest → motive (l :: rest))
    (table : ∀ l rest header body trailer terminator after t skipped,
      Header.read? (l :: rest) = some header →
      readDefinition script l header = .ok (t, skipped, after) →
      Group.close? 0 header.rest = some body →
      Lexeme.splitAt? .semicolon body.rest = some (trailer, terminator, after) →
      motive after → motive (l :: rest))
    (ls : List Lexeme) : motive ls := by
  fun_induction scan script ls with
  | case1 => exact nil
  | case2 l rest hh ih => exact pass l rest hh ih
  | case3 l rest header hh a hd ih => exact broken l rest header a hh hd ih
  | case4 l rest header hh t skipped after hd ih =>
    -- a definition that was read has a body and an end, which proofs about tables refer to
    obtain ⟨body, trailer, terminator, -, hbody, hend, -⟩ := readDefinition_ok hd
    exact table l rest header body trailer terminator after t skipped hh hd hbody hend ih

end Scan

end TableDocs.Sql
