import TableDocs.Proofs.Sql.ClosingIndex
import TableDocs.Proofs.Sql.KeyClause

/-!
# TableDocs — the body of a table is balanced all the way down

Depth is counted three times: to find the parenthesis that closes a body, to test an item before it
is read, and to cut a body into items. Where a body was found by the first count the other two agree
with it:

* **`capturedBody_of_closing?`** — what stands between two matching parentheses balances, so does
  each of its items, and each key clause that starts in it is closed.
* **`Visit.Located.closing?_eq_some`** — the body of an accepted table was found that way.
* **`captured_bodies_balanced`** — the exits that `ColumnDef.read` and `PrimaryKey.keyNames` have
  for unbalanced lists are not taken in a script. They are there for bodies that come from
  elsewhere.
-/

namespace TableDocs.Sql

open TableDocs.Sql.Group (closing? OpensAt ReturnsAt)

/-! ## A body between matching parentheses

The closing parenthesis is the one at which the depth is back for the first time. In front of it the
depth is never negative, so nothing in the body is closed that was not opened in it. -/

/-- What holds of the lexemes strictly between the indices of two parentheses. -/
structure CapturedBody (ls : List Lexeme) (opening closing : Nat) : Prop where
  balanced : Group.balanced (between ls opening closing) = true
  items : ∀ item ∈ Group.segments (between ls opening closing), Group.balanced item = true
  /-- Where a key clause starts its list is closed, be it the first clause or not. -/
  clauses : ∀ behind list, behind <:+ between ls opening closing →
    PrimaryKey.openClause? behind = some list → ∃ g, Group.close? 0 list = some g

/-- A cut is made at depth zero, so each item of a balanced body is balanced. -/
theorem balanced_of_mem_segments {body item : List Lexeme} (hbody : Group.balanced body = true)
    (h : item ∈ Group.segments body) : Group.balanced item = true :=
  (Group.cut_segmentsFrom 0 body).balanced rfl hbody item h

/-- In a balanced body the list of a key clause is closed. -/
theorem close?_of_openClause? {body behind list : List Lexeme}
    (hbody : Group.balanced body = true) (hbehind : behind <:+ body)
    (h : PrimaryKey.openClause? behind = some list) : ∃ g, Group.close? 0 list = some g := by
  obtain ⟨start, rfl, hstart⟩ := PrimaryKey.openClause?_eq_some_iff.mp h
  obtain ⟨before, opening, rfl, hopening⟩ := hstart.eq_append
  have hlist : opening :: list <:+ body :=
    List.IsSuffix.trans ⟨before, by rw [List.append_assoc]; rfl⟩ hbehind
  exact Group.allClose_of_balanced hbody opening list hlist hopening

/-- **A body between matching parentheses** balances, item by item. -/
theorem capturedBody_of_closing? {ls : List Lexeme} {i j : Nat} (hi : OpensAt ls i)
    (h : closing? ls i = some j) : CapturedBody ls i j := by
  obtain ⟨g, -, hbetween, hclosed⟩ := Group.between_of_closing? hi h
  have hbalanced : Group.balanced (between ls i j) = true := by
    rw [hbetween]
    exact hclosed.balanced
  exact
    { balanced := hbalanced
      items := fun item hitem => balanced_of_mem_segments hbalanced hitem
      clauses := fun behind list hbehind => close?_of_openClause? hbalanced hbehind }

/-! ## The bodies of accepted tables

A visit keeps the indices of both parentheses. That they match follows from where the header ends
and from the search for the end of the body. -/

/-- **The body of an accepted table** stands between matching parentheses. -/
theorem Visit.Located.closing?_eq_some {script : Array Char} {ls : List Lexeme}
    {start opening closing stop : Nat} {table : Table} {skipped : List Anomaly}
    (h : Visit.Located script ls (.accepted start opening closing stop table skipped)) :
    OpensAt ls opening ∧ closing? ls opening = some closing := by
  cases h with
  | @accepted _ _ _ _ _ _ create terminator header body trailer after hcreate hheader hopening hbody
      hclosing hend hstop hread horder =>
    -- the index of the closing parenthesis is counted from the rest of the header
    have hdrop : ls.drop (opening + 1) = header.rest := by
      rw [← List.drop_drop, hopening]
      rfl
    constructor
    · obtain ⟨_, _, _, hextent⟩ := Header.read?_extent hheader
      rw [OpensAt, hopening]
      exact hextent.opening_isPunct
    · have hrest := (Group.close?_extent hbody).1
      have hlast := congrArg List.length hclosing
      have hfirst := congrArg List.length hopening
      rw [hrest] at hfirst
      simp only [List.length_drop, List.length_append, List.length_cons] at hfirst hlast
      rw [closing?, hdrop, hbody, Option.map_some]
      congr 1
      omega

/-! ## The exit for unbalanced items

The reader of columns tests each item before it reads it. The test is needed for a list of lexemes
from elsewhere, and fails for none that a scan comes to. -/

/-- An item is reported as unbalanced only when it is. -/
theorem ColumnDef.read_eq_unbalanced_iff {script : Array Char} {keys : List String}
    {item : List Lexeme} :
    ColumnDef.read script keys item = .error .unbalancedParentheses ↔
      Group.balanced item = false := by
  constructor
  · intro h
    by_contra hitem
    rw [Bool.not_eq_false] at hitem
    -- of all exits this is the only one with that cause
    rw [ColumnDef.read, hitem] at h
    simp only [Bool.not_true, Bool.false_eq_true, if_false] at h
    split at h
    · cases h
    · cases h
    · split at h
      · cases h
      · split at h
        · cases h
        · cases h
  · intro hitem
    rw [ColumnDef.read, hitem]
    rfl

/-- A body that was not captured can have such an item. -/
example : (columnsOf Dialect.mysql "a INT)").map (fun r => r.2.map (·.cause)) =
    .ok [.unbalancedParentheses] := by
  decide +kernel

/-- No item of a balanced body is reported as unbalanced. -/
theorem cause_ne_of_mem_failures {script : Array Char} {body : List Lexeme}
    (hbody : Group.balanced body = true) {a : Anomaly}
    (h : a ∈ failures (readBody script body)) : a.cause ≠ .unbalancedParentheses := by
  obtain ⟨item, hitem, hread⟩ := mem_failures_readBody h
  intro hcause
  rw [hcause] at hread
  have hunbalanced := ColumnDef.read_eq_unbalanced_iff.mp hread
  rw [balanced_of_mem_segments hbody hitem] at hunbalanced
  cases hunbalanced

/-- No visit reports an unbalanced item. -/
theorem Visit.Located.cause_ne {script : Array Char} {ls : List Lexeme} {v : Visit}
    (h : v.Located script ls) {a : Anomaly} (ha : a ∈ v.finding.anomalies) :
    a.cause ≠ .unbalancedParentheses := by
  cases v with
  | accepted start opening closing stop table skipped =>
    obtain ⟨hopens, hclosing⟩ := h.closing?_eq_some
    obtain ⟨-, hskipped, -⟩ := h.parts
    apply cause_ne_of_mem_failures (capturedBody_of_closing? hopens hclosing).balanced
    rw [← hskipped]
    exact ha
  | rejected start opening anomaly =>
    cases h with
    | rejected _ _ _ hread _ =>
      obtain rfl := List.mem_singleton.mp ha
      intro hcause
      -- a definition that is not read is reported as a table, and this cause is one of columns
      have hsubject := subject_of_readDefinition hread
      rw [hcause] at hsubject
      exact absurd hsubject (by decide)

/-- The reason tells this cause from all others. -/
theorem Cause.reason_eq_unbalanced_iff {cause : Cause} :
    cause.reason = "unbalanced parentheses" ↔ cause = .unbalancedParentheses := by
  cases cause <;> decide

/-- No anomaly of a walk through lexemes tells of an unbalanced item. -/
theorem reason_ne_of_mem_scan {script : Array Char} {ls : List Lexeme} {a : Anomaly}
    (h : a ∈ (ScriptReading.ofFindings (scan script ls)).anomalies) :
    a.cause.reason ≠ "unbalanced parentheses" := by
  rw [anomalies_ofFindings_scan] at h
  obtain ⟨v, hv, ha⟩ := List.mem_flatMap.mp h
  have hloc := (located_of_mem_visitsFrom (List.suffix_refl ls) hv).1
  exact fun hreason => hloc.cause_ne ha (Cause.reason_eq_unbalanced_iff.mp hreason)

/-! ## The account

What holds for the lexemes of any list carries over to a script, where the one further anomaly tells
of a text without tokens. -/

/-- What finding the closing parentheses of `ls` says about the bodies that are read from it. -/
structure Captures (script : Array Char) (ls : List Lexeme) : Prop where
  /-- A closing parenthesis stands at the first place at which the depth is back. -/
  closing : ∀ i j, OpensAt ls i → (closing? ls i = some j ↔ IsLeast {k | ReturnsAt ls i k} j)
  /-- None is found only where the depth is never back. -/
  unclosed : ∀ i, OpensAt ls i → (closing? ls i = none ↔ ∀ j, ¬ReturnsAt ls i j)
  captured : ∀ i j, OpensAt ls i → closing? ls i = some j → CapturedBody ls i j
  /-- The columns of an accepted table and its skipped items come from such a body. -/
  accepted : ∀ start opening closing stop table skipped,
    .accepted start opening closing stop table skipped ∈ visits script ls →
      OpensAt ls opening ∧ closing? ls opening = some closing ∧
        table.columns = successes (readBody script (between ls opening closing)) ∧
        skipped = failures (readBody script (between ls opening closing))
  reported : ∀ a ∈ (ScriptReading.ofFindings (scan script ls)).anomalies,
    a.cause.reason ≠ "unbalanced parentheses"

/-- **Captured bodies are balanced all the way down**, and no script has an item reported as
unbalanced. -/
theorem captured_bodies_balanced (script : Array Char) (ls : List Lexeme) :
    Captures script ls ∧
      ∀ tokenizer text, ∀ a ∈ (readScript tokenizer text).anomalies,
        a.cause.reason ≠ "unbalanced parentheses" := by
  constructor
  · refine
      { closing := fun i j hi => Group.closing?_eq_some_iff hi
        unclosed := fun i hi => Group.closing?_eq_none_iff hi
        captured := fun i j hi h => capturedBody_of_closing? hi h
        accepted := ?_
        reported := fun a ha => reason_ne_of_mem_scan ha }
    intro start opening closing stop table skipped hv
    have hloc := (located_of_mem_visitsFrom (List.suffix_refl ls) hv).1
    obtain ⟨hcolumns, hskipped, -⟩ := hloc.parts
    obtain ⟨hopens, hclosing⟩ := hloc.closing?_eq_some
    exact ⟨hopens, hclosing, hcolumns, hskipped⟩
  · intro tokenizer text a ha
    rw [readScript] at ha
    split at ha
    · obtain rfl := List.mem_singleton.mp ha
      show Cause.noTokens.reason ≠ _
      decide
    · exact reason_ne_of_mem_scan ha

end TableDocs.Sql
