import TableDocs.Proofs.Sql.KeyClause
import TableDocs.Proofs.Sql.Transcription

/-!
# TableDocs — the key columns of a body

`KeyClause` says where the clause of the key columns is found and what names it gives. Together with
the partition of the body into items this gives what a reader of a table relies on:

* **`readBody_keys`** — a column is a key column exactly when the clause names it; its own
  attributes do not count.
* **`moved_clause`** — the place of the clause among the items does not matter.
* **`primary_keys_exact`** — all of it, for every body in which parentheses balance.
-/

namespace TableDocs.Sql

open PrimaryKey (CarriesClause EndsInUsing FirstClause Leads keyNames Opens)

/-! ## Columns

The names of the key columns are collected from the body before its columns are read. A column is
marked by its name, and by nothing that stands in its own definition. -/

/-- The successes are the results that are no failures. -/
theorem mem_successes_iff {ε α : Type} {a : α} {results : List (Except ε α)} :
    a ∈ successes results ↔ .ok a ∈ results := by
  induction results with
  | nil => simp
  | cons result results ih =>
    cases result with
    | error e => simp [ih]
    | ok b => simp [ih]

/-- A column of a body is the column of one of its items. -/
theorem read_of_readItem {script : Array Char} {keys : List String} {item : List Lexeme}
    {column : Column} (h : readItem script keys item = .ok column) :
    ColumnDef.read script keys item = .ok column := by
  unfold readItem at h
  split at h
  · next hread => rw [hread, Except.ok.inj h]
  · cases item <;> exact absurd h (by simp)

/-- **A column is a key column exactly when the clause names it.** -/
theorem readBody_keys {script : Array Char} {body : List Lexeme} {column : Column}
    (h : column ∈ successes (readBody script body)) :
    column.isPrimaryKey = true ↔ column.name ∈ keyNames body := by
  obtain ⟨item, -, hread⟩ := List.mem_map.mp (mem_successes_iff.mp h)
  obtain ⟨-, -, -, -, -, -, hkey, -⟩ := ColumnDef.read_ok (read_of_readItem hread)
  rw [hkey, List.contains_iff_mem]

/-! ## The place of the clause

The search for the clause goes from item to item. Where only one item carries a clause, it finds
that one, wherever it stands among the others. -/

/-- A body that has a clause in one item only gets its key columns from that item. -/
theorem keyNames_of_only {body clause : List Lexeme} {before behind : List (List Lexeme)}
    (hitems : Group.segments body = before ++ clause :: behind)
    (hbalanced : ∀ item ∈ Group.segments body, Group.balanced item = true)
    (hends : ∀ item ∈ Group.segments body, ¬EndsInUsing item)
    (honly : ∀ item ∈ before ++ behind, ¬CarriesClause item) :
    keyNames body = keyNames clause := by
  have hcut : Group.Cut 0 body (Group.segments body) := Group.cut_segmentsFrom 0 body
  have hbefore : before.find? (fun item => decide (CarriesClause item)) = none := by
    rw [List.find?_eq_none]
    intro item hitem
    simpa using honly item (List.mem_append_left _ hitem)
  have hbehind : behind.find? (fun item => decide (CarriesClause item)) = none := by
    rw [List.find?_eq_none]
    intro item hitem
    simpa using honly item (List.mem_append_right _ hitem)
  rw [PrimaryKey.keyNames_of_cut hcut hbalanced hends, hitems, List.find?_append, hbefore,
    Option.none_or]
  -- all names come from the first item with a clause, which can only be this one
  by_cases hcarries : CarriesClause clause
  · rw [List.find?_cons_of_pos (by simpa using hcarries)]
    rfl
  · rw [List.find?_cons_of_neg (by simpa using hcarries), hbehind,
      PrimaryKey.keyNames_of_not_carriesClause hcarries]
    rfl

/-- The columns come from the other items. -/
theorem columns_of_structural {script : Array Char} {body clause : List Lexeme}
    {before behind : List (List Lexeme)}
    (hitems : Group.segments body = before ++ clause :: behind)
    (hstructural : isStructural clause = true) :
    successes (readBody script body) =
      successes (((before ++ behind).filter definesColumn).map
        (readItem script (keyNames body))) := by
  -- a clause of the table gives no column, so the other items give all of them
  have hpassed : definesColumn clause = false := by simp [definesColumn, hstructural]
  have hfilter : (before ++ clause :: behind).filter definesColumn =
      (before ++ behind).filter definesColumn := by
    rw [List.filter_append, List.filter_append, List.filter_cons_of_neg (by simp [hpassed])]
  rw [readBody, hitems]
  exact congrArg (fun items => successes (items.map (readItem script (keyNames body)))) hfilter

/-! ### Copies of items

A body that is written again has its lexemes at other places. Whether an item opens a clause,
carries one or ends in a method is told by the kinds of lexemes, so it holds of copies. -/

section Copies

variable (r : Relabeling)

/-- A clause opens at the same place of a copy. -/
theorem PrimaryKey.opens_map (ls : List Lexeme) : Opens (ls.map r) ↔ Opens ls := by
  simp [PrimaryKey.opens_iff, PrimaryKey.openClause?_map]

theorem PrimaryKey.carriesClause_map (ls : List Lexeme) :
    CarriesClause (ls.map r) ↔ CarriesClause ls := by
  constructor
  · rintro ⟨b, hb, hopens⟩
    -- an end of the copy is the copy of an end
    obtain ⟨b', hb', rfl⟩ := List.suffix_map_iff.mp hb
    exact ⟨b', hb', (PrimaryKey.opens_map r b').mp hopens⟩
  · rintro ⟨b, hb, hopens⟩
    exact ⟨b.map r, hb.map r, (PrimaryKey.opens_map r b).mpr hopens⟩

theorem PrimaryKey.endsInUsing_map (ls : List Lexeme) :
    EndsInUsing (ls.map r) ↔ EndsInUsing ls := by
  have hkeywords : (ls.map r).map Lexeme.keyword = ls.map Lexeme.keyword := by
    simp [Function.comp_def]
  rw [EndsInUsing, EndsInUsing, hkeywords]

/-- What does not depend on places holds of copies. -/
theorem forall_copies {script script' : Array Char} {items items' : List (List Lexeme)}
    {P : List Lexeme → Prop} (hP : ∀ (r : Relabeling) (ks : List Lexeme), P (ks.map r) ↔ P ks)
    (h : List.Forall₂ (SameWriting script script') items items')
    (hall : ∀ item ∈ items, P item) : ∀ item ∈ items', P item := by
  induction h with
  | nil => simp
  | cons hsame _ ih =>
    rw [List.forall_mem_cons] at hall ⊢
    have hcopy := eq_of_sameKinds (fun r ks => propext (hP r ks)) hsame.kinds
    exact ⟨hcopy ▸ hall.1, ih hall.2⟩

end Copies

/-- A body and the same body with its key clause at another place. The clause and the other items
are written alike in both, and the other items are in the same order. -/
structure MovedClause (script script' : Array Char) (body body' : List Lexeme) where
  before : List (List Lexeme)
  clause : List Lexeme
  behind : List (List Lexeme)
  before' : List (List Lexeme)
  clause' : List Lexeme
  behind' : List (List Lexeme)
  items : Group.segments body = before ++ clause :: behind
  items' : Group.segments body' = before' ++ clause' :: behind'
  others : List.Forall₂ (SameWriting script script') (before ++ behind) (before' ++ behind')
  moved : SameWriting script script' clause clause'
  /-- The item is a clause of the table. -/
  structural : isStructural clause = true
  /-- No other item names key columns. -/
  only : ∀ item ∈ before ++ behind, ¬CarriesClause item
  /-- No item takes the separator behind it for a method. -/
  ends : ∀ item ∈ Group.segments body, ¬EndsInUsing item

/-- **The place of the clause does not matter.** -/
theorem moved_clause {script script' : Array Char} {body body' : List Lexeme}
    (m : MovedClause script script' body body') (hbalanced : Group.balanced body = true) :
    keyNames body' = keyNames body ∧
      successes (readBody script' body') = successes (readBody script body) := by
  have hcut : Group.Cut 0 body (Group.segments body) := Group.cut_segmentsFrom 0 body
  -- What holds of each item of the one body holds of its copy in the other.
  have hcopies : ∀ P : List Lexeme → Prop, (∀ (r : Relabeling) ks, P (ks.map r) ↔ P ks) →
      (∀ item ∈ Group.segments body, P item) → ∀ item ∈ Group.segments body', P item := by
    intro P hP hall
    rw [m.items, List.forall_mem_append, List.forall_mem_cons] at hall
    have hclause : ∀ item ∈ [m.clause'], P item :=
      forall_copies hP (.cons m.moved .nil) (by simpa using hall.2.1)
    have hothers : ∀ item ∈ m.before' ++ m.behind', P item := by
      apply forall_copies hP m.others
      rw [List.forall_mem_append]
      exact ⟨hall.1, hall.2.2⟩
    rw [List.forall_mem_append] at hothers
    rw [m.items', List.forall_mem_append, List.forall_mem_cons]
    exact ⟨hothers.1, hclause _ List.mem_cons_self, hothers.2⟩
  have hbalanced' : ∀ item ∈ Group.segments body', Group.balanced item = true := by
    apply hcopies (fun item => Group.balanced item = true)
    · intro r ks
      rw [Group.balanced_map]
    · exact hcut.balanced rfl hbalanced
  have hends' : ∀ item ∈ Group.segments body', ¬EndsInUsing item :=
    hcopies (fun item => ¬EndsInUsing item)
      (fun r ks => not_congr (PrimaryKey.endsInUsing_map r ks)) m.ends
  have honly' : ∀ item ∈ m.before' ++ m.behind', ¬CarriesClause item :=
    forall_copies (fun r ks => not_congr (PrimaryKey.carriesClause_map r ks)) m.others m.only
  have hstructural' : isStructural m.clause' = true := by
    rw [← eq_of_sameKinds isStructural_map m.moved.kinds]
    exact m.structural
  have hkeys : keyNames body' = keyNames body :=
    calc keyNames body' = keyNames m.clause' := keyNames_of_only m.items' hbalanced' hends' honly'
      _ = keyNames m.clause := (eq_of_sameKinds PrimaryKey.keyNames_map m.moved.kinds).symm
      _ = keyNames body :=
        (keyNames_of_only m.items (hcut.balanced rfl hbalanced) m.ends m.only).symm
  refine ⟨hkeys, ?_⟩
  rw [columns_of_structural m.items m.structural, columns_of_structural m.items' hstructural',
    hkeys]
  exact (columns_eq_of_sameWriting m.others _).symm

/-! ## Key columns

What is said of the names and of the columns is put together. The names that are reported are sorted
and without repetitions, so they are compared as sets. -/

/-- Dropping repetitions leaves none. -/
theorem nodup_eraseDups {α : Type} [DecidableEq α] (as : List α) : as.eraseDups.Nodup := by
  match as with
  | [] => exact List.nodup_nil
  | a :: as =>
    rw [List.eraseDups_cons, List.nodup_cons]
    exact ⟨by simp, nodup_eraseDups _⟩
termination_by as.length
decreasing_by exact Nat.lt_succ_of_le (List.length_filter_le _ as)

/-- The key columns of a body. -/
structure KeyColumns (script : Array Char) (body : List Lexeme) : Prop where
  /-- Without a clause there are none. -/
  none : ¬CarriesClause body → keyNames body = []
  /-- Otherwise they are the names that lead the elements of the first clause, and what follows the
  clause does not change them. -/
  clause : CarriesClause body → ∃ front start g elements,
    FirstClause body front start g ∧ Group.Cut 0 g.inner elements ∧
      (∀ name, name ∈ keyNames body ↔ ∃ element ∈ elements, Leads name element) ∧
      ∀ rest, keyNames (front ++ (start ++ (g.inner ++ g.close :: rest))) = keyNames body
  /-- They decide alone which columns are key columns. -/
  columns : ∀ column ∈ successes (readBody script body),
    column.isPrimaryKey = true ↔ column.name ∈ keyNames body
  /-- The clause can stand anywhere among the items. -/
  moved : ∀ script' body', MovedClause script script' body body' →
    keyNames body' = keyNames body ∧
      successes (readBody script' body') = successes (readBody script body)
  /-- All of this is about the results for the text of the body. -/
  results : ∀ tokenizer text, text.toList.toArray = script →
    Lexeme.ofScript tokenizer script = .ok body →
    ∃ names anomalies, primaryKeysOf tokenizer text = .ok names ∧ names.Nodup ∧
      (∀ name, name ∈ names ↔ name ∈ keyNames body) ∧
      columnsOf tokenizer text = .ok (successes (readBody script body), anomalies)

/-- **The key columns of a body in which parentheses balance.** -/
theorem primary_keys_exact (script : Array Char) {body : List Lexeme}
    (hbalanced : Group.balanced body = true) : KeyColumns script body where
  none := PrimaryKey.keyNames_of_not_carriesClause
  clause := by
    intro hcarries
    -- the first clause decides, and what stands behind its list was not looked at
    obtain ⟨front, start, g, hclause⟩ := PrimaryKey.exists_firstClause hbalanced hcarries
    have hkeys : keyNames body = PrimaryKey.namesOf g.inner :=
      PrimaryKey.keyNames_firstClause hclause
    refine ⟨front, start, g, Group.segments g.inner, hclause, Group.cut_segmentsFrom 0 g.inner, ?_,
      ?_⟩
    · intro name
      rw [hkeys]
      exact PrimaryKey.mem_namesOf_iff
    · intro rest
      rw [hkeys, PrimaryKey.keyNames_firstClause (hclause.replace_rest rest)]
  columns := fun _ => readBody_keys
  moved := fun _ _ m => moved_clause m hbalanced
  results := by
    rintro dialect text rfl hlex
    refine ⟨_, _, by rw [primaryKeysOf, hlex]; rfl, ?_, ?_, by rw [columnsOf, hlex]; rfl⟩
    · rw [(List.mergeSort_perm _ _).nodup_iff]
      exact nodup_eraseDups _
    · intro name
      rw [List.mem_mergeSort, List.mem_eraseDups]

/-! ### A clause in front of the columns, and behind them -/

def clauseFirstText : String :=
  "PRIMARY KEY (b(4), [c] DESC), b INT, c INT PRIMARY KEY"

def clauseLastText : String :=
  "b INT, c INT PRIMARY KEY, PRIMARY KEY (b(4), [c] DESC)"

/-- The lexemes of the clause from an offset on. -/
def clauseAt (offset : Nat) : List Lexeme :=
  [⟨.word "PRIMARY", offset, offset + 7, 1⟩, ⟨.word "KEY", offset + 8, offset + 11, 1⟩,
    ⟨.punct .openParen, offset + 12, offset + 13, 1⟩, ⟨.word "b", offset + 13, offset + 14, 1⟩,
    ⟨.punct .openParen, offset + 14, offset + 15, 1⟩, ⟨.word "4", offset + 15, offset + 16, 1⟩,
    ⟨.punct .closeParen, offset + 16, offset + 17, 1⟩, ⟨.punct .comma, offset + 17, offset + 18, 1⟩,
    ⟨.punct .openBracket, offset + 19, offset + 20, 1⟩, ⟨.word "c", offset + 20, offset + 21, 1⟩,
    ⟨.punct .closeBracket, offset + 21, offset + 22, 1⟩,
    ⟨.word "DESC", offset + 23, offset + 27, 1⟩, ⟨.punct .closeParen, offset + 27, offset + 28, 1⟩]

/-- The lexemes of the two columns, each from an offset on. -/
def firstColumnAt (offset : Nat) : List Lexeme :=
  [⟨.word "b", offset, offset + 1, 1⟩, ⟨.word "INT", offset + 2, offset + 5, 1⟩]

def secondColumnAt (offset : Nat) : List Lexeme :=
  [⟨.word "c", offset, offset + 1, 1⟩, ⟨.word "INT", offset + 2, offset + 5, 1⟩,
    ⟨.word "PRIMARY", offset + 6, offset + 13, 1⟩, ⟨.word "KEY", offset + 14, offset + 17, 1⟩]

def commaAt (offset : Nat) : Lexeme :=
  ⟨.punct .comma, offset, offset + 1, 1⟩

/-- The clause in front of both columns. -/
def clauseFirst : List Lexeme :=
  clauseAt 0 ++ commaAt 28 :: firstColumnAt 30 ++ commaAt 35 :: secondColumnAt 37

/-- The clause behind both columns. -/
def clauseLast : List Lexeme :=
  firstColumnAt 0 ++ commaAt 5 :: secondColumnAt 7 ++ commaAt 24 :: clauseAt 26

/-- The second body is the first one with its clause at the end. -/
def clauseMoved : MovedClause clauseFirstText.toList.toArray clauseLastText.toList.toArray
    clauseFirst clauseLast where
  before := []
  clause := clauseAt 0
  behind := [firstColumnAt 30, secondColumnAt 37]
  before' := [firstColumnAt 0, secondColumnAt 7]
  clause' := clauseAt 26
  behind' := []
  items := by decide +kernel
  items' := by decide +kernel
  others := .cons ⟨⟨by decide +kernel, by decide +kernel⟩, by decide +kernel⟩
    (.cons ⟨⟨by decide +kernel, by decide +kernel⟩, by decide +kernel⟩ .nil)
  moved := ⟨⟨by decide +kernel, by decide +kernel⟩, by decide +kernel⟩
  structural := by decide +kernel
  only := by decide +kernel
  ends := by decide +kernel

/-- Both columns are key columns, wherever the clause stands. -/
theorem primary_keys_exact_moved :
    Group.balanced clauseFirst = true ∧
      Lexeme.ofScript Dialect.mysql clauseFirstText.toList.toArray = .ok clauseFirst ∧
      Lexeme.ofScript Dialect.mysql clauseLastText.toList.toArray = .ok clauseLast ∧
      KeyColumns clauseFirstText.toList.toArray clauseFirst ∧
      keyNames clauseFirst = ["b", "c"] ∧
      keyNames clauseLast = keyNames clauseFirst ∧
      successes (readBody clauseFirstText.toList.toArray clauseFirst) =
        [{ name := "b", type := "INT", isPrimaryKey := true },
          { name := "c", type := "INT", isPrimaryKey := true }] ∧
      successes (readBody clauseLastText.toList.toArray clauseLast) =
        successes (readBody clauseFirstText.toList.toArray clauseFirst) := by
  have hbalanced : Group.balanced clauseFirst = true := by decide +kernel
  have hexact : KeyColumns clauseFirstText.toList.toArray clauseFirst :=
    primary_keys_exact clauseFirstText.toList.toArray hbalanced
  obtain ⟨hkeys, hcolumns⟩ := hexact.moved _ _ clauseMoved
  exact ⟨hbalanced, by decide +kernel, by decide +kernel, hexact, by decide +kernel, hkeys,
    by decide +kernel, hcolumns⟩

end TableDocs.Sql
