import TableDocs.Sql.Name

/-!
# TableDocs — headers of table definitions

A table definition starts with `CREATE [OR REPLACE] [GLOBAL | LOCAL] [TEMP | TEMPORARY] TABLE
[IF NOT EXISTS]`, a name and an opening parenthesis.
-/

namespace TableDocs.Sql

/-- The start of a table definition. -/
structure Header where
  name : String
  /-- The parenthesis that opens the body. -/
  opening : Lexeme
  /-- The lexemes behind it. -/
  rest : List Lexeme

namespace Header

/-- Takes the optional words between `CREATE` and `TABLE` off the front. -/
def skipQualifiers (ls : List Lexeme) : List Lexeme :=
  Lexeme.skipOneOf ["TEMP", "TEMPORARY"]
    (Lexeme.skipOneOf ["GLOBAL", "LOCAL"] (Lexeme.skipWords ["OR", "REPLACE"] ls))

/-- Reads the name and the opening parenthesis. -/
def readName? (ls : List Lexeme) : Option Header :=
  match Name.readQualified? ls with
  | some (name, opening :: rest) =>
    if opening.isPunct .openParen then some ⟨name, opening, rest⟩ else none
  | _ => none

/-- Reads a header at the front of a list of lexemes. -/
def read? : List Lexeme → Option Header
  | [] => none
  | create :: ls =>
    if create.keyword = "CREATE" then
      (Lexeme.dropWords? ["TABLE"] (skipQualifiers ls)).bind fun afterTable =>
        readName? (Lexeme.skipWords ["IF", "NOT", "EXISTS"] afterTable)
    else none

theorem length_skipOneOf_le (words : List String) (ls : List Lexeme) :
    (Lexeme.skipOneOf words ls).length ≤ ls.length := by
  cases ls with
  | nil => simp [Lexeme.skipOneOf]
  | cons l ls =>
    simp only [Lexeme.skipOneOf]
    split <;> simp

theorem length_skipQualifiers_le (ls : List Lexeme) :
    (skipQualifiers ls).length ≤ ls.length :=
  Nat.le_trans (length_skipOneOf_le _ _)
    (Nat.le_trans (length_skipOneOf_le _ _) (Lexeme.length_skipWords_le _ _))

theorem length_of_readName? {ls : List Lexeme} {h : Header} (e : readName? ls = some h) :
    h.rest.length < ls.length := by
  unfold readName? at e
  split at e
  · rename_i name opening rest hq
    split at e
    · simp only [Option.some.injEq] at e
      have := Name.length_of_readQualified? hq
      simp only [List.length_cons] at this
      simp only [← e]
      omega
    · simp at e
  · simp at e

/-- The lexemes behind a header are fewer than those it was read from. -/
theorem length_of_read? {ls : List Lexeme} {h : Header} (e : read? ls = some h) :
    h.rest.length < ls.length := by
  cases ls with
  | nil => simp [read?] at e
  | cons create ls =>
    simp only [read?] at e
    split at e
    · obtain ⟨afterTable, ht, hn⟩ := Option.bind_eq_some_iff.1 e
      have h1 := length_of_readName? hn
      have h2 := Lexeme.length_skipWords_le ["IF", "NOT", "EXISTS"] afterTable
      have h3 := length_skipQualifiers_le ls
      have h4 : afterTable.length ≤ (skipQualifiers ls).length := by
        have h5 := Lexeme.length_skipWords_le ["TABLE"] (skipQualifiers ls)
        simp only [Lexeme.skipWords, ht, Option.getD_some] at h5
        exact h5
      simp only [List.length_cons]
      omega
    · simp at e

end Header

end TableDocs.Sql
