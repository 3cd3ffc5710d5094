import TableDocs.Sql.Group
import TableDocs.Sql.Name

/-!
# TableDocs — the primary key of a table

The key columns are named by the first `PRIMARY KEY` of a body that has a list in parentheses; the
words `PRIMARY KEY` of a single column have none.
-/

namespace TableDocs.Sql.PrimaryKey

/-- Takes the words of a key clause and its opening parenthesis off the front. A method may stand
before the list. -/
def openClause? (ls : List Lexeme) : Option (List Lexeme) :=
  (Lexeme.dropWords? ["PRIMARY", "KEY"] ls).bind fun rest =>
    let rest := if Lexeme.keywordAt rest = "USING" then rest.drop 2 else rest
    if Lexeme.startsWith .openParen rest then some (rest.drop 1) else none

/-- The names that lead the elements of a key list. -/
def namesOf (list : List Lexeme) : List String :=
  (Group.segments list).filterMap fun element => (Name.read? element).map (·.1)

/-- The names of the key columns of a body; none when the list of the first clause is not closed. -/
def keyNames : List Lexeme → List String
  | [] => []
  | l :: ls =>
    match openClause? (l :: ls) with
    | none => keyNames ls
    | some list =>
      match Group.close? 0 list with
      | none => []
      | some g => namesOf g.inner

end TableDocs.Sql.PrimaryKey
