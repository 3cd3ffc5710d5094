import TableDocs.Sql.Lexeme

/-!
# TableDocs — table options

Between the body of a table and the end of its statement stand options: keywords with values, an
equals sign or a comma where the writer likes one. Groups, dots, brackets and quoted names make the
whole trailer unreadable.
-/

namespace TableDocs.Sql.TableOptions

/-- An option that has a value. The keyword is the word right before the value, in upper case. -/
structure Entry where
  keyword : String
  value : String
  deriving DecidableEq, Repr

/-- Reads the lexemes of a trailer behind the lexeme `previous?`; none when the trailer is
unreadable. -/
def entriesAfter? (previous? : Option Lexeme) : List Lexeme → Option (List Entry)
  | [] => some []
  | l :: rest =>
    match l.kind, previous?.map Lexeme.kind with
    | .word _, _ => entriesAfter? (some l) rest
    | .name _, _ => none
    | .literal text _, some (.word keyword) =>
      (entriesAfter? (some l) rest).map (⟨Text.upper keyword, text⟩ :: ·)
    | .literal _ _, some (.punct .equals) => entriesAfter? (some l) rest
    | .literal _ _, _ => none
    | .punct .equals, some (.word keyword) =>
      match rest.head?.bind Lexeme.valueText? with
      | some value => (entriesAfter? (some l) rest).map (⟨Text.upper keyword, value⟩ :: ·)
      | none => none
    | .punct .comma, some (.punct _) => none
    | .punct .comma, some _ => entriesAfter? (some l) rest
    | .punct _, _ => none

/-- The options of a trailer in source order. -/
def read? (trailer : List Lexeme) : Option (List Entry) :=
  entriesAfter? none trailer

/-- The value of the first option of a keyword. -/
def value? (keyword : String) (entries : List Entry) : Option String :=
  (entries.find? fun e => e.keyword = keyword).map (·.value)

end TableDocs.Sql.TableOptions
