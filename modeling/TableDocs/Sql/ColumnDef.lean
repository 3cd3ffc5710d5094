import TableDocs.Sql.Name
import TableDocs.Sql.Table
import TableDocs.Sql.TypeText

/-!
# TableDocs — column definitions

A column definition is a name, a type and attributes. Attributes that say nothing about the
documented properties are passed over one lexeme at a time; those that take an argument are passed
over with it, so that the argument is not taken for an attribute.
-/

namespace TableDocs.Sql.ColumnDef

/-- What the attributes of a column say. -/
structure Attributes where
  nullable : Bool := true
  comment : String := ""
  default? : Option String := none
  deriving DecidableEq, Repr

/-- Splits a default value off the front, which is not empty: one lexeme, a call or an expression in
parentheses. -/
def splitValue (first : Lexeme) (ls : List Lexeme) : List Lexeme × List Lexeme :=
  if first.isPunct .openParen then
    match Group.close? 0 ls with
    | some g => (first :: g.inner ++ [g.close], g.rest)
    | none => ([first], ls)
  else
    match Group.read? ls with
    | some (opening, g) => (first :: opening :: g.inner ++ [g.close], g.rest)
    | none => ([first], ls)

theorem length_splitValue_le (first : Lexeme) (ls : List Lexeme) :
    (splitValue first ls).2.length ≤ ls.length := by
  unfold splitValue
  split
  · split
    · rename_i g hg
      have := Group.length_of_close? hg
      simp only
      omega
    · simp
  · split
    · rename_i opening g hg
      cases ls with
      | nil => simp [Group.read?] at hg
      | cons l ls =>
        simp only [Group.read?] at hg
        split at hg
        · obtain ⟨g', hg', he⟩ := Option.map_eq_some_iff.1 hg
          simp only [Prod.mk.injEq] at he
          obtain ⟨rfl, rfl⟩ := he
          have := Group.length_of_close? hg'
          simp only [List.length_cons]
          omega
        · simp at hg
    · simp

/-- The text of a default value as it is written. -/
def valueText (script : Array Char) (first : Lexeme) (value : List Lexeme) : String :=
  String.ofList (first.sliceTo script (value.getLastD first))

/-- Reads the attributes at the front of `ls` and adds them to those read before. -/
def readAttributes (script : Array Char) (a : Attributes) (ls : List Lexeme) : Attributes :=
  match ls with
  | [] => a
  | l :: rest =>
    if l.keyword = "CHARACTER" && Lexeme.keywordAt rest = "SET" then
      readAttributes script a (rest.drop 2)
    else if l.keyword = "CHARSET" || l.keyword = "COLLATE" then
      readAttributes script a (rest.drop 1)
    else if l.keyword = "NOT" && Lexeme.keywordAt rest = "NULL" then
      readAttributes script { a with nullable := false } (rest.drop 1)
    else if l.keyword = "DEFAULT" then
      match rest with
      | [] => a
      | first :: more =>
        readAttributes script
          { a with default? := some (valueText script first (splitValue first more).1) }
          (splitValue first more).2
    else if l.keyword = "COMMENT" then
      match rest with
      | [] => a
      | value :: more =>
        match value.kind with
        | .literal text _ => readAttributes script { a with comment := text } more
        | _ => readAttributes script a (value :: more)
    else readAttributes script a rest
termination_by ls.length
decreasing_by
  all_goals
    simp only [List.length_drop, List.length_cons]
    first
    | omega
    | exact Nat.lt_succ_of_le (Nat.le_succ_of_le (length_splitValue_le first more))

/-- Reads the definition of one column; the columns whose names are in `keys` are key columns. -/
def read (script : Array Char) (keys : List String) (item : List Lexeme) : Except Cause Column :=
  if !Group.balanced item then .error .unbalancedParentheses
  else match Name.read? item with
    | none => .error .noColumnName
    | some (_, []) => .error .noColumnType
    | some (name, base :: rest) =>
      if !TypeText.isBaseWord base.keyword then .error .noColumnType
      else match TypeText.split? base rest with
        | none => .error .unbalancedBrackets
        | some (type, attributes) =>
          let a := readAttributes script {} attributes
          .ok
            { name
              type := String.ofList (TypeText.normalize script type)
              nullable := a.nullable
              isPrimaryKey := keys.contains name
              comment := a.comment
              default? := a.default? }

end TableDocs.Sql.ColumnDef
