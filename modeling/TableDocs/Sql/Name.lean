import TableDocs.Sql.Lexeme
import TableDocs.Text.WordChar

/-!
# TableDocs — names of tables and columns

A name is quoted, bare or in square brackets. Qualified names are joined by dots and the last part
is the name that counts.
-/

namespace TableDocs.Sql.Name

/-- Is the word a bare name: a letter of ASCII or underscore, then word characters and dollars? -/
def isBare (word : String) : Bool :=
  match word.toList with
  | [] => false
  | c :: rest => Text.isPlainNameStart c && rest.all fun d => Text.isWordChar d || d == '$'

/-- The name that a single lexeme spells. A literal in double quotes is a name too; an empty name is
none. -/
def ofLexeme? (l : Lexeme) : Option String :=
  match l.kind with
  | .name text => if text.isEmpty then none else some text
  | .literal text quote => if quote = '"' && !text.isEmpty then some text else none
  | .word text => if isBare text then some text else none
  | .punct _ => none

/-- The name that a lexeme in square brackets spells: any word, or a quoted name. An empty name is
none here too. -/
def ofBracketed? (l : Lexeme) : Option String :=
  match l.kind with
  | .name text | .word text => if text.isEmpty then none else some text
  | _ => none

/-- Reads a name and gives what follows it. -/
def read? : List Lexeme → Option (String × List Lexeme)
  | [] => none
  | l :: rest =>
    if l.isPunct .openBracket then
      match rest with
      | inner :: close :: after =>
        if close.isPunct .closeBracket then (ofBracketed? inner).map fun name => (name, after)
        else none
      | _ => none
    else (ofLexeme? l).map fun name => (name, rest)

theorem length_of_read? {ls rest : List Lexeme} {name : String}
    (h : read? ls = some (name, rest)) : rest.length < ls.length := by
  unfold read? at h
  split at h
  · simp at h
  · rename_i l tail
    split at h
    · split at h
      · split at h
        · obtain ⟨_, _, he⟩ := Option.map_eq_some_iff.1 h
          simp only [Prod.mk.injEq] at he
          simp only [← he.2, List.length_cons]
          omega
        · simp at h
      · simp at h
    · obtain ⟨_, _, he⟩ := Option.map_eq_some_iff.1 h
      simp only [Prod.mk.injEq] at he
      simp [← he.2]

/-- Reads a name whose parts are joined by dots and gives its last part. -/
def readQualified? (ls : List Lexeme) : Option (String × List Lexeme) :=
  match _h : read? ls with
  | none => none
  | some (name, []) => some (name, [])
  | some (name, l :: more) => if l.isPunct .dot then readQualified? more else some (name, l :: more)
termination_by ls.length
decreasing_by
  have := length_of_read? _h
  simp only [List.length_cons] at this
  omega

theorem length_of_readQualified? {ls rest : List Lexeme} {name : String}
    (h : readQualified? ls = some (name, rest)) : rest.length < ls.length := by
  fun_induction readQualified? ls with
  | case1 => simp at h
  | case2 ls part hr =>
    have := length_of_read? hr
    simp only [Option.some.injEq, Prod.mk.injEq] at h
    simpa [← h.2] using this
  | case3 ls part l more hr hd ih =>
    have h1 := length_of_read? hr
    have h2 := ih h
    simp only [List.length_cons] at h1
    omega
  | case4 ls part l more hr hd =>
    have := length_of_read? hr
    simp only [Option.some.injEq, Prod.mk.injEq] at h
    simpa [← h.2] using this

end TableDocs.Sql.Name
