import TableDocs.Sql.Token.Lexer

/-!
# TableDocs — lexemes

The grammar of statements reads lexemes: a token is one lexeme, but a token of several words is one
lexeme per word. A lexeme keeps its place, so that types, defaults and fragments can be cut out of
the script as they are written there.
-/

namespace TableDocs.Sql

/-- The characters of a script from `start` up to, not including, `stop`. -/
def slice (script : Array Char) (start stop : Nat) : List Char :=
  (script.extract start stop).toList

inductive LexemeKind
  /-- A bare word as it is spelled in the script. -/
  | word (text : String)
  /-- A quoted name without its quotes. -/
  | name (text : String)
  /-- A literal without its quotes, and the character it opens with. -/
  | literal (text : String) (quote : Char)
  | punct (p : Punct)
  deriving DecidableEq, Repr

/-- A lexeme with its place: the characters from `start` up to, not including, `stop`. -/
structure Lexeme where
  kind : LexemeKind
  start : Nat
  stop : Nat
  line : Nat
  deriving DecidableEq, Repr

namespace Lexeme

/-- A word in upper case, and the empty text for any other lexeme: keywords are compared so. -/
def keyword (l : Lexeme) : String :=
  match l.kind with
  | .word text => Text.upper text
  | _ => ""

def isWord (l : Lexeme) : Bool :=
  match l.kind with
  | .word _ => true
  | _ => false

def isPunct (p : Punct) (l : Lexeme) : Bool :=
  l.kind == .punct p

/-- The text of a word or literal as a value. -/
def valueText? (l : Lexeme) : Option String :=
  match l.kind with
  | .word text => some text
  | .literal text _ => some text
  | _ => none

/-- The text between the start of a lexeme and the end of another. -/
def sliceTo (script : Array Char) (first last : Lexeme) : List Char :=
  slice script first.start last.stop

/-- The words of a stretch that starts at `offset`, each with its place; `pending` is the word under
way, last character first. -/
def wordsFrom (line offset : Nat) (pending : List Char) : List Char → List Lexeme
  | [] => flush pending
  | c :: rest =>
    if Text.isBlank c then flush pending ++ wordsFrom line (offset + 1) [] rest
    else wordsFrom line (offset + 1) (c :: pending) rest
where
  /-- The word that ends at `offset`, unless it is empty. -/
  flush (pending : List Char) : List Lexeme :=
    if pending.isEmpty then []
    else [⟨.word (String.ofList pending.reverse), offset - pending.length, offset, line⟩]

/-- The lexemes of a token. -/
def ofToken (script : Array Char) (t : Token) : List Lexeme :=
  match t.kind with
  | .punct p => [⟨.punct p, t.start, t.stop, t.line⟩]
  | .name text => [⟨.name text, t.start, t.stop, t.line⟩]
  | .literal text => [⟨.literal text (script.getD t.start '\''), t.start, t.stop, t.line⟩]
  | .words _ => wordsFrom t.line t.start [] (slice script t.start t.stop)

/-- The lexemes of a list of tokens. -/
def ofTokens (script : Array Char) (tokens : List Token) : List Lexeme :=
  tokens.flatMap (ofToken script)

/-- Cuts a script into lexemes. -/
def ofScript (tokenizer : Tokenizer) (script : Array Char) : Except TokenFault (List Lexeme) :=
  (tokenizer.cut script.toList).map (ofTokens script)

/-- Takes given keywords, in order, off the front. -/
def dropWords? : List String → List Lexeme → Option (List Lexeme)
  | [], ls => some ls
  | _ :: _, [] => none
  | w :: ws, l :: ls => if l.keyword = w then dropWords? ws ls else none

/-- Takes given keywords off the front if all of them are there. -/
def skipWords (words : List String) (ls : List Lexeme) : List Lexeme :=
  (dropWords? words ls).getD ls

/-- Takes one of several keywords off the front if it is there. -/
def skipOneOf (words : List String) : List Lexeme → List Lexeme
  | [] => []
  | l :: ls => if words.contains l.keyword then ls else l :: ls

/-- The keyword at the front, and the empty text where there is none. -/
def keywordAt (ls : List Lexeme) : String :=
  match ls with
  | [] => ""
  | l :: _ => l.keyword

/-- Does a mark stand at the front? -/
def startsWith (p : Punct) (ls : List Lexeme) : Bool :=
  match ls with
  | [] => false
  | l :: _ => l.isPunct p

/-- Splits behind the first lexeme that is a given mark: what stands before it, it, and the
rest. -/
def splitAt? (p : Punct) : List Lexeme → Option (List Lexeme × Lexeme × List Lexeme)
  | [] => none
  | l :: ls =>
    if l.isPunct p then some ([], l, ls)
    else (splitAt? p ls).map fun (before, mark, rest) => (l :: before, mark, rest)

theorem length_of_splitAt? {p : Punct} {ls before rest : List Lexeme} {mark : Lexeme}
    (h : splitAt? p ls = some (before, mark, rest)) :
    before.length + rest.length + 1 = ls.length := by
  induction ls generalizing before with
  | nil => simp [splitAt?] at h
  | cons l ls ih =>
    unfold splitAt? at h
    split at h
    · simp only [Option.some.injEq, Prod.mk.injEq] at h
      obtain ⟨rfl, rfl, rfl⟩ := h
      simp
    · obtain ⟨⟨b, m, r⟩, hs, he⟩ := Option.map_eq_some_iff.1 h
      simp only [Prod.mk.injEq] at he
      obtain ⟨rfl, rfl, rfl⟩ := he
      have := ih hs
      simp only [List.length_cons]
      omega

theorem length_skipWords_le (words : List String) (ls : List Lexeme) :
    (skipWords words ls).length ≤ ls.length := by
  have key : ∀ (ws : List String) (ls rest : List Lexeme), dropWords? ws ls = some rest →
      rest.length ≤ ls.length := by
    intro ws
    induction ws with
    | nil => intro ls rest h; simp [dropWords?] at h; simp [h]
    | cons w ws ih =>
      intro ls rest h
      cases ls with
      | nil => simp [dropWords?] at h
      | cons l ls =>
        simp only [dropWords?] at h
        split at h
        · have := ih _ _ h
          simp only [List.length_cons]
          omega
        · simp at h
  unfold skipWords
  cases h : dropWords? words ls with
  | none => simp
  | some rest => simpa using key _ _ _ h

end Lexeme

end TableDocs.Sql
