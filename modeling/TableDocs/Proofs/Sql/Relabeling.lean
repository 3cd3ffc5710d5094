import TableDocs.Proofs.Sql.ColumnExtent
import TableDocs.Proofs.Sql.DefinitionExtent

/-!
# TableDocs — readers see kinds, not places

A relabeling moves lexemes to other places and may even exchange the text of a literal, but it keeps
what the readers of the grammar go by: keywords, marks and names. This module shows that each of
them commutes with every relabeling:

* **`Header.read?_map`**, **`Group.close?_map`**, **`Group.segments_map`** — headers, groups and
  items are found at the same lexemes.
* **`TypeText.split?_map`**, **`ColumnDef.afterAttribute_map`** — so are the parts of a column
  definition.
* **`PrimaryKey.keyNames_map`**, **`TableOptions.step_map`** — the key columns are the same, and the
  options get their values from the same lexemes.

Only the text of types, defaults and comments is left out here. It depends on more than kinds, and
two relabelings of one list have to be compared for it.
-/

namespace TableDocs.Sql

/-- Two kinds that no reader tells apart: they are equal, or they are literals in the same quotes,
and those quotes are not the ones in which a literal can be a name. -/
def LexemeKind.SameRole (k k' : LexemeKind) : Prop :=
  k' = k ∨ ∃ text text' quote, quote ≠ '"' ∧ k = .literal text quote ∧ k' = .literal text' quote

/-- A change of lexemes that keeps the role of each. -/
structure Relabeling where
  toFun : Lexeme → Lexeme
  sameRole : ∀ l : Lexeme, l.kind.SameRole (toFun l).kind

instance : CoeFun Relabeling fun _ => Lexeme → Lexeme :=
  ⟨Relabeling.toFun⟩

variable (r : Relabeling)

/-! ## One lexeme

A reader asks a lexeme for its keyword, for a mark, or whether it is a word. None of these answers
depends on the place of the lexeme or on the text of a literal. -/

namespace Lexeme

/-- A literal has no keyword, so it does not matter which one it is. -/
@[simp] theorem keyword_relabel (l : Lexeme) : (r l).keyword = l.keyword := by
  rcases r.sameRole l with h | ⟨text, text', quote, -, h, h'⟩
  · rw [keyword, keyword, h]
  · rw [keyword, keyword, h, h']

/-- A mark stays the same mark, and nothing else becomes one. -/
@[simp] theorem isPunct_relabel (p : Punct) (l : Lexeme) : (r l).isPunct p = l.isPunct p := by
  rcases r.sameRole l with h | ⟨text, text', quote, -, h, h'⟩
  · rw [isPunct, isPunct, h]
  · rw [isPunct, isPunct, h, h']
    rfl

/-- A literal stays a literal, whatever becomes of its text. -/
theorem exists_literal_relabel {l : Lexeme} {text : String} {quote : Char}
    (h : l.kind = .literal text quote) : ∃ text', (r l).kind = .literal text' quote := by
  rcases r.sameRole l with hr | ⟨text₁, text₂, quote', -, hl, hr⟩
  · exact ⟨text, hr.trans h⟩
  · rw [h] at hl
    cases hl
    exact ⟨text₂, hr⟩

/-- Any other lexeme keeps its kind. -/
theorem kind_relabel {l : Lexeme} (h : ∀ text quote, l.kind ≠ .literal text quote) :
    (r l).kind = l.kind := by
  rcases r.sameRole l with hr | ⟨text, text', quote, -, hl, -⟩
  · exact hr
  · exact absurd hl (h text quote)

@[simp] theorem isWord_relabel (r : Relabeling) (l : Lexeme) : (r l).isWord = l.isWord := by
  rcases r.sameRole l with h | ⟨text, text', quote, -, h, h'⟩
  · rw [isWord, isWord, h]
  · rw [isWord, isWord, h, h']

@[simp] theorem wordText?_relabel (r : Relabeling) (l : Lexeme) :
    (r l).wordText? = l.wordText? := by
  rcases r.sameRole l with h | ⟨text, text', quote, -, h, h'⟩
  · rw [wordText?, wordText?, h]
  · rw [wordText?, wordText?, h, h']

@[simp] theorem isMark_relabel (r : Relabeling) (l : Lexeme) : (r l).isMark = l.isMark := by
  rcases r.sameRole l with h | ⟨text, text', quote, -, h, h'⟩
  · rw [isMark, isMark, h]
  · rw [isMark, isMark, h, h']

/-- Whether a lexeme can be the value of an option is kept; what it says may change with the text of
a literal. -/
@[simp] theorem isSome_valueText?_relabel (r : Relabeling) (l : Lexeme) :
    (r l).valueText?.isSome = l.valueText?.isSome := by
  rcases r.sameRole l with h | ⟨text, text', quote, -, h, h'⟩
  · rw [valueText?, valueText?, h]
  · rw [valueText?, valueText?, h, h']
    rfl

/-! ## Words and marks at the front

Readers that look at the front of a list stop at the same lexeme of the relabeled one, so what they
leave is the relabeled rest. -/

@[simp] theorem keywordAt_map (ls : List Lexeme) : keywordAt (ls.map r) = keywordAt ls := by
  cases ls with
  | nil => rfl
  | cons l ls => exact keyword_relabel r l

@[simp] theorem startsWith_map (p : Punct) (ls : List Lexeme) :
    startsWith p (ls.map r) = startsWith p ls := by
  cases ls with
  | nil => rfl
  | cons l ls => exact isPunct_relabel r p l

@[simp] theorem dropWords?_map (ws : List String) (ls : List Lexeme) :
    dropWords? ws (ls.map r) = (dropWords? ws ls).map (List.map r) := by
  induction ws generalizing ls with
  | nil => rfl
  | cons w ws ih =>
    cases ls with
    | nil => rfl
    | cons l ls =>
      rw [List.map_cons, dropWords?, dropWords?, keyword_relabel, ih]
      split <;> rfl

@[simp] theorem skipWords_map (ws : List String) (ls : List Lexeme) :
    skipWords ws (ls.map r) = (skipWords ws ls).map r := by
  rw [skipWords, skipWords, dropWords?_map]
  cases dropWords? ws ls <;> rfl

@[simp] theorem skipOneOf_map (ws : List String) (ls : List Lexeme) :
    skipOneOf ws (ls.map r) = (skipOneOf ws ls).map r := by
  cases ls with
  | nil => rfl
  | cons l ls =>
    rw [List.map_cons, skipOneOf, skipOneOf, keyword_relabel]
    split <;> rfl

/-- A list is split at the same mark. -/
@[simp] theorem splitAt?_map (p : Punct) (ls : List Lexeme) :
    splitAt? p (ls.map r) =
      (splitAt? p ls).map fun (before, mark, rest) => (before.map r, r mark, rest.map r) := by
  induction ls with
  | nil => rfl
  | cons l ls ih =>
    rw [List.map_cons, splitAt?, splitAt?, isPunct_relabel, ih]
    split
    · rfl
    · rw [Option.map_map, Option.map_map]
      rfl

end Lexeme

/-! ## Names and headers

Names are read from words, from quoted names and from literals in double quotes. The last of these
are why a role fixes the text of such a literal. -/

namespace Name

/-- A literal whose text may change is in other quotes than the ones of a name. -/
@[simp] theorem ofLexeme?_relabel (l : Lexeme) : ofLexeme? (r l) = ofLexeme? l := by
  rcases r.sameRole l with h | ⟨text, text', quote, hquote, h, h'⟩
  · rw [ofLexeme?, ofLexeme?, h]
  · rw [ofLexeme?, ofLexeme?, h, h']
    simp [hquote]

@[simp] theorem ofBracketed?_relabel (l : Lexeme) : ofBracketed? (r l) = ofBracketed? l := by
  rcases r.sameRole l with h | ⟨text, text', quote, -, h, h'⟩
  · rw [ofBracketed?, ofBracketed?, h]
  · rw [ofBracketed?, ofBracketed?, h, h']

@[simp] theorem read?_map (ls : List Lexeme) :
    read? (ls.map r) = (read? ls).map fun (name, rest) => (name, rest.map r) := by
  match ls with
  | [] => rfl
  | [l] =>
    simp only [List.map_cons, List.map_nil, read?, Lexeme.isPunct_relabel, ofLexeme?_relabel]
    split
    · rfl
    · cases ofLexeme? l <;> rfl
  | [l, inner] =>
    simp only [List.map_cons, List.map_nil, read?, Lexeme.isPunct_relabel, ofLexeme?_relabel]
    split
    · rfl
    · cases ofLexeme? l <;> rfl
  | l :: inner :: close :: after =>
    simp only [List.map_cons, read?, Lexeme.isPunct_relabel, ofLexeme?_relabel,
      ofBracketed?_relabel]
    split
    · split
      · cases ofBracketed? inner <;> rfl
      · rfl
    · cases ofLexeme? l <;> rfl

/-- The parts of a qualified name are read one after the other, so the induction is along that
reading. -/
@[simp] theorem readQualified?_map (ls : List Lexeme) :
    readQualified? (ls.map r) =
      (readQualified? ls).map fun (name, rest) => (name, rest.map r) := by
  -- each case tells what the reader has found, and the relabeled list shows it the same
  fun_induction readQualified? ls with
  | case1 ls hr => exact readQualified?_of_none (by rw [read?_map, hr]; rfl)
  | case2 ls name hr =>
    have hmap : read? (ls.map r) = some (name, []) := by
      rw [read?_map, hr]
      rfl
    exact readQualified?_of_no_dot hmap rfl
  | case3 ls qualifier dot rest hr hdot ih =>
    have hmap : read? (ls.map r) = some (qualifier, r dot :: rest.map r) := by
      rw [read?_map, hr]
      rfl
    rw [readQualified?_of_dot hmap (by rw [Lexeme.isPunct_relabel, hdot]), ih]
  | case4 ls name l rest hr hdot =>
    have hmap : read? (ls.map r) = some (name, (l :: rest).map r) := by
      rw [read?_map, hr]
      rfl
    have hrest : Lexeme.startsWith .dot ((l :: rest).map r) = false := by
      rw [Lexeme.startsWith_map]
      simpa [Lexeme.startsWith] using hdot
    exact readQualified?_of_no_dot hmap hrest

end Name

namespace Header

/-- The header of relabeled lexemes. -/
def map (h : Header) : Header :=
  ⟨h.name, r h.opening, h.rest.map r⟩

/-- The name behind the words of a header, up to its parenthesis. -/
theorem readName?_map (ls : List Lexeme) : readName? (ls.map r) = (readName? ls).map (map r) := by
  rw [readName?, readName?, Name.readQualified?_map]
  rcases Name.readQualified? ls with _ | ⟨name, _ | ⟨opening, rest⟩⟩
  · rfl
  · rfl
  · simp only [Option.map_some, List.map_cons, Lexeme.isPunct_relabel]
    split <;> rfl

/-- **Headers are found at the same lexemes.** -/
@[simp] theorem read?_map (ls : List Lexeme) : read? (ls.map r) = (read? ls).map (map r) := by
  cases ls with
  | nil => rfl
  | cons create ls =>
    rw [List.map_cons, read?, read?, Lexeme.keyword_relabel]
    split
    · simp only [skipQualifiers, Lexeme.skipWords_map, Lexeme.skipOneOf_map, Lexeme.dropWords?_map,
        Option.bind_map, Option.map_bind, Function.comp_def, readName?_map]
    · rfl

end Header

/-! ## Groups

The depth of a parenthesis depends on marks alone. So groups end, balance and fall into items at the
same places. -/

namespace Group

/-- The group of relabeled lexemes. -/
def map (g : Group) : Group :=
  ⟨g.inner.map r, r g.close, g.rest.map r⟩

@[simp] theorem depthStep_relabel (l : Lexeme) : depthStep (r l) = depthStep l := by
  rw [depthStep, depthStep, Lexeme.isPunct_relabel, Lexeme.isPunct_relabel]

/-- **A group is closed by the same parenthesis.** -/
@[simp] theorem close?_map (depth : Nat) (ls : List Lexeme) :
    close? depth (ls.map r) = (close? depth ls).map (map r) := by
  induction ls generalizing depth with
  | nil => rfl
  | cons l ls ih =>
    rw [List.map_cons, close?.eq_def, close?.eq_def]
    simp only [Lexeme.isPunct_relabel, ih]
    split
    · cases close? (depth + 1) ls <;> rfl
    · split
      · cases depth with
        | zero => rfl
        | succ d =>
          simp only
          cases close? d ls <;> rfl
      · cases close? depth ls <;> rfl

@[simp] theorem read?_map (ls : List Lexeme) :
    read? (ls.map r) = (read? ls).map fun (opening, g) => (r opening, g.map r) := by
  cases ls with
  | nil => rfl
  | cons l ls =>
    rw [List.map_cons, read?, read?, Lexeme.isPunct_relabel, close?_map]
    split
    · rw [Option.map_map, Option.map_map]
      rfl
    · rfl

/-- Parentheses balance from any depth as they did. -/
theorem balancedFrom_map (depth : Nat) (ls : List Lexeme) :
    balancedFrom depth (ls.map r) = balancedFrom depth ls := by
  induction ls generalizing depth with
  | nil => rfl
  | cons l ls ih =>
    rw [List.map_cons, balancedFrom.eq_def, balancedFrom.eq_def]
    simp only [Lexeme.isPunct_relabel, ih]

@[simp] theorem balanced_map (ls : List Lexeme) : balanced (ls.map r) = balanced ls :=
  balancedFrom_map r 0 ls

/-- The commas at depth zero are the same. -/
theorem segmentsFrom_map (depth : Int) (ls : List Lexeme) :
    segmentsFrom depth (ls.map r) = (segmentsFrom depth ls).map (List.map r) := by
  induction ls generalizing depth with
  | nil => rfl
  | cons l ls ih =>
    rw [List.map_cons, segmentsFrom.eq_def, segmentsFrom.eq_def]
    simp only [Lexeme.isPunct_relabel, depthStep_relabel, ih]
    split
    · rfl
    · cases segmentsFrom (depth + depthStep l) ls <;> rfl

/-- **Items are made of the same lexemes.** -/
@[simp] theorem segments_map (ls : List Lexeme) :
    segments (ls.map r) = (segments ls).map (List.map r) :=
  segmentsFrom_map r 0 ls

end Group

/-! ## Items of a body

Structural items and key clauses are told by keywords. The names in a key clause are read like all
names. -/

@[simp] theorem isStructural_map (item : List Lexeme) :
    isStructural (item.map r) = isStructural item := by
  rw [isStructural, isStructural, Lexeme.keywordAt_map, ← List.map_drop, Lexeme.keywordAt_map]

namespace PrimaryKey

/-- A key clause starts at the same lexeme, with or without the words for its index. -/
theorem openClause?_map (ls : List Lexeme) :
    openClause? (ls.map r) = (openClause? ls).map (List.map r) := by
  rw [openClause?, openClause?, Lexeme.dropWords?_map]
  cases Lexeme.dropWords? ["PRIMARY", "KEY"] ls with
  | none => rfl
  | some rest =>
    simp only [Option.map_some, Option.bind_some, Lexeme.keywordAt_map, ← List.map_drop,
      ← apply_ite, Lexeme.startsWith_map]
    split <;> split <;> rfl

/-- Each element of a key clause gives the same name. -/
theorem namesOf_map (list : List Lexeme) : namesOf (list.map r) = namesOf list := by
  rw [namesOf, namesOf, Group.segments_map, List.filterMap_map]
  congr 1
  funext element
  simp only [Function.comp_apply, Name.read?_map, Option.map_map]
  rfl

/-- **The key columns of a body** have the same names. -/
@[simp] theorem keyNames_map (ls : List Lexeme) : keyNames (ls.map r) = keyNames ls := by
  induction ls with
  | nil => rfl
  | cons l ls ih =>
    rw [List.map_cons, keyNames, keyNames, ← List.map_cons, openClause?_map, ih]
    cases openClause? (l :: ls) with
    | none => rfl
    | some list =>
      simp only [Option.map_some, Group.close?_map]
      cases Group.close? 0 list with
      | none => rfl
      | some g => exact namesOf_map r g.inner

end PrimaryKey

/-! ## Options

One step of the reader looks at the lexeme before, the one at hand and the one behind. It asks all
three for what a relabeling keeps. -/

namespace TableOptions

/-- The step at relabeled lexemes. -/
def Step.map (r : Relabeling) : Step → Step
  | refused => refused
  | passed => passed
  | given keyword value => given keyword (r value)

/-- **A step of the reader** is the same. The value that it gives is the relabeled one. -/
theorem step_map (r : Relabeling) (previous? : Option Lexeme) (l : Lexeme) (rest : List Lexeme) :
    step (previous?.map r) (r l) (rest.map r) = (step previous? l rest).map r := by
  -- what is asked of the lexeme before
  have hword : (previous?.map r).bind Lexeme.wordText? = previous?.bind Lexeme.wordText? := by
    simp [Option.bind_map]
  have hequals : (previous?.map r).any (Lexeme.isPunct .equals) =
      previous?.any (Lexeme.isPunct .equals) := by
    simp [Option.any_map]
  have hmark : (previous?.map r).all Lexeme.isMark = previous?.all Lexeme.isMark := by
    simp [Option.all_map]
  rw [step.eq_def, step.eq_def, hword, hequals, hmark]
  simp only [Lexeme.isWord_relabel, Lexeme.isSome_valueText?_relabel, Lexeme.isPunct_relabel]
  cases previous?.bind Lexeme.wordText? with
  | none => split_ifs <;> cases rest <;> rfl
  | some keyword =>
    cases rest with
    | nil => split_ifs <;> rfl
    | cons value more =>
      simp only [List.map_cons, Lexeme.isSome_valueText?_relabel]
      split_ifs <;> rfl

end TableOptions

/-! ## Types

The extent of a type is told by its base words, the parentheses behind them, pairs of brackets and
the words for time zones. -/

namespace TypeText

/-- Both parts of a split, relabeled. -/
def mapSplit (parts : List Lexeme × List Lexeme) : List Lexeme × List Lexeme :=
  (parts.1.map r, parts.2.map r)

/-- Words of a list are taken as long as they last. -/
theorem spanWords_map (words : List String) (ls : List Lexeme) :
    spanWords words (ls.map r) = mapSplit r (spanWords words ls) := by
  simp only [spanWords, mapSplit, List.span_eq_takeWhile_dropWhile, List.takeWhile_map,
    List.dropWhile_map, Function.comp_def, Lexeme.keyword_relabel]

/-- A precision is a group, closed where it was. -/
theorem splitPrecision_map (ls : List Lexeme) :
    splitPrecision (ls.map r) = mapSplit r (splitPrecision ls) := by
  rw [splitPrecision, splitPrecision, Group.read?_map]
  cases Group.read? ls with
  | none => rfl
  | some found => simp [mapSplit, Group.map]

/-- Brackets come in pairs, and one that is not closed refuses the type. -/
theorem splitArrays?_map (ls : List Lexeme) :
    splitArrays? (ls.map r) = (splitArrays? ls).map (mapSplit r) := by
  -- along the pairs that the reader finds; a pair that is found in one list is found in the other
  fun_induction splitArrays? ls with
  | case1 => rw [List.map_nil, splitArrays?]; rfl
  | case2 l tail hl hsplit =>
    rw [List.map_cons, splitArrays?, Lexeme.isPunct_relabel, if_pos hl]
    split
    · rfl
    · next hmap => rw [Lexeme.splitAt?_map, hsplit] at hmap; exact absurd hmap (by simp)
  | case3 l tail hl inner close rest hsplit ih =>
    rw [List.map_cons, splitArrays?, Lexeme.isPunct_relabel, if_pos hl]
    split
    · next hmap => rw [Lexeme.splitAt?_map, hsplit] at hmap; exact absurd hmap (by simp)
    · next hmap =>
      rw [Lexeme.splitAt?_map, hsplit] at hmap
      cases hmap
      rw [ih, Option.map_map, Option.map_map]
      congr 1
      funext parts
      simp [mapSplit]
  | case4 l tail hl =>
    rw [List.map_cons, splitArrays?, Lexeme.isPunct_relabel, if_neg hl]
    rfl

theorem splitTimeZone_map (ls : List Lexeme) :
    splitTimeZone (ls.map r) = mapSplit r (splitTimeZone ls) := by
  match ls with
  | [] => rfl
  | [_] => rfl
  | [_, _] => rfl
  | a :: b :: c :: rest =>
    simp only [List.map_cons, splitTimeZone, Lexeme.keyword_relabel]
    split <;> rfl

/-- **A type ends at the same lexeme.** -/
@[simp] theorem split?_map (base : Lexeme) (ls : List Lexeme) :
    split? (r base) (ls.map r) = (split? base ls).map (mapSplit r) := by
  simp only [split?, spanWords_map, splitPrecision_map, mapSplit, splitArrays?_map, Option.map_map]
  congr 1
  funext parts
  simp [mapSplit, splitTimeZone_map, spanWords_map]

end TypeText

/-! ## Attributes

An attribute is passed over with its argument. Whether there is one is told by keywords, and its
extent by parentheses. -/

namespace ColumnDef

/-- A default value is one lexeme, a call or an expression in parentheses, and each of these has the
same extent. -/
theorem splitValue_map (first : Lexeme) (ls : List Lexeme) :
    splitValue (r first) (ls.map r) =
      ((splitValue first ls).1.map r, (splitValue first ls).2.map r) := by
  rw [splitValue, splitValue, Lexeme.isPunct_relabel, Group.close?_map, Group.read?_map]
  split
  · cases Group.close? 0 ls <;> simp [Group.map]
  · cases Group.read? ls <;> simp [Group.map]

/-- **The next attribute starts at the same lexeme.** -/
theorem afterAttribute_map (l : Lexeme) (rest : List Lexeme) :
    afterAttribute (r l) (rest.map r) = (afterAttribute l rest).map r := by
  rw [afterAttribute.eq_def, afterAttribute.eq_def]
  simp only [Lexeme.keyword_relabel, Lexeme.keywordAt_map, ← List.map_drop]
  split
  · rfl
  · split
    · rfl
    · split
      · rfl
      · split
        · cases rest with
          | nil => rfl
          | cons first more => exact congrArg Prod.snd (splitValue_map r first more)
        · split
          · cases rest with
            | nil => rfl
            | cons value more =>
              simp only [List.map_cons]
              -- a comment takes a literal as its value, and a literal stays one
              cases hvalue : value.kind with
              | literal text quote =>
                obtain ⟨text', hr⟩ := Lexeme.exists_literal_relabel r hvalue
                rw [hr]
              | _ => rw [Lexeme.kind_relabel r (by simp [hvalue]), hvalue]; rfl
          · rfl

end ColumnDef

end TableDocs.Sql
