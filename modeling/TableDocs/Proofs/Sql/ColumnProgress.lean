import TableDocs.Proofs.Sql.ClosingIndex
import TableDocs.Proofs.Sql.ColumnExtent

/-!
# TableDocs — reading a column always advances

`ColumnDef.read` goes from one list to what is left of it. Here the same reading is an index that
moves through one item, and an index can move backwards: a search for a closing parenthesis without
result is -1, and the index behind it is 0. A default value would send the reader there for ever.

* **`Cursor`**, **`step`** — the places of the reader and its single moves, none of which looks at
  more than the item and the index.
* **`Ends`** — the moves come to an end. Nothing in it says that they do.
* **`step_advances`** — where parentheses balance a move never goes back, and a turn of a loop goes
  forward, whatever lexemes were passed over before.
* **`reads_read`**, **`Reads.eq_read`** — reading with an index comes to an end and gives what
  `read` gives, and nothing else.
-/

namespace TableDocs.Sql

/-! ## Moves that come to an end

A loop is given by its moves: each one goes on or gives the outcome. That it ends is a statement by
itself, and it ends in one way only, for a move is a function. -/

/-- The moves that `step` makes from a state come to an end, with this outcome. -/
inductive Ends {σ ω : Type} (step : σ → σ ⊕ ω) : σ → ω → Prop
  | now {s : σ} {o : ω} (h : step s = .inr o) : Ends step s o
  | later {s s' : σ} {o : ω} (h : step s = .inl s') (hends : Ends step s' o) : Ends step s o

/-- Moves come to one end. -/
theorem Ends.unique {σ ω : Type} {step : σ → σ ⊕ ω} {s : σ} {o o' : ω} (h : Ends step s o)
    (h' : Ends step s o') : o = o' := by
  induction h with
  | now hs =>
    cases h' with
    | now hs' => exact Sum.inr.inj (hs.symm.trans hs')
    | later hs' _ => cases hs.symm.trans hs'
  | later hs _ ih =>
    cases h' with
    | now hs' => cases hs.symm.trans hs'
    | later hs' hends =>
      cases hs.symm.trans hs'
      exact ih hends

namespace ColumnDef

open TableDocs.Sql.Group (closing? OpensAt AllClose)

/-! ## Reading with an index

The machine keeps an index into the item, as a loop over an array does. Nothing of it mentions the
lists that the reader takes apart. -/

/-- The keyword at an index, and the empty text where there is none. -/
def wordAt (item : List Lexeme) (i : Nat) : String :=
  Lexeme.keywordAt (item.drop i)

/-- The text of the literal at an index. -/
def literalAt? (item : List Lexeme) (i : Nat) : Option String :=
  (item[i]?).bind fun l =>
    match l.kind with
    | .literal text _ => some text
    | _ => none

/-- The lexeme in front of an index. In front of the first one stands the last. -/
def lexemeBefore? (item : List Lexeme) : Nat → Option Lexeme
  | 0 => item.getLast?
  | i + 1 => item[i]?

/-- The index behind the parenthesis that closes the one at index `i`: one more than that of the
closing parenthesis, which is -1 where there is none. -/
def behindClosing (item : List Lexeme) (i : Nat) : Nat :=
  ((closing? item i).map (· + 1)).getD 0

/-- The index behind the first closing bracket that stands behind index `i`. -/
def behindBracket? (item : List Lexeme) (i : Nat) : Option Nat :=
  (Lexeme.splitAt? .closeBracket (item.drop (i + 1))).map fun (before, _, _) =>
    i + 1 + before.length + 1

/-- The index behind a default value at index `i`. -/
def behindValue (item : List Lexeme) (i : Nat) : Nat :=
  let j := if OpensAt item i then i else i + 1
  if OpensAt item j then behindClosing item j else j

/-- The text of a default value from index `i` up to, not including, `stop`. -/
def valueBetween? (script : Array Char) (item : List Lexeme) (i stop : Nat) : Option String :=
  (item[i]?).bind fun first =>
    (lexemeBefore? item stop).map fun last => String.ofList (first.sliceTo script last)

/-- One turn of the loop over attributes: what is known behind the attribute at index `i`, and the
index that the loop goes on from. There is none when a text is cut at lexemes that do not exist. -/
def attributeStep (script : Array Char) (item : List Lexeme) (a : Attributes) (i : Nat) :
    Option (Attributes × Nat) :=
  if wordAt item i = "CHARACTER" && wordAt item (i + 1) = "SET" then some (a, i + 3)
  else if wordAt item i = "CHARSET" || wordAt item i = "COLLATE" then some (a, i + 2)
  else if wordAt item i = "NOT" && wordAt item (i + 1) = "NULL" then
    some ({ a with nullable := false }, i + 2)
  else if wordAt item i = "DEFAULT" && i + 1 < item.length then
    (valueBetween? script item (i + 1) (behindValue item (i + 1))).map fun text =>
      ({ a with default? := some text }, behindValue item (i + 1))
  else if wordAt item i = "COMMENT" then
    match literalAt? item (i + 1) with
    | some text => some ({ a with comment := text }, i + 2)
    | none => some (a, i + 1)
  else some (a, i + 1)

/-- The parts of a type behind its base word. -/
inductive Part
  | continuations
  | precision
  | arrays
  | timeZone
  | numeric
  deriving DecidableEq, Repr

/-- Where the reader of a column stands. -/
inductive Cursor
  | type (part : Part) (index : Nat)
  /-- Behind a type that stops in front of index `stop`. -/
  | attributes (stop index : Nat) (a : Attributes)
  deriving DecidableEq, Repr

/-- How the moves of the reader end. -/
inductive Outcome
  | unclosedBracket
  /-- A text was cut at lexemes that do not exist. -/
  | outside
  | done (stop : Nat) (a : Attributes)
  deriving DecidableEq, Repr

/-- One move of the reader. -/
def step (script : Array Char) (item : List Lexeme) : Cursor → Cursor ⊕ Outcome
  | .type .continuations i =>
    if ["VARYING", "PRECISION"].contains (wordAt item i) then .inl (.type .continuations (i + 1))
    else .inl (.type .precision i)
  | .type .precision i =>
    if OpensAt item i then .inl (.type .arrays (behindClosing item i))
    else .inl (.type .arrays i)
  | .type .arrays i =>
    if Lexeme.startsWith .openBracket (item.drop i) then
      match behindBracket? item i with
      | none => .inr .unclosedBracket
      | some j => .inl (.type .arrays j)
    else .inl (.type .timeZone i)
  | .type .timeZone i =>
    if (wordAt item i = "WITH" || wordAt item i = "WITHOUT") && wordAt item (i + 1) = "TIME" &&
        wordAt item (i + 2) = "ZONE" then .inl (.type .numeric (i + 3))
    else .inl (.type .numeric i)
  | .type .numeric i =>
    if ["UNSIGNED", "SIGNED", "ZEROFILL"].contains (wordAt item i) then
      .inl (.type .numeric (i + 1))
    else .inl (.attributes i i {})
  | .attributes stop i a =>
    if i < item.length then
      match attributeStep script item a i with
      | none => .inr .outside
      | some (a', j) => .inl (.attributes stop j a')
    else .inr (.done stop a)

/-- What reading an item with an index gives. Only a balanced item gets as far as the moves. -/
inductive Reads (script : Array Char) (keys : List String) (item : List Lexeme) :
    Except Cause Column → Prop
  | unbalanced (hitem : Group.balanced item = false) :
      Reads script keys item (.error .unbalancedParentheses)
  | unnamed (hitem : Group.balanced item = true) (hname : Name.read? item = none) :
      Reads script keys item (.error .noColumnName)
  | untyped {name : String} {start : Nat} (hitem : Group.balanced item = true)
      (hname : Name.read? item = some (name, item.drop start))
      (htype : TypeText.isBaseWord (wordAt item start) = false) :
      Reads script keys item (.error .noColumnType)
  | unclosed {name : String} {start : Nat} (hitem : Group.balanced item = true)
      (hname : Name.read? item = some (name, item.drop start))
      (htype : TypeText.isBaseWord (wordAt item start) = true)
      (hends : Ends (step script item) (.type .continuations (start + 1)) .unclosedBracket) :
      Reads script keys item (.error .unbalancedBrackets)
  | column {name : String} {start stop : Nat} {a : Attributes}
      (hitem : Group.balanced item = true)
      (hname : Name.read? item = some (name, item.drop start))
      (htype : TypeText.isBaseWord (wordAt item start) = true)
      (hends : Ends (step script item) (.type .continuations (start + 1)) (.done stop a)) :
      Reads script keys item
        (.ok
          { name
            type := String.ofList (TypeText.normalize script ((item.take stop).drop start))
            nullable := a.nullable
            isPrimaryKey := keys.contains name
            comment := a.comment
            default? := a.default? })

/-! ## Indices and what is left behind them

An index and the list behind it are two ways to say how far the reading has come. These lemmas go
from the one to the other. -/

section Indices

variable {item ls rest : List Lexeme} {l : Lexeme} {i : Nat}

theorem drop_add_length {front : List Lexeme} (h : item.drop i = front ++ ls) :
    item.drop (i + front.length) = ls := by
  rw [← List.drop_drop, h, List.drop_left]

theorem drop_succ (h : item.drop i = l :: rest) : item.drop (i + 1) = rest := by
  rw [← List.drop_drop, h, List.drop_one, List.tail_cons]

theorem lt_length_of_drop (h : item.drop i = l :: rest) : i < item.length := by
  have hlength := congrArg List.length h
  rw [List.length_drop, List.length_cons] at hlength
  omega

theorem getElem?_of_drop (h : item.drop i = l :: rest) : item[i]? = some l := by
  rw [← List.head?_drop, h, List.head?_cons]

theorem wordAt_of_drop (h : item.drop i = ls) : wordAt item i = Lexeme.keywordAt ls := by
  rw [wordAt, h]

/-- In front of the index at which a stretch of the item ends stands its last lexeme. -/
theorem lexemeBefore?_of_drop {stretch : List Lexeme} (h : item.drop i = l :: stretch ++ rest) :
    lexemeBefore? item (i + (l :: stretch).length) = some (stretch.getLastD l) := by
  rw [List.length_cons, ← Nat.add_assoc, lexemeBefore?, ← List.getElem?_drop, h,
    List.getElem?_append_left (by simp), List.getLastD_eq_getLast?, ← List.getLast?_cons,
    List.getLast?_eq_getElem?]
  rfl

end Indices

/-! ## Searches for a closing mark

A search goes forward to the mark that closes a group or a bracket. Where every group is closed it
finds one, and the index behind it is larger. -/

section Searches

variable {item rest : List Lexeme} {l : Lexeme} {i : Nat}

/-- Where every group is closed, the search for a closing parenthesis does not fail. -/
theorem lt_behindClosing (hclose : AllClose item) (hi : OpensAt item i) :
    i + 1 < behindClosing item i ∧ behindClosing item i ≤ item.length := by
  obtain ⟨j, hj⟩ := hclose.exists_closing? hi
  have hlt := Group.lt_of_closing? hj
  rw [behindClosing, hj]
  simp only [Option.map_some, Option.getD_some]
  omega

/-- The index behind a group is that of what `Group.close?` leaves. -/
theorem behindClosing_eq {g : Group} (h : item.drop i = l :: rest)
    (hg : Group.close? 0 rest = some g) :
    behindClosing item i = i + (l :: g.inner ++ [g.close]).length := by
  rw [behindClosing, closing?, drop_succ h, hg]
  simp only [Option.map_some, Option.getD_some, List.length_append, List.length_cons,
    List.length_nil]
  omega

/-- Behind the bracket that closes this one. -/
theorem behindBracket?_eq_some {before after : List Lexeme} {close : Lexeme}
    (h : item.drop i = l :: rest)
    (hsplit : Lexeme.splitAt? .closeBracket rest = some (before, close, after)) :
    behindBracket? item i = some (i + (l :: before ++ [close]).length) := by
  rw [behindBracket?, drop_succ h, hsplit]
  simp only [Option.map_some, List.length_append, List.length_cons, List.length_nil]
  congr 1
  omega

theorem lt_of_behindBracket? {j : Nat} (h : behindBracket? item i = some j) : i < j := by
  obtain ⟨_, -, rfl⟩ := Option.map_eq_some_iff.mp h
  simp only
  omega

theorem exists_cons_splitValue (l : Lexeme) (rest : List Lexeme) :
    ∃ value, (splitValue l rest).1 = l :: value := by
  rw [splitValue]
  split
  · split
    · exact ⟨_, rfl⟩
    · exact ⟨[], rfl⟩
  · split
    · exact ⟨_, rfl⟩
    · exact ⟨[], rfl⟩

/-- **A default value** stands between its two indices as a whole. -/
theorem behindValue_eq (hclose : AllClose item) (h : item.drop i = l :: rest) :
    behindValue item i = i + (splitValue l rest).1.length := by
  have hafter := drop_succ h
  rw [behindValue, splitValue]
  -- a value is an expression in parentheses, or a lexeme and maybe the group of its arguments
  by_cases hl : l.isPunct .openParen = true
  · have hi : OpensAt item i := by rw [OpensAt, h]; exact hl
    obtain ⟨g, hg⟩ := hclose l rest (h ▸ List.drop_suffix i item) hl
    simp only [if_pos hi, if_pos hl, hg]
    exact behindClosing_eq h hg
  · have hi : ¬OpensAt item i := by rw [OpensAt, h]; exact hl
    simp only [if_neg hi, if_neg hl]
    cases hread : Group.read? rest with
    | none =>
      have hnext : ¬OpensAt item (i + 1) := by
        rw [OpensAt, hafter, Bool.not_eq_true]
        exact (hclose.of_suffix (hafter ▸ List.drop_suffix (i + 1) item)).read?_eq_none.mp hread
      simp only [if_neg hnext]
      rfl
    | some found =>
      obtain ⟨opening, g⟩ := found
      obtain ⟨more, rfl, hopening, hg⟩ := Group.read?_eq_some_iff.mp hread
      have hnext : OpensAt item (i + 1) := by rw [OpensAt, hafter]; exact hopening
      simp only [if_pos hnext]
      rw [behindClosing_eq hafter hg]
      simp only [List.cons_append, List.length_cons]
      omega

/-- What is left behind the value of a default. -/
theorem drop_behindValue (hclose : AllClose item) (h : item.drop i = l :: rest) :
    item.drop (behindValue item i) = (splitValue l rest).2 := by
  rw [behindValue_eq hclose h]
  exact drop_add_length (h.trans (splitValue_extent l rest))

/-- The lexemes of a default value exist, so its text can be cut. -/
theorem valueBetween?_eq (script : Array Char) (hclose : AllClose item)
    (h : item.drop i = l :: rest) :
    valueBetween? script item i (behindValue item i) =
      some (valueText script l (splitValue l rest).1) := by
  obtain ⟨value, hvalue⟩ := exists_cons_splitValue l rest
  have hstretch : item.drop i = l :: value ++ (splitValue l rest).2 := by
    rw [h, ← hvalue, ← splitValue_extent]
  rw [valueBetween?, getElem?_of_drop h, behindValue_eq hclose h, hvalue,
    lexemeBefore?_of_drop hstretch, valueText, List.getLastD_cons]
  rfl

/-- A default value is in the item, and it is not empty. -/
theorem behindValue_bounds (hclose : AllClose item) (hi : i < item.length) :
    i < behindValue item i ∧ behindValue item i ≤ item.length := by
  have h := List.drop_eq_getElem_cons hi
  obtain ⟨value, hvalue⟩ := exists_cons_splitValue item[i] (item.drop (i + 1))
  have hextent := congrArg List.length (splitValue_extent item[i] (item.drop (i + 1)))
  rw [hvalue] at hextent
  rw [behindValue_eq hclose h, hvalue]
  simp only [List.length_append, List.length_cons, List.length_drop] at hextent ⊢
  omega

end Searches

/-! ## One turn over the attributes

One turn looks at one lexeme. The cases are those of the reader, in its order, and in each of them
the index moves as far as the list gets shorter. -/

/-- **One turn of the loop over attributes** goes forward, and does what `readAttributes` does. -/
theorem exists_attributeStep {item rest : List Lexeme} {l : Lexeme} {i : Nat} (script : Array Char)
    (a : Attributes) (hclose : AllClose item) (h : item.drop i = l :: rest) :
    ∃ a' j, attributeStep script item a i = some (a', j) ∧ i < j ∧
      readAttributes script a (l :: rest) = readAttributes script a' (item.drop j) := by
  have hafter := drop_succ h
  have hword : wordAt item i = l.keyword := wordAt_of_drop h
  have hnext : wordAt item (i + 1) = Lexeme.keywordAt rest := wordAt_of_drop hafter
  have hskip : ∀ n, item.drop (i + 1 + n) = rest.drop n := fun n => by
    rw [← List.drop_drop, hafter]
  rw [attributeStep, readAttributes.eq_def, hword, hnext]
  simp only
  -- the tests of the reader, in its order; each one fails before the next is made
  by_cases hset : (l.keyword = "CHARACTER" && Lexeme.keywordAt rest = "SET") = true
  · rw [if_pos hset, if_pos hset]
    exact ⟨a, i + 3, rfl, by omega, by rw [hskip 2]⟩
  rw [if_neg hset, if_neg hset]
  by_cases hcharset : (l.keyword = "CHARSET" || l.keyword = "COLLATE") = true
  · rw [if_pos hcharset, if_pos hcharset]
    exact ⟨a, i + 2, rfl, by omega, by rw [hskip 1]⟩
  rw [if_neg hcharset, if_neg hcharset]
  by_cases hnull : (l.keyword = "NOT" && Lexeme.keywordAt rest = "NULL") = true
  · rw [if_pos hnull, if_pos hnull]
    exact ⟨_, i + 2, rfl, by omega, by rw [hskip 1]⟩
  rw [if_neg hnull, if_neg hnull]
  by_cases hdefault : l.keyword = "DEFAULT"
  · cases rest with
    | nil =>
      -- at the end of the item the word is passed over like any other
      have hend : ¬i + 1 < item.length := Nat.not_lt.mpr (List.drop_eq_nil_iff.mp hafter)
      rw [if_neg (by simp [hend]), if_neg (by rw [hdefault]; decide), if_pos hdefault]
      exact ⟨a, i + 1, rfl, by omega, by rw [hafter, readAttributes]⟩
    | cons first more =>
      have hlt : i + 1 < item.length := lt_length_of_drop hafter
      have hstop := (behindValue_bounds hclose hlt).1
      rw [if_pos (by simp [hdefault, hlt]), if_pos hdefault, valueBetween?_eq script hclose hafter]
      exact ⟨_, behindValue item (i + 1), rfl, by omega, by rw [drop_behindValue hclose hafter]⟩
  rw [if_neg (by simp [hdefault]), if_neg hdefault]
  by_cases hcomment : l.keyword = "COMMENT"
  · rw [if_pos hcomment, if_pos hcomment]
    cases rest with
    | nil =>
      have hnone : literalAt? item (i + 1) = none := by
        rw [literalAt?, ← List.head?_drop, hafter]
        rfl
      exact ⟨a, i + 1, by rw [hnone], by omega, by rw [hafter, readAttributes]⟩
    | cons value more =>
      rw [literalAt?, getElem?_of_drop hafter]
      simp only [Option.bind_some]
      cases value.kind with
      | literal text quote => exact ⟨_, i + 2, rfl, by omega, by rw [hskip 1]; rfl⟩
      | _ => exact ⟨a, i + 1, rfl, by omega, by rw [hafter]⟩
  · rw [if_neg hcomment, if_neg hcomment]
    exact ⟨a, i + 1, rfl, by omega, by rw [hafter]⟩

/-! ## The moves along a type

Along a type the machine goes through five loops, one for each part. Each of them comes to an end at
the index where the part ends, and the next one starts there. -/

section Moves

variable {script : Array Char} {item ls : List Lexeme} {i : Nat} {o : Outcome}

/-- A loop that goes on by one while a word of a set stands there passes over all of them. -/
theorem ends_of_words {words : List String} {part : List Lexeme} (loop : Nat → Cursor)
    (hloop : ∀ i, words.contains (wordAt item i) = true →
      step script item (loop i) = .inl (loop (i + 1)))
    (hpart : ∀ l ∈ part, words.contains l.keyword = true) (h : item.drop i = part ++ ls)
    (hends : Ends (step script item) (loop (i + part.length)) o) :
    Ends (step script item) (loop i) o := by
  induction part generalizing i with
  | nil => exact hends
  | cons l part ih =>
    have hl : words.contains (wordAt item i) = true := by
      rw [wordAt_of_drop h]
      exact hpart l List.mem_cons_self
    rw [List.length_cons, Nat.add_comm part.length, ← Nat.add_assoc] at hends
    exact .later (hloop i hl)
      (ih (fun x hx => hpart x (List.mem_cons_of_mem l hx)) (drop_succ h) hends)

/-- Such a loop comes to the end of what `TypeText.spanWords` splits off, and leaves there. -/
theorem ends_spanWords {words : List String} (loop exit : Nat → Cursor)
    (hwords : words.contains "" = false)
    (hstep : ∀ i, step script item (loop i) =
      if words.contains (wordAt item i) then .inl (loop (i + 1)) else .inl (exit i))
    (h : item.drop i = ls)
    (hends : Ends (step script item) (exit (i + (TypeText.spanWords words ls).1.length)) o) :
    Ends (step script item) (loop i) o := by
  have hsplit := h.trans (TypeText.spanWords_extent words ls)
  obtain ⟨hpart, hrest⟩ := TypeText.spanWords_spec hwords ls
  refine ends_of_words loop (fun i hi => by rw [hstep, if_pos hi]) hpart hsplit (.later ?_ hends)
  rw [hstep, if_neg]
  rw [wordAt_of_drop (drop_add_length hsplit), hrest]
  decide

theorem ends_continuations (h : item.drop i = ls)
    (hends : Ends (step script item)
      (.type .precision (i + (TypeText.spanWords ["VARYING", "PRECISION"] ls).1.length)) o) :
    Ends (step script item) (.type .continuations i) o :=
  ends_spanWords (.type .continuations) (.type .precision) (by decide) (fun _ => rfl) h hends

theorem ends_numeric (h : item.drop i = ls)
    (hends : Ends (step script item)
      (.attributes (i + (TypeText.spanWords ["UNSIGNED", "SIGNED", "ZEROFILL"] ls).1.length)
        (i + (TypeText.spanWords ["UNSIGNED", "SIGNED", "ZEROFILL"] ls).1.length) {}) o) :
    Ends (step script item) (.type .numeric i) o :=
  ends_spanWords (.type .numeric) (fun i => .attributes i i {}) (by decide) (fun _ => rfl) h hends

/-- Behind a precision the array suffixes are next. -/
theorem ends_precision (hclose : AllClose item) (h : item.drop i = ls)
    (hends : Ends (step script item)
      (.type .arrays (i + (TypeText.splitPrecision ls).1.length)) o) :
    Ends (step script item) (.type .precision i) o := by
  refine .later ?_ hends
  rw [step, TypeText.splitPrecision]
  have hsuffix : ls <:+ item := h ▸ List.drop_suffix i item
  -- the reader asks for a group and the machine for an opening parenthesis; in a balanced item one
  -- is the start of the other
  cases hread : Group.read? ls with
  | none =>
    have hi : ¬OpensAt item i := by
      rw [OpensAt, h, Bool.not_eq_true]
      exact (hclose.of_suffix hsuffix).read?_eq_none.mp hread
    rw [if_neg hi]
    rfl
  | some found =>
    obtain ⟨opening, g⟩ := found
    obtain ⟨rest, rfl, hopening, hg⟩ := Group.read?_eq_some_iff.mp hread
    have hi : OpensAt item i := by rw [OpensAt, h]; exact hopening
    rw [if_pos hi, behindClosing_eq h hg]

theorem ends_timeZone (h : item.drop i = ls)
    (hends : Ends (step script item)
      (.type .numeric (i + (TypeText.splitTimeZone ls).1.length)) o) :
    Ends (step script item) (.type .timeZone i) o := by
  refine .later ?_ hends
  rw [step]
  -- three lexemes are looked at, so with fewer the last word that is asked for is missing
  match ls, h with
  | [], h | [_], h | [_, _], h =>
    have hnone : wordAt item (i + 2) = "" := by
      rw [wordAt, ← List.drop_drop, h]
      rfl
    simp [hnone, TypeText.splitTimeZone]
  | a :: b :: c :: rest, h =>
    have ha : wordAt item i = a.keyword := wordAt_of_drop h
    have hb : wordAt item (i + 1) = b.keyword := wordAt_of_drop (drop_succ h)
    have hc : wordAt item (i + 2) = c.keyword := wordAt_of_drop (drop_succ (drop_succ h))
    rw [ha, hb, hc, TypeText.splitTimeZone]
    split <;> rfl

/-- One array suffix is passed over with both its brackets. -/
theorem step_arrays (script : Array Char) {l close : Lexeme} {tail inner after : List Lexeme}
    (h : item.drop i = l :: tail) (hl : l.isPunct .openBracket = true)
    (hsplit : Lexeme.splitAt? .closeBracket tail = some (inner, close, after)) :
    step script item (.type .arrays i) =
        .inl (.type .arrays (i + (l :: inner ++ [close]).length)) ∧
      item.drop (i + (l :: inner ++ [close]).length) = after := by
  have hbracket : Lexeme.startsWith .openBracket (item.drop i) = true := by rw [h]; exact hl
  constructor
  · rw [step, if_pos hbracket, behindBracket?_eq_some h hsplit]
  · apply drop_add_length
    rw [h, (Lexeme.splitAt?_extent hsplit).1, List.append_assoc]
    rfl

/-- Behind the array suffixes a time zone may follow. -/
theorem ends_arrays {arrays rest : List Lexeme} (h : item.drop i = ls)
    (harrays : TypeText.splitArrays? ls = some (arrays, rest))
    (hends : Ends (step script item) (.type .timeZone (i + arrays.length)) o) :
    Ends (step script item) (.type .arrays i) o := by
  -- one step of the machine for each pair of brackets; it stays in the same state until none
  -- follows
  fun_induction TypeText.splitArrays? ls generalizing i arrays with
  | case1 =>
    cases harrays
    exact .later (by rw [step, h]; rfl) hends
  | case2 => cases harrays
  | case3 l tail hl inner close after hsplit ih =>
    obtain ⟨⟨more, left⟩, hmore, he⟩ := Option.map_eq_some_iff.mp harrays
    cases he
    obtain ⟨hstep, hafter⟩ := step_arrays script h hl hsplit
    refine .later hstep (ih hafter hmore ?_)
    convert hends using 2
    simp only [List.length_append, List.length_cons, List.length_nil]
    omega
  | case4 l tail hl =>
    cases harrays
    refine .later ?_ hends
    rw [step, h, if_neg (by simpa [Lexeme.startsWith] using hl)]
    rfl

/-- A bracket that nothing closes ends the reading. -/
theorem ends_arrays_of_none (h : item.drop i = ls) (harrays : TypeText.splitArrays? ls = none) :
    Ends (step script item) (.type .arrays i) .unclosedBracket := by
  fun_induction TypeText.splitArrays? ls generalizing i with
  | case1 => cases harrays
  | case2 l tail hl hsplit =>
    have hbracket : Lexeme.startsWith .openBracket (item.drop i) = true := by rw [h]; exact hl
    refine .now ?_
    rw [step, if_pos hbracket, behindBracket?, drop_succ h, hsplit]
    rfl
  | case3 l tail hl inner close after hsplit ih =>
    obtain ⟨hstep, hafter⟩ := step_arrays script h hl hsplit
    exact .later hstep (ih hafter (Option.map_eq_none_iff.mp harrays))
  | case4 => cases harrays

/-- **The moves along a type** come to the end of what `TypeText.split?` splits off. -/
theorem ends_type (script : Array Char) {base : Lexeme} {rest : List Lexeme} {start : Nat}
    (hclose : AllClose item) (h : item.drop start = base :: rest) :
    match TypeText.split? base rest with
    | none => Ends (step script item) (.type .continuations (start + 1)) .unclosedBracket
    | some (type, _) => ∀ o,
      Ends (step script item) (.attributes (start + type.length) (start + type.length) {}) o →
        Ends (step script item) (.type .continuations (start + 1)) o := by
  -- where each part of the type ends, so that the parts can be put one behind the other
  have h1 := drop_succ h
  have h2 := drop_add_length (h1.trans (TypeText.spanWords_extent ["VARYING", "PRECISION"] rest))
  have h3 := drop_add_length (h2.trans (TypeText.splitPrecision_extent _))
  rw [TypeText.split?]
  simp only
  split
  · next hnone =>
    have harrays := Option.map_eq_none_iff.mp hnone
    exact ends_continuations h1 (ends_precision hclose h2 (ends_arrays_of_none h3 harrays))
  · next type attributes hsome =>
    obtain ⟨⟨arrays, left⟩, harrays, he⟩ := Option.map_eq_some_iff.mp hsome
    cases he
    have h4 := drop_add_length (h3.trans (TypeText.splitArrays?_extent harrays))
    have h5 := drop_add_length (h4.trans (TypeText.splitTimeZone_extent left))
    intro o hends
    refine ends_continuations h1 (ends_precision hclose h2 (ends_arrays h3 harrays
      (ends_timeZone h4 (ends_numeric h5 ?_))))
    convert hends using 2
    all_goals
      simp only [List.length_append, List.length_cons]
      omega

/-- **The moves over attributes** come to the end of the item, with what `readAttributes` reads. -/
theorem ends_attributes (hclose : AllClose item) (stop i : Nat) (a : Attributes) :
    Ends (step script item) (.attributes stop i a)
      (.done stop (readAttributes script a (item.drop i))) := by
  -- a turn may pass over many lexemes, and even behind the item
  induction hleft : item.length - i using Nat.strong_induction_on generalizing i a with
  | _ left ih =>
    cases h : item.drop i with
    | nil =>
      have hend : ¬i < item.length := Nat.not_lt.mpr (List.drop_eq_nil_iff.mp h)
      refine .now ?_
      rw [step, if_neg hend, readAttributes]
    | cons l rest =>
      have hlt := lt_length_of_drop h
      obtain ⟨a', j, hstep, hij, hread⟩ := exists_attributeStep script a hclose h
      rw [hread]
      refine .later ?_ (ih (item.length - j) (by omega) j a' rfl)
      rw [step, if_pos hlt, hstep]

/-- **The moves behind a base word** come to an end. -/
theorem ends_of_split? (script : Array Char) {base : Lexeme} {rest : List Lexeme} {start : Nat}
    (hclose : AllClose item) (h : item.drop start = base :: rest) :
    Ends (step script item) (.type .continuations (start + 1))
      (match TypeText.split? base rest with
      | none => .unclosedBracket
      | some (type, attributes) =>
        .done (start + type.length) (readAttributes script {} attributes)) := by
  have htype := ends_type script hclose h
  cases hsplit : TypeText.split? base rest with
  | none =>
    rw [hsplit] at htype
    exact htype
  | some found =>
    obtain ⟨type, attributes⟩ := found
    rw [hsplit] at htype
    -- the attributes start where the type ends
    have hrest := drop_add_length (h.trans (TypeText.split?_extent hsplit))
    rw [← hrest]
    exact htype _ (ends_attributes hclose (start + type.length) (start + type.length) {})

end Moves

/-! ## Progress

Every move increases the index, and every search gives an index inside the item. So the machine ends
after as many moves as the item has lexemes, at most. -/

namespace Cursor

/-- The index that the machine has reached. -/
def index : Cursor → Nat
  | type _ i => i
  | attributes _ i _ => i

/-- How many parts of a column lie in front of the cursor. -/
def rank : Cursor → Nat
  | type .continuations _ => 0
  | type .precision _ => 1
  | type .arrays _ => 2
  | type .timeZone _ => 3
  | type .numeric _ => 4
  | attributes _ _ _ => 5

end Cursor

/-- **A move never goes back**, and a turn of a loop goes forward. -/
theorem step_advances {script : Array Char} {item : List Lexeme} {c c' : Cursor}
    (hclose : AllClose item) (h : step script item c = .inl c') :
    c.rank = c'.rank ∧ c.index < c'.index ∨ c.rank < c'.rank ∧ c.index ≤ c'.index := by
  cases c with
  | type part i =>
    cases part with
    | continuations =>
      rw [step] at h
      split at h
      · cases h
        exact .inl ⟨rfl, Nat.lt_succ_self i⟩
      · cases h
        exact .inr ⟨Nat.lt_add_one 0, Nat.le_refl i⟩
    | precision =>
      rw [step] at h
      split at h
      · next hi =>
        -- a search without result would send the reader back to the first lexeme
        cases h
        have := (lt_behindClosing hclose hi).1
        exact .inr ⟨Nat.lt_add_one 1, by simp only [Cursor.index]; omega⟩
      · cases h
        exact .inr ⟨Nat.lt_add_one 1, Nat.le_refl i⟩
    | arrays =>
      rw [step] at h
      split at h
      · split at h
        · cases h
        · next hj =>
          cases h
          exact .inl ⟨rfl, lt_of_behindBracket? hj⟩
      · cases h
        exact .inr ⟨Nat.lt_add_one 2, Nat.le_refl i⟩
    | timeZone =>
      rw [step] at h
      split at h
      · cases h
        exact .inr ⟨Nat.lt_add_one 3, Nat.le_add_right i 3⟩
      · cases h
        exact .inr ⟨Nat.lt_add_one 3, Nat.le_refl i⟩
    | numeric =>
      rw [step] at h
      split at h
      · cases h
        exact .inl ⟨rfl, Nat.lt_succ_self i⟩
      · cases h
        exact .inr ⟨Nat.lt_add_one 4, Nat.le_refl i⟩
  | attributes stop i a =>
    rw [step] at h
    split at h
    · next hi =>
      obtain ⟨a', j, hstep, hij, -⟩ :=
        exists_attributeStep script a hclose (List.drop_eq_getElem_cons hi)
      rw [hstep] at h
      cases h
      exact .inl ⟨rfl, hij⟩
    · cases h

/-- What reading with an index never does wrong in an item whose parentheses balance. -/
structure Progress (script : Array Char) (item : List Lexeme) : Prop where
  /-- Wherever a search for a closing parenthesis starts, it finds one behind. -/
  closing : ∀ i, OpensAt item i → ∃ j, closing? item i = some j ∧ i < j ∧ j < item.length
  /-- A turn of a loop goes forward, and no other move goes back. -/
  advances : ∀ c c', step script item c = .inl c' →
    c.rank = c'.rank ∧ c.index < c'.index ∨ c.rank < c'.rank ∧ c.index ≤ c'.index
  /-- The lexemes at which a default value is cut are in the item. -/
  value : ∀ i, i < item.length → i < behindValue item i ∧ behindValue item i ≤ item.length
  /-- So are those at which a type is cut. -/
  type : ∀ start stop a, start < item.length →
    Ends (step script item) (.type .continuations (start + 1)) (.done stop a) →
      start < stop ∧ stop ≤ item.length

/-- **In an item whose parentheses balance** reading makes progress. -/
theorem progress_of_balanced (script : Array Char) {item : List Lexeme}
    (hitem : Group.balanced item = true) : Progress script item := by
  have hclose := Group.allClose_of_balanced hitem
  refine
    { closing := ?_
      advances := fun c c' h => step_advances hclose h
      value := fun i hi => behindValue_bounds hclose hi
      type := ?_ }
  · intro i hi
    obtain ⟨j, hj⟩ := hclose.exists_closing? hi
    exact ⟨j, hj, Group.lt_of_closing? hj⟩
  · intro start stop a hstart hends
    -- the machine ends in one way only, and that is how the reader ends
    have hdone := hends.unique (ends_of_split? script hclose (List.drop_eq_getElem_cons hstart))
    cases hsplit : TypeText.split? item[start] (item.drop (start + 1)) with
    | none =>
      rw [hsplit] at hdone
      cases hdone
    | some found =>
      rw [hsplit] at hdone
      cases hdone
      obtain ⟨words, hwords, hextent⟩ := TypeText.exists_words_of_split? hsplit
      have hlength := congrArg List.length hextent
      simp only [List.length_append, List.length_drop] at hlength
      rw [hwords, List.length_cons]
      omega

/-- Nothing closes this default value, and the index behind it is that of the first lexeme. -/
example :
    behindValue
      [⟨.word "a", 0, 1, 1⟩, ⟨.word "INT", 2, 5, 1⟩, ⟨.word "DEFAULT", 6, 13, 1⟩,
        ⟨.punct .openParen, 14, 15, 1⟩] 3 = 0 := by
  decide

/-! ## The readings agree

The machine ends with the outcome of the reader. So what is said of its indices is said of the
reading that the program does. -/

/-- There is no base word behind the end of an item. -/
theorem exists_drop_of_isBaseWord {item : List Lexeme} {start : Nat}
    (h : TypeText.isBaseWord (wordAt item start) = true) :
    ∃ base rest, item.drop start = base :: rest ∧ TypeText.isBaseWord base.keyword = true := by
  rw [wordAt] at h
  cases hstart : item.drop start with
  | nil =>
    rw [hstart] at h
    exact absurd h (by decide)
  | cons base rest =>
    rw [hstart] at h
    exact ⟨base, rest, rfl, h⟩

theorem take_drop_of_drop {item front rest : List Lexeme} {i : Nat}
    (h : item.drop i = front ++ rest) : (item.take (i + front.length)).drop i = front := by
  rw [List.drop_take, h, Nat.add_sub_cancel_left, List.take_left]

/-- The outcome of the machine is that of the reader. -/
theorem Reads.eq_read {script : Array Char} {keys : List String} {item : List Lexeme}
    {result : Except Cause Column} (h : Reads script keys item result) :
    result = read script keys item := by
  cases h with
  | unbalanced hitem =>
    rw [read, hitem]
    rfl
  | unnamed hitem hname =>
    rw [read, hitem, hname]
    rfl
  | @untyped name start hitem hname htype =>
    rw [read, hitem, hname]
    rw [wordAt] at htype
    cases hstart : item.drop start with
    | nil => rfl
    | cons base rest =>
      rw [hstart] at htype
      simp only [show TypeText.isBaseWord base.keyword = false from htype]
      rfl
  | @unclosed name start hitem hname htype hends =>
    -- the machine ended here in one way, and the reader says in which
    obtain ⟨base, rest, hstart, hbase⟩ := exists_drop_of_isBaseWord htype
    have hdone := hends.unique (ends_of_split? script (Group.allClose_of_balanced hitem) hstart)
    cases hsplit : TypeText.split? base rest with
    | none => exact (read_of_unclosed hitem (hstart ▸ hname) hbase hsplit).symm
    | some found =>
      rw [hsplit] at hdone
      cases hdone
  | @column name start stop a hitem hname htype hends =>
    obtain ⟨base, rest, hstart, hbase⟩ := exists_drop_of_isBaseWord htype
    have hdone := hends.unique (ends_of_split? script (Group.allClose_of_balanced hitem) hstart)
    cases hsplit : TypeText.split? base rest with
    | none =>
      rw [hsplit] at hdone
      cases hdone
    | some found =>
      obtain ⟨type, attributes⟩ := found
      rw [hsplit] at hdone
      cases hdone
      rw [take_drop_of_drop (hstart.trans (TypeText.split?_extent hsplit))]
      exact (read_of_closed hitem (hstart ▸ hname) hbase hsplit).symm

/-- **Reading with an index** comes to an end and gives what `read` gives. -/
theorem reads_read (script : Array Char) (keys : List String) (item : List Lexeme) :
    Reads script keys item (read script keys item) := by
  rw [read]
  split
  · next hitem => exact .unbalanced (by simpa using hitem)
  · next hitem =>
    have hitem : Group.balanced item = true := by simpa using hitem
    split
    · next hname => exact .unnamed hitem hname
    · next name hname =>
      -- nothing is left behind the name, so the word there is empty
      have hend : item.drop item.length = [] := List.drop_length
      have hname : Name.read? item = some (name, item.drop item.length) := by rw [hname, hend]
      refine .untyped hitem hname ?_
      rw [wordAt, hend]
      decide
    · next name base rest hname =>
      obtain ⟨part, hsplit, -⟩ := Name.read?_spelling hname
      have hstart : item.drop part.length = base :: rest := by rw [hsplit, List.drop_left]
      have hname : Name.read? item = some (name, item.drop part.length) := by rw [hstart, hname]
      have hword : wordAt item part.length = base.keyword := wordAt_of_drop hstart
      -- from here on the machine does what the reader does, and the exits are told apart by its end
      have hends := ends_of_split? script (Group.allClose_of_balanced hitem) hstart
      split
      · next htype => exact .untyped hitem hname (by rw [hword]; simpa using htype)
      · next htype =>
        have htype : TypeText.isBaseWord (wordAt item part.length) = true := by
          rw [hword]
          simpa using htype
        split
        · next hnone =>
          rw [hnone] at hends
          exact .unclosed hitem hname htype hends
        · next type attributes hsome =>
          rw [hsome] at hends
          have hstretch := take_drop_of_drop (hstart.trans (TypeText.split?_extent hsome))
          rw [← hstretch]
          exact .column hitem hname htype hends

/-- **Reading a column always advances.** Whatever the item, reading with an index has one result,
a column or a mismatch, and it is the one that `read` gives. In the items that get as far as the
moves, no search for a closing parenthesis fails, no turn of a loop stays where it is, and no text
is cut outside the item. -/
theorem reading_advances (script : Array Char) (keys : List String) (item : List Lexeme) :
    (∀ result, Reads script keys item result ↔ result = read script keys item) ∧
      (∀ cause, read script keys item = .error cause → cause.subject = "column") ∧
      (Group.balanced item = true → Progress script item) := by
  refine ⟨fun result => ⟨Reads.eq_read, ?_⟩, ?_, progress_of_balanced script⟩
  · rintro rfl
    exact reads_read script keys item
  · exact fun cause h => subject_of_read_error h

end ColumnDef

end TableDocs.Sql
