import TableDocs.Proofs.Sql.DefinitionExtent
import TableDocs.Proofs.Sql.Grammar

/-!
# TableDocs — the grammar of table options

Options are written as keywords, keywords with a literal behind them and keywords with an equals
sign and a value. The reader of a trailer knows the lexeme in front of the one it reads and no more,
so for it a word that is a value is a keyword like any other.

* **`item`**, **`chain`** — the options as they are written, and as they are read: in a chain each
  value that is a word may have a value of its own.
* **`mem_behind_iff`** — what the reader accepts behind a lexeme is a language of its own. There is
  one for each of the four classes of lexemes that it tells apart.
* **`mem_listOf_item_iff`** — the two grammars differ by one pattern, `Overgiven`, wherever the scan
  stands.
* **`options_grammatical`** — so a trailer is read if and only if it is a list of chains, and it is
  a list of options if and only if it is read and no value in it is given a value.
-/

namespace TableDocs.Sql

/-- Is it a quoted value? -/
def Lexeme.isLiteral (l : Lexeme) : Bool :=
  match l.kind with
  | .literal _ _ => true
  | _ => false

namespace TableOptions

open Grammar

open scoped Computability

/-! ## Grammars

Both grammars are lists of units with commas between them. They differ in the unit: an option as it
is written has one value, and a chain as it is read may go on from a value to the next. -/

/-- One word, whichever it is. -/
def anyWord : Language Lexeme :=
  {ls | ∃ l, ls = [l] ∧ l.isWord = true}

/-- One quoted value. -/
def literal : Language Lexeme :=
  {ls | ∃ l, ls = [l] ∧ l.isLiteral = true}

/-- What can stand behind a keyword: nothing, a literal, or an equals sign and a value. -/
def assignment (value : Language Lexeme) : Language Lexeme :=
  1 + literal + mark .equals * value

/-- An option: a keyword, alone or with its value. -/
def item : Language Lexeme :=
  anyWord * assignment (anyWord + literal)

/-- A keyword, values that are words, each behind an equals sign, and a literal or not. -/
def chain : Language Lexeme :=
  anyWord * (mark .equals * anyWord)∗ * assignment literal

/-- Units in a row. A comma may stand between two of them and behind the last. -/
def listOf (unit : Language Lexeme) : Language Lexeme :=
  1 + unit * ((1 + mark .comma) * unit)∗ * (1 + mark .comma)

/-- A value that is a word has a value of its own. -/
def Overgiven (trailer : List Lexeme) : Prop :=
  ∃ equals value own, [equals, value, own] <:+: trailer ∧ equals.isPunct .equals = true ∧
    value.isWord = true ∧ (own.isPunct .equals = true ∨ own.isLiteral = true)

/-! ## Lists of units

What can follow a unit is a list of units again, with a comma in front of it or not. -/

/-- What stands behind a unit of a list. -/
def follow (unit : Language Lexeme) : Language Lexeme :=
  (1 + mark .comma) * listOf unit

section Lists

variable {P : Lexeme → Prop} {unit tail value M : Language Lexeme} {l : Lexeme}
  {ls rest : List Lexeme}

/-- Units behind separators, read from the other side: a separator, and then units again. -/
theorem kstar_mul_eq (a u : Language Lexeme) : (a * u)∗ * a = a * (1 + u * (a * u)∗ * a) :=
  calc (a * u)∗ * a
    _ = (1 + a * u * (a * u)∗) * a := by rw [Language.one_add_self_mul_kstar_eq_kstar]
    _ = a * (1 + u * (a * u)∗ * a) := by
      rw [add_mul, one_mul, mul_add, mul_one]
      simp only [mul_assoc]

/-- A list is empty, or a unit and what can follow it. -/
theorem listOf_eq (unit : Language Lexeme) : listOf unit = 1 + unit * follow unit := by
  rw [follow, listOf, ← kstar_mul_eq, mul_assoc]

/-- A language of single lexemes in front of another one is told by the first lexeme. -/
theorem cons_mem_mul (L : Language Lexeme) (hL : ∀ ls, ls ∈ L ↔ ∃ l, ls = [l] ∧ P l) :
    l :: rest ∈ L * M ↔ P l ∧ rest ∈ M := by
  rw [Language.mem_mul]
  constructor
  · rintro ⟨u, hu, v, hv, he⟩
    obtain ⟨l', rfl, hl'⟩ := (hL u).mp hu
    obtain ⟨rfl, rfl⟩ := List.cons_eq_cons.mp he
    exact ⟨hl', hv⟩
  · rintro ⟨hl, hrest⟩
    exact ⟨[l], (hL _).mpr ⟨l, rfl, hl⟩, rest, hrest, rfl⟩

theorem cons_mem_anyWord_mul : l :: rest ∈ anyWord * M ↔ l.isWord = true ∧ rest ∈ M :=
  cons_mem_mul anyWord fun _ => Iff.rfl

theorem cons_mem_literal_mul : l :: rest ∈ literal * M ↔ l.isLiteral = true ∧ rest ∈ M :=
  cons_mem_mul literal fun _ => Iff.rfl

theorem cons_mem_mark_mul {p : Punct} : l :: rest ∈ mark p * M ↔ l.isPunct p = true ∧ rest ∈ M :=
  cons_mem_mul (mark p) fun _ => Iff.rfl

theorem nil_mem_listOf : [] ∈ listOf unit := by
  rw [listOf_eq]
  exact .inl rfl

theorem nil_mem_follow : [] ∈ follow unit :=
  ⟨[], .inl rfl, [], nil_mem_listOf, rfl⟩

theorem cons_mem_listOf : l :: rest ∈ listOf (anyWord * tail) ↔
    l.isWord = true ∧ rest ∈ tail * follow (anyWord * tail) := by
  rw [listOf_eq, mem_optional, mul_assoc, cons_mem_anyWord_mul]
  simp

/-- What follows a unit begins with the next one, or with a comma. -/
theorem cons_mem_follow : l :: rest ∈ follow unit ↔
    l :: rest ∈ listOf unit ∨ l.isPunct .comma = true ∧ rest ∈ listOf unit := by
  rw [follow, add_mul, one_mul, Language.mem_add, cons_mem_mark_mul]

/-- A lexeme behind a keyword is its literal, the sign in front of its value, or no part of its
option. -/
theorem cons_mem_assignment_mul : l :: rest ∈ assignment value * M ↔
    l :: rest ∈ M ∨ l.isLiteral = true ∧ rest ∈ M ∨
      l.isPunct .equals = true ∧ rest ∈ value * M := by
  rw [assignment, add_mul, add_mul, one_mul, mul_assoc, Language.mem_add, Language.mem_add,
    cons_mem_literal_mul, cons_mem_mark_mul, or_assoc]

end Lists

/-! ## What the reader accepts

The reader remembers one lexeme. So what it accepts depends on the class of that lexeme alone, and
the language for each class is written down before it is compared with the reader. -/

/-- What stands in a chain behind its keyword. -/
def chainTail : Language Lexeme :=
  (mark .equals * anyWord)∗ * assignment literal

/-- What the reader accepts behind a lexeme. -/
def behind (previous? : Option Lexeme) : Language Lexeme :=
  match previous?.map Lexeme.kind with
  | some (.word _) => chainTail * follow chain
  | some (.punct .equals) => 1 + (anyWord * chainTail + literal) * follow chain
  | some (.punct _) | none => listOf chain
  | some _ => follow chain

/-- A chain is a keyword and what stands behind it. -/
theorem chain_eq : chain = anyWord * chainTail :=
  mul_assoc _ _ _

/-- A value that is a word is the keyword of the rest of its chain. -/
theorem chainTail_eq : chainTail = assignment (anyWord * chainTail + literal) :=
  calc chainTail
    _ = (1 + mark .equals * anyWord * (mark .equals * anyWord)∗) * assignment literal := by
      rw [Language.one_add_self_mul_kstar_eq_kstar, chainTail]
    _ = assignment literal + mark .equals * (anyWord * chainTail) := by
      rw [add_mul, one_mul, chainTail]
      simp only [mul_assoc]
    _ = assignment (anyWord * chainTail + literal) := by
      rw [assignment, assignment, mul_add, add_assoc, add_comm (mark .equals * literal)]

section Reader

variable {l : Lexeme} {rest ls : List Lexeme}

theorem nil_mem_chainTail_mul : [] ∈ chainTail * follow chain := by
  have htail : [] ∈ chainTail := by
    rw [chainTail_eq]
    exact .inl (.inl rfl)
  exact ⟨[], htail, [], nil_mem_follow, rfl⟩

/-- The reader may stop behind any lexeme. -/
theorem nil_mem_behind (previous? : Option Lexeme) : [] ∈ behind previous? := by
  rw [behind]
  split
  · exact nil_mem_chainTail_mul
  · exact .inl rfl
  · exact nil_mem_listOf
  · exact nil_mem_listOf
  · exact nil_mem_follow

theorem cons_mem_listOf_chain :
    l :: rest ∈ listOf chain ↔ l.isWord = true ∧ rest ∈ chainTail * follow chain := by
  rw [chain_eq, cons_mem_listOf]

/-- Behind a chain the next one begins, or a comma stands there. -/
theorem cons_mem_follow_chain : l :: rest ∈ follow chain ↔
    l.isWord = true ∧ rest ∈ chainTail * follow chain ∨
      l.isPunct .comma = true ∧ rest ∈ listOf chain := by
  rw [cons_mem_follow, cons_mem_listOf_chain]

/-- Behind a keyword a chain goes on with a value, or it has ended. -/
theorem cons_mem_chainTail_mul {M : Language Lexeme} : l :: rest ∈ chainTail * M ↔
    l :: rest ∈ M ∨ l.isLiteral = true ∧ rest ∈ M ∨
      l.isPunct .equals = true ∧ rest ∈ (anyWord * chainTail + literal) * M := by
  rw [chainTail_eq, cons_mem_assignment_mul, ← chainTail_eq]

theorem cons_mem_chainValue_mul {M : Language Lexeme} :
    l :: rest ∈ (anyWord * chainTail + literal) * M ↔
      l.isWord = true ∧ rest ∈ chainTail * M ∨ l.isLiteral = true ∧ rest ∈ M := by
  rw [add_mul, mul_assoc, Language.mem_add, cons_mem_anyWord_mul, cons_mem_literal_mul]

/-- What `behind` says of the first lexeme. -/
theorem cons_mem_behind (previous? : Option Lexeme) : l :: rest ∈ behind previous? ↔
    match l.kind, previous?.map Lexeme.kind with
    | .word _, _ => rest ∈ chainTail * follow chain
    | .literal _ _, some (.word _) | .literal _ _, some (.punct .equals) => rest ∈ follow chain
    | .punct .equals, some (.word _) => rest ∈ (anyWord * chainTail + literal) * follow chain
    | .punct .comma, some (.punct _) => False
    | .punct .comma, some _ => rest ∈ listOf chain
    | _, _ => False := by
  have hcons : ¬l :: rest = [] := List.cons_ne_nil l rest
  rw [behind]
  generalize previous?.map Lexeme.kind = kind?
  split
  case' h_1 => rw [cons_mem_chainTail_mul, cons_mem_follow_chain]
  case' h_2 => rw [mem_optional, cons_mem_chainValue_mul]
  case' h_3 => rw [cons_mem_listOf_chain]
  case' h_4 => rw [cons_mem_listOf_chain]
  case' h_5 => rw [cons_mem_follow_chain]
  -- In each class it depends on the kind of the first lexeme, and for a mark on the mark.
  all_goals
    rcases hl : l.kind with text | text | ⟨text, quote⟩ | p
    on_goal 4 => cases p
    all_goals simp_all [Lexeme.isWord, Lexeme.isLiteral, Lexeme.isPunct]

theorem nil_notMem_value_mul {L M : Language Lexeme} : [] ∉ (anyWord * L + literal) * M := by
  rw [add_mul, mul_assoc]
  rintro (⟨_, ⟨l, rfl, -⟩, v, -, he⟩ | ⟨_, ⟨l, rfl, -⟩, v, -, he⟩) <;>
    exact absurd he (List.cons_ne_nil l v)

/-- An equals sign must have a value behind it. -/
theorem mem_chainValue_mul_iff {M : Language Lexeme} :
    rest ∈ (anyWord * chainTail + literal) * M ↔
      (rest.head?.bind Lexeme.valueText?).isSome = true ∧
        rest ∈ 1 + (anyWord * chainTail + literal) * M := by
  cases rest with
  | nil => exact ⟨fun h => absurd h nil_notMem_value_mul, fun h => absurd h.1 (by simp)⟩
  | cons v more =>
    rw [mem_optional, cons_mem_chainValue_mul]
    cases hv : v.kind <;> simp [Lexeme.isWord, Lexeme.isLiteral, Lexeme.valueText?, hv]

/-- **What the reader accepts behind a lexeme.** -/
theorem mem_behind_iff (previous? : Option Lexeme) :
    (entriesAfter? previous? ls).isSome = true ↔ ls ∈ behind previous? := by
  -- The cases are the branches of the reader. In each of them the first lexeme and the one before
  -- it decide, and the rest is read behind the first.
  fun_induction entriesAfter? previous? ls with
  | case1 previous? => simp [nil_mem_behind]
  | case2 previous? l rest text hl ih =>
    rw [ih, cons_mem_behind, hl, behind, Option.map_some, hl]
  | case3 previous? l rest text hl =>
    rw [cons_mem_behind, hl]
    simp
  | case4 previous? l rest text quote keyword hprevious hl ih =>
    rw [Option.isSome_map, ih, cons_mem_behind, hl, hprevious, behind, Option.map_some, hl]
  | case5 previous? l rest text quote hprevious hl ih =>
    rw [ih, cons_mem_behind, hl, hprevious, behind, Option.map_some, hl]
  | case6 previous? l rest text quote hl hword hequals =>
    rw [cons_mem_behind, hl]
    split <;> simp_all
  | case7 previous? l rest keyword hprevious hl value hvalue ih =>
    rw [Option.isSome_map, ih, cons_mem_behind, hl, hprevious, behind, Option.map_some, hl]
    simp only [mem_chainValue_mul_iff, hvalue, Option.isSome_some, true_and]
  | case8 previous? l rest keyword hprevious hl hvalue =>
    rw [cons_mem_behind, hl, hprevious]
    simp only [mem_chainValue_mul_iff, hvalue]
    simp
  | case9 previous? l rest p hprevious hl =>
    rw [cons_mem_behind, hl, hprevious]
    simp
  | case10 previous? l rest kind hkind hprevious hl ih =>
    rw [ih, cons_mem_behind, hl, hprevious, behind, Option.map_some, hl]
    cases kind with
    | punct p => exact absurd rfl (hkind p)
    | _ => rfl
  | case11 previous? l rest p hl hequals hcomma hnocomma =>
    rw [cons_mem_behind, hl]
    split <;> simp_all

/-- At the start of a trailer, lists of chains are accepted. -/
theorem isSome_read?_iff (trailer : List Lexeme) :
    (read? trailer).isSome = true ↔ trailer ∈ listOf chain :=
  mem_behind_iff none

end Reader

/-! ## Lists of options and lists of chains

Every list of options is a list of chains. The converse fails only where a chain goes on behind a
value, and that shows as three lexemes in a row. -/

section Overgiven

variable {l : Lexeme} {rest ls : List Lexeme}

/-- A lexeme stands in front that gives a value to the word before it. -/
def StartsAssignment (ls : List Lexeme) : Prop :=
  ∃ l rest, ls = l :: rest ∧ (l.isPunct .equals = true ∨ l.isLiteral = true)

/-- The pattern starts at the first lexeme or further on. -/
theorem overgiven_cons : Overgiven (l :: rest) ↔
    (l.isPunct .equals = true ∧ ∃ value more, rest = value :: more ∧ value.isWord = true ∧
      StartsAssignment more) ∨ Overgiven rest := by
  constructor
  · rintro ⟨equals, value, own, hinfix, hequals, hvalue, hown⟩
    rcases List.infix_cons_iff.mp hinfix with ⟨more, hprefix⟩ | hinfix
    · cases hprefix
      exact .inl ⟨hequals, value, own :: more, rfl, hvalue, own, more, rfl, hown⟩
    · exact .inr ⟨equals, value, own, hinfix, hequals, hvalue, hown⟩
  · rintro (⟨hequals, value, _, rfl, hvalue, own, more, rfl, hown⟩ | h)
    · exact ⟨l, value, own, ⟨[], more, rfl⟩, hequals, hvalue, hown⟩
    · obtain ⟨equals, value, own, hinfix, hall⟩ := h
      exact ⟨equals, value, own, List.infix_cons hinfix, hall⟩

theorem not_overgiven_nil : ¬Overgiven [] := by
  rintro ⟨equals, value, own, hinfix, -⟩
  exact absurd (List.infix_nil.mp hinfix) (List.cons_ne_nil _ _)

/-- It starts with an equals sign. -/
theorem overgiven_cons_of_not_equals (h : l.isPunct .equals = false) :
    Overgiven (l :: rest) ↔ Overgiven rest := by
  rw [overgiven_cons, h]
  simp

theorem cons_mem_listOf_item : l :: rest ∈ listOf item ↔
    l.isWord = true ∧ rest ∈ assignment (anyWord + literal) * follow item :=
  cons_mem_listOf

/-- The value of an option is one lexeme. -/
theorem cons_mem_itemValue_mul {M : Language Lexeme} : l :: rest ∈ (anyWord + literal) * M ↔
    l.isWord = true ∧ rest ∈ M ∨ l.isLiteral = true ∧ rest ∈ M := by
  rw [add_mul, Language.mem_add, cons_mem_anyWord_mul, cons_mem_literal_mul]

/-- An equals sign starts the pattern if its value is a word and goes on. -/
theorem overgiven_cons_cons {equals : Lexeme} (h : equals.isPunct .equals = true) :
    Overgiven (equals :: l :: rest) ↔
      l.isWord = true ∧ StartsAssignment rest ∨ Overgiven (l :: rest) := by
  rw [overgiven_cons (l := equals), h]
  simp

/-- Behind a value that is a word a chain goes on only where that value is given a value. -/
theorem mem_follow_iff_mem_chainTail_mul : ls ∈ follow chain ↔
    ls ∈ chainTail * follow chain ∧ ¬StartsAssignment ls := by
  cases ls with
  | nil => simp [nil_mem_follow, nil_mem_chainTail_mul, StartsAssignment]
  | cons l rest =>
    have hstarts : StartsAssignment (l :: rest) ↔
        l.isPunct .equals = true ∨ l.isLiteral = true := by
      simp [StartsAssignment]
    -- a lexeme of another class ends the chain, so both languages ask the same of it
    rw [cons_mem_chainTail_mul, cons_mem_follow_chain, hstarts]
    rcases hl : l.kind with text | text | ⟨text, quote⟩ | p
    on_goal 4 => cases p
    all_goals simp [Lexeme.isWord, Lexeme.isLiteral, Lexeme.isPunct, hl]

/-- The two grammars agree but for values that are given a value, wherever the scan stands: at the
start of a list, behind a unit, behind a keyword or behind an equals sign. -/
structure Agree (ls : List Lexeme) : Prop where
  atStart : ls ∈ listOf item ↔ ls ∈ listOf chain ∧ ¬Overgiven ls
  behindUnit : ls ∈ follow item ↔ ls ∈ follow chain ∧ ¬Overgiven ls
  behindKeyword : ls ∈ assignment (anyWord + literal) * follow item ↔
    ls ∈ chainTail * follow chain ∧ ¬Overgiven ls
  behindEquals : ∀ equals : Lexeme, equals.isPunct .equals = true →
    (ls ∈ (anyWord + literal) * follow item ↔
      ls ∈ (anyWord * chainTail + literal) * follow chain ∧ ¬Overgiven (equals :: ls))

/-- At the end of a trailer all four places agree. -/
theorem agree_nil : Agree [] where
  atStart := by simp [nil_mem_listOf, not_overgiven_nil]
  behindUnit := by simp [nil_mem_follow, not_overgiven_nil]
  behindKeyword := by
    have hitem : [] ∈ assignment (anyWord + literal) * follow item :=
      ⟨[], .inl (.inl rfl), [], nil_mem_follow, rfl⟩
    exact iff_of_true hitem ⟨nil_mem_chainTail_mul, not_overgiven_nil⟩
  behindEquals equals _ := by
    have hitem : [] ∉ (anyWord * 1 + literal) * follow item := nil_notMem_value_mul
    rw [mul_one] at hitem
    exact iff_of_false hitem fun h => nil_notMem_value_mul h.1

/-- An equals sign can stand behind a keyword only. -/
theorem Agree.cons_equals (h : Agree rest) (hl : l.isPunct .equals = true) : Agree (l :: rest) := by
  have hkind : l.kind = .punct .equals := Lexeme.kind_of_isPunct hl
  have hword : l.isWord = false := by simp [Lexeme.isWord, hkind]
  have hliteral : l.isLiteral = false := by simp [Lexeme.isLiteral, hkind]
  have hcomma : l.isPunct .comma = false := by simp [Lexeme.isPunct, hkind]
  -- neither grammar has an equals sign where an item may start
  have hitem : l :: rest ∉ follow item := by
    simp [cons_mem_follow, cons_mem_listOf_item, hword, hcomma]
  have hchain : l :: rest ∉ follow chain := by
    simp [cons_mem_follow_chain, hword, hcomma]
  constructor
  · simp [cons_mem_listOf_item, cons_mem_listOf_chain, hword]
  · simp [hitem, hchain]
  · rw [cons_mem_assignment_mul, cons_mem_chainTail_mul, h.behindEquals l hl, hliteral, hl]
    simp [hitem, hchain]
  · intro equals _
    rw [cons_mem_itemValue_mul, cons_mem_chainValue_mul, hword, hliteral]
    simp

/-- Behind any other lexeme the patterns are those of the rest. -/
theorem Agree.cons_other (h : Agree rest) (hl : l.isPunct .equals = false) :
    Agree (l :: rest) := by
  have hovergiven : Overgiven (l :: rest) ↔ Overgiven rest := overgiven_cons_of_not_equals hl
  -- where the overgiven pattern does not begin, both grammars go on in the same way
  have hstart : l :: rest ∈ listOf item ↔ l :: rest ∈ listOf chain ∧ ¬Overgiven (l :: rest) := by
    rw [cons_mem_listOf_item, cons_mem_listOf_chain, h.behindKeyword, hovergiven, and_assoc]
  have hunit : l :: rest ∈ follow item ↔ l :: rest ∈ follow chain ∧ ¬Overgiven (l :: rest) := by
    rw [cons_mem_follow, cons_mem_follow, hstart, h.atStart, hovergiven, or_and_right, and_assoc]
  refine ⟨hstart, hunit, ?_, ?_⟩
  · rw [cons_mem_assignment_mul, cons_mem_chainTail_mul, hunit, h.behindUnit, hovergiven, hl]
    simp only [Bool.false_eq_true, false_and, or_false, or_and_right, and_assoc]
  · intro equals he
    rw [cons_mem_itemValue_mul, cons_mem_chainValue_mul, h.behindUnit, overgiven_cons_cons he,
      hovergiven, mem_follow_iff_mem_chainTail_mul]
    cases hword : l.isWord with
    | true =>
      have hliteral : l.isLiteral = false := by
        cases hkind : l.kind <;> simp_all [Lexeme.isWord, Lexeme.isLiteral]
      simp only [hliteral, Bool.false_eq_true, true_and, false_and, or_false, not_or, and_assoc]
    | false => simp only [Bool.false_eq_true, false_and, false_or, and_assoc]

/-- **Lists of options are lists of chains without an overgiven value.** -/
theorem mem_listOf_item_iff (ls : List Lexeme) :
    ls ∈ listOf item ↔ ls ∈ listOf chain ∧ ¬Overgiven ls := by
  have hagree : Agree ls := by
    induction ls with
    | nil => exact agree_nil
    | cons l rest ih =>
      cases hl : l.isPunct .equals with
      | true => exact ih.cons_equals hl
      | false => exact ih.cons_other hl
  exact hagree.atStart

end Overgiven

/-! ## Trailers

A trailer that is read has words, literals, equals signs and commas only, whatever its grammar. -/

/-- The reader accepts no other lexeme, behind whatever it stands. -/
theorem kind_of_cons_mem_behind {previous? : Option Lexeme} {l : Lexeme} {rest : List Lexeme}
    (h : l :: rest ∈ behind previous?) : l.isWord = true ∨ l.isLiteral = true ∨
      l.isPunct .equals = true ∨ l.isPunct .comma = true := by
  rw [cons_mem_behind] at h
  -- by the four kinds; names and other marks have no place in an option
  cases hl : l.kind with
  | word text => simp [Lexeme.isWord, hl]
  | name text =>
    rw [hl] at h
    exact absurd h (by simp)
  | literal text quote => simp [Lexeme.isLiteral, hl]
  | punct p =>
    rw [hl] at h
    cases p with
    | equals => simp [Lexeme.isPunct, hl]
    | comma => simp [Lexeme.isPunct, hl]
    | _ => exact absurd h (by simp)

/-- A trailer that is read holds no group, no bracket, no dot and no quoted name. -/
theorem kinds_of_entriesAfter? {previous? : Option Lexeme} {trailer : List Lexeme}
    (h : (entriesAfter? previous? trailer).isSome = true) :
    ∀ l ∈ trailer, l.isWord = true ∨ l.isLiteral = true ∨ l.isPunct .equals = true ∨
      l.isPunct .comma = true := by
  induction trailer generalizing previous? with
  | nil => simp
  | cons l rest ih =>
    obtain ⟨entries, hentries⟩ := Option.isSome_iff_exists.mp h
    obtain ⟨-, more, hmore⟩ := entriesAfter?_tail hentries
    intro x hx
    rcases List.mem_cons.mp hx with rfl | hx
    · exact kind_of_cons_mem_behind ((mem_behind_iff previous?).mp h)
    · exact ih (by rw [hmore]; rfl) x hx

/-- **Trailers that are read.** They are the lists of chains. A list of options is one of them, and
the others are those in which a value that is a word is given a value. -/
theorem options_grammatical (trailer : List Lexeme) :
    ((read? trailer).isSome = true ↔ trailer ∈ listOf chain) ∧
      (trailer ∈ listOf item ↔ (read? trailer).isSome = true ∧ ¬Overgiven trailer) ∧
      ((read? trailer).isSome = true → ∀ l ∈ trailer, l.isWord = true ∨ l.isLiteral = true ∨
        l.isPunct .equals = true ∨ l.isPunct .comma = true) := by
  have hread : (read? trailer).isSome = true ↔ trailer ∈ listOf chain := isSome_read?_iff trailer
  refine ⟨hread, ?_, kinds_of_entriesAfter?⟩
  rw [hread, mem_listOf_item_iff]

/-- A table whose storage engine is given a value. -/
def chainedScript : String :=
  "CREATE TABLE t (id INT) ENGINE = InnoDB = x;"

def chainedHeader : List Lexeme :=
  [⟨.word "CREATE", 0, 6, 1⟩, ⟨.word "TABLE", 7, 12, 1⟩, ⟨.word "t", 13, 14, 1⟩,
    ⟨.punct .openParen, 15, 16, 1⟩, ⟨.word "id", 16, 18, 1⟩, ⟨.word "INT", 19, 22, 1⟩,
    ⟨.punct .closeParen, 22, 23, 1⟩]

def chainedTrailer : List Lexeme :=
  [⟨.word "ENGINE", 24, 30, 1⟩, ⟨.punct .equals, 31, 32, 1⟩, ⟨.word "InnoDB", 33, 39, 1⟩,
    ⟨.punct .equals, 40, 41, 1⟩, ⟨.word "x", 42, 43, 1⟩]

/-- The trailer is no list of options, but it is read, and the table with it. -/
theorem options_grammatical_chained :
    Lexeme.ofScript Dialect.mysql chainedScript.toList.toArray =
        .ok (chainedHeader ++ chainedTrailer ++ [⟨.punct .semicolon, 43, 44, 1⟩]) ∧
      readScript Dialect.mysql chainedScript =
        ⟨[{ name := "t", columns := [{ name := "id", type := "INT" }], comment := "",
            startLine := 1, endLine := 1 }], []⟩ ∧
      (read? chainedTrailer).isSome = true ∧ chainedTrailer ∉ listOf item := by
  have hovergiven : Overgiven chainedTrailer :=
    ⟨_, _, _, ⟨chainedTrailer.take 1, chainedTrailer.drop 4, rfl⟩, rfl, rfl, .inl rfl⟩
  have hitem : chainedTrailer ∉ listOf item := fun h =>
    ((options_grammatical chainedTrailer).2.1.mp h).2 hovergiven
  exact ⟨by decide +kernel, by decide +kernel, by decide +kernel, hitem⟩

end TableOptions

end TableDocs.Sql
