import TableDocs.Proofs.Sql.ColumnExtent
import TableDocs.Proofs.Sql.HeaderGrammar
import TableDocs.Proofs.Sql.Slice
import TableDocs.Proofs.Sql.TokenPlaces

/-!
# TableDocs — the grammar of column definitions

A column definition begins with a name and a type. The type is a base word with continuations, a
precision, array suffixes, a time zone and numeric attributes, each of them read as far as it goes.
What stands behind the type is never wrong.

* **`TypeText.grammar`** — the types, told without the readers of their parts.
* **`TypeText.split?_spec`** — the parts that are read in a row are the longest type that stands
  there. No part starts like one that comes before it, so taking a part as far as it goes never
  costs a later one.
* **`ColumnDef.Mismatch`** — the ways in which an item is no column definition, in the order in
  which they are tested.
* **`ColumnDef.read_grammatical`** — an item is refused exactly for these reasons, and what is read
  of any other item is its name and its longest type.
-/

namespace TableDocs.Sql

/-! ## Types

The grammar is that of types as they are written, without a word on how they are read. It is
ambiguous as a set of prefixes, so which of the matches is read has to be said besides: the longest
one. -/

namespace TypeText

open Grammar

open scoped Computability

/-- One word that in upper case is a letter of ASCII or underscore, then word characters. -/
def baseWord : Language Lexeme :=
  {ls | ∃ l text, ls = [l] ∧ l.kind = .word text ∧
    Text.IsRun Text.isPlainNameStart Text.isWordChar (Text.upper text)}

/-- An opening bracket and everything up to the next closing one. -/
def arraySuffix : Language Lexeme :=
  enclosed .openBracket .closeBracket

/-- A time may be given with its zone or without it. -/
def timeZone : Language Lexeme :=
  word ["WITH", "WITHOUT"] * phrase ["TIME", "ZONE"]

/-- A type without what can stand behind its array suffixes. -/
def arrayGrammar : Language Lexeme :=
  baseWord * (word ["VARYING", "PRECISION"])∗ * (1 + parenthesized) * arraySuffix∗

/-- A type: its base word, a precision, array suffixes, a time zone and numeric attributes. -/
def grammar : Language Lexeme :=
  arrayGrammar * (1 + timeZone) * (word ["UNSIGNED", "SIGNED", "ZEROFILL"])∗

/-- An opening bracket stands at the front and no closing one behind it. -/
def Unclosed (ls : List Lexeme) : Prop :=
  ∃ opening rest, ls = opening :: rest ∧ opening.isPunct .openBracket = true ∧
    rest ∈ free .closeBracket

/-- The test of the reader is membership in the language of base words. -/
theorem isBaseWord_iff {l : Lexeme} : isBaseWord l.keyword = true ↔ [l] ∈ baseWord := by
  have hword : [l] ∈ baseWord ↔ ∃ text, l.kind = .word text ∧
      Text.IsRun Text.isPlainNameStart Text.isWordChar (Text.upper text) := by
    constructor
    · rintro ⟨_, text, he, hkind, hrun⟩
      cases he
      exact ⟨text, hkind, hrun⟩
    · rintro ⟨text, hkind, hrun⟩
      exact ⟨l, text, rfl, hkind, hrun⟩
  -- only a word has a text to test; the keyword of other lexemes starts with no letter
  rw [hword, Lexeme.keyword]
  cases l.kind with
  | word text =>
    simp only [LexemeKind.word.injEq, exists_eq_left']
    exact Text.isRun_iff
  | name text => simp [isBaseWord]
  | literal text quote => simp [isBaseWord]
  | punct p => simp [isBaseWord]

theorem prefixFree_baseWord : PrefixFree baseWord := by
  refine prefixFree_of_length 1 ?_
  rintro _ ⟨l, text, rfl, -⟩
  rfl

/-- The three words of a time zone. -/
theorem mem_timeZone {ls : List Lexeme} : ls ∈ timeZone ↔
    ∃ a b c, ls = [a, b, c] ∧ (a.keyword = "WITH" ∨ a.keyword = "WITHOUT") ∧
      b.keyword = "TIME" ∧ c.keyword = "ZONE" := by
  constructor
  · rintro ⟨_, ⟨a, rfl, ha⟩, zone, hzone, rfl⟩
    obtain ⟨b, tail, rfl, hb, htail⟩ := List.map_eq_cons_iff.mp hzone
    obtain ⟨c, tail, rfl, hc, hnil⟩ := List.map_eq_cons_iff.mp htail
    obtain rfl := List.map_eq_nil_iff.mp hnil
    exact ⟨a, b, c, rfl, by simpa using ha, hb, hc⟩
  · rintro ⟨a, b, c, rfl, ha, hb, hc⟩
    exact ⟨[a], ⟨a, rfl, by simpa using ha⟩, [b, c], mem_phrase.mpr (by simp [hb, hc]), rfl⟩

theorem prefixFree_timeZone : PrefixFree timeZone := by
  refine prefixFree_of_length 3 fun u hu => ?_
  obtain ⟨a, b, c, rfl, -⟩ := mem_timeZone.mp hu
  rfl

/-! ### The parts of a type

Each part is taken off by a function of its own, and each of these is greedy: no other match of its
part leaves room for one more unit. -/

/-- Words are taken as long as they belong to the part. -/
theorem greedy_spanWords (ws : List String) (ls : List Lexeme) :
    Greedy (word ws) (word ws)∗ (spanWords ws ls).1 (spanWords ws ls).2 := by
  rw [spanWords, List.span_eq_takeWhile_dropWhile]
  simp only
  induction ls with
  | nil =>
    refine greedy_kstar_nil ?_
    rintro _ ⟨l, rfl, -⟩ hprefix
    exact absurd (List.prefix_nil.mp hprefix) (List.cons_ne_nil l [])
  | cons l ls ih =>
    rw [List.takeWhile_cons, List.dropWhile_cons]
    split
    · next hl => exact greedy_kstar_append (prefixFree_word ws) ⟨l, rfl, by simpa using hl⟩ ih
    · next hl =>
      refine greedy_kstar_nil ?_
      rintro _ ⟨l', rfl, hl'⟩ hprefix
      obtain ⟨rfl, -⟩ := List.cons_prefix_cons.mp hprefix
      -- the first word that is none of them ends the run
      exact absurd hl' (by simpa using hl)

/-- A precision is taken if a closed group stands there. -/
theorem greedy_splitPrecision (ls : List Lexeme) :
    Greedy parenthesized (1 + parenthesized) (splitPrecision ls).1 (splitPrecision ls).2 := by
  rw [splitPrecision]
  split
  · next opening g hg =>
    obtain ⟨-, hopening, hclosed⟩ := Group.read?_extent hg
    refine greedy_optional_of_mem prefixFree_parenthesized ?_ _
    exact mem_parenthesized.mpr ⟨opening, g.inner, g.close, rfl, hopening,
      ⟨hclosed.neverBelow_inner, by simpa using hclosed.depth_inner⟩, hclosed.close_isPunct⟩
  · next hnone =>
    refine greedy_nil ?_
    rintro u hu ⟨rest, rfl⟩
    obtain ⟨opening, inner, close, rfl, hopening, hinner, hclose⟩ := mem_parenthesized.mp hu
    -- a match would have been read as a group
    have hgroup := Group.close?_append (d := 0) (g := ⟨inner, close, []⟩)
      ⟨hclose, by simpa using hinner.2, hinner.1⟩ rest
    simp only at hgroup
    rw [List.cons_append, List.append_assoc, List.singleton_append, Group.read?, if_pos hopening,
      hgroup] at hnone
    exact absurd hnone (by simp)

/-- Behind an open bracket there is no array suffix. -/
theorem not_prefix_of_unclosed {ls : List Lexeme} (h : Unclosed ls) :
    ∀ u ∈ arraySuffix, ¬u <+: ls := by
  obtain ⟨opening, rest, rfl, -, hfree⟩ := h
  rintro u hu ⟨more, he⟩
  obtain ⟨_, inner, close, rfl, -, -, hclose⟩ := mem_enclosed.mp hu
  obtain ⟨-, rfl⟩ := List.cons_eq_cons.mp he
  have := hfree close (by simp)
  rw [hclose] at this
  exact absurd this (by decide)

/-- Array suffixes are taken as long as there are any. What is left begins with a bracket only if
nothing closes it, and then the reader of suffixes gives up. -/
theorem splitArrays?_spec (ls : List Lexeme) :
    ∃ arrays rest, ls = arrays ++ rest ∧ Greedy arraySuffix arraySuffix∗ arrays rest ∧
      ((Unclosed rest ∧ splitArrays? ls = none) ∨
        (¬Unclosed rest ∧ splitArrays? ls = some (arrays, rest))) := by
  -- without a bracket there is no further suffix, and none that is left open
  have hdone : ∀ ls : List Lexeme, Lexeme.startsWith .openBracket ls = false →
      Greedy arraySuffix arraySuffix∗ [] ls ∧ ¬Unclosed ls := by
    intro ls hls
    constructor
    · refine greedy_kstar_nil ?_
      rintro u hu ⟨rest, rfl⟩
      obtain ⟨opening, inner, close, rfl, hopening, -⟩ := mem_enclosed.mp hu
      exact absurd hopening (by simpa [Lexeme.startsWith] using hls)
    · rintro ⟨opening, rest, rfl, hopening, -⟩
      exact absurd hopening (by simpa [Lexeme.startsWith] using hls)
  fun_induction splitArrays? ls with
  | case1 =>
    obtain ⟨hgreedy, hclosed⟩ := hdone [] rfl
    exact ⟨[], [], rfl, hgreedy, .inr ⟨hclosed, rfl⟩⟩
  | case2 l tail hl hnone =>
    have hunclosed : Unclosed (l :: tail) :=
      ⟨l, tail, rfl, hl, Lexeme.isPunct_eq_false_of_splitAt? hnone⟩
    exact ⟨[], l :: tail, rfl, greedy_kstar_nil (not_prefix_of_unclosed hunclosed),
      .inl ⟨hunclosed, rfl⟩⟩
  | case3 l tail hl inner close after hsplit ih =>
    obtain ⟨htail, hclose, hinner⟩ := Lexeme.splitAt?_extent hsplit
    obtain ⟨arrays, rest, rfl, hgreedy, hread⟩ := ih
    have hunit : l :: (inner ++ [close]) ∈ arraySuffix :=
      mem_enclosed.mpr ⟨l, inner, close, rfl, hl, hinner, hclose⟩
    refine ⟨l :: (inner ++ [close]) ++ arrays, rest, by rw [htail]; simp,
      greedy_kstar_append (prefixFree_enclosed _ _) hunit hgreedy, ?_⟩
    rcases hread with ⟨hunclosed, hnone⟩ | ⟨hclosed, hsome⟩
    · exact .inl ⟨hunclosed, by rw [hnone]; rfl⟩
    · exact .inr ⟨hclosed, by rw [hsome]; simp⟩
  | case4 l tail hl =>
    obtain ⟨hgreedy, hclosed⟩ := hdone (l :: tail) (by simpa [Lexeme.startsWith] using hl)
    exact ⟨[], l :: tail, rfl, hgreedy, .inr ⟨hclosed, rfl⟩⟩

/-- A time zone is taken if all three of its words stand there. -/
theorem greedy_splitTimeZone (ls : List Lexeme) :
    Greedy timeZone (1 + timeZone) (splitTimeZone ls).1 (splitTimeZone ls).2 := by
  rw [splitTimeZone.eq_def]
  split
  · next a b c rest =>
    split
    · next h =>
      simp only [Bool.and_eq_true, Bool.or_eq_true, decide_eq_true_eq] at h
      exact greedy_optional_of_mem prefixFree_timeZone
        (mem_timeZone.mpr ⟨a, b, c, rfl, h.1.1, h.1.2, h.2⟩) rest
    · next h =>
      refine greedy_nil ?_
      rintro u hu ⟨more, he⟩
      -- a zone at this place would consist of these three lexemes
      obtain ⟨a', b', c', rfl, ha, hb, hc⟩ := mem_timeZone.mp hu
      simp only [List.cons_append, List.nil_append, List.cons.injEq] at he
      obtain ⟨rfl, rfl, rfl, -⟩ := he
      exact h (by simp [ha, hb, hc])
  · next hshort =>
    refine greedy_nil ?_
    rintro u hu ⟨more, rfl⟩
    obtain ⟨a, b, c, rfl, -⟩ := mem_timeZone.mp hu
    exact hshort a b c more rfl

/-! ### The longest type

Each part behind the base word starts in its own way, and the parts stand in a fixed order. -/

/-- Which of the five parts behind the base word the lexeme can start; none for zero. -/
def stage (l : Lexeme) : Nat :=
  if l.keyword ∈ ["VARYING", "PRECISION"] then 1
  else if l.isPunct .openParen then 2
  else if l.isPunct .openBracket then 3
  else if l.keyword ∈ ["WITH", "WITHOUT"] then 4
  else if l.keyword ∈ ["UNSIGNED", "SIGNED", "ZEROFILL"] then 5
  else 0

/-- What a word can start is told by its keyword. -/
theorem stage_of_keyword {l : Lexeme} {w : String} (h : l.keyword = w) (hw : w ≠ "") :
    stage l =
      if w ∈ ["VARYING", "PRECISION"] then 1
      else if w ∈ ["WITH", "WITHOUT"] then 4
      else if w ∈ ["UNSIGNED", "SIGNED", "ZEROFILL"] then 5
      else 0 := by
  have hmark := Lexeme.isPunct_of_keyword_ne (h ▸ hw)
  rw [stage, h, hmark, hmark]
  simp only [Bool.false_eq_true, if_false]

/-- And what a mark can start by the mark. -/
theorem stage_of_mark {l : Lexeme} {p : Punct} (h : l.isPunct p = true) :
    stage l = if p = .openParen then 2 else if p = .openBracket then 3 else 0 := by
  have hkind := Lexeme.kind_of_isPunct h
  rw [stage, Lexeme.keyword_of_isPunct h, Lexeme.isPunct, Lexeme.isPunct, hkind]
  simp

theorem startsIn_stage_word {n : Nat} {ws : List String}
    (hws : ∀ w ∈ ws, ∀ l : Lexeme, l.keyword = w → stage l = n) :
    StartsIn {l | stage l = n} (word ws) :=
  startsIn_word.mono fun l hl => hws _ hl l rfl

/-- What starts with a later part is told from the units of an earlier one. -/
theorem apart_of_stage {n : Nat} {U M : Language Lexeme} (hU : StartsIn {l | stage l = n} U)
    (hnil : [] ∉ U) (hM : StartsIn {l | n < stage l} M) : Apart U M :=
  apart_of_startsIn hU hnil (hM.mono fun _ hlt heq => Nat.ne_of_gt hlt heq)

/-- Continuations of the base word come first. -/
theorem startsIn_continuation :
    StartsIn {l | stage l = 1} (word ["VARYING", "PRECISION"]) := by
  refine startsIn_stage_word fun w hw l hl => ?_
  rw [stage_of_keyword hl (by rintro rfl; exact absurd hw (by decide)), if_pos hw]

theorem startsIn_parenthesized : StartsIn {l | stage l = 2} parenthesized :=
  startsIn_between.mono fun _ hl => stage_of_mark hl

theorem startsIn_arraySuffix : StartsIn {l | stage l = 3} arraySuffix :=
  startsIn_between.mono fun _ hl => stage_of_mark hl

theorem startsIn_timeZone : StartsIn {l | stage l = 4} timeZone := by
  refine StartsIn.mul_right (startsIn_stage_word ?_) (nil_notMem_word _)
  simp only [List.mem_cons, List.not_mem_nil, or_false]
  rintro w (rfl | rfl) l hl <;> exact stage_of_keyword hl (by decide)

/-- Numeric attributes come last. -/
theorem startsIn_numeric :
    StartsIn {l | stage l = 5} (word ["UNSIGNED", "SIGNED", "ZEROFILL"]) := by
  refine startsIn_stage_word ?_
  simp only [List.mem_cons, List.not_mem_nil, or_false]
  rintro w (rfl | rfl | rfl) l hl <;> exact stage_of_keyword hl (by decide)

/-- The longest type up to its array suffixes, and behind them the longest of what can only come
later. -/
theorem longest_arrayGrammar_mul {M : Language Lexeme} {base : Lexeme}
    {ls arrays rest q : List Lexeme} (hbase : [base] ∈ baseWord)
    (hsplit : (splitPrecision (spanWords ["VARYING", "PRECISION"] ls).2).2 = arrays ++ rest)
    (harrays : Greedy arraySuffix arraySuffix∗ arrays rest) (hM : StartsIn {l | 3 < stage l} M)
    (hq : Longest M rest q) :
    Longest (arrayGrammar * M) (base :: ls)
      (base :: (spanWords ["VARYING", "PRECISION"] ls).1 ++
        (splitPrecision (spanWords ["VARYING", "PRECISION"] ls).2).1 ++ arrays ++ q) := by
  have hcontinuations := greedy_spanWords ["VARYING", "PRECISION"] ls
  have hprecision := greedy_splitPrecision (spanWords ["VARYING", "PRECISION"] ls).2
  -- from the last part to the first, each in front of what can only come later
  have h3 : Longest (arraySuffix∗ * M) (arrays ++ rest) (arrays ++ q) :=
    harrays.longest_mul hq (apart_of_stage startsIn_arraySuffix (nil_notMem_between _ _ _) hM)
  have hM3 : StartsIn {l | 2 < stage l} (arraySuffix∗ * M) :=
    (startsIn_arraySuffix.kstar.mono fun _ h => Nat.lt_of_lt_of_eq (by decide) h.symm).mul
      (hM.mono fun _ h => Nat.lt_trans (by decide) h)
  rw [← hsplit] at h3
  have h2 := hprecision.longest_mul h3
    (apart_of_stage startsIn_parenthesized (nil_notMem_between _ _ _) hM3)
  have hM2 : StartsIn {l | 1 < stage l} ((1 + parenthesized) * (arraySuffix∗ * M)) :=
    (startsIn_parenthesized.optional.mono fun _ h => Nat.lt_of_lt_of_eq (by decide) h.symm).mul
      (hM3.mono fun _ h => Nat.lt_trans (by decide) h)
  rw [← splitPrecision_extent] at h2
  have h1 := hcontinuations.longest_mul h2
    (apart_of_stage startsIn_continuation (nil_notMem_word _) hM2)
  rw [← spanWords_extent] at h1
  have h0 := Longest.unit_mul prefixFree_baseWord hbase h1
  simp only [arrayGrammar, mul_assoc, List.cons_append, List.append_assoc]
  exact h0

/-- **The reader of types reads the longest type.** It gives up only at a bracket behind the base
word, the precision and complete array suffixes that nothing closes. -/
theorem split?_spec {base : Lexeme} (hbase : [base] ∈ baseWord) (ls : List Lexeme) :
    ∃ front rest, base :: ls = front ++ rest ∧ Longest arrayGrammar (base :: ls) front ∧
      ((Unclosed rest ∧ split? base ls = none) ∨
        (¬Unclosed rest ∧ ∃ type attributes, split? base ls = some (type, attributes) ∧
          Longest grammar (base :: ls) type)) := by
  obtain ⟨arrays, rest, hsplit, harrays, hread⟩ :=
    splitArrays?_spec (splitPrecision (spanWords ["VARYING", "PRECISION"] ls).2).2
  have hfront : Longest arrayGrammar (base :: ls)
      (base :: (spanWords ["VARYING", "PRECISION"] ls).1 ++
        (splitPrecision (spanWords ["VARYING", "PRECISION"] ls).2).1 ++ arrays) := by
    -- with nothing behind the array suffixes, their longest match is all there is
    have hone : Longest 1 rest [] :=
      ⟨Language.nil_mem_one, List.nil_prefix, fun q hq _ => by rw [(Language.mem_one q).mp hq]⟩
    have h := longest_arrayGrammar_mul hbase hsplit harrays
      (fun l ls hl => absurd ((Language.mem_one _).mp hl) (List.cons_ne_nil l ls)) hone
    rwa [mul_one, List.append_nil] at h
  refine ⟨_, rest, ?_, hfront, ?_⟩
  · have hwords := spanWords_extent ["VARYING", "PRECISION"] ls
    have hprecision := splitPrecision_extent (spanWords ["VARYING", "PRECISION"] ls).2
    rw [hsplit] at hprecision
    simp only [List.cons_append, List.append_assoc]
    rw [← hprecision, ← hwords]
  · rcases hread with ⟨hunclosed, hnone⟩ | ⟨hclosed, hsome⟩
    · exact .inl ⟨hunclosed, by rw [split?]; simp only [hnone, Option.map_none]⟩
    · refine .inr ⟨hclosed, _, _, by rw [split?]; simp only [hsome, Option.map_some]; rfl, ?_⟩
      -- behind the array suffixes come the zone and the numeric attributes, each of a later stage
      have hzone := greedy_splitTimeZone rest
      have hnumeric := greedy_spanWords ["UNSIGNED", "SIGNED", "ZEROFILL"] (splitTimeZone rest).2
      have hM5 : StartsIn {l | 4 < stage l} (word ["UNSIGNED", "SIGNED", "ZEROFILL"])∗ :=
        startsIn_numeric.kstar.mono fun _ h => Nat.lt_of_lt_of_eq (by decide) h.symm
      have hM4 : StartsIn {l | 3 < stage l}
          ((1 + timeZone) * (word ["UNSIGNED", "SIGNED", "ZEROFILL"])∗) :=
        (startsIn_timeZone.optional.mono fun _ h => Nat.lt_of_lt_of_eq (by decide) h.symm).mul
          (hM5.mono fun _ h => Nat.lt_trans (by decide) h)
      have h5 := hnumeric.longest
      rw [← spanWords_extent] at h5
      have h4 := hzone.longest_mul h5 (apart_of_stage startsIn_timeZone
        (fun h => by obtain ⟨a, b, c, hnil, -⟩ := mem_timeZone.mp h; cases hnil) hM5)
      rw [← splitTimeZone_extent] at h4
      have h := longest_arrayGrammar_mul hbase hsplit harrays hM4 h4
      rw [grammar, mul_assoc]
      simpa only [List.cons_append, List.append_assoc] using h

/-- The text of a type of a script is not empty: it begins with a word. -/
theorem normalize_ne_nil {dialect : Dialect} {script : Array Char} {ls type : List Lexeme}
    (hls : Lexeme.ofScript dialect script = .ok ls) (htype : type ∈ grammar) (hsub : type ⊆ ls) :
    normalize script type ≠ [] := by
  obtain ⟨_, ⟨_, ⟨_, ⟨_, ⟨_, ⟨base, text, rfl, hbase, -⟩, _, -, rfl⟩, _, -, rfl⟩, _, -, rfl⟩, _, -,
    rfl⟩, _, -, rfl⟩ := htype
  have hmem : base ∈ ls := hsub (by simp)
  have hstart := Lexeme.start_lt_of_ofScript hls base hmem (by rw [Lexeme.isWord, hbase])
  have hstop := Lexeme.stop_le_of_ofScript hls base hmem
  simp only [List.cons_append, List.nil_append, normalize]
  exact List.append_ne_nil_of_left_ne_nil (slice_ne_nil hstart hstop) _

end TypeText

/-! ## Definitions

The tests of the reader are made in order, and each is the negation of what the grammar asks for. So
a refusal names the first thing that is missing. -/

namespace ColumnDef

open Grammar

/-- The ways in which an item is no column definition. Each one says that those above it do not
apply. -/
inductive Mismatch (item : List Lexeme) : String → Prop
  | parentheses (hbalanced : item ∉ balanced) : Mismatch item "unbalanced parentheses"
  | name (hbalanced : item ∈ balanced)
      (hname : ∀ part name, Name.Part (· ≠ "") part name → ¬part <+: item) :
      Mismatch item "not a column identifier"
  | type {part behind : List Lexeme} {name : String} (hbalanced : item ∈ balanced)
      (hitem : item = part ++ behind) (hname : Name.Part (· ≠ "") part name)
      (htype : ∀ base ∈ TypeText.baseWord, ¬base <+: behind) : Mismatch item "missing column type"
  | brackets {part type rest : List Lexeme} {name : String} (hbalanced : item ∈ balanced)
      (hitem : item = part ++ (type ++ rest)) (hname : Name.Part (· ≠ "") part name)
      (htype : Longest TypeText.arrayGrammar (type ++ rest) type)
      (hrest : TypeText.Unclosed rest) : Mismatch item "unbalanced brackets"

/-! ### What is read of an item

One equation for each outcome, with the condition in terms of the grammar. -/

section Read

variable {script : Array Char} {keys : List String} {item part behind : List Lexeme} {name : String}

/-- Parentheses come first: where they do not balance, nothing else is looked at. -/
theorem read_of_unbalanced (h : item ∉ balanced) :
    read script keys item = .error .unbalancedParentheses := by
  rw [read, if_pos]
  simpa using fun hb => h (Group.balanced_iff.mp hb)

/-- Without a name at the front there is no column. -/
theorem read_of_no_name (hbalanced : item ∈ balanced)
    (h : ∀ part name, Name.Part (· ≠ "") part name → ¬part <+: item) :
    read script keys item = .error .noColumnName := by
  rw [read, Group.balanced_iff.mpr hbalanced]
  cases hfront : Name.read? item with
  | none => rfl
  | some found =>
    obtain ⟨part, hitem, hspelling⟩ := Name.read?_spelling hfront
    exact absurd ⟨found.2, hitem.symm⟩ (h part _ (Name.spelling_iff_part.mp hspelling))

/-- Behind the name a base word has to stand. -/
theorem read_of_no_type (hbalanced : part ++ behind ∈ balanced)
    (hname : Name.Part (· ≠ "") part name) (h : ∀ base ∈ TypeText.baseWord, ¬base <+: behind) :
    read script keys (part ++ behind) = .error .noColumnType := by
  rw [read, Group.balanced_iff.mpr hbalanced,
    Name.read?_of_spelling (Name.spelling_iff_part.mpr hname) behind]
  cases behind with
  | nil => rfl
  | cons base rest =>
    have hword : TypeText.isBaseWord base.keyword = false := by
      rw [← Bool.not_eq_true]
      exact fun hword => h [base] (TypeText.isBaseWord_iff.mp hword) ⟨rest, rfl⟩
    simp [hword]

/-- A bracket that nothing closes is the last way to fail. -/
theorem read_of_no_split {base : Lexeme} {rest : List Lexeme}
    (hbalanced : part ++ base :: rest ∈ balanced) (hname : Name.Part (· ≠ "") part name)
    (hbase : [base] ∈ TypeText.baseWord) (h : TypeText.split? base rest = none) :
    read script keys (part ++ base :: rest) = .error .unbalancedBrackets :=
  read_of_unclosed (Group.balanced_iff.mpr hbalanced)
    (Name.read?_of_spelling (Name.spelling_iff_part.mpr hname) (base :: rest))
    (TypeText.isBaseWord_iff.mpr hbase) h

/-- Where a type can be split off, a column is read. -/
theorem read_of_split {base : Lexeme} {rest type attributes : List Lexeme}
    (hbalanced : part ++ base :: rest ∈ balanced) (hname : Name.Part (· ≠ "") part name)
    (hbase : [base] ∈ TypeText.baseWord)
    (h : TypeText.split? base rest = some (type, attributes)) :
    ∃ column, read script keys (part ++ base :: rest) = .ok column ∧ column.name = name ∧
      column.type = String.ofList (TypeText.normalize script type) :=
  ⟨_, read_of_closed (Group.balanced_iff.mpr hbalanced)
    (Name.read?_of_spelling (Name.spelling_iff_part.mpr hname) (base :: rest))
    (TypeText.isBaseWord_iff.mpr hbase) h, rfl, rfl⟩

end Read

/-- **An item is refused for a mismatch, or read as a name and the longest type behind it.** -/
theorem read_spec (script : Array Char) (keys : List String) (item : List Lexeme) :
    (∃ cause, read script keys item = .error cause ∧ Mismatch item cause.reason) ∨
      ∃ column, read script keys item = .ok column ∧ ∃ part behind type, item = part ++ behind ∧
        Name.Part (· ≠ "") part column.name ∧ Longest TypeText.grammar behind type ∧
          column.type = String.ofList (TypeText.normalize script type) := by
  by_cases hbalanced : item ∈ balanced
  -- the four exits in their order, then the column; each one assumes that those before it were not
  -- taken
  swap
  · exact .inl ⟨_, read_of_unbalanced hbalanced, .parentheses hbalanced⟩
  by_cases hnamed : ∃ part name, Name.Part (· ≠ "") part name ∧ part <+: item
  swap
  · have hname : ∀ part name, Name.Part (· ≠ "") part name → ¬part <+: item :=
      fun part name hpart hprefix => hnamed ⟨part, name, hpart, hprefix⟩
    exact .inl ⟨_, read_of_no_name hbalanced hname, .name hbalanced hname⟩
  obtain ⟨part, name, hname, behind, rfl⟩ := hnamed
  by_cases htyped : ∃ base ∈ TypeText.baseWord, base <+: behind
  swap
  · have htype : ∀ base ∈ TypeText.baseWord, ¬base <+: behind :=
      fun base hbase hprefix => htyped ⟨base, hbase, hprefix⟩
    exact .inl ⟨_, read_of_no_type hbalanced hname htype, .type hbalanced rfl hname htype⟩
  obtain ⟨_, ⟨base, text, rfl, hbase⟩, rest, rfl⟩ := htyped
  have hbase : [base] ∈ TypeText.baseWord := ⟨base, text, rfl, hbase⟩
  obtain ⟨front, behind, hsplit, hlongest, hread⟩ := TypeText.split?_spec hbase rest
  rcases hread with ⟨hunclosed, hnone⟩ | ⟨-, type, attributes, hsome, htype⟩
  · rw [hsplit] at hlongest
    exact .inl ⟨_, read_of_no_split hbalanced hname hbase hnone,
      .brackets hbalanced (congrArg (part ++ ·) hsplit) hname hlongest hunclosed⟩
  · obtain ⟨column, hcolumn, hcname, hctype⟩ := read_of_split hbalanced hname hbase hsome
    exact .inr ⟨column, hcolumn, part, base :: rest, type, rfl, hcname ▸ hname, htype, hctype⟩

/-- Every mismatch is noticed, and no other comes before it. -/
theorem Mismatch.read_eq {item : List Lexeme} {reason : String} (h : Mismatch item reason)
    (script : Array Char) (keys : List String) :
    ∃ cause, read script keys item = .error cause ∧ cause.reason = reason := by
  cases h with
  | parentheses hbalanced => exact ⟨_, read_of_unbalanced hbalanced, rfl⟩
  | name hbalanced hname => exact ⟨_, read_of_no_name hbalanced hname, rfl⟩
  | type hbalanced hitem hname htype =>
    subst hitem
    exact ⟨_, read_of_no_type hbalanced hname htype, rfl⟩
  | @brackets part type rest name hbalanced hitem hname htype hrest =>
    -- the type up to its array suffixes begins with a base word
    obtain ⟨base, more, hbehind, hbase⟩ :
        ∃ base more, type ++ rest = base :: more ∧ [base] ∈ TypeText.baseWord := by
      obtain ⟨_, ⟨_, ⟨_, ⟨base, text, rfl, hbase⟩, _, -, rfl⟩, _, -, rfl⟩, _, -, rfl⟩ := htype.mem
      exact ⟨base, _, rfl, base, text, rfl, hbase⟩
    rw [hbehind] at hitem htype
    subst hitem
    obtain ⟨front, behind, hsplit, hlongest, hread⟩ := TypeText.split?_spec hbase more
    -- there is one longest match, so it is the one that the reader took
    obtain rfl := htype.unique hlongest
    obtain rfl := List.append_cancel_left (hbehind.trans hsplit)
    rcases hread with ⟨-, hnone⟩ | ⟨hclosed, -⟩
    · exact ⟨_, read_of_no_split hbalanced hname hbase hnone, rfl⟩
    · exact absurd hrest hclosed

/-- **Columns are those of the grammar.** An item is refused for one of four reasons, the first one
that applies. Any other item begins with a name, and the text of its type is that of the longest
type behind the name. Neither is empty, if the item stands in the script. -/
theorem read_grammatical (script : Array Char) (keys : List String) (item : List Lexeme) :
    (∀ reason, (∃ cause, read script keys item = .error cause ∧ cause.reason = reason) ↔
        Mismatch item reason) ∧
      ∀ column, read script keys item = .ok column →
        ∃ part behind type, item = part ++ behind ∧ Name.Part (· ≠ "") part column.name ∧
          Longest TypeText.grammar behind type ∧
          column.type = String.ofList (TypeText.normalize script type) ∧ column.name ≠ "" ∧
          ∀ (dialect : Dialect) ls, Lexeme.ofScript dialect script = .ok ls → item ⊆ ls →
            column.type ≠ "" := by
  have hspec := read_spec script keys item
  constructor
  · intro reason
    constructor
    · rintro ⟨cause, hread, rfl⟩
      rcases hspec with ⟨cause', hread', hmismatch⟩ | ⟨column, hread', -⟩
      -- a reading has one result, so the reason is the one of the mismatch
      · obtain rfl : cause = cause' := Except.error.inj (hread.symm.trans hread')
        exact hmismatch
      · exact absurd (hread.symm.trans hread') (by simp)
    · exact fun h => h.read_eq script keys
  · intro column hread
    rcases hspec with ⟨cause, hread', -⟩ | ⟨column', hread', part, behind, type, hitem, hname,
      htype, htext⟩
    · exact absurd (hread.symm.trans hread') (by simp)
    · obtain rfl : column = column' := Except.ok.inj (hread.symm.trans hread')
      refine ⟨part, behind, type, hitem, hname, htype, htext, hname.ne_empty, ?_⟩
      intro dialect ls hls hsub hempty
      -- the type is a stretch of the item, and no lexeme of a script is empty
      have hprefix : type ⊆ ls := fun l hl =>
        hsub (by rw [hitem]; exact List.mem_append_right part (htype.isPrefix.subset hl))
      rw [htext, String.ofList_eq_empty_iff] at hempty
      exact TypeText.normalize_ne_nil hls htype.mem hprefix hempty

/-- A column whose type has a precision, an array suffix and a time zone. -/
def momentScript : String :=
  "at TIMESTAMP(6)[2] WITH TIME ZONE NOT NULL"

def momentItem : List Lexeme :=
  [⟨.word "at", 0, 2, 1⟩, ⟨.word "TIMESTAMP", 3, 12, 1⟩, ⟨.punct .openParen, 12, 13, 1⟩,
    ⟨.word "6", 13, 14, 1⟩, ⟨.punct .closeParen, 14, 15, 1⟩, ⟨.punct .openBracket, 15, 16, 1⟩,
    ⟨.word "2", 16, 17, 1⟩, ⟨.punct .closeBracket, 17, 18, 1⟩, ⟨.word "WITH", 19, 23, 1⟩,
    ⟨.word "TIME", 24, 28, 1⟩, ⟨.word "ZONE", 29, 33, 1⟩, ⟨.word "NOT", 34, 37, 1⟩,
    ⟨.word "NULL", 38, 42, 1⟩]

def momentColumn : Column where
  name := "at"
  type := "TIMESTAMP(6)[2] WITH TIME ZONE"
  nullable := false

/-- The type goes up to the time zone, and the attribute behind it does not belong to it. -/
theorem read_grammatical_moment :
    Lexeme.ofScript Dialect.postgres momentScript.toList.toArray = .ok momentItem ∧
      read momentScript.toList.toArray [] momentItem = .ok momentColumn ∧
      (∃ part behind type, momentItem = part ++ behind ∧
        Name.Part (· ≠ "") part momentColumn.name ∧ Longest TypeText.grammar behind type ∧
        momentColumn.type =
          String.ofList (TypeText.normalize momentScript.toList.toArray type)) ∧
      momentColumn.type ≠ "" := by
  have hls : Lexeme.ofScript Dialect.postgres momentScript.toList.toArray = .ok momentItem := by
    decide +kernel
  have hread : read momentScript.toList.toArray [] momentItem = .ok momentColumn := by
    decide +kernel
  obtain ⟨part, behind, type, hitem, hname, htype, htext, -, hne⟩ :=
    (read_grammatical momentScript.toList.toArray [] momentItem).2 momentColumn hread
  exact ⟨hls, hread, ⟨part, behind, type, hitem, hname, htype, htext⟩,
    hne .postgres momentItem hls (List.Subset.refl momentItem)⟩

end ColumnDef

end TableDocs.Sql
