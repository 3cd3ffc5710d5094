import TableDocs.Proofs.Sql.OptionGrammar
import TableDocs.Proofs.Sql.ScanAccount

/-!
# TableDocs — the comment of a table

The comment of a table is one of its options. A trailer that is written as a list of options tells
which: the first one with the keyword `COMMENT` that has a value.

* **`Item`**, **`Written`** — options with their keywords and values, and the trailers that they are
  written as. These are the lists of options of the grammar (`exists_written_iff`).
* **`entriesAfter?_append_of_spells`** — an option is read alike wherever it stands: it gives the
  entry that it says, and leaves behind a lexeme that is no mark.
* **`read?_of_written`** — so each trailer that is written as options is read as those that have
  values, and a value is never read as a keyword.
* **`comment_of_options`** — the definition with such a trailer is accepted, and its comment is that
  of its options.
-/

namespace TableDocs.Sql.TableOptions

open Grammar

open scoped Computability

/-! ## Options

An option as it is written keeps its keyword in the spelling of the script. What the reader keeps of
it has the keyword in upper case, and options without a value leave nothing. -/

/-- An option as it is written. -/
structure Item where
  keyword : String
  value? : Option String
  deriving DecidableEq, Repr

namespace Item

/-- The lexemes that an option is written as. -/
inductive Spells : Item → List Lexeme → Prop
  | bare {l : Lexeme} {keyword : String} (hl : l.kind = .word keyword) : Spells ⟨keyword, none⟩ [l]
  | literal {l v : Lexeme} {keyword text : String} {quote : Char} (hl : l.kind = .word keyword)
      (hv : v.kind = .literal text quote) : Spells ⟨keyword, some text⟩ [l, v]
  | assigned {l equals v : Lexeme} {keyword text : String} (hl : l.kind = .word keyword)
      (hequals : equals.isPunct .equals = true) (hv : v.valueText? = some text) :
      Spells ⟨keyword, some text⟩ [l, equals, v]

/-- What the reader of a trailer keeps of an option. -/
def entries (i : Item) : List Entry :=
  (i.value?.map fun value => ⟨Text.upper i.keyword, value⟩).toList

/-- The comment that an option gives to its table. -/
def comment? (i : Item) : Option String :=
  if Text.upper i.keyword = "COMMENT" then i.value? else none

end Item

/-- The lexemes that options are written as, with a comma between two of them or not and one more
behind the last or not. -/
inductive Written : List Item → List Lexeme → Prop
  | nil : Written [] []
  | next {i : Item} {items : List Item} {s ls : List Lexeme} (hs : i.Spells s)
      (h : Written items ls) : Written (i :: items) (s ++ ls)
  | comma {i : Item} {items : List Item} {s ls : List Lexeme} {c : Lexeme} (hs : i.Spells s)
      (hc : c.isPunct .comma = true) (h : Written items ls) : Written (i :: items) (s ++ c :: ls)

/-- The first comment that the options give, and the empty text where there is none. -/
def firstComment (items : List Item) : String :=
  (items.findSome? Item.comment?).getD ""

/-! ### The grammar of options

That a trailer is in the language of the grammar says that there are such options. Which ones is a
choice: a literal may belong to the keyword before it, a word may be a value or an option of its
own. -/

section Grammars

variable {l : Lexeme} {s trailer : List Lexeme}

theorem exists_kind_of_isWord (h : l.isWord = true) : ∃ text, l.kind = .word text := by
  cases hl : l.kind <;> simp_all [Lexeme.isWord]

theorem exists_kind_of_isLiteral (h : l.isLiteral = true) :
    ∃ text quote, l.kind = .literal text quote := by
  cases hl : l.kind <;> simp_all [Lexeme.isLiteral]

/-- A value is a word or a literal. -/
theorem valueText?_eq_some_iff {text : String} : l.valueText? = some text ↔
    l.kind = .word text ∨ ∃ quote, l.kind = .literal text quote := by
  cases hl : l.kind <;> simp [Lexeme.valueText?, hl]

/-- The spellings of options are the units of the grammar. -/
theorem exists_spells_iff : (∃ i : Item, i.Spells s) ↔ s ∈ item := by
  constructor
  · rintro ⟨i, hs⟩
    cases hs with
    | @bare l keyword hl =>
      exact cons_mem_anyWord_mul.mpr ⟨by simp [Lexeme.isWord, hl], .inl (.inl rfl)⟩
    | @literal l v keyword text quote hl hv =>
      refine cons_mem_anyWord_mul.mpr ⟨by simp [Lexeme.isWord, hl], .inl (.inr ?_)⟩
      exact ⟨v, rfl, by simp [Lexeme.isLiteral, hv]⟩
    | @assigned l equals v keyword text hl hequals hv =>
      refine cons_mem_anyWord_mul.mpr ⟨by simp [Lexeme.isWord, hl], .inr ?_⟩
      refine cons_mem_mark_mul.mpr ⟨hequals, ?_⟩
      rcases valueText?_eq_some_iff.mp hv with hv | ⟨quote, hv⟩
      · exact .inl ⟨v, rfl, by simp [Lexeme.isWord, hv]⟩
      · exact .inr ⟨v, rfl, by simp [Lexeme.isLiteral, hv]⟩
  · rintro ⟨_, ⟨l, rfl, hl⟩, tail, htail, rfl⟩
    obtain ⟨keyword, hl⟩ := exists_kind_of_isWord hl
    -- the grammar has the same three forms, so each word of it spells one item
    rcases htail with (rfl | ⟨v, rfl, hv⟩) | ⟨_, ⟨equals, rfl, hequals⟩, _, hvalue, rfl⟩
    · exact ⟨_, .bare hl⟩
    · obtain ⟨text, quote, hv⟩ := exists_kind_of_isLiteral hv
      exact ⟨_, .literal hl hv⟩
    · rcases hvalue with ⟨v, rfl, hv⟩ | ⟨v, rfl, hv⟩
      · obtain ⟨text, hv⟩ := exists_kind_of_isWord hv
        exact ⟨_, .assigned hl hequals (valueText?_eq_some_iff.mpr (.inl hv))⟩
      · obtain ⟨text, quote, hv⟩ := exists_kind_of_isLiteral hv
        exact ⟨_, .assigned hl hequals (valueText?_eq_some_iff.mpr (.inr ⟨quote, hv⟩))⟩

theorem Item.Spells.ne_nil {i : Item} (h : i.Spells s) : s ≠ [] := by
  cases h <;> exact List.cons_ne_nil _ _

/-- What follows a unit is a list of units, with a comma in front of it or not. -/
theorem mem_follow {unit : Language Lexeme} : s ∈ follow unit ↔
    s ∈ listOf unit ∨ ∃ c ls, s = c :: ls ∧ c.isPunct .comma = true ∧ ls ∈ listOf unit := by
  cases s with
  | nil => simp [nil_mem_follow, nil_mem_listOf]
  | cons l rest =>
    rw [cons_mem_follow]
    simp

/-- **Trailers that are written as options are those of the grammar.** -/
theorem exists_written_iff : (∃ items, Written items trailer) ↔ trailer ∈ listOf item := by
  constructor
  · rintro ⟨items, h⟩
    induction h with
    | nil => exact nil_mem_listOf
    | next hs _ ih =>
      rw [listOf_eq]
      exact .inr ⟨_, exists_spells_iff.mp ⟨_, hs⟩, _, mem_follow.mpr (.inl ih), rfl⟩
    | comma hs hc _ ih =>
      rw [listOf_eq]
      have hrest := mem_follow.mpr (.inr ⟨_, _, rfl, hc, ih⟩)
      exact .inr ⟨_, exists_spells_iff.mp ⟨_, hs⟩, _, hrest, rfl⟩
  · intro h
    -- on the length of the trailer, since the language says nothing of how its words are put
    -- together
    induction hlength : trailer.length using Nat.strongRecOn generalizing trailer with
    | ind n ih =>
      rw [listOf_eq, mem_optional] at h
      rcases h with rfl | ⟨s, hs, rest, hrest, rfl⟩
      · exact ⟨[], .nil⟩
      · obtain ⟨i, hs⟩ := exists_spells_iff.mpr hs
        have hpos := List.length_pos_iff.mpr hs.ne_nil
        rw [List.length_append] at hlength
        rcases mem_follow.mp hrest with hrest | ⟨c, ls, rfl, hc, hls⟩
        · obtain ⟨items, hitems⟩ := ih _ (by omega) hrest rfl
          exact ⟨i :: items, .next hs hitems⟩
        · rw [List.length_cons] at hlength
          obtain ⟨items, hitems⟩ := ih _ (by omega) hls rfl
          exact ⟨i :: items, .comma hs hc hitems⟩

end Grammars

/-! ## Reading

The reader goes through options one by one. In front of each it knows one lexeme of the previous
option, which is no mark, so nothing it knows matters. -/

section Reading

variable {i : Item} {items : List Item} {s trailer : List Lexeme}

/-- **An option is read alike wherever it stands.** -/
theorem entriesAfter?_append_of_spells (hs : i.Spells s) (previous? : Option Lexeme)
    (rest : List Lexeme) : ∃ last : Lexeme, last.isMark = false ∧
      entriesAfter? previous? (s ++ rest) =
        (entriesAfter? (some last) rest).map (i.entries ++ ·) := by
  cases hs with
  -- Each form gives its entry, or none, and ends in a lexeme that is no mark.
  | @bare l keyword hl =>
    refine ⟨l, by simp [Lexeme.isMark, hl], ?_⟩
    simp [entriesAfter?, hl, Item.entries]
  | @literal l v keyword text quote hl hv =>
    refine ⟨v, by simp [Lexeme.isMark, hv], ?_⟩
    simp [entriesAfter?, hl, hv, Item.entries]
  | @assigned l equals v keyword text hl hequals hv =>
    have hequals := Lexeme.kind_of_isPunct hequals
    refine ⟨v, ?_, ?_⟩
    · rcases valueText?_eq_some_iff.mp hv with hv | ⟨quote, hv⟩ <;> simp [Lexeme.isMark, hv]
    · rcases valueText?_eq_some_iff.mp hv with hkind | ⟨quote, hkind⟩ <;>
        simp [entriesAfter?, hl, hequals, hkind, hv, Item.entries]

/-- Options are read as what each of them says, in order. -/
theorem entriesAfter?_of_written (h : Written items trailer) (previous? : Option Lexeme) :
    entriesAfter? previous? trailer = some (items.flatMap Item.entries) := by
  induction h generalizing previous? with
  | nil => rfl
  | @next i items s ls hs _ ih =>
    obtain ⟨last, -, hread⟩ := entriesAfter?_append_of_spells hs previous? ls
    rw [hread, ih, Option.map_some, List.flatMap_cons]
  | @comma i items s ls c hs hc _ ih =>
    obtain ⟨last, hlast, hread⟩ := entriesAfter?_append_of_spells hs previous? (c :: ls)
    -- behind an option a comma is passed
    have hcomma : entriesAfter? (some last) (c :: ls) = entriesAfter? (some c) ls := by
      cases hkind : last.kind <;>
        simp_all [entriesAfter?, Lexeme.isMark, Lexeme.kind_of_isPunct hc]
    rw [hread, hcomma, ih, Option.map_some, List.flatMap_cons]

/-- So is a trailer that is written as options. -/
theorem read?_of_written (h : Written items trailer) :
    read? trailer = some (items.flatMap Item.entries) :=
  entriesAfter?_of_written h none

end Reading

/-! ## Comments

The comment is looked up among the entries by its keyword. The look-up takes the first entry, so
further comments have no effect, and neither have options that are no comments. -/

section Comments

variable {items front back : List Item} {trailer : List Lexeme}

/-- The look-up finds the first comment that an option gives. -/
theorem value?_entries (items : List Item) :
    value? "COMMENT" (items.flatMap Item.entries) = items.findSome? Item.comment? := by
  induction items with
  | nil => rfl
  | cons i items ih =>
    rw [List.flatMap_cons, List.findSome?_cons]
    rcases i with ⟨keyword, _ | value⟩
    · simpa [Item.entries, Item.comment?] using ih
    · by_cases hkeyword : Text.upper keyword = "COMMENT"
      · simp [Item.entries, Item.comment?, value?, hkeyword]
      · simpa [Item.entries, Item.comment?, value?, hkeyword] using ih

/-- An option behind others does not tell the comment: it gives none, or one of them gives one. -/
def Item.Idle (front : List Item) (i : Item) : Prop :=
  i.comment? = none ∨ ∃ j ∈ front, j.comment?.isSome = true

/-- Dropping an idle option changes nothing. -/
theorem firstComment_of_idle {i : Item} (h : i.Idle front) (back : List Item) :
    firstComment (front ++ i :: back) = firstComment (front ++ back) := by
  rw [firstComment, firstComment, List.findSome?_append, List.findSome?_append,
    List.findSome?_cons]
  rcases h with hi | hfront
  · rw [hi]
  · obtain ⟨value, hvalue⟩ := Option.isSome_iff_exists.mp (List.findSome?_isSome_iff.mpr hfront)
    rw [hvalue]
    rfl

/-- A comment is the one that options tell, and dropping idle ones does not change it. -/
structure Tells (items : List Item) (comment : String) : Prop where
  first : comment = firstComment items
  idle : ∀ front i back, items = front ++ i :: back → i.Idle front →
    comment = firstComment (front ++ back)

/-- What the look-up finds is the comment that the options tell. -/
theorem tells_value? (items : List Item) :
    Tells items ((value? "COMMENT" (items.flatMap Item.entries)).getD "") := by
  have hfirst : (value? "COMMENT" (items.flatMap Item.entries)).getD "" = firstComment items := by
    rw [value?_entries, firstComment]
  refine ⟨hfirst, ?_⟩
  rintro front i back rfl hidle
  rw [hfirst, firstComment_of_idle hidle]

/-- A definition with such a trailer is accepted. -/
theorem readDefinition_of_written {script : Array Char} {create : Lexeme} {header : Header}
    {body : Group} {terminator : Lexeme} {after : List Lexeme} (h : Written items trailer)
    (hbody : Group.close? 0 header.rest = some body)
    (hend : Lexeme.splitAt? .semicolon body.rest = some (trailer, terminator, after)) :
    ∃ table skipped, readDefinition script create header = .ok (table, skipped, after) ∧
      Tells items table.comment := by
  rw [readDefinition]
  simp only [hbody, hend, read?_of_written h]
  exact ⟨_, _, rfl, tells_value? items⟩

/-- The table of an accepted visit has the comment that its trailer tells. -/
theorem tells_of_accepted {script : Array Char} {ls : List Lexeme}
    {start opening closing stop : Nat} {table : Table} {skipped : List Anomaly}
    (h : Written items (between ls closing stop))
    (hvisit : .accepted start opening closing stop table skipped ∈ visits script ls) :
    Tells items table.comment := by
  have hlocated := (located_of_mem_visitsFrom (List.suffix_refl ls) hvisit).1
  obtain ⟨-, -, options, hoptions, hcomment⟩ := hlocated.parts
  rw [read?_of_written h] at hoptions
  cases hoptions
  rw [hcomment]
  exact tells_value? items

/-- **The comment of a table.** A trailer of the grammar is written as options, and however they are
told apart: a definition that ends with it is accepted, and the comment of its table is the first
one that the options give. Values, bare keywords and further comments are of no account. -/
theorem comment_of_options (h : trailer ∈ listOf item) :
    (∃ items, Written items trailer) ∧ ∀ items, Written items trailer →
      (∀ script create header body terminator after,
        Group.close? 0 header.rest = some body →
        Lexeme.splitAt? .semicolon body.rest = some (trailer, terminator, after) →
          ∃ table skipped, readDefinition script create header = .ok (table, skipped, after) ∧
            Tells items table.comment) ∧
      ∀ script ls start opening closing stop table skipped,
        .accepted start opening closing stop table skipped ∈ visits script ls →
        between ls closing stop = trailer → Tells items table.comment := by
  refine ⟨exists_written_iff.mpr h, fun items hitems => ⟨?_, ?_⟩⟩
  · exact fun _ _ _ _ _ _ hbody hend => readDefinition_of_written hitems hbody hend
  · rintro _ _ _ _ _ _ _ _ hvisit rfl
    exact tells_of_accepted hitems hvisit

/-- A bare keyword `comment`, the value `COMMENT` of another option, and two comments. -/
def remarkScript : String :=
  "CREATE TABLE t (id INT) comment, engine = COMMENT Comment 'first', COMMENT = second;"

def remarkHeader : List Lexeme :=
  [⟨.word "CREATE", 0, 6, 1⟩, ⟨.word "TABLE", 7, 12, 1⟩, ⟨.word "t", 13, 14, 1⟩,
    ⟨.punct .openParen, 15, 16, 1⟩, ⟨.word "id", 16, 18, 1⟩, ⟨.word "INT", 19, 22, 1⟩,
    ⟨.punct .closeParen, 22, 23, 1⟩]

def remarkTrailer : List Lexeme :=
  [⟨.word "comment", 24, 31, 1⟩, ⟨.punct .comma, 31, 32, 1⟩, ⟨.word "engine", 33, 39, 1⟩,
    ⟨.punct .equals, 40, 41, 1⟩, ⟨.word "COMMENT", 42, 49, 1⟩, ⟨.word "Comment", 50, 57, 1⟩,
    ⟨.literal "first" '\'', 58, 65, 1⟩, ⟨.punct .comma, 65, 66, 1⟩, ⟨.word "COMMENT", 67, 74, 1⟩,
    ⟨.punct .equals, 75, 76, 1⟩, ⟨.word "second", 77, 83, 1⟩]

def remarkItems : List Item :=
  [⟨"comment", none⟩, ⟨"engine", some "COMMENT"⟩, ⟨"Comment", some "first"⟩,
    ⟨"COMMENT", some "second"⟩]

def remarkTable : Table where
  name := "t"
  columns := [{ name := "id", type := "INT" }]
  comment := "first"
  startLine := 1
  endLine := 1

/-- The first option with that keyword and a value tells the comment. -/
theorem comment_of_options_remark :
    Lexeme.ofScript Dialect.mysql remarkScript.toList.toArray =
        .ok (remarkHeader ++ remarkTrailer ++ [⟨.punct .semicolon, 83, 84, 1⟩]) ∧
      visits remarkScript.toList.toArray
          (remarkHeader ++ remarkTrailer ++ [⟨.punct .semicolon, 83, 84, 1⟩]) =
        [.accepted 0 3 6 18 remarkTable []] ∧
      remarkTrailer ∈ listOf item ∧ Tells remarkItems remarkTable.comment := by
  have hscript : Lexeme.ofScript Dialect.mysql remarkScript.toList.toArray =
      .ok (remarkHeader ++ remarkTrailer ++ [⟨.punct .semicolon, 83, 84, 1⟩]) := by
    decide +kernel
  have hvisits : visits remarkScript.toList.toArray
      (remarkHeader ++ remarkTrailer ++ [⟨.punct .semicolon, 83, 84, 1⟩]) =
        [.accepted 0 3 6 18 remarkTable []] := by
    decide +kernel
  have hwritten : Written remarkItems remarkTrailer :=
    .comma (.bare rfl) rfl (.next (.assigned rfl rfl rfl) (.comma (.literal rfl rfl) rfl
      (.next (.assigned rfl rfl rfl) .nil)))
  have hitem : remarkTrailer ∈ listOf item := exists_written_iff.mp ⟨_, hwritten⟩
  have haccepted := ((comment_of_options hitem).2 remarkItems hwritten).2
    remarkScript.toList.toArray (remarkHeader ++ remarkTrailer ++ [⟨.punct .semicolon, 83, 84, 1⟩])
    0 3 6 18 remarkTable []
  rw [hvisits] at haccepted
  exact ⟨hscript, hvisits, hitem, haccepted (List.mem_singleton_self _) rfl⟩

end Comments

end TableDocs.Sql.TableOptions
