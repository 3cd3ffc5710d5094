import TableDocs.Proofs.Sql.AttributeBoundary
import TableDocs.Proofs.Sql.CommentSource
import TableDocs.Proofs.Sql.Transcription

/-!
# TableDocs — qualifiers are not documented

The character set and the collation of a column are passed over with their argument. Here they are
put in between lexemes that stay where they are.

* **`Qualifier`** — a character set or a collation with its argument.
* **`readAttributes_insert`** — the attributes on either side of it are read as before.
* **`TypeText.split?_insert`** — none of the parts of a type reaches into it, and none ends earlier.
* **`Parts.insert`** — a definition keeps its parts.
-/

namespace TableDocs.Sql

namespace Lexeme

theorem isWord_of_keyword_ne {l : Lexeme} (h : l.keyword ≠ "") : l.isWord = true := by
  cases hl : l.kind <;> simp_all [keyword, isWord]

theorem isMark_of_isWord {l : Lexeme} (h : l.isWord = true) : l.isMark = false := by
  cases hl : l.kind <;> simp_all [isMark, isWord]

theorem isPunct_of_isMark {l : Lexeme} (h : l.isMark = false) (p : Punct) :
    l.isPunct p = false := by
  cases hl : l.kind <;> simp_all [isMark, isPunct]

end Lexeme

/-- A character set or a collation. The argument is any lexeme but a mark, and it may be spelled
like a keyword. -/
inductive Qualifier : List Lexeme → Prop
  | characterSet {character set argument : Lexeme} (hcharacter : character.keyword = "CHARACTER")
      (hset : set.keyword = "SET") (hargument : argument.isMark = false) :
      Qualifier [character, set, argument]
  | word {word argument : Lexeme} (hword : word.keyword = "CHARSET" ∨ word.keyword = "COLLATE")
      (hargument : argument.isMark = false) : Qualifier [word, argument]

namespace Qualifier

variable {qualifier : List Lexeme}

/-- The words that a qualifier can start with. -/
def heads : List String := ["CHARACTER", "CHARSET", "COLLATE"]

/-- A qualifier begins with one of three words. -/
theorem exists_head (h : Qualifier qualifier) :
    ∃ l rest, qualifier = l :: rest ∧ l.keyword ∈ heads := by
  cases h with
  | characterSet hcharacter => exact ⟨_, _, rfl, by rw [hcharacter]; decide⟩
  | word hword => exact ⟨_, _, rfl, by rcases hword with hword | hword <;> rw [hword] <;> decide⟩

/-- No lexeme of a qualifier is a mark. -/
theorem isMark_eq_false (h : Qualifier qualifier) : ∀ l ∈ qualifier, l.isMark = false := by
  -- a lexeme with a keyword is a word
  have hkeyword : ∀ {l : Lexeme} {w : String}, l.keyword = w → w ≠ "" → l.isMark = false :=
    fun hl hw => Lexeme.isMark_of_isWord (Lexeme.isWord_of_keyword_ne (hl ▸ hw))
  cases h with
  | characterSet hcharacter hset hargument =>
    simp [hkeyword hcharacter (by decide), hkeyword hset (by decide), hargument]
  | word hword hargument =>
    rcases hword with hword | hword <;> simp [hkeyword hword (by decide), hargument]

end Qualifier

/-! ## Attributes

The reader of attributes passes a character set or a collation together with its argument. So it
comes out behind the qualifier with what it knew in front of it, wherever it starts to look. -/

namespace ColumnDef

section Attributes

variable {qualifier front behind : List Lexeme}

/-- A qualifier is nothing that an attribute in front of it would take for its own. -/
theorem detached_qualifier (h : Qualifier qualifier) (rest : List Lexeme) :
    Detached (qualifier ++ rest) := by
  obtain ⟨l, more, rfl, hl⟩ := h.exists_head
  intro x hx
  obtain rfl : l = x := Option.some.inj hx
  have hne : ∀ w ∉ Qualifier.heads, l.keyword ≠ w := fun w hw he => hw (he ▸ hl)
  exact ⟨Lexeme.isWord_of_keyword_ne (hne "" (by decide)), hne "SET" (by decide),
    hne "NULL" (by decide)⟩

/-- **A qualifier is passed over with its argument.** -/
theorem readAttributes_qualifier (h : Qualifier qualifier) (script : Array Char) (a : Attributes)
    (rest : List Lexeme) :
    readAttributes script a (qualifier ++ rest) = readAttributes script a rest := by
  cases h with
  | @characterSet character set argument hcharacter hset hargument =>
    -- nothing is heard of it, and all of it is passed
    have hheard : heard script a character (set :: argument :: rest) = a := by
      simp [heard, isNotNull, hcharacter]
    have hafter : afterAttribute character (set :: argument :: rest) = rest := by
      simp [afterAttribute, Lexeme.keywordAt, hcharacter, hset]
    rw [List.cons_append, readAttributes_step]
    exact congrArg₂ (readAttributes script) hheard hafter
  | @word word argument hword hargument =>
    have hheard : heard script a word (argument :: rest) = a := by
      rcases hword with hword | hword <;> simp [heard, isNotNull, hword]
    have hafter : afterAttribute word (argument :: rest) = rest := by
      rcases hword with hword | hword <;> simp [afterAttribute, hword]
    rw [List.cons_append, readAttributes_step]
    exact congrArg₂ (readAttributes script) hheard hafter

/-- One lexeme alone says nothing. -/
theorem readAttributes_singleton (script : Array Char) (a : Attributes) (l : Lexeme) :
    readAttributes script a [l] = a := by
  have hheard : heard script a l [] = a := by
    simp [heard, isNotNull, Lexeme.keywordAt]
  have hafter : afterAttribute l [] = [] :=
    List.eq_nil_of_suffix_nil (passed_afterAttribute l []).suffix
  rw [readAttributes_step, hheard, hafter, readAttributes_nil]

/-- What is left of a qualifier at the end of a definition says nothing. -/
theorem readAttributes_drop_qualifier (h : Qualifier qualifier) (script : Array Char)
    (a : Attributes) : readAttributes script a (qualifier.drop 1) = a := by
  cases h with
  | @characterSet character set argument hcharacter hset hargument =>
    have hheard : heard script a set [argument] = a := by
      simp [heard, isNotNull, hset]
    have hafter : afterAttribute set [argument] = [argument] := by
      simp [afterAttribute, hset]
    rw [List.drop_one, List.tail_cons, readAttributes_step, hheard, hafter,
      readAttributes_singleton]
  | word hword hargument => exact readAttributes_singleton script a _

theorem readAttributes_insert (h : Qualifier qualifier) (hclose : Group.AllClose (front ++ behind))
    (hstart : behind ∈ attributeStarts (front ++ behind))
    (hlast : behind = [] → ∀ l ∈ front.getLast?, l.keyword ≠ "DEFAULT") (script : Array Char)
    (a : Attributes) :
    readAttributes script a (front ++ (qualifier ++ behind)) =
      readAttributes script (readAttributes script a front) behind := by
  -- the reader comes to the boundary, or takes one more lexeme behind it, which only the last
  -- attribute does
  obtain ⟨taken, htaken, hzero, hresumes⟩ := exists_resumes hclose hstart hlast script a
  rw [hresumes.detached _ (detached_qualifier h behind)]
  by_cases hbehind : behind = []
  · rw [hbehind, List.append_nil, readAttributes_nil]
    rcases Nat.le_one_iff_eq_zero_or_eq_one.mp htaken with rfl | rfl
    · rw [List.drop_zero]
      have := readAttributes_qualifier h script (readAttributes script a front) []
      rwa [List.append_nil, readAttributes_nil] at this
    · exact readAttributes_drop_qualifier h script _
  · rw [hzero hbehind, List.drop_zero, readAttributes_qualifier h]

end Attributes

end ColumnDef

/-! ## Types

A list with a qualifier put in starts like the list itself, or with the qualifier, and no part of a
type does. -/

/-- A list, and the same with a qualifier put in somewhere. -/
def Inserted (qualifier ls ls' : List Lexeme) : Prop :=
  ∃ front behind, ls = front ++ behind ∧ ls' = front ++ (qualifier ++ behind)

namespace Inserted

variable {qualifier ls ls' : List Lexeme}

theorem append_left {whole part : List Lexeme} (h : Inserted qualifier ls ls')
    (hwhole : whole = part ++ ls) : Inserted qualifier whole (part ++ ls') := by
  obtain ⟨front, behind, rfl, rfl⟩ := h
  exact ⟨part ++ front, behind, by simp [hwhole], by simp⟩

variable (h : Inserted qualifier ls ls') (hqualifier : Qualifier qualifier)
include h hqualifier

/-- The next word is no part of the type, before the qualifier is put in and after. -/
theorem contains_keywordAt {ws : List String} (hws : ∀ w ∈ Qualifier.heads, ws.contains w = false)
    (hls : ws.contains (Lexeme.keywordAt ls) = false) :
    ws.contains (Lexeme.keywordAt ls') = false := by
  obtain ⟨front, behind, rfl, rfl⟩ := h
  cases front with
  | nil =>
    obtain ⟨l, rest, rfl, hl⟩ := hqualifier.exists_head
    exact hws _ hl
  | cons x front => exact hls

/-- The same of a mark. -/
theorem startsWith {p : Punct} (hls : Lexeme.startsWith p ls = false) :
    Lexeme.startsWith p ls' = false := by
  obtain ⟨front, behind, rfl, rfl⟩ := h
  cases front with
  | nil => exact (ColumnDef.detached_qualifier hqualifier behind).startsWith p
  | cons x front => exact hls

end Inserted

namespace TypeText

variable {qualifier ls part rest rest' : List Lexeme}

/-- Words of a part are taken up to the first other lexeme. -/
theorem spanWords_append {ws : List String} (hpart : ∀ l ∈ part, ws.contains l.keyword = true)
    (hrest : ws.contains (Lexeme.keywordAt rest) = false) :
    spanWords ws (part ++ rest) = (part, rest) := by
  rw [spanWords, List.span_eq_takeWhile_dropWhile, List.takeWhile_append_of_pos hpart,
    List.dropWhile_append_of_pos hpart]
  cases rest with
  | nil => simp
  | cons l rest =>
    have hl : ¬ws.contains l.keyword = true := Bool.eq_false_iff.mp hrest
    rw [List.takeWhile_cons, List.dropWhile_cons, if_neg hl, if_neg hl, List.append_nil]

/-- Words of a part end where they ended. -/
theorem spanWords_insert {ws : List String}
    (hws : ∀ w ∈ "" :: Qualifier.heads, ws.contains w = false)
    (h : spanWords ws ls = (part, rest)) (hqualifier : Qualifier qualifier)
    (hrest : Inserted qualifier rest rest') :
    Inserted qualifier ls (part ++ rest') ∧ spanWords ws (part ++ rest') = (part, rest') := by
  have hls := spanWords_extent ws ls
  obtain ⟨hpart, hend⟩ := spanWords_spec (hws "" List.mem_cons_self) ls
  rw [h] at hls hpart hend
  refine ⟨hrest.append_left hls, ?_⟩
  exact spanWords_append hpart (hrest.contains_keywordAt hqualifier
    (fun w hw => hws w (List.mem_cons_of_mem _ hw)) hend)

/-- A precision ends at its parenthesis, and a qualifier opens none. -/
theorem splitPrecision_insert (hclose : Group.AllClose ls) (h : splitPrecision ls = (part, rest))
    (hqualifier : Qualifier qualifier) (hrest : Inserted qualifier rest rest') :
    Inserted qualifier ls (part ++ rest') ∧ splitPrecision (part ++ rest') = (part, rest') := by
  have hls := splitPrecision_extent ls
  rw [h] at hls
  refine ⟨hrest.append_left hls, ?_⟩
  rw [splitPrecision] at h
  split at h
  · next opening g hread =>
    cases h
    rw [hls] at hread
    -- the group is closed in front of what follows, so what follows can be replaced
    obtain ⟨more, hpart, hmore, hreplace⟩ := Group.read?_replace hread (Nat.le_refl _)
    obtain rfl : more = [] := List.self_eq_append_left.mp hmore
    rw [splitPrecision, hreplace]
    rfl
  · next hread =>
    cases h
    have hnone := hrest.startsWith hqualifier (hclose.read?_eq_none.mp hread)
    cases rest' with
    | nil => rfl
    | cons l rest' =>
      rw [List.nil_append, splitPrecision, Group.read?,
        if_neg (by simpa [Lexeme.startsWith] using hnone)]

/-- Array suffixes end at their brackets. -/
theorem splitArrays?_append (h : splitArrays? ls = some (part, rest))
    (hqualifier : Qualifier qualifier) (hrest : Inserted qualifier rest rest') :
    splitArrays? (part ++ rest') = some (part, rest') := by
  -- without a bracket there is nothing to take
  have hdone : ∀ ls, Lexeme.startsWith .openBracket ls = false →
      splitArrays? ls = some ([], ls) := by
    intro ls hls
    rw [splitArrays?.eq_def]
    cases ls with
    | nil => rfl
    | cons l ls =>
      simp only
      rw [if_neg (by simpa [Lexeme.startsWith] using hls)]
  fun_induction splitArrays? ls generalizing part with
  | case1 =>
    cases h
    exact hdone rest' (hrest.startsWith hqualifier rfl)
  | case2 => exact absurd h (by simp)
  | case3 l tail hl inner close after hsplit ih =>
    obtain ⟨⟨more, left⟩, hmore, he⟩ := Option.map_eq_some_iff.mp h
    cases he
    obtain ⟨-, hclose, hinner⟩ := Lexeme.splitAt?_extent hsplit
    have hsuffix : Lexeme.splitAt? .closeBracket (inner ++ close :: (more ++ rest')) =
        some (inner, close, more ++ rest') := Lexeme.splitAt?_append _ hclose hinner
    have hls : l :: inner ++ close :: more ++ rest' = l :: (inner ++ close :: (more ++ rest')) := by
      simp
    rw [hls, splitArrays?.eq_def]
    simp only
    rw [if_pos hl]
    split
    · next hnone => rw [hsuffix] at hnone; exact absurd hnone (by simp)
    · next hsome =>
      rw [hsuffix] at hsome
      cases hsome
      rw [ih hmore]
      rfl
  | case4 l tail hl =>
    cases h
    exact hdone rest' (hrest.startsWith hqualifier (by simpa [Lexeme.startsWith] using hl))

theorem splitArrays?_insert (h : splitArrays? ls = some (part, rest))
    (hqualifier : Qualifier qualifier) (hrest : Inserted qualifier rest rest') :
    Inserted qualifier ls (part ++ rest') ∧ splitArrays? (part ++ rest') = some (part, rest') :=
  ⟨hrest.append_left (splitArrays?_extent h), splitArrays?_append h hqualifier hrest⟩

/-- The words of a time zone stand at the front. -/
def StartsZone (ls : List Lexeme) : Prop :=
  ∃ a b c rest, ls = a :: b :: c :: rest ∧ (a.keyword = "WITH" ∨ a.keyword = "WITHOUT") ∧
    b.keyword = "TIME" ∧ c.keyword = "ZONE"

theorem splitTimeZone_of_not_startsZone (h : ¬StartsZone ls) : splitTimeZone ls = ([], ls) := by
  rw [splitTimeZone.eq_def]
  split
  · next a b c rest =>
    refine if_neg fun hzone => h ?_
    simp only [Bool.and_eq_true, Bool.or_eq_true, decide_eq_true_eq] at hzone
    exact ⟨a, b, c, rest, rfl, hzone.1.1, hzone.1.2, hzone.2⟩
  · rfl

theorem splitTimeZone_of_startsZone {a b c : Lexeme}
    (ha : a.keyword = "WITH" ∨ a.keyword = "WITHOUT") (hb : b.keyword = "TIME")
    (hc : c.keyword = "ZONE") (rest : List Lexeme) :
    splitTimeZone (a :: b :: c :: rest) = ([a, b, c], rest) := by
  rcases ha with ha | ha <;> simp [splitTimeZone, ha, hb, hc]

/-- The three words of a time zone stand in a row, and none of them begins a qualifier. -/
theorem startsZone_of_inserted (hqualifier : Qualifier qualifier)
    (hinserted : Inserted qualifier rest rest') (h : StartsZone rest') : StartsZone rest := by
  obtain ⟨front, behind, rfl, rfl⟩ := hinserted
  obtain ⟨l, more, rfl, hl⟩ := hqualifier.exists_head
  have hne : ∀ w ∉ Qualifier.heads, l.keyword ≠ w := fun w hw he => hw (he ▸ hl)
  obtain ⟨a, b, c, _, he, ha, hb, hc⟩ := h
  -- the qualifier starts with a keyword that no zone has, so it cannot stand among the first three
  match front with
  | [] =>
    obtain ⟨rfl, -⟩ := List.cons_eq_cons.mp he
    rcases ha with ha | ha
    · exact absurd ha (hne _ (by decide))
    · exact absurd ha (hne _ (by decide))
  | [x] =>
    obtain ⟨rfl, -⟩ := List.cons_eq_cons.mp (List.cons_eq_cons.mp he).2
    exact absurd hb (hne _ (by decide))
  | [x, y] =>
    obtain ⟨rfl, -⟩ := List.cons_eq_cons.mp (List.cons_eq_cons.mp (List.cons_eq_cons.mp he).2).2
    exact absurd hc (hne _ (by decide))
  | x :: y :: z :: front =>
    cases he
    exact ⟨_, _, _, front ++ behind, rfl, ha, hb, hc⟩

/-- A time zone is all there or not at all. -/
theorem splitTimeZone_insert (h : splitTimeZone ls = (part, rest))
    (hqualifier : Qualifier qualifier) (hrest : Inserted qualifier rest rest') :
    Inserted qualifier ls (part ++ rest') ∧ splitTimeZone (part ++ rest') = (part, rest') := by
  have hls := splitTimeZone_extent ls
  rw [h] at hls
  refine ⟨hrest.append_left hls, ?_⟩
  by_cases hzone : StartsZone ls
  · obtain ⟨a, b, c, more, rfl, ha, hb, hc⟩ := hzone
    rw [splitTimeZone_of_startsZone ha hb hc] at h
    cases h
    exact splitTimeZone_of_startsZone ha hb hc rest'
  · rw [splitTimeZone_of_not_startsZone hzone] at h
    cases h
    exact splitTimeZone_of_not_startsZone fun h => hzone (startsZone_of_inserted hqualifier hrest h)

/-- **A type ends where it ended without the qualifier.** -/
theorem split?_insert {base : Lexeme} {type attributes attributes' : List Lexeme}
    (hclose : Group.AllClose ls) (h : split? base ls = some (type, attributes))
    (hqualifier : Qualifier qualifier) (hinserted : Inserted qualifier attributes attributes') :
    ∃ words, type = base :: words ∧
      split? base (words ++ attributes') = some (type, attributes') := by
  rcases hcontinuations : spanWords ["VARYING", "PRECISION"] ls with ⟨continuations, afterWords⟩
  rcases hprecision : splitPrecision afterWords with ⟨precision, afterPrecision⟩
  rw [split?] at h
  simp only [hcontinuations, hprecision] at h
  obtain ⟨⟨arrays, afterArrays⟩, harrays, h⟩ := Option.map_eq_some_iff.mp h
  rcases hzone : splitTimeZone afterArrays with ⟨zone, afterZone⟩
  rcases hnumeric : spanWords ["UNSIGNED", "SIGNED", "ZEROFILL"] afterZone with ⟨numeric, _⟩
  simp only [hzone, hnumeric] at h
  cases h
  have hclose' : Group.AllClose afterWords := by
    have hls := spanWords_extent ["VARYING", "PRECISION"] ls
    rw [hcontinuations] at hls
    exact hclose.of_suffix ⟨continuations, hls.symm⟩
  -- Each part ends where it ended, from the last one to the first.
  obtain ⟨hafterZone, hnumeric'⟩ := spanWords_insert (by decide) hnumeric hqualifier hinserted
  obtain ⟨hafterArrays, hzone'⟩ := splitTimeZone_insert hzone hqualifier hafterZone
  obtain ⟨hafterPrecision, harrays'⟩ := splitArrays?_insert harrays hqualifier hafterArrays
  obtain ⟨hafterWords, hprecision'⟩ :=
    splitPrecision_insert hclose' hprecision hqualifier hafterPrecision
  obtain ⟨-, hcontinuations'⟩ :=
    spanWords_insert (by decide) hcontinuations hqualifier hafterWords
  refine ⟨continuations ++ precision ++ arrays ++ zone ++ numeric, by simp, ?_⟩
  rw [split?]
  simp only [List.append_assoc, hcontinuations', hprecision', harrays', Option.map_some, hzone',
    hnumeric', List.cons_append]

end TypeText

/-! ## Definitions

A qualifier holds no mark, so parentheses stay balanced around it. The name and the type are read in
front of it, and the attributes are what is left. -/

namespace Group

variable {qualifier front behind : List Lexeme}

/-- Without marks there is no parenthesis to count. -/
theorem depth_of_no_marks (h : ∀ l ∈ qualifier, l.isMark = false) : depth qualifier = 0 := by
  induction qualifier with
  | nil => rfl
  | cons l ls ih =>
    have hl := h l List.mem_cons_self
    rw [depth_cons, ih fun x hx => h x (List.mem_cons_of_mem _ hx),
      depthStep_of_other (Lexeme.isPunct_of_isMark hl _) (Lexeme.isPunct_of_isMark hl _)]
    rfl

/-- Lexemes that are no marks can stand anywhere between balanced parentheses. -/
theorem balanced_insert (hqualifier : Qualifier qualifier)
    (h : balanced (front ++ behind) = true) :
    balanced (front ++ (qualifier ++ behind)) = true := by
  have hzero : ∀ part, part <+: qualifier → depth part = 0 := fun part hpart =>
    depth_of_no_marks fun l hl => hqualifier.isMark_eq_false l (hpart.subset hl)
  obtain ⟨hbelow, hdepth⟩ := balanced_iff.mp h
  have hfront : NeverBelow 0 front := hbelow.of_append_left
  -- along the qualifier the depth stays where it was
  have hqualifierBelow : NeverBelow (0 + depth front) qualifier := by
    intro part hpart
    rw [hzero part hpart, Int.add_zero]
    exact hfront.depth_nonneg
  have hwhole : depth qualifier = 0 := hzero qualifier (List.prefix_refl _)
  refine balanced_iff.mpr ⟨hfront.append (hqualifierBelow.append ?_), ?_⟩
  · rw [hwhole, Int.add_zero]
    exact hbelow.of_append_right
  · rw [depth_append, depth_append, hwhole, Int.zero_add, ← depth_append, hdepth]

end Group

namespace ColumnDef

/-- What an item is made of that can be read: a name, a type and attributes. -/
structure Parts (item part type attributes : List Lexeme) (name : String) : Prop where
  balanced : Group.balanced item = true
  split : item = part ++ (type ++ attributes)
  name : Name.Spelling part name
  type : ∃ base words, type = base :: words ∧ TypeText.isBaseWord base.keyword = true ∧
    TypeText.split? base (words ++ attributes) = some (type, attributes)

/-- The column of a definition with these parts. -/
def columnOf (script : Array Char) (keys : List String) (name : String)
    (type attributes : List Lexeme) : Column where
  name := name
  type := String.ofList (TypeText.normalize script type)
  nullable := (readAttributes script {} attributes).nullable
  isPrimaryKey := keys.contains name
  comment := (readAttributes script {} attributes).comment
  default? := (readAttributes script {} attributes).default?

section Parts

variable {script : Array Char} {keys : List String} {item part type attributes : List Lexeme}
  {name : String}

/-- An item with these parts is read as their column. -/
theorem Parts.read_eq (h : Parts item part type attributes name) (script : Array Char)
    (keys : List String) :
    read script keys item = .ok (columnOf script keys name type attributes) := by
  obtain ⟨hbalanced, rfl, hname, base, words, rfl, hbase, hsplit⟩ := h
  rw [read, hbalanced, Name.read?_of_spelling hname]
  simp [hbase, hsplit, columnOf]

/-- The attributes of an item are the last of its parts. -/
theorem Parts.attributesOf_eq (h : Parts item part type attributes name) :
    attributesOf item = attributes := by
  obtain ⟨-, rfl, hname, base, words, rfl, -, hsplit⟩ := h
  rw [attributesOf, Name.read?_of_spelling hname]
  simp [hsplit]

/-- An item that can be read has such parts. -/
theorem exists_parts_of_read {column : Column} (h : read script keys item = .ok column) :
    ∃ part type attributes name, Parts item part type attributes name := by
  rw [read] at h
  split at h
  · exact absurd h (by simp)
  · next hbalanced =>
    split at h
    · exact absurd h (by simp)
    · exact absurd h (by simp)
    · next name base rest hname =>
      split at h
      · exact absurd h (by simp)
      · next hbase =>
        split at h
        · exact absurd h (by simp)
        · next type attributes htype =>
          -- a column was read, so every exit was passed; what is left are its parts
          obtain ⟨part, rfl, hpart⟩ := Name.read?_spelling hname
          obtain ⟨words, rfl, rfl⟩ := TypeText.exists_words_of_split? htype
          exact ⟨part, _, attributes, name, by simpa using hbalanced, rfl, hpart, base, words, rfl,
            by simpa using hbase, htype⟩

/-- **A qualifier put in at a boundary** leaves the name and the type as they are. -/
theorem Parts.insert {qualifier front behind : List Lexeme}
    (h : Parts item part type (front ++ behind) name) (hqualifier : Qualifier qualifier) :
    Parts (part ++ (type ++ (front ++ (qualifier ++ behind)))) part type
      (front ++ (qualifier ++ behind)) name := by
  obtain ⟨hbalanced, rfl, hname, base, words, rfl, hbase, hsplit⟩ := h
  have hclose : Group.AllClose (words ++ (front ++ behind)) :=
    (Group.allClose_of_balanced hbalanced).of_suffix ⟨part ++ [base], by simp⟩
  obtain ⟨_, he, hinsert⟩ :=
    TypeText.split?_insert hclose hsplit hqualifier ⟨front, behind, rfl, rfl⟩
  obtain ⟨-, rfl⟩ := List.cons_eq_cons.mp he
  refine ⟨?_, rfl, hname, base, words, rfl, hbase, hinsert⟩
  have hwhole : Group.balanced ((part ++ (base :: words ++ front)) ++ behind) = true := by
    simpa using hbalanced
  simpa using Group.balanced_insert hqualifier hwhole

end Parts

end ColumnDef

end TableDocs.Sql
