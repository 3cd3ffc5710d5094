import TableDocs.Sql.ColumnDef
import TableDocs.Proofs.Sql.GroupExtent

/-!
# TableDocs — the extent of a column definition

A column definition that can be read is a name, a type and attributes, with nothing between them and
nothing behind them:

* **`TypeText.split?_extent`** — a type is the stretch in front of what `split?` leaves.
* **`read_ok`** — what a column that was read says, piece by piece of its definition.
* **`attributeStarts`** — the places at which the reader looks for an attribute. What stands between
  two of them is passed over unread.
* **`start_or_argument_or_inside`** — a word `NOT` that is passed over is the argument of a keyword
  or stands inside a parenthesis.
-/

namespace TableDocs.Sql

/-! ## Types

A type is split off in five parts, each by a function that gives the part and what is left. So the
type and what is left are the whole, and the attributes begin where the last part ends. -/

namespace TypeText

/-- The words that were taken and what is left are the whole. -/
theorem spanWords_extent (words : List String) (ls : List Lexeme) :
    ls = (spanWords words ls).1 ++ (spanWords words ls).2 := by
  rw [spanWords, List.span_eq_takeWhile_dropWhile]
  exact List.takeWhile_append_dropWhile.symm

/-- Words were taken as long as they belong to the part. -/
theorem spanWords_spec {ws : List String} (hnil : ws.contains "" = false) (ls : List Lexeme) :
    (∀ l ∈ (spanWords ws ls).1, ws.contains l.keyword = true) ∧
      ws.contains (Lexeme.keywordAt (spanWords ws ls).2) = false := by
  rw [spanWords, List.span_eq_takeWhile_dropWhile]
  constructor
  · intro l hl
    exact List.mem_takeWhile_imp (p := fun l : Lexeme => ws.contains l.keyword) hl
  · induction ls with
    | nil => exact hnil
    | cons l ls ih =>
      rw [List.dropWhile_cons]
      split
      · exact ih
      · next hl => exact Bool.eq_false_iff.mpr hl

theorem splitPrecision_extent (ls : List Lexeme) :
    ls = (splitPrecision ls).1 ++ (splitPrecision ls).2 := by
  rw [splitPrecision]
  split
  · next hg => simpa using (Group.read?_extent hg).1
  · rfl

theorem splitArrays?_extent {ls arrays rest : List Lexeme}
    (h : splitArrays? ls = some (arrays, rest)) : ls = arrays ++ rest := by
  fun_induction splitArrays? ls generalizing arrays with
  | case1 => cases h; rfl
  | case2 => exact absurd h (by simp)
  | case3 l tail hl inner close after hsplit ih =>
    obtain ⟨⟨more, left⟩, hmore, he⟩ := Option.map_eq_some_iff.mp h
    cases he
    rw [(Lexeme.splitAt?_extent hsplit).1, ih hmore]
    simp
  | case4 => cases h; rfl

theorem splitTimeZone_extent (ls : List Lexeme) :
    ls = (splitTimeZone ls).1 ++ (splitTimeZone ls).2 := by
  rw [splitTimeZone.eq_def]
  split
  · split
    · rfl
    · rfl
  · rfl

/-- The type and the attributes are the whole. -/
theorem split?_extent {base : Lexeme} {ls type attributes : List Lexeme}
    (h : split? base ls = some (type, attributes)) : base :: ls = type ++ attributes := by
  rw [split?] at h
  simp only at h
  obtain ⟨⟨arrays, rest⟩, harrays, he⟩ := Option.map_eq_some_iff.mp h
  have hwords := spanWords_extent ["VARYING", "PRECISION"] ls
  have hprecision := splitPrecision_extent (spanWords ["VARYING", "PRECISION"] ls).2
  have hrest := splitArrays?_extent harrays
  have hzone := splitTimeZone_extent rest
  have hnumeric := spanWords_extent ["UNSIGNED", "SIGNED", "ZEROFILL"] (splitTimeZone rest).2
  cases he
  simp only [List.cons_append, List.append_assoc]
  rw [← hnumeric, ← hzone, ← hrest, ← hprecision, ← hwords]

/-- A type begins with its base word. -/
theorem exists_words_of_split? {base : Lexeme} {ls type attributes : List Lexeme}
    (h : split? base ls = some (type, attributes)) :
    ∃ words, type = base :: words ∧ ls = words ++ attributes := by
  have hextent := split?_extent h
  rw [split?] at h
  simp only at h
  obtain ⟨_, -, he⟩ := Option.map_eq_some_iff.mp h
  cases he
  exact ⟨_, List.cons_append, (List.cons_eq_cons.mp hextent).2⟩

end TypeText

namespace ColumnDef

/-! ## A definition that can be read

The tests of the reader are passed one by one. Behind the last of them the column is put together
from the parts of the item. -/

/-- The attributes of a definition: what stands behind its type. -/
def attributesOf (item : List Lexeme) : List Lexeme :=
  match Name.read? item with
  | some (_, base :: rest) => ((TypeText.split? base rest).map Prod.snd).getD []
  | _ => []

section Read

variable {script : Array Char} {keys : List String} {item : List Lexeme} {name : String}
  {base : Lexeme} {rest : List Lexeme}

/-- A bracket that is not closed is the last reason to refuse an item. -/
theorem read_of_unclosed (hitem : Group.balanced item = true)
    (hname : Name.read? item = some (name, base :: rest))
    (hbase : TypeText.isBaseWord base.keyword = true) (h : TypeText.split? base rest = none) :
    read script keys item = .error .unbalancedBrackets := by
  simp [read, hitem, hname, hbase, h]

/-- The column of an item that passes all tests. -/
theorem read_of_closed {type attributes : List Lexeme} (hitem : Group.balanced item = true)
    (hname : Name.read? item = some (name, base :: rest))
    (hbase : TypeText.isBaseWord base.keyword = true)
    (h : TypeText.split? base rest = some (type, attributes)) :
    read script keys item =
      .ok
        { name
          type := String.ofList (TypeText.normalize script type)
          nullable := (readAttributes script {} attributes).nullable
          isPrimaryKey := keys.contains name
          comment := (readAttributes script {} attributes).comment
          default? := (readAttributes script {} attributes).default? } := by
  simp [read, hitem, hname, hbase, h]

end Read

/-- **A column that was read.** Its parentheses balance, and it is the spelling of its name, the
lexemes of its type and its attributes. -/
theorem read_ok {script : Array Char} {keys : List String} {item : List Lexeme} {column : Column}
    (h : read script keys item = .ok column) :
    Group.balanced item = true ∧
      ∃ part type, item = part ++ type ++ attributesOf item ∧
        Name.Spelling part column.name ∧
        column.type = String.ofList (TypeText.normalize script type) ∧
        column.isPrimaryKey = keys.contains column.name ∧
        column.nullable = (readAttributes script {} (attributesOf item)).nullable ∧
        column.comment = (readAttributes script {} (attributesOf item)).comment ∧
        column.default? = (readAttributes script {} (attributesOf item)).default? := by
  rw [read] at h
  split at h
  · exact absurd h (by simp)
  · next hbalanced =>
    refine ⟨by simpa using hbalanced, ?_⟩
    split at h
    · exact absurd h (by simp)
    · exact absurd h (by simp)
    · next name base rest hname =>
      split at h
      · exact absurd h (by simp)
      · split at h
        · exact absurd h (by simp)
        · next type attributes htype =>
          -- the attributes are what the type has left, and they are computed by the same reader
          have hattributes : attributesOf item = attributes := by
            rw [attributesOf, hname]
            simp only [htype, Option.map_some, Option.getD_some]
          obtain ⟨part, hitem, hpart⟩ := Name.read?_spelling hname
          cases h
          refine ⟨part, type, ?_, hpart, rfl, rfl, ?_⟩
          · rw [hattributes, List.append_assoc, ← TypeText.split?_extent htype]
            exact hitem
          · rw [hattributes]
            exact ⟨rfl, rfl, rfl⟩

/-! ## One attribute

`afterAttribute` follows the cases of `readAttributes` and keeps only the place that the reader goes
on from. -/

/-- What the reader leaves unread behind the attribute that `l` starts. -/
def afterAttribute (l : Lexeme) (rest : List Lexeme) : List Lexeme :=
  if l.keyword = "CHARACTER" && Lexeme.keywordAt rest = "SET" then rest.drop 2
  else if l.keyword = "CHARSET" || l.keyword = "COLLATE" then rest.drop 1
  else if l.keyword = "NOT" && Lexeme.keywordAt rest = "NULL" then rest.drop 1
  else if l.keyword = "DEFAULT" then
    match rest with
    | [] => []
    | first :: more => (splitValue first more).2
  else if l.keyword = "COMMENT" then
    match rest with
    | [] => []
    | value :: more =>
      match value.kind with
      | .literal _ _ => more
      | _ => value :: more
  else rest

/-- The two words of the marker stand here. -/
def isNotNull (ls : List Lexeme) : Bool :=
  match ls with
  | [] => false
  | l :: rest => l.keyword = "NOT" && Lexeme.keywordAt rest = "NULL"

/-- What is known behind the attribute that `l` starts. Of all attributes only three are heard. -/
def heard (script : Array Char) (a : Attributes) (l : Lexeme) (rest : List Lexeme) : Attributes :=
  if isNotNull (l :: rest) then { a with nullable := false }
  else if l.keyword = "DEFAULT" then
    match rest with
    | [] => a
    | first :: more =>
      { a with default? := some (valueText script first (splitValue first more).1) }
  else if l.keyword = "COMMENT" then
    match rest with
    | [] => a
    | value :: _ =>
      match value.kind with
      | .literal text _ => { a with comment := text }
      | _ => a
  else a

/-- **One step of the reader.** It adds what it hears and goes on behind the attribute. -/
theorem readAttributes_step (script : Array Char) (a : Attributes) (l : Lexeme)
    (rest : List Lexeme) :
    readAttributes script a (l :: rest) =
      readAttributes script (heard script a l rest) (afterAttribute l rest) := by
  have deaf : l.keyword ≠ "NOT" → l.keyword ≠ "DEFAULT" → l.keyword ≠ "COMMENT" →
      heard script a l rest = a := by
    intro hnot hdefault hcomment
    rw [heard.eq_def, if_neg (by simp [isNotNull, hnot]), if_neg hdefault, if_neg hcomment]
  rw [readAttributes.eq_def, afterAttribute.eq_def]
  simp only
  split
  · -- `CHARACTER SET`
    next h =>
    have hl : l.keyword = "CHARACTER" := of_decide_eq_true (Bool.and_eq_true_iff.mp h).1
    rw [deaf (by rw [hl]; decide) (by rw [hl]; decide) (by rw [hl]; decide)]
  · split
    · -- `CHARSET`, `COLLATE`
      next h =>
      have hl : l.keyword = "CHARSET" ∨ l.keyword = "COLLATE" := by simpa using h
      rcases hl with hl | hl <;>
        rw [deaf (by rw [hl]; decide) (by rw [hl]; decide) (by rw [hl]; decide)]
    · split
      · -- `NOT NULL`
        next h => rw [heard.eq_def, if_pos (show isNotNull (l :: rest) = true from h)]
      · next hnot =>
        rw [heard.eq_def, if_neg (show ¬ isNotNull (l :: rest) = true from hnot)]
        split
        · -- `DEFAULT`, which changes nothing at the end of the definition
          cases rest with
          | nil => rw [readAttributes]
          | cons first more => rfl
        · split
          · -- `COMMENT`, with a literal or without
            cases rest with
            | nil => rw [readAttributes]
            | cons value more =>
              simp only
              cases value.kind <;> rfl
          · rfl

/-- Of all attributes only `NOT NULL` says anything about null values. -/
theorem nullable_heard (script : Array Char) (a : Attributes) (l : Lexeme) (rest : List Lexeme) :
    (heard script a l rest).nullable = (a.nullable && !isNotNull (l :: rest)) := by
  rw [heard.eq_def]
  cases isNotNull (l :: rest) with
  | true => rw [if_pos rfl, Bool.not_true, Bool.and_false]
  | false =>
    rw [if_neg (by decide), Bool.not_false, Bool.and_true]
    -- no other attribute touches the flag
    split
    · cases rest <;> rfl
    · split
      · cases rest with
        | nil => rfl
        | cons value more =>
          simp only
          cases value.kind <;> rfl
      · rfl

/-- The value of a default and what is left behind it. -/
theorem splitValue_extent (first : Lexeme) (ls : List Lexeme) :
    first :: ls = (splitValue first ls).1 ++ (splitValue first ls).2 := by
  rw [splitValue]
  split
  · split
    · next hg => simpa using (Group.close?_extent hg).1
    · rfl
  · split
    · next hg => simpa using (Group.read?_extent hg).1
    · rfl

/-! ## What is passed over with an attribute

A keyword that takes an argument is passed over with it, and a default value may be a call or an
expression in parentheses. -/

/-- What stands behind a keyword that takes an argument; the argument is at the front of it. -/
def argument? (ls : List Lexeme) : Option (List Lexeme) :=
  match ls with
  | [] => none
  | l :: rest =>
    if l.keyword = "CHARACTER" && Lexeme.keywordAt rest = "SET" then some (rest.drop 1)
    else if ["CHARSET", "COLLATE", "DEFAULT"].contains l.keyword then some rest
    else none

/-- The ways to get from `rest`, behind the word `l`, to the next attribute. -/
inductive Passed (l : Lexeme) : List Lexeme → List Lexeme → Prop
  | characterSet {set : Lexeme} {rest : List Lexeme} (hset : set.keyword = "SET")
      (hargument : argument? (l :: set :: rest) = some rest) :
      Passed l (set :: rest) (rest.drop 1)
  | word {rest : List Lexeme} (hargument : argument? (l :: rest) = some rest) :
      Passed l rest (rest.drop 1)
  | value {first : Lexeme} {more : List Lexeme}
      (hargument : argument? (l :: first :: more) = some (first :: more)) :
      Passed l (first :: more) (splitValue first more).2
  | lexeme {next : Lexeme} {rest : List Lexeme} (hnext : next.keyword ≠ "NOT") :
      Passed l (next :: rest) rest
  | nothing {rest : List Lexeme} : Passed l rest rest

/-- What is passed over with an attribute is its argument, its value or nothing. -/
theorem passed_afterAttribute (l : Lexeme) (rest : List Lexeme) :
    Passed l rest (afterAttribute l rest) := by
  rw [afterAttribute.eq_def]
  split
  · -- `CHARACTER SET`
    next h =>
    cases rest with
    | nil => exact .nothing
    | cons set rest =>
      have hset : set.keyword = "SET" := of_decide_eq_true (Bool.and_eq_true_iff.mp h).2
      exact .characterSet hset (by rw [argument?, if_pos h]; rfl)
  · next h =>
    have other : ["CHARSET", "COLLATE", "DEFAULT"].contains l.keyword = true →
        argument? (l :: rest) = some rest := by
      intro hl
      rw [argument?, if_neg h, if_pos hl]
    split
    · -- `CHARSET`, `COLLATE`
      next hl =>
      have hl : l.keyword = "CHARSET" ∨ l.keyword = "COLLATE" := by simpa using hl
      exact .word (other (by rcases hl with hl | hl <;> rw [hl] <;> decide))
    · split
      · -- `NOT NULL`: the lexeme that is passed over is the word `NULL`
        next hnull =>
        cases rest with
        | nil => exact .nothing
        | cons null rest =>
          have hnull : null.keyword = "NULL" := of_decide_eq_true (Bool.and_eq_true_iff.mp hnull).2
          exact .lexeme (by rw [hnull]; decide)
      · split
        · -- `DEFAULT`
          next hl =>
          cases rest with
          | nil => exact .nothing
          | cons first more => exact .value (other (by rw [hl]; decide))
        · split
          · -- `COMMENT`: a literal is passed over, and it is no word
            cases rest with
            | nil => exact .nothing
            | cons value more =>
              simp only
              split
              · next hvalue => exact .lexeme (by simp [Lexeme.keyword, hvalue])
              · exact .nothing
          · exact .nothing

theorem Passed.suffix {l : Lexeme} {rest after : List Lexeme} (h : Passed l rest after) :
    after <:+ rest := by
  cases h with
  | characterSet => exact (List.drop_suffix 1 _).trans (List.suffix_cons _ _)
  | word => exact List.drop_suffix 1 _
  | value => exact ⟨_, (splitValue_extent _ _).symm⟩
  | lexeme => exact List.suffix_cons _ _
  | nothing => exact List.suffix_refl _

/-- In a default value only the lexeme at the front and the marks of a call have the depth that the
value began with. -/
theorem inside_value {first : Lexeme} {more front behind : List Lexeme}
    (hsplit : first :: more = front ++ behind)
    (hinside : (splitValue first more).2.length < behind.length)
    (hnot : Lexeme.keywordAt behind ≠ "") {d : Int} (hd : Group.NeverBelow d front) :
    front = [] ∨ 0 < d + Group.depth front := by
  cases front with
  | nil => exact .inl rfl
  | cons x front =>
    refine .inr ?_
    rw [List.cons_append, List.cons_eq_cons] at hsplit
    obtain ⟨rfl, hmore⟩ := hsplit
    obtain ⟨hd0, hd1⟩ := Group.neverBelow_cons.mp hd
    rw [Group.depth_cons]
    rw [splitValue] at hinside
    split at hinside
    · next hopen =>
      rw [Group.depthStep_of_open hopen]
      split at hinside
      · next g hg =>
        obtain ⟨hg, hclosed⟩ := Group.close?_extent hg
        have := hclosed.depth_nonneg (hg.symm.trans hmore) hinside
        omega
      · exact absurd hinside (by simp [hmore])
    · split at hinside
      · next opening g hg =>
        obtain ⟨hcall, hopening, hclosed⟩ := Group.read?_extent hg
        cases front with
        | nil =>
          -- the opening parenthesis of a call has no keyword
          rw [← List.nil_append behind, ← hmore, hcall] at hnot
          exact absurd (Lexeme.keyword_of_isPunct hopening) hnot
        | cons y front =>
          rw [hmore, List.cons_append, List.cons_eq_cons] at hcall
          obtain ⟨rfl, hinner⟩ := hcall
          have hfront := hclosed.depth_nonneg hinner.symm hinside
          have hfirst := hd1 [] List.nil_prefix
          rw [Group.depth_nil] at hfirst
          rw [Group.depth_cons, Group.depthStep_of_open hopening]
          omega
      · exact absurd hinside (by simp [hmore])

/-- **A word `NOT` that is passed over** with an attribute is the argument of a keyword or stands
inside a parenthesis. -/
theorem Passed.inside {l : Lexeme} {rest after front behind : List Lexeme}
    (h : Passed l rest after) (hsplit : rest = front ++ behind)
    (hinside : after.length < behind.length) (hnot : Lexeme.keywordAt behind = "NOT")
    {d : Int} (hd : Group.NeverBelow d front) :
    argument? (l :: rest) = some behind ∨ 0 < d + Group.depth front := by
  have hlen : rest.length = front.length + behind.length := by rw [hsplit, List.length_append]
  cases h with
  | @characterSet set rest hset hargument =>
    -- of the two lexemes that are passed over the first is `SET`, so the second is the argument
    left
    cases front with
    | nil =>
      rw [← List.nil_append behind, ← hsplit, Lexeme.keywordAt, hset] at hnot
      exact absurd hnot (by decide)
    | cons x front =>
      rw [List.length_drop] at hinside
      rw [List.length_cons, List.length_cons] at hlen
      have hfront : front = [] := List.eq_nil_of_length_eq_zero (by omega)
      rw [hfront, List.cons_append, List.nil_append, List.cons_eq_cons] at hsplit
      rw [hargument, hsplit.2]
  | word hargument =>
    left
    rw [List.length_drop] at hinside
    have hfront : front = [] := List.eq_nil_of_length_eq_zero (by omega)
    rw [hargument, hsplit, hfront, List.nil_append]
  | value hargument =>
    have hkeyword : Lexeme.keywordAt behind ≠ "" := by rw [hnot]; decide
    rcases inside_value hsplit hinside hkeyword hd with hfront | hdepth
    · left
      rw [hargument, hsplit, hfront, List.nil_append]
    · right
      exact hdepth
  | lexeme hnext =>
    rw [List.length_cons] at hlen
    have hfront : front = [] := List.eq_nil_of_length_eq_zero (by omega)
    rw [← List.nil_append behind, ← hfront, ← hsplit] at hnot
    exact absurd hnot hnext
  | nothing => omega

/-- The argument of a keyword stands between the keyword and the next attribute. -/
theorem argument_between {l : Lexeme} {rest behind : List Lexeme}
    (h : argument? (l :: rest) = some behind) (hbehind : behind ≠ []) :
    (afterAttribute l rest).length < behind.length ∧ behind.length ≤ rest.length := by
  have hpos : 0 < behind.length := List.length_pos_of_ne_nil hbehind
  rw [argument?] at h
  split at h
  · next hset =>
    cases h
    rw [List.length_drop] at hpos
    rw [afterAttribute.eq_def, if_pos hset, List.length_drop, List.length_drop]
    omega
  · next hset =>
    split at h
    · next hl =>
      cases h
      refine ⟨?_, Nat.le_refl _⟩
      rw [afterAttribute.eq_def, if_neg hset]
      split
      · rw [List.length_drop]
        omega
      · next hword =>
        -- of the words with an argument only `DEFAULT` is left, which takes one value or more
        have hdefault : l.keyword = "DEFAULT" := by
          simp only [List.contains_eq_mem, List.mem_cons, List.not_mem_nil, decide_eq_true_eq,
            or_false, Bool.or_eq_true] at hl hword
          tauto
        rw [if_neg (by simp [hdefault]), if_pos hdefault]
        cases rest with
        | nil => exact absurd rfl hbehind
        | cons first more => exact Nat.lt_succ_of_le (length_splitValue_le first more)
    · exact absurd h (by simp)

/-! ## The places of attributes

The reader looks for an attribute at some places only: it jumps from one to the next over what
belongs to the attribute in between. The list of these places is what the induction of most later
proofs runs along. -/

/-- The places at which the reader looks for an attribute, each as what stands there and behind. -/
def attributeStarts (ls : List Lexeme) : List (List Lexeme) :=
  match ls with
  | [] => [[]]
  | l :: rest => (l :: rest) :: attributeStarts (afterAttribute l rest)
termination_by ls.length
decreasing_by
  have := (passed_afterAttribute l rest).suffix.length_le
  rw [List.length_cons]
  omega

theorem suffix_of_mem_attributeStarts {ls s : List Lexeme} (h : s ∈ attributeStarts ls) :
    s <:+ ls := by
  fun_induction attributeStarts ls with
  | case1 => simp_all
  | case2 l rest ih =>
    rcases List.mem_cons.mp h with rfl | h
    · exact List.suffix_refl _
    · exact (ih h).trans ((passed_afterAttribute l rest).suffix.trans (List.suffix_cons l rest))

/-- Of two places one lies behind the attribute of the other. -/
theorem attributeStarts_apart {ls : List Lexeme} {l : Lexeme} {rest s : List Lexeme}
    (h : l :: rest ∈ attributeStarts ls) (hs : s ∈ attributeStarts ls) :
    s.length ≤ (afterAttribute l rest).length ∨ (l :: rest).length ≤ s.length := by
  fun_induction attributeStarts ls with
  | case1 => simp at h
  | case2 x more ih =>
    -- every later place lies behind the attribute of the first one
    have later : ∀ t ∈ attributeStarts (afterAttribute x more),
        t.length ≤ (afterAttribute x more).length ∧ t.length ≤ more.length := by
      intro t ht
      have h1 := (suffix_of_mem_attributeStarts ht).length_le
      have h2 := (passed_afterAttribute x more).suffix.length_le
      omega
    -- either place is the front of the list or one of the later ones
    rcases List.mem_cons.mp h with he | h
    · rcases List.mem_cons.mp hs with rfl | hs
      · right
        rw [he]
      · left
        cases he
        exact (later s hs).1
    · rcases List.mem_cons.mp hs with rfl | hs
      · right
        have := (later _ h).2
        rw [List.length_cons (a := x)]
        omega
      · exact ih h hs

/-- A place in an attribute list is an argument when a keyword that takes one stands before it. -/
def IsArgument (attributes behind : List Lexeme) : Prop :=
  ∃ s ∈ attributeStarts attributes, argument? s = some behind

instance (attributes behind : List Lexeme) : Decidable (IsArgument attributes behind) := by
  unfold IsArgument
  infer_instance

theorem not_mem_attributeStarts_of_isArgument {attributes behind : List Lexeme}
    (h : IsArgument attributes behind) (hbehind : behind ≠ []) :
    behind ∉ attributeStarts attributes := by
  obtain ⟨s, hs, hargument⟩ := h
  cases s with
  | nil => exact absurd hargument (by simp [argument?])
  | cons l rest =>
    intro hmem
    have hbetween := argument_between hargument hbehind
    have hapart := attributeStarts_apart hs hmem
    rw [List.length_cons] at hapart
    omega

/-- **Where a word `NOT` can stand.** The reader looks for an attribute there, or it is an argument,
or it stands inside a parenthesis. -/
theorem start_or_argument_or_inside {attributes front behind : List Lexeme}
    (hsplit : attributes = front ++ behind) (hnot : Lexeme.keywordAt behind = "NOT") {d : Int}
    (hd : Group.NeverBelow d attributes) :
    behind ∈ attributeStarts attributes ∨ IsArgument attributes behind ∨
      0 < d + Group.depth front := by
  fun_induction attributeStarts attributes generalizing front d with
  | case1 =>
    obtain ⟨-, rfl⟩ := List.nil_eq_append_iff.mp hsplit
    exact absurd hnot (by decide)
  | case2 l rest ih =>
    cases front with
    | nil =>
      left
      rw [hsplit]
      exact List.mem_cons_self
    | cons x front =>
      rw [List.cons_append, List.cons_eq_cons] at hsplit
      obtain ⟨rfl, hrest⟩ := hsplit
      obtain ⟨-, hrestBelow⟩ := Group.neverBelow_cons.mp hd
      rw [Group.depth_cons, ← Int.add_assoc]
      have hpassed := passed_afterAttribute l rest
      -- the place lies inside what is passed over with this attribute, or behind it
      by_cases hinside : (afterAttribute l rest).length < behind.length
      · have hfront : Group.NeverBelow (d + Group.depthStep l) front :=
          (hrest ▸ hrestBelow).of_append_left
        rcases hpassed.inside hrest hinside hnot hfront with hargument | hdepth
        · right
          left
          exact ⟨l :: rest, by rw [attributeStarts]; exact List.mem_cons_self, hargument⟩
        · exact .inr (.inr hdepth)
      · -- `behind` lies behind the attribute: go on from there with the depth that it leaves
        obtain ⟨passed, hafter⟩ := hpassed.suffix
        obtain ⟨front', rfl, hbehind⟩ :
            ∃ front', front = passed ++ front' ∧ afterAttribute l rest = front' ++ behind := by
          rcases List.append_eq_append_iff.mp (hafter.trans hrest) with h | ⟨c, hpassed, hbehind⟩
          · exact h
          · have hc : c = [] := List.eq_nil_of_length_eq_zero (by
              rw [hbehind, List.length_append] at hinside
              omega)
            rw [hc, List.append_nil] at hpassed
            exact ⟨[], by rw [hpassed, List.append_nil], by rw [hbehind, hc]; rfl⟩
        have hbelow := (hafter ▸ hrestBelow).of_append_right
        rcases ih hbehind hbelow with hstart | ⟨s, hs, hargument⟩ | hdepth
        · left
          exact List.mem_cons_of_mem _ hstart
        · right
          left
          exact ⟨s, by rw [attributeStarts]; exact List.mem_cons_of_mem _ hs, hargument⟩
        · right
          right
          rw [Group.depth_append]
          omega

end ColumnDef

end TableDocs.Sql
