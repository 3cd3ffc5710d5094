import Mathlib.Logic.Relation
import TableDocs.Collection.Loading
import TableDocs.Proofs.Data.Value
import TableDocs.Proofs.Validation.Checked

/-!
# TableDocs — loading reads the declared members only

The document of a collection has objects on four levels. Each level declares its members, and what
else an object holds does not show in the collection that is loaded: neither other members, nor the
order of the members, nor which of its two names a member has.

* **`Level`** — the four levels, with the members that each declares and how its objects are read.
* **`Edit`** — a change of a document that touches nothing declared, anywhere in it.
* **`Agree`**, **`Agree.check_eq_valid_iff`** — objects that give every declared member alike are
  read alike.
* **`Edit.check_eq_valid_iff`** — so an edit changes neither whether a document is read nor as what.
* **`load_edited`** — and the same for the texts of documents, after any number of edits.
-/

namespace TableDocs

open TableDocs.Data
open TableDocs.Validation

variable {members members' : List (String × Value)}

/-! ## What objects are read as

Each object is read member by member, and a problem of one member does not hide that of another. So
a valid object is one whose members are all valid, and there is one statement for each of them. -/

/-- The five members of a column. Two of them must be there. -/
theorem ColumnDoc.ofMembers_eq_valid_iff {c : ColumnDoc} : ofMembers members = .valid c ↔
    (∃ v, given? members ["name"] = some v ∧ asText v = .valid c.name) ∧
    (∃ v, given? members ["type"] = some v ∧ asText v = .valid c.type) ∧
    Overlaid asBool true (given? members ["nullable"]) c.nullable ∧
    Overlaid asBool false (given? members ["isPrimaryKey", "is_primary_key"]) c.isPrimaryKey ∧
    Overlaid asTextOrNull "" (given? members ["comment"]) c.comment := by
  simp only [ofMembers, Checked.andThen_eq_valid_iff, Checked.map_eq_valid_iff,
    ← required_eq_valid_iff, ← optional_eq_valid_iff_given]
  constructor
  · rintro ⟨_, ⟨_, ⟨_, ⟨_, ⟨_, hname, rfl⟩, _, htype, rfl⟩, _, hnullable, rfl⟩, _, hkey, rfl⟩, _,
      hcomment, rfl⟩
    exact ⟨hname, htype, hnullable, hkey, hcomment⟩
  · rintro ⟨hname, htype, hnullable, hkey, hcomment⟩
    exact ⟨_, ⟨_, ⟨_, ⟨_, ⟨_, hname, rfl⟩, _, htype, rfl⟩, _, hnullable, rfl⟩, _, hkey, rfl⟩, _,
      hcomment, rfl⟩

/-- The three members of a table. -/
theorem TableDoc.ofMembers_eq_valid_iff {origin : Origin} {t : TableDoc} :
    ofMembers origin members = .valid t ↔
      (∃ v, given? members ["tableName", "table_name"] = some v ∧ asText v = .valid t.name) ∧
      Overlaid asTextOrNull "" (given? members ["comment"]) t.comment ∧
      Overlaid (asList origin (asObject origin "ColumnDoc" ColumnDoc.ofMembers)) []
        (given? members ["columns"]) t.columns := by
  simp only [ofMembers, Checked.andThen_eq_valid_iff, Checked.map_eq_valid_iff,
    ← required_eq_valid_iff, ← optional_eq_valid_iff_given]
  constructor
  · rintro ⟨_, ⟨_, ⟨_, hname, rfl⟩, _, hcomment, rfl⟩, _, hcolumns, rfl⟩
    exact ⟨hname, hcomment, hcolumns⟩
  · rintro ⟨hname, hcomment, hcolumns⟩
    exact ⟨_, ⟨_, ⟨_, hname, rfl⟩, _, hcomment, rfl⟩, _, hcolumns, rfl⟩

/-- The two members of a database. -/
theorem DatabaseDoc.ofMembers_eq_valid_iff {origin : Origin} {d : DatabaseDoc} :
    ofMembers origin members = .valid d ↔
      (∃ v, given? members ["database"] = some v ∧ asText v = .valid d.name) ∧
      Overlaid (asList origin (asObject origin "TableDoc" (TableDoc.ofMembers origin))) []
        (given? members ["tables"]) d.tables := by
  simp only [ofMembers, Checked.andThen_eq_valid_iff, Checked.map_eq_valid_iff,
    ← required_eq_valid_iff, ← optional_eq_valid_iff_given]
  constructor
  · rintro ⟨_, ⟨_, hname, rfl⟩, _, htables, rfl⟩
    exact ⟨hname, htables⟩
  · rintro ⟨hname, htables⟩
    exact ⟨_, ⟨_, hname, rfl⟩, _, htables, rfl⟩

namespace Collection

/-- The one member of a collection. -/
theorem ofMembers_eq_valid_iff {origin : Origin} {c : Collection} :
    ofMembers origin members = .valid c ↔
      Overlaid (asList origin (asObject origin "DatabaseDoc" (DatabaseDoc.ofMembers origin))) []
        (given? members ["databases"]) c.databases := by
  simp only [ofMembers, Checked.map_eq_valid_iff, ← optional_eq_valid_iff_given]
  constructor
  · rintro ⟨_, hdatabases, rfl⟩
    exact hdatabases
  · intro hdatabases
    exact ⟨_, hdatabases, rfl⟩

/-! ## Levels

The levels differ in what they declare and in nothing else, so an edit can be described once for all
of them. -/

/-- The levels of a document that are objects. -/
inductive Level
  | collection
  | database
  | table
  | column
  deriving DecidableEq

namespace Level

/-- The declared members of a level with the names that each may have, but for comments and lists of
objects. -/
def plain : Level → List (List String)
  | collection => []
  | database => [["database"]]
  | table => [["tableName", "table_name"]]
  | column => [["name"], ["type"], ["nullable"], ["isPrimaryKey", "is_primary_key"]]

/-- Does the level declare a comment? -/
def commented : Level → Bool
  | collection | database => false
  | table | column => true

/-- The member that lists the objects one level below, and their level. -/
def inner? : Level → Option (String × Level)
  | collection => some ("databases", database)
  | database => some ("tables", table)
  | table => some ("columns", column)
  | column => none

/-- All declared members of a level. -/
def fields (l : Level) : List (List String) :=
  l.plain ++ (if l.commented then [["comment"]] else []) ++
    l.inner?.toList.map fun inner => [inner.1]

example : fields table = [["tableName", "table_name"], ["comment"], ["columns"]] := rfl

/-- What an object is read as. -/
def Doc : Level → Type
  | collection => Collection
  | database => DatabaseDoc
  | table => TableDoc
  | column => ColumnDoc

/-- Reads the members of an object. -/
def ofMembers : (l : Level) → List (String × Value) → Checked l.Doc
  | collection => Collection.ofMembers .document
  | database => DatabaseDoc.ofMembers .document
  | table => TableDoc.ofMembers .document
  | column => ColumnDoc.ofMembers

/-- The name of a level in reports of problems. -/
def modelName : Level → String
  | collection => Collection.modelName
  | database => "DatabaseDoc"
  | table => "TableDoc"
  | column => "ColumnDoc"

/-- Reads an object of a level. -/
def check (l : Level) : Value → Checked l.Doc :=
  asObject .document l.modelName l.ofMembers

end Level

variable {l : Level}

/-! ## Edits

Each constructor is one small change. Any number of them, in whichever direction, is the equivalence
that they generate. -/

/-- Gives members of one name another name. -/
def rename (name other : String) (m : String × Value) : String × Value :=
  if m.1 = name then (other, m.2) else m

/-- A change of an object that touches no declared member: another member is put in, two members
change places, a member gets the other of its names, an empty comment is written in another way, or
the same is done to an object one level below. -/
inductive Edit : Level → Value → Value → Prop
  | undeclared {l : Level} (before after : List (String × Value)) (key : String) (v : Value)
      (hkey : key ∉ l.fields.flatten) :
      Edit l (.object (before ++ after)) (.object (before ++ (key, v) :: after))
  | swapped {l : Level} (before after : List (String × Value)) (m n : String × Value)
      (hkeys : m.1 ≠ n.1) :
      Edit l (.object (before ++ m :: n :: after)) (.object (before ++ n :: m :: after))
  | renamed {l : Level} (members : List (String × Value)) (name other : String)
      (hnames : ∃ keys ∈ l.fields, name ∈ keys ∧ other ∈ keys ∧ name ≠ other)
      (hother : Value.member? members other = none) :
      Edit l (.object members) (.object (members.map (rename name other)))
  | emptyComment {l : Level} (before after : List (String × Value)) (hcomment : l.commented) :
      Edit l (.object (before ++ ("comment", .null) :: after))
        (.object (before ++ ("comment", .text "") :: after))
  | noComment {l : Level} (before after : List (String × Value)) (hcomment : l.commented)
      (hnone : Value.member? (before ++ after) "comment" = none) :
      Edit l (.object (before ++ ("comment", .null) :: after)) (.object (before ++ after))
  | inner {l l' : Level} {key : String} {v v' : Value} (before after : List (String × Value))
      (front back : List Value) (hinner : l.inner? = some (key, l')) (h : Edit l' v v') :
      Edit l (.object (before ++ (key, .list (front ++ v :: back)) :: after))
        (.object (before ++ (key, .list (front ++ v' :: back)) :: after))

/-! ## Objects that are read alike

What an object is read as depends on its declared members alone. Two objects that give these alike
are read alike, and that is all an edit has to keep. -/

/-- Objects of a level give every declared member alike. A comment has to be the same text only, and
a list of objects the same list of what these are read as. -/
structure Agree (l : Level) (members members' : List (String × Value)) : Prop where
  plain : ∀ keys ∈ l.plain, given? members keys = given? members' keys
  comment : l.commented → ∀ text,
    Overlaid asTextOrNull "" (given? members ["comment"]) text ↔
      Overlaid asTextOrNull "" (given? members' ["comment"]) text
  inner : ∀ key l', l.inner? = some (key, l') → ∀ docs,
    Overlaid (asList .document l'.check) [] (given? members [key]) docs ↔
      Overlaid (asList .document l'.check) [] (given? members' [key]) docs

/-- Objects that agree are read alike. The cases are the levels. -/
theorem Agree.ofMembers_eq_valid_iff (h : Agree l members members') (doc : l.Doc) :
    l.ofMembers members = .valid doc ↔ l.ofMembers members' = .valid doc := by
  cases l with
  -- At each level a document is valid by its declared members, and these agree.
  | collection =>
    have hdatabases := h.inner _ _ rfl
    exact Collection.ofMembers_eq_valid_iff.trans
      ((hdatabases _).trans Collection.ofMembers_eq_valid_iff.symm)
  | database =>
    have hname := h.plain ["database"] (by decide)
    have htables := h.inner _ _ rfl
    refine DatabaseDoc.ofMembers_eq_valid_iff.trans
      (.trans ?_ DatabaseDoc.ofMembers_eq_valid_iff.symm)
    rw [hname]
    exact and_congr_right' (htables _)
  | table =>
    have hname := h.plain ["tableName", "table_name"] (by decide)
    have hcomment := h.comment rfl
    have hcolumns := h.inner _ _ rfl
    refine TableDoc.ofMembers_eq_valid_iff.trans (.trans ?_ TableDoc.ofMembers_eq_valid_iff.symm)
    rw [hname]
    exact and_congr_right' (and_congr (hcomment _) (hcolumns _))
  | column =>
    have hname := h.plain ["name"] (by decide)
    have htype := h.plain ["type"] (by decide)
    have hnullable := h.plain ["nullable"] (by decide)
    have hkey := h.plain ["isPrimaryKey", "is_primary_key"] (by decide)
    have hcomment := h.comment rfl
    refine ColumnDoc.ofMembers_eq_valid_iff.trans (.trans ?_ ColumnDoc.ofMembers_eq_valid_iff.symm)
    rw [hname, htype, hnullable, hkey, hcomment]

theorem Agree.check_eq_valid_iff (h : Agree l members members') (doc : l.Doc) :
    l.check (.object members) = .valid doc ↔ l.check (.object members') = .valid doc :=
  h.ofMembers_eq_valid_iff doc

/-- Objects that give the same values for each declared member agree. -/
theorem Agree.of_given?_eq (h : ∀ keys ∈ l.fields, given? members keys = given? members' keys) :
    Agree l members members' where
  plain := fun keys hkeys => h keys (by simp [Level.fields, hkeys])
  comment := by
    intro hcommented text
    rw [h ["comment"] (by simp [Level.fields, hcommented])]
  inner := by
    intro key l' hinner docs
    rw [h [key] (by simp [Level.fields, hinner])]

/-! ## Members under edits

An edit changes a list of members. What is looked up in it is found as before, unless it is looked
up by the very name that was touched. -/

section Members

variable {before after : List (String × Value)} {key name other : String} {keys : List String}
  {v : Value}

/-- A member is found alike if each of its names is. -/
theorem given?_congr (h : ∀ key ∈ keys, Value.member? members key = Value.member? members' key) :
    given? members keys = given? members' keys := by
  induction keys with
  | nil => rfl
  | cons key keys ih =>
    obtain ⟨hkey, hkeys⟩ := List.forall_mem_cons.mp h
    rw [given?, given?, List.findSome?_cons, List.findSome?_cons, hkey]
    cases Value.member? members' key with
    | none => exact ih hkeys
    | some v => rfl

/-- A member of another name does not show. -/
theorem member?_insert (h : key ≠ name) :
    Value.member? (before ++ (name, v) :: after) key = Value.member? (before ++ after) key := by
  rw [member?_append, member?_append, member?_cons, if_neg h, Option.or_none]

/-- A member of the same name shows, unless one stands behind it. -/
theorem member?_insert_self :
    Value.member? (before ++ (name, v) :: after) name =
      (Value.member? after name).or (some v) := by
  rw [member?_append, member?_cons, if_pos rfl, Option.or_assoc]
  rfl

theorem given?_insert (h : name ∉ keys) :
    given? (before ++ (name, v) :: after) keys = given? (before ++ after) keys :=
  given?_congr fun _ hkey => member?_insert fun heq => h (heq ▸ hkey)

/-- The order of members of different names does not matter. -/
theorem member?_swap {m n : String × Value} (h : m.1 ≠ n.1) :
    Value.member? (before ++ m :: n :: after) key =
      Value.member? (before ++ n :: m :: after) key := by
  simp only [member?_append, member?_cons, Option.or_assoc]
  congr 1
  rw [← Option.or_assoc, ← Option.or_assoc]
  congr 1
  -- at most one of the two has the name that is looked up
  by_cases hm : key = m.1
  · rw [if_pos hm, if_neg (hm ▸ h)]
    rfl
  · rw [if_neg hm, Option.none_or, Option.or_none]

/-- A third name is found as before. -/
theorem member?_rename_of_ne (hname : key ≠ name) (hother : key ≠ other) :
    Value.member? (members.map (rename name other)) key = Value.member? members key := by
  induction members with
  | nil => rfl
  | cons m members ih =>
    rw [List.map_cons, member?_cons, member?_cons, ih, rename]
    congr 1
    by_cases hm : m.1 = name
    · rw [if_pos hm, if_neg hother, if_neg (hm ▸ hname)]
    · rw [if_neg hm]

/-- The old name is gone. -/
theorem member?_rename_self (members : List (String × Value)) (h : name ≠ other) :
    Value.member? (members.map (rename name other)) name = none := by
  induction members with
  | nil => rfl
  | cons m members ih =>
    rw [List.map_cons, member?_cons, ih, rename, Option.none_or]
    by_cases hm : m.1 = name
    · rw [if_pos hm, if_neg h]
    · rw [if_neg hm, if_neg (Ne.symm hm)]

/-- The new name finds what the old one found, if it was free. -/
theorem member?_rename_other (name : String) (hother : Value.member? members other = none) :
    Value.member? (members.map (rename name other)) other = Value.member? members name := by
  induction members with
  | nil => rfl
  | cons m members ih =>
    -- no member has the new name yet, so none can hide the renamed one
    rw [member?_cons, Option.or_eq_none_iff] at hother
    obtain ⟨hmembers, hm⟩ := hother
    rw [List.map_cons, member?_cons, member?_cons, ih hmembers, rename]
    congr 1
    by_cases hname : m.1 = name
    · rw [if_pos hname, if_pos rfl, if_pos hname.symm]
    · rw [if_neg hname, hm, if_neg (Ne.symm hname)]

end Members

/-! ## Edits keep what is read

The tables of declared names are small, so what is needed of them is decided level by level: no name
is declared twice, and a member has two names at most. -/

namespace Level

/-- Two different names of one member are all its names. -/
theorem eq_pair_of_mem_fields {keys : List String} {name other : String} (h : keys ∈ l.fields)
    (hname : name ∈ keys) (hother : other ∈ keys) (hne : name ≠ other) :
    keys = [name, other] ∨ keys = [other, name] := by
  have hall : ∀ keys ∈ l.fields, ∀ name ∈ keys, ∀ other ∈ keys, name ≠ other →
      keys = [name, other] ∨ keys = [other, name] := by
    cases l <;> decide
  exact hall keys h name hname other hother hne

/-- Different members have different names. -/
theorem disjoint_of_mem_fields {keys keys' : List String} (h : keys ∈ l.fields)
    (h' : keys' ∈ l.fields) (hne : keys ≠ keys') : ∀ key ∈ keys, key ∉ keys' := by
  have hall : ∀ keys ∈ l.fields, ∀ keys' ∈ l.fields, keys ≠ keys' → ∀ key ∈ keys, key ∉ keys' := by
    cases l <;> decide
  exact hall keys h keys' h' hne

theorem comment_notMem_plain {keys : List String} (h : keys ∈ l.plain) : "comment" ∉ keys := by
  have hall : ∀ keys ∈ l.plain, "comment" ∉ keys := by cases l <;> decide
  exact hall keys h

theorem inner_ne_comment {inner : String × Level} (h : l.inner? = some inner) :
    inner.1 ≠ "comment" := by
  have hall : ∀ inner ∈ l.inner?, inner.1 ≠ "comment" := by cases l <;> decide
  exact hall inner h

theorem inner_notMem_plain {inner : String × Level} {keys : List String}
    (h : l.inner? = some inner) (hkeys : keys ∈ l.plain) : inner.1 ∉ keys := by
  have hall : ∀ inner ∈ l.inner?, ∀ keys ∈ l.plain, inner.1 ∉ keys := by cases l <;> decide
  exact hall inner h keys hkeys

end Level

/-- Giving a member its other name keeps the object as it is read. -/
theorem Agree.renamed {name other : String}
    (hnames : ∃ keys ∈ l.fields, name ∈ keys ∧ other ∈ keys ∧ name ≠ other)
    (hother : Value.member? members other = none) :
    Agree l members (members.map (rename name other)) := by
  obtain ⟨names, hfield, hname, hother', hne⟩ := hnames
  refine .of_given?_eq fun keys hkeys => ?_
  -- it is the renamed member, or one of other names
  by_cases hsame : keys = names
  · have hself := member?_rename_self members hne
    have hmoved := member?_rename_other name hother
    obtain rfl | rfl := Level.eq_pair_of_mem_fields hfield hname hother' hne
    · simp only [hsame, given?, List.findSome?_cons, List.findSome?_nil, hself, hmoved, hother]
    · simp only [hsame, given?, List.findSome?_cons, List.findSome?_nil, hself, hmoved, hother]
  · have hapart := Level.disjoint_of_mem_fields hkeys hfield hsame
    refine given?_congr fun key hkey => (member?_rename_of_ne ?_ ?_).symm
    · rintro rfl
      exact hapart key hkey hname
    · rintro rfl
      exact hapart key hkey hother'

/-- Nothing but the comment may differ, which has to be the same text. -/
theorem Agree.of_comment
    (hothers : ∀ keys, "comment" ∉ keys → given? members keys = given? members' keys)
    (hcomment : ∀ text, Overlaid asTextOrNull "" (Value.member? members "comment") text ↔
      Overlaid asTextOrNull "" (Value.member? members' "comment") text) :
    Agree l members members' where
  plain := fun keys hkeys => hothers keys (Level.comment_notMem_plain hkeys)
  comment := by
    intro _ text
    rw [given?_singleton, given?_singleton, hcomment]
  inner := by
    intro key l' hinner docs
    rw [hothers [key] (by simpa using (Level.inner_ne_comment hinner).symm)]

theorem overlaid_null_iff {text : String} :
    Overlaid asTextOrNull "" (some .null) text ↔ text = "" := by
  rw [overlaid_some_iff, asTextOrNull, Checked.valid.injEq, eq_comm]

theorem overlaid_emptyText_iff {text : String} :
    Overlaid asTextOrNull "" (some (.text "")) text ↔ text = "" := by
  have hempty : asTextOrNull (.text "") = .valid "" := rfl
  rw [overlaid_some_iff, hempty, Checked.valid.injEq, eq_comm]

/-- No comment can be written in two ways. -/
theorem Agree.emptyComment (before after : List (String × Value)) :
    Agree l (before ++ ("comment", .null) :: after) (before ++ ("comment", .text "") :: after) := by
  refine .of_comment (fun keys hkeys => ?_) fun text => ?_
  · rw [given?_insert hkeys, given?_insert hkeys]
  · rw [member?_insert_self, member?_insert_self]
    cases Value.member? after "comment" with
    | none => exact overlaid_null_iff.trans overlaid_emptyText_iff.symm
    | some v => exact Iff.rfl

/-- Or it can be left out. -/
theorem Agree.noComment {before after : List (String × Value)}
    (hnone : Value.member? (before ++ after) "comment" = none) :
    Agree l (before ++ ("comment", .null) :: after) (before ++ after) := by
  refine .of_comment (fun keys hkeys => given?_insert hkeys) fun text => ?_
  rw [hnone]
  rw [member?_append, Option.or_eq_none_iff] at hnone
  rw [member?_insert_self, hnone.1]
  exact overlaid_null_iff.trans overlaid_none_iff.symm

/-- Nothing but the list of objects may differ, which has to be read as the same. -/
theorem Agree.inner_insert {l' : Level} {key : String} {v v' : Value}
    (before after : List (String × Value)) (hinner : l.inner? = some (key, l'))
    (h : ∀ docs, asList .document l'.check v = .valid docs ↔
      asList .document l'.check v' = .valid docs) :
    Agree l (before ++ (key, v) :: after) (before ++ (key, v') :: after) where
  plain := by
    intro keys hkeys
    -- the key of the list is none of the plain ones
    have hkey := Level.inner_notMem_plain hinner hkeys
    rw [given?_insert hkey, given?_insert hkey]
  comment := by
    intro _ text
    have hkey : key ∉ ["comment"] := by simpa using Level.inner_ne_comment hinner
    rw [given?_insert hkey, given?_insert hkey]
  inner := by
    intro key' l'' hinner' docs
    obtain ⟨rfl, rfl⟩ : key = key' ∧ l' = l'' := by simpa [hinner] using hinner'
    rw [given?_singleton, given?_singleton, member?_insert_self, member?_insert_self]
    -- the last member of a key counts, so the edit shows only where none follows
    cases Value.member? after key with
    | none => exact overlaid_some_iff.trans ((h docs).trans overlaid_some_iff.symm)
    | some v => exact Iff.rfl

/-- A list is read as before when one of its objects is replaced by one that is read alike. -/
theorem asList_replace {α : Type} {check : Value → Checked α} {v v' : Value}
    (h : ∀ a, check v = .valid a ↔ check v' = .valid a) (front back : List Value) (as : List α) :
    asList .document check (.list (front ++ v :: back)) = .valid as ↔
      asList .document check (.list (front ++ v' :: back)) = .valid as := by
  simp only [asList, itemsFrom_eq_valid_iff]
  induction front generalizing as with
  | nil => simp only [List.nil_append, List.forall₂_cons_left_iff, h]
  | cons first front ih => simp only [List.cons_append, List.forall₂_cons_left_iff, ih]

/-- **An edit changes neither whether an object is read nor as what.** -/
theorem Edit.check_eq_valid_iff {v v' : Value} (h : Edit l v v') (doc : l.Doc) :
    l.check v = .valid doc ↔ l.check v' = .valid doc := by
  induction h with
  -- All edits but the last stay at one level; the last one goes one level further down.
  | undeclared before after key v hkey =>
    refine (Agree.of_given?_eq fun keys hkeys => ?_).check_eq_valid_iff doc
    exact (given?_insert fun hmem => hkey (List.mem_flatten.mpr ⟨keys, hkeys, hmem⟩)).symm
  | swapped before after m n hkeys =>
    refine (Agree.of_given?_eq fun keys _ => ?_).check_eq_valid_iff doc
    exact given?_congr fun key _ => member?_swap hkeys
  | renamed members name other hnames hother =>
    exact (Agree.renamed hnames hother).check_eq_valid_iff doc
  | emptyComment before after =>
    exact (Agree.emptyComment before after).check_eq_valid_iff doc
  | noComment before after _ hnone => exact (Agree.noComment hnone).check_eq_valid_iff doc
  | inner before after front back hinner _ ih =>
    exact (Agree.inner_insert before after hinner (asList_replace ih front back)).check_eq_valid_iff
      doc

/-! ## Texts

A text is parsed first, and from there on it is a value. Which texts are documents is left to the
parser, so two texts are compared that it takes for two such values. -/

/-- A text loads as a collection if its value is read as one. -/
theorem toOption_load_eq_some_iff {parse? : Json.Parser} {text : String} {v : Value}
    {c : Collection} (h : parse? text.toList = some v) :
    (load text parse?).toOption = some c ↔ ofValue v = .valid c := by
  rw [load, h]
  cases hv : ofValue v <;> simp [hv, Except.toOption]

/-- **Documents that differ by edits load alike.** Edits touch members that are not declared, the
order of members of different names, the choice between the two names of a member and the way in
which an empty comment is written, on every level. However many of them there are, and in whichever
direction, they change neither whether a document is loaded nor the collection. What is a document
is for the parser to say, whichever it is. -/
theorem load_edited (parse? : Json.Parser) (a b : String) (v v' : Value)
    (ha : parse? a.toList = some v) (hb : parse? b.toList = some v')
    (h : Relation.EqvGen (Edit .collection) v v') :
    (load a parse?).toOption = (load b parse?).toOption := by
  have hread : ∀ c, ofValue v = .valid c ↔ ofValue v' = .valid c := by
    clear ha hb
    induction h with
    | rel v v' hedit => exact hedit.check_eq_valid_iff
    | refl v => exact fun _ => Iff.rfl
    | symm v v' _ ih => exact fun c => (ih c).symm
    | trans v v' v'' _ _ ih ih' => exact fun c => (ih c).trans (ih' c)
  refine Option.ext fun c => ?_
  rw [toOption_load_eq_some_iff ha, toOption_load_eq_some_iff hb]
  exact hread c

/-! ### A document that was written by hand -/

def byHand : String :=
  "\x7b\"databases\":[\x7b\"tables\":[],\"database\":\"a\"\x7d],\"totalTables\":7\x7d"

def byProgram : String :=
  "\x7b\"databases\":[\x7b\"database\":\"a\",\"tables\":[]\x7d]\x7d"

/-- A total that is wrong and members that stand the other way round do not show. -/
theorem load_edited_byHand :
    (load byHand).toOption = (load byProgram).toOption ∧
      (load byProgram).toOption = some { databases := [{ name := "a" }] } := by
  have hhand : Json.parse? byHand.toList = some (.object
      [("databases", .list [.object [("tables", .list []), ("database", .text "a")]]),
        ("totalTables", .int 7)]) := by
    decide +kernel
  have hprogram : Json.parse? byProgram.toList = some (.object
      [("databases", .list [.object [("database", .text "a"), ("tables", .list [])]])]) := by
    decide +kernel
  have htotal := Edit.undeclared (l := .collection)
    [("databases", .list [.object [("tables", .list []), ("database", .text "a")]])] []
    "totalTables" (.int 7) (by decide)
  have hswapped := Edit.inner (l := .collection) [] [] [] [] rfl
    (Edit.swapped (l := .database) [] [] ("tables", .list []) ("database", .text "a") (by decide))
  have hedits := (Relation.EqvGen.rel _ _ htotal).symm.trans _ _ _ (.rel _ _ hswapped)
  exact ⟨load_edited Json.parse? byHand byProgram _ _ hhand hprogram hedits,
    (toOption_load_eq_some_iff hprogram).mpr rfl⟩

/-! ### A member that is nested too deep -/

/-- Lists inside each other, and nothing in the innermost. -/
def lists : Nat → Value
  | 0 => .list []
  | n + 1 => .list [lists n]

/-- An object with lists in a member that no level declares. -/
def deepText : List Char :=
  ['\x7b', '"', 'x', '"', ':'] ++ List.replicate 300 '[' ++ List.replicate 300 ']' ++ ['\x7d']

/-- A parser may set a limit that the format does not know. By the format the two texts are
documents that differ by an edit, and the parser of this library reads the first of them only. -/
theorem load_edited_deep :
    Json.read? "\x7b\x7d".toList = some (.object []) ∧
      Json.read? (String.ofList deepText).toList = some (.object [("x", lists 299)]) ∧
        Edit .collection (.object []) (.object [("x", lists 299)]) ∧
          (load "\x7b\x7d").toOption = some {} ∧
            (load (String.ofList deepText)).toOption = none := by
  have hdeep : Json.read? (String.ofList deepText).toList = some (.object [("x", lists 299)]) := by
    rw [String.toList_ofList]
    decide +kernel
  have hlimit : ¬(Value.object [("x", lists 299)]).nesting ≤ Json.mostNested := by decide +kernel
  -- the text is JSON but the parser gives up on its depth
  have hrefused : Json.parse? (String.ofList deepText).toList = none := by
    rw [Json.parse?, hdeep, Option.filter_some, if_neg (by simpa using hlimit)]
  have hedit := Edit.undeclared (l := .collection) [] [] "x" (lists 299) (by decide)
  refine ⟨by decide +kernel, hdeep, hedit, by decide +kernel, ?_⟩
  rw [load, hrefused]
  rfl

end Collection

end TableDocs
