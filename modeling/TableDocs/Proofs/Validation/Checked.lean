import Mathlib.Data.List.Forall2
import TableDocs.Validation.Coerce

/-!
# TableDocs — when a check finds no problem

A check of several members is valid just when each of its parts is, and then its value is made of
theirs. Members that stand behind others replace those of the same key.

* **`Checked.andThen_eq_valid_iff`** and its companions — what a valid check was made of.
* **`optional_append`** — reading members in two layers is reading the second with the values of the
  first for defaults.
* **`asList_eq_valid_iff`** — a list is valid when its items are, one by one.
-/

namespace TableDocs.Validation

open TableDocs.Data

variable {α β : Type}

namespace Checked

variable {x : Checked α} {a : α} {b : β}

/-- Checks are combined by `map`, `andThen` and `bind`. What a combination accepts is what its parts
accept, and the problems of the rejecting side do not come into it. -/
@[simp] theorem map_eq_valid_iff {f : α → β} :
    x.map f = .valid b ↔ ∃ a, x = .valid a ∧ f a = b := by
  cases x <;> simp [map]

@[simp] theorem andThen_eq_valid_iff {f : Checked (α → β)} :
    f.andThen x = .valid b ↔ ∃ g, f = .valid g ∧ ∃ a, x = .valid a ∧ g a = b := by
  cases f <;> cases x <;> simp [andThen]

@[simp] theorem bind_eq_valid_iff {f : α → Checked β} :
    x.bind f = .valid b ↔ ∃ a, x = .valid a ∧ f a = .valid b := by
  cases x <;> simp [bind]

/-- A step of the way to a value only shows in the places of problems. -/
@[simp] theorem under_eq_valid_iff {step : Step} : x.under step = .valid a ↔ x = .valid a := by
  cases x <;> simp [under]

@[simp] theorem fail_ne_valid {cause : Cause} : (fail cause : Checked α) ≠ .valid a := by
  simp [fail]

end Checked

/-! ## Members

An object may have several members of one name, of which the last one counts. So members that follow
others are laid over them. -/

section Members

variable {base : List (String × Value)} {key : String} {check : Value → Checked α} {a default : α}

/-- Of two lists of members the later one counts, where it has the member. -/
theorem member?_append (base more : List (String × Value)) (key : String) :
    Value.member? (base ++ more) key = (Value.member? more key).or (Value.member? base key) := by
  rw [Value.member?, List.reverse_append, List.lookup_append]
  rfl

theorem member?_cons (m : String × Value) (members : List (String × Value)) (key : String) :
    Value.member? (m :: members) key =
      (Value.member? members key).or (if key = m.1 then some m.2 else none) := by
  rw [← List.singleton_append, member?_append]
  congr 1
  obtain ⟨name, v⟩ := m
  rw [Value.member?, List.reverse_singleton, List.lookup_cons, List.lookup_nil]
  by_cases h : key = name
  · rw [if_pos h, beq_iff_eq.mpr h]
  · rw [if_neg h, beq_eq_false_iff_ne.mpr h]

/-- A member of one name is checked where there is one, or else the default stands for it unchecked.
-/
theorem optional_eq (members : List (String × Value)) (key : String) (default : α)
    (check : Value → Checked α) :
    optional members [key] default check =
      match Value.member? members key with
      | some v => (check v).under (.key key)
      | none => .valid default := by
  rw [optional, findMember?, findMember?]
  cases Value.member? members key <;> rfl

/-- **Two layers of members.** A member of the second layer counts; where there is none, the value
of the first layer is kept. -/
theorem optional_append (h : optional base [key] default check = .valid a)
    (more : List (String × Value)) :
    optional (base ++ more) [key] default check = optional more [key] a check := by
  rw [optional_eq] at h ⊢
  rw [optional_eq, member?_append]
  cases Value.member? more key with
  | some v => rfl
  | none => exact h

/-- What a member with a default is read as. -/
theorem optional_eq_valid_iff :
    optional base [key] default check = .valid a ↔
      (∃ v, Value.member? base key = some v ∧ check v = .valid a) ∨
        Value.member? base key = none ∧ a = default := by
  rw [optional_eq]
  cases Value.member? base key with
  | none => simp [eq_comm]
  | some v => simp

theorem optional_of_member? {v : Value} (hv : Value.member? base key = some v)
    (h : check v = .valid a) : optional base [key] default check = .valid a :=
  optional_eq_valid_iff.mpr (.inl ⟨v, hv, h⟩)

/-- A value after something was given in its place: what the given value is read as, or the same as
before when none was given. -/
inductive Overlaid (check : Value → Checked α) (before : α) : Option Value → α → Prop
  | kept : Overlaid check before none before
  | given {v : Value} {a : α} (h : check v = .valid a) : Overlaid check before (some v) a

/-- With nothing laid over it, a value stays. -/
@[simp] theorem overlaid_none_iff : Overlaid check default none a ↔ a = default := by
  constructor
  · rintro ⟨⟩
    rfl
  · rintro rfl
    exact .kept

/-- What is laid over a value takes its place, whatever it was. -/
@[simp] theorem overlaid_some_iff {v : Value} :
    Overlaid check default (some v) a ↔ check v = .valid a := by
  constructor
  · rintro ⟨⟩
    assumption
  · exact .given

/-- What members give under the first of several keys that one of them has. -/
def given? (members : List (String × Value)) (keys : List String) : Option Value :=
  keys.findSome? (Value.member? members)

/-- With one name there is nothing to choose. -/
theorem given?_singleton (members : List (String × Value)) (key : String) :
    given? members [key] = Value.member? members key := by
  rw [given?, List.findSome?_cons]
  cases Value.member? members key <;> rfl

/-- The first name that has a member counts. -/
theorem findMember?_eq (members : List (String × Value)) (keys : List String) :
    (findMember? members keys).map Prod.snd = given? members keys := by
  induction keys with
  | nil => rfl
  | cons key keys ih =>
    rw [findMember?, given?, List.findSome?_cons]
    cases Value.member? members key with
    | none => exact ih
    | some v => rfl

/-- A member without a default has to be there. -/
theorem required_eq_valid_iff {keys : List String} : required base keys check = .valid a ↔
    ∃ v, given? base keys = some v ∧ check v = .valid a := by
  rw [required, ← findMember?_eq]
  cases findMember? base keys with
  | none => simp [Checked.fail, Checked.under]
  | some found => simp

/-- **A member with a default** is laid over it. This is all that is used of `optional` from here
on. -/
theorem optional_eq_valid_iff_given {keys : List String} :
    optional base keys default check = .valid a ↔
      Overlaid check default (given? base keys) a := by
  rw [optional, ← findMember?_eq]
  cases findMember? base keys with
  | none => simp [eq_comm]
  | some found => simp

theorem optional_eq_valid_iff_overlaid : optional base [key] default check = .valid a ↔
    Overlaid check default (Value.member? base key) a := by
  rw [optional_eq_valid_iff_given, given?_singleton]

end Members

/-- A choice is made by its name. -/
theorem asChoice_text_eq_valid_iff {ofName? : String → Option α} {names : List String} {s : String}
    {a : α} : asChoice ofName? names (.text s) = .valid a ↔ ofName? s = some a := by
  rw [asChoice]
  cases ofName? s <;> simp

/-- An object is read by a check of its members. -/
theorem asObject_eq_valid_iff {origin : Origin} {model : String}
    {check : List (String × Value) → Checked α} {v : Value} {a : α} :
    asObject origin model check v = .valid a ↔
      ∃ members, v = .object members ∧ check members = .valid a := by
  cases v <;> simp [asObject]

/-! ## Lists

Items are checked one by one. Where they stand only shows in the places of problems, so the position
is general in the induction. -/

/-- Each item is read as the value at its place. -/
theorem itemsFrom_eq_valid_iff {check : Value → Checked α} {position : Nat} {items : List Value}
    {as : List α} : Checked.itemsFrom check position items = .valid as ↔
      List.Forall₂ (fun v a => check v = .valid a) items as := by
  induction items generalizing position as with
  | nil => simp [Checked.itemsFrom, eq_comm]
  | cons v items ih =>
    simp only [Checked.itemsFrom, Checked.andThen_eq_valid_iff, Checked.map_eq_valid_iff,
      Checked.under_eq_valid_iff, ih, List.forall₂_cons_left_iff]
    constructor
    · rintro ⟨_, ⟨a, ha, rfl⟩, as, has, rfl⟩
      exact ⟨a, as, ha, has, rfl⟩
    · rintro ⟨a, as, ha, has, rfl⟩
      exact ⟨_, ⟨a, ha, rfl⟩, as, has, rfl⟩

/-- **A list passes a check** when its items pass it one by one. -/
theorem asList_eq_valid_iff {origin : Origin} {check : Value → Checked α} {v : Value}
    {as : List α} : asList origin check v = .valid as ↔
      ∃ items, v = .list items ∧ List.Forall₂ (fun v a => check v = .valid a) items as := by
  cases v <;> simp [asList, itemsFrom_eq_valid_iff]

/-- A list of values that are read back is read back. -/
theorem asList_map {check : Value → Checked α} {toValue : α → Value}
    (h : ∀ a, check (toValue a) = .valid a) (origin : Origin) (as : List α) :
    asList origin check (.list (as.map toValue)) = .valid as :=
  asList_eq_valid_iff.mpr
    ⟨_, rfl, List.forall₂_map_left_iff.mpr (List.forall₂_same.mpr fun a _ => h a)⟩

theorem asText_eq_valid_iff {v : Value} {s : String} : asText v = .valid s ↔ v = .text s := by
  cases v <;> simp [asText]

end TableDocs.Validation
