import TableDocs.Data.Value

/-!
# TableDocs — equality and nesting of values

Values are compared part by part, so that it can be computed whether a text is read as a given
value. How deep a value is nested is bounded level by level.

* **`Value.same_iff`** — the comparison is equality.
* **`Value.nesting_list_le`**, **`Value.nesting_object_le`** — a list or an object adds one level to
  what it holds.
-/

namespace TableDocs.Data.Value

mutual

/-- Are two values built alike from the same parts? -/
def same : Value → Value → Bool
  | .null, .null | .other, .other => true
  | .bool a, .bool b => a = b
  | .int a, .int b => a = b
  | .real a, .real b => a = b
  | .text a, .text b => a = b
  | .list as, .list bs => sameItems as bs
  | .object as, .object bs => sameMembers as bs
  | _, _ => false

/-- The same values, one by one. -/
def sameItems : List Value → List Value → Bool
  | [], [] => true
  | a :: as, b :: bs => same a b && sameItems as bs
  | _, _ => false

/-- The same names and values, one by one and in the same order. -/
def sameMembers : List (String × Value) → List (String × Value) → Bool
  | [], [] => true
  | (key, a) :: as, (key', b) :: bs => key = key' && same a b && sameMembers as bs
  | _, _ => false

end

mutual

/-- **The comparison is equality.** Values hold lists of values, so this is proved together with the
two statements about lists. -/
theorem same_iff : ∀ v v' : Value, same v v' = true ↔ v = v'
  | .null, v' => by cases v' <;> simp [same]
  | .other, v' => by cases v' <;> simp [same]
  | .bool _, v' => by cases v' <;> simp [same]
  | .int _, v' => by cases v' <;> simp [same]
  | .real _, v' => by cases v' <;> simp [same]
  | .text _, v' => by cases v' <;> simp [same]
  | .list as, v' => by cases v' <;> simp [same, sameItems_iff as]
  | .object as, v' => by cases v' <;> simp [same, sameMembers_iff as]

theorem sameItems_iff : ∀ as bs : List Value, sameItems as bs = true ↔ as = bs
  | [], bs => by cases bs <;> simp [sameItems]
  | a :: as, bs => by cases bs <;> simp [sameItems, same_iff a, sameItems_iff as]

theorem sameMembers_iff : ∀ as bs : List (String × Value), sameMembers as bs = true ↔ as = bs
  | [], bs => by cases bs <;> simp [sameMembers]
  | (key, a) :: as, bs => by
    rcases bs with _ | ⟨⟨key', b⟩, bs⟩ <;>
      simp [sameMembers, same_iff a, sameMembers_iff as, and_assoc]

end

instance : DecidableEq Value := fun v v' => decidable_of_iff _ (same_iff v v')

/-! ## Nesting

How deep a list or an object is, is told by its items alone. -/

theorem nesting_list_le {vs : List Value} {n : Nat} (h : ∀ v ∈ vs, v.nesting ≤ n) :
    (list vs).nesting ≤ n + 1 := by
  rw [nesting]
  induction vs with
  | nil => exact Nat.zero_le _
  | cons v vs ih =>
    obtain ⟨hv, hvs⟩ := List.forall_mem_cons.mp h
    rw [nestingOfItems]
    exact Nat.max_le.mpr ⟨Nat.succ_le_succ hv, ih hvs⟩

theorem nesting_object_le {ms : List (String × Value)} {n : Nat} (h : ∀ m ∈ ms, m.2.nesting ≤ n) :
    (object ms).nesting ≤ n + 1 := by
  rw [nesting]
  induction ms with
  | nil => exact Nat.zero_le _
  | cons m ms ih =>
    obtain ⟨hm, hms⟩ := List.forall_mem_cons.mp h
    rw [nestingOfMembers]
    exact Nat.max_le.mpr ⟨Nat.succ_le_succ hm, ih hms⟩

end TableDocs.Data.Value
