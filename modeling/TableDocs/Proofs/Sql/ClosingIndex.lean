import TableDocs.Proofs.Sql.ScanAccount

/-!
# TableDocs — the index of a closing parenthesis

`Group.close?` gives what stands in a group and what follows it. Seen from the whole list a group is
two indices, that of its opening parenthesis and that of the one that closes it:

* **`ReturnsAt`** — the places at which the depth is back where it was in front of the opening
  parenthesis.
* **`closing?_eq_some_iff`** — the closing parenthesis stands at the first of them.
* **`closing?_eq_none_iff`** — there is no closing parenthesis where there is no such place.
-/

namespace TableDocs.Sql.Group

/-- The index of the parenthesis that closes the one at index `i`. -/
def closing? (ls : List Lexeme) (i : Nat) : Option Nat :=
  (close? 0 (ls.drop (i + 1))).map fun g => i + 1 + g.inner.length

/-- A parenthesis is opened at index `i`. -/
def OpensAt (ls : List Lexeme) (i : Nat) : Prop :=
  Lexeme.startsWith .openParen (ls.drop i) = true

instance (ls : List Lexeme) (i : Nat) : Decidable (OpensAt ls i) :=
  inferInstanceAs (Decidable (_ = _))

/-- The lexemes from index `i` up to and with index `j`, which is behind `i`, close as many
parentheses as they open. -/
def ReturnsAt (ls : List Lexeme) (i j : Nat) : Prop :=
  i < j ∧ j < ls.length ∧ depth ((ls.take (j + 1)).drop i) = 0

variable {ls : List Lexeme} {i j : Nat}

theorem OpensAt.drop_eq (h : OpensAt ls i) :
    ∃ opening, opening.isPunct .openParen = true ∧ ls.drop i = opening :: ls.drop (i + 1) := by
  have hstarts := h
  rw [OpensAt] at hstarts
  cases hdrop : ls.drop i with
  | nil => rw [hdrop] at hstarts; exact absurd hstarts (by decide)
  | cons opening rest =>
    rw [hdrop] at hstarts
    refine ⟨opening, hstarts, ?_⟩
    rw [← List.drop_drop, hdrop]
    rfl

/-- Behind the opening parenthesis the depth is back when it has fallen by one. -/
theorem OpensAt.returnsAt_iff (h : OpensAt ls i) {n : Nat} :
    ReturnsAt ls i (i + n) ↔
      0 < n ∧ i + n < ls.length ∧ depth ((ls.drop (i + 1)).take n) = -1 := by
  obtain ⟨opening, hopening, hdrop⟩ := h.drop_eq
  have hstretch : (ls.take (i + n + 1)).drop i = opening :: (ls.drop (i + 1)).take n := by
    rw [List.drop_take, hdrop, show i + n + 1 - i = n + 1 by omega, List.take_succ_cons]
  rw [ReturnsAt, hstretch, depth_cons, depthStep_of_open hopening]
  constructor
  · rintro ⟨hpos, hlt, hdepth⟩
    exact ⟨by omega, hlt, by omega⟩
  · rintro ⟨hpos, hlt, hdepth⟩
    exact ⟨by omega, hlt, by omega⟩

/-- What a closing index says of the list: the group, and the places of its parentheses. -/
theorem closing?_extent (h : closing? ls i = some j) :
    ∃ g, close? 0 (ls.drop (i + 1)) = some g ∧ j = i + 1 + g.inner.length ∧
      ls.drop (i + 1) = g.inner ++ g.close :: g.rest ∧ ls.drop j = g.close :: g.rest ∧
      Closed 0 g := by
  obtain ⟨g, hg, rfl⟩ := Option.map_eq_some_iff.mp h
  obtain ⟨hrest, hclosed⟩ := close?_extent hg
  refine ⟨g, hg, rfl, hrest, ?_, hclosed⟩
  rw [← List.drop_drop, hrest, List.drop_left]

theorem lt_of_closing? (h : closing? ls i = some j) : i < j ∧ j < ls.length := by
  obtain ⟨g, -, rfl, -, hclose, -⟩ := closing?_extent h
  have := congrArg List.length hclose
  rw [List.length_drop, List.length_cons] at this
  omega

/-- Inside a group the depth stays above the one in front of it. -/
theorem isLeast_of_closing? (hi : OpensAt ls i) (h : closing? ls i = some j) :
    IsLeast {k | ReturnsAt ls i k} j := by
  have hlt := lt_of_closing? h
  obtain ⟨g, -, rfl, hrest, -, hclosed⟩ := closing?_extent h
  have hdepth : depth g.inner = 0 := by simpa using hclosed.depth_inner
  constructor
  · show ReturnsAt ls i (i + 1 + g.inner.length)
    rw [Nat.add_assoc, hi.returnsAt_iff, hrest, Nat.add_comm 1, List.take_length_add_append,
      List.take_succ_cons, List.take_zero, depth_append, depth_cons, hdepth,
      depthStep_of_close hclosed.close_isPunct]
    exact ⟨Nat.succ_pos _, by omega, rfl⟩
  · intro k hk
    obtain ⟨n, rfl⟩ : ∃ n, k = i + n := ⟨k - i, by have := hk.1; omega⟩
    obtain ⟨-, -, hreturn⟩ := hi.returnsAt_iff.mp hk
    by_contra hbefore
    -- a stretch of the inner lexemes does not close more than it opens
    have hinner : n ≤ g.inner.length := by omega
    rw [hrest, List.take_append_of_le_length hinner] at hreturn
    have hnonneg := hclosed.neverBelow_inner _ (List.take_prefix n g.inner)
    rw [hreturn] at hnonneg
    exact absurd hnonneg (by decide)

theorem not_returnsAt_of_closing? (hi : OpensAt ls i) (h : closing? ls i = none) (j : Nat) :
    ¬ReturnsAt ls i j := by
  intro hj
  obtain ⟨n, rfl⟩ : ∃ n, j = i + n := ⟨j - i, by have := hj.1; omega⟩
  obtain ⟨-, -, hreturn⟩ := hi.returnsAt_iff.mp hj
  -- a group that nothing closes never closes more than it opens
  have hbelow := neverBelow_of_close?_none (Option.map_eq_none_iff.mp h)
  have hnonneg := hbelow _ (List.take_prefix n _)
  rw [hreturn] at hnonneg
  exact absurd hnonneg (by decide)

/-- **The closing parenthesis** stands at the first place at which the depth is back. -/
theorem closing?_eq_some_iff (hi : OpensAt ls i) :
    closing? ls i = some j ↔ IsLeast {k | ReturnsAt ls i k} j := by
  refine ⟨isLeast_of_closing? hi, fun hj => ?_⟩
  cases h : closing? ls i with
  | none => exact absurd hj.1 (not_returnsAt_of_closing? hi h j)
  | some k => rw [(isLeast_of_closing? hi h).unique hj]

/-- **No closing parenthesis** stands where the depth is never back. -/
theorem closing?_eq_none_iff (hi : OpensAt ls i) :
    closing? ls i = none ↔ ∀ j, ¬ReturnsAt ls i j := by
  refine ⟨not_returnsAt_of_closing? hi, fun hnever => ?_⟩
  cases h : closing? ls i with
  | none => rfl
  | some j => exact absurd (isLeast_of_closing? hi h).1 (hnever j)

/-- The lexemes strictly between the two parentheses are those of the group. -/
theorem between_of_closing? (hi : OpensAt ls i) (h : closing? ls i = some j) :
    ∃ g, close? 0 (ls.drop (i + 1)) = some g ∧ between ls i j = g.inner ∧ Closed 0 g := by
  obtain ⟨opening, -, hopening⟩ := hi.drop_eq
  obtain ⟨g, hg, -, hrest, hclose, hclosed⟩ := closing?_extent h
  have hfirst : ls.drop i = opening :: (g.inner ++ g.close :: g.rest) := by
    rw [hopening, hrest]
  exact ⟨g, hg, between_eq hfirst hclose, hclosed⟩

theorem Closed.balanced {g : Group} (h : Closed 0 g) : balanced g.inner = true :=
  balanced_iff.mpr ⟨h.neverBelow_inner, by simpa using h.depth_inner⟩

/-- Where every group is closed, each opening parenthesis has its closing index. -/
theorem AllClose.exists_closing? (h : AllClose ls) (hi : OpensAt ls i) :
    ∃ j, closing? ls i = some j := by
  obtain ⟨opening, hopening, hdrop⟩ := hi.drop_eq
  have hsuffix : opening :: ls.drop (i + 1) <:+ ls := by
    rw [← hdrop]
    exact List.drop_suffix i ls
  obtain ⟨g, hg⟩ := h opening _ hsuffix hopening
  exact ⟨_, by rw [closing?, hg]; rfl⟩

end TableDocs.Sql.Group
