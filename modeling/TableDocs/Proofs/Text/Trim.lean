import Mathlib.Data.List.DropRight
import TableDocs.Text.Blank

/-!
# TableDocs — what trimming leaves

* **`Trimmed`** — texts without characters of a class at their ends, which is what trimming leaves
  and what it leaves alone.
* **`trimWhere_idem`** — so trimming twice is trimming once.
-/

namespace TableDocs.Text

variable {p : Char → Bool} {s : List Char}

/-- Trimming is dropping in front and then at the back. -/
theorem trimWhere_eq_rdropWhile (p : Char → Bool) (s : List Char) :
    trimWhere p s = (s.dropWhile p).rdropWhile p :=
  rfl

/-- No end of a text is a character of a class. -/
structure Trimmed (p : Char → Bool) (s : List Char) : Prop where
  head : ∀ c ∈ s.head?, p c = false
  last : ∀ c ∈ s.getLast?, p c = false

/-- **What was trimmed has nothing left to trim.** Dropping at the back leaves the front as it is,
unless all is dropped. -/
theorem trimmed_trimWhere (p : Char → Bool) (s : List Char) : Trimmed p (trimWhere p s) := by
  rw [trimWhere_eq_rdropWhile]
  constructor
  · intro c hc
    -- what is dropped at the end leaves the first character in its place
    obtain ⟨back, hback⟩ := List.rdropWhile_prefix p (s.dropWhile p)
    have hfirst : c ∈ (s.dropWhile p).head? := by
      rw [← hback, List.head?_append, hc]
      rfl
    have hkept := List.head?_dropWhile_not p s
    rw [hfirst] at hkept
    exact hkept
  · intro c hc
    obtain ⟨hne, rfl⟩ := List.mem_getLast?_eq_getLast hc
    exact Bool.eq_false_iff.mpr (List.rdropWhile_last_not p (s.dropWhile p) hne)

/-- A text without such characters at its ends is trimmed already. -/
theorem Trimmed.trimWhere_eq (h : Trimmed p s) : trimWhere p s = s := by
  have hfront : s.dropWhile p = s := by
    cases s with
    | nil => rfl
    | cons c s => exact List.dropWhile_cons_of_neg (by simp [h.head c rfl])
  have hback : s.rdropWhile p = s := by
    rw [List.rdropWhile_eq_self_iff]
    intro hne
    rw [h.last _ (List.getLast?_eq_some_getLast hne)]
    exact Bool.false_ne_true
  rw [trimWhere_eq_rdropWhile, hfront, hback]

theorem trimWhere_idem (p : Char → Bool) (s : List Char) :
    trimWhere p (trimWhere p s) = trimWhere p s :=
  (trimmed_trimWhere p s).trimWhere_eq

end TableDocs.Text
