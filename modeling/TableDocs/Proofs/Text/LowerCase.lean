import TableDocs.Proofs.Text.Trim
import TableDocs.Text.CaseMap

/-!
# TableDocs — lower case is reached in one step

A table of a case map could move a character to one that it moves on, or to a blank. The table of
lower case does neither, which is looked up for each of its entries; all else follows along a text.

* **`closed_wideLowerTable`** — the entries of the table.
* **`Lowered`**, **`Lowers`** — characters that lower case leaves alone, and what it makes of a
  character.
* **`LowersTo`**, **`lowersTo_lowerFrom`** — the same for a text. It brings no blank to an end of a
  text.
* **`lowerFrom_of_lowered`** — a text of such characters is its own lower case.
-/

namespace TableDocs.Text

/-! ## The table

A table is a list of runs, and each run moves some code points by the same distance. What a run
leads to can be listed, so the whole table is checked entry by entry. -/

/-- The code points that a run moves others to. -/
def CaseRun.images (r : CaseRun) : List Nat :=
  (List.range (r.count - 1 + 1)).map fun k => r.image + k * r.step

/-- What a code point of a run is moved to is listed. -/
theorem CaseRun.mem_images {r : CaseRun} {n : Nat} (hfirst : r.first ≤ n) (hlast : n ≤ r.last)
    (hstep : (n - r.first) % r.step = 0) : r.image + (n - r.first) ∈ r.images := by
  obtain ⟨k, hk⟩ := Nat.dvd_of_mod_eq_zero hstep
  rw [last] at hlast
  refine List.mem_map.mpr ⟨min k (r.count - 1), List.mem_range.mpr (by omega), ?_⟩
  -- the code point lies in the run, so it is one of its first `count` steps
  have hle : r.step * k ≤ r.step * (r.count - 1) := by
    rw [← hk, Nat.mul_comm]
    omega
  rw [hk, Nat.mul_comm, ← Nat.mul_min_mul_left, Nat.min_eq_left hle]

/-- The search in a table finds an entry of a run. -/
theorem CaseRun.mem_images_of_image? {runs : Array CaseRun} {n lo hi m : Nat}
    (h : image? runs n lo hi = some m) : ∃ r ∈ runs.toList, m ∈ r.images := by
  fun_induction image? runs n lo hi with
  | case1 | case5 | case6 => simp at h
  | case2 _ _ _ _ _ _ ih | case3 _ _ _ _ _ _ _ ih => exact ih h
  | case4 lo hi _ r hrun hfirst hlast hstep =>
    obtain rfl := Option.some.inj h
    exact ⟨r, Array.mem_toList_iff.mpr (Array.mem_of_getElem? hrun),
      mem_images (Nat.le_of_not_lt hfirst) (Nat.le_of_not_lt hlast) (beq_iff_eq.mp hstep)⟩

/-- The code point is that of a character which is neither blank nor moved by lower case, as far as
that is said by a table of runs. -/
def Settled (runs : Array CaseRun) (n : Nat) : Prop :=
  (Char.ofNat n).toNat = n ∧ isBlank (Char.ofNat n) = false ∧ n ≠ 0x3A3 ∧
    if n < 128 then (Char.ofNat n).toLower = Char.ofNat n
    else n ≠ 0x130 ∧ CaseRun.image? runs n 0 runs.size = none

instance (runs : Array CaseRun) (n : Nat) : Decidable (Settled runs n) := by
  unfold Settled
  infer_instance

/-- Nothing is left to do where the runs of a table lead to, nor at the characters that lower case
knows without the table. -/
def Closed (runs : Array CaseRun) : Prop :=
  (∀ r ∈ runs.toList, ∀ n ∈ r.images, Settled runs n) ∧
    ∀ n ∈ [0x69, 0x307, 0x3C2, 0x3C3], Settled runs n

instance (runs : Array CaseRun) : Decidable (Closed runs) := by
  unfold Closed
  infer_instance

/-- The table leads to settled code points only. The kernel looks up each of them. -/
theorem closed_wideLowerTable : Closed wideLowerTable := by
  rw [wideLowerTable, CaseRun.table, hexNumbers]
  simp only [List.flatMap_cons, List.flatMap_nil]
  -- the lines become lists of characters first, which are much faster to read than texts
  repeat rw [@String.toList_ofList]
  decide +kernel

/-! ## Characters

Some characters are moved without the table: the letters of ASCII, the dotted capital I and the
capital sigma, which depends on its neighbours. The table decides about all others. -/

/-- Lower case leaves the character alone. -/
def Lowered (c : Char) : Prop :=
  c.toNat ≠ 0x3A3 ∧ lowerChar c = [c]

instance (c : Char) : Decidable (Lowered c) := by
  unfold Lowered
  infer_instance

/-- The text may stand for the character in lower case. -/
structure Lowers (c : Char) (image : List Char) : Prop where
  ne_nil : image ≠ []
  lowered : ∀ d ∈ image, Lowered d
  nonblank : ∀ d ∈ image, isBlank c = false → isBlank d = false

variable {c d : Char} {before cs image : List Char} {n : Nat}

/-- What the table says of a code point holds of its character. -/
theorem lowered_of_settled (h : Settled wideLowerTable n) : Lowered (Char.ofNat n) := by
  obtain ⟨hn, -, hsigma, hmoved⟩ := h
  rw [Lowered, lowerChar, hn]
  refine ⟨hsigma, ?_⟩
  split at hmoved
  · next hascii => rw [if_pos hascii, hmoved]
  · next hascii =>
    obtain ⟨hdotted, hnone⟩ := hmoved
    rw [if_neg hascii, if_neg (by simpa using hdotted), hnone]

/-- A settled character may stand for any other one. -/
theorem Lowers.of_settled (h : Settled wideLowerTable n) (c : Char) : Lowers c [Char.ofNat n] where
  ne_nil := List.cons_ne_nil _ _
  lowered := List.forall_mem_singleton.mpr (lowered_of_settled h)
  nonblank := List.forall_mem_singleton.mpr fun _ => h.2.1

/-- A character may become several, each of them settled. -/
theorem Lowers.append {image' : List Char} (h : Lowers c image) (h' : Lowers c image') :
    Lowers c (image ++ image') where
  ne_nil := List.append_ne_nil_of_left_ne_nil h.ne_nil image'
  lowered := List.forall_mem_append.mpr ⟨h.lowered, h'.lowered⟩
  nonblank := List.forall_mem_append.mpr ⟨h.nonblank, h'.nonblank⟩

theorem Lowers.of_ascii (h : c.toNat < 128) : Lowers c [c.toLower] := by
  have hlower : ∀ n < 128, Lowered (Char.ofNat n).toLower ∧
      (isBlank (Char.ofNat n) = false → isBlank (Char.ofNat n).toLower = false) := by
    decide +kernel
  obtain ⟨hlowered, hnonblank⟩ := hlower c.toNat h
  rw [Char.ofNat_toNat] at hlowered hnonblank
  exact ⟨List.cons_ne_nil _ _, List.forall_mem_singleton.mpr hlowered,
    List.forall_mem_singleton.mpr hnonblank⟩

/-- Whatever lower case makes of a character is settled. The cases are those of the function: ASCII,
the dotted capital I, the table, and a character that is not moved. -/
theorem lowers_lowerChar (h : c.toNat ≠ 0x3A3) : Lowers c (lowerChar c) := by
  rw [lowerChar]
  split
  · next hascii => exact .of_ascii hascii
  · next hascii =>
    split
    · exact Lowers.append (.of_settled (closed_wideLowerTable.2 0x69 (by decide)) c)
        (.of_settled (closed_wideLowerTable.2 0x307 (by decide)) c)
    · next hdotted =>
      split
      · next n himage =>
        obtain ⟨r, hr, hn⟩ := CaseRun.mem_images_of_image? himage
        -- what the table maps to is mapped to itself
        exact .of_settled (closed_wideLowerTable.1 r hr n hn) c
      · next himage =>
        have hlowered : Lowered c := by
          rw [Lowered, lowerChar, if_neg hascii, if_neg hdotted, himage]
          exact ⟨h, rfl⟩
        exact ⟨List.cons_ne_nil _ _, List.forall_mem_singleton.mpr hlowered,
          List.forall_mem_singleton.mpr id⟩

/-! ## Texts

Lower case goes through a text character by character. What is said of one character therefore
carries over to texts, and to their ends in particular. -/

/-- A text in lower case, made character by character; the text around a character says only which
of the texts that may stand for it is taken. -/
inductive LowersTo : List Char → List Char → Prop
  | nil : LowersTo [] []
  | cons {c : Char} {cs image lowered : List Char} (hc : Lowers c image)
      (hcs : LowersTo cs lowered) : LowersTo (c :: cs) (image ++ lowered)

/-- What lower case makes of a text is of this form, whatever stands in front of it. -/
theorem lowersTo_lowerFrom (before cs : List Char) : LowersTo cs (lowerFrom before cs) := by
  induction cs generalizing before with
  | nil => exact .nil
  | cons c cs ih =>
    rw [lowerFrom]
    -- the capital sigma has two images, by what stands around it, and either is settled
    refine .cons ?_ (ih _)
    split
    · split
      · exact .of_settled (closed_wideLowerTable.2 0x3C2 (by decide)) c
      · exact .of_settled (closed_wideLowerTable.2 0x3C3 (by decide)) c
    · next hsigma => exact lowers_lowerChar (by simpa using hsigma)

namespace LowersTo

variable {lowered : List Char}

/-- Lower case leaves each character of its result alone. -/
theorem lowered_of_mem (h : LowersTo cs lowered) (hd : d ∈ lowered) : Lowered d := by
  induction h with
  | nil => exact absurd hd List.not_mem_nil
  | cons hc _ ih =>
    rcases List.mem_append.mp hd with hd | hd
    · exact hc.lowered d hd
    · exact ih hd

theorem eq_nil_iff (h : LowersTo cs lowered) : lowered = [] ↔ cs = [] := by
  cases h with
  | nil => exact Iff.rfl
  | cons hc _ => simp [hc.ne_nil]

/-- The first character of the result comes from the first character of the text. -/
theorem exists_mem_head? (h : LowersTo cs lowered) (hd : d ∈ lowered.head?) :
    ∃ c ∈ cs.head?, isBlank c = false → isBlank d = false := by
  cases h with
  | nil => exact absurd hd (by simp)
  | cons hc _ =>
    rw [List.head?_append_of_ne_nil _ hc.ne_nil] at hd
    exact ⟨_, rfl, hc.nonblank d (List.mem_of_mem_head? hd)⟩

/-- The last one comes from the last one. -/
theorem exists_mem_getLast? (h : LowersTo cs lowered) (hd : d ∈ lowered.getLast?) :
    ∃ c ∈ cs.getLast?, isBlank c = false → isBlank d = false := by
  induction h with
  | nil => exact absurd hd (by simp)
  | @cons c cs image lowered hc hcs ih =>
    -- no character vanishes, so the result ends where the text does
    by_cases hend : lowered = []
    · obtain rfl := hcs.eq_nil_iff.mp hend
      rw [hend, List.append_nil] at hd
      exact ⟨c, rfl, hc.nonblank d (List.mem_of_mem_getLast? hd)⟩
    · rw [List.getLast?_append_of_ne_nil _ hend] at hd
      obtain ⟨c', hc', hnonblank⟩ := ih hd
      have hne : cs ≠ [] := fun hnil => hend (hcs.eq_nil_iff.mpr hnil)
      rw [List.getLast?_cons_of_ne_nil hne]
      exact ⟨c', hc', hnonblank⟩

/-- A text without blanks at its ends has none there in lower case. -/
theorem trimmed (h : LowersTo cs lowered) (hcs : Trimmed isBlank cs) : Trimmed isBlank lowered where
  head := by
    intro d hd
    obtain ⟨c, hc, hnonblank⟩ := h.exists_mem_head? hd
    exact hnonblank (hcs.head c hc)
  last := by
    intro d hd
    obtain ⟨c, hc, hnonblank⟩ := h.exists_mem_getLast? hd
    exact hnonblank (hcs.last c hc)

end LowersTo

/-- **A text that lower case leaves alone** is its own lower case, wherever it stands. -/
theorem lowerFrom_of_lowered (h : ∀ c ∈ cs, Lowered c) : lowerFrom before cs = cs := by
  induction cs generalizing before with
  | nil => rfl
  | cons c cs ih =>
    obtain ⟨⟨hsigma, hc⟩, hcs⟩ := List.forall_mem_cons.mp h
    rw [lowerFrom, if_neg (by simpa using hsigma), hc, ih hcs]
    rfl

end TableDocs.Text
