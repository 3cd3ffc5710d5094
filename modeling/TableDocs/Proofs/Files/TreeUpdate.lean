import TableDocs.Files.Discovery
import TableDocs.Files.Workspace

/-!
# TableDocs — trees that differ in one file

A run of the program changes one file at most. This module says what that means for everything that
looks at a tree:

* **`Tree.get?_put`**, **`Tree.get?_erase`** — the entries behind a change.
* **`Tree.SameDirectories`** — two trees with the same directories lead every path to the same place
  (`Tree.find_of_sameDirectories`). Writing a file keeps the directories.
* **`Tree.Proper`** — in a proper tree the parts of a source lead to the source.
* **`Tree.discover_put`** — a file that is no source makes no difference to the sources of a
  directory.
-/

namespace TableDocs.Files

namespace Tree

theorem eq_of_entries {t t' : Tree} (h : t.entries = t'.entries) : t = t' := by
  cases t
  cases t'
  cases h
  rfl

/-! ## Entries behind a change

Two equations say all about a change: what is found at the place that was changed and what is found
elsewhere. The root is a directory and is never changed. -/

/-- Dropping the entries of one place leaves those of the others. -/
theorem lookup_filter_ne (entries : List (Place × Entry)) (p q : Place) :
    (entries.filter fun e => e.1 != p).lookup q = if q = p then none else entries.lookup q := by
  induction entries with
  | nil => simp
  | cons entry entries ih =>
    obtain ⟨r, e⟩ := entry
    -- the entry in front is left out or kept
    by_cases hr : r = p
    · rw [List.filter_cons_of_neg (by simp [hr]), ih, hr]
      split
      · rfl
      · next hq => rw [List.lookup_cons, beq_eq_false_iff_ne.mpr hq]
    · rw [List.filter_cons_of_pos (by simp [hr]), List.lookup_cons, List.lookup_cons, ih]
      cases hq : q == r with
      | true =>
        have hne : q ≠ p := by
          rw [beq_iff_eq.mp hq]
          exact hr
        rw [if_neg hne, if_neg hne]
      | false => rfl

theorem get?_nil (t : Tree) : t.get? [] = some .directory := rfl

theorem get?_of_ne_nil (t : Tree) {p : Place} (hp : p ≠ []) : t.get? p = t.entries.lookup p := by
  rw [get?, if_neg (by simpa using hp)]

/-- Behind an erasure nothing is at that place. -/
theorem get?_erase (t : Tree) {p : Place} (hp : p ≠ []) (q : Place) :
    (t.erase p).get? q = if q = p then none else t.get? q := by
  by_cases hq : q = []
  · rw [hq, get?_nil, get?_nil, if_neg hp.symm]
  · rw [get?_of_ne_nil _ hq, get?_of_ne_nil _ hq, erase, lookup_filter_ne]

/-- Behind a change the new entry is there. -/
theorem get?_put (t : Tree) {p : Place} (hp : p ≠ []) (e : Entry) (q : Place) :
    (t.put p e).get? q = if q = p then some e else t.get? q := by
  by_cases hq : q = []
  · rw [hq, get?_nil, get?_nil, if_neg hp.symm]
  · rw [get?_of_ne_nil _ hq, put, List.lookup_cons, ← get?_of_ne_nil _ hq, get?_erase t hp]
    by_cases hqp : q = p
    · rw [beq_iff_eq.mpr hqp, if_pos hqp, if_pos hqp]
    · rw [beq_eq_false_iff_ne.mpr hqp, if_neg hqp, if_neg hqp]

/-- Erasing what was put leaves the tree as if it had been erased before. -/
theorem erase_put (t : Tree) (p : Place) (e : Entry) : (t.put p e).erase p = t.erase p := by
  apply eq_of_entries
  simp [put, erase, List.filter_filter]

/-- Nothing is erased where nothing is. -/
theorem erase_of_get?_none {t : Tree} {p : Place} (h : t.get? p = none) : t.erase p = t := by
  have hp : p ≠ [] := by
    rintro rfl
    exact absurd h (by simp [get?_nil])
  rw [get?_of_ne_nil t hp] at h
  apply eq_of_entries
  rw [erase, List.filter_eq_self]
  intro entry hentry
  have hne : p ≠ entry.1 := by simpa using List.lookup_eq_none_iff.mp h entry hentry
  exact bne_iff_ne.mpr hne.symm

/-! ## Ways through a tree

A walk looks at directories only. Files may come and go as long as no directory does, and every path
leads to the same place. -/

/-- Two trees have directories at the same places. -/
def SameDirectories (t t' : Tree) : Prop :=
  ∀ p, t.get? p = some .directory ↔ t'.get? p = some .directory

theorem SameDirectories.symm {t t' : Tree} (h : t.SameDirectories t') : t'.SameDirectories t :=
  fun p => (h p).symm

/-- A file in the place of anything but a directory leaves the directories alone. -/
theorem sameDirectories_put {t : Tree} {p : Place} (hp : p ≠ [])
    (h : t.get? p ≠ some .directory) (bytes : List UInt8) :
    t.SameDirectories (t.put p (.file bytes)) := by
  intro q
  rw [get?_put t hp]
  split
  · next hq =>
    rw [hq]
    exact ⟨fun hd => absurd hd h, fun hd => absurd hd (by simp)⟩
  · rfl

/-- One step of a way, which only a directory lets on. -/
theorem walk_cons_ok {t : Tree} {reached p : Place} {part : String} {parts : List String} :
    t.walk reached (part :: parts) = .ok p ↔
      t.get? reached = some .directory ∧
        ((part = ".." ∧ reached ≠ [] ∧ t.walk reached.dropLast parts = .ok p) ∨
          (part ≠ ".." ∧ t.walk (reached ++ [part]) parts = .ok p)) := by
  rw [walk]
  cases hget : t.get? reached with
  | none => simp
  | some e =>
    cases e with
    | file bytes => simp
    | directory =>
      by_cases hdots : part = ".."
      · by_cases hreached : reached = []
        · simp [hdots, hreached]
        · simp [hdots, hreached]
      · simp [hdots]

/-- A way is a way in every tree with the same directories. -/
theorem walk_of_sameDirectories {t t' : Tree} (h : t.SameDirectories t') {parts : List String}
    {reached p : Place} (hwalk : t.walk reached parts = .ok p) : t'.walk reached parts = .ok p := by
  induction parts generalizing reached with
  | nil => exact hwalk
  | cons part parts ih =>
    rw [walk_cons_ok] at hwalk ⊢
    obtain ⟨hdirectory, hnext⟩ := hwalk
    exact ⟨(h reached).mp hdirectory, hnext.imp (fun ⟨hdots, hne, hback⟩ => ⟨hdots, hne, ih hback⟩)
      fun ⟨hdots, hon⟩ => ⟨hdots, ih hon⟩⟩

/-- A path is found if its way ends at an entry. -/
theorem find_ok {t : Tree} {parts : List String} {p : Place} {e : Entry} :
    t.find parts = .ok (p, e) ↔ t.walk [] parts = .ok p ∧ t.get? p = some e := by
  rw [find]
  cases t.walk [] parts with
  | error f => simp
  | ok q =>
    simp only [Except.ok.injEq]
    constructor
    · intro h
      split at h
      · next hget =>
        cases h
        exact ⟨rfl, hget⟩
      · exact absurd h (by simp)
    · rintro ⟨rfl, hget⟩
      rw [hget]

/-- **The same directories lead a path to the same place.** -/
theorem find_of_sameDirectories {t t' : Tree} (h : t.SameDirectories t') {parts : List String}
    {p : Place} {e e' : Entry} (hfind : t.find parts = .ok (p, e)) (hget : t'.get? p = some e') :
    t'.find parts = .ok (p, e') := by
  rw [find_ok] at hfind ⊢
  exact ⟨walk_of_sameDirectories h hfind.1, hget⟩

/-- Directories are found alike in both trees. -/
theorem find_directory_iff {t t' : Tree} (h : t.SameDirectories t') {parts : List String}
    {p : Place} : t.find parts = .ok (p, .directory) ↔ t'.find parts = .ok (p, .directory) := by
  constructor
  · intro hfind
    exact find_of_sameDirectories h hfind ((h p).mp (find_ok.mp hfind).2)
  · intro hfind
    exact find_of_sameDirectories h.symm hfind ((h p).mpr (find_ok.mp hfind).2)

/-- A way in two parts. -/
theorem walk_append {t : Tree} {front behind : List String} {reached p : Place} :
    t.walk reached (front ++ behind) = .ok p ↔
      ∃ q, t.walk reached front = .ok q ∧ t.walk q behind = .ok p := by
  induction front generalizing reached with
  | nil => simp [walk]
  | cons part front ih =>
    rw [List.cons_append, walk_cons_ok, ih, ih]
    constructor
    · rintro ⟨hdirectory, ⟨hdots, hne, q, hfront, hbehind⟩ | ⟨hdots, q, hfront, hbehind⟩⟩
      · exact ⟨q, walk_cons_ok.mpr ⟨hdirectory, .inl ⟨hdots, hne, hfront⟩⟩, hbehind⟩
      · exact ⟨q, walk_cons_ok.mpr ⟨hdirectory, .inr ⟨hdots, hfront⟩⟩, hbehind⟩
    · rintro ⟨q, hfront, hbehind⟩
      obtain ⟨hdirectory, ⟨hdots, hne, hback⟩ | ⟨hdots, hon⟩⟩ := walk_cons_ok.mp hfront
      · exact ⟨hdirectory, .inl ⟨hdots, hne, q, hback, hbehind⟩⟩
      · exact ⟨hdirectory, .inr ⟨hdots, q, hon, hbehind⟩⟩

/-- Without dots that lead back, a way ends at the place that its parts spell. -/
theorem walk_eq_append {t : Tree} {parts : List String} (hdots : ".." ∉ parts) {reached p : Place}
    (h : t.walk reached parts = .ok p) : p = reached ++ parts := by
  induction parts generalizing reached with
  | nil =>
    cases h
    rw [List.append_nil]
  | cons part parts ih =>
    rw [List.mem_cons, not_or] at hdots
    obtain ⟨-, ⟨hback, -⟩ | ⟨-, hon⟩⟩ := walk_cons_ok.mp h
    · exact absurd hback.symm hdots.1
    · rw [ih hdots.2 hon, List.append_assoc, List.singleton_append]

/-- A way never ends at a place whose names lead back. -/
theorem dots_not_mem_of_walk {t : Tree} {parts : List String} {reached p : Place}
    (hreached : ".." ∉ reached) (h : t.walk reached parts = .ok p) : ".." ∉ p := by
  induction parts generalizing reached with
  | nil =>
    cases h
    exact hreached
  | cons part parts ih =>
    obtain ⟨-, ⟨-, -, hback⟩ | ⟨hdots, hon⟩⟩ := walk_cons_ok.mp h
    · exact ih (fun hmem => hreached (List.dropLast_subset reached hmem)) hback
    · refine ih ?_ hon
      rw [List.mem_append, List.mem_singleton, not_or]
      exact ⟨hreached, Ne.symm hdots⟩

/-- No name in the tree leads back, as in every tree of real files. -/
def Proper (t : Tree) : Prop :=
  ∀ entry ∈ t.entries, ".." ∉ entry.1

instance (t : Tree) : Decidable t.Proper :=
  inferInstanceAs (Decidable (∀ entry ∈ t.entries, ".." ∉ entry.1))

/-- A new entry keeps a tree proper if its own names do not lead back. -/
theorem Proper.put {t : Tree} (h : t.Proper) {p : Place} (hp : ".." ∉ p) (e : Entry) :
    (t.put p e).Proper := by
  intro entry hentry
  rcases List.mem_cons.mp hentry with rfl | hmem
  · exact hp
  · exact h entry (List.mem_filter.mp hmem).1

/-! ## Sources

Whether a file is a source is told by its place alone. So a scan can change only when an entry comes
or goes at the place of a source. -/

/-- Does a scan of a directory take a file at this place for a source? -/
def isSource (directory : Place) (extensions : List String) (recursive : Bool) (p : Place) : Bool :=
  match relative? directory p with
  | some parts => inScope recursive parts && hasSuffix (suffixesOf extensions) parts
  | none => false

/-- The names below a directory, and the place that they spell. -/
theorem relative?_eq_some {directory p : Place} {parts : List String}
    (h : relative? directory p = some parts) : p = directory ++ parts ∧ parts ≠ [] := by
  rw [relative?] at h
  split at h
  · next hprefix =>
    cases h
    rw [Bool.and_eq_true, decide_eq_true_eq, List.isPrefixOf_iff_prefix] at hprefix
    obtain ⟨⟨behind, rfl⟩, hlength⟩ := hprefix
    rw [List.drop_left]
    refine ⟨rfl, ?_⟩
    rintro rfl
    simp at hlength
  · exact absurd h (by simp)

/-- The parts of an entry that a scan finds. -/
def sourceParts? (directory : Place) (extensions : List String) (recursive : Bool) :
    Place × Entry → Option (List String) := fun (p, e) =>
  match e, relative? directory p with
  | .file _, some parts =>
    if inScope recursive parts && hasSuffix (suffixesOf extensions) parts then some parts else none
  | _, _ => none

section Discovery

variable {directory : Place} {extensions : List String} {recursive : Bool}

/-- What is kept of an entry spells its place, which is that of a source. -/
theorem sourceParts?_eq_some {p : Place} {e : Entry} {parts : List String}
    (h : sourceParts? directory extensions recursive (p, e) = some parts) :
    p = directory ++ parts ∧ isSource directory extensions recursive p = true := by
  rw [sourceParts?.eq_def] at h
  simp only at h
  split at h
  · next hrelative =>
    split at h
    · next hscope =>
      cases h
      exact ⟨(relative?_eq_some hrelative).1, by rw [isSource, hrelative]; exact hscope⟩
    · exact absurd h (by simp)
  · exact absurd h (by simp)

/-- What a scan finds stands at a place of a source. -/
theorem mem_discover {t : Tree} {parts : List String}
    (h : parts ∈ t.discover directory extensions recursive) :
    (∃ e, (directory ++ parts, e) ∈ t.entries) ∧
      isSource directory extensions recursive (directory ++ parts) = true := by
  rw [discover, List.mem_mergeSort, List.mem_filterMap] at h
  obtain ⟨⟨p, e⟩, hmem, hfound⟩ := h
  obtain ⟨rfl, hsource⟩ := sourceParts?_eq_some hfound
  exact ⟨⟨e, hmem⟩, hsource⟩

/-- **A file that is no source** makes no difference to a scan. -/
theorem discover_put {t : Tree} {p : Place} {e : Entry}
    (h : isSource directory extensions recursive p = false) :
    (t.put p e).discover directory extensions recursive =
      t.discover directory extensions recursive := by
  -- whatever stands at that place is not kept, before the change and after
  have hnone : ∀ entry : Place × Entry, entry.1 = p →
      sourceParts? directory extensions recursive entry = none := by
    rintro ⟨q, e'⟩ rfl
    cases hparts : sourceParts? directory extensions recursive (q, e') with
    | none => rfl
    | some parts =>
      rw [(sourceParts?_eq_some hparts).2] at h
      exact absurd h (by simp)
  have hfiltered : ∀ entries : List (Place × Entry),
      (entries.filter fun entry => entry.1 != p).filterMap
          (sourceParts? directory extensions recursive) =
        entries.filterMap (sourceParts? directory extensions recursive) := by
    intro entries
    induction entries with
    | nil => rfl
    | cons entry entries ih =>
      by_cases hentry : entry.1 = p
      · rw [List.filter_cons_of_neg (by simp [hentry]), ih,
          List.filterMap_cons_none (hnone entry hentry)]
      · rw [List.filter_cons_of_pos (by simp [hentry]), List.filterMap_cons, List.filterMap_cons,
          ih]
  have hfound : (t.put p e).entries.filterMap (sourceParts? directory extensions recursive) =
      t.entries.filterMap (sourceParts? directory extensions recursive) := by
    rw [put, List.filterMap_cons_none (hnone (p, e) rfl), erase, hfiltered]
  exact congrArg (List.mergeSort · fun a b => decide (joinParts a ≤ joinParts b)) hfound

end Discovery

end Tree

/-- A path through a directory goes on behind it. -/
theorem Workspace.parts_below (w : Workspace) (directory : Path) (parts : List String) :
    w.parts { directory with parts := directory.parts ++ parts } = w.parts directory ++ parts := by
  simp only [Workspace.parts]
  split
  · rw [List.append_assoc]
  · rfl

end TableDocs.Files
