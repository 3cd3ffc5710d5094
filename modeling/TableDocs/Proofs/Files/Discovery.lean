import Mathlib.Data.List.TakeWhile
import TableDocs.Proofs.Files.SourceFiles

/-!
# TableDocs — which files a scan finds

A scan is told here by the names of the files alone, without the steps that it takes: which files of
a directory it finds, and in which order. What it finds is then the same wherever the directory
stands and however its entries are listed.

* **`Path.IsSuffix`** — the suffix of a name, as a relation of the two.
* **`Wanted`** — what a scan asks of the parts of a file.
* **`joinParts_inj`** — a path below a directory tells its parts, so no two files share one.
* **`Tree.discover_congr`** — a scan looks at nothing but the files below its directory.
* **`Tree.discover_exact`** — all of that together.
-/

namespace TableDocs.Files

/-! ## Suffixes

The suffix is computed from the end of a name. The relation says instead where the last dot stands,
and a name without a proper suffix has an empty one. -/

namespace Path

/-- The suffix of a name begins with its last dot, and something stands in front of that dot and
behind it. Any other name has an empty suffix. -/
inductive IsSuffix (name : String) : String → Prop
  | dotted {stem tail : List Char} (hname : name.toList = stem ++ '.' :: tail) (hlast : '.' ∉ tail)
      (hstem : stem ≠ []) (htail : tail ≠ []) : IsSuffix name (String.ofList ('.' :: tail))
  | plain (hplain : ∀ stem tail, name.toList = stem ++ '.' :: tail → '.' ∉ tail →
      stem = [] ∨ tail = []) : IsSuffix name ""

variable {name suffix : String} {stem tail : List Char}

theorem forall_mem_reverse_bne_dot {chars : List Char} (h : '.' ∉ chars) :
    ∀ c ∈ chars.reverse, (c != '.') = true := by
  intro c hc
  rw [bne_iff_ne]
  rintro rfl
  exact h (List.mem_reverse.mp hc)

/-- The characters behind the last dot. -/
theorem takeWhile_reverse_dotted (stem : List Char) (hlast : '.' ∉ tail) :
    ((stem ++ '.' :: tail).reverse.takeWhile (· != '.')).reverse = tail := by
  rw [List.reverse_append, List.reverse_cons, List.append_assoc, List.singleton_append,
    List.takeWhile_append_of_pos (forall_mem_reverse_bne_dot hlast),
    List.takeWhile_cons_of_neg (by simp), List.append_nil, List.reverse_reverse]

/-- The last dot of a name stands in one place. -/
theorem eq_of_dotted {stem' tail' : List Char} (hname : name.toList = stem ++ '.' :: tail)
    (hlast : '.' ∉ tail) (hname' : name.toList = stem' ++ '.' :: tail') (hlast' : '.' ∉ tail') :
    stem = stem' ∧ tail = tail' := by
  have htail : tail = tail' := by
    rw [← takeWhile_reverse_dotted stem hlast, ← hname, hname', takeWhile_reverse_dotted _ hlast']
  subst htail
  exact ⟨List.append_cancel_right (hname.symm.trans hname'), rfl⟩

/-- A name with a dot in it. -/
theorem suffixOf_dotted (hname : name.toList = stem ++ '.' :: tail) (hlast : '.' ∉ tail) :
    suffixOf name = if stem = [] ∨ tail = [] then "" else String.ofList ('.' :: tail) := by
  have hlength : name.length = stem.length + (tail.length + 1) := by
    rw [← String.length_toList, hname, List.length_append, List.length_cons]
  rw [suffixOf, hname, takeWhile_reverse_dotted stem hlast, hlength]
  cases stem with
  | nil => simp
  | cons c stem => cases tail <;> simp

/-- A name without a dot. -/
theorem suffixOf_of_no_dot (h : '.' ∉ name.toList) : suffixOf name = "" := by
  have hshort : ¬name.length + 1 < name.length := by omega
  rw [suffixOf, List.takeWhile_eq_self_iff.mpr (forall_mem_reverse_bne_dot h),
    List.reverse_reverse, String.length_toList]
  simp [hshort]

/-- The suffix that is computed is the suffix of the name. -/
theorem isSuffix_suffixOf (name : String) : IsSuffix name (suffixOf name) := by
  by_cases hdot : '.' ∈ name.toList
  -- the last dot is the first one from behind
  · obtain ⟨behind, front, hsplit, hfirst⟩ :=
      List.eq_append_cons_of_mem (List.mem_reverse.mpr hdot)
    have hname : name.toList = front.reverse ++ '.' :: behind.reverse := by
      rw [← List.reverse_reverse name.toList, hsplit]
      simp
    have hlast : '.' ∉ behind.reverse := fun hmem => hfirst (List.mem_reverse.mp hmem)
    rw [suffixOf_dotted hname hlast]
    split
    · next hempty =>
      refine .plain fun stem tail hname' hlast' => ?_
      obtain ⟨rfl, rfl⟩ := eq_of_dotted hname hlast hname' hlast'
      exact hempty
    · next hboth =>
      rw [not_or] at hboth
      exact .dotted hname hlast hboth.1 hboth.2
  · rw [suffixOf_of_no_dot hdot]
    refine .plain fun stem tail hname _ => ?_
    rw [hname] at hdot
    exact absurd (List.mem_append_right stem List.mem_cons_self) hdot

/-- A name has one suffix. -/
theorem IsSuffix.unique {suffix' : String} (h : IsSuffix name suffix)
    (h' : IsSuffix name suffix') : suffix = suffix' := by
  cases h with
  | dotted hname hlast hstem htail =>
    cases h' with
    | dotted hname' hlast' _ _ => rw [(eq_of_dotted hname hlast hname' hlast').2]
    | plain hplain => exact absurd (hplain _ _ hname hlast) (not_or.mpr ⟨hstem, htail⟩)
  | plain hplain =>
    cases h' with
    | dotted hname hlast hstem htail =>
      exact absurd (hplain _ _ hname hlast) (not_or.mpr ⟨hstem, htail⟩)
    | plain _ => rfl

/-- **The suffix of a name** is what the relation says. -/
theorem suffixOf_eq_iff : suffixOf name = suffix ↔ IsSuffix name suffix := by
  constructor
  · rintro rfl
    exact isSuffix_suffixOf name
  · exact (isSuffix_suffixOf name).unique

end Path

/-! ## What a scan asks for

A scan asks for a suffix and for the directories on the way. Only the parts below its own directory
are asked for, so the names that lead there have no say. -/

/-- The suffix of a name is one of the extensions, in whatever letter case either is written. -/
def Named (extensions : List String) (name : String) : Prop :=
  ∃ suffix, Path.IsSuffix name suffix ∧
    ∃ extension ∈ extensions, Text.lower suffix = Text.lower extension

/-- What a scan asks of the parts that lead from its directory to a file: the file stands in the
directory itself or, for a recursive scan, below directories that are not skipped. -/
inductive Wanted (extensions : List String) (recursive : Bool) : List String → Prop
  | child {name : String} (hname : Named extensions name) : Wanted extensions recursive [name]
  | descendant {ancestors : List String} {name : String} (hname : Named extensions name)
      (hrecursive : recursive = true)
      (hancestors : ∀ ancestor ∈ ancestors, ancestor ∉ skippedDirectories) :
      Wanted extensions recursive (ancestors ++ [name])

/-- The extensions of a scan; without any it takes the usual one. -/
def extensionsOrUsual (extensions : List String) : List String :=
  if extensions = [] then [".sql"] else extensions

variable {extensions : List String} {recursive : Bool} {parts : List String}

/-- The suffix of a file is compared with the extensions in lower case. -/
theorem hasSuffix_iff (ancestors : List String) {name : String} :
    hasSuffix (suffixesOf extensions) (ancestors ++ [name]) = true ↔
      Named (extensionsOrUsual extensions) name := by
  have husual : suffixesOf extensions = (extensionsOrUsual extensions).map Text.lower := by
    rw [suffixesOf, extensionsOrUsual]
    simp only [List.isEmpty_iff]
  rw [hasSuffix, List.contains_iff_mem, husual, List.mem_map, List.getLastD_concat]
  constructor
  · rintro ⟨extension, hmem, heq⟩
    exact ⟨_, Path.isSuffix_suffixOf name, extension, hmem, heq.symm⟩
  · rintro ⟨suffix, hsuffix, extension, hmem, heq⟩
    rw [Path.suffixOf_eq_iff.mpr hsuffix]
    exact ⟨extension, hmem, heq.symm⟩

/-- A file is in scope by the names between the directory of the scan and its own name. -/
theorem inScope_iff {ancestors : List String} {name : String} :
    inScope recursive (ancestors ++ [name]) = true ↔
      ancestors = [] ∨
        recursive = true ∧ ∀ ancestor ∈ ancestors, ancestor ∉ skippedDirectories := by
  have hall : (ancestors.all fun part => !skippedDirectories.contains part) = true ↔
      ∀ ancestor ∈ ancestors, ancestor ∉ skippedDirectories := by
    simp only [List.all_eq_true, Bool.not_eq_true', List.contains_eq_mem, decide_eq_false_iff_not]
  rw [inScope, List.dropLast_concat, Bool.and_eq_true, hall, Bool.or_eq_true, beq_iff_eq,
    List.length_append, List.length_singleton]
  cases ancestors with
  | nil => simp
  | cons ancestor ancestors => simp

/-- A scan takes for a source what it asks for. -/
theorem isSource_iff_wanted {place : Place} :
    Tree.isSource place extensions recursive (place ++ parts) = true ↔
      Wanted (extensionsOrUsual extensions) recursive parts := by
  constructor
  · intro h
    have hparts := Tree.parts_ne_nil_of_isSource h
    rw [Tree.isSource, Tree.relative?_append hparts, Bool.and_eq_true] at h
    -- the last part is the name of the file, and those before it are the directories on the way
    rw [← List.dropLast_concat_getLast hparts] at h ⊢
    rw [inScope_iff, hasSuffix_iff] at h
    obtain ⟨hchild | ⟨hrecursive, hancestors⟩, hname⟩ := h
    · rw [hchild]
      exact .child hname
    · exact .descendant hname hrecursive hancestors
  · intro h
    cases h with
    | child hname =>
      rw [Tree.isSource, Tree.relative?_append (List.cons_ne_nil _ _), Bool.and_eq_true]
      exact ⟨inScope_iff.mpr (.inl rfl), (hasSuffix_iff []).mpr hname⟩
    | descendant hname hrecursive hancestors =>
      rw [Tree.isSource, Tree.relative?_append (by simp), Bool.and_eq_true]
      exact ⟨inScope_iff.mpr (.inr ⟨hrecursive, hancestors⟩), (hasSuffix_iff _).mpr hname⟩

/-! ## The order of paths

Files are sorted by their paths as texts, which is a strict order because no two files share a path.
A sorted list without repetitions is determined by its members, and so the order of the entries is
of no account. -/

/-- **A path tells its parts**, none of which holds a slash. -/
theorem joinParts_inj {a b : List String} (ha : a ≠ []) (hb : b ≠ [])
    (hslash : ∀ part ∈ a, '/' ∉ part.toList) (hslash' : ∀ part ∈ b, '/' ∉ part.toList)
    (h : joinParts a = joinParts b) : a = b := by
  have hsplit : ∀ parts : List String, parts ≠ [] → (∀ part ∈ parts, '/' ∉ part.toList) →
      (joinParts parts).toList.splitOn '/' = parts.map String.toList := by
    intro parts hparts hnone
    rw [joinParts, String.toList_intercalate]
    refine List.splitOn_intercalate '/' ?_ (by simpa using hparts)
    intro chars hchars
    obtain ⟨part, hpart, rfl⟩ := List.mem_map.mp hchars
    exact hnone part hpart
  have hchars := (hsplit a ha hslash).symm.trans (h ▸ hsplit b hb hslash')
  exact (List.map_inj_right fun _ _ heq => String.toList_inj.mp heq).mp hchars

namespace Tree

variable {t t' : Tree} {place place' : Place}

/-- No name in the tree holds a slash, as in every tree of real files. -/
def Slashless (t : Tree) : Prop :=
  ∀ entry ∈ t.entries, ∀ name ∈ entry.1, '/' ∉ name.toList

instance (t : Tree) : Decidable t.Slashless :=
  inferInstanceAs (Decidable (∀ entry ∈ t.entries, ∀ name ∈ entry.1, '/' ∉ name.toList))

/-- There is a file at the place. -/
def IsFile (t : Tree) (p : Place) : Prop :=
  ∃ bytes, t.get? p = some (.file bytes)

/-- A scan finds the files that are wanted. -/
theorem mem_discover_iff_wanted : parts ∈ t.discover place extensions recursive ↔
    t.IsFile (place ++ parts) ∧ Wanted (extensionsOrUsual extensions) recursive parts := by
  rw [mem_discover_iff]
  simp only [isSource_iff_wanted]
  exact exists_and_right

theorem ne_nil_of_mem_discover (h : parts ∈ t.discover place extensions recursive) :
    parts ≠ [] := by
  obtain ⟨-, -, hsource⟩ := mem_discover_iff.mp h
  exact parts_ne_nil_of_isSource hsource

theorem Slashless.of_mem_discover (ht : t.Slashless)
    (h : parts ∈ t.discover place extensions recursive) : ∀ part ∈ parts, '/' ∉ part.toList := by
  obtain ⟨bytes, hget, -⟩ := mem_discover_iff.mp h
  have hne := List.append_ne_nil_of_right_ne_nil place (ne_nil_of_mem_discover h)
  have hmem := (get?_eq_some_iff hne).mp hget
  exact fun part hpart => ht _ hmem part (List.mem_append_right place hpart)

/-- Two files that a scan finds have different paths. -/
theorem Slashless.joinParts_inj (ht : t.Slashless) {a b : List String}
    (ha : a ∈ t.discover place extensions recursive)
    (hb : b ∈ t.discover place extensions recursive) (h : joinParts a = joinParts b) : a = b :=
  Files.joinParts_inj (ne_nil_of_mem_discover ha) (ne_nil_of_mem_discover hb)
    (ht.of_mem_discover ha) (ht.of_mem_discover hb) h

theorem pairwise_lt_discover (ht : t.Slashless) :
    (t.discover place extensions recursive).Pairwise fun a b => joinParts a < joinParts b := by
  refine (pairwise_discover.and nodup_discover).imp_of_mem ?_
  rintro a b ha hb ⟨hle, hne⟩
  by_contra hlt
  exact hne (ht.joinParts_inj ha hb (String.le_antisymm hle (String.not_lt.mp hlt)))

/-- **A scan looks at nothing but the files** below its directory. -/
theorem discover_congr (ht : t.Slashless)
    (h : ∀ parts, t'.IsFile (place' ++ parts) ↔ t.IsFile (place ++ parts)) :
    t'.discover place' extensions recursive = t.discover place extensions recursive := by
  have hmem : ∀ parts, parts ∈ t'.discover place' extensions recursive ↔
      parts ∈ t.discover place extensions recursive := by
    intro parts
    rw [mem_discover_iff_wanted, mem_discover_iff_wanted, h]
  have hperm := (List.perm_ext_iff_of_nodup nodup_discover nodup_discover).mpr hmem
  -- both lists are sorted by paths that tell the files from each other
  refine List.Perm.eq_of_pairwise ?_ pairwise_discover pairwise_discover hperm
  intro a b ha hb hab hba
  exact ht.joinParts_inj ((hmem a).mp ha) hb (String.le_antisymm hab hba)

theorem isFile_of_perm (h : t'.entries.Perm t.entries) (p : Place) : t'.IsFile p ↔ t.IsFile p := by
  rw [IsFile, IsFile]
  by_cases hp : p = []
  · simp [hp, get?_nil]
  · simp only [get?_eq_some_iff hp, h.mem_iff]

/-- **A scan finds exactly what it asks for.** The files that it finds are those below its directory
that are wanted, and they stand strictly in the order of their paths, so none stands there twice.
They are the same in whatever order the tree lists its entries, and wherever else a directory with
the same files below it stands, whatever the names are that lead to it. -/
theorem discover_exact (t : Tree) (ht : t.Slashless) (place : Place) (extensions : List String)
    (recursive : Bool) :
    (t.discover place extensions recursive).Pairwise (fun a b => joinParts a < joinParts b) ∧
    (∀ parts, parts ∈ t.discover place extensions recursive ↔
      t.IsFile (place ++ parts) ∧ Wanted (extensionsOrUsual extensions) recursive parts) ∧
    (∀ t' : Tree, t'.entries.Perm t.entries →
      t'.discover place extensions recursive = t.discover place extensions recursive) ∧
    ∀ (t' : Tree) (place' : Place),
      (∀ parts, t'.IsFile (place' ++ parts) ↔ t.IsFile (place ++ parts)) →
        t'.discover place' extensions recursive = t.discover place extensions recursive :=
  ⟨pairwise_lt_discover ht, fun _ => mem_discover_iff_wanted,
    fun _ hperm => discover_congr ht fun _ => isFile_of_perm hperm _,
    fun _ _ hfiles => discover_congr ht hfiles⟩

/-! ### Directories in a directory to be skipped -/

/-- A directory of scripts that stands in another one with a skipped name. -/
def builtScripts : Tree where
  entries :=
    [(["build"], .directory), (["build", "d"], .directory), (["build", "d", "old"], .directory),
      (["build", "d", "old", "B.SQL"], .file []), (["build", "d", "dist"], .directory),
      (["build", "d", "dist", "c.sql"], .file []), (["build", "d", "a.sql"], .file [])]
  nodup := by decide

/-- What stands in the way to the directory does not matter, and what stands below it does. -/
theorem discover_exact_built : builtScripts.Slashless ∧
    ["old", "B.SQL"] ∈ builtScripts.discover ["build", "d"] [".Sql"] true ∧
    ["dist", "c.sql"] ∉ builtScripts.discover ["build", "d"] [".Sql"] true := by
  have hslash : builtScripts.Slashless := by decide +kernel
  have hfound := (discover_exact builtScripts hslash ["build", "d"] [".Sql"] true).2.1
  refine ⟨hslash, (hfound _).mpr ⟨⟨[], by decide +kernel⟩, ?_⟩, fun hmem => ?_⟩
  · have hname : Named [".Sql"] "B.SQL" :=
      ⟨".SQL", Path.suffixOf_eq_iff.mp (by decide +kernel), ".Sql", List.mem_singleton_self _,
        by decide +kernel⟩
    have hparts : Wanted [".Sql"] true (["old"] ++ ["B.SQL"]) :=
      .descendant hname rfl (by decide +kernel)
    exact hparts
  · obtain ⟨-, hwanted⟩ := (hfound _).mp hmem
    generalize hparts : ["dist", "c.sql"] = parts at hwanted
    cases hwanted with
    | child _ => simp at hparts
    | @descendant ancestors name _ _ hancestors =>
      have hdist : ancestors = ["dist"] := by
        have hfront := congrArg List.dropLast hparts
        rw [List.dropLast_concat] at hfront
        exact hfront.symm
      exact hancestors "dist" (hdist ▸ List.mem_singleton_self _) (by decide +kernel)

/-- A scan that is given no extension still finds files, those with the usual one. -/
theorem discover_without_extensions :
    ¬∀ parts, parts ∈ (Tree.empty.put ["a.sql"] (.file [])).discover [] [] false ↔
      (Tree.empty.put ["a.sql"] (.file [])).IsFile ([] ++ parts) ∧ Wanted [] false parts := by
  intro h
  have hfound : ["a.sql"] ∈ (Tree.empty.put ["a.sql"] (.file [])).discover [] [] false := by
    decide +kernel
  obtain ⟨-, hwanted⟩ := (h _).mp hfound
  generalize ["a.sql"] = parts at hwanted
  cases hwanted with
  | child hname | descendant hname =>
    obtain ⟨_, _, extension, hextension, _⟩ := hname
    exact absurd hextension List.not_mem_nil

end Tree

end TableDocs.Files
