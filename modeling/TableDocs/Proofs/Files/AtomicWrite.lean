import TableDocs.Files.AtomicWrite
import TableDocs.Proofs.Files.TreeUpdate

/-!
# TableDocs — a write happens or it does not

A write passes through several trees, but it leaves one of two: the tree that it began with, or that
tree with the new file. What happens in between touches the temporary file only.

* **`WriteJob.Pending`** — the tree of a write under way: without the temporary file it is the tree
  before the write. Each step but the last keeps this.
* **`WriteJob.run_ending`** — so every write ends in one of the two ways.
* **`Workspace.writeText_ending`** — the same for a text, with the place that it is written to.
* **`Workspace.CanHold`** — the places where a text can be written. Where it was written once it can
  be written again (`CanHold.withFile`), and its path leads to it (`CanHold.find_eq`).
* **`CanHold.find_withFile_iff`** — all other paths lead to what they led to before.
-/

namespace TableDocs.Files

namespace WriteRun

/-- A step in front of a run is where the run begins. -/
theorem final_cons (r : WriteRun) (t before : Tree) :
    final { r with trees := t :: r.trees } before = r.final t :=
  List.getLastD_cons

end WriteRun

namespace WriteJob

variable {job : WriteJob} {t t' : Tree} {faultAt : WriteStep → Option FileFault} {written : Nat}

/-- The tree of a write under way, which began with `t`. -/
def Pending (job : WriteJob) (t t' : Tree) : Prop :=
  t'.erase job.temporary = t

/-- All steps but the last touch only the temporary file. -/
theorem Pending.apply (h : job.Pending t t') {step : WriteStep} (hstep : step ≠ .replace) :
    job.Pending t (job.apply step t') := by
  cases step with
  | createTemporary => exact (Tree.erase_put _ _ _).trans h
  | fill => exact (Tree.erase_put _ _ _).trans h
  | setMode => exact h
  | replace => exact absurd rfl hstep

/-- So does a step that breaks off. -/
theorem Pending.applyInPart (h : job.Pending t t') (step : WriteStep) :
    job.Pending t (job.applyInPart written step t') := by
  cases step with
  | fill => exact (Tree.erase_put _ _ _).trans h
  | _ => exact h

/-- Cleaning up leaves nothing of a write. -/
theorem Pending.cleanUp (h : job.Pending t t') : job.cleanUp t' = t := by
  rw [WriteJob.cleanUp]
  split
  · exact h
  · next hnone =>
    have hget : t'.get? job.temporary = none := by simpa using hnone
    exact (Tree.erase_of_get?_none hget).symm.trans h

/-- The steps behind the first one: they are undone, or all of them were taken. -/
theorem runSteps_ending {steps : List WriteStep} (hcreate : .createTemporary ∉ steps)
    (hreplace : .replace ∉ steps) (h : job.Pending t t') (before : Tree) :
    ((∃ f, (job.runSteps faultAt written (steps ++ [.replace]) t').result = .error f) ∧
        (job.runSteps faultAt written (steps ++ [.replace]) t').final before = t) ∨
      ((job.runSteps faultAt written (steps ++ [.replace]) t').result = .ok () ∧
        (∀ step ∈ steps ++ [.replace], faultAt step = none) ∧
        (job.runSteps faultAt written (steps ++ [.replace]) t').final before =
          t.put job.target (.file job.bytes)) := by
  -- On the steps before the last one, each of which keeps `Pending`.
  induction steps generalizing t' before with
  | nil =>
    rw [List.nil_append, runSteps]
    cases hfault : faultAt .replace with
    | some f => exact .inl ⟨⟨f, rfl⟩, h.cleanUp⟩
    | none =>
      have hput : job.apply .replace t' = t.put job.target (.file job.bytes) :=
        congrArg (fun tree => tree.put job.target (.file job.bytes)) h
      exact .inr ⟨rfl, by simpa using hfault, hput⟩
  | cons step steps ih =>
    rw [List.mem_cons, not_or] at hcreate hreplace
    rw [List.cons_append, runSteps]
    cases hfault : faultAt step with
    | some f =>
      simp only
      rw [if_neg (Ne.symm hcreate.1)]
      exact .inl ⟨⟨f, rfl⟩, (h.applyInPart step).cleanUp⟩
    | none =>
      rcases ih hcreate.2 hreplace.2 (h.apply (Ne.symm hreplace.1)) t' with
        ⟨herror, hfinal⟩ | ⟨hok, hfaults, hfinal⟩
      · exact .inl ⟨herror, (WriteRun.final_cons _ _ _).trans hfinal⟩
      · exact .inr ⟨hok, List.forall_mem_cons.mpr ⟨hfault, hfaults⟩,
          (WriteRun.final_cons _ _ _).trans hfinal⟩

/-- **A write leaves the tree as it was, or with the new file.** -/
theorem run_ending (hfresh : t.get? job.temporary = none) :
    ((∃ f, (job.run faultAt written t).result = .error f) ∧
        (job.run faultAt written t).final t = t) ∨
      ((job.run faultAt written t).result = .ok () ∧ (∀ step, faultAt step = none) ∧
        (job.run faultAt written t).final t = t.put job.target (.file job.bytes)) := by
  -- Nothing stands where the temporary file goes, so a write that has not begun is pending too.
  have hpending : job.Pending t t := Tree.erase_of_get?_none hfresh
  rw [run, runSteps]
  cases hfault : faultAt .createTemporary with
  | some f => exact .inl ⟨⟨f, rfl⟩, rfl⟩
  | none =>
    have hfilled : job.Pending t (job.apply .createTemporary t) := hpending.apply (by decide)
    have hsteps := @runSteps_ending job t _ faultAt written [.fill, .setMode] (by decide)
      (by decide) hfilled t
    rcases hsteps with ⟨herror, hfinal⟩ | ⟨hok, hfaults, hfinal⟩
    · exact .inl ⟨herror, (WriteRun.final_cons _ _ _).trans hfinal⟩
    · refine .inr ⟨hok, ?_, (WriteRun.final_cons _ _ _).trans hfinal⟩
      intro step
      cases step with
      | createTemporary => exact hfault
      | _ => exact hfaults _ (by simp)

/-- A write without faults succeeds. -/
theorem run_ok (h : ∀ step, faultAt step = none) : (job.run faultAt written t).result = .ok () := by
  simp only [run, runSteps, h]

end WriteJob

namespace Workspace

variable {w : Workspace} {p : Path} {target : Place}

/-! ## The place of a text

A write asks the tree twice: for a directory to put the temporary file in, and for a place to put it
at in the end. Both are asked for in the path of the text, so it can be told from the path whether
the tree lets a write pass. -/

/-- The path names a place for a file: both in a directory, and not a directory itself. -/
structure CanHold (w : Workspace) (p : Path) (target : Place) : Prop where
  /-- The temporary file has a directory. -/
  beside : ∃ q, w.tree.find (flatten (w.parts p.parent)) = .ok (q, .directory)
  parent : ∃ q, w.find p.parent = .ok (q, .directory) ∧ target = q ++ [p.name]
  name : p.name ≠ "" ∧ p.name ≠ ".."
  free : w.tree.get? target ≠ some .directory

/-- The place of a file is not that of the whole tree. -/
theorem CanHold.ne_nil (h : w.CanHold p target) : target ≠ [] := by
  obtain ⟨q, -, rfl⟩ := h.parent
  exact List.append_ne_nil_of_right_ne_nil _ (List.cons_ne_nil _ _)

/-- A place has no part that leads back up. -/
theorem CanHold.dots_not_mem (h : w.CanHold p target) : ".." ∉ target := by
  obtain ⟨q, hfind, rfl⟩ := h.parent
  rw [List.mem_append, List.mem_singleton, not_or]
  exact ⟨Tree.dots_not_mem_of_walk List.not_mem_nil (Tree.find_ok.mp hfind).1, h.name.2.symm⟩

/-- The file goes to the place that the path names. -/
theorem CanHold.targetPlace_eq (h : w.CanHold p target) : w.targetPlace p = target := by
  obtain ⟨q, hfind, rfl⟩ := h.parent
  rw [targetPlace, hfind]

/-- The temporary file is another one. -/
theorem CanHold.temporaryPlace_ne (h : w.CanHold p target) (unique : String) :
    w.temporaryPlace p unique ≠ target := by
  obtain ⟨q, -, rfl⟩ := h.parent
  intro heq
  have hname : temporaryName p unique = p.name := by
    simpa using (List.append_inj' heq rfl).2
  have hlength := congrArg String.length hname
  simp only [temporaryName, String.length_append] at hlength
  have hdots : ".".length = 1 := rfl
  omega

/-- The temporary file is created wherever the parent of the path is a directory. -/
theorem treeFault_createTemporary {unique : String} :
    w.treeFault p unique .createTemporary = none ↔
      ∃ q, w.tree.find (flatten (w.parts p.parent)) = .ok (q, .directory) := by
  rw [treeFault, temporaryPlace, List.dropLast_concat]
  cases hfind : w.tree.find (flatten (w.parts p.parent)) with
  | error fault => cases fault <;> simp
  | ok found =>
    obtain ⟨q, e⟩ := found
    cases e <;> simp

/-- The file gets its name unless the path has none or a directory stands there. -/
theorem treeFault_replace {unique : String} :
    w.treeFault p unique .replace = none ↔
      (p.name ≠ "" ∧ p.name ≠ "..") ∧ ∃ q, w.find p.parent = .ok (q, .directory) ∧
        w.tree.get? (q ++ [p.name]) ≠ some .directory := by
  rw [treeFault]
  by_cases hname : p.name = "" ∨ p.name = ".."
  · have hcond : (p.name.isEmpty || p.name = "..") = true := by simpa using hname
    simp only [hcond, if_true]
    simp [← not_or, hname]
  · have hcond : (p.name.isEmpty || p.name = "..") = false := by simpa using hname
    simp only [hcond]
    rw [not_or] at hname
    -- the parent may be missing or a file, and something may stand in the place already
    cases hfind : w.find p.parent with
    | error fault => cases fault <;> simp
    | ok found =>
      obtain ⟨q, e⟩ := found
      cases e with
      | file bytes => simp
      | directory =>
        cases hget : w.tree.get? (q ++ [p.name]) with
        | none => simp [hname, hget]
        | some e => cases e <;> simp [hname, hget]

/-- The tree lets a write pass exactly where it can hold the file. -/
theorem treeFault_eq_none_iff {unique : String} :
    (∀ step, w.treeFault p unique step = none) ↔ w.CanHold p (w.targetPlace p) := by
  constructor
  · intro h
    obtain ⟨hname, q, hfind, hfree⟩ := treeFault_replace.mp (h .replace)
    have htarget : w.targetPlace p = q ++ [p.name] := by rw [targetPlace, hfind]
    rw [htarget]
    exact ⟨treeFault_createTemporary.mp (h .createTemporary), ⟨q, hfind, rfl⟩, hname, hfree⟩
  · intro h step
    cases step with
    | createTemporary => exact treeFault_createTemporary.mpr h.beside
    | replace =>
      obtain ⟨q, hfind, htarget⟩ := h.parent
      exact treeFault_replace.mpr ⟨h.name, q, hfind, htarget ▸ h.free⟩
    -- the tree has nothing to say about the other two
    | fill => rfl
    | setMode => rfl

/-! ## Writing a text

A fault can come from the tree or from elsewhere. Either of them ends the write, and the first one
that comes decides. -/

section Writing

variable {unique : String} {faultAt : WriteStep → Option FileFault} (text : String) (written : Nat)

/-- **Writing a text leaves the tree as it was, or with the text in its place.** -/
theorem writeText_ending (hfresh : w.tree.get? (w.temporaryPlace p unique) = none) :
    ((∃ f, (w.writeText p text unique faultAt written).result = .error f) ∧
        (w.writeText p text unique faultAt written).final w.tree = w.tree) ∨
      ((w.writeText p text unique faultAt written).result = .ok () ∧
        (∀ step, faultAt step = none) ∧ w.CanHold p (w.targetPlace p) ∧
        (w.writeText p text unique faultAt written).final w.tree =
          w.tree.put (w.targetPlace p) (.file (encodeUtf8 text))) := by
  have hrun := @WriteJob.run_ending ⟨w.temporaryPlace p unique, w.targetPlace p, encodeUtf8 text⟩
    w.tree (fun step => faultAt step <|> w.treeFault p unique step) written hfresh
  rcases hrun with ⟨herror, hfinal⟩ | ⟨hok, hfaults, hfinal⟩
  · exact .inl ⟨herror, hfinal⟩
  -- the faults from elsewhere come before those of the tree
  · have hboth : ∀ step, faultAt step = none ∧ w.treeFault p unique step = none := fun step => by
      have hfault := hfaults step
      rwa [Option.orElse_eq_orElse, Option.orElse_eq_or, Option.or_eq_none_iff] at hfault
    exact .inr ⟨hok, fun step => (hboth step).1,
      treeFault_eq_none_iff.mp fun step => (hboth step).2, hfinal⟩

/-- Where the tree can hold the file and nothing else fails, the text is written. -/
theorem writeText_ok (hfaults : ∀ step, faultAt step = none)
    (hhold : w.CanHold p (w.targetPlace p)) :
    (w.writeText p text unique faultAt written).result = .ok () := by
  apply WriteJob.run_ok
  intro step
  rw [Option.orElse_eq_orElse, Option.orElse_eq_or, Option.or_eq_none_iff]
  exact ⟨hfaults step, treeFault_eq_none_iff.mpr hhold step⟩

end Writing

/-- The workspace with a file in some place. -/
def withFile (w : Workspace) (place : Place) (bytes : List UInt8) : Workspace :=
  { w with tree := w.tree.put place (.file bytes) }

/-- A file in its place leaves all directories as they were. -/
theorem CanHold.sameDirectories (h : w.CanHold p target) (bytes : List UInt8) :
    w.tree.SameDirectories (w.withFile target bytes).tree :=
  Tree.sameDirectories_put h.ne_nil h.free bytes

/-- Only the place of the file has changed. -/
theorem CanHold.get?_withFile (h : w.CanHold p target) (bytes : List UInt8) (place : Place) :
    (w.withFile target bytes).tree.get? place =
      if place = target then some (.file bytes) else w.tree.get? place :=
  Tree.get?_put w.tree h.ne_nil _ place

/-- A tree with the same directories can hold the same file. -/
theorem CanHold.of_sameDirectories (h : w.CanHold p target) {w' : Workspace}
    (hbase : w'.base = w.base) (hsame : w.tree.SameDirectories w'.tree) : w'.CanHold p target := by
  have hparts : ∀ path : Path, w'.parts path = w.parts path := fun path => by
    rw [parts, parts, hbase]
  obtain ⟨q, hbeside⟩ := h.beside
  obtain ⟨parent, hfind, htarget⟩ := h.parent
  refine ⟨⟨q, ?_⟩, ⟨parent, ?_, htarget⟩, h.name, ?_⟩
  · rw [hparts]
    exact (Tree.find_directory_iff hsame).mp hbeside
  · rw [find, hparts]
    exact (Tree.find_directory_iff hsame).mp hfind
  · exact fun hdirectory => h.free ((hsame target).mpr hdirectory)

/-- **Where a file was written it can be written again.** -/
theorem CanHold.withFile (h : w.CanHold p target) (bytes : List UInt8) :
    (w.withFile target bytes).CanHold p target :=
  h.of_sameDirectories rfl (h.sameDirectories bytes)

/-- What is found elsewhere is found as before. -/
theorem CanHold.find_withFile_iff (h : w.CanHold p target) (bytes : List UInt8) {path : Path}
    {place : Place} {e : Entry} (hplace : place ≠ target) :
    (w.withFile target bytes).find path = .ok (place, e) ↔ w.find path = .ok (place, e) := by
  have hsame := h.sameDirectories bytes
  have hget : (w.withFile target bytes).tree.get? place = w.tree.get? place := by
    rw [h.get?_withFile, if_neg hplace]
  constructor
  · intro hfind
    exact Tree.find_of_sameDirectories hsame.symm hfind (hget ▸ (Tree.find_ok.mp hfind).2)
  · intro hfind
    exact Tree.find_of_sameDirectories hsame hfind (hget ▸ (Tree.find_ok.mp hfind).2)

/-- A path that has parts leads from its directory on to its last part. -/
theorem parts_eq_concat (w : Workspace) {p : Path} (hparts : p.parts ≠ []) :
    w.parts p = w.parts p.parent ++ [p.name] := by
  have hsplit : p.parts = p.parent.parts ++ [p.name] := by
    rw [Path.parent, Path.name, List.getLastD_eq_getLast?, List.getLast?_eq_some_getLast hparts]
    exact (List.dropLast_concat_getLast hparts).symm
  have hroot : p.parent.root = p.root := rfl
  rw [parts, parts, hroot]
  split
  · rw [List.append_assoc, ← hsplit]
  · exact hsplit

theorem parts_eq_parent_append (w : Workspace) {p : Path} (hname : p.name ≠ "") :
    w.parts p = w.parts p.parent ++ [p.name] := by
  refine parts_eq_concat w fun hnil => ?_
  exact hname (by rw [Path.name, hnil]; rfl)

/-- The path of a place leads to what stands there. -/
theorem CanHold.find_eq (h : w.CanHold p target) {e : Entry} (hget : w.tree.get? target = some e) :
    w.find p = .ok (target, e) := by
  obtain ⟨q, hfind, rfl⟩ := h.parent
  obtain ⟨hwalk, hdirectory⟩ := Tree.find_ok.mp hfind
  have hlast : w.tree.walk q [p.name] = .ok (q ++ [p.name]) :=
    Tree.walk_cons_ok.mpr ⟨hdirectory, .inr ⟨h.name.2, rfl⟩⟩
  rw [find, parts_eq_parent_append w h.name.1, Tree.find_ok]
  exact ⟨Tree.walk_append.mpr ⟨q, hwalk, hlast⟩, hget⟩

/-! ## Reading what was not written

A file put in a place that is no directory leaves all directories as they are. So every other path
leads to what it led to before, and the text read there is the same. -/

/-- What is read depends on where the path leads. -/
theorem readText_congr {w w' : Workspace} {encoding : Encoding} {path : Path}
    (h : w'.find path = w.find path) : w'.readText encoding path = w.readText encoding path := by
  rw [readText, readText, readBytes, readBytes, h]

/-- A text is read where the path leads to a file that can be decoded. -/
theorem readText_eq_ok_iff {encoding : Encoding} {path : Path} {text : String} :
    w.readText encoding path = .ok text ↔
      ∃ place bytes, w.find path = .ok (place, .file bytes) ∧ encoding.decode bytes = .ok text := by
  rw [readText, readBytes]
  cases hfind : w.find path with
  | error fault => cases fault <;> simp
  | ok found =>
    obtain ⟨place, e⟩ := found
    cases e with
    | directory => simp
    | file bytes =>
      simp only
      constructor
      · intro h
        split at h
        · next text' hdecode =>
          cases h
          exact ⟨place, bytes, rfl, hdecode⟩
        · exact absurd h (by simp)
      · rintro ⟨place', bytes', heq, hdecode⟩
        cases heq
        simp only [hdecode]

theorem toOption_eq_some_iff {ε α : Type} {result : Except ε α} {a : α} :
    result.toOption = some a ↔ result = .ok a := by
  cases result <;> simp [Except.toOption]

/-- A path that leads to the same files has the same text. -/
theorem toOption_readText_eq {w w' : Workspace} (encoding : Encoding) {path : Path}
    (h : ∀ place bytes, w'.find path = .ok (place, .file bytes) ↔
      w.find path = .ok (place, .file bytes)) :
    (w'.readText encoding path).toOption = (w.readText encoding path).toOption := by
  ext text
  rw [toOption_eq_some_iff, toOption_eq_some_iff, readText_eq_ok_iff, readText_eq_ok_iff]
  simp only [h]

end Workspace

end TableDocs.Files
