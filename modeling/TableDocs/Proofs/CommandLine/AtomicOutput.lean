import TableDocs.Proofs.CommandLine.Call
import TableDocs.Proofs.Files.Utf8

/-!
# TableDocs — the states of a write

A write goes through four steps, and each of them may fail. Whoever looks at the tree in between
sees the temporary file come and go, but the target holds what it held before or the whole text.

* **`Workspace.FirstFault`** — the step that ends a write. `Workspace.result_writeText` tells the
  result of a write by it.
* **`Workspace.temporaryPlace_ne_targetPlace`** — the temporary file is never the target, not even
  where the target cannot be written.
* **`WriteJob.mem_trees_runSteps`** — what the steps keep, every tree of the run has: without the
  temporary file it is the tree before the write.
* **`output_atomic`** — all of that for the output of a command.
-/

namespace TableDocs

namespace Files

/-- The steps of a write in turn. -/
def WriteStep.all : List WriteStep :=
  [.createTemporary, .fill, .setMode, .replace]

/-! ## The fault that ends a write

A write is a list of steps. The first step at which there is a fault ends it, and the fault is the
result. -/

namespace WriteJob

variable {job : WriteJob} {t t' : Tree} {faultAt : WriteStep → Option FileFault} {written : Nat}

/-- The first fault of the steps is the result. -/
theorem result_runSteps (steps : List WriteStep) (t : Tree) :
    (job.runSteps faultAt written steps t).result =
      match steps.findSome? faultAt with
      | some fault => .error fault
      | none => .ok () := by
  induction steps generalizing t with
  | nil => rfl
  | cons step steps ih =>
    rw [runSteps, List.findSome?_cons]
    cases faultAt step with
    | some fault => rfl
    | none => exact ih _

/-! ## The trees on the way

Between the steps the tree is the one before the write, or the same with something under the
temporary name. The last step replaces the target, and no state lies in between. -/

/-- What a write under way shows of all other places is what stood there before. -/
theorem Pending.get? (h : job.Pending t t') (hjob : job.temporary ≠ []) {place : Place}
    (hplace : place ≠ job.temporary) : t'.get? place = t.get? place := by
  rw [← h, Tree.get?_erase t' hjob, if_neg hplace]

/-- **The trees of the steps** behind some tree of a write. The last one has the new file if no step
fails, and in all others only the temporary file differs from the tree before the write. -/
theorem mem_trees_runSteps (steps : List WriteStep) (hreplace : .replace ∉ steps)
    (hbegin : job.Pending t t) (h : job.Pending t t') {state : Tree}
    (hstate : state ∈ (job.runSteps faultAt written (steps ++ [.replace]) t').trees) :
    job.Pending t state ∨
      ((job.runSteps faultAt written (steps ++ [.replace]) t').result = .ok () ∧
        state = t.put job.target (.file job.bytes)) := by
  -- A step that fails is undone, which leads back to the tree before the write.
  have hfailed : ∀ (step : WriteStep) {t' : Tree}, job.Pending t t' →
      state ∈ [t', job.applyInPart written step t',
        if step = .createTemporary then job.applyInPart written step t'
        else job.cleanUp (job.applyInPart written step t')] → job.Pending t state := by
    intro step t' h hstate
    simp only [List.mem_cons, List.not_mem_nil, or_false] at hstate
    rcases hstate with rfl | rfl | rfl
    · exact h
    · exact h.applyInPart step
    · split
      · exact h.applyInPart step
      · rw [(h.applyInPart step).cleanUp]
        exact hbegin
  induction steps generalizing t' with
  | nil =>
    rw [List.nil_append, runSteps] at hstate ⊢
    cases hfault : faultAt .replace with
    | some fault =>
      rw [hfault] at hstate
      exact .inl (hfailed .replace h hstate)
    | none =>
      rw [hfault] at hstate
      rcases List.mem_cons.mp hstate with rfl | hlast
      · exact .inl h
      · have hput : job.apply .replace t' = t.put job.target (.file job.bytes) :=
          congrArg (fun tree => tree.put job.target (.file job.bytes)) h
        exact .inr ⟨rfl, (List.mem_singleton.mp hlast).trans hput⟩
  | cons step steps ih =>
    rw [List.mem_cons, not_or] at hreplace
    rw [List.cons_append, runSteps] at hstate ⊢
    cases hfault : faultAt step with
    | some fault =>
      rw [hfault] at hstate
      exact .inl (hfailed step h hstate)
    | none =>
      rw [hfault] at hstate
      rcases List.mem_cons.mp hstate with rfl | hlater
      · exact .inl h
      · exact ih hreplace.2 (h.apply (Ne.symm hreplace.1)) hlater

end WriteJob

namespace Workspace

variable {w : Workspace} {p : Path} {unique text : String}
  {faultAt : WriteStep → Option FileFault} {written : Nat}

/-- Why a step fails, if it does: something happens, or the tree does not allow it. -/
def stepFault? (w : Workspace) (p : Path) (unique : String)
    (faultAt : WriteStep → Option FileFault) (step : WriteStep) : Option FileFault :=
  faultAt step <|> w.treeFault p unique step

/-- A step fails, and it is the first one that does. -/
def FirstFault (w : Workspace) (p : Path) (unique : String)
    (faultAt : WriteStep → Option FileFault) (step : WriteStep) (fault : FileFault) : Prop :=
  ∃ before behind, WriteStep.all = before ++ step :: behind ∧
    w.stepFault? p unique faultAt step = some fault ∧
      ∀ earlier ∈ before, w.stepFault? p unique faultAt earlier = none

/-- The trees that can be seen while a text is written: those between the steps, and, as soon as
there is a temporary file, those in which a part of the text has come into it. -/
inductive Shows (w : Workspace) (p : Path) (unique text : String)
    (faultAt : WriteStep → Option FileFault) (written : Nat) : Tree → Prop
  | between {state : Tree} (hstate : state ∈ (w.writeText p text unique faultAt written).trees) :
      Shows w p unique text faultAt written state
  | filling (n : Nat) (hcreated : w.stepFault? p unique faultAt .createTemporary = none) :
      Shows w p unique text faultAt written
        (w.tree.put (w.temporaryPlace p unique) (.file ((encodeUtf8 text).take n)))

theorem result_writeText : (w.writeText p text unique faultAt written).result =
    match WriteStep.all.findSome? (w.stepFault? p unique faultAt) with
    | some fault => .error fault
    | none => .ok () :=
  WriteJob.result_runSteps _ _

theorem FirstFault.result {step : WriteStep} {fault : FileFault}
    (h : w.FirstFault p unique faultAt step fault) :
    (w.writeText p text unique faultAt written).result = .error fault := by
  obtain ⟨before, behind, hall, hfault, hbefore⟩ := h
  rw [result_writeText,
    List.findSome?_eq_some_iff.mpr ⟨before, step, behind, hall, hfault, hbefore⟩]

theorem result_of_no_fault (h : ∀ step, w.stepFault? p unique faultAt step = none) :
    (w.writeText p text unique faultAt written).result = .ok () := by
  rw [result_writeText, List.findSome?_eq_none_iff.mpr fun step _ => h step]

/-! ## The two files

The target and the temporary file stand side by side, under different names. So no change of the one
is a change of the other. -/

theorem flatten_append (front behind : List String) :
    flatten (front ++ behind) =
      behind.foldl (fun done part => if part = ".." then done.dropLast else done ++ [part])
        (flatten front) :=
  List.foldl_append

theorem flatten_concat (parts : List String) {part : String} (hpart : part ≠ "..") :
    flatten (parts ++ [part]) = flatten parts ++ [part] := by
  rw [flatten_append, List.foldl_cons, List.foldl_nil, if_neg hpart]

/-- A path that was made flat leads nowhere back. -/
theorem dots_not_mem_flatten (parts : List String) : ".." ∉ flatten parts := by
  induction parts using List.reverseRecOn with
  | nil => exact List.not_mem_nil
  | append_singleton parts part ih =>
    -- a name that leads back takes one name off, any other one is kept
    by_cases hpart : part = ".."
    · rw [flatten_append, List.foldl_cons, List.foldl_nil, if_pos hpart]
      exact fun hmem => ih (List.dropLast_subset _ hmem)
    · rw [flatten_concat parts hpart, List.mem_append, List.mem_singleton, not_or]
      exact ⟨ih, Ne.symm hpart⟩

/-- Without dots that lead back there is nothing to take back. -/
theorem flatten_eq_self {parts : List String} (h : ".." ∉ parts) : flatten parts = parts := by
  induction parts using List.reverseRecOn with
  | nil => rfl
  | append_singleton parts part ih =>
    rw [List.mem_append, List.mem_singleton, not_or] at h
    rw [flatten_concat parts (Ne.symm h.2), ih h.1]

theorem temporaryPlace_ne_nil : w.temporaryPlace p unique ≠ [] :=
  List.append_ne_nil_of_right_ne_nil _ (List.cons_ne_nil _ _)

/-- The temporary name has that of the target in it, and more. -/
theorem length_lt_temporaryName : p.name.length < (temporaryName p unique).length := by
  simp only [temporaryName, String.length_append]
  have hdots : ".".length = 1 := rfl
  omega

theorem temporaryName_ne_dots : temporaryName p unique ≠ ".." := by
  intro h
  have hlength := congrArg String.length h
  simp only [temporaryName, String.length_append] at hlength
  have hends : ".".length = 1 ∧ ".tmp".length = 4 ∧ "..".length = 2 := ⟨rfl, rfl, rfl⟩
  omega

/-- **The temporary file is never the target**, wherever the path of the target leads. -/
theorem temporaryPlace_ne_targetPlace : w.temporaryPlace p unique ≠ w.targetPlace p := by
  have hname : ∀ front : Place, w.temporaryPlace p unique ≠ front ++ [p.name] := by
    intro front heq
    -- the temporary name is longer than that of the target
    have hlast : temporaryName p unique = p.name := by
      simpa using (List.append_inj' heq rfl).2
    exact absurd (congrArg String.length hlast) (Nat.ne_of_gt length_lt_temporaryName)
  cases hfind : w.find p.parent with
  | ok found =>
    rw [targetPlace, hfind]
    exact hname found.1
  | error fault =>
    rw [targetPlace, hfind]
    by_cases hparts : p.parts = []
    · -- The path is a root, and the file would stand in itself.
      have hparent : w.parts p.parent = w.parts p := by
        rw [parts, parts, Path.parent, hparts]
        rfl
      intro (heq : w.temporaryPlace p unique = w.parts p)
      have hflat : ".." ∉ w.parts p := by
        rw [← heq, temporaryPlace, List.mem_append, List.mem_singleton, not_or]
        exact ⟨dots_not_mem_flatten _, temporaryName_ne_dots.symm⟩
      have hlength := congrArg List.length heq
      rw [temporaryPlace, hparent, flatten_eq_self hflat, List.length_append,
        List.length_singleton] at hlength
      exact absurd hlength (Nat.succ_ne_self _)
    · show _ ≠ w.parts p
      rw [parts_eq_concat w hparts]
      exact hname _

/-- **What can be seen of a write**: the tree from before it, but for the temporary file, or in the
end the tree with the text. -/
theorem Shows.cases (hfresh : w.tree.get? (w.temporaryPlace p unique) = none) {state : Tree}
    (h : w.Shows p unique text faultAt written state) :
    (∀ place, place ≠ w.temporaryPlace p unique → state.get? place = w.tree.get? place) ∨
      ((w.writeText p text unique faultAt written).result = .ok () ∧
        state = w.tree.put (w.targetPlace p) (.file (encodeUtf8 text))) := by
  cases h with
  | filling n hcreated =>
    exact .inl fun place hplace =>
      (Tree.get?_put w.tree temporaryPlace_ne_nil _ place).trans (if_neg hplace)
  | between hstate =>
    let job : WriteJob := ⟨w.temporaryPlace p unique, w.targetPlace p, encodeUtf8 text⟩
    -- a tree on the way is that of a write under way, or the last one
    have hbegin : job.Pending w.tree w.tree := Tree.erase_of_get?_none hfresh
    rcases job.mem_trees_runSteps [.createTemporary, .fill, .setMode] (by decide) hbegin hbegin
      hstate with hpending | ⟨hok, hput⟩
    · exact .inl fun place hplace => hpending.get? temporaryPlace_ne_nil hplace
    · exact .inr ⟨hok, hput⟩

end Workspace

end Files

namespace CommandLine

open TableDocs.Files

/-! ## The output of a command

The steps are those of the program, in its order. What holds of every fault and of none is put
together for one write of a command. -/

/-- A write that failed has told why, and nothing is left of it. -/
structure Restored (w : Workspace) (s : Surroundings) (output text : String) (written : Nat)
    (fault : FileFault) : Prop where
  result : (w.writeText (.ofString output) text s.unique s.writeFault written).result =
    .error fault
  tree : (w.writeText (.ofString output) text s.unique s.writeFault written).final w.tree = w.tree
  /-- The command fails with the fault and the path of its output. -/
  reported : writeOutput w s output text = (.error (.output (.ofString output) fault), w.tree)

/-- A write that went well has put the text in the place of its target and changed nothing else. -/
structure Replaced (w : Workspace) (s : Surroundings) (output text : String) (written : Nat) :
    Prop where
  result : (w.writeText (.ofString output) text s.unique s.writeFault written).result = .ok ()
  /-- The path leads to a file with the text in UTF-8. -/
  found : ({ w with
      tree := (w.writeText (.ofString output) text s.unique s.writeFault written).final w.tree } :
        Workspace).find (.ofString output) =
    .ok (w.targetPlace (.ofString output), .file (encodeUtf8 text))
  /-- Decoded without a look at line ends, these bytes are the text character by character. -/
  verbatim : Decode.utf8From 0 ((encodeUtf8 text).map UInt8.toNat) = .ok text.toList
  others : ∀ place, place ≠ w.targetPlace (.ofString output) →
    ((w.writeText (.ofString output) text s.unique s.writeFault written).final w.tree).get? place =
      w.tree.get? place
  clean : ((w.writeText (.ofString output) text s.unique s.writeFault written).final w.tree).get?
    (w.temporaryPlace (.ofString output) s.unique) = none
  reported : writeOutput w s output text =
    (.ok (), (w.writeText (.ofString output) text s.unique s.writeFault written).final w.tree)

section Output

variable {w : Workspace} {s : Surroundings} {output text : String} {written : Nat}

theorem writeOutput_eq {result : Except FileFault Unit} {tree : Tree}
    (hresult : (w.writeText (.ofString output) text s.unique s.writeFault 0).result = result)
    (htree : (w.writeText (.ofString output) text s.unique s.writeFault 0).final w.tree = tree) :
    writeOutput w s output text = (result.mapError (.output (.ofString output)), tree) := by
  rw [← hresult, ← htree]
  rfl

/-- A fault leaves the tree as it was. -/
theorem restored_of_firstFault
    (hfresh : w.tree.get? (w.temporaryPlace (.ofString output) s.unique) = none)
    {step : WriteStep} {fault : FileFault}
    (h : w.FirstFault (.ofString output) s.unique s.writeFault step fault) :
    Restored w s output text written fault := by
  have hrestored : ∀ written,
      (w.writeText (.ofString output) text s.unique s.writeFault written).final w.tree =
        w.tree := by
    intro written
    rcases Workspace.writeText_ending text written hfresh with ⟨-, hfinal⟩ | ⟨hok, -⟩
    · exact hfinal
    · exact absurd (h.result.symm.trans hok) (by simp)
  exact ⟨h.result, hrestored written, writeOutput_eq h.result (hrestored 0)⟩

/-- Without a fault the target holds the text. -/
theorem replaced_of_no_fault
    (hfresh : w.tree.get? (w.temporaryPlace (.ofString output) s.unique) = none)
    (h : ∀ step, w.stepFault? (.ofString output) s.unique s.writeFault step = none) :
    Replaced w s output text written := by
  have hok : ∀ written,
      (w.writeText (.ofString output) text s.unique s.writeFault written).result = .ok () :=
    fun _ => Workspace.result_of_no_fault h
  -- the same whatever part of the text is written at a time
  have hending : ∀ written, w.CanHold (.ofString output) (w.targetPlace (.ofString output)) ∧
      (w.writeText (.ofString output) text s.unique s.writeFault written).final w.tree =
        (w.withFile (w.targetPlace (.ofString output)) (encodeUtf8 text)).tree := by
    intro written
    rcases Workspace.writeText_ending text written hfresh with
      ⟨⟨fault, herror⟩, -⟩ | ⟨-, -, hhold, hfinal⟩
    · exact absurd (herror.symm.trans (hok written)) (by simp)
    · exact ⟨hhold, hfinal⟩
  obtain ⟨hhold, hfinal⟩ := hending written
  have hget := hhold.get?_withFile (encodeUtf8 text)
  refine ⟨hok written, ?_, ?_, ?_, ?_, ?_⟩
  · rw [hfinal]
    exact (hhold.withFile _).find_eq ((hget _).trans (if_pos rfl))
  · rw [encodeUtf8_eq]
    exact Decode.utf8From_encode text.toList 0
  · intro place hplace
    rw [hfinal, hget, if_neg hplace]
  · rw [hfinal, hget, if_neg (hhold.temporaryPlace_ne s.unique)]
    exact hfresh
  · rw [hfinal]
    exact writeOutput_eq (hok 0) (hending 0).2

/-- **Writing is atomic.** Let the name of the temporary file be a new one. If a step of the write
fails, whichever it is and however much of the text had come into the temporary file, then the
command fails with that fault and the path of its output, and the tree is what it was. If no step
fails, the path leads to a file with the text, and nothing else has changed. In every tree that can
be seen on the way the target is what it was or, in the end, that file; and apart from it and the
temporary file nothing differs from the tree before. -/
theorem output_atomic (w : Workspace) (s : Surroundings) (output text : String) (written : Nat)
    (hfresh : w.tree.get? (w.temporaryPlace (.ofString output) s.unique) = none) :
    (∀ step fault, w.FirstFault (.ofString output) s.unique s.writeFault step fault →
      Restored w s output text written fault) ∧
    ((∀ step, w.stepFault? (.ofString output) s.unique s.writeFault step = none) →
      Replaced w s output text written) ∧
    ∀ state, w.Shows (.ofString output) s.unique text s.writeFault written state →
      (state.get? (w.targetPlace (.ofString output)) =
          w.tree.get? (w.targetPlace (.ofString output)) ∨
        (w.writeText (.ofString output) text s.unique s.writeFault written).result = .ok () ∧
          state.get? (w.targetPlace (.ofString output)) = some (.file (encodeUtf8 text))) ∧
      ∀ place, place ≠ w.targetPlace (.ofString output) →
        place ≠ w.temporaryPlace (.ofString output) s.unique →
          state.get? place = w.tree.get? place := by
  refine ⟨fun step fault h => restored_of_firstFault hfresh h, replaced_of_no_fault hfresh, ?_⟩
  intro state hstate
  -- before the last step all but the temporary file is kept; after it the target is new
  rcases hstate.cases hfresh with hkept | ⟨hok, rfl⟩
  · exact ⟨.inl (hkept _ Workspace.temporaryPlace_ne_targetPlace.symm),
      fun place _ hplace => hkept place hplace⟩
  · rcases Workspace.writeText_ending text written hfresh with
      ⟨⟨fault, herror⟩, -⟩ | ⟨-, -, hhold, -⟩
    · exact absurd (herror.symm.trans hok) (by simp)
    · have hget := hhold.get?_withFile (encodeUtf8 text)
      exact ⟨.inr ⟨hok, (hget _).trans (if_pos rfl)⟩,
        fun place hplace _ => (hget place).trans (if_neg hplace)⟩

end Output

/-- A working directory with an output from before. -/
def oldOutput : Workspace :=
  ⟨[], Tree.empty.put ["o.json"] (.file (encodeUtf8 "old"))⟩

def spaceLeft : Surroundings :=
  { time := "", unique := "0" }

/-- The temporary file cannot be filled. -/
def noSpaceLeft : Surroundings :=
  { spaceLeft with
    writeFault := fun step =>
      if step = .fill then some (.other 28 "No space left on device") else none }

/-- On a full disk the old output stays, and later the new one takes its place. -/
theorem output_atomic_fullDisk :
    oldOutput.tree.get? (oldOutput.temporaryPlace (.ofString "o.json") "0") = none ∧
      Restored oldOutput noSpaceLeft "o.json" "new\r\n" 3 (.other 28 "No space left on device") ∧
        Replaced oldOutput spaceLeft "o.json" "new\r\n" 0 := by
  have hfresh : oldOutput.tree.get? (oldOutput.temporaryPlace (.ofString "o.json") "0") = none := by
    decide +kernel
  have hfill : oldOutput.FirstFault (.ofString "o.json") "0" noSpaceLeft.writeFault .fill
      (.other 28 "No space left on device") :=
    ⟨[.createTemporary], [.setMode, .replace], rfl, rfl, by decide +kernel⟩
  have hnone : ∀ step,
      oldOutput.stepFault? (.ofString "o.json") "0" spaceLeft.writeFault step = none := by
    intro step
    cases step <;> decide +kernel
  exact ⟨hfresh, (output_atomic oldOutput noSpaceLeft "o.json" "new\r\n" 3 hfresh).1 _ _ hfill,
    (output_atomic oldOutput spaceLeft "o.json" "new\r\n" 0 hfresh).2.1 hnone⟩

end CommandLine

end TableDocs
