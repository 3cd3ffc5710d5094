import TableDocs.Files.Workspace

/-!
# TableDocs — atomic writing

A text is written to a temporary file beside its target, which then takes the target's place. Each
step may fail; the temporary file is then removed again. The run of a write lists all trees that it
passes through.
-/

namespace TableDocs.Files

inductive WriteStep
  | createTemporary
  | fill
  | setMode
  | replace
  deriving DecidableEq, Repr

/-- What a write needs to know. -/
structure WriteJob where
  /-- Where the temporary file goes. -/
  temporary : Place
  target : Place
  bytes : List UInt8

/-- The trees of a write, from before its first step to after its last one, and how it ends. -/
structure WriteRun where
  trees : List Tree
  result : Except FileFault Unit

namespace WriteRun

/-- The tree that a write leaves behind. -/
def final (r : WriteRun) (before : Tree) : Tree :=
  r.trees.getLastD before

end WriteRun

namespace WriteJob

/-- What a step does. -/
def apply (job : WriteJob) : WriteStep → Tree → Tree
  | .createTemporary, t => t.put job.temporary (.file [])
  | .fill, t => t.put job.temporary (.file job.bytes)
  | .setMode, t => t
  | .replace, t => (t.erase job.temporary).put job.target (.file job.bytes)

/-- What a step that fails has done: a temporary file may be filled in part. -/
def applyInPart (job : WriteJob) (written : Nat) : WriteStep → Tree → Tree
  | .fill, t => t.put job.temporary (.file (job.bytes.take written))
  | _, t => t

/-- Removes the temporary file where it is there. -/
def cleanUp (job : WriteJob) (t : Tree) : Tree :=
  if (t.get? job.temporary).isSome then t.erase job.temporary else t

/-- Runs steps in turn. A step that fails ends the run, and what it leaves is cleaned up, unless the
temporary file could not be created in the first place. -/
def runSteps (job : WriteJob) (faultAt : WriteStep → Option FileFault) (written : Nat) :
    List WriteStep → Tree → WriteRun
  | [], t => ⟨[t], .ok ()⟩
  | step :: steps, t =>
    match faultAt step with
    | some f =>
      let left := job.applyInPart written step t
      ⟨[t, left, if step = .createTemporary then left else job.cleanUp left], .error f⟩
    | none =>
      let next := job.runSteps faultAt written steps (job.apply step t)
      { next with trees := t :: next.trees }

/-- Runs a write. `faultAt` tells which steps fail, and `written` how many bytes reach the temporary
file when filling it fails. -/
def run (job : WriteJob) (faultAt : WriteStep → Option FileFault) (written : Nat) (t : Tree) :
    WriteRun :=
  job.runSteps faultAt written [.createTemporary, .fill, .setMode, .replace] t

end WriteJob

namespace Workspace

/-- Takes the parts back that two dots undo, without asking whether they exist. -/
def flatten (parts : List String) : List String :=
  parts.foldl (fun done part => if part = ".." then done.dropLast else done ++ [part]) []

/-- The name of the temporary file of a target; `unique` tells it from all other files. -/
def temporaryName (p : Path) (unique : String) : String :=
  "." ++ p.name ++ "." ++ unique ++ ".tmp"

/-- Where the temporary file of a target stands. -/
def temporaryPlace (w : Workspace) (p : Path) (unique : String) : Place :=
  flatten (w.parts p.parent) ++ [temporaryName p unique]

/-- The full path of the temporary file. -/
def temporaryPath (w : Workspace) (p : Path) (unique : String) : String :=
  let root := if p.root.isEmpty then "/" else p.root
  (⟨root, w.temporaryPlace p unique⟩ : Path).toString

/-- Which steps the tree itself makes fail. -/
def treeFault (w : Workspace) (p : Path) (unique : String) : WriteStep → Option FileFault
  | .createTemporary =>
    let path := w.temporaryPath p unique
    match w.tree.find (w.temporaryPlace p unique).dropLast with
    | .error .missing => some (.missing path)
    | .error .noDirectory => some (.noDirectory path)
    | .ok (_, .file _) => some (.noDirectory path)
    | .ok (_, .directory) => none
  | .replace =>
    let source := w.temporaryPath p unique
    if p.name.isEmpty || p.name = ".." then some (.replacesDots source p.toString)
    else match w.find p.parent with
      | .error .missing => some (.replacesMissing source p.toString)
      | .error .noDirectory => some (.replacesBeyondFile source p.toString)
      | .ok (_, .file _) => some (.replacesBeyondFile source p.toString)
      | .ok (parent, .directory) =>
        match w.tree.get? (parent ++ [p.name]) with
        | some .directory => some (.replacesDirectory source p.toString)
        | _ => none
  | _ => none

/-- Where a target stands, as far as its directory exists. -/
def targetPlace (w : Workspace) (p : Path) : Place :=
  match w.find p.parent with
  | .ok (parent, _) => parent ++ [p.name]
  | .error _ => w.parts p

/-- Writes a text in UTF-8. Besides the faults of the tree itself `faultAt` makes steps fail. -/
def writeText (w : Workspace) (p : Path) (text unique : String)
    (faultAt : WriteStep → Option FileFault) (written : Nat) : WriteRun :=
  let job : WriteJob := ⟨w.temporaryPlace p unique, w.targetPlace p, encodeUtf8 text⟩
  job.run (fun step => faultAt step <|> w.treeFault p unique step) written w.tree

/-- What is left of a write that breaks off because the text has no bytes in UTF-8: the temporary
file, still empty, unless it could not be created in the first place. Only failures of files are
cleaned up after. -/
def abandonText (w : Workspace) (p : Path) (unique : String)
    (faultAt : WriteStep → Option FileFault) : Except FileFault Tree :=
  match faultAt .createTemporary <|> w.treeFault p unique .createTemporary with
  | some fault => .error fault
  | none => .ok (w.tree.put (w.temporaryPlace p unique) (.file []))

end Workspace

end TableDocs.Files
