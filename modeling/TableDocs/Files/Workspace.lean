import TableDocs.Files.Encoding
import TableDocs.Files.Tree
import TableDocs.Text.Quoted

/-!
# TableDocs — the working directory

Commands read and write a tree of files from a working directory, which is a place of that tree.
Relative paths lead on from there, and all others from the top.
-/

namespace TableDocs.Files

structure Workspace where
  /-- The place of the working directory. -/
  base : Place
  tree : Tree

/-- Why a file operation fails; the paths are those of the message. -/
inductive FileFault
  | missing (path : String)
  | noDirectory (path : String)
  | isDirectory (path : String)
  /-- A file cannot take the place of a directory. -/
  | replacesDirectory (source target : String)
  | replacesMissing (source target : String)
  | replacesBeyondFile (source target : String)
  /-- A path that ends in dots names no entry to be replaced. -/
  | replacesDots (source target : String)
  /-- Any other failure, by its number and text. -/
  | other (number : Nat) (text : String)
  | undecodable (fault : DecodeFault)
  deriving DecidableEq, Repr

namespace FileFault

def withPath (number : Nat) (text path : String) : String :=
  "[Errno " ++ toString number ++ "] " ++ text ++ ": " ++ Text.quoted path

def withPaths (number : Nat) (text source target : String) : String :=
  withPath number text source ++ " -> " ++ Text.quoted target

def message : FileFault → String
  | missing path => withPath 2 "No such file or directory" path
  | noDirectory path => withPath 20 "Not a directory" path
  | isDirectory path => withPath 21 "Is a directory" path
  | replacesDirectory source target => withPaths 21 "Is a directory" source target
  | replacesMissing source target => withPaths 2 "No such file or directory" source target
  | replacesBeyondFile source target => withPaths 20 "Not a directory" source target
  | replacesDots source target => withPaths 16 "Device or resource busy" source target
  | other number text => "[Errno " ++ toString number ++ "] " ++ text
  | undecodable fault => fault.message

end FileFault

namespace Workspace

/-- The parts that lead from the top of the tree along a path. -/
def parts (w : Workspace) (p : Path) : List String :=
  if p.root.isEmpty then w.base ++ p.parts else p.parts

/-- The place and the entry that a path leads to. -/
def find (w : Workspace) (p : Path) : Except AccessFault (Place × Entry) :=
  w.tree.find (w.parts p)

def isPresent (w : Workspace) (p : Path) : Bool :=
  match w.find p with
  | .ok _ => true
  | .error _ => false

/-- The bytes of a file. -/
def readBytes (w : Workspace) (p : Path) : Except FileFault (List UInt8) :=
  match w.find p with
  | .ok (_, .file bytes) => .ok bytes
  | .ok (_, .directory) => .error (.isDirectory p.toString)
  | .error .missing => .error (.missing p.toString)
  | .error .noDirectory => .error (.noDirectory p.toString)

/-- The text of a file. -/
def readText (w : Workspace) (e : Encoding) (p : Path) : Except FileFault String :=
  match w.readBytes p with
  | .error f => .error f
  | .ok bytes =>
    match e.decode bytes with
    | .ok text => .ok text
    | .error fault => .error (.undecodable fault)

end Workspace

end TableDocs.Files
