import TableDocs.Collection.Loading
import TableDocs.Files.Workspace

/-!
# TableDocs — collections in files

The document of a collection is read from a file in UTF-8.
-/

namespace TableDocs.Collection

open TableDocs.Files

/-- Why a file gives no collection. -/
inductive ReadFault
  | unreadable (fault : FileFault)
  | invalid (fault : LoadFault)
  deriving DecidableEq, Repr

namespace ReadFault

/-- The first line of the report on a file that gives no collection. -/
def headline (path : Path) : ReadFault → String
  | unreadable fault => "Failed to read " ++ path.toString ++ ": " ++ fault.message
  | invalid fault =>
    "Invalid schema collection in " ++ path.toString ++ ": " ++
      Validation.headline fault.count modelName

/-- The problems that the report lists behind its first line. -/
def problems : ReadFault → List Validation.Problem
  | invalid (.problems problems) => problems
  | _ => []

end ReadFault

/-- Reads a collection from a file. -/
def ofFile (w : Workspace) (path : Path) (parse? : Json.Parser := Json.parse?) :
    Except ReadFault Collection :=
  match w.readText .utf8 path with
  | .error fault => .error (.unreadable fault)
  | .ok text =>
    match load text parse? with
    | .error fault => .error (.invalid fault)
    | .ok c => .ok c

end TableDocs.Collection
