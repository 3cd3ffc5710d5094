import TableDocs.Files.Tree

/-!
# TableDocs — discovery of sources

The sources of a directory are its files with certain suffixes, in the order of their paths. Below
the directory, some subdirectories are never looked into.
-/

namespace TableDocs.Files

/-- Directories that are never looked into. -/
def skippedDirectories : List String :=
  [".git", ".hg", ".svn", "node_modules", "__pycache__", ".venv", "venv", "vendor", "dist", "build",
    "target", ".cache", ".pytest_cache"]

/-- The parts of a place below a directory; none when it is not below it. -/
def relative? (directory p : Place) : Option (List String) :=
  if directory.isPrefixOf p && directory.length < p.length then some (p.drop directory.length)
  else none

/-- Is a file, named by its parts below the scanned directory, in the scope of a scan? -/
def inScope (recursive : Bool) (parts : List String) : Bool :=
  (recursive || parts.length == 1) &&
    parts.dropLast.all fun part => !skippedDirectories.contains part

/-- Does the last part have one of the suffixes, which are in lower case? -/
def hasSuffix (suffixes : List String) (parts : List String) : Bool :=
  suffixes.contains (Text.lower (Path.suffixOf (parts.getLastD "")))

/-- Parts joined by slashes. -/
def joinParts (parts : List String) : String :=
  "/".intercalate parts

/-- The suffixes that a list of extensions asks for; an empty list asks for the usual one. -/
def suffixesOf (extensions : List String) : List String :=
  (if extensions.isEmpty then [".sql"] else extensions).map Text.lower

namespace Tree

/-- The files below a directory that a scan finds, by their parts, in the order of their paths. -/
def discover (t : Tree) (directory : Place) (extensions : List String) (recursive : Bool) :
    List (List String) :=
  let found := t.entries.filterMap fun (p, e) =>
    match e, relative? directory p with
    | .file _, some parts =>
      if inScope recursive parts && hasSuffix (suffixesOf extensions) parts then some parts
      else none
    | _, _ => none
  found.mergeSort fun a b => decide (joinParts a ≤ joinParts b)

end Tree

end TableDocs.Files
