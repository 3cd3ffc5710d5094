import TableDocs.Text.CaseMap

/-!
# TableDocs — paths

A path is a root and a list of parts. Empty parts and single dots mean nothing and are dropped;
double dots are kept, because they may cross a link.
-/

namespace TableDocs.Files

structure Path where
  /-- The slashes at the start: none, one, or exactly two. -/
  root : String
  parts : List String
  deriving DecidableEq, Repr

namespace Path

/-- The stretches of a text between slashes. -/
def splitSlashes (s : String) : List String :=
  (s.toList.splitOn '/').map String.ofList

/-- Reads a path. Two slashes at the start are a root of their own; three or more are one. -/
def ofString (s : String) : Path :=
  let slashes := (s.toList.takeWhile (· == '/')).length
  let root := if slashes = 0 then "" else if slashes = 2 then "//" else "/"
  ⟨root, (splitSlashes s).filter fun part => part != "" && part != "."⟩

/-- The path as text; a path of nothing is the current directory. -/
def toString (p : Path) : String :=
  if p.root.isEmpty && p.parts.isEmpty then "." else p.root ++ "/".intercalate p.parts

/-- The last part, and no text where there is none. -/
def name (p : Path) : String :=
  p.parts.getLastD ""

/-- The part of a name from its last dot on. A dot at the start or the end of the name starts no
suffix. -/
def suffixOf (name : String) : String :=
  let tail := (name.toList.reverse.takeWhile (· != '.')).reverse
  if tail.length + 1 < name.length && !tail.isEmpty then String.ofList ('.' :: tail) else ""

/-- A name without its suffix. -/
def stemOf (name : String) : String :=
  String.ofList (name.toList.take (name.length - (suffixOf name).length))

def suffix (p : Path) : String :=
  suffixOf p.name

def stem (p : Path) : String :=
  stemOf p.name

/-- The directory that holds the path's last part. -/
def parent (p : Path) : Path :=
  { p with parts := p.parts.dropLast }

/-- Steps into a directory. -/
def child (p : Path) (name : String) : Path :=
  { p with parts := p.parts ++ [name] }

end Path

end TableDocs.Files
