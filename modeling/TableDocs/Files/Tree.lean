import TableDocs.Files.Path

/-!
# TableDocs — file trees

A tree maps places to files and directories. A place is the list of names that leads to it from the
top, which is a directory itself. Each place has one entry at most.
-/

namespace TableDocs.Files

/-- The names that lead from the top of a tree to a place. -/
abbrev Place := List String

inductive Entry
  | file (bytes : List UInt8)
  | directory
  deriving DecidableEq, Repr

structure Tree where
  entries : List (Place × Entry)
  nodup : (entries.map Prod.fst).Nodup

/-- Why a place cannot be reached. -/
inductive AccessFault
  | missing
  /-- A file stands where the way goes on. -/
  | noDirectory
  deriving DecidableEq, Repr

namespace Tree

def empty : Tree := ⟨[], List.nodup_nil⟩

/-- The entry of a place; the top is a directory. -/
def get? (t : Tree) (p : Place) : Option Entry :=
  if p.isEmpty then some .directory else t.entries.lookup p

/-- The tree without the entry of a place. -/
def erase (t : Tree) (p : Place) : Tree :=
  ⟨t.entries.filter fun e => e.1 != p,
    t.nodup.sublist (List.filter_sublist.map Prod.fst)⟩

/-- The tree with a new entry for a place. -/
def put (t : Tree) (p : Place) (e : Entry) : Tree :=
  ⟨(p, e) :: (t.erase p).entries,
    List.nodup_cons.2 ⟨by simp [erase], (t.erase p).nodup⟩⟩

/-- Makes directories of all places on the way to `p`, besides those that have an entry. -/
def putParents (t : Tree) (p : Place) : Tree :=
  let ways := (List.range (p.length - 1)).map fun n => p.take (n + 1)
  ways.foldl (fun t way => if (t.get? way).isSome then t else t.put way .directory) t

/-- Goes from a place that is a directory along further parts; two dots lead back. -/
def walk (t : Tree) (reached : Place) : List String → Except AccessFault Place
  | [] => .ok reached
  | part :: parts =>
    match t.get? reached with
    | some .directory =>
      if part = ".." then
        if reached.isEmpty then .error .missing else t.walk reached.dropLast parts
      else t.walk (reached ++ [part]) parts
    | some (.file _) => .error .noDirectory
    | none => .error .missing

/-- The place and the entry that parts lead to from the top. -/
def find (t : Tree) (parts : List String) : Except AccessFault (Place × Entry) :=
  match t.walk [] parts with
  | .error f => .error f
  | .ok p =>
    match t.get? p with
    | some e => .ok (p, e)
    | none => .error .missing

end Tree

end TableDocs.Files
