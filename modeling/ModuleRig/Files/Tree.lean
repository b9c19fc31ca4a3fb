import ModuleRig.Path
import ModuleRig.Process

/-!
# File trees

A tree of directories and files, kept as what stands at each location. A location is the list of
names on the way from the root, which is always a directory. Later entries of a list are hidden by
earlier ones, so `put` only has to add one: `node?_put_self` and `node?_put_ne` say that it changes
one location and no other. A tree has no links: what stands at a location is found by that location
alone.
-/

namespace ModuleRig

/-- The names on the way from the root. -/
abbrev Location := List String

/-- What comes of starting a file. -/
inductive FileKind where
  /-- It may not be started. -/
  | plain
  /-- It may be started, but its content is no program. -/
  | unloadable
  | program (run : Program)

inductive Node where
  | directory
  | file (content : Bytes) (kind : FileKind)

structure FileTree where
  entries : List (Location × Node)
  /-- Where relative paths start. -/
  workingDirectory : Location

namespace FileTree

/-- A tree with the root alone. -/
def empty : FileTree := ⟨[], []⟩

def node? (t : FileTree) (l : Location) : Option Node :=
  if l = [] then some .directory else t.entries.lookup l

def put (t : FileTree) (l : Location) (node : Node) : FileTree :=
  { t with entries := (l, node) :: t.entries }

def prune (t : FileTree) (l : Location) : FileTree :=
  { t with entries := t.entries.filter fun (k, _) => !l.isPrefixOf k }

def erase (t : FileTree) (l : Location) : FileTree :=
  { t with entries := t.entries.filter fun (k, _) => k != l }

/-- The name of a location directly below the directory. -/
def nameBelow? (dir l : Location) : Option String :=
  match l.getLast? with
  | none => none
  | some name => if l.dropLast = dir then some name else none

/-- The names directly below a directory, each once. An entry that has no name of a file is listed
nowhere, as no path leads to it. -/
def names (t : FileTree) (dir : Location) : List String :=
  ((t.entries.filterMap fun (l, _) => nameBelow? dir l).filter fun name =>
    decide (Path.IsName name)).eraseDups

def content? (t : FileTree) (l : Location) : Option Bytes :=
  match t.node? l with
  | some (.file content _) => some content
  | _ => none

theorem node?_put_self (t : FileTree) {l : Location} (node : Node) (h : l ≠ []) :
    (t.put l node).node? l = some node := by
  simp [node?, put, h]

theorem node?_put_ne (t : FileTree) {l k : Location} (node : Node) (h : k ≠ l) :
    (t.put l node).node? k = t.node? k := by
  have : (k == l) = false := by simpa using h
  simp [node?, put, List.lookup_cons, this]

end FileTree

end ModuleRig
