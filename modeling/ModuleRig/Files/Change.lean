import ModuleRig.Files.Access

/-!
# Changing the file tree

Single operations, each of which happens in full or not at all, and `makeDirectories`, which is made
of them. A change that keeps a file in one piece is a list of operations: `replacement` writes a
new content beside the old file and then moves it onto its name, so the name never stands for half
of a content.
-/

namespace ModuleRig.FileTree

def makeDirectory (t : FileTree) (p : Path) : Except SystemError.Kind FileTree := do
  let moves := (p.pieces.reverse.dropWhile List.isEmpty).reverse.map Move.ofPiece
  let (dir, name) ← t.locateNew p moves .alreadyExists
  match t.node? (dir ++ [name]) with
  | some _ => throw .alreadyExists
  | none => return t.put (dir ++ [name]) .directory

/-- The kind of a file whose content has been thrown away. It may be started if it might before. -/
def kindEmptied : FileKind → FileKind
  | .plain => .plain
  | .unloadable => .unloadable
  | .program _ => .unloadable

/-- Makes a file, or empties the one that is there. -/
def create (t : FileTree) (p : Path) : Except SystemError.Kind FileTree := do
  let (dir, name) ← t.locateNew p p.moves .isADirectory
  match t.node? (dir ++ [name]) with
  | some .directory => throw .isADirectory
  | some (.file _ kind) => return t.put (dir ++ [name]) (.file [] (kindEmptied kind))
  | none => return t.put (dir ++ [name]) (.file [] .plain)

def append (t : FileTree) (p : Path) (bytes : Bytes) : Except SystemError.Kind FileTree := do
  let l ← t.locate p
  match t.node? l with
  | some (.file content kind) => return t.put l (.file (content ++ bytes) kind)
  | some .directory => throw .isADirectory
  | none => throw .notFound

/-- Gives a file another path in one step. A file that has that path is gone then. -/
def rename (t : FileTree) (source target : Path) : Except SystemError.Kind FileTree := do
  let l ← t.locate source
  let (dir, name) ← t.locateNew target target.moves .isADirectory
  match t.node? l, t.node? (dir ++ [name]) with
  | some (.file _ _), some .directory => throw .isADirectory
  | some (.file content kind), _ =>
    if l = dir ++ [name] then return t
    else return (t.erase l).put (dir ++ [name]) (.file content kind)
  | _, _ => throw .isADirectory

/-- Makes one directory, and takes it for made when it is there. -/
def ensureDirectory (t : FileTree) (p : Path) : Except SystemError.Kind FileTree :=
  match t.makeDirectory p with
  | .ok t' => .ok t'
  | .error kind => if t.isDirectory p then .ok t else .error kind

/-- Makes the first path of a list a directory, and before it those after it as far as they are
missing. -/
def ensureAll (t : FileTree) : List Path → Except SystemError.Kind Unit × FileTree
  | [] => (.error .other, t)
  | p :: above =>
    if p.chars = [] then (.ok (), t)
    else
      match t.ensureDirectory p with
      | .ok t' => (.ok (), t')
      | .error .notFound =>
        match t.ensureAll above with
        | (.error kind, t') => (.error kind, t')
        | (.ok (), t') =>
          match t'.ensureDirectory p with
          | .ok t'' => (.ok (), t'')
          | .error kind => (.error kind, t')
      | .error kind => (.error kind, t)

/-- Makes a directory and all directories above it. Those made before an error stay. -/
def makeDirectories (t : FileTree) (p : Path) : Except SystemError.Kind Unit × FileTree :=
  t.ensureAll p.ancestors

inductive Operation where
  | makeDirectories (p : Path)
  | create (p : Path)
  | append (p : Path) (bytes : Bytes)
  /-- Waits until the content of a file is safe. It shows nowhere. -/
  | sync (p : Path)
  | rename (source target : Path)
deriving DecidableEq, Repr

/-- A change that happens in full or not at all. -/
def whole (t : FileTree) :
    Except SystemError.Kind FileTree → Except SystemError.Kind Unit × FileTree
  | .ok t' => (.ok (), t')
  | .error kind => (.error kind, t)

/-- What an operation does when only the tree can keep it from its end. -/
def perform (t : FileTree) : Operation → Except SystemError.Kind Unit × FileTree
  | .makeDirectories p => t.makeDirectories p
  | .create p => t.whole (t.create p)
  | .append p bytes => t.whole (t.append p bytes)
  | .sync _ => (.ok (), t)
  | .rename source target => t.whole (t.rename source target)

/-- Performs operations in order, up to the first that fails. -/
def performAll (t : FileTree) : List Operation → Except SystemError.Kind Unit × FileTree
  | [] => (.ok (), t)
  | operation :: rest =>
    match t.perform operation with
    | (.error kind, t') => (.error kind, t')
    | (.ok (), t') => t'.performAll rest

/-- Puts a content under a path by way of a second file in the same directory. It may be asked that
the content is safe before it gets its name. -/
def replacement (dir partialFile target : Path) (content : Bytes) (safe : Bool) : List Operation :=
  [.makeDirectories dir, .create partialFile, .append partialFile content] ++
    (if safe then [.sync partialFile] else []) ++ [.rename partialFile target]

end ModuleRig.FileTree
