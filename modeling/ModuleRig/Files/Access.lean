import ModuleRig.Digest
import ModuleRig.Files.Walk

/-!
# Reading from the file tree
-/

namespace ModuleRig.FileTree

def nodeAt? (t : FileTree) (p : Path) : Option Node :=
  match t.locate p with
  | .ok l => t.node? l
  | .error _ => none

def exists? (t : FileTree) (p : Path) : Bool :=
  (t.nodeAt? p).isSome

def isFile (t : FileTree) (p : Path) : Bool :=
  match t.nodeAt? p with
  | some (.file _ _) => true
  | _ => false

def isDirectory (t : FileTree) (p : Path) : Bool :=
  match t.nodeAt? p with
  | some .directory => true
  | _ => false

def read (t : FileTree) (p : Path) : Except SystemError Bytes :=
  match t.locate p with
  | .error kind => .error (.ofKind kind)
  | .ok l =>
    match t.node? l with
    | some (.file content _) => .ok content
    | some .directory => .error (.ofKind .isADirectory)
    | none => .error (.ofKind .notFound)

/-- The text of a file, which must be UTF-8. -/
def readText (t : FileTree) (p : Path) : Except SystemError String := do
  let content ← t.read p
  match Text.Utf8.text? content with
  | some text => return text
  | none => throw (.ofKind .invalidData)

/-- The names in a directory, in no particular order. -/
def list (t : FileTree) (p : Path) : Except SystemError (List String) :=
  match t.locate p with
  | .error kind => .error (.ofKind kind)
  | .ok l =>
    match t.requireDirectory l with
    | .error kind => .error (.ofKind kind)
    | .ok () => .ok (t.names l)

def digest (t : FileTree) (p : Path) : Except SystemError String :=
  (t.read p).map Digest.ofBytes

def programAt (t : FileTree) (p : Path) : Except SystemError.Kind Program :=
  match t.locate p with
  | .error kind => .error kind
  | .ok l =>
    match t.node? l with
    | some (.file _ (.program run)) => .ok run
    | some (.file _ .unloadable) => .error .unloadable
    | some (.file _ .plain) => .error .permissionDenied
    | some .directory => .error .permissionDenied
    | none => .error .notFound

end ModuleRig.FileTree
