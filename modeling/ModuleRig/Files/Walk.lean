import ModuleRig.Files.Tree
import ModuleRig.Path
import ModuleRig.SystemError
import ModuleRig.Text.Utf8

/-!
# Finding the location of a path

A path is walked piece by piece, and every piece needs a directory to stand in. So a slash behind a
file name is an error, and so is a way through a file.
-/

namespace ModuleRig

/-- One piece of a path, as a move in the tree. -/
inductive Move where
  /-- An empty piece or a dot. -/
  | stay
  | up
  | down (name : String)
deriving DecidableEq, Repr

def Move.ofPiece (piece : List Char) : Move :=
  if piece = [] ∨ piece = ['.'] then .stay
  else if piece = ['.', '.'] then .up
  else .down (String.ofList piece)

/-- The moves of a path. The empty piece in front of an absolute path is a `stay` at the root. -/
def Path.moves (p : Path) : List Move :=
  p.pieces.map .ofPiece

namespace FileTree

abbrev Kind := SystemError.Kind

/-- The greatest length of a name and of a path, in bytes. -/
def nameLimit : Nat := 255
def pathLimit : Nat := 4095

def byteLength (s : String) : Nat :=
  (Text.Utf8.ofText s).length

/-- What is wrong with a path before any directory is looked at. -/
def checkSpelling (p : Path) : Except Kind Unit :=
  if p.chars.contains '\x00' then .error .invalidInput
  else if p.chars = [] then .error .notFound
  else if byteLength p.spelling > pathLimit then .error .invalidFilename
  else .ok ()

/-- Looks for a name in the directory at a location. -/
def enter (t : FileTree) (here : Location) (name : String) : Except Kind Location :=
  if byteLength name > nameLimit then .error .invalidFilename
  else
    match t.node? (here ++ [name]) with
    | none => .error .notFound
    | some _ => .ok (here ++ [name])

/-- The location must be a directory. -/
def requireDirectory (t : FileTree) (here : Location) : Except Kind Unit :=
  match t.node? here with
  | some .directory => .ok ()
  | some (.file _ _) => .error .notADirectory
  | none => .error .notFound

def walk (t : FileTree) (here : Location) : List Move → Except Kind Location
  | [] => .ok here
  | move :: moves => do
    t.requireDirectory here
    match move with
    | .stay => t.walk here moves
    | .up => t.walk here.dropLast moves
    | .down name =>
      let next ← t.enter here name
      t.walk next moves

def origin (t : FileTree) (p : Path) : Location :=
  if p.isAbsolute then [] else t.workingDirectory

def locate (t : FileTree) (p : Path) : Except Kind Location := do
  checkSpelling p
  t.walk (t.origin p) p.moves

/-- The directory and the name of a path whose last name may not exist yet. A path that does not
end in a name has the given error. -/
def locateNew (t : FileTree) (p : Path) (moves : List Move) (nameless : Kind) :
    Except Kind (Location × String) := do
  checkSpelling p
  let dir ← t.walk (t.origin p) moves.dropLast
  t.requireDirectory dir
  match moves.getLast? with
  | some (.down name) =>
    if byteLength name > nameLimit then .error .invalidFilename else .ok (dir, name)
  | _ => .error nameless

end FileTree

end ModuleRig
