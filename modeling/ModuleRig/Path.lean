import ModuleRig.Text.Cut

/-!
# Paths

A path keeps the spelling it was given, and is shown so. Its components are what counts when paths
are compared: a doubled slash, a slash at the end and a dot between names are not components. A dot
at the very front is one.
-/

namespace ModuleRig

structure Path where
  spelling : String
deriving DecidableEq, Repr

namespace Path

inductive Component where
  /-- The slash that an absolute path starts with. -/
  | root
  /-- The dot that a relative path starts with. -/
  | here
  | parent
  | name (text : String)
deriving DecidableEq, Repr

def chars (p : Path) : List Char :=
  p.spelling.toList

def startsWithSlash : List Char → Bool
  | '/' :: _ => true
  | _ => false

def endsWithSlash (cs : List Char) : Bool :=
  cs.getLast? == some '/'

def isAbsolute (p : Path) : Bool :=
  startsWithSlash p.chars

/-- The component of a piece between slashes, if it is one. -/
def component? (piece : List Char) : Option Component :=
  if piece = [] ∨ piece = ['.'] then none
  else if piece = ['.', '.'] then some .parent
  else some (.name (String.ofList piece))

/-- The component at the very front. -/
def leading (cs : List Char) : List Component :=
  if startsWithSlash cs then [.root]
  else if (Text.splitOn '/' cs).head? = some ['.'] then [.here]
  else []

def components (p : Path) : List Component :=
  leading p.chars ++ (Text.splitOn '/' p.chars).filterMap component?

/-- The text is one name: it can be a directory's or a file's, and leads nowhere else. -/
def IsName (text : String) : Prop :=
  text ≠ "" ∧ text ≠ "." ∧ text ≠ ".." ∧ '/' ∉ text.toList

instance (text : String) : Decidable (IsName text) :=
  inferInstanceAs (Decidable (_ ∧ _ ∧ _ ∧ _))

def same (p q : Path) : Bool :=
  p.components == q.components

/-- Goes on from a path to another. An absolute path replaces it. -/
def join (p q : Path) : Path :=
  if q.isAbsolute ∨ p.chars = [] then q
  else if endsWithSlash p.chars then ⟨p.spelling ++ q.spelling⟩
  else ⟨p.spelling ++ "/" ++ q.spelling⟩

/-- Goes on to a name, or to a path in a text. -/
def child (p : Path) (text : String) : Path :=
  p.join ⟨text⟩

/-- The pieces between the slashes. -/
def pieces (p : Path) : List (List Char) :=
  Text.splitOn '/' p.chars

/-- A piece that leads nowhere, unless it is the first. -/
def isIdle (piece : List Char) : Bool :=
  piece.isEmpty || piece == ['.']

/-- Drops the idle pieces at the end, but never the first piece. -/
def dropIdle : List (List Char) → List (List Char)
  | [] => []
  | first :: rest => first :: (rest.reverse.dropWhile isIdle).reverse

/-- The path of the pieces. A lone empty piece in front of nothing is the root. -/
def ofPieces (absolute : Bool) (ps : List (List Char)) : Path :=
  if absolute ∧ ps = [[]] then ⟨"/"⟩ else ⟨String.ofList (Text.joinWith '/' ps)⟩

/-- The path without its last component. The root and the empty path have none. -/
def parent? (p : Path) : Option Path :=
  match dropIdle p.pieces with
  | [] => none
  | [first] => if first.isEmpty then none else some ⟨""⟩
  | ps => some (ofPieces p.isAbsolute (dropIdle ps.dropLast))

/-- The path and all the paths above it, from the longest on. The fuel bounds their number. -/
def ancestorsWithin : Nat → Path → List Path
  | 0, p => [p]
  | n + 1, p =>
    match p.parent? with
    | none => [p]
    | some q => p :: ancestorsWithin n q

/-- The path and all the paths above it, from the longest on. -/
def ancestors (p : Path) : List Path :=
  ancestorsWithin p.pieces.length p

/-- A file name without what follows its last dot. A dot in front does not count. -/
def stem (name : List Char) : List Char :=
  match (name.reverse.dropWhile (· != '.')).drop 1 with
  | [] => name
  | front => front.reverse

/-- The path with another extension of its last name, or with one if it has none. -/
def withExtension (p : Path) (extension : String) : Path :=
  let ps := dropIdle p.pieces
  let name := ps.getLast?.getD []
  if isIdle name ∨ name = ['.', '.'] then p
  else ofPieces p.isAbsolute (ps.dropLast ++ [stem name ++ '.' :: extension.toList])

/-- A relative path is taken from the base. -/
def anchoredAt (p base : Path) : Path :=
  if p.isAbsolute then p else base.join p

end Path

end ModuleRig
