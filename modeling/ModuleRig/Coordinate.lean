import ModuleRig.Version.Selector

/-!
# Coordinates

A coordinate names what is to be resolved: a group, a name in the group and a version selector. Its
text is also the key under which a resolution is remembered, and its parts are the directories of
a repository, so each part must be safe as a path.
-/

namespace ModuleRig

open Version (Selector SelectorError)

structure Coordinate where
  group : String
  name : String
  selector : Selector
  /-- The content behind the coordinate may change while its version stays. -/
  changing : Bool
deriving DecidableEq, Repr

inductive CoordinateProblem where
  /-- There are not exactly three parts. -/
  | shape
  | emptyPart (label : String)
  | unsafePart (label value : String)
  | selector (error : SelectorError)
deriving DecidableEq, Repr

def CoordinateProblem.message : CoordinateProblem → String
  | .shape => "expected group:name:version"
  | .emptyPart label => label ++ " is empty"
  | .unsafePart label value => label ++ " '" ++ value ++ "' is not a valid path segment"
  | .selector error => error.message

namespace Coordinate

/-- The dotted name can be a path: no slashes, and every part between dots is a plain name. -/
def isSafeName (cs : List Char) : Bool :=
  !cs.any Version.isSlash && (Text.splitOn '.' cs).all fun part => !part.isEmpty

def checkName (label : String) (cs : List Char) : Except CoordinateProblem String :=
  if cs.isEmpty then .error (.emptyPart label)
  else if isSafeName cs then .ok (String.ofList cs)
  else .error (.unsafePart label (String.ofList cs))

/-- An exact snapshot version changes unless it is said not to. -/
def changesByDefault : Selector → Bool
  | .exact v => Version.isSnapshot v
  | _ => false

/-- Reads `group:name:selector`. -/
def parse (text : String) : Except CoordinateProblem Coordinate :=
  match Text.splitOn ':' (Text.trim text.toList) with
  | [group, name, selector] => do
    let group ← checkName "group" group
    let name ← checkName "name" name
    let selector ← (Selector.parse (String.ofList selector)).mapError CoordinateProblem.selector
    return ⟨group, name, selector, changesByDefault selector⟩
  | _ => .error .shape

def withChanging (c : Coordinate) (changing : Bool) : Coordinate :=
  { c with changing }

/-- The text of a coordinate. It does not show whether the coordinate is changing. -/
def text (c : Coordinate) : String :=
  c.group ++ ":" ++ c.name ++ ":" ++ c.selector.text

def cacheKey (c : Coordinate) : String :=
  c.text

def groupPath (c : Coordinate) : String :=
  String.ofList (c.group.toList.map fun ch => if ch = '.' then '/' else ch)

/-- The directory of all versions, in a repository. -/
def artifactDir (c : Coordinate) : String :=
  c.groupPath ++ "/" ++ c.name

def jarName (c : Coordinate) (version : String) : String :=
  c.name ++ "-" ++ version ++ ".jar"

def toJson (c : Coordinate) : Json :=
  .ofFields [("group", .ofText c.group), ("name", .ofText c.name), ("selector", c.selector.toJson),
    ("changing", .bool c.changing)]

/-- Reads a coordinate back. Of its parts only the selector is checked again. -/
def ofJson? (j : Json) : Option Coordinate :=
  match Json.record? ["group", "name", "selector", "changing"] j with
  | some [group, name, selector, changing] => do
    let group ← Json.required? Json.text? group
    let name ← Json.required? Json.text? name
    let selector ← Json.required? Selector.ofJson? selector
    let changing ← Json.required? Json.bool? changing
    return ⟨group, name, selector, changing⟩
  | _ => none

end Coordinate

end ModuleRig
