import ModuleRig.Json.Decode
import ModuleRig.Text.Cut
import ModuleRig.Text.Letter

/-!
# Module names

A module name is a dotted list of identifiers. The type holds valid names only, so whatever takes a
`ModuleName` can rely on it.
-/

namespace ModuleRig

namespace ModuleName

def startsIdentifier (c : Char) : Bool :=
  Text.isAlphabetic c || c == '_' || c == '$'

def continuesIdentifier (c : Char) : Bool :=
  Text.isAlphanumeric c || c == '_' || c == '$'

def isIdentifier : List Char → Bool
  | [] => false
  | c :: cs => startsIdentifier c && cs.all continuesIdentifier

/-- Every part between dots is an identifier. There is at least one part. -/
def isValid (cs : List Char) : Bool :=
  (Text.splitOn '.' cs).all isIdentifier

end ModuleName

structure ModuleName where
  text : String
  valid : ModuleName.isValid text.toList = true
deriving DecidableEq, Repr

inductive ModuleNameProblem where
  | empty
  /-- The part is the first that is no identifier. -/
  | badPart (name part : String)
deriving DecidableEq, Repr

def ModuleNameProblem.message : ModuleNameProblem → String
  | .empty => "module name is empty"
  | .badPart name part =>
    "'" ++ name ++ "' is not a valid module name (bad component '" ++ part ++ "')"

namespace ModuleName

def problemOf (name : String) : ModuleNameProblem :=
  if name.toList.isEmpty then .empty
  else
    match (Text.splitOn '.' name.toList).find? (!isIdentifier ·) with
    | none => .empty
    | some part => .badPart name (String.ofList part)

/-- Takes a name as it stands: nothing is trimmed. -/
def parse (name : String) : Except ModuleNameProblem ModuleName :=
  if h : isValid name.toList = true then .ok ⟨name, h⟩ else .error (problemOf name)

def toJson (m : ModuleName) : Json :=
  .ofText m.text

def ofJson? (j : Json) : Option ModuleName := do
  (parse (← j.text?)).toOption

theorem parse_text (m : ModuleName) : parse m.text = .ok m := by
  simp [parse, m.valid]

end ModuleName

end ModuleRig
