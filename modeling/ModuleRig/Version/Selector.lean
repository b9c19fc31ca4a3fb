import ModuleRig.Json.Decode
import ModuleRig.Text.Cut
import ModuleRig.Version.Order

/-!
# Version selectors

A selector asks for one version, for the newest one, or for the newest one whose text starts in a
given way. It is written as the version, as `+`, or as the stem followed by `+`.
-/

namespace ModuleRig.Version

inductive Selector where
  | exact (version : String)
  | latest
  /-- Any version whose text starts with the stem. -/
  | stem (text : String)
deriving DecidableEq, Repr

inductive SelectorError where
  | empty
  | notASegment (text : String)
  | manyPluses (text : String)
  | innerPlus (text : String)
deriving DecidableEq, Repr

def SelectorError.message : SelectorError → String
  | .empty => "version is empty"
  | .notASegment text => "version '" ++ text ++ "' is not a valid path segment"
  | .manyPluses text => "version '" ++ text ++ "' has more than one '+'"
  | .innerPlus text => "'+' must end the version selector, got '" ++ text ++ "'"

def isSlash (c : Char) : Bool :=
  c == '/' || c == '\\'

/-- The text can be the name of one directory. -/
def isSegment (cs : List Char) : Bool :=
  !cs.any isSlash && cs != ['.'] && cs != ['.', '.']

/-- The text without a plus at its end, when it has one. -/
def beforePlus? (cs : List Char) : Option (List Char) :=
  if cs.getLast? = some '+' then some cs.dropLast else none

/-- Reads a text without outer blanks. -/
def Selector.ofTrimmed (cs : List Char) : Except SelectorError Selector :=
  let text := String.ofList cs
  if cs.isEmpty then .error .empty
  else if !isSegment cs then .error (.notASegment text)
  else
    match beforePlus? cs with
    | some [] => .ok .latest
    | some front =>
      if front.contains '+' then .error (.manyPluses text) else .ok (.stem (String.ofList front))
    | none => if cs.contains '+' then .error (.innerPlus text) else .ok (.exact text)

/-- Reads a selector. Blanks around it do not count. -/
def Selector.parse (text : String) : Except SelectorError Selector :=
  Selector.ofTrimmed (Text.trim text.toList)

/-- The text of a selector, which reads as the selector again. -/
def Selector.text : Selector → String
  | .exact v => v
  | .latest => "+"
  | .stem s => s ++ "+"

/-- The selector leaves a choice. -/
def Selector.isDynamic : Selector → Bool
  | .exact _ => false
  | _ => true

def Selector.accepts (selector : Selector) (version : String) : Bool :=
  match selector with
  | .exact v => v == version
  | .latest => true
  | .stem s => s.toList.isPrefixOf version.toList

/-- The newest of the versions that the selector accepts. -/
def Selector.select? (selector : Selector) (versions : List String) : Option String :=
  newest? (versions.filter selector.accepts)

/-- A selector is written as its text. -/
def Selector.toJson (selector : Selector) : Json :=
  .ofText selector.text

/-- Reads a selector back. The text is checked as any other. -/
def Selector.ofJson? (j : Json) : Option Selector := do
  (Selector.parse (← j.text?)).toOption

end ModuleRig.Version
