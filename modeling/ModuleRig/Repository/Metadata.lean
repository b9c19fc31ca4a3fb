import ModuleRig.Text.Cut

/-!
# Repository metadata

Two things are read from a metadata document: the versions it lists, and the version in the file
name of a snapshot's jar. The document is searched for its elements as text. What stands around
them does not matter, and no document is refused.
-/

namespace ModuleRig.Metadata

open Text (after? cutAt? isBlank)

def openTag (name : String) : List Char := '<' :: name.toList ++ ['>']

def closeTag (name : String) : List Char := '<' :: '/' :: name.toList ++ ['>']

def isValueChar (c : Char) : Bool :=
  c != '<' && !isBlank c

/-- The value of a version element that starts here: one word, with blanks around it. -/
def versionHere? (text : List Char) : Option String := do
  let inner ← after? (openTag "version") text
  let inner := inner.dropWhile isBlank
  let value := inner.takeWhile isValueChar
  let rest := (inner.dropWhile isValueChar).dropWhile isBlank
  let _ ← after? (closeTag "version") rest
  if value.isEmpty then none else some (String.ofList value)

/-- The values of all version elements. No element starts within another. -/
def versionElements : List Char → List String
  | [] => []
  | c :: text =>
    match versionHere? (c :: text) with
    | some value => value :: versionElements text
    | none => versionElements text

/-- The block of versions, or the whole text when it has no such block. -/
def versionBlock (text : List Char) : List Char :=
  match cutAt? (openTag "versions") text with
  | none => text
  | some (_, inner) =>
    match cutAt? (closeTag "versions") inner with
    | none => text
    | some (block, _) => block

/-- The versions a document lists, in order and with repeats. -/
def versions (document : String) : List String :=
  versionElements (versionBlock document.toList)

/-- The text between the first opening tag of a name and the closing tag after it, without the
blanks at its ends. -/
def tagValue? (name : String) (text : List Char) : Option (List Char) := do
  let (_, inner) ← cutAt? (openTag name) text
  let (value, _) ← cutAt? (closeTag name) inner
  return Text.trim value

/-- The texts between the opening tags of a name and the closing tags that follow them. -/
def blocks (name : String) (text : List Char) : List (List Char) :=
  match _hOpen : cutAt? (openTag name) text with
  | none => []
  | some (_, inner) =>
    match _hClose : cutAt? (closeTag name) inner with
    | none => []
    | some (block, rest) => block :: blocks name rest
termination_by text.length
decreasing_by
  have hText := congrArg List.length (Text.eq_append_of_cutAt? _hOpen)
  have hInner := congrArg List.length (Text.eq_append_of_cutAt? _hClose)
  simp only [openTag, closeTag, List.length_append, List.length_cons] at hText hInner
  omega

/-- The value of a block that is about a jar without a classifier. -/
def plainJarValue? (block : List Char) : Option (List Char) :=
  if tagValue? "extension" block = some ['j', 'a', 'r'] ∧ tagValue? "classifier" block = none then
    tagValue? "value" block
  else none

/-- The version in the file name of a snapshot's jar, if the document names one. -/
def snapshotJarVersion? (document : String) : Option String :=
  ((blocks "snapshotVersion" document.toList).findSome? plainJarValue?).map String.ofList

end ModuleRig.Metadata
