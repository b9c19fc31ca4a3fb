import ModuleRig.Toml.Value

/-!
# Reading TOML values and lines

Lists may go over several lines and have comments in them; tables in braces stand on one line. The
recursion is bounded by the length of the text, of which every level takes at least one character.
-/

namespace ModuleRig.Toml

/-- Passes over blanks, line ends and comments. A comment with a control character is refused. -/
def dropFill (inComment : Bool) : List Char → Option (List Char)
  | [] => some []
  | '\n' :: rest => dropFill false rest
  | '\r' :: '\n' :: rest => dropFill false rest
  | c :: rest =>
    if inComment then if isPlain c then dropFill true rest else none
    else if c = '#' then dropFill true rest
    else if isBlank c then dropFill false rest
    else some (c :: rest)

/-- No path of keys begins with another. -/
def isNewPath (known : List (List String)) (path : List String) : Bool :=
  !known.any fun other => other.isPrefixOf path || path.isPrefixOf other

/-- Puts a value into a table under a path of keys, where tables are made as they are missing. -/
def putAt (value : Value) : List String → List (String × Value) → List (String × Value)
  | [], fields => fields
  | [key], fields => fields ++ [(key, value)]
  | key :: path, fields =>
    match fields.lookup key with
    | some (.table inner) =>
      fields.map fun (k, v) => if k = key then (k, .table (putAt value path inner)) else (k, v)
    | _ => fields ++ [(key, .table (putAt value path []))]

def tableOf (fields : List (List String × Value)) : Value :=
  .table (fields.foldl (fun table (path, value) => putAt value path table) [])

mutual

/-- A value within so many brackets at most. -/
def valueWithin : Nat → Nat → List Char → Option (Value × List Char)
  | 0, _, _ => none
  | n + 1, levels, cs =>
    match cs with
    | '[' :: rest =>
      if levels = 0 then none
      else (itemsWithin n (levels - 1) rest).map fun (items, rest) => (.list items, rest)
    | '{' :: rest =>
      if levels = 0 then none
      else
        match rest.dropWhile isBlank with
        | '}' :: rest => some (.table [], rest)
        | rest =>
          (fieldsWithin n (levels - 1) [] rest).map fun (fields, rest) => (tableOf fields, rest)
    | '"' :: _ => (string? cs).map fun (s, rest) => (.text (String.ofList s), rest)
    | '\'' :: _ => (string? cs).map fun (s, rest) => (.text (String.ofList s), rest)
    | _ => bareValue? cs

/-- The items of a list, up to its end. A comma may stand behind the last. -/
def itemsWithin : Nat → Nat → List Char → Option (List Value × List Char)
  | 0, _, _ => none
  | n + 1, levels, cs => do
    match ← dropFill false cs with
    | ']' :: rest => return ([], rest)
    | cs =>
      let (item, rest) ← valueWithin n levels cs
      match ← dropFill false rest with
      | ',' :: rest =>
        let (items, rest) ← itemsWithin n levels rest
        return (item :: items, rest)
      | ']' :: rest => return ([item], rest)
      | _ => none

/-- The fields of a table in braces, up to its end. -/
def fieldsWithin : Nat → Nat → List (List String) → List Char →
    Option (List (List String × Value) × List Char)
  | 0, _, _, _ => none
  | n + 1, levels, known, cs => do
    let (path, rest) ← keyPath? cs
    if !isNewPath known path then none
    else
      match rest with
      | '=' :: rest =>
        let (value, rest) ← valueWithin n levels (rest.dropWhile isBlank)
        match rest.dropWhile isBlank with
        | ',' :: rest =>
          let (fields, rest) ← fieldsWithin n levels (path :: known) rest
          return ((path, value) :: fields, rest)
        | '}' :: rest => return ([(path, value)], rest)
        | _ => none
      | _ => none

end

def value? (cs : List Char) : Option (Value × List Char) :=
  valueWithin (cs.length + 1) (levelLimit - 1) cs

/-- One line that says something. -/
inductive Statement where
  /-- A table begins. -/
  | table (name : String)
  /-- A further table of a list of tables begins. -/
  | element (name : String)
  | field (key : String) (value : Value)
  /-- A field of a table that is named on the same line. -/
  | dotted (table key : String) (value : Value)

/-- What follows a comment and the end of the line. -/
def lineEnd? : List Char → Option (List Char)
  | [] => some []
  | '\n' :: rest => some rest
  | '\r' :: '\n' :: rest => some rest
  | '#' :: rest =>
    match rest.dropWhile isPlain with
    | [] => some []
    | '\n' :: rest => some rest
    | '\r' :: '\n' :: rest => some rest
    | _ => none
  | _ => none

/-- A name in brackets, behind the opening ones. Settings have no tables within tables, so there is
one key. -/
def header? (closing : List Char) (cs : List Char) : Option (String × List Char) := do
  let (name, rest) ← key? (cs.dropWhile isBlank)
  let rest ← Text.after? closing (rest.dropWhile isBlank)
  return (name, rest)

/-- A field with its key, which may name a table in front. -/
def field? (cs : List Char) : Option (Statement × List Char) := do
  let (key, rest) ← key? cs
  match rest.dropWhile isBlank with
  | '=' :: rest =>
    let (value, rest) ← value? (rest.dropWhile isBlank)
    return (.field key value, rest)
  | '.' :: rest =>
    let (inner, rest) ← key? (rest.dropWhile isBlank)
    match rest.dropWhile isBlank with
    | '=' :: rest =>
      let (value, rest) ← value? (rest.dropWhile isBlank)
      return (.dotted key inner value, rest)
    | _ => none
  | _ => none

def statement? (cs : List Char) : Option (Statement × List Char) :=
  match cs with
  | '[' :: '[' :: rest => (header? [']', ']'] rest).map fun (name, rest) => (.element name, rest)
  | '[' :: rest => (header? [']'] rest).map fun (name, rest) => (.table name, rest)
  | _ => field? cs

/-- The statements of a text, one a line. -/
def statementsWithin : Nat → List Char → Option (List Statement)
  | 0, _ => none
  | n + 1, cs => do
    match ← dropFill false cs with
    | [] => return []
    | cs =>
      let (statement, rest) ← statement? cs
      let rest ← lineEnd? (rest.dropWhile isBlank)
      return statement :: (← statementsWithin n rest)

/-- The statements of a file. A byte order mark may stand in front. -/
def statements? (text : String) : Option (List Statement) :=
  let cs := text.toList
  let cs := if cs.head? = some '\uFEFF' then cs.drop 1 else cs
  statementsWithin (cs.length + 1) cs

end ModuleRig.Toml
