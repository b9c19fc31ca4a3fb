import ModuleRig.Json.Reader

/-!
# Taking typed values out of JSON

A record is read from an object or from an array. In an object the fields may stand in any order
and others among them are passed over, but a field that is asked for may not be repeated. An array
gives exactly the fields, in their order. A map is read from an object alone, and of a repeated key
the last value counts.
-/

namespace ModuleRig.Json

def text? : Json → Option String
  | .string text => text
  | _ => none

def bool? : Json → Option Bool
  | .bool b => some b
  | _ => none

/-- A number that fits into 64 bits without a sign. A minus sign is refused even before zero. -/
def word64? : Json → Option Nat
  | .number (.integer false n) => if n ≤ Text.maxWord64 then some n else none
  | _ => none

/-- Null, or what the reader takes. -/
def nullable? {α : Type} (read : Json → Option α) : Json → Option (Option α)
  | .null => some none
  | j => (read j).map some

/-- The values of a field among the fields of an object. -/
def fieldValues (name : String) (fields : List (Option String × Json)) : List Json :=
  fields.filterMap fun (key, value) => if key = some name then some value else none

/-- The value of a field, none when it is missing. A repeated field is refused. -/
def field? (fields : List (Option String × Json)) (name : String) : Option (Option Json) :=
  match fieldValues name fields with
  | [] => some none
  | [value] => some (some value)
  | _ => none

/-- The values of the named fields. -/
def record? (names : List String) : Json → Option (List (Option Json))
  | .object fields =>
    if fields.all fun (key, _) => key.isSome then names.mapM (field? fields) else none
  | .array items => if items.length = names.length then some (items.map some) else none
  | _ => none

def required? {α : Type} (read : Json → Option α) (value : Option Json) : Option α :=
  value.bind read

def optional? {α : Type} (read : Json → Option α) : Option Json → Option (Option α)
  | none => some none
  | some value => nullable? read value

/-- The keys and values of an object, in order and with repeats. -/
def entries? {α : Type} (read : Json → Option α) : Json → Option (List (String × α))
  | .object fields => fields.mapM fun (key, value) => do return (← key, ← read value)
  | _ => none

end ModuleRig.Json
