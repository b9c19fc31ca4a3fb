import ModuleRig.Text.Numeral

/-!
# JSON values

A JSON document as a tree. Numbers keep the difference between an integer and any other numeral,
since a field that asks for an integer takes no `1.0`. Objects keep their fields in order, repeats
included: what a repeat means is for the reader of the object to say.
-/

namespace ModuleRig

inductive Json.Number where
  /-- An optional minus sign and digits. -/
  | integer (negative : Bool) (magnitude : Nat)
  /-- A numeral with a fraction or an exponent, as it is spelled. -/
  | decimal (spelling : String)
deriving DecidableEq, Repr

/-- A JSON value. A string is none when its escapes name a surrogate without its partner: such a
string is well-formed but is not a text. -/
inductive Json where
  | null
  | bool (value : Bool)
  | number (value : Json.Number)
  | string (text : Option String)
  | array (items : List Json)
  | object (fields : List (Option String × Json))

namespace Json

def ofText (s : String) : Json := .string (some s)

def ofNat (n : Nat) : Json := .number (.integer false n)

def ofInt (i : Int) : Json := .number (.integer (decide (i < 0)) i.natAbs)

def ofOption {α : Type} (f : α → Json) : Option α → Json
  | none => .null
  | some a => f a

def ofFields (fields : List (String × Json)) : Json :=
  .object (fields.map fun (key, value) => (some key, value))

end Json

end ModuleRig
