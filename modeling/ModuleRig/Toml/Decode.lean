import ModuleRig.Path
import ModuleRig.Toml.Document

/-!
# Taking typed values out of TOML

A section is a table, or a list that gives its fields in their order. A table with a field that is
not asked for is refused. A list may be too short, or too long.
-/

namespace ModuleRig.Toml

def Value.text? : Value → Option String
  | .text s => some s
  | _ => none

def Value.path? (v : Value) : Option Path :=
  v.text?.map Path.mk

def Value.boolean? : Value → Option Bool
  | .boolean b => some b
  | _ => none

/-- A whole number that is not negative and within the bound. -/
def Value.natural? (bound : Nat) : Value → Option Nat
  | .integer n => if 0 ≤ n ∧ n ≤ bound then some n.toNat else none
  | _ => none

/-- A list of values that the reader takes, each of them. -/
def Value.list? {α : Type} (read : Value → Option α) : Value → Option (List α)
  | .list items => items.mapM read
  | _ => none

def knownFields? (names : List String) (fields : Fields) : Option Fields :=
  if fields.all fun (key, _) => names.contains key then some fields else none

def Value.section? (names : List String) : Value → Option Fields
  | .table fields => knownFields? names fields
  | .list items => some (names.zip items)
  | _ => none

def fieldOr? {α : Type} (fields : Fields) (name : String) (read : Value → Option α) (default : α) :
    Option α :=
  match fields.lookup name with
  | none => some default
  | some v => read v

def requiredField? {α : Type} (fields : Fields) (name : String) (read : Value → Option α) :
    Option α :=
  (fields.lookup name).bind read

end ModuleRig.Toml
