import ModuleRig.Json.Reader

/-!
# Writing JSON

`compact` writes the tokens of a value one after the other. `pretty` puts every member of an array
or object on a line of its own, indented by two blanks a level. Both spell tokens alike: in a
string only the quote, the backslash and the control characters are escaped.
-/

namespace ModuleRig.Json

def hexDigit (n : Nat) : Char :=
  if n < 10 then Char.ofNat (48 + n) else Char.ofNat (87 + n)

def spellChar (c : Char) : List Char :=
  if c = '"' then ['\\', '"']
  else if c = '\\' then ['\\', '\\']
  else if c = '\x08' then ['\\', 'b']
  else if c = '\t' then ['\\', 't']
  else if c = '\n' then ['\\', 'n']
  else if c = '\x0C' then ['\\', 'f']
  else if c = '\r' then ['\\', 'r']
  else if c.toNat < 0x20 then
    ['\\', 'u', '0', '0', hexDigit (c.toNat / 16), hexDigit (c.toNat % 16)]
  else [c]

/-- A string literal. A string that is no text is spelled with half of a surrogate pair. -/
def spellString : Option String → List Char
  | some text => '"' :: text.toList.flatMap spellChar ++ ['"']
  | none => ['"', '\\', 'u', 'd', '8', '0', '0', '"']

def spellNumber : Number → List Char
  | .integer negative magnitude => (if negative then ['-'] else []) ++ Text.digits magnitude
  | .decimal spelling => spelling.toList

def spell : Token → List Char
  | .openArray => ['[']
  | .closeArray => [']']
  | .openObject => ['{']
  | .closeObject => ['}']
  | .comma => [',']
  | .colon => [':']
  | .null => ['n', 'u', 'l', 'l']
  | .bool true => ['t', 'r', 'u', 'e']
  | .bool false => ['f', 'a', 'l', 's', 'e']
  | .number n => spellNumber n
  | .string text => spellString text

/-- The value without any blanks. -/
def compact (j : Json) : String :=
  String.ofList ((tokens j).flatMap spell)

/-- A token or the blanks between tokens. -/
inductive Piece where
  | token (t : Token)
  | blank
  /-- A new line, indented by so many levels. -/
  | line (depth : Nat)
deriving DecidableEq, Repr

def Piece.chars : Piece → List Char
  | .token t => spell t
  | .blank => [' ']
  | .line depth => '\n' :: List.replicate (2 * depth) ' '

mutual

/-- The pieces of a value whose own members stand one level deeper than the depth. -/
def pieces (depth : Nat) : Json → List Piece
  | .null => [.token .null]
  | .bool b => [.token (.bool b)]
  | .number n => [.token (.number n)]
  | .string t => [.token (.string t)]
  | .array [] => [.token .openArray, .token .closeArray]
  | .array (item :: items) =>
    .token .openArray :: .line (depth + 1) ::
      (pieces (depth + 1) item ++ piecesOfItems depth items)
  | .object [] => [.token .openObject, .token .closeObject]
  | .object ((key, value) :: fields) =>
    .token .openObject :: .line (depth + 1) :: .token (.string key) :: .token .colon :: .blank ::
      (pieces (depth + 1) value ++ piecesOfFields depth fields)

/-- The pieces of the items after the first, and of the end of the array. -/
def piecesOfItems (depth : Nat) : List Json → List Piece
  | [] => [.line depth, .token .closeArray]
  | item :: items =>
    .token .comma :: .line (depth + 1) ::
      (pieces (depth + 1) item ++ piecesOfItems depth items)

/-- The pieces of the fields after the first, and of the end of the object. -/
def piecesOfFields (depth : Nat) : List (Option String × Json) → List Piece
  | [] => [.line depth, .token .closeObject]
  | (key, value) :: fields =>
    .token .comma :: .line (depth + 1) :: .token (.string key) :: .token .colon :: .blank ::
      (pieces (depth + 1) value ++ piecesOfFields depth fields)

end

/-- The value with one member a line. -/
def pretty (j : Json) : String :=
  String.ofList ((pieces 0 j).flatMap Piece.chars)

end ModuleRig.Json
