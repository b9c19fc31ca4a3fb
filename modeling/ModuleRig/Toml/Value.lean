import ModuleRig.Text.Cut
import ModuleRig.Toml.Moment
import ModuleRig.Toml.Number

/-!
# TOML values without structure

The values that a settings file can use: texts, whole numbers and truth values, and lists and tables
of them. The reader of a value gives it together with what follows it. No setting is a fraction, a
date or a time, so all of those are one value.
-/

namespace ModuleRig.Toml

inductive Value where
  | text (s : String)
  | integer (n : Int)
  | boolean (b : Bool)
  /-- A fraction, a date or a time. -/
  | other
  | list (items : List Value)
  | table (fields : List (String × Value))

def isBlank (c : Char) : Bool :=
  c == ' ' || c == '\t'

/-- A character that may stand in a comment or a literal string: no control character but the
tab. -/
def isPlain (c : Char) : Bool :=
  c == '\t' || (0x20 ≤ c.toNat && c.toNat != 0x7F)

/-! ## Whole numbers and truth values -/

/-- The greatest whole number. The least is one further below zero. -/
def maxInteger : Nat := 9223372036854775807

/-- A character of a word, a number, a date or a time. -/
def isWordChar (c : Char) : Bool :=
  c.isAlphanum || c == '+' || c == '-' || c == '_' || c == '.' || c == ':'

def hexValue (c : Char) : Nat :=
  if c.isDigit then c.toNat - 48
  else if 'a' ≤ c && c ≤ 'f' then c.toNat - 87
  else c.toNat - 55

def isHexDigit (c : Char) : Bool :=
  c.isDigit || ('a' ≤ c && c ≤ 'f') || ('A' ≤ c && c ≤ 'F')

def valueIn (base : Nat) (digits : List Char) : Nat :=
  digits.foldl (fun n c => n * base + hexValue c) 0

/-- A whole number without a sign in a base other than ten. -/
def based? (base : Nat) (isDigit : Char → Bool) (cs : List Char) : Option Int := do
  let n := valueIn base (← ungroup? isDigit cs)
  if n ≤ maxInteger then some n else none

def decimal? (limit : Nat) (cs : List Char) : Option Nat :=
  ((wholeDigits? cs).map Text.digitsValue).filter (· ≤ limit)

def integer? (cs : List Char) : Option Int :=
  match cs with
  | '0' :: 'x' :: rest => based? 16 isHexDigit rest
  | '0' :: 'o' :: rest => based? 8 (fun c => '0' ≤ c && c ≤ '7') rest
  | '0' :: 'b' :: rest => based? 2 (fun c => c == '0' || c == '1') rest
  | '+' :: rest => (decimal? maxInteger rest).map Int.ofNat
  | '-' :: rest => (decimal? (maxInteger + 1) rest).map fun n => -(n : Int)
  | _ => (decimal? maxInteger cs).map Int.ofNat

def word? (cs : List Char) : Option Value :=
  if cs = ['t', 'r', 'u', 'e'] then some (.boolean true)
  else if cs = ['f', 'a', 'l', 's', 'e'] then some (.boolean false)
  else
    match integer? cs with
    | some n => some (.integer n)
    | none => if Fraction.accepts cs || Moment.accepts cs then some .other else none

/-- A value without quotes or brackets. A time may stand behind a date and a blank. -/
def bareValue? (cs : List Char) : Option (Value × List Char) :=
  let word := cs.takeWhile isWordChar
  match cs.dropWhile isWordChar with
  | ' ' :: rest =>
    if Moment.isDate word && Moment.isTimeOfDate (rest.takeWhile isWordChar) then
      some (.other, rest.dropWhile isWordChar)
    else (word? word).map (·, ' ' :: rest)
  | rest => (word? word).map (·, rest)

/-! ## Strings -/

/-- The character of an escape by number. Halves of surrogate pairs are no characters. -/
def escaped? (hex : List Char) : Option Char :=
  let n := valueIn 16 hex
  if hex.all isHexDigit && (n < 0xD800 || (0xE000 ≤ n && n < 0x110000)) then some (Char.ofNat n)
  else none

def escape? (c : Char) : Option Char :=
  match c with
  | 'b' => some '\x08'
  | 't' => some '\t'
  | 'n' => some '\n'
  | 'f' => some '\x0C'
  | 'r' => some '\r'
  | '"' => some '"'
  | '\\' => some '\\'
  | _ => none

/-- Puts a character in front of what a reader has read. -/
def addChar (c : Char) (reading : Option (List Char × List Char)) :
    Option (List Char × List Char) :=
  reading.map fun (cs, rest) => (c :: cs, rest)

def basicBody : List Char → Option (List Char × List Char)
  | '"' :: rest => some ([], rest)
  | '\\' :: 'u' :: a :: b :: c :: d :: rest =>
    (escaped? [a, b, c, d]).bind fun e => addChar e (basicBody rest)
  | '\\' :: 'U' :: a :: b :: c :: d :: e :: f :: g :: h :: rest =>
    (escaped? [a, b, c, d, e, f, g, h]).bind fun e => addChar e (basicBody rest)
  | '\\' :: c :: rest => (escape? c).bind fun e => addChar e (basicBody rest)
  | c :: rest => if isPlain c then addChar c (basicBody rest) else none
  | [] => none

def literalBody : List Char → Option (List Char × List Char)
  | '\'' :: rest => some ([], rest)
  | c :: rest => if isPlain c then addChar c (literalBody rest) else none
  | [] => none

/-- Where a string over several lines stands with respect to a backslash at the end of a line. -/
inductive LineState where
  | inside
  /-- After the backslash: only blanks may come before the end of the line. -/
  | ending
  /-- After the end of that line: blanks and line ends are passed over. -/
  | joining
deriving DecidableEq

/-- The rest of a basic string over several lines. Up to two quotes may stand before the three that
end it. -/
def longBasicBody : LineState → List Char → Option (List Char × List Char)
  | .ending, '\n' :: rest => longBasicBody .joining rest
  | .ending, '\r' :: '\n' :: rest => longBasicBody .joining rest
  | .ending, c :: rest => if isBlank c then longBasicBody .ending rest else none
  | .joining, '\n' :: rest => longBasicBody .joining rest
  | .joining, '\r' :: '\n' :: rest => longBasicBody .joining rest
  | .joining, ' ' :: rest => longBasicBody .joining rest
  | .joining, '\t' :: rest => longBasicBody .joining rest
  | _, '"' :: '"' :: '"' :: '"' :: '"' :: rest => some (['"', '"'], rest)
  | _, '"' :: '"' :: '"' :: '"' :: rest => some (['"'], rest)
  | _, '"' :: '"' :: '"' :: rest => some ([], rest)
  | _, '\\' :: 'u' :: a :: b :: c :: d :: rest =>
    (escaped? [a, b, c, d]).bind fun e => addChar e (longBasicBody .inside rest)
  | _, '\\' :: 'U' :: a :: b :: c :: d :: e :: f :: g :: h :: rest =>
    (escaped? [a, b, c, d, e, f, g, h]).bind fun e => addChar e (longBasicBody .inside rest)
  | _, '\\' :: c :: rest =>
    match escape? c with
    | some e => addChar e (longBasicBody .inside rest)
    | none =>
      if isBlank c then longBasicBody .ending rest
      else if c = '\n' then longBasicBody .joining rest
      else if c = '\r' then
        match rest with
        | '\n' :: rest => longBasicBody .joining rest
        | _ => none
      else none
  | _, '\r' :: '\n' :: rest => addChar '\n' (longBasicBody .inside rest)
  | _, c :: rest =>
    if isPlain c || c == '\n' then addChar c (longBasicBody .inside rest) else none
  | _, [] => none

def longLiteralBody : List Char → Option (List Char × List Char)
  | '\'' :: '\'' :: '\'' :: '\'' :: '\'' :: rest => some (['\'', '\''], rest)
  | '\'' :: '\'' :: '\'' :: '\'' :: rest => some (['\''], rest)
  | '\'' :: '\'' :: '\'' :: rest => some ([], rest)
  | '\r' :: '\n' :: rest => addChar '\n' (longLiteralBody rest)
  | c :: rest => if isPlain c || c == '\n' then addChar c (longLiteralBody rest) else none
  | [] => none

/-- A line end right behind the opening quotes does not count. -/
def dropFirstLineEnd : List Char → List Char
  | '\n' :: rest => rest
  | '\r' :: '\n' :: rest => rest
  | cs => cs

def shortString? : List Char → Option (List Char × List Char)
  | '"' :: rest => basicBody rest
  | '\'' :: rest => literalBody rest
  | _ => none

def string? : List Char → Option (List Char × List Char)
  | '"' :: '"' :: '"' :: rest => longBasicBody .inside (dropFirstLineEnd rest)
  | '\'' :: '\'' :: '\'' :: rest => longLiteralBody (dropFirstLineEnd rest)
  | cs => shortString? cs

/-! ## Keys -/

def isKeyChar (c : Char) : Bool :=
  c.isAlphanum || c == '_' || c == '-'

/-- A key, which is a bare word or a string on one line. -/
def key? (cs : List Char) : Option (String × List Char) :=
  match cs with
  | '"' :: _ => (shortString? cs).map fun (key, rest) => (String.ofList key, rest)
  | '\'' :: _ => (shortString? cs).map fun (key, rest) => (String.ofList key, rest)
  | _ =>
    let key := cs.takeWhile isKeyChar
    if key.isEmpty then none else some (String.ofList key, cs.dropWhile isKeyChar)

/-- The greatest number of keys in a path, and of brackets around a value, is one less. -/
def levelLimit : Nat := 80

/-- Keys with dots between them, each of which may stand among blanks. -/
def keysWithin : Nat → List Char → Option (List String × List Char)
  | 0, _ => none
  | n + 1, cs => do
    let (key, rest) ← key? (cs.dropWhile isBlank)
    match rest.dropWhile isBlank with
    | '.' :: rest =>
      let (keys, rest) ← keysWithin n rest
      return (key :: keys, rest)
    | rest => return ([key], rest)

def keyPath? (cs : List Char) : Option (List String × List Char) :=
  keysWithin (levelLimit - 1) cs

end ModuleRig.Toml
