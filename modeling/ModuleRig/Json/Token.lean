import ModuleRig.Json.Basic

/-!
# JSON tokens

`scan` cuts a text into tokens. It is one machine that takes the text a character at a time, so
every text has an answer and no character is read twice. The blanks between tokens are the four of
the JSON grammar, not those of Unicode.
-/

namespace ModuleRig.Json

/-- One unit of a string literal. -/
inductive StringUnit where
  | char (c : Char)
  /-- An escape by number, which may be half of a surrogate pair. -/
  | code (unit : Nat)
deriving DecidableEq, Repr

/-- The text of the units: an escaped pair of surrogates is one character, and a surrogate without
its partner spoils the whole. -/
def textOfUnits? : List StringUnit → Option (List Char)
  | [] => some []
  | .char c :: units => (textOfUnits? units).map (c :: ·)
  | .code high :: units =>
    if high < 0xD800 || 0xE000 ≤ high then
      (textOfUnits? units).map (Char.ofNat high :: ·)
    else if high < 0xDC00 then
      match units with
      | .code low :: rest =>
        if 0xDC00 ≤ low && low < 0xE000 then
          (textOfUnits? rest).map
            (Char.ofNat (0x10000 + (high - 0xD800) * 0x400 + (low - 0xDC00)) :: ·)
        else none
      | _ => none
    else none

inductive Token where
  | openArray
  | closeArray
  | openObject
  | closeObject
  | comma
  | colon
  | null
  | bool (value : Bool)
  | number (value : Number)
  | string (text : Option String)
deriving DecidableEq, Repr

def isSpace (c : Char) : Bool :=
  c == ' ' || c == '\n' || c == '\t' || c == '\r'

def mark? (c : Char) : Option Token :=
  match c with
  | '[' => some .openArray
  | ']' => some .closeArray
  | '{' => some .openObject
  | '}' => some .closeObject
  | ',' => some .comma
  | ':' => some .colon
  | _ => none

def isNumberChar (c : Char) : Bool :=
  c.isDigit || c == '-' || c == '+' || c == '.' || c == 'e' || c == 'E'

def word? (cs : List Char) : Option Token :=
  if cs = ['n', 'u', 'l', 'l'] then some .null
  else if cs = ['t', 'r', 'u', 'e'] then some (.bool true)
  else if cs = ['f', 'a', 'l', 's', 'e'] then some (.bool false)
  else none

/-- An exponent after its letter: an optional sign and one or more digits. -/
def isExponent (cs : List Char) : Bool :=
  match cs with
  | '+' :: digits | '-' :: digits => !digits.isEmpty && digits.all Char.isDigit
  | digits => !digits.isEmpty && digits.all Char.isDigit

/-- What may follow the whole part of a numeral: a fraction, an exponent, or both. -/
def isTail (cs : List Char) : Bool :=
  match cs with
  | '.' :: rest =>
    !(rest.takeWhile Char.isDigit).isEmpty &&
      (match rest.dropWhile Char.isDigit with
        | [] => true
        | c :: exponent => (c == 'e' || c == 'E') && isExponent exponent)
  | c :: exponent => (c == 'e' || c == 'E') && isExponent exponent
  | [] => true

/-- The numeral without its sign. The whole part has no leading zero. -/
def unsigned? (negative : Bool) (spelling cs : List Char) : Option Number :=
  let whole := cs.takeWhile Char.isDigit
  let tail := cs.dropWhile Char.isDigit
  if whole.isEmpty || (whole.head? == some '0' && whole.length != 1) then none
  else if tail.isEmpty then some (.integer negative (Text.digitsValue whole))
  else if isTail tail then some (.decimal (String.ofList spelling))
  else none

def number? (cs : List Char) : Option Number :=
  match cs with
  | '-' :: rest => unsigned? true cs rest
  | _ => unsigned? false cs cs

def hexValue? (c : Char) : Option Nat :=
  if c.isDigit then some (c.toNat - 48)
  else if 'a' ≤ c && c ≤ 'f' then some (c.toNat - 87)
  else if 'A' ≤ c && c ≤ 'F' then some (c.toNat - 55)
  else none

def escape? (c : Char) : Option Char :=
  match c with
  | '"' => some '"'
  | '\\' => some '\\'
  | '/' => some '/'
  | 'b' => some '\x08'
  | 'f' => some '\x0C'
  | 'n' => some '\n'
  | 'r' => some '\r'
  | 't' => some '\t'
  | _ => none

/-- Where the scanner stands. What has been read of a token is held newest first. -/
inductive ScanState where
  | between
  | word (held : List Char)
  | numeral (held : List Char)
  | literal (held : List StringUnit)
  | escaped (held : List StringUnit)
  /-- Inside an escape by number: the value so far and the digits still to come. -/
  | hex (held : List StringUnit) (value : Nat) (owed : Nat)
deriving DecidableEq, Repr

/-- One character between tokens: the token it completes, if any, and the next state. -/
def startToken (c : Char) : Option (List Token × ScanState) :=
  if isSpace c then some ([], .between)
  else if c = '"' then some ([], .literal [])
  else if isNumberChar c && c != 'e' && c != 'E' then some ([], .numeral [c])
  else if c.isLower then some ([], .word [c])
  else (mark? c).map fun token => ([token], .between)

/-- The token that the state has finished, when the character that follows is not part of it. -/
def finish? : ScanState → Option (List Token)
  | .between => some []
  | .word held => (word? held.reverse).map fun token => [token]
  | .numeral held => (number? held.reverse).map fun n => [.number n]
  | _ => none

def stringToken (held : List StringUnit) : Token :=
  .string ((textOfUnits? held.reverse).map String.ofList)

/-- One character: the tokens it completes and the next state, or none when no token can go on
with it. -/
def scanStep (state : ScanState) (c : Char) : Option (List Token × ScanState) :=
  match state with
  | .between => startToken c
  | .word held =>
    if c.isLower then some ([], .word (c :: held))
    else
      (finish? state).bind fun done =>
        (startToken c).map fun (more, next) => (done ++ more, next)
  | .numeral held =>
    if isNumberChar c then some ([], .numeral (c :: held))
    else
      (finish? state).bind fun done =>
        (startToken c).map fun (more, next) => (done ++ more, next)
  | .literal held =>
    if c = '"' then some ([stringToken held], .between)
    else if c = '\\' then some ([], .escaped held)
    else if c.toNat < 0x20 then none
    else some ([], .literal (.char c :: held))
  | .escaped held =>
    if c = 'u' then some ([], .hex held 0 4)
    else (escape? c).map fun e => ([], .literal (.char e :: held))
  | .hex held value owed =>
    (hexValue? c).map fun digit =>
      if owed ≤ 1 then ([], .literal (.code (value * 16 + digit) :: held))
      else ([], .hex held (value * 16 + digit) (owed - 1))

def scanFrom (state : ScanState) : List Char → Option (List Token)
  | [] => finish? state
  | c :: text =>
    (scanStep state c).bind fun (done, next) => (scanFrom next text).map (done ++ ·)

/-- The tokens of a text, or none when it has none. -/
def scan (text : List Char) : Option (List Token) :=
  scanFrom .between text

end ModuleRig.Json
