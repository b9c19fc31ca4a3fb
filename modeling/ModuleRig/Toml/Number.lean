import ModuleRig.Text.Numeral

/-!
# Numbers

The digits of a number may be set apart in groups by underscores. Numbers with a point or an
exponent, infinity and the values that are no number are checked and not kept. One that is too great
for 64 bits is refused, but only above zero.
-/

namespace ModuleRig.Toml

/-- The digits without the underscores. An underscore stands between two digits. -/
def ungroup? (isDigit : Char → Bool) : List Char → Option (List Char)
  | [] => none
  | [c] => if isDigit c then some [c] else none
  | c :: '_' :: cs => if isDigit c then (ungroup? isDigit cs).map (c :: ·) else none
  | c :: cs => if isDigit c then (ungroup? isDigit cs).map (c :: ·) else none

/-- The digits of a decimal number behind its sign. It has no leading zeros. -/
def wholeDigits? (cs : List Char) : Option (List Char) := do
  let digits ← ungroup? Char.isDigit cs
  if digits.head? = some '0' ∧ cs ≠ ['0'] then none else some digits

namespace Fraction

/-- The least number above zero that is rounded to infinity. It has 309 digits. -/
def overflow : Nat := (1 <<< 1024) - (1 <<< 970)

def overflowDigits : Nat := 309

/-- The digits, taken as a whole number times a power of ten, are rounded to infinity. -/
def isInfinite (digits : List Char) (exponent : Int) : Bool :=
  let digits := digits.dropWhile (· == '0')
  let places := digits.length + exponent
  let front := (digits ++ List.replicate overflowDigits '0').take overflowDigits
  !digits.isEmpty &&
    (overflowDigits < places || places == overflowDigits && overflow ≤ Text.digitsValue front)

/-- The exponent that a number ends with. Without one it is zero. -/
def exponent? (cs : List Char) : Option Int :=
  match cs with
  | [] => some 0
  | c :: rest =>
    if c = 'e' ∨ c = 'E' then
      match rest with
      | '-' :: digits => (ungroup? Char.isDigit digits).map fun d => -(Text.digitsValue d : Int)
      | '+' :: digits => (ungroup? Char.isDigit digits).map fun d => (Text.digitsValue d : Int)
      | digits => (ungroup? Char.isDigit digits).map fun d => (Text.digitsValue d : Int)
    else none

def isDigitOrGroup (c : Char) : Bool :=
  c.isDigit || c == '_'

/-- The digits of a number without a sign, and the power of ten that they are taken times. -/
def parts? (cs : List Char) : Option (List Char × Int) := do
  let whole ← wholeDigits? (cs.takeWhile isDigitOrGroup)
  match cs.dropWhile isDigitOrGroup with
  | [] => none
  | '.' :: rest =>
    let digits ← ungroup? Char.isDigit (rest.takeWhile isDigitOrGroup)
    let exponent ← exponent? (rest.dropWhile isDigitOrGroup)
    return (whole ++ digits, exponent - digits.length)
  | rest => return (whole, ← exponent? rest)

/-- The word is infinity, or no number. -/
def isSpecial (cs : List Char) : Bool :=
  cs == ['i', 'n', 'f'] || cs == ['n', 'a', 'n']

def isFinite (cs : List Char) : Bool :=
  match parts? cs with
  | none => false
  | some (digits, exponent) => !isInfinite digits exponent

/-- The word is a fraction. -/
def accepts (cs : List Char) : Bool :=
  match cs with
  | '-' :: rest => isSpecial rest || (parts? rest).isSome
  | '+' :: rest => isSpecial rest || isFinite rest
  | cs => isSpecial cs || isFinite cs

end Fraction

end ModuleRig.Toml
