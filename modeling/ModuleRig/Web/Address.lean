import ModuleRig.Text.Cut
import ModuleRig.Text.Numeral
import ModuleRig.Web.Percent

/-!
# Internet addresses in host names

An address of 32 bits is one to four numbers between dots, of which the last fills up all bytes that
the others leave. An address of 128 bits is eight groups of 16 bits between colons; two colons stand
for groups of zeros, and the last two groups may be written as four decimal bytes. Both have one
written form in the end.
-/

namespace ModuleRig.Web

/-! ## 32 bits -/

/-- The value of digits in a base, if all are digits of it. -/
def numberIn? (base : Nat) (cs : List Char) : Option Nat :=
  cs.foldlM (fun n c => do
    let d ← Percent.hexDigit? c
    if d < base then some (n * base + d) else none) 0

/-- A number in front of which `0x` or `0` may tell the base. -/
def addressNumber? (cs : List Char) : Option Nat :=
  match cs with
  | [] => none
  | '0' :: 'x' :: rest => numberIn? 16 rest
  | '0' :: 'X' :: rest => numberIn? 16 rest
  | '0' :: c :: rest => numberIn? 8 (c :: rest)
  | _ => numberIn? 10 cs

/-- The labels of a name without the empty one behind a dot at its end. -/
def dropRootLabel (labels : List (List Char)) : List (List Char) :=
  if labels.getLast? = some [] then labels.dropLast else labels

/-- A name that ends in a number is an address, or nothing at all. -/
def endsInNumber (labels : List (List Char)) : Bool :=
  match (dropRootLabel labels).getLast? with
  | none => false
  | some last => (!last.isEmpty && last.all Char.isDigit) || (addressNumber? last).isSome

/-- The greatest last number behind none to three others. -/
def lastLimits : List Nat := [0xFFFFFFFF, 0xFFFFFF, 0xFFFF, 0xFF]

/-- The weights of the numbers that are not the last. -/
def byteWeights : List Nat := [0x1000000, 0x10000, 0x100]

/-- The address of the numbers between dots. -/
def ipv4? (labels : List (List Char)) : Option Nat := do
  let numbers ← (dropRootLabel labels).mapM addressNumber?
  let last ← numbers.getLast?
  let bytes := numbers.dropLast
  let limit ← lastLimits[bytes.length]?
  if last ≤ limit && bytes.all (· ≤ 255) then
    some ((List.zipWith (· * ·) byteWeights bytes).foldl (· + ·) last)
  else none

def ipv4Text (address : Nat) : List Char :=
  Text.joinWith '.' ([0x1000000, 0x10000, 0x100, 1].map fun w => Text.digits (address / w % 256))

/-! ## 128 bits -/

/-- A group of one to four hexadecimal digits. -/
def group? (cs : List Char) : Option Nat :=
  if cs.isEmpty || 4 < cs.length then none else numberIn? 16 cs

def byte? (cs : List Char) : Option Nat :=
  if cs.head? = some '0' ∧ cs ≠ ['0'] then none else Text.boundedNumeral? 255 cs

/-- The two groups of four decimal bytes. -/
def byteGroups? (cs : List Char) : Option (List Nat) :=
  match (Text.splitOn '.' cs).mapM byte? with
  | some [a, b, c, d] => some [a * 256 + b, c * 256 + d]
  | _ => none

/-- The groups between colons, of which the last may be four decimal bytes. -/
def groups? : List (List Char) → Option (List Nat)
  | [] => some []
  | [last] => if last.contains '.' then byteGroups? last else (group? last).map ([·])
  | piece :: pieces => do return (← group? piece) :: (← groups? pieces)

/-- The groups behind two colons. There may be none. -/
def groupsBehind? (cs : List Char) : Option (List Nat) :=
  if cs.isEmpty then some [] else groups? (Text.splitOn ':' cs)

/-- The groups in front of two colons. There may be none. -/
def groupsBefore? (cs : List Char) : Option (List Nat) :=
  if cs.isEmpty then some [] else (Text.splitOn ':' cs).mapM group?

def ipv6? (cs : List Char) : Option (List Nat) :=
  match Text.cutAt? [':', ':'] cs with
  | none => (groups? (Text.splitOn ':' cs)).filter (·.length = 8)
  | some (before, behind) => do
    let before ← groupsBefore? before
    let behind ← groupsBehind? behind
    if before.length + behind.length ≤ 7 then
      some (before ++ List.replicate (8 - before.length - behind.length) 0 ++ behind)
    else none

/-- The hexadecimal digits of a group, in lower case and without leading zeros. -/
def groupText (group : Nat) : List Char :=
  let digits := [group / 4096 % 16, group / 256 % 16, group / 16 % 16]
  (digits.dropWhile (· = 0) ++ [group % 16]).map fun d => (Percent.hexDigit d).toLower

/-- How many zeros stand at the front. -/
def zeros (groups : List Nat) : Nat :=
  (groups.takeWhile (· = 0)).length

/-- Where the longest run of zeros starts, the first of them, and its length. -/
def longestZeros : List Nat → Nat × Nat
  | [] => (0, 0)
  | group :: groups =>
    let (start, length) := longestZeros groups
    if length ≤ zeros (group :: groups) then (0, zeros (group :: groups)) else (start + 1, length)

def joinGroups (groups : List Nat) : List Char :=
  Text.joinWith ':' (groups.map groupText)

/-- The address with its longest run of at least two zeros written as two colons. -/
def ipv6Text (groups : List Nat) : List Char :=
  let (start, length) := longestZeros groups
  if length < 2 then joinGroups groups
  else joinGroups (groups.take start) ++ ':' :: ':' :: joinGroups (groups.drop (start + length))

end ModuleRig.Web
