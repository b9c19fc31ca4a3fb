import ModuleRig.Web.Address
import ModuleRig.Web.Folding
import ModuleRig.Web.Punycode

/-!
# Host names

The host of a URL is a name or an address. A name is written in ASCII: a label with other characters
becomes its Punycode behind a mark. `HostName.parse?` refuses what is no host.
-/

namespace ModuleRig.Web

inductive HostName where
  | name (labels : List (List Char))
  | ipv4 (address : Nat)
  | ipv6 (groups : List Nat)
deriving DecidableEq, Repr

namespace HostName

def codedMark : List Char := ['x', 'n', '-', '-']

def forbiddenMarks : List Char :=
  ['%', '#', '/', ':', '<', '>', '?', '@', '[', '\\', ']', '^', '|']

def isForbidden (c : Char) : Bool :=
  c.toNat ≤ 0x20 || c.toNat == 0x7F || forbiddenMarks.contains c

/-- A label that is in Punycode already. It has to stand for one that needs it. -/
def isCodedWell (code : List Char) : Bool :=
  match Punycode.decode? code with
  | none => false
  | some label =>
    !label.all Punycode.isAscii && Folding.folded? label == some label &&
      Punycode.encode label == code

def asciiLabel? (label : List Char) : Option (List Char) :=
  match Text.after? codedMark label with
  | some code => if isCodedWell code then some label else none
  | none =>
    if label.all Punycode.isAscii then some label
    else some (codedMark ++ Punycode.encode label)

/-- The host of a name whose labels are in ASCII. One that ends in a number is an address. -/
def ofLabels? (labels : List (List Char)) : Option HostName :=
  if endsInNumber labels then (ipv4? labels).map .ipv4
  else if labels = [[]] then none
  else some (.name labels)

/-- The host that is written in a URL, where it may be percent-encoded. -/
def parse? (cs : List Char) : Option HostName :=
  match cs with
  | '[' :: rest =>
    if rest.getLast? = some ']' then (ipv6? rest.dropLast).map .ipv6 else none
  | _ => do
    let decoded ← Text.Utf8.decode? (Percent.decode cs)
    let folded ← Folding.folded? decoded
    if folded.any isForbidden then none
    else ofLabels? (← (Text.splitOn '.' folded).mapM asciiLabel?)

def text : HostName → List Char
  | .name labels => Text.joinWith '.' labels
  | .ipv4 address => ipv4Text address
  | .ipv6 groups => '[' :: ipv6Text groups ++ [']']

end HostName

end ModuleRig.Web
