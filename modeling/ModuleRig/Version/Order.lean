import ModuleRig.Text.Numeral

/-!
# The order of versions

A version text is read as a list of tokens: numbers and qualifier words. Separators only part
tokens, and so does every place where digits and letters meet. `normal` brings a list into the form
in which equal versions have equal lists: what adds nothing to a version is left out of it.

Versions are compared token by token, and the shorter one as if it went on with release markers.
So a pre-release comes before its release and a service pack after it. `newest?` picks the greatest
of a list.
-/

namespace ModuleRig.Version

/-! ## Tokens -/

/-- What a character is to a version text. -/
inductive CharKind where
  | separator
  | digit
  | letter
deriving DecidableEq, Repr

def charKind (c : Char) : CharKind :=
  if c = '.' ∨ c = '-' ∨ c = '_' then .separator
  else if c.isDigit then .digit
  else .letter

/-- A longest stretch of characters of one kind. -/
structure Run where
  kind : CharKind
  text : List Char
deriving DecidableEq, Repr

/-- Puts a character in front of the runs that follow it. -/
def addChar (c : Char) : List Run → List Run
  | [] => [⟨charKind c, [c]⟩]
  | run :: rest =>
    if run.kind = charKind c then ⟨run.kind, c :: run.text⟩ :: rest
    else ⟨charKind c, [c]⟩ :: run :: rest

def runs (cs : List Char) : List Run :=
  cs.foldr addChar []

/-- The release stages that qualifier words stand for, earliest first. -/
inductive Stage where
  | alpha
  | beta
  | milestone
  | candidate
  | snapshot
  | release
  | servicePack
  /-- Any other word: later than the release it qualifies. -/
  | other
deriving DecidableEq, Repr

def Stage.rank : Stage → Nat
  | .alpha => 0
  | .beta => 1
  | .milestone => 2
  | .candidate => 3
  | .snapshot => 4
  | .release => 5
  | .servicePack => 6
  | .other => 7

def Stage.ofWord (word : List Char) : Stage :=
  if word = ['a', 'l', 'p', 'h', 'a'] ∨ word = ['a'] then .alpha
  else if word = ['b', 'e', 't', 'a'] ∨ word = ['b'] then .beta
  else if word = ['m', 'i', 'l', 'e', 's', 't', 'o', 'n', 'e'] ∨ word = ['m'] then .milestone
  else if word = ['r', 'c'] ∨ word = ['c', 'r'] then .candidate
  else if word = ['s', 'n', 'a', 'p', 's', 'h', 'o', 't'] then .snapshot
  else if word = [] ∨ word = ['g', 'a'] ∨ word = ['f', 'i', 'n', 'a', 'l'] ∨
      word = ['r', 'e', 'l', 'e', 'a', 's', 'e'] then .release
  else if word = ['s', 'p'] then .servicePack
  else .other

inductive Token where
  | qualifier (stage : Stage) (text : List Char)
  | number (value : Nat)
deriving DecidableEq, Repr

/-- The release itself. It stands for every release marker, and for a version that ends. -/
def Token.release : Token := .qualifier .release []

def Token.isQualifier : Token → Bool
  | .qualifier _ _ => true
  | .number _ => false

/-- The token of a qualifier word. Only the ASCII letters have two cases here, and the spelling of
a release marker is forgotten. -/
def Token.ofWord (word : List Char) : Token :=
  let lower := word.map Char.toLower
  match Stage.ofWord lower with
  | .release => .release
  | stage => .qualifier stage lower

/-- The token of a number. Numbers beyond 64 bits are all the greatest one. -/
def Token.ofDigits (digits : List Char) : Token :=
  .number (min (Text.digitsValue digits) Text.maxWord64)

/-- A separator run has no token. -/
def Token.ofRun? (run : Run) : Option Token :=
  match run.kind with
  | .separator => none
  | .digit => some (.ofDigits run.text)
  | .letter => some (.ofWord run.text)

def tokens (version : List Char) : List Token :=
  (runs version).filterMap Token.ofRun?

def startsQualified (ts : List Token) : Bool :=
  match ts with
  | [] => false
  | t :: _ => t.isQualifier

/-- Leaves out the zeros that stand directly before a qualifier. -/
def dropInnerZeros : List Token → List Token
  | [] => []
  | t :: ts =>
    let rest := dropInnerZeros ts
    if t = .number 0 ∧ startsQualified rest then rest else t :: rest

/-- Zeros and release markers add nothing at the end of a version. -/
def Token.isFiller (t : Token) : Bool :=
  t = .number 0 || t = .release

def dropFillers : List Token → List Token
  | [] => []
  | t :: ts =>
    match dropFillers ts with
    | [] => if t.isFiller then [] else [t]
    | u :: us => t :: u :: us

/-- The form in which versions are compared. -/
def normal (ts : List Token) : List Token :=
  dropFillers (dropInnerZeros ts)

def key (version : String) : List Token :=
  normal (tokens version.toList)

/-! ## Comparison -/

/-- Qualifiers come before numbers. Between two qualifiers the stage decides, then the word. -/
def Token.compare : Token → Token → Ordering
  | .qualifier s t, .qualifier s' t' => (Ord.compare s.rank s'.rank).then (Ord.compare t t')
  | .qualifier _ _, .number _ => .lt
  | .number _, .qualifier _ _ => .gt
  | .number n, .number n' => Ord.compare n n'

/-- Compares token by token. A list that has ended goes on with the release. -/
def compareTokens : List Token → List Token → Ordering
  | [], [] => .eq
  | [], u :: us => (Token.release.compare u).then (compareTokens [] us)
  | t :: ts, [] => (t.compare .release).then (compareTokens ts [])
  | t :: ts, u :: us => (t.compare u).then (compareTokens ts us)

/-- The order of two version texts. Different spellings of one version are equal in it. -/
def compare (a b : String) : Ordering :=
  compareTokens (key a) (key b)

/-- The greatest version of a list. Of equal ones the last is taken. -/
def newest? : List String → Option String
  | [] => none
  | v :: vs =>
    match newest? vs with
    | none => some v
    | some w => if compare v w = .gt then some v else some w

/-- The text that marks a version whose content may still change. -/
def snapshotEnding : List Char := ['-', 'S', 'N', 'A', 'P', 'S', 'H', 'O', 'T']

/-- The version names a snapshot. Case matters here. -/
def isSnapshot (version : String) : Bool :=
  snapshotEnding.reverse.isPrefixOf version.toList.reverse

end ModuleRig.Version
