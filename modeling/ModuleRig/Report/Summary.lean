import ModuleRig.Text.Cut
import ModuleRig.Text.Escape
import ModuleRig.Text.Letter
import ModuleRig.Text.Numeral

/-!
# Test summaries

The console launcher closes its output with a block of counts. A line of the block says how many
tests or containers had one outcome, and another line tells the duration. Each line is recognised on
its own, so the block may stand anywhere and its lines in any order. Of several lines about the same
thing the last counts.
-/

namespace ModuleRig

structure Summary where
  testsFound : Nat
  testsStarted : Nat
  testsSuccessful : Nat
  testsFailed : Nat
  testsSkipped : Nat
  testsAborted : Nat
  containersFound : Nat
  containersFailed : Nat
  /-- Milliseconds. -/
  duration : Option Nat
deriving DecidableEq, Repr

namespace Summary

def empty : Summary := ⟨0, 0, 0, 0, 0, 0, 0, 0, none⟩

/-- No test failed and no container did. -/
def isClean (s : Summary) : Bool :=
  s.testsFailed == 0 && s.containersFailed == 0

inductive Subject where
  | tests
  | containers
deriving DecidableEq, Repr

inductive Outcome where
  | found
  | skipped
  | started
  | aborted
  | successful
  | failed
deriving DecidableEq, Repr

def Subject.all : List Subject := [.tests, .containers]

def Outcome.all : List Outcome := [.found, .skipped, .started, .aborted, .successful, .failed]

def Subject.word : Subject → List Char
  | .tests => ['t', 'e', 's', 't', 's']
  | .containers => ['c', 'o', 'n', 't', 'a', 'i', 'n', 'e', 'r', 's']

def Outcome.word : Outcome → List Char
  | .found => ['f', 'o', 'u', 'n', 'd']
  | .skipped => ['s', 'k', 'i', 'p', 'p', 'e', 'd']
  | .started => ['s', 't', 'a', 'r', 't', 'e', 'd']
  | .aborted => ['a', 'b', 'o', 'r', 't', 'e', 'd']
  | .successful => ['s', 'u', 'c', 'c', 'e', 's', 's', 'f', 'u', 'l']
  | .failed => ['f', 'a', 'i', 'l', 'e', 'd']

/-- What a line of output says about the run. -/
inductive Line where
  | count (subject : Subject) (outcome : Outcome) (count : Nat)
  /-- The duration, none if it is beyond 64 bits. -/
  | duration (milliseconds : Option Nat)
  | other
deriving DecidableEq, Repr

/-- One of the words, in front of a text, and what follows it. -/
def wordOf? {α : Type} (word : α → List Char) (all : List α) (cs : List Char) :
    Option (α × List Char) :=
  all.findSome? fun a => (Text.after? (word a) cs).map fun rest => (a, rest)

/-- What follows one or more blanks. -/
def afterBlanks? : List Char → Option (List Char)
  | [] => none
  | c :: cs => if Text.isBlank c then some (cs.dropWhile Text.isBlank) else none

/-- The digits in front of a text, at least one, and what follows them. -/
def digits? (cs : List Char) : Option (List Char × List Char) :=
  match cs.takeWhile Text.isAnyDigit with
  | [] => none
  | digits => some (digits, cs.dropWhile Text.isAnyDigit)

/-- The parts of a count line: a number, a subject and an outcome in brackets. -/
def countLine? (cs : List Char) : Option (List Char × Subject × Outcome) := do
  let inner ← Text.after? ['['] cs
  let (digits, rest) ← digits? (inner.dropWhile Text.isBlank)
  let rest ← afterBlanks? rest
  let (subject, rest) ← wordOf? Subject.word Subject.all rest
  let rest ← afterBlanks? rest
  let (outcome, rest) ← wordOf? Outcome.word Outcome.all rest
  let _ ← Text.after? [']'] (rest.dropWhile Text.isBlank)
  return (digits, subject, outcome)

def durationLine? (cs : List Char) : Option (List Char) := do
  let rest ← Text.after? "Test run finished after ".toList cs
  let (digits, rest) ← digits? rest
  let _ ← Text.after? " ms".toList rest
  return digits

/-- Reads a line without escape sequences and outer blanks. A count beyond 64 bits says nothing. -/
def Line.ofPlain (cs : List Char) : Line :=
  match durationLine? cs with
  | some digits => .duration (Text.word64? digits)
  | none =>
    match countLine? cs with
    | none => .other
    | some (digits, subject, outcome) =>
      match Text.word64? digits with
      | none => .other
      | some n => .count subject outcome n

def Line.ofText (line : String) : Line :=
  .ofPlain (Text.trim (Text.Escape.strip line.toList))

/-- Takes over a count. Some counts of containers are not kept. -/
def setCount (s : Summary) : Subject → Outcome → Nat → Summary
  | .tests, .found, n => { s with testsFound := n }
  | .tests, .started, n => { s with testsStarted := n }
  | .tests, .successful, n => { s with testsSuccessful := n }
  | .tests, .failed, n => { s with testsFailed := n }
  | .tests, .skipped, n => { s with testsSkipped := n }
  | .tests, .aborted, n => { s with testsAborted := n }
  | .containers, .found, n => { s with containersFound := n }
  | .containers, .failed, n => { s with containersFailed := n }
  | .containers, _, _ => s

end Summary

/-- What the lines so far say. -/
structure SummaryReader where
  summary : Summary
  /-- There was a count line. -/
  seen : Bool
deriving DecidableEq, Repr

namespace SummaryReader

def start : SummaryReader := ⟨.empty, false⟩

def note (r : SummaryReader) : Summary.Line → SummaryReader
  | .count subject outcome n => ⟨r.summary.setCount subject outcome n, true⟩
  | .duration ms => { r with summary := { r.summary with duration := ms } }
  | .other => r

def feed (r : SummaryReader) (line : String) : SummaryReader :=
  r.note (.ofText line)

def feedAll (r : SummaryReader) (lines : List String) : SummaryReader :=
  lines.foldl feed r

/-- The summary, unless there was no count line at all. -/
def result? (r : SummaryReader) : Option Summary :=
  if r.seen then some r.summary else none

end SummaryReader

/-- The summary that a whole output ends with. -/
def Summary.ofLines? (lines : List String) : Option Summary :=
  (SummaryReader.start.feedAll lines).result?

end ModuleRig
