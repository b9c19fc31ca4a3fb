import ModuleRig.Json.Decode
import ModuleRig.Json.Printer
import ModuleRig.Report.Summary
import ModuleRig.Text.Seconds

/-!
# Test reports

The verdict over a test run: the summary, if there was one, and the exit code of the launcher. A run
passes only if both are clean. `Report.line` shows a report to a person, `Report.toJson` to a
program.
-/

namespace ModuleRig

namespace Summary

/-- The counts that a person is told, with the words for them. -/
def parts (s : Summary) : List (Nat × String) :=
  [(s.testsSuccessful, "passed"), (s.testsFailed, "failed"), (s.testsSkipped, "skipped"),
    (s.testsAborted, "aborted"), (s.containersFailed, "containers failed")]

/-- The counts that are not zero. -/
def partsText (s : Summary) : String :=
  match s.parts.filter fun (n, _) => n != 0 with
  | [] => "no tests ran"
  | parts => String.intercalate ", " (parts.map fun (n, word) => Text.decimal n ++ " " ++ word)

def toJson (s : Summary) : Json :=
  .ofFields [("tests_found", .ofNat s.testsFound), ("tests_started", .ofNat s.testsStarted),
    ("tests_successful", .ofNat s.testsSuccessful), ("tests_failed", .ofNat s.testsFailed),
    ("tests_skipped", .ofNat s.testsSkipped), ("tests_aborted", .ofNat s.testsAborted),
    ("containers_found", .ofNat s.containersFound),
    ("containers_failed", .ofNat s.containersFailed),
    ("duration_ms", .ofOption .ofNat s.duration)]

/-- The names of the fields that must be there, in the order of `toJson`. -/
def countNames : List String :=
  ["tests_found", "tests_started", "tests_successful", "tests_failed", "tests_skipped",
    "tests_aborted", "containers_found", "containers_failed"]

def ofJson? (j : Json) : Option Summary :=
  match Json.record? (countNames ++ ["duration_ms"]) j with
  | some [a, b, c, d, e, f, g, h, duration] => do
    let a ← Json.required? Json.word64? a
    let b ← Json.required? Json.word64? b
    let c ← Json.required? Json.word64? c
    let d ← Json.required? Json.word64? d
    let e ← Json.required? Json.word64? e
    let f ← Json.required? Json.word64? f
    let g ← Json.required? Json.word64? g
    let h ← Json.required? Json.word64? h
    let duration ← Json.optional? Json.word64? duration
    return ⟨a, b, c, d, e, f, g, h, duration⟩
  | _ => none

end Summary

structure Report where
  /-- None if the suite never came to its summary. -/
  summary : Option Summary
  launcherExitCode : Int
deriving DecidableEq, Repr

namespace Report

/-- The summary is clean, or none. -/
def clean (r : Report) : Option Bool :=
  r.summary.map Summary.isClean

def passed (r : Report) : Bool :=
  r.launcherExitCode == 0 && r.clean == some true

def exitCode (r : Report) : Nat :=
  if r.passed then 0 else 1

def status (r : Report) : String :=
  if r.passed then "passed"
  else
    match r.summary with
    | none => "error"
    | some _ => "failed"

/-- What stands between the marks of the summary line. -/
def verdict (r : Report) : String :=
  match r.summary with
  | none => "no test summary (launcher exited with " ++ Text.signed r.launcherExitCode ++ ")"
  | some s => s.partsText ++ " in " ++ Text.secondsText (s.duration.getD 0) ++ "s"

/-- The line for a person, in green or red. -/
def line (r : Report) : String :=
  (if r.passed then "\x1b[1;32m" else "\x1b[1;31m") ++ "====== " ++ r.verdict ++ " ======\x1b[0m"

def toJson (r : Report) : Json :=
  .ofFields [("status", .ofText r.status), ("exit_code", .ofNat r.exitCode),
    ("launcher_exit_code", .ofInt r.launcherExitCode),
    ("summary", .ofOption Summary.toJson r.summary)]

end Report

end ModuleRig
