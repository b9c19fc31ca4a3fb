import ModuleRig.SystemError
import ModuleRig.Task.State

/-!
# Failures

Everything that stops the program before or during a task. A failing test suite is not a failure:
it is a report like any other.
-/

namespace ModuleRig

inductive Failure where
  | configuration (reason : String)
  /-- A native-access grant, or a set of flags, is made out to another module. -/
  | moduleMismatch (expected found : String)
  | resolution (coordinate reason : String)
  /-- The task needs what the run task has not been given yet. -/
  | notMaterialized (task : String)
  | launch (program : String) (cause : SystemError)
  | state (task : String) (current wanted : TaskState)
  | system (cause : SystemError)
deriving DecidableEq, Repr

namespace Failure

def message : Failure → String
  | .configuration reason => "invalid configuration: " ++ reason
  | .moduleMismatch expected found =>
    "native-access grant names module '" ++ found ++ "' but the entry module is '" ++ expected ++
      "'"
  | .resolution coordinate reason => "could not resolve " ++ coordinate ++ ": " ++ reason
  | .notMaterialized task =>
    "task '" ++ task ++
      "' requires the run task's classpath and launcher, which are not materialized yet"
  | .launch program cause => "failed to launch " ++ program ++ ": " ++ cause.text
  | .state task current wanted =>
    "task '" ++ task ++ "' cannot move from " ++ current.label ++ " to " ++ wanted.label
  | .system cause => "IO error: " ++ cause.text

def cause? : Failure → Option SystemError
  | .launch _ cause => some cause
  | .system cause => some cause
  | _ => none

/-- The exit code of the process when the failure stops it. -/
def exitCode (_ : Failure) : Nat := 2

def fullMessage (failure : Failure) : String :=
  match failure.cause? with
  | none => failure.message
  | some cause => failure.message ++ ": " ++ cause.text

end Failure

end ModuleRig
