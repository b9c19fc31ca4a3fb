/-!
# Task states

A task is configured once, runs once and ends in one of two ways. `canMove` is the whole of the
rules; everything that holds a state moves it through them.
-/

namespace ModuleRig

inductive TaskState where
  | unconfigured
  | configured
  | running
  | succeeded
  | failed
deriving DecidableEq, Repr

namespace TaskState

/-- All states, in the order in which a task meets them. -/
def all : List TaskState :=
  [.unconfigured, .configured, .running, .succeeded, .failed]

def label : TaskState → String
  | .unconfigured => "unconfigured"
  | .configured => "configured"
  | .running => "running"
  | .succeeded => "succeeded"
  | .failed => "failed"

def canMove : TaskState → TaskState → Bool
  | .unconfigured, .configured => true
  | .configured, .running => true
  | .running, .succeeded => true
  | .running, .failed => true
  | _, _ => false

def isTerminal : TaskState → Bool
  | .succeeded => true
  | .failed => true
  | _ => false

/-- The states one move away. -/
def successors (s : TaskState) : List TaskState :=
  all.filter s.canMove

/-- The state in which a task ends that exits with the code. -/
def ofExitCode (code : Int) : TaskState :=
  if code = 0 then .succeeded else .failed

theorem mem_all (s : TaskState) : s ∈ all := by
  cases s <;> decide

theorem isTerminal_iff (s : TaskState) : s.isTerminal ↔ s.successors = [] := by
  cases s <;> decide

end TaskState

end ModuleRig
