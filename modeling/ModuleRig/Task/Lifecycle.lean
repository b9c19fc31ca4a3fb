import ModuleRig.Failure

/-!
# Task lifecycles

A task's name and its present state. The state changes by `move` alone, which refuses what the
rules of `TaskState.canMove` do not allow.
-/

namespace ModuleRig

structure Lifecycle where
  task : String
  state : TaskState
deriving DecidableEq, Repr

namespace Lifecycle

def start (task : String) : Lifecycle :=
  ⟨task, .unconfigured⟩

/-- Moves to another state. -/
def move (l : Lifecycle) (wanted : TaskState) : Except Failure Lifecycle :=
  if l.state.canMove wanted then .ok { l with state := wanted }
  else .error (.state l.task l.state wanted)

/-- Ends a running task by the exit code of its process. -/
def finish (l : Lifecycle) (exitCode : Int) : Except Failure Lifecycle :=
  l.move (.ofExitCode exitCode)

theorem move_eq_ok_iff {l next : Lifecycle} {wanted : TaskState} :
    l.move wanted = .ok next ↔ l.state.canMove wanted ∧ next = { l with state := wanted } := by
  unfold move
  split
  · next h => simp [h, eq_comm]
  · next h => simp [h]

end Lifecycle

end ModuleRig
