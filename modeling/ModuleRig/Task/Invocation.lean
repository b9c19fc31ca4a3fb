import ModuleRig.Module.Flags
import ModuleRig.Task.Classpath
import ModuleRig.Task.Launcher

/-!
# Invocations

All that is needed to start a task's process. The command line is put together from it each time.
-/

namespace ModuleRig

/-- What the launcher is told to run. -/
inductive Target where
  | module (name : ModuleName)
  | jar (path : Path)
deriving DecidableEq, Repr

structure Invocation where
  task : String
  classpath : Classpath
  launcher : Launcher
  target : Target
  /-- The arguments of what is run. -/
  arguments : List String
  flags : Flags
deriving DecidableEq, Repr

namespace Invocation

/-- The arguments that name the target. A module is looked for on the classpath. -/
def targetArguments (i : Invocation) : Except Failure (List String) :=
  match i.target with
  | .module name => do
    return ["--module-path", ← i.classpath.argument, "-m", name.text]
  | .jar path => return ["-jar", path.spelling]

/-- All arguments of the launcher: the flags, the target, and the target's own arguments. -/
def commandLine (i : Invocation) : Except Failure (List String) := do
  return i.flags.arguments ++ (← i.targetArguments) ++ i.arguments

/-- Runs the process with the outputs of this one, and gives its exit code. -/
def run (i : Invocation) : Action Failure Nat := do
  let line ← Action.ofExcept i.commandLine
  let child ← i.launcher.start line
  Action.relay child.stdout child.stderr
  i.launcher.await line
  return child.status.exitCode

end Invocation

/-- How a task's process ended. -/
structure TaskOutcome where
  task : String
  exitCode : Nat
deriving DecidableEq, Repr

def TaskOutcome.success (o : TaskOutcome) : Bool :=
  o.exitCode == 0

end ModuleRig
