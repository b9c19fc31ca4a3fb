import ModuleRig.Task.Invocation
import ModuleRig.Task.Lifecycle

/-!
# The run task and the benchmark task

The run task starts the module. It is given a classpath and a launcher once, and the benchmark task
is made from what it was given. Each of them can run once.
-/

namespace ModuleRig

/-- What a run task is given before it can run. -/
structure RunInputs where
  classpath : Classpath
  launcher : Launcher
deriving DecidableEq, Repr

structure RunTask where
  module : ModuleName
  flags : Flags
  inputs : Option RunInputs
  lifecycle : Lifecycle
deriving DecidableEq, Repr

/-- Runs an invocation once. The lifecycle moves to running before the process starts, and to its
end after it. -/
def Lifecycle.runOnce (l : Lifecycle) (i : Invocation) :
    StateM Host (Except Failure TaskOutcome × Lifecycle) :=
  fun host =>
    match l.move .running with
    | .error e => ((.error e, l), host)
    | .ok running =>
      match i.run host with
      | (.error e, host) => ((.error e, running), host)
      | (.ok code, host) =>
        match running.finish code with
        | .error e => ((.error e, running), host)
        | .ok ended => ((.ok ⟨l.task, code⟩, ended), host)

namespace RunTask

def taskName : String := "run"

/-- A run task for the module. The flags must be made for it. -/
def make (module : ModuleName) (flags : Flags) : Except Failure RunTask := do
  flags.verifyFor module
  return ⟨module, flags, none, .start taskName⟩

def isMaterialized (t : RunTask) : Bool :=
  t.inputs.isSome

def materialize (t : RunTask) (classpath : Classpath) (launcher : Launcher) :
    Except Failure RunTask :=
  if classpath.isEmpty then .error (.configuration "runtime classpath is empty")
  else do
    let lifecycle ← t.lifecycle.move .configured
    return { t with lifecycle, inputs := some ⟨classpath, launcher⟩ }

/-- How the task would start the module with the arguments. -/
def invocation (t : RunTask) (arguments : List String) : Except Failure Invocation :=
  match t.inputs with
  | none => .error (.notMaterialized taskName)
  | some inputs =>
    .ok ⟨taskName, inputs.classpath, inputs.launcher, .module t.module, arguments, t.flags⟩

/-- Starts the module with the arguments and waits for its end. -/
def run (t : RunTask) (arguments : List String) :
    StateM Host (Except Failure TaskOutcome × RunTask) :=
  fun host =>
    match t.invocation arguments with
    | .error e => ((.error e, t), host)
    | .ok i =>
      let ((result, lifecycle), host) := t.lifecycle.runOnce i host
      ((result, { t with lifecycle }), host)

end RunTask

structure BenchmarkTask where
  invocation : Invocation
  lifecycle : Lifecycle
deriving DecidableEq, Repr

namespace BenchmarkTask

def taskName : String := "runBenchmarks"

/-- The argument that makes the module run its benchmarks alone. -/
def noTestsFlag : String := "--no-tests"

/-- A benchmark task with what the run task was given. -/
def ofRunTask (t : RunTask) : Except Failure BenchmarkTask :=
  match t.inputs with
  | none => .error (.notMaterialized taskName)
  | some inputs => do
    let lifecycle ← (Lifecycle.start taskName).move .configured
    return ⟨⟨taskName, inputs.classpath, inputs.launcher, .module t.module, [noTestsFlag], t.flags⟩,
      lifecycle⟩

def run (t : BenchmarkTask) : StateM Host (Except Failure TaskOutcome × BenchmarkTask) :=
  fun host =>
    let ((result, lifecycle), host) := t.lifecycle.runOnce t.invocation host
    ((result, { t with lifecycle }), host)

end BenchmarkTask

end ModuleRig
