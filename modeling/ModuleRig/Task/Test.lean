import ModuleRig.Report.Reporter
import ModuleRig.Task.Invocation
import ModuleRig.Task.Lifecycle
import ModuleRig.Text.Lines

/-!
# The test task

Runs the console launcher over the test classes. Its output goes line by line to a reporter and into
the summary. A suite that fails still has a report; only what keeps the launcher from running is a
failure.
-/

namespace ModuleRig

/-- How much the console launcher tells. -/
inductive Details where
  | tree
  | flat
  | nothing
deriving DecidableEq, Repr

def Details.all : List Details := [.tree, .flat, .nothing]

def Details.word : Details → String
  | .tree => "tree"
  | .flat => "flat"
  | .nothing => "none"

structure TestOptions where
  details : Details
  includeTags : List String
  excludeTags : List String
deriving DecidableEq, Repr

def TestOptions.default : TestOptions := ⟨.tree, [], []⟩

structure TestTask where
  invocation : Invocation
  lifecycle : Lifecycle
deriving DecidableEq, Repr

namespace TestTask

def taskName : String := "test"

/-- The argument that limits the search for tests to the roots. -/
def scanArgument (roots : Classpath) : Except Failure String :=
  if roots.isEmpty then .ok "--scan-class-path"
  else do return "--scan-class-path=" ++ (← roots.argument)

def consoleArguments (roots classpath : Classpath) (options : TestOptions) :
    Except Failure (List String) := do
  let classpath ← classpath.argument
  let scan ← scanArgument roots
  return ["execute", "--class-path", classpath, scan, "--disable-banner",
      "--details=" ++ options.details.word] ++
    options.includeTags.flatMap (["--include-tag", ·]) ++
    options.excludeTags.flatMap (["--exclude-tag", ·])

/-- A test task over the classpath, with the console launcher in the jar. -/
def make (console : Path) (roots classpath : Classpath) (launcher : Launcher) (flags : Flags)
    (options : TestOptions) : Except Failure TestTask :=
  if classpath.isEmpty then .error (.configuration "test classpath is empty")
  else do
    let arguments ← consoleArguments roots classpath options
    let lifecycle ← (Lifecycle.start taskName).move .configured
    return ⟨⟨taskName, classpath, launcher, .jar console, arguments, flags⟩, lifecycle⟩

def reportOf (child : ChildRun) : Report :=
  ⟨Summary.ofLines? (Text.linesOfChunks child.chunks), child.status.exitCode⟩

def conclude {σ : Type} (t : TestTask) (reporter : Reporter σ) (state : σ) (report : Report) :
    Except Failure Report × TestTask × σ :=
  match t.lifecycle.finish report.exitCode with
  | .error e => (.error e, t, state)
  | .ok lifecycle =>
    let (result, state) := reporter.onReport state report
    (match result with
      | .ok () => .ok report
      | .error e => .error (.system e),
      { t with lifecycle }, state)

/-- Runs the console launcher. Its error output is that of this process. -/
def run {σ : Type} (t : TestTask) (reporter : Reporter σ) (state : σ) :
    StateM Host (Except Failure Report × TestTask × σ) :=
  fun host =>
    match t.invocation.commandLine with
    | .error e => ((.error e, t, state), host)
    | .ok line =>
      match t.lifecycle.move .running with
      | .error e => ((.error e, t, state), host)
      | .ok running =>
        let t := { t with lifecycle := running }
        match t.invocation.launcher.start line host with
        | (.error e, host) => ((.error e, t, state), host)
        | (.ok child, host) =>
          let state := (Text.linesOfChunks child.chunks).foldl reporter.onLine state
          let stderr := host.output.stderr ++ child.stderr
          match t.invocation.launcher.await line
            { host with output := { host.output with stderr } } with
          | (.error e, host) => ((.error e, t, state), host)
          | (.ok (), host) => (t.conclude reporter state (reportOf child), host)

end TestTask

end ModuleRig
