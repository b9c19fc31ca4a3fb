import ModuleRig.Command.Arguments
import ModuleRig.Session

/-!
# The program

The whole of the command line: reading it, setting up a session, running the command, and the exit
code. What the process writes is in the output of the host.
-/

namespace ModuleRig.Program

/-- What the process answers when it is asked for its version. -/
def versionText : String := "regex-harness 0.1.0\n"

def complain (text : String) : StateM Host Unit :=
  modify fun host =>
    let stderr := host.output.stderr ++ Text.Utf8.ofText text
    { host with output := { host.output with stderr } }

def reporterOf : ReportFormat → Reporter Output
  | .text => .console
  | .json => .json

/-- Runs the tests, and writes what the reporter has to say. -/
def runTests (s : Session) (options : TestOptions) (format : ReportFormat) : Action Failure Nat :=
  fun host =>
    let ((result, _, written), host) := s.test options (reporterOf format) ⟨[], []⟩ host
    let output := ⟨host.output.stdout ++ written.stdout, host.output.stderr ++ written.stderr⟩
    (result.map Report.exitCode, { host with output })

/-- Runs a command in a session and gives its exit code. -/
def runCommand (s : Session) : Command → Action Failure Nat
  | .test options format => runTests s options format
  | .benchmarks => do return (← s.runBenchmarks).exitCode
  | .run arguments => do return (← s.run arguments).exitCode

def optionsOf (line : CommandLine) : SetupOptions :=
  ⟨⟨line.projectDir⟩, line.settingsFile.map Path.mk, line.offline, line.refresh⟩

/-- Sets up a session and runs the command in it. -/
def execute (line : CommandLine) : Action SetupError Nat := do
  let session ← Session.setUp (optionsOf line)
  (runCommand session line.command).mapError .failure

/-- The exit code when something keeps the command from its end. -/
def setupExitCode : SetupError → Nat
  | .settings _ => 2
  | .failure f => f.exitCode

/-- A code beyond a byte is passed on as 1. -/
def processCode (code : Nat) : Nat :=
  if code < 256 then code else 1

/-- Executes a command line and gives the exit code of the process. An error is written out. -/
def run (line : CommandLine) : StateM Host Nat :=
  fun host =>
    match execute line host with
    | (.ok code, host) => (processCode code, host)
    | (.error e, host) =>
      let ((), host) := complain ("Error: " ++ e.fullMessage ++ "\n") host
      (processCode (setupExitCode e), host)

/-- How the process ends. -/
inductive Ending where
  /-- The command line is refused, or asks for a text about the program. -/
  | usage (error : UsageError)
  | finished (code : Nat)
deriving DecidableEq, Repr

def start (arguments : List String) : StateM Host Ending :=
  fun host =>
    match CommandLine.parse arguments with
    | .error e => (.usage e, host)
    | .ok line =>
      let (code, host) := run line host
      (.finished code, host)

end ModuleRig.Program
