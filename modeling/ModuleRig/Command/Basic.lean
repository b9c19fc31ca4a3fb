import ModuleRig.Task.Test

/-!
# Commands

What a command line asks for, and why it may be refused.
-/

namespace ModuleRig

inductive ReportFormat where
  | text
  | json
deriving DecidableEq, Repr

def ReportFormat.all : List ReportFormat := [.text, .json]

def ReportFormat.word : ReportFormat → String
  | .text => "text"
  | .json => "json"

inductive Command where
  | test (options : TestOptions) (format : ReportFormat)
  | benchmarks
  | run (arguments : List String)
deriving DecidableEq, Repr

structure CommandLine where
  settingsFile : Option String
  projectDir : String
  offline : Bool
  refresh : Bool
  debug : Bool
  command : Command
deriving DecidableEq, Repr

/-- Why no command is run. The first three ask for a text instead. -/
inductive UsageError where
  | help
  | helpForMissing
  | version
  | unknownArgument
  | invalidValue
  | tooManyValues
  | conflict
  | missingCommand
  | invalidCommand
deriving DecidableEq, Repr

namespace UsageError

/-- The exit code of the process. A text that was asked for is no mistake. -/
def exitCode : UsageError → Nat
  | .help => 0
  | .version => 0
  | _ => 2

end UsageError

end ModuleRig
