import ModuleRig.Command.Basic
import ModuleRig.Text.Cut

/-!
# Reading command lines

Arguments are read from left to right at two levels: the options in front of the command, and those
behind it. Options that belong to every command may stand at either level, and what stands behind
the command counts more. An option keeps its value in suspense until the next option comes: only
then is the value looked at, so of two mistakes the later one may be told.
-/

namespace ModuleRig.Arguments

/-- Where an argument stands. -/
inductive Level where
  | top
  | test
  | benchmarks
  | run
deriving DecidableEq, Repr

inductive Switch where
  | offline
  | refresh
  | debug
deriving DecidableEq, Repr

inductive Valued where
  | settingsFile
  | projectDir
  | details
  | includeTag
  | excludeTag
  | format
deriving DecidableEq, Repr

inductive LongOption where
  | switch (s : Switch)
  | valued (v : Valued)
  | help
  | version
deriving DecidableEq, Repr

def commonOptions : List (String × LongOption) :=
  [("config", .valued .settingsFile), ("project-dir", .valued .projectDir),
    ("offline", .switch .offline), ("refresh-dependencies", .switch .refresh),
    ("debug", .switch .debug), ("help", .help)]

/-- The options that a level has besides. -/
def Level.ownOptions : Level → List (String × LongOption)
  | .top => [("version", .version)]
  | .test =>
    [("details", .valued .details), ("include-tag", .valued .includeTag),
      ("exclude-tag", .valued .excludeTag), ("format", .valued .format)]
  | .benchmarks => []
  | .run => []

def Level.option? (level : Level) (name : String) : Option LongOption :=
  (commonOptions ++ level.ownOptions).lookup name

/-- What was given at a level. -/
structure Given where
  settingsFile : Option String
  projectDir : Option String
  offline : Bool
  refresh : Bool
  debug : Bool
  details : Option Details
  format : Option ReportFormat
  includeTags : List String
  excludeTags : List String
  /-- The arguments behind a double dash. -/
  arguments : List String
deriving DecidableEq, Repr

def Given.nothing : Given :=
  ⟨none, none, false, false, false, none, none, [], [], []⟩

/-- A switch can be set once. -/
def Given.set (g : Given) : Switch → Except UsageError Given
  | .offline => if g.offline then .error .conflict else .ok { g with offline := true }
  | .refresh => if g.refresh then .error .conflict else .ok { g with refresh := true }
  | .debug => if g.debug then .error .conflict else .ok { g with debug := true }

/-- Takes the value of an option that can be given once. -/
def once {α : Type} (held : Option α) (value : Option α) : Except UsageError (Option α) :=
  match held, value with
  | some _, _ => .error .conflict
  | none, some v => .ok (some v)
  | none, none => .error .invalidValue

/-- A path may not be empty. -/
def pathValue? (value : String) : Option String :=
  if value.toList.isEmpty then none else some value

def choice? {α : Type} (word : α → String) (all : List α) (value : String) : Option α :=
  all.find? fun a => word a == value

/-- Takes the value of an option. -/
def Given.take (g : Given) (option : Valued) (value : String) : Except UsageError Given :=
  match option with
  | .settingsFile => do return { g with settingsFile := ← once g.settingsFile (pathValue? value) }
  | .projectDir => do return { g with projectDir := ← once g.projectDir (pathValue? value) }
  | .details => do
    return { g with details := ← once g.details (choice? Details.word Details.all value) }
  | .format => do
    return { g with format := ← once g.format (choice? ReportFormat.word ReportFormat.all value) }
  | .includeTag => .ok { g with includeTags := g.includeTags ++ [value] }
  | .excludeTag => .ok { g with excludeTags := g.excludeTags ++ [value] }

/-- An option whose value has not been looked at. -/
inductive Suspense where
  | settled
  /-- The value is still to come. -/
  | awaiting (option : Valued)
  | holding (option : Valued) (value : String)
deriving DecidableEq, Repr

structure LevelState where
  given : Given
  suspense : Suspense
  /-- There was a double dash. -/
  dashed : Bool
deriving DecidableEq, Repr

def LevelState.start : LevelState := ⟨.nothing, .settled, false⟩

/-- Looks at the value in suspense. -/
def LevelState.settle (s : LevelState) : Except UsageError Given :=
  match s.suspense with
  | .settled => .ok s.given
  | .awaiting _ => .error .invalidValue
  | .holding option value => s.given.take option value

/-- Goes on with what was given, and nothing in suspense. -/
def LevelState.goOn (s : LevelState) (given : Given) : LevelState :=
  { s with given, suspense := .settled }

/-- An option with two dashes. The value may be attached to it. -/
def LevelState.long (s : LevelState) (level : Level) (name : String) (attached : Option String) :
    Except UsageError LevelState :=
  match level.option? name, attached with
  | none, _ => .error .unknownArgument
  | some (.valued option), none => do
    return { s with given := ← s.settle, suspense := .awaiting option }
  | some (.valued option), some value => do return s.goOn (← (← s.settle).take option value)
  | some _, some _ => .error .tooManyValues
  | some (.switch switch), none => do return s.goOn (← (← s.settle).set switch)
  | some .help, none => do
    let _ ← s.settle
    throw .help
  | some .version, none => do
    let _ ← s.settle
    throw .version

/-- An option with one dash. There are two, and each ends the reading. -/
def LevelState.short (s : LevelState) (level : Level) (letter : Char) :
    Except UsageError LevelState :=
  if letter = 'h' then do
    let _ ← s.settle
    throw .help
  else if letter = 'V' ∧ level = .top then do
    let _ ← s.settle
    throw .version
  else .error .unknownArgument

/-- What an argument is by its spelling. -/
inductive Spelling where
  | doubleDash
  | long (name : String) (attached : Option String)
  | short (letter : Char)
  | plain
deriving DecidableEq, Repr

def spellingOf (argument : List Char) : Spelling :=
  match argument with
  | ['-', '-'] => .doubleDash
  | '-' :: '-' :: rest =>
    match Text.cutAt? ['='] rest with
    | none => .long (String.ofList rest) none
    | some (name, value) => .long (String.ofList name) (some (String.ofList value))
  | '-' :: letter :: _ => .short letter
  | _ => .plain

def commandNames : List (String × Level) :=
  [("test", .test), ("run", .run), ("runBenchmarks", .benchmarks), ("run-benchmarks", .benchmarks)]

def helpName : String := "help"

/-- An argument that stands for itself. Only what is run takes some, and only behind a double
dash. -/
def LevelState.positional (s : LevelState) (level : Level) (argument : String) :
    Except UsageError LevelState :=
  match level with
  | .run =>
    if s.dashed then do
      let given ← s.settle
      return s.goOn { given with arguments := given.arguments ++ [argument] }
    else .error .unknownArgument
  | .top =>
    if s.dashed && (argument == helpName || (commandNames.lookup argument).isSome) then
      .error .unknownArgument
    else .error .invalidCommand
  | _ => .error .unknownArgument

def LevelState.read (s : LevelState) (level : Level) (argument : String) :
    Except UsageError LevelState :=
  if s.dashed then s.positional level argument
  else
    match spellingOf argument.toList with
    | .doubleDash => .ok { s with dashed := true }
    | .long name attached => s.long level name attached
    | .short letter => s.short level letter
    | .plain =>
      match s.suspense with
      | .awaiting option => .ok { s with suspense := .holding option argument }
      | _ => s.positional level argument

/-- What is not allowed together at one level. -/
def Given.check (g : Given) : Except UsageError Given :=
  if g.offline ∧ g.refresh then .error .conflict else .ok g

def readBehind (level : Level) (s : LevelState) : List String → Except UsageError Given
  | [] => do (← s.settle).check
  | argument :: rest => do readBehind level (← s.read level argument) rest

/-- What the command `help` does with the arguments behind it: they name a command, if any. -/
def readHelp : List String → UsageError
  | [] => .help
  | [name] =>
    if name = helpName ∨ (commandNames.lookup name).isSome then .help else .invalidCommand
  | _ => .invalidCommand

/-- The command of a level, from what was given there. -/
def commandOf (level : Level) (g : Given) : Command :=
  match level with
  | .test =>
    .test ⟨g.details.getD .tree, g.includeTags, g.excludeTags⟩ (g.format.getD .text)
  | .run => .run g.arguments
  | _ => .benchmarks

def combine (top behind : Given) (command : Command) : CommandLine where
  settingsFile := behind.settingsFile.or top.settingsFile
  projectDir := (behind.projectDir.or top.projectDir).getD "."
  offline := top.offline || behind.offline
  refresh := top.refresh || behind.refresh
  debug := top.debug || behind.debug
  command := command

def withoutCommand (s : LevelState) : Except UsageError CommandLine := do
  let given ← s.settle
  if given = .nothing then throw .helpForMissing else throw .missingCommand

/-- A command in its place: not behind a double dash and not as the value of an option. -/
def LevelState.mayBegin (s : LevelState) : Bool :=
  match s.suspense with
  | .awaiting _ => false
  | _ => !s.dashed

/-- Reads the arguments in front of a command, the command, and those behind it. -/
def readTop (s : LevelState) : List String → Except UsageError CommandLine
  | [] => withoutCommand s
  | argument :: rest =>
    if s.mayBegin && argument == helpName then .error (readHelp rest)
    else
      match if s.mayBegin then commandNames.lookup argument else none with
      | some level => do
        let behind ← readBehind level .start rest
        let top ← (← s.settle).check
        return combine top behind (commandOf level behind)
      | none => do readTop (← s.read .top argument) rest

end ModuleRig.Arguments

namespace ModuleRig

/-- Reads the arguments of the process, without its name. -/
def CommandLine.parse (arguments : List String) : Except UsageError CommandLine :=
  Arguments.readTop .start arguments

end ModuleRig
