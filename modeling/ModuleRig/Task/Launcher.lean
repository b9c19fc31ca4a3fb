import ModuleRig.Failure
import ModuleRig.Task.Launch
import ModuleRig.Text.Cut
import ModuleRig.Text.Letter
import ModuleRig.Text.Numeral

/-!
# Java launchers

Which launcher is used, and which Java version it says it has. The version is read from the banner
that the launcher prints.
-/

namespace ModuleRig

structure JavaSettings where
  home : Option Path
  /-- The major version that is required. -/
  languageVersion : Nat
  /-- Look whether the launcher has that version. -/
  checkVersion : Bool
deriving DecidableEq, Repr

namespace JavaVersion

/-- The numbers of a version that starts here: one, and maybe a second after a dot. -/
def numbersHere? (cs : List Char) : Option (List Char × Option (List Char)) := do
  let rest ← Text.after? "version \"".toList cs
  let first := rest.takeWhile Text.isAnyDigit
  if first.isEmpty then none
  else
    match rest.dropWhile Text.isAnyDigit with
    | '.' :: rest =>
      let second := rest.takeWhile Text.isAnyDigit
      return (first, if second.isEmpty then none else some second)
    | _ => return (first, none)

def numbers? : List Char → Option (List Char × Option (List Char))
  | [] => none
  | c :: cs =>
    match numbersHere? (c :: cs) with
    | some numbers => some numbers
    | none => numbers? cs

/-- The major version in a banner. Versions that start with 1 are counted by their second
number. -/
def major? (banner : String) : Option Nat := do
  let (first, second) ← numbers? banner.toList
  let n ← Text.word32? first
  if n = 1 then second.bind Text.word32? else some n

end JavaVersion

structure Launcher where
  program : Path
deriving DecidableEq, Repr

namespace Launcher

def ofHome (home : Path) : Launcher :=
  ⟨(home.child "bin").child "java"⟩

/-- The configured installation, else the one of the environment, else whatever is found. -/
def select (settings : JavaSettings) (host : Host) : Launcher :=
  match settings.home with
  | some home => ofHome home
  | none =>
    match host.valueOf? "JAVA_HOME" with
    | some home => if home.isEmpty then ⟨⟨"java"⟩⟩ else ofHome ⟨home⟩
    | none => ⟨⟨"java"⟩⟩

def start (l : Launcher) (arguments : List String) : Action Failure ChildRun :=
  (Action.launch l.program arguments).mapError (.launch l.program.spelling)

/-- Waits for the launcher that was started with the arguments. -/
def await (l : Launcher) (arguments : List String) : Action Failure Unit :=
  (Action.await arguments).mapError (.launch l.program.spelling)

/-- What a launcher prints about itself, the error output first. -/
def bannerOf (run : ChildRun) : String :=
  Text.Utf8.textLossy run.stderr ++ Text.Utf8.textLossy run.stdout

def unknownVersion (l : Launcher) (banner : String) : Failure :=
  .configuration ("cannot determine Java version of " ++ l.program.spelling ++ " from: " ++
    Text.trimmed banner)

def majorVersion (l : Launcher) : Action Failure Nat := do
  let child ← l.start ["-version"]
  l.await ["-version"]
  let banner := bannerOf child
  match JavaVersion.major? banner with
  | some major => return major
  | none => throw (l.unknownVersion banner)

/-- Refuses a launcher of any other major version than the required one. -/
def verify (l : Launcher) (required : Nat) : Action Failure Unit := do
  let major ← l.majorVersion
  if major = required then return ()
  else
    throw (.configuration (l.program.spelling ++ " is Java " ++ Text.decimal major ++
      ", but Java " ++ Text.decimal required ++ " is required"))

end Launcher

end ModuleRig
