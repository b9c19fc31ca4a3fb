import ModuleRig.Module.Flags
import ModuleRig.Repository.Basic
import ModuleRig.Task.Launcher

/-!
# Settings

What a settings file says, with the values that count when it does not. Relative paths are anchored
at the project directory once, so that nothing later depends on where the program was started.
`validate` finds what would fail later.
-/

namespace ModuleRig

structure ProjectSettings where
  group : String
  version : String
  /-- The directories of the compiled classes. -/
  classes : List Path
deriving DecidableEq, Repr

structure DependencySettings where
  coordinate : String
  changing : Bool
deriving DecidableEq, Repr

structure CacheSettings where
  dir : Path
  /-- Both windows are in seconds. -/
  changingWindow : Nat
  dynamicWindow : Nat
deriving DecidableEq, Repr

structure TestSettings where
  /-- The coordinate of the console launcher. -/
  launcher : String
  /-- The directories of the compiled tests. -/
  classes : List Path
deriving DecidableEq, Repr

structure Settings where
  project : ProjectSettings
  mainModule : String
  dependency : DependencySettings
  repositories : List RepositorySettings
  cache : CacheSettings
  java : JavaSettings
  execution : ExecutionSettings
  test : TestSettings
deriving DecidableEq, Repr

namespace Settings

def default : Settings where
  project := ⟨"syspro.tm.implementation", "1.0-SNAPSHOT", [⟨"build/classes/java/main"⟩]⟩
  mainModule := "syspro.tm.RegexApp"
  dependency := ⟨"syspro.tm:RegexApp:+", true⟩
  repositories :=
    [⟨"mavenCentral", "https://repo.maven.apache.org/maven2"⟩,
      ⟨"syspro", "https://sysprolang.b-andrew.ru/repository"⟩]
  cache := ⟨⟨".harness/cache"⟩, 3600, 86400⟩
  java := ⟨none, 25, true⟩
  execution := .default
  test :=
    ⟨"org.junit.platform:junit-platform-console-standalone:1.14.1", [⟨"build/classes/java/test"⟩]⟩

/-- The settings with all paths taken from the project directory. -/
def anchored (s : Settings) (projectDir : Path) : Settings where
  project := { s.project with classes := s.project.classes.map (·.anchoredAt projectDir) }
  mainModule := s.mainModule
  dependency := s.dependency
  repositories := s.repositories
  cache := { s.cache with dir := s.cache.dir.anchoredAt projectDir }
  java := { s.java with home := s.java.home.map (·.anchoredAt projectDir) }
  execution := s.execution
  test := { s.test with classes := s.test.classes.map (·.anchoredAt projectDir) }

def module? (s : Settings) : Except Failure ModuleName :=
  (ModuleName.parse s.mainModule).mapError fun problem => .configuration problem.message

def coordinate? (text : String) : Except Failure Coordinate :=
  (Coordinate.parse? text).mapError fun e => .configuration e.message

/-- The coordinate of the module. Whether it is changing is for the settings to say. -/
def dependency? (s : Settings) : Except Failure Coordinate := do
  return (← coordinate? s.dependency.coordinate).withChanging s.dependency.changing

def testLauncher? (s : Settings) : Except Failure Coordinate :=
  coordinate? s.test.launcher

/-- Refuses the first repository without an address. -/
def checkRepositories : List RepositorySettings → Except Failure Unit
  | [] => .ok ()
  | r :: rest =>
    if (Text.trim r.url.toList).isEmpty then
      .error (.configuration ("repository '" ++ r.name ++ "' has an empty url"))
    else checkRepositories rest

/-- Checks the module, the coordinates, the repositories and the grants, in this order. -/
def validate (s : Settings) : Except Failure Unit := do
  let module ← s.module?
  let _ ← s.dependency?
  let _ ← s.testLauncher?
  if s.repositories.isEmpty then
    throw (.configuration "at least one [[repository]] is required")
  checkRepositories s.repositories
  checkGrants module s.execution.jvmArgs

end Settings

end ModuleRig
