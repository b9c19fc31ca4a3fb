import ModuleRig.Cache.Resolver
import ModuleRig.Repository.Resolver
import ModuleRig.Settings.Load
import ModuleRig.Task.Run
import ModuleRig.Task.Test

/-!
# Sessions

A session is a project that is ready to run: settings loaded and checked, the module's jar resolved,
the launcher chosen and asked for its version. Whatever goes wrong on the way leaves no session and
starts no task. The tasks of a session are made from it, each time anew.
-/

namespace ModuleRig

/-- What keeps a session from being set up. -/
inductive SetupError where
  | settings (error : SettingsError)
  | failure (failure : Failure)
deriving DecidableEq, Repr

def SetupError.fullMessage : SetupError → String
  | .settings e => e.fullMessage
  | .failure f => f.fullMessage

structure SetupOptions where
  projectDir : Path
  settingsFile : Option Path
  offline : Bool
  refresh : Bool
deriving DecidableEq, Repr

structure Session where
  settings : Settings
  module : ModuleName
  flags : Flags
  launcher : Launcher
  repositories : Repositories
  resolver : CachingResolver
  /-- The module's jar. -/
  dependency : Artifact

namespace Session

def policyOf (settings : Settings) (options : SetupOptions) : CachePolicy :=
  ⟨.ofSeconds settings.cache.changingWindow, .ofSeconds settings.cache.dynamicWindow,
    options.offline, options.refresh⟩

def repositoriesOf (settings : Settings) (projectDir : Path) : Repositories :=
  ⟨settings.repositories.map (Repository.ofSettings · projectDir), settings.cache.dir⟩

/-- The failure of a resolution. -/
def resolutionFailure (c : Coordinate) (e : ResolveError) : Failure :=
  .resolution c.text e.message

/-- Resolves a coordinate, and goes on with the resolver that remembers it. -/
def resolve (repositories : Repositories) (resolver : CachingResolver) (c : Coordinate) :
    StateM Host (Except Failure Artifact × CachingResolver) :=
  fun host =>
    let ((result, resolver), host) := resolver.resolve repositories.resolve c host
    ((result.mapError (resolutionFailure c), resolver), host)

/-- Chooses the launcher and asks for its version if the settings want that. -/
def chooseLauncher (settings : JavaSettings) : Action Failure Launcher := do
  let launcher ← Action.ask (Launcher.select settings)
  if settings.checkVersion then launcher.verify settings.languageVersion
  return launcher

/-- What is settled before anything is resolved. -/
def prepare (files : FileTree) (options : SetupOptions) :
    Except SetupError (Settings × ModuleName × Flags × Coordinate) := do
  let settings ← (Settings.load files options.projectDir options.settingsFile).mapError .settings
  settings.validate.mapError .failure
  let module ← settings.module?.mapError SetupError.failure
  let flags ← (Flags.ofSettings module settings.execution).mapError SetupError.failure
  let dependency ← settings.dependency?.mapError SetupError.failure
  return (settings, module, flags, dependency)

def setUp (options : SetupOptions) : Action SetupError Session :=
  fun host =>
    match prepare host.files options with
    | .error e => (.error e, host)
    | .ok (settings, module, flags, coordinate) =>
      let repositories := repositoriesOf settings options.projectDir
      let resolver :=
        CachingResolver.start (policyOf settings options) (Cache.load host.files settings.cache.dir)
      match resolve repositories resolver coordinate host with
      | ((.error f, _), host) => (.error (.failure f), host)
      | ((.ok dependency, resolver), host) =>
        match chooseLauncher settings.java host with
        | (.error f, host) => (.error (.failure f), host)
        | (.ok launcher, host) =>
          (.ok ⟨settings, module, flags, launcher, repositories, resolver, dependency⟩, host)

/-- The directories that are there. -/
def existing (files : FileTree) (dirs : List Path) : Classpath :=
  Classpath.empty.pushAll (dirs.filter files.exists?)

/-- The class directories that are there, and the module's jar behind them. -/
def runtimeClasspath (s : Session) (files : FileTree) : Classpath :=
  (existing files s.settings.project.classes).push s.dependency.path

/-- A run task with the classpath as it is now. -/
def runTask (s : Session) (files : FileTree) : Except Failure RunTask := do
  let task ← RunTask.make s.module s.flags
  task.materialize (s.runtimeClasspath files) s.launcher

def benchmarkTask (s : Session) (files : FileTree) : Except Failure BenchmarkTask := do
  BenchmarkTask.ofRunTask (← s.runTask files)

def run (s : Session) (arguments : List String) : Action Failure TaskOutcome :=
  fun host =>
    match s.runTask host.files with
    | .error f => (.error f, host)
    | .ok task =>
      let ((result, _), host) := task.run arguments host
      (result, host)

def runBenchmarks (s : Session) : Action Failure TaskOutcome :=
  fun host =>
    match s.benchmarkTask host.files with
    | .error f => (.error f, host)
    | .ok task =>
      let ((result, _), host) := task.run host
      (result, host)

/-- The test task over the classpath as it is now. -/
def testTaskWith (s : Session) (files : FileTree) (console : Path) (options : TestOptions) :
    Except Failure TestTask :=
  let roots := existing files s.settings.test.classes
  let classpath := roots.pushAll (s.runtimeClasspath files).entries
  TestTask.make console roots classpath s.launcher s.flags options

/-- Resolves the console launcher and makes the test task. The session remembers the resolution, and
time has passed since its last one. -/
def testTask (s : Session) (options : TestOptions) :
    StateM Host (Except Failure TestTask × Session) :=
  fun host =>
    match s.settings.testLauncher? with
    | .error f => ((.error f, s), host)
    | .ok c =>
      match resolve s.repositories s.resolver c host.passed with
      | ((.error f, resolver), host) => ((.error f, { s with resolver }), host)
      | ((.ok console, resolver), host) =>
        ((s.testTaskWith host.files console.path options, { s with resolver }), host)

def test {σ : Type} (s : Session) (options : TestOptions) (reporter : Reporter σ) (state : σ) :
    StateM Host (Except Failure Report × Session × σ) :=
  fun host =>
    match s.testTask options host with
    | ((.error f, s), host) => ((.error f, s, state), host)
    | ((.ok task, s), host) =>
      let ((result, _, state), host) := task.run reporter state host
      ((result, s, state), host)

end Session

end ModuleRig
