import ModuleRig.Proofs.Session.Offline
import ModuleRig.Proofs.Session.Tasks
import ModuleRig.Proofs.Task.Stranded
import ModuleRig.Proofs.Task.WaitStatus

/-!
# The exit code of the module

A command that runs the module starts one child, and the process ends with the exit code of that
child: `exit_code_relayed`. Without a child that is seen to its end it ends with 2, so it never ends
with 0 for any other reason than that the module did.
-/

namespace ModuleRig

/-- The arguments that the command has for the module, if it runs the module. -/
def Command.moduleArguments? : Command → Option (List String)
  | .run arguments => some arguments
  | .benchmarks => some [BenchmarkTask.noTestsFlag]
  | .test _ _ => none

namespace Lifecycle

variable {l : Lifecycle} {i : Invocation} {host : Host} {child : ChildRun}

theorem runOnce_of_gets (hstate : l.state = .configured) (h : i.Gets host child) :
    (l.runOnce i host).1 = (.ok ⟨l.task, child.status.exitCode⟩,
      { l with state := .ofExitCode child.status.exitCode }) := by
  have hmove := move_eq_ok_iff.2 ⟨TaskState.canMove_running_iff.2 hstate, rfl⟩
  obtain ⟨hnone, -⟩ | ⟨child', left, hchild, hrun⟩ := i.run_eq host
  · exact absurd h (hnone child)
  · obtain rfl := h.unique hchild
    simp only [runOnce, hmove, hrun, TestTask.finish_running]

theorem runOnce_of_not_gets (hstate : l.state = .configured)
    (h : ∀ child, ¬ i.Gets host child) :
    ∃ f, (l.runOnce i host).1 = (.error f, { l with state := .running }) := by
  have hmove := move_eq_ok_iff.2 ⟨TaskState.canMove_running_iff.2 hstate, rfl⟩
  obtain ⟨-, f, left, hrun⟩ | ⟨child, left, hchild, -⟩ := i.run_eq host
  · exact ⟨f, by simp only [runOnce, hmove, hrun]⟩
  · exact absurd hchild (h child)

end Lifecycle

theorem TaskState.ofExitCode_eq_succeeded_iff {code : Nat} :
    ofExitCode code = .succeeded ↔ code = 0 := by
  unfold ofExitCode
  split
  · next h => simpa using h
  · next h => simpa using h

namespace Session

variable {s : Session} {command : Command} {arguments : List String} {host : Host}
  {child : ChildRun}

/-- The child that is started for the module with the arguments, and that is seen to its end. -/
def StartsChild (s : Session) (arguments : List String) (host : Host) (child : ChildRun) : Prop :=
  ∃ classpath, (s.runtimeClasspath host.files).argument = .ok classpath ∧
    s.launcher.Finishes (s.moduleLine arguments classpath) host child

theorem StartsChild.unique {child' : ChildRun} (h : s.StartsChild arguments host child)
    (h' : s.StartsChild arguments host child') : child = child' := by
  obtain ⟨classpath, hclasspath, hfinishes⟩ := h
  obtain ⟨classpath', hclasspath', hfinishes'⟩ := h'
  obtain rfl := Except.ok.inj (hclasspath.symm.trans hclasspath')
  exact hfinishes.unique hfinishes'

/-- The state in which a command leaves the task that it makes for the module. -/
def taskState? (s : Session) (command : Command) (host : Host) : Option TaskState :=
  match command with
  | .run arguments =>
    (s.runTask host.files).toOption.map fun task => (task.run arguments host).1.2.lifecycle.state
  | .benchmarks =>
    (s.benchmarkTask host.files).toOption.map fun task => (task.run host).1.2.lifecycle.state
  | .test _ _ => none

/-- How a task of the session starts the module. -/
def moduleInvocation (s : Session) (files : FileTree) (task : String) (arguments : List String) :
    Invocation :=
  ⟨task, s.runtimeClasspath files, s.launcher, .module s.module, arguments, s.flags⟩

theorem commandLine_moduleInvocation (s : Session) (files : FileTree) (task : String)
    (arguments : List String) : (s.moduleInvocation files task arguments).commandLine =
      (s.runtimeClasspath files).argument.map (s.moduleLine arguments) := by
  unfold Invocation.commandLine Invocation.targetArguments moduleInvocation
  dsimp only
  cases (s.runtimeClasspath files).argument with
  | error f => rfl
  | ok classpath => rfl

theorem gets_moduleInvocation_iff (task : String) :
    (s.moduleInvocation host.files task arguments).Gets host child ↔
      s.StartsChild arguments host child := by
  unfold Invocation.Gets StartsChild
  rw [commandLine_moduleInvocation]
  constructor
  · rintro ⟨line, hline, hstart⟩
    obtain ⟨classpath, hclasspath, rfl⟩ := map_eq_ok_iff.1 hline
    exact ⟨classpath, hclasspath, hstart⟩
  · rintro ⟨classpath, hclasspath, hstart⟩
    exact ⟨_, map_eq_ok_iff.2 ⟨classpath, hclasspath, rfl⟩, hstart⟩

theorem result_exitCode (x : Action Failure TaskOutcome) (host : Host) :
    ((do return (← x).exitCode : Action Failure Nat) host).1 =
      (x host).1.map TaskOutcome.exitCode := by
  rcases hrun : x host with ⟨_ | outcome, left⟩
  · rw [Action.bind_of_error _ hrun]
    rfl
  · rw [Action.bind_of_ok _ hrun]
    rfl

theorem runCommand_eq (h : s.Ready) (hcommand : command.moduleArguments? = some arguments)
    (host : Host) :
    ∃ task result ended left,
      (⟨task, .configured⟩ : Lifecycle).runOnce
        (s.moduleInvocation host.files task arguments) host = ((result, ended), left) ∧
      (Program.runCommand s command host).1 = result.map TaskOutcome.exitCode ∧
      s.taskState? command host = some ended.state := by
  cases command with
  | run given =>
    obtain rfl := Option.some.inj hcommand
    refine ⟨RunTask.taskName, _, _, _, rfl, ?_, ?_⟩
    · rw [Program.runCommand, result_exitCode, run, runTask_eq h]
      rfl
    · rw [taskState?, runTask_eq h]
      rfl
  | benchmarks =>
    obtain rfl := Option.some.inj hcommand
    refine ⟨BenchmarkTask.taskName, _, _, _, rfl, ?_, ?_⟩
    · rw [Program.runCommand, result_exitCode, runBenchmarks, benchmarkTask_eq h]
      rfl
    · rw [taskState?, benchmarkTask_eq h]
      rfl
  | test options format => cases hcommand

theorem runCommand_of_child (h : s.Ready) (hcommand : command.moduleArguments? = some arguments)
    (hchild : s.StartsChild arguments host child) :
    (Program.runCommand s command host).1 = .ok child.status.exitCode ∧
      s.taskState? command host = some (.ofExitCode child.status.exitCode) := by
  obtain ⟨task, result, ended, left, hrun, hresult, hstate⟩ := runCommand_eq h hcommand host
  have hends := Lifecycle.runOnce_of_gets (l := ⟨task, .configured⟩) rfl
    ((gets_moduleInvocation_iff task).2 hchild)
  rw [hrun] at hends
  obtain ⟨rfl, rfl⟩ := Prod.mk.inj hends
  exact ⟨hresult, hstate⟩

theorem runCommand_of_no_child (h : s.Ready)
    (hcommand : command.moduleArguments? = some arguments)
    (hnone : ∀ child, ¬ s.StartsChild arguments host child) :
    (∃ f, (Program.runCommand s command host).1 = .error f) ∧
      s.taskState? command host = some .running := by
  obtain ⟨task, result, ended, left, hrun, hresult, hstate⟩ := runCommand_eq h hcommand host
  have hgets : ∀ child, ¬ (s.moduleInvocation host.files task arguments).Gets host child :=
    fun child hchild => hnone child ((gets_moduleInvocation_iff task).1 hchild)
  obtain ⟨f, hends⟩ := Lifecycle.runOnce_of_not_gets (l := ⟨task, .configured⟩) rfl hgets
  rw [hrun] at hends
  obtain ⟨rfl, rfl⟩ := Prod.mk.inj hends
  exact ⟨⟨f, hresult⟩, hstate⟩

end Session

namespace Program

variable {given arguments : List String} {line : CommandLine} {host : Host} {child : ChildRun}

/-- A session is set up for the command line and starts the child for its module. -/
def StartsModule (line : CommandLine) (host : Host) (child : ChildRun) : Prop :=
  ∃ session left arguments, Session.setUp (optionsOf line) host = (.ok session, left) ∧
    line.command.moduleArguments? = some arguments ∧ session.StartsChild arguments left child

/-- A session is set up for the command line and its task ends up in the state. -/
def LeavesTask (line : CommandLine) (host : Host) (state : TaskState) : Prop :=
  ∃ session left, Session.setUp (optionsOf line) host = (.ok session, left) ∧
    session.taskState? line.command left = some state

variable {session : Session} {left : Host} {state : TaskState}

theorem startsModule_iff (hsetUp : Session.setUp (optionsOf line) host = (.ok session, left))
    (hcommand : line.command.moduleArguments? = some arguments) :
    StartsModule line host child ↔ session.StartsChild arguments left child := by
  constructor
  · rintro ⟨session', left', arguments', hsetUp', hcommand', hchild⟩
    obtain ⟨⟨⟩, rfl⟩ := Prod.mk.inj (hsetUp.symm.trans hsetUp')
    obtain rfl := Option.some.inj (hcommand.symm.trans hcommand')
    exact hchild
  · intro hchild
    exact ⟨session, left, arguments, hsetUp, hcommand, hchild⟩

theorem leavesTask_iff (hsetUp : Session.setUp (optionsOf line) host = (.ok session, left)) :
    LeavesTask line host state ↔ session.taskState? line.command left = some state := by
  constructor
  · rintro ⟨session', left', hsetUp', hstate⟩
    obtain ⟨⟨⟩, rfl⟩ := Prod.mk.inj (hsetUp.symm.trans hsetUp')
    exact hstate
  · intro hstate
    exact ⟨session, left, hsetUp, hstate⟩

theorem StartsModule.unique {child' : ChildRun} (h : StartsModule line host child)
    (h' : StartsModule line host child') : child = child' := by
  obtain ⟨session, left, arguments, hsetUp, hcommand, hchild⟩ := h
  exact hchild.unique ((startsModule_iff hsetUp hcommand).1 h')

theorem LeavesTask.unique {state' : TaskState} (h : LeavesTask line host state)
    (h' : LeavesTask line host state') : state = state' := by
  obtain ⟨session, left, hsetUp, hstate⟩ := h
  rw [leavesTask_iff hsetUp, hstate] at h'
  exact Option.some.inj h'

theorem processCode_exitCode (status : WaitStatus) :
    processCode status.exitCode = status.exitCode := by
  rw [processCode, if_pos status.exitCode_lt]

theorem result_start_of_ok {code : Nat} (hparse : CommandLine.parse given = .ok line)
    (h : (execute line host).1 = .ok code) :
    (start given host).1 = .finished (processCode code) := by
  rcases hrun : execute line host with ⟨result, left⟩
  obtain rfl : result = .ok code := by rw [← h, hrun]
  rw [start, hparse]
  show Ending.finished (run line host).1 = _
  rw [run, hrun]

theorem result_start_of_error {e : SetupError} (hparse : CommandLine.parse given = .ok line)
    (h : (execute line host).1 = .error e) : (start given host).1 = .finished 2 := by
  rcases hrun : execute line host with ⟨result, left⟩
  obtain rfl : result = .error e := by rw [← h, hrun]
  rw [start_of_error hparse hrun]

theorem result_execute (hsetUp : Session.setUp (optionsOf line) host = (.ok session, left)) :
    (execute line host).1 = (runCommand session line.command left).1.mapError .failure := by
  rw [execute_of_setUp hsetUp]
  rfl

/-- The ways in which a command that runs the module can end. -/
inductive Relays (given : List String) (line : CommandLine) (host : Host) : Prop
  | child (child : ChildRun) (hchild : StartsModule line host child)
    (hcode : (start given host).1 = .finished child.status.exitCode)
    (hstate : LeavesTask line host (.ofExitCode child.status.exitCode))
  | none (hnone : ∀ child, ¬ StartsModule line host child)
    (hcode : (start given host).1 = .finished 2)
    (hstate : ¬ LeavesTask line host .succeeded)

theorem relays_of_parse (hparse : CommandLine.parse given = .ok line)
    (hcommand : line.command.moduleArguments? = some arguments) (host : Host) :
    Relays given line host := by
  rcases hsetUp : Session.setUp (optionsOf line) host with ⟨e | session, left⟩
  · refine .none ?_ ?_ ?_
    · rintro child ⟨session, left', -, hsession, -⟩
      rw [hsetUp] at hsession
      cases hsession
    · exact result_start_of_error hparse (by rw [execute_of_setUp_error hsetUp])
    · rintro ⟨session, left', hsession, -⟩
      rw [hsetUp] at hsession
      cases hsession
  · have hready := Session.ready_of_setUp hsetUp
    have hresult := result_execute hsetUp
    have hstarts (child : ChildRun) :
        StartsModule line host child ↔ session.StartsChild arguments left child :=
      startsModule_iff hsetUp hcommand
    by_cases hchild : ∃ child, session.StartsChild arguments left child
    · obtain ⟨child, hchild⟩ := hchild
      obtain ⟨hcode, hstate⟩ := Session.runCommand_of_child hready hcommand hchild
      refine .child child ((hstarts child).2 hchild) ?_ ((leavesTask_iff hsetUp).2 hstate)
      rw [hcode] at hresult
      rw [result_start_of_ok hparse hresult, processCode_exitCode]
    · rw [not_exists] at hchild
      obtain ⟨⟨f, hcode⟩, hstate⟩ := Session.runCommand_of_no_child hready hcommand hchild
      refine .none (fun child hstarted => hchild child ((hstarts child).1 hstarted)) ?_ ?_
      · rw [hcode] at hresult
        exact result_start_of_error hparse hresult
      · rw [leavesTask_iff hsetUp, hstate]
        exact nofun

/-- Every wait status gives a code that fits a byte, so that nothing is lost when it is passed on:
the second byte of an exit, 128 and the signal of a kill, and otherwise 1. A command that runs the
module ends with the code of its child. It ends with 0, and its task succeeds, just if a child was
started that exited with 0. -/
theorem exit_code_relayed (hparse : CommandLine.parse given = .ok line)
    (hcommand : line.command.moduleArguments? = some arguments) (host : Host) :
    (∀ status : WaitStatus,
      status.exitCode < 256 ∧ processCode status.exitCode = status.exitCode ∧
      (∀ code, status.Exited code → status.exitCode = code) ∧
      (∀ signal, status.Killed signal → status.exitCode = 128 + signal) ∧
      ((∀ code, ¬ status.Exited code) → (∀ signal, ¬ status.Killed signal) →
        status.exitCode = 1)) ∧
    (∀ child, StartsModule line host child →
      (start given host).1 = .finished child.status.exitCode) ∧
    ((start given host).1 = .finished 0 ↔
      ∃ child, StartsModule line host child ∧ child.status.Exited 0) ∧
    (LeavesTask line host .succeeded ↔
      ∃ child, StartsModule line host child ∧ child.status.Exited 0) := by
  refine ⟨?_, ?_⟩
  · intro status
    exact ⟨status.exitCode_lt, processCode_exitCode status,
      fun _ => WaitStatus.exitCode_of_exited, fun _ => WaitStatus.exitCode_of_killed,
      WaitStatus.exitCode_of_neither⟩
  · cases relays_of_parse hparse hcommand host with
    | child child hchild hcode hstate =>
      have hzero : (∃ child, StartsModule line host child ∧ child.status.Exited 0) ↔
          child.status.exitCode = 0 := by
        rw [WaitStatus.exitCode_eq_zero_iff]
        constructor
        · rintro ⟨child', hchild', hexited⟩
          rwa [hchild.unique hchild']
        · intro hexited
          exact ⟨child, hchild, hexited⟩
      refine ⟨?_, ?_, ?_⟩
      · intro child' hchild'
        rw [← hchild.unique hchild']
        exact hcode
      · rw [hzero, hcode, Ending.finished.injEq]
      · rw [hzero, ← TaskState.ofExitCode_eq_succeeded_iff]
        constructor
        · exact hstate.unique
        · intro h
          rwa [h] at hstate
    | none hnone hcode hstate =>
      refine ⟨fun child hchild => absurd hchild (hnone child), ?_, ?_⟩
      · rw [hcode]
        exact iff_of_false nofun fun ⟨child, hchild, _⟩ => hnone child hchild
      · exact iff_of_false hstate fun ⟨child, hchild, _⟩ => hnone child hchild

def sampleBenchmarks : CommandLine := ⟨none, ".", false, false, false, .benchmarks⟩

def killedSettings : String :=
  "[java]\nhome=\"j\"\ncheck_version=false\n[dependency]\ncoordinate=\"g:n:1\"\n" ++
    "[[repository]]\nname=\"\"\nurl=\"r\"\n"

/-- Whatever the launcher starts is killed by signal 11, and core is dumped. -/
def killedHost : Host :=
  { Host.blank with
    files.entries :=
      [(["harness.toml"], .file (Text.Utf8.ofText killedSettings) .plain),
        (["r", "g", "n", "1", "n-1.jar"], .file [] .plain),
        (["j", "bin", "java"], .file [] (.program fun _ => ⟨[], [], ⟨0x8B⟩⟩))] ++
        (["r", "g", "n", "1"].inits.tail ++ ["j", "bin"].inits.tail).map (·, .directory) }

theorem exists_killedChild :
    ∃ child, StartsModule sampleBenchmarks killedHost child ∧ child.status = ⟨0x8B⟩ := by
  have hchild : (Session.setUp (optionsOf sampleBenchmarks) killedHost).1.toOption.any
      (fun session =>
        let left := (Session.setUp (optionsOf sampleBenchmarks) killedHost).2
        (session.runtimeClasspath left.files).argument.toOption.any fun classpath =>
          let line := session.moduleLine [BenchmarkTask.noTestsFlag] classpath
          (left.waitError? line).isNone &&
            (session.launcher.start line left).1.toOption.any (·.status == ⟨0x8B⟩)) = true := by
    decide +kernel
  rcases hsetUp : Session.setUp (optionsOf sampleBenchmarks) killedHost with ⟨result, left⟩
  rw [hsetUp] at hchild
  obtain ⟨session, hsession, hchild⟩ := exists_of_any_toOption hchild
  obtain rfl : result = .ok session := hsession
  obtain ⟨classpath, hclasspath, hchild⟩ := exists_of_any_toOption hchild
  obtain ⟨hwait, hchild⟩ := (Bool.and_eq_true _ _).mp hchild
  obtain ⟨child, hstart, hstatus⟩ := exists_of_any_toOption hchild
  exact ⟨child, ⟨session, left, _, hsetUp, rfl, classpath, hclasspath, hstart,
    Option.isNone_iff_eq_none.1 hwait⟩, eq_of_beq hstatus⟩

theorem exit_code_relayed_of_core_dump :
    CommandLine.parse ["runBenchmarks"] = .ok sampleBenchmarks ∧
    sampleBenchmarks.command.moduleArguments? = some ["--no-tests"] ∧
    (∃ child, StartsModule sampleBenchmarks killedHost child ∧ child.status.Killed 11) ∧
    (start ["runBenchmarks"] killedHost).1 = .finished 139 ∧
    ¬ LeavesTask sampleBenchmarks killedHost .succeeded := by
  have hparse : CommandLine.parse ["runBenchmarks"] = .ok sampleBenchmarks := by rfl
  have hcommand : sampleBenchmarks.command.moduleArguments? = some ["--no-tests"] := rfl
  obtain ⟨hstatus, hcode, hzero, hsucceeds⟩ := exit_code_relayed hparse hcommand killedHost
  obtain ⟨child, hchild, hbits⟩ := exists_killedChild
  have hkilled : child.status.Killed 11 := by
    rw [hbits]
    unfold WaitStatus.Killed
    decide
  have hends : (start ["runBenchmarks"] killedHost).1 = .finished 139 := by
    rw [hcode child hchild, (hstatus child.status).2.2.2.1 11 hkilled]
  refine ⟨hparse, hcommand, ⟨child, hchild, hkilled⟩, hends, ?_⟩
  rw [hsucceeds, ← hzero, hends]
  exact nofun

end Program

end ModuleRig
