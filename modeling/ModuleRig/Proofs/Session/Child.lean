import ModuleRig.Proofs.Command.Verbatim
import ModuleRig.Proofs.Session.Offline
import ModuleRig.Proofs.Session.Tasks

/-!
# The child that runs the module

Between the command line and the child the arguments pass through a session, a task and an
invocation. Each of them hands them on: `StartsOne` says which child comes of it, and
`arguments_arrive_verbatim` that its arguments end with those behind the double dash.
-/

namespace ModuleRig

/-- From one host to the other a child was started with these arguments, if the launcher can be
started with them, and no other child. -/
structure Launcher.StartsOne (l : Launcher) (line : List String) (host left : Host) : Prop where
  started : ∀ child, (l.start line host).1 = .ok child → left.launches = host.launches ++ [line]
  refused : ∀ f, (l.start line host).1 = .error f → left.launches = host.launches

variable {line : List String} {host left : Host}

theorem Launcher.StartsOne.of_launches {l : Launcher} (h : l.StartsOne line host left)
    {left' : Host} (hleft : left'.launches = left.launches) : l.StartsOne line host left' where
  started child hstart := hleft.trans (h.started child hstart)
  refused f hstart := hleft.trans (h.refused f hstart)

theorem Invocation.startsOne_run {i : Invocation} (hline : i.commandLine = .ok line)
    (host : Host) : i.launcher.StartsOne line host (i.run host).2 := by
  obtain ⟨f, hstart⟩ | ⟨child, hstart⟩ := i.launcher.start_cases line host
  · rw [run, hline, Action.bind_of_ok _ (by rfl), Action.bind_of_error _ hstart]
    refine ⟨fun child h => ?_, fun _ _ => rfl⟩
    rw [hstart] at h
    cases h
  · rw [i.run_of_start hline hstart]
    refine ⟨fun _ _ => rfl, fun f h => ?_⟩
    rw [hstart] at h
    cases h

theorem Lifecycle.startsOne_runOnce {l : Lifecycle} {i : Invocation}
    (hstate : l.state = .configured) (hline : i.commandLine = .ok line) (host : Host) :
    i.launcher.StartsOne line host (l.runOnce i host).2 := by
  have hstarts := i.startsOne_run hline host
  have hmove := move_eq_ok_iff.2 ⟨TaskState.canMove_running_iff.2 hstate, rfl⟩
  rw [runOnce, hmove]
  rcases hrun : i.run host with ⟨result, left⟩
  rw [hrun] at hstarts
  cases result with
  | error f => exact hstarts
  | ok code =>
    dsimp only
    split <;> exact hstarts

namespace Session

variable {s : Session}

theorem startsOne_run (h : s.Ready) {classpath : String}
    (hclasspath : (s.runtimeClasspath host.files).argument = .ok classpath)
    (arguments : List String) :
    s.launcher.StartsOne (s.moduleLine arguments classpath) host (s.run arguments host).2 := by
  have hline := runLine_eq h host.files arguments
  rw [hclasspath, runLine, runTask_eq h] at hline
  have hstate : Lifecycle.state ⟨RunTask.taskName, .configured⟩ = .configured := rfl
  rw [run, runTask_eq h]
  exact Lifecycle.startsOne_runOnce hstate hline host

end Session

namespace Program

variable {arguments given : List String} {line : CommandLine} {session : Session}

theorem launches_runCommand (s : Session) (arguments : List String) (host : Host) :
    (runCommand s (.run arguments) host).2.launches = (s.run arguments host).2.launches := by
  rw [runCommand]
  rcases hrun : s.run arguments host with ⟨_ | outcome, left⟩
  · rw [Action.bind_of_error _ hrun]
  · rw [Action.bind_of_ok _ hrun]
    rfl

theorem startsOne_start (hparse : CommandLine.parse given = .ok line)
    (hcommand : line.command = .run arguments)
    (hsetUp : Session.setUp (optionsOf line) host = (.ok session, left)) {classpath : String}
    (hclasspath : (session.runtimeClasspath left.files).argument = .ok classpath) :
    session.launcher.StartsOne (session.moduleLine arguments classpath) left
      (start given host).2 := by
  refine (Session.startsOne_run (Session.ready_of_setUp hsetUp) hclasspath
    arguments).of_launches ?_
  obtain ⟨output, hleft⟩ := run_left line host
  rw [start, hparse]
  show (run line host).2.launches = _
  rw [hleft, execute_of_setUp hsetUp, hcommand]
  exact launches_runCommand session arguments left

open Arguments

/-- The arguments behind `run` and a double dash are those of the command, and no option among them
counts. The child that runs the module is started with the flags, the classpath, the module and just
these arguments, by the program and by any session. -/
theorem arguments_arrive_verbatim {front : List String}
    (hsplit : splitAtCommand? false (front ++ [runName]) = some (front, []))
    (h : CommandLine.parse (front ++ [runName]) = .ok line) (arguments : List String) :
    (line.command = .run [] ∧ CommandLine.parse (front ++ runName :: doubleDash :: arguments) =
      .ok { line with command := .run arguments }) ∧
    (∀ host session left classpath,
      Session.setUp (optionsOf line) host = (.ok session, left) →
      (session.runtimeClasspath left.files).argument = .ok classpath →
      session.launcher.StartsOne (session.flags.arguments ++
          ["--module-path", classpath, "-m", session.module.text] ++ arguments)
        left (start (front ++ runName :: doubleDash :: arguments) host).2) ∧
    ∀ options host session left, Session.setUp options host = (.ok session, left) →
      ∀ s, session.Later s → ∀ now classpath,
        (s.runtimeClasspath now.files).argument = .ok classpath →
        s.launcher.StartsOne (s.flags.arguments ++
            ["--module-path", classpath, "-m", s.module.text] ++ arguments)
          now (s.run arguments now).2 := by
  obtain ⟨hrun, hparse⟩ := parse_run hsplit h
  refine ⟨⟨hrun, hparse arguments⟩, ?_, ?_⟩
  · intro host session left classpath hsetUp hclasspath
    exact startsOne_start (hparse arguments) rfl hsetUp hclasspath
  · intro options host session left hsetUp s hlater now classpath hclasspath
    have hready := (Session.ready_of_setUp hsetUp).of_agrees hlater.agrees
    exact Session.startsOne_run hready hclasspath arguments

def sampleFront : List String := ["--project-dir", ".", "--debug"]

def sampleRun : CommandLine := ⟨none, ".", false, false, true, .run []⟩

theorem arguments_arrive_verbatim_of_lookalikes :
    splitAtCommand? false (sampleFront ++ [runName]) = some (sampleFront, []) ∧
    CommandLine.parse (sampleFront ++ [runName]) = .ok sampleRun ∧
    ∃ before classpath, (start (sampleFront ++ runName :: doubleDash :: Session.completeArguments)
        Session.completeHost).2.launches = before ++ [["--enable-native-access=a.B",
          "--module-path", classpath, "-m", "a.B", "--offline", "", "--", "test"]] := by
  have hsplit : splitAtCommand? false (sampleFront ++ [runName]) = some (sampleFront, []) := by
    decide
  have hparse : CommandLine.parse (sampleFront ++ [runName]) = .ok sampleRun := by rfl
  obtain ⟨session, left, line, hsetUp, hflags, hmodule, hline, ⟨child, hstart⟩, -⟩ :=
    Session.exists_completeSession
  obtain ⟨classpath, hclasspath, rfl⟩ :=
    Session.exists_of_runLine_eq_ok (Session.ready_of_setUp hsetUp) hline
  have hchild := (arguments_arrive_verbatim hsplit hparse Session.completeArguments).2.1
    Session.completeHost session left classpath hsetUp hclasspath
  have hlaunches := hchild.started child hstart
  rw [hflags, hmodule] at hlaunches
  exact ⟨hsplit, hparse, left.launches, classpath, hlaunches⟩

end Program

end ModuleRig
