import ModuleRig.Proofs.Basic
import ModuleRig.Proofs.Host.Steps
import ModuleRig.Task.Run
import ModuleRig.Task.Test

/-!
# One run of a task

A lifecycle lets its task run once. `Runs` is all that a run can do to it, and says that at most one
child is started. A run that is refused leaves everything as it was.
-/

namespace ModuleRig

/-- How many children a task in the state may still start. -/
def TaskState.startsLeft : TaskState → Nat
  | .unconfigured => 1
  | .configured => 1
  | .running => 0
  | .succeeded => 0
  | .failed => 0

theorem TaskState.startsLeft_le_one (s : TaskState) : s.startsLeft ≤ 1 := by
  cases s <;> decide

theorem TaskState.startsLeft_ofExitCode (code : Int) : (ofExitCode code).startsLeft = 0 := by
  unfold ofExitCode
  split <;> rfl

theorem TaskState.canMove_configured_iff {s : TaskState} :
    s.canMove .configured = true ↔ s = .unconfigured := by
  cases s <;> decide

theorem TaskState.canMove_running_iff {s : TaskState} :
    s.canMove .running = true ↔ s = .configured := by
  cases s <;> decide

/-! ## Starting a child -/

namespace Invocation

/-- The children that an attempt to run the invocation may start: none, or one with its command
line. -/
def Starts (i : Invocation) (children : List (List String)) : Prop :=
  children = [] ∨ ∃ line, i.commandLine = .ok line ∧ children = [line]

theorem Starts.length_le {i : Invocation} {children : List (List String)} (h : i.Starts children) :
    children.length ≤ 1 := by
  obtain rfl | ⟨line, -, rfl⟩ := h
  · exact Nat.zero_le 1
  · exact Nat.le_refl 1

theorem Starts.commandLine_of_mem {i : Invocation} {children : List (List String)}
    {line : List String} (h : i.Starts children) (hmem : line ∈ children) :
    i.commandLine = .ok line := by
  obtain rfl | ⟨line', hline, rfl⟩ := h
  · cases hmem
  · rw [List.mem_singleton.1 hmem]
    exact hline

end Invocation

theorem Action.launch_cases (name : Path) (line : List String) (host : Host) :
    (∃ e, launch name line host = (.error e, host)) ∨
      ∃ child, launch name line host =
        (.ok child, { host with launches := host.launches ++ [line] }) := by
  unfold launch
  split
  · exact .inl ⟨_, rfl⟩
  · split
    · exact .inl ⟨_, rfl⟩
    · exact .inr ⟨_, rfl⟩

theorem Launcher.start_cases (l : Launcher) (line : List String) (host : Host) :
    (∃ e, l.start line host = (.error e, host)) ∨
      ∃ child, l.start line host =
        (.ok child, { host with launches := host.launches ++ [line] }) := by
  unfold start Action.mapError
  obtain ⟨e, h⟩ | ⟨child, h⟩ := Action.launch_cases l.program line host
  · rw [h]
    exact .inl ⟨_, rfl⟩
  · rw [h]
    exact .inr ⟨_, rfl⟩

/-- A child is started with the arguments, and its end is told. -/
def Launcher.Finishes (l : Launcher) (line : List String) (host : Host) (child : ChildRun) :
    Prop :=
  (l.start line host).1 = .ok child ∧ host.waitError? line = none

theorem Launcher.Finishes.unique {l : Launcher} {line : List String} {host : Host}
    {child child' : ChildRun} (h : l.Finishes line host child) (h' : l.Finishes line host child') :
    child = child' :=
  Except.ok.inj (h.1.symm.trans h'.1)

theorem Launcher.await_of_none (l : Launcher) {line : List String} {host : Host}
    (h : host.waitError? line = none) : l.await line host = (.ok (), host) := by
  unfold await Action.mapError Action.await
  rw [h]
  rfl

theorem Launcher.await_of_some (l : Launcher) {line : List String} {host : Host}
    {cause : SystemError} (h : host.waitError? line = some cause) :
    l.await line host = (.error (.launch l.program.spelling cause), host) := by
  unfold await Action.mapError Action.await
  rw [h]
  rfl

theorem Launcher.left_await (l : Launcher) (line : List String) (host : Host) :
    (l.await line host).2 = host := by
  cases h : host.waitError? line with
  | none => rw [l.await_of_none h]
  | some cause => rw [l.await_of_some h]

theorem Launcher.Finishes.start_eq {l : Launcher} {line : List String} {host : Host}
    {child : ChildRun} (h : l.Finishes line host child) :
    l.start line host = (.ok child, { host with launches := host.launches ++ [line] }) := by
  have hchild := h.1
  obtain ⟨e, hstart⟩ | ⟨child', hstart⟩ := l.start_cases line host
  · rw [hstart] at hchild
    cases hchild
  · rw [hstart] at hchild
    rw [hstart, ← Except.ok.inj hchild]

theorem Invocation.run_of_start {i : Invocation} {line : List String} {host : Host}
    {child : ChildRun} (hline : i.commandLine = .ok line)
    (hstart : i.launcher.start line host =
      (.ok child, { host with launches := host.launches ++ [line] })) :
    i.run host = ((i.launcher.await line host).1.map fun _ => child.status.exitCode,
      { host with
        launches := host.launches ++ [line]
        output := ⟨host.output.stdout ++ child.stdout, host.output.stderr ++ child.stderr⟩ }) := by
  have hcommand : (Action.ofExcept i.commandLine : Action Failure _) host = (.ok line, host) := by
    rw [hline]
    rfl
  have hrelay : (Action.relay child.stdout child.stderr : Action Failure Unit)
      { host with launches := host.launches ++ [line] } = (.ok (), _) := rfl
  rw [run, Action.bind_of_ok _ hcommand, Action.bind_of_ok _ hstart, Action.bind_of_ok _ hrelay]
  cases hwait : host.waitError? line with
  | none =>
    rw [i.launcher.await_of_none hwait]
    exact Action.bind_of_ok _ (i.launcher.await_of_none hwait)
  | some cause =>
    rw [i.launcher.await_of_some hwait]
    exact Action.bind_of_error _ (i.launcher.await_of_some hwait)

theorem Invocation.run_starts (i : Invocation) (host : Host) :
    ∃ children, (i.run host).2.launches = host.launches ++ children ∧ i.Starts children := by
  unfold run
  cases hline : i.commandLine with
  | error e =>
    rw [Action.bind_of_error _ (by rfl)]
    exact ⟨[], (List.append_nil _).symm, .inl rfl⟩
  | ok line =>
    obtain ⟨e, hstart⟩ | ⟨child, hstart⟩ := i.launcher.start_cases line host
    · rw [Action.bind_of_ok _ (by rfl), Action.bind_of_error _ hstart]
      exact ⟨[], (List.append_nil _).symm, .inl rfl⟩
    · have hrun := i.run_of_start hline hstart
      rw [run, hline] at hrun
      rw [hrun]
      exact ⟨[line], rfl, .inr ⟨line, hline, rfl⟩⟩

/-! ## Running once -/

namespace Lifecycle

/-- A run leads from a configured task to one that never starts a child again. -/
structure Runs (here : Lifecycle) (i : Invocation) (children : List (List String))
    (there : Lifecycle) : Prop where
  configured : here.state = .configured
  spent : there.state.startsLeft = 0
  starts : i.Starts children

theorem Runs.startsLeft_le {here there : Lifecycle} {i : Invocation}
    {children : List (List String)} (h : here.Runs i children there) :
    children.length + there.state.startsLeft ≤ here.state.startsLeft := by
  rw [h.spent, h.configured]
  exact h.starts.length_le

theorem runOnce_cases (l : Lifecycle) (i : Invocation) (host : Host) :
    (∃ e, l.runOnce i host = ((.error e, l), host)) ∨
      ∃ result ended left children, l.runOnce i host = ((result, ended), left) ∧
        left.launches = host.launches ++ children ∧ l.Runs i children ended := by
  unfold runOnce
  split
  · exact .inl ⟨_, rfl⟩
  · next running hmove =>
    rw [move_eq_ok_iff, TaskState.canMove_running_iff] at hmove
    obtain ⟨hconfigured, rfl⟩ := hmove
    obtain ⟨children, hlaunches, hstarts⟩ := i.run_starts host
    right
    split
    · next e left hrun =>
      rw [hrun] at hlaunches
      exact ⟨_, _, _, children, rfl, hlaunches, hconfigured, rfl, hstarts⟩
    · next code left hrun =>
      rw [hrun] at hlaunches
      split
      · exact ⟨_, _, _, children, rfl, hlaunches, hconfigured, rfl, hstarts⟩
      · next ended hfinish =>
        rw [finish, move_eq_ok_iff] at hfinish
        obtain ⟨-, rfl⟩ := hfinish
        refine ⟨_, _, _, children, rfl, hlaunches, hconfigured, ?_, hstarts⟩
        exact TaskState.startsLeft_ofExitCode _

end Lifecycle

/-! ## What a task is given -/

namespace RunTask

/-- The invocation starts the task's module by what the task was given. -/
structure Equips (t : RunTask) (i : Invocation) : Prop where
  inputs : t.inputs = some ⟨i.classpath, i.launcher⟩
  target : i.target = .module t.module
  flags : i.flags = t.flags

theorem make_eq_ok {module : ModuleName} {flags : Flags} {t : RunTask}
    (h : make module flags = .ok t) : t = ⟨module, flags, none, .start taskName⟩ := by
  obtain ⟨-, -, h⟩ := exists_of_bind_eq_ok h
  cases h
  rfl

theorem materialize_eq_ok_iff {t next : RunTask} {classpath : Classpath} {launcher : Launcher} :
    t.materialize classpath launcher = .ok next ↔
      classpath.isEmpty = false ∧ t.lifecycle.state = .unconfigured ∧
      next = { t with
        lifecycle := { t.lifecycle with state := .configured }
        inputs := some ⟨classpath, launcher⟩ } := by
  unfold materialize
  split
  · next hempty => simp [hempty]
  · next hempty =>
    rw [Bool.not_eq_true] at hempty
    constructor
    · intro h
      obtain ⟨lifecycle, hmove, h⟩ := exists_of_bind_eq_ok h
      rw [Lifecycle.move_eq_ok_iff, TaskState.canMove_configured_iff] at hmove
      obtain ⟨hstate, rfl⟩ := hmove
      cases h
      exact ⟨hempty, hstate, rfl⟩
    · rintro ⟨-, hstate, rfl⟩
      rw [Lifecycle.move_eq_ok_iff.2 ⟨TaskState.canMove_configured_iff.2 hstate, rfl⟩]
      rfl

/-- Moves the lifecycle of a task that is changed in place. -/
def moveInPlace (wanted : TaskState) : ExceptT Failure (StateM RunTask) Unit :=
  fun t =>
    match t.lifecycle.move wanted with
    | .error e => (.error e, t)
    | .ok lifecycle => (.ok (), { t with lifecycle })

/-- The steps of `materialize` on a task that is changed in place. What was done before a failure
would stay. -/
def materializeInPlace (classpath : Classpath) (launcher : Launcher) :
    ExceptT Failure (StateM RunTask) Unit := do
  if classpath.isEmpty then throw (.configuration "runtime classpath is empty")
  moveInPlace .configured
  modify ({ · with inputs := some ⟨classpath, launcher⟩ })

theorem materializeInPlace_eq (t : RunTask) (classpath : Classpath) (launcher : Launcher) :
    materializeInPlace classpath launcher t =
      match t.materialize classpath launcher with
      | .error e => (.error e, t)
      | .ok next => (.ok (), next) := by
  unfold materializeInPlace materialize
  cases classpath.isEmpty with
  | true => rfl
  | false =>
    simp only [Bool.false_eq_true, if_false, moveInPlace, bind, ExceptT.bind, ExceptT.mk,
      StateT.bind]
    cases t.lifecycle.move .configured with
    | error e => rfl
    | ok l => rfl

theorem equips_of_invocation {t : RunTask} {arguments : List String} {i : Invocation}
    (h : t.invocation arguments = .ok i) : t.Equips i := by
  unfold invocation at h
  split at h
  · cases h
  · next hinputs =>
    cases h
    exact ⟨hinputs, rfl, rfl⟩

theorem run_cases (t : RunTask) (arguments : List String) (host : Host) :
    (∃ e, t.run arguments host = ((.error e, t), host)) ∨
      ∃ i result ended left children,
        t.run arguments host = ((result, { t with lifecycle := ended }), left) ∧
        left.launches = host.launches ++ children ∧ t.Equips i ∧
        t.lifecycle.Runs i children ended := by
  unfold run
  cases hi : t.invocation arguments with
  | error e => exact .inl ⟨e, rfl⟩
  | ok i =>
    obtain ⟨e, h⟩ | ⟨result, ended, left, children, h, hlaunches, hruns⟩ :=
      t.lifecycle.runOnce_cases i host
    · simp only [h]
      exact .inl ⟨e, rfl⟩
    · simp only [h]
      exact .inr ⟨i, result, ended, left, children, rfl, hlaunches, equips_of_invocation hi, hruns⟩

end RunTask

namespace BenchmarkTask

theorem ofRunTask_eq_ok {t : RunTask} {b : BenchmarkTask} (h : ofRunTask t = .ok b) :
    t.Equips b.invocation ∧ b.lifecycle.state = .configured := by
  unfold ofRunTask at h
  split at h
  · cases h
  · next hinputs =>
    obtain ⟨lifecycle, hmove, h⟩ := exists_of_bind_eq_ok h
    obtain ⟨-, rfl⟩ := Lifecycle.move_eq_ok_iff.1 hmove
    cases h
    exact ⟨⟨hinputs, rfl, rfl⟩, rfl⟩

theorem run_cases (t : BenchmarkTask) (host : Host) :
    (∃ e, t.run host = ((.error e, t), host)) ∨
      ∃ result ended left children, t.run host = ((result, { t with lifecycle := ended }), left) ∧
        left.launches = host.launches ++ children ∧
        t.lifecycle.Runs t.invocation children ended := by
  unfold run
  obtain ⟨e, h⟩ | ⟨result, ended, left, children, h, hlaunches, hruns⟩ :=
    t.lifecycle.runOnce_cases t.invocation host
  · simp only [h]
    exact .inl ⟨e, rfl⟩
  · simp only [h]
    exact .inr ⟨result, ended, left, children, rfl, hlaunches, hruns⟩

end BenchmarkTask

theorem TestTask.make_eq_ok {console : Path} {roots classpath : Classpath} {launcher : Launcher}
    {flags : Flags} {options : TestOptions} {t : TestTask}
    (h : make console roots classpath launcher flags options = .ok t) :
    ∃ arguments, consoleArguments roots classpath options = .ok arguments ∧
      t = ⟨⟨taskName, classpath, launcher, .jar console, arguments, flags⟩,
        ⟨taskName, .configured⟩⟩ := by
  unfold make at h
  split at h
  · cases h
  · obtain ⟨arguments, harguments, h⟩ := exists_of_bind_eq_ok h
    obtain ⟨lifecycle, hmove, h⟩ := exists_of_bind_eq_ok h
    obtain ⟨-, rfl⟩ := Lifecycle.move_eq_ok_iff.1 hmove
    cases h
    exact ⟨arguments, harguments, rfl⟩

end ModuleRig
