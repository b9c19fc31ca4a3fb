import ModuleRig.Proofs.Report.Verdict
import ModuleRig.Proofs.Task.Calls

/-!
# Tasks that stay running

A task moves to running before its child is started, and to its end when the child has ended. If no
child starts, or waiting for it fails, nothing moves it on, and nothing ever will.
`running_iff_stranded` says that a task is running between two calls just if that has happened to
it.
-/

namespace ModuleRig

/-- The invocation starts a child on the host, which leaves what is said, and its end is told. -/
def Invocation.Gets (i : Invocation) (host : Host) (child : ChildRun) : Prop :=
  ∃ line, i.commandLine = .ok line ∧ i.launcher.Finishes line host child

theorem Invocation.gets_iff {i : Invocation} {line : List String} {host : Host} {child : ChildRun}
    (hline : i.commandLine = .ok line) :
    i.Gets host child ↔ i.launcher.Finishes line host child := by
  unfold Gets
  simp only [hline, Except.ok.injEq, exists_eq_left']

theorem Launcher.not_finishes_of_error {l : Launcher} {line : List String} {host left : Host}
    {e : Failure} (h : l.start line host = (.error e, left)) (child : ChildRun) :
    ¬l.Finishes line host child := by
  rintro ⟨hchild, -⟩
  rw [h] at hchild
  cases hchild

theorem Launcher.not_finishes_of_waitError {l : Launcher} {line : List String} {host : Host}
    {cause : SystemError} (h : host.waitError? line = some cause) (child : ChildRun) :
    ¬l.Finishes line host child := by
  rintro ⟨-, hwait⟩
  rw [h] at hwait
  cases hwait

theorem Invocation.run_eq (i : Invocation) (host : Host) :
    ((∀ child, ¬i.Gets host child) ∧ ∃ e left, i.run host = (.error e, left)) ∨
      ∃ child left, i.Gets host child ∧ i.run host = (.ok child.status.exitCode, left) := by
  cases hline : i.commandLine with
  | error e =>
    refine .inl ⟨?_, e, host, ?_⟩
    · rintro child ⟨line, hline', -⟩
      rw [hline] at hline'
      cases hline'
    · rw [run, hline]
      exact Action.bind_of_error _ (by rfl)
  | ok line =>
    simp only [gets_iff hline]
    obtain ⟨e, hstart⟩ | ⟨child, hstart⟩ := i.launcher.start_cases line host
    · refine .inl ⟨Launcher.not_finishes_of_error hstart, e, host, ?_⟩
      rw [run, hline, Action.bind_of_ok _ (by rfl), Action.bind_of_error _ hstart]
    · have hrun := i.run_of_start hline hstart
      cases hwait : host.waitError? line with
      | some cause =>
        rw [i.launcher.await_of_some hwait] at hrun
        exact .inl ⟨Launcher.not_finishes_of_waitError hwait, _, _, hrun⟩
      | none =>
        rw [i.launcher.await_of_none hwait] at hrun
        exact .inr ⟨child, _, ⟨by rw [hstart], hwait⟩, hrun⟩

/-! ## One run -/

/-- What a run of the invocation on the host gives, and where it leads the lifecycle. The exit code
of the task is made from what the child leaves. -/
inductive Lifecycle.Leads {α : Type} (codeOf : ChildRun → Int) (l : Lifecycle) (i : Invocation)
    (host : Host) : Except Failure α → Lifecycle → Prop
  | refused {e : Failure} (hstate : l.state ≠ .configured) : Leads codeOf l i host (.error e) l
  | stranded {e : Failure} (hstate : l.state = .configured)
      (hchild : ∀ child, ¬i.Gets host child) :
      Leads codeOf l i host (.error e) { l with state := .running }
  | ended {result : Except Failure α} {child : ChildRun} (hstate : l.state = .configured)
      (hchild : i.Gets host child) :
      Leads codeOf l i host result { l with state := .ofExitCode (codeOf child) }

/-- The exit code of a task that goes by its child alone. -/
def childCode (child : ChildRun) : Int := child.status.exitCode

theorem Lifecycle.ne_configured_of_move {l : Lifecycle} {e : Failure}
    (h : l.move .running = .error e) : l.state ≠ .configured := by
  intro hstate
  have hmove : l.move .running = .ok { l with state := .running } :=
    move_eq_ok_iff.2 ⟨TaskState.canMove_running_iff.2 hstate, rfl⟩
  rw [hmove] at h
  cases h

theorem Lifecycle.runOnce_leads (l : Lifecycle) (i : Invocation) (host : Host) :
    l.Leads childCode i host (l.runOnce i host).1.1 (l.runOnce i host).1.2 := by
  unfold runOnce
  split
  · next e hmove => exact .refused (ne_configured_of_move hmove)
  · next running hmove =>
    rw [move_eq_ok_iff, TaskState.canMove_running_iff] at hmove
    obtain ⟨hstate, rfl⟩ := hmove
    obtain ⟨hnone, e, left, hrun⟩ | ⟨child, left, hchild, hrun⟩ := i.run_eq host
    · simp only [hrun]
      exact .stranded hstate hnone
    · simp only [hrun, TestTask.finish_running]
      exact .ended hstate hchild

section Leads

variable {α : Type} {codeOf : ChildRun → Int} {l ended : Lifecycle} {i : Invocation} {host : Host}
  {result : Except Failure α}

theorem TaskState.ofExitCode_ne_running (code : Int) : ofExitCode code ≠ .running := by
  unfold ofExitCode
  split <;> decide

theorem Lifecycle.Leads.running_iff (h : l.Leads codeOf i host result ended) :
    ended.state = .running ↔
      l.state = .running ∨ (l.state = .configured ∧ ∀ child, ¬i.Gets host child) := by
  cases h with
  | refused hstate =>
    rw [or_iff_left]
    exact fun h => hstate h.1
  | stranded hstate hchild => exact iff_of_true rfl (.inr ⟨hstate, hchild⟩)
  | ended hstate hchild =>
    refine iff_of_false (TaskState.ofExitCode_ne_running _) ?_
    rintro (h | ⟨-, h⟩)
    · rw [hstate] at h
      cases h
    · exact h _ hchild

theorem Invocation.Gets.unique {child child' : ChildRun} (h : i.Gets host child)
    (h' : i.Gets host child') : child = child' := by
  obtain ⟨line, hline, hfinishes⟩ := h
  exact hfinishes.unique ((gets_iff hline).1 h')

/-- Where a run leads that is let in: to the end by the child, or nowhere, with an error. -/
structure Lifecycle.LetIn (codeOf : ChildRun → Int) (i : Invocation) (host : Host)
    (result : Except Failure α) (state : Option TaskState) : Prop where
  ended : ∀ child, i.Gets host child → state = some (.ofExitCode (codeOf child))
  stranded : (∀ child, ¬i.Gets host child) → state = some .running ∧ ∃ e, result = .error e

theorem Lifecycle.Leads.letIn (h : l.Leads codeOf i host result ended)
    (hstate : l.state = .configured) : LetIn codeOf i host result (some ended.state) := by
  cases h with
  | refused hnot => exact (hnot hstate).elim
  | stranded _ hchild => exact ⟨fun child h => (hchild child h).elim, fun _ => ⟨rfl, _, rfl⟩⟩
  | ended _ hchild =>
    exact ⟨fun child h => by rw [hchild.unique h], fun hnone => (hnone _ hchild).elim⟩

end Leads

/-! ## Any number of runs -/

section Histories

universe u

variable {σ : Type} {κ : Type u}

/-- Some call finds a state that it has to do with. -/
def SomeCall (next : κ → σ → σ) (meets : κ → σ → Prop) : σ → List κ → Prop
  | _, [] => False
  | s, call :: calls => meets call s ∨ SomeCall next meets (next call s) calls

/-- What only a call of the kind brings about, and no call ends, is so just if there was one. -/
theorem holds_iff_someCall {next : κ → σ → σ} {meets : κ → σ → Prop} (sound holds : σ → Prop)
    (hsound : ∀ call s, sound s → sound (next call s))
    (hstep : ∀ call s, sound s → (holds (next call s) ↔ holds s ∨ meets call s))
    {s : σ} (hs : sound s) (hstart : ¬holds s) (calls : List κ) :
    holds (calls.foldl (fun s call => next call s) s) ↔ SomeCall next meets s calls := by
  suffices h : ∀ s, sound s → (holds (calls.foldl (fun s call => next call s) s) ↔
      holds s ∨ SomeCall next meets s calls) by
    rw [h s hs, or_iff_right hstart]
  induction calls with
  | nil => exact fun s _ => (or_iff_left id).symm
  | cons call calls ih =>
    intro s hs
    rw [List.foldl_cons, ih _ (hsound call s hs), hstep call s hs, or_assoc]
    rfl

end Histories

namespace Tasks

def lifecycle? (t : Tasks) : TaskId → Option Lifecycle
  | .run => some t.run.lifecycle
  | .benchmark index => (t.benchmarks[index]?).map (·.lifecycle)

/-- The state of a task, if it is made yet. -/
def state? (t : Tasks) (id : TaskId) : Option TaskState :=
  (t.lifecycle? id).map (·.state)

/-- What a request wants to run. -/
def invocation? (t : Tasks) : Request → Option Invocation
  | .run arguments => (t.run.invocation arguments).toOption
  | .runBenchmark index => (t.benchmarks[index]?).map (·.invocation)
  | _ => none

/-- The call runs a configured task, and no child starts and is seen to its end. -/
def Call.Strands (id : TaskId) (call : Call) (t : Tasks) : Prop :=
  call.request.id? = some id ∧ t.state? id = some .configured ∧
    ∃ i, t.invocation? call.request = some i ∧ ∀ child, ¬i.Gets call.host child

/-- The task was run in some call without a child that was seen to its end. -/
def StrandedIn (id : TaskId) : Tasks → List Call → Prop :=
  SomeCall Call.next (Call.Strands id)

theorem state?_next_of_ne {call : Call} {t : Tasks} {id : TaskId}
    (hid : call.request.id? ≠ some id) :
    (call.next t).state? id = some .running ↔ t.state? id = some .running := by
  obtain ⟨request, host⟩ := call
  obtain ⟨answer, children, next, left, hperform, hstep⟩ := t.perform_step request host
  rw [Call.next, hperform]
  cases hstep with
  | refusal _ => exact Iff.rfl
  | materialize hstate =>
    cases id with
    | run => simp [state?, lifecycle?, hstate]
    | benchmark index => exact Iff.rfl
  | invocation _ => exact Iff.rfl
  | run _ _ _ =>
    cases id with
    | run => exact (hid rfl).elim
    | benchmark index => exact Iff.rfl
  | makeBenchmark _ hstate =>
    cases id with
    | run => exact Iff.rfl
    | benchmark index =>
      by_cases hlt : index < t.benchmarks.length
      · simp [state?, lifecycle?, List.getElem?_append_left hlt]
      · simp only [state?, lifecycle?, List.getElem?_append_right (Nat.le_of_not_lt hlt),
          List.getElem?_eq_none (Nat.le_of_not_lt hlt)]
        cases h : index - t.benchmarks.length <;> simp [hstate]
  | @runBenchmark made _ _ _ _ _ hb _ _ =>
    cases id with
    | run => exact Iff.rfl
    | benchmark index =>
      have hne : made ≠ index := fun h => hid (by rw [h]; rfl)
      simp [state?, lifecycle?, List.getElem?_set_ne hne]

theorem leads_next {call : Call} {t : Tasks} {id : TaskId} {i : Invocation}
    (hid : call.request.id? = some id) (hi : t.invocation? call.request = some i) :
    ∃ l ended result, t.lifecycle? id = some l ∧ (call.next t).lifecycle? id = some ended ∧
      call.answer t = .ended result ∧ l.Leads childCode i call.host result ended := by
  obtain ⟨request, host⟩ := call
  cases request with
  | run arguments =>
    cases hid
    cases hinvocation : t.run.invocation arguments with
    | error e =>
      rw [invocation?, hinvocation] at hi
      cases hi
    | ok i' =>
      rw [invocation?, hinvocation] at hi
      cases hi
      have hleads := t.run.lifecycle.runOnce_leads i host
      rcases hrun : t.run.lifecycle.runOnce i host with ⟨⟨result, ended⟩, left⟩
      rw [hrun] at hleads
      refine ⟨_, ended, result, rfl, ?_, ?_, hleads⟩
      · simp only [Call.next, perform, RunTask.run, hinvocation, hrun, lifecycle?]
      · simp only [Call.answer, perform, RunTask.run, hinvocation, hrun]
  | runBenchmark index =>
    cases hid
    obtain ⟨b, hb, rfl⟩ := Option.map_eq_some_iff.1 hi
    obtain ⟨hlt, -⟩ := List.getElem?_eq_some_iff.1 hb
    have hleads := b.lifecycle.runOnce_leads b.invocation host
    rcases hrun : b.lifecycle.runOnce b.invocation host with ⟨⟨result, ended⟩, left⟩
    rw [hrun] at hleads
    refine ⟨_, ended, result, ?_, ?_, ?_, hleads⟩
    · rw [lifecycle?, hb, Option.map_some]
    · simp only [Call.next, perform, hb, BenchmarkTask.run, hrun, lifecycle?,
        List.getElem?_set_self hlt, Option.map_some]
    · simp only [Call.answer, perform, hb, BenchmarkTask.run, hrun]
  | materialize classpath launcher => cases hid
  | invocation arguments => cases hid
  | makeBenchmark => cases hid

theorem next_of_invocation?_none {call : Call} {t : Tasks} {id : TaskId}
    (hid : call.request.id? = some id) (hi : t.invocation? call.request = none) :
    call.next t = t := by
  obtain ⟨request, host⟩ := call
  cases request with
  | run arguments =>
    cases hinvocation : t.run.invocation arguments with
    | error e => simp only [Call.next, perform, RunTask.run, hinvocation]
    | ok i =>
      rw [invocation?, hinvocation] at hi
      cases hi
  | runBenchmark index =>
    have hb := Option.map_eq_none_iff.1 hi
    simp only [Call.next, perform, hb]
  | materialize classpath launcher => cases hid
  | invocation arguments => cases hid
  | makeBenchmark => cases hid

theorem running_next_iff (id : TaskId) (call : Call) (t : Tasks) :
    (call.next t).state? id = some .running ↔
      t.state? id = some .running ∨ call.Strands id t := by
  by_cases hid : call.request.id? = some id
  · cases hi : t.invocation? call.request with
    | none =>
      rw [next_of_invocation?_none hid hi, or_iff_left]
      rintro ⟨-, -, i, hi', -⟩
      rw [hi] at hi'
      cases hi'
    | some i =>
      obtain ⟨l, ended, result, hl, hended, -, hleads⟩ := leads_next hid hi
      have hrunning := hleads.running_iff
      simp only [Call.Strands, state?, hl, hended, hid, hi, Option.map_some, Option.some.injEq,
        hrunning, true_and, exists_eq_left']
  · rw [state?_next_of_ne hid, or_iff_left]
    exact fun h => hid h.1

theorem Sound.letIn {call : Call} {t : Tasks} {id : TaskId} (hsound : t.Sound)
    (hid : call.request.id? = some id) (hstate : t.state? id = some .configured) :
    ∃ i result, t.invocation? call.request = some i ∧ call.answer t = .ended result ∧
      Lifecycle.LetIn childCode i call.host result ((call.next t).state? id) := by
  have hsome : ∃ i, t.invocation? call.request = some i := by
    obtain ⟨request, host⟩ := call
    cases request with
    | run arguments =>
      cases hid
      have hconfigured : t.run.lifecycle.state = .configured := Option.some.inj hstate
      have hmaterialized := hsound.materialized.2 (by rw [hconfigured]; decide)
      obtain ⟨inputs, hinputs⟩ := Option.isSome_iff_exists.1 hmaterialized
      simp only [invocation?, RunTask.invocation, hinputs]
      exact ⟨_, rfl⟩
    | runBenchmark index =>
      cases hid
      obtain ⟨l, hl, -⟩ := Option.map_eq_some_iff.1 hstate
      obtain ⟨b, hb, -⟩ := Option.map_eq_some_iff.1 hl
      exact ⟨_, by rw [invocation?, hb, Option.map_some]⟩
    | materialize classpath launcher => cases hid
    | invocation arguments => cases hid
    | makeBenchmark => cases hid
  obtain ⟨i, hi⟩ := hsome
  obtain ⟨l, ended, result, hl, hended, hanswer, hleads⟩ := leads_next hid hi
  refine ⟨i, result, hi, hanswer, ?_⟩
  rw [state?, hl] at hstate
  rw [state?, hended]
  exact hleads.letIn (Option.some.inj hstate)

end Tasks

/-! ## Test tasks -/

namespace TestTask

/-- One run of a test task: who is told, and the host that it finds. -/
structure Call : Type 1 where
  Told : Type
  reporter : Reporter Told
  told : Told
  host : Host

namespace Call

def result (call : Call) (t : TestTask) : Except Failure Report :=
  (t.run call.reporter call.told call.host).1.1

/-- The task that the run leaves. -/
def next (call : Call) (t : TestTask) : TestTask :=
  (t.run call.reporter call.told call.host).1.2.1

/-- The run finds the task configured, and no child starts and is seen to its end. -/
def Strands (call : Call) (t : TestTask) : Prop :=
  t.lifecycle.state = .configured ∧ ∀ child, ¬t.invocation.Gets call.host child

end Call

def after (t : TestTask) (calls : List Call) : TestTask :=
  calls.foldl (fun t call => call.next t) t

/-- Some run was without a child that was seen to its end. -/
def StrandedIn : TestTask → List Call → Prop :=
  SomeCall Call.next Call.Strands

/-- The exit code of a test task goes by its report. -/
def reportCode (child : ChildRun) : Int := (reportOf child).exitCode

theorem conclude_running {σ : Type} {t : TestTask} (hstate : t.lifecycle.state = .running)
    (reporter : Reporter σ) (told : σ) (report : Report) :
    (t.conclude reporter told report).2.1 =
      { t with lifecycle := { t.lifecycle with state := .ofExitCode report.exitCode } } := by
  unfold conclude
  rw [finish_running hstate]

theorem run_leads {σ : Type} {t : TestTask} {line : List String}
    (hline : t.invocation.commandLine = .ok line) (reporter : Reporter σ) (told : σ)
    (host : Host) :
    t.lifecycle.Leads reportCode t.invocation host (t.run reporter told host).1.1
        (t.run reporter told host).1.2.1.lifecycle ∧
      (t.run reporter told host).1.2.1.invocation = t.invocation := by
  unfold run
  simp only [hline]
  split
  · next e hmove => exact ⟨.refused (Lifecycle.ne_configured_of_move hmove), rfl⟩
  · next running hmove =>
    rw [Lifecycle.move_eq_ok_iff, TaskState.canMove_running_iff] at hmove
    obtain ⟨hstate, rfl⟩ := hmove
    obtain ⟨e, hstart⟩ | ⟨child, hstart⟩ := t.invocation.launcher.start_cases line host
    · simp only [hstart]
      refine ⟨.stranded hstate fun child => ?_, trivial⟩
      rw [Invocation.gets_iff hline]
      exact Launcher.not_finishes_of_error hstart child
    · simp only [hstart]
      cases hwait : host.waitError? line with
      | some cause =>
        simp only [@Launcher.await_of_some _ _ _ cause, hwait]
        refine ⟨.stranded hstate fun child => ?_, trivial⟩
        rw [Invocation.gets_iff hline]
        exact Launcher.not_finishes_of_waitError hwait child
      | none =>
        simp only [Launcher.await_of_none, hwait, conclude_running]
        exact ⟨.ended hstate ((Invocation.gets_iff hline).2 ⟨by rw [hstart], hwait⟩), trivial⟩

theorem running_next_iff (call : Call) {t : TestTask} {line : List String}
    (hline : t.invocation.commandLine = .ok line) :
    (call.next t).lifecycle.state = .running ↔
      t.lifecycle.state = .running ∨ call.Strands t :=
  (run_leads hline call.reporter call.told call.host).1.running_iff

theorem commandLine_of_make {console : Path} {roots classpath : Classpath} {launcher : Launcher}
    {flags : Flags} {options : TestOptions} {t : TestTask}
    (hmake : make console roots classpath launcher flags options = .ok t) :
    (∃ line, t.invocation.commandLine = .ok line) ∧ t.lifecycle.state = .configured := by
  obtain ⟨arguments, -, rfl⟩ := make_eq_ok hmake
  exact ⟨⟨_, rfl⟩, rfl⟩

end TestTask

theorem Tasks.state?_of_make {module : ModuleName} {flags : Flags} {start : Tasks}
    (h : make module flags = .ok start) (id : TaskId) : start.state? id ≠ some .running := by
  rw [make_eq_ok h]
  cases id <;> exact nofun

/-! ## Between two calls -/

/-- Of any calls about a run task just made and its benchmark tasks, and of any runs of a test task
just made: a task is running between two of them just if it was run and no child was seen to its
end. Any other run that is let in leads to success or failure, by the exit code. -/
theorem running_iff_stranded {module : ModuleName} {flags : Flags} {tasks : Tasks}
    (htasks : Tasks.make module flags = .ok tasks) {console : Path} {roots classpath : Classpath}
    {launcher : Launcher} {testFlags : Flags} {options : TestOptions} {test : TestTask}
    (htest : TestTask.make console roots classpath launcher testFlags options = .ok test) :
    (∀ (past : List Tasks.Call) (id : Tasks.TaskId),
      ((tasks.after past).state? id = some .running ↔ Tasks.StrandedIn id tasks past) ∧
      ∀ call : Tasks.Call, call.request.id? = some id →
        (tasks.after past).state? id = some .configured →
        ∃ i result, (tasks.after past).invocation? call.request = some i ∧
          call.answer (tasks.after past) = .ended result ∧
          Lifecycle.LetIn childCode i call.host result
            ((call.next (tasks.after past)).state? id)) ∧
    ∀ past : List TestTask.Call,
      ((test.after past).lifecycle.state = .running ↔ test.StrandedIn past) ∧
      ∀ call : TestTask.Call, (test.after past).lifecycle.state = .configured →
        Lifecycle.LetIn TestTask.reportCode test.invocation call.host
          (call.result (test.after past)) (some (call.next (test.after past)).lifecycle.state) := by
  constructor
  · intro past id
    refine ⟨?_, fun call hid hstate => ?_⟩
    · exact holds_iff_someCall (fun _ => True) (fun t => t.state? id = some .running)
        (fun _ _ _ => trivial) (fun call t _ => Tasks.running_next_iff id call t) trivial
        (Tasks.state?_of_make htasks id) past
    · exact (Tasks.sound_after (Tasks.sound_of_make htasks) past).letIn hid hstate
  · intro past
    obtain ⟨⟨line, hline⟩, hconfigured⟩ := TestTask.commandLine_of_make htest
    have hkept : ∀ (call : TestTask.Call) (t : TestTask),
        t.invocation = test.invocation → (call.next t).invocation = test.invocation :=
      fun call t ht =>
        (TestTask.run_leads (ht ▸ hline) call.reporter call.told call.host).2.trans ht
    have hinvocation : (test.after past).invocation = test.invocation :=
      List.foldlRecOn past _ (motive := fun t : TestTask => t.invocation = test.invocation) rfl
        fun t ht call _ => hkept call t ht
    refine ⟨?_, fun call hstate => ?_⟩
    · exact holds_iff_someCall _ (fun t => t.lifecycle.state = .running) hkept
        (fun call t ht => TestTask.running_next_iff call (ht ▸ hline)) rfl
        (by rw [hconfigured]; decide) past
    · have hleads := (TestTask.run_leads (hinvocation ▸ hline) call.reporter call.told call.host).1
      rw [hinvocation] at hleads
      exact hleads.letIn hstate

/-- The run task finds no launcher, its benchmark task finds one. -/
def strandingCalls : List Tasks.Call :=
  [⟨.materialize ⟨[⟨"app"⟩]⟩ ⟨⟨"/java"⟩⟩, Host.blank⟩, ⟨.makeBenchmark, Host.blank⟩,
    ⟨.run ["x"], Host.blank⟩, ⟨.run ["x"], Tasks.sampleHost⟩, ⟨.runBenchmark 0, Tasks.sampleHost⟩]

/-- The test task finds no launcher at first. -/
def strandingRuns : List TestTask.Call :=
  [⟨_, .recording none, ⟨[], []⟩, Host.blank⟩, ⟨_, .recording none, ⟨[], []⟩, Tasks.sampleHost⟩]

theorem running_iff_stranded_of_missing :
    ∃ tasks test, Tasks.make Tasks.sampleModule Tasks.sampleFlags = .ok tasks ∧
      TestTask.make ⟨"/console.jar"⟩ .empty ⟨[⟨"app"⟩]⟩ ⟨⟨"/java"⟩⟩ Tasks.sampleFlags .default =
        .ok test ∧
      Tasks.StrandedIn .run tasks strandingCalls ∧
      ¬Tasks.StrandedIn (.benchmark 0) tasks strandingCalls ∧
      (tasks.after strandingCalls).state? (.benchmark 0) = some .failed ∧
      test.StrandedIn strandingRuns := by
  have htasks : Tasks.make Tasks.sampleModule Tasks.sampleFlags =
      .ok ⟨⟨Tasks.sampleModule, Tasks.sampleFlags, none, .start RunTask.taskName⟩, []⟩ := by rfl
  have htest : ∃ test, TestTask.make ⟨"/console.jar"⟩ .empty ⟨[⟨"app"⟩]⟩ ⟨⟨"/java"⟩⟩
      Tasks.sampleFlags .default = .ok test ∧
      (test.after strandingRuns).lifecycle.state = .running := ⟨_, rfl, rfl⟩
  obtain ⟨test, htest, hrunning⟩ := htest
  obtain ⟨hcalls, hruns⟩ := running_iff_stranded htasks htest
  refine ⟨_, test, htasks, htest, ?_, ?_, rfl, ?_⟩
  · exact (hcalls strandingCalls .run).1.1 rfl
  · exact fun h => nomatch (hcalls strandingCalls (.benchmark 0)).1.2 h
  · exact (hruns strandingRuns).1.1 hrunning

/-- It is not so that no task is left running. -/
theorem left_running_of_missing_launcher :
    ¬∀ (module : ModuleName) (flags : Flags) (tasks : Tasks), Tasks.make module flags = .ok tasks →
      ∀ (past : List Tasks.Call) (id : Tasks.TaskId),
        (tasks.after past).state? id ≠ some .running := by
  intro h
  refine h Tasks.sampleModule ⟨Tasks.sampleModule, []⟩ _ (by rfl)
    [⟨.materialize ⟨[⟨"a"⟩]⟩ ⟨⟨"/no/java"⟩⟩, Host.blank⟩, ⟨.run ["x"], Host.blank⟩] .run ?_
  rfl

end ModuleRig
