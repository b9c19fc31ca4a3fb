import ModuleRig.Proofs.Task.Run

/-!
# A run task and its benchmark tasks under any calls

The calls may come in any order, fail, and be about the run task or any benchmark task made from it.
`Step` is all that one call can do, and what it keeps, any number of calls keep. So everything goes
by what the run task was given first, and no task starts a second child: `calls_keep_first_inputs`.
-/

namespace ModuleRig

/-- A run task, and the benchmark tasks that were made from it, oldest first. -/
structure Tasks where
  run : RunTask
  benchmarks : List BenchmarkTask

namespace Tasks

/-- A run task for the module, and no benchmark tasks yet. -/
def make (module : ModuleName) (flags : Flags) : Except Failure Tasks := do
  return ⟨← RunTask.make module flags, []⟩

/-- What can be asked of the tasks. -/
inductive Request
  | materialize (classpath : Classpath) (launcher : Launcher)
  | invocation (arguments : List String)
  | run (arguments : List String)
  | makeBenchmark
  | runBenchmark (index : Nat)

inductive Answer
  | materialized (result : Except Failure Unit)
  | invocation (result : Except Failure Invocation)
  | benchmark (result : Except Failure BenchmarkTask)
  | ended (result : Except Failure TaskOutcome)
  /-- There is no such benchmark task. -/
  | absent

def perform (t : Tasks) : Request → StateM Host (Answer × Tasks)
  | .materialize classpath launcher => fun host =>
    let (result, run) := RunTask.materializeInPlace classpath launcher t.run
    ((.materialized result, { t with run }), host)
  | .invocation arguments => fun host =>
    ((.invocation (t.run.invocation arguments), t), host)
  | .run arguments => fun host =>
    let ((result, run), host) := t.run.run arguments host
    ((.ended result, { t with run }), host)
  | .makeBenchmark => fun host =>
    match BenchmarkTask.ofRunTask t.run with
    | .error e => ((.benchmark (.error e), t), host)
    | .ok b => ((.benchmark (.ok b), { t with benchmarks := t.benchmarks ++ [b] }), host)
  | .runBenchmark index => fun host =>
    match t.benchmarks[index]? with
    | none => ((.absent, t), host)
    | some b =>
      let ((result, b), host) := b.run host
      ((.ended result, { t with benchmarks := t.benchmarks.set index b }), host)

inductive TaskId
  | run
  | benchmark (index : Nat)
deriving DecidableEq

/-- The task that is asked to run. -/
def Request.id? : Request → Option TaskId
  | .run _ => some .run
  | .runBenchmark index => some (.benchmark index)
  | _ => none

/-- One call, and the host that it finds. Nothing ties the host to the one that the call before
left. -/
structure Call where
  request : Request
  host : Host

namespace Call

def answer (call : Call) (t : Tasks) : Answer := (t.perform call.request call.host).1.1

/-- The tasks that the call leaves. -/
def next (call : Call) (t : Tasks) : Tasks := (t.perform call.request call.host).1.2

/-- The host that the call leaves. -/
def left (call : Call) (t : Tasks) : Host := (t.perform call.request call.host).2

/-- The children that the call starts. -/
def children (call : Call) (t : Tasks) : List (List String) :=
  (call.left t).launches.drop call.host.launches.length

end Call

/-- What the run task is given by a request with the answer. -/
def given? : Request → Answer → Option RunInputs
  | .materialize classpath launcher, .materialized (.ok ()) => some ⟨classpath, launcher⟩
  | _, _ => none

def after (t : Tasks) (calls : List Call) : Tasks :=
  calls.foldl (fun t call => call.next t) t

/-- What the first call that gives the run task something gives it. -/
def firstGiven? (t : Tasks) : List Call → Option RunInputs
  | [] => none
  | call :: calls => (given? call.request (call.answer t)).or ((call.next t).firstGiven? calls)

/-- The children that a task starts in some calls. -/
def childrenOf (id : TaskId) (t : Tasks) : List Call → List (List String)
  | [] => []
  | call :: calls =>
    (if call.request.id? = some id then call.children t else []) ++
      childrenOf id (call.next t) calls

/-! ## One call -/

def Answer.IsRefusal : Answer → Prop
  | .materialized (.ok ()) => False
  | .invocation (.ok _) => False
  | .benchmark (.ok _) => False
  | .ended (.ok _) => False
  | _ => True

/-- The request leads to the answer, starts the children, and leaves the tasks and the host. -/
inductive Step (t : Tasks) (host : Host) :
    Request → Answer → List (List String) → Tasks → Host → Prop
  | refusal {request : Request} {answer : Answer} (h : answer.IsRefusal) :
      Step t host request answer [] t host
  | materialize {classpath : Classpath} {launcher : Launcher}
      (hstate : t.run.lifecycle.state = .unconfigured) :
      Step t host (.materialize classpath launcher) (.materialized (.ok ())) []
        { t with run := { t.run with
            lifecycle := { t.run.lifecycle with state := .configured }
            inputs := some ⟨classpath, launcher⟩ } } host
  | invocation {arguments : List String} {i : Invocation} (hi : t.run.Equips i) :
      Step t host (.invocation arguments) (.invocation (.ok i)) [] t host
  | run {arguments : List String} {i : Invocation} {result : Except Failure TaskOutcome}
      {children : List (List String)} {ended : Lifecycle} {left : Host} (hi : t.run.Equips i)
      (hruns : t.run.lifecycle.Runs i children ended)
      (hleft : left.launches = host.launches ++ children) :
      Step t host (.run arguments) (.ended result) children
        { t with run := { t.run with lifecycle := ended } } left
  | makeBenchmark {b : BenchmarkTask} (hb : t.run.Equips b.invocation)
      (hstate : b.lifecycle.state = .configured) :
      Step t host .makeBenchmark (.benchmark (.ok b)) []
        { t with benchmarks := t.benchmarks ++ [b] } host
  | runBenchmark {index : Nat} {b : BenchmarkTask} {result : Except Failure TaskOutcome}
      {children : List (List String)} {ended : Lifecycle} {left : Host}
      (hb : t.benchmarks[index]? = some b) (hruns : b.lifecycle.Runs b.invocation children ended)
      (hleft : left.launches = host.launches ++ children) :
      Step t host (.runBenchmark index) (.ended result) children
        { t with benchmarks := t.benchmarks.set index { b with lifecycle := ended } } left

theorem perform_step (t : Tasks) (request : Request) (host : Host) :
    ∃ answer children next left, t.perform request host = ((answer, next), left) ∧
      t.Step host request answer children next left := by
  cases request with
  | materialize classpath launcher =>
    rw [perform, RunTask.materializeInPlace_eq]
    cases h : t.run.materialize classpath launcher with
    | error e => exact ⟨_, [], _, _, rfl, .refusal trivial⟩
    | ok run =>
      obtain ⟨-, hstate, rfl⟩ := RunTask.materialize_eq_ok_iff.1 h
      exact ⟨_, [], _, _, rfl, .materialize hstate⟩
  | invocation arguments =>
    rw [perform]
    cases h : t.run.invocation arguments with
    | error e => exact ⟨_, [], _, _, rfl, .refusal trivial⟩
    | ok i => exact ⟨_, [], _, _, rfl, .invocation (RunTask.equips_of_invocation h)⟩
  | run arguments =>
    rw [perform]
    obtain ⟨e, h⟩ | ⟨i, result, ended, left, children, h, hleft, hi, hruns⟩ :=
      t.run.run_cases arguments host
    · simp only [h]
      exact ⟨_, [], _, _, rfl, .refusal trivial⟩
    · simp only [h]
      exact ⟨_, children, _, _, rfl, .run hi hruns hleft⟩
  | makeBenchmark =>
    rw [perform]
    cases h : BenchmarkTask.ofRunTask t.run with
    | error e => exact ⟨_, [], _, _, rfl, .refusal trivial⟩
    | ok b =>
      obtain ⟨hb, hstate⟩ := BenchmarkTask.ofRunTask_eq_ok h
      exact ⟨_, [], _, _, rfl, .makeBenchmark hb hstate⟩
  | runBenchmark index =>
    rw [perform]
    cases hb : t.benchmarks[index]? with
    | none => exact ⟨_, [], _, _, rfl, .refusal trivial⟩
    | some b =>
      obtain ⟨e, h⟩ | ⟨result, ended, left, children, h, hleft, hruns⟩ := b.run_cases host
      · simp only [h]
        obtain ⟨hlt, rfl⟩ := List.getElem?_eq_some_iff.1 hb
        rw [List.set_getElem_self]
        exact ⟨_, [], _, _, rfl, .refusal trivial⟩
      · simp only [h]
        exact ⟨_, children, _, _, rfl, .runBenchmark hb hruns hleft⟩

variable {t next : Tasks} {host left : Host} {request : Request} {answer : Answer}
  {children : List (List String)}

theorem Step.launches (h : t.Step host request answer children next left) :
    left.launches = host.launches ++ children := by
  cases h with
  | run _ _ hleft => exact hleft
  | runBenchmark _ _ hleft => exact hleft
  | _ => exact (List.append_nil _).symm

theorem Call.step (call : Call) (t : Tasks) :
    t.Step call.host call.request (call.answer t) (call.children t) (call.next t)
      (call.left t) := by
  obtain ⟨answer, children, next, left, h, hstep⟩ := t.perform_step call.request call.host
  unfold Call.answer Call.children Call.next Call.left
  rw [h, hstep.launches, List.drop_left]
  exact hstep

theorem Step.equips_of_invocation {i : Invocation}
    (h : t.Step host request (.invocation (.ok i)) children next left) : t.run.Equips i := by
  cases h with
  | refusal h => cases h
  | invocation hi => exact hi

theorem Step.equips_of_benchmark {b : BenchmarkTask}
    (h : t.Step host request (.benchmark (.ok b)) children next left) :
    t.run.Equips b.invocation := by
  cases h with
  | refusal h => cases h
  | makeBenchmark hb _ => exact hb

theorem Step.eq_of_failure {e : Failure}
    (h : t.Step host request (.materialized (.error e)) children next left) :
    next = t ∧ left = host := by
  cases h
  exact ⟨rfl, rfl⟩

/-! ## What each call keeps -/

/-- The run task is configured exactly when it was given something, and every benchmark task goes by
that. -/
structure Sound (t : Tasks) : Prop where
  materialized : t.run.isMaterialized = true ↔ t.run.lifecycle.state ≠ .unconfigured
  benchmarks : ∀ b ∈ t.benchmarks, t.run.Equips b.invocation

theorem Sound.inputs_eq_none (hsound : t.Sound) (hstate : t.run.lifecycle.state = .unconfigured) :
    t.run.inputs = none := by
  rw [← Option.not_isSome_iff_eq_none]
  intro hsome
  exact hsound.materialized.1 hsome hstate

theorem Step.sound (h : t.Step host request answer children next left) (hsound : t.Sound) :
    next.Sound := by
  cases h with
  | refusal _ => exact hsound
  | materialize hstate =>
    constructor
    · exact iff_of_true rfl nofun
    · -- There is no benchmark task yet: it would have what the run task has not.
      intro b hb
      have hinputs := (hsound.benchmarks b hb).inputs
      rw [hsound.inputs_eq_none hstate] at hinputs
      contradiction
  | invocation _ => exact hsound
  | run hi hruns _ =>
    constructor
    · refine iff_of_true ?_ ?_
      · rw [RunTask.isMaterialized, hi.inputs]
        rfl
      · intro hstate
        have hspent := hruns.spent
        rw [hstate] at hspent
        contradiction
    · intro b hb
      have hequips := hsound.benchmarks b hb
      exact ⟨hequips.inputs, hequips.target, hequips.flags⟩
  | makeBenchmark hb _ =>
    constructor
    · exact hsound.materialized
    · intro c hmem
      rcases List.mem_append.1 hmem with hmem | hmem
      · exact hsound.benchmarks c hmem
      · rw [List.mem_singleton.1 hmem]
        exact hb
  | runBenchmark hb _ _ =>
    constructor
    · exact hsound.materialized
    · intro c hmem
      rcases List.mem_or_eq_of_mem_set hmem with hmem | rfl
      · exact hsound.benchmarks c hmem
      · have hequips := hsound.benchmarks _ (List.mem_of_getElem? hb)
        exact hequips

theorem Step.equips_of_child (h : t.Step host request answer children next left)
    (hsound : t.Sound) {line : List String} (hline : line ∈ children) :
    (∃ id, request.id? = some id) ∧ ∃ i, t.run.Equips i ∧ i.commandLine = .ok line := by
  cases h with
  | run hi hruns _ => exact ⟨⟨_, rfl⟩, _, hi, hruns.starts.commandLine_of_mem hline⟩
  | runBenchmark hb hruns _ =>
    have hi := hsound.benchmarks _ (List.mem_of_getElem? hb)
    exact ⟨⟨_, rfl⟩, _, hi, hruns.starts.commandLine_of_mem hline⟩
  | _ => cases hline

theorem Step.flags (h : t.Step host request answer children next left) :
    next.run.flags = t.run.flags := by
  cases h <;> rfl

theorem Step.inputs (h : t.Step host request answer children next left) (hsound : t.Sound) :
    next.run.inputs = t.run.inputs.or (given? request answer) := by
  have hnone : next.run.inputs = t.run.inputs → given? request answer = none →
      next.run.inputs = t.run.inputs.or (given? request answer) := by
    intro hsame hgiven
    rw [hsame, hgiven, Option.or_none]
  cases h with
  | refusal h =>
    refine hnone rfl ?_
    unfold given?
    split
    · cases h
    · rfl
  | materialize hstate => rw [hsound.inputs_eq_none hstate]; rfl
  | _ => exact hnone rfl rfl

/-! ## How many children a task starts -/

/-- How many children the task may still start. A benchmark task that is not made yet may start
one. -/
def startsLeft (t : Tasks) : TaskId → Nat
  | .run => t.run.lifecycle.state.startsLeft
  | .benchmark index => (t.benchmarks[index]?).elim 1 (·.lifecycle.state.startsLeft)

theorem startsLeft_le_one (t : Tasks) (id : TaskId) : t.startsLeft id ≤ 1 := by
  cases id with
  | run => exact TaskState.startsLeft_le_one _
  | benchmark index =>
    rw [startsLeft]
    cases t.benchmarks[index]? with
    | none => exact Nat.le_refl 1
    | some b => exact TaskState.startsLeft_le_one _

/-- A child that is started counts as one less that may be. -/
theorem Step.startsLeft_le (h : t.Step host request answer children next left) (id : TaskId) :
    (if request.id? = some id then children.length else 0) + next.startsLeft id ≤
      t.startsLeft id := by
  cases h with
  | refusal _ => simp
  | materialize hstate =>
    cases id with
    | run => simp [startsLeft, hstate, TaskState.startsLeft]
    | benchmark index => simp [startsLeft]
  | invocation _ => simp
  | run _ hruns _ =>
    cases id with
    | run => simpa [startsLeft, Request.id?] using hruns.startsLeft_le
    | benchmark index => simp [startsLeft, Request.id?]
  | makeBenchmark _ _ =>
    rw [if_neg nofun, Nat.zero_add]
    cases id with
    | run => exact Nat.le_refl _
    | benchmark index =>
      -- The new task takes the place of one that was not made yet, and may start no more than that.
      by_cases hlt : index < t.benchmarks.length
      · simp only [startsLeft, List.getElem?_append_left hlt, Nat.le_refl]
      · have hnone : t.startsLeft (.benchmark index) = 1 := by
          rw [startsLeft, List.getElem?_eq_none (Nat.le_of_not_lt hlt)]
          rfl
        rw [hnone]
        exact startsLeft_le_one _ _
  | @runBenchmark made b _ _ _ _ hb hruns _ =>
    cases id with
    | run => simp [startsLeft, Request.id?]
    | benchmark index =>
      by_cases heq : made = index
      · subst heq
        obtain ⟨hlt, rfl⟩ := List.getElem?_eq_some_iff.1 hb
        simpa [startsLeft, Request.id?, hlt] using hruns.startsLeft_le
      · simp [startsLeft, Request.id?, heq]

/-! ## Any number of calls -/

theorem sound_after (hsound : t.Sound) (calls : List Call) : (t.after calls).Sound := by
  induction calls generalizing t with
  | nil => exact hsound
  | cons call calls ih => exact ih ((call.step t).sound hsound)

theorem flags_after (t : Tasks) (calls : List Call) :
    (t.after calls).run.flags = t.run.flags := by
  induction calls generalizing t with
  | nil => rfl
  | cons call calls ih => exact (ih (call.next t)).trans (call.step t).flags

theorem inputs_after (hsound : t.Sound) (calls : List Call) :
    (t.after calls).run.inputs = t.run.inputs.or (t.firstGiven? calls) := by
  induction calls generalizing t with
  | nil => exact (Option.or_none).symm
  | cons call calls ih =>
    have hstep := call.step t
    rw [after, List.foldl_cons, ← after, ih (hstep.sound hsound), hstep.inputs hsound,
      Option.or_assoc, firstGiven?]

theorem childrenOf_add_startsLeft (id : TaskId) (t : Tasks) (calls : List Call) :
    (childrenOf id t calls).length + (t.after calls).startsLeft id ≤ t.startsLeft id := by
  induction calls generalizing t with
  | nil => exact Nat.le_of_eq (Nat.zero_add _)
  | cons call calls ih =>
    have hrest := ih (call.next t)
    have hstep := (call.step t).startsLeft_le id
    rw [childrenOf, List.length_append, after, List.foldl_cons, ← after]
    split at hstep
    · next hid =>
      rw [if_pos hid]
      omega
    · next hid =>
      rw [if_neg hid, List.length_nil]
      omega

theorem childrenOf_length_le_one (id : TaskId) (t : Tasks) (calls : List Call) :
    (childrenOf id t calls).length ≤ 1 := by
  have := childrenOf_add_startsLeft id t calls
  have := t.startsLeft_le_one id
  omega

/-- What a call does goes by what the run task has, and a failure to configure it does nothing. -/
structure Call.Keeps (call : Call) (t : Tasks) : Prop where
  invocation : ∀ i, call.answer t = .invocation (.ok i) → t.run.Equips i
  benchmark : ∀ b, call.answer t = .benchmark (.ok b) → t.run.Equips b.invocation
  failure : ∀ e, call.answer t = .materialized (.error e) →
    call.next t = t ∧ call.left t = call.host
  launches : (call.left t).launches = call.host.launches ++ call.children t
  child : ∀ line ∈ call.children t, (∃ id, call.request.id? = some id) ∧
    ∃ i, t.run.Equips i ∧ i.commandLine = .ok line

theorem Call.keeps (call : Call) (hsound : t.Sound) : call.Keeps t := by
  have hstep := call.step t
  constructor
  · intro i hanswer
    rw [hanswer] at hstep
    exact hstep.equips_of_invocation
  · intro b hanswer
    rw [hanswer] at hstep
    exact hstep.equips_of_benchmark
  · intro e hanswer
    rw [hanswer] at hstep
    exact hstep.eq_of_failure
  · exact hstep.launches
  · intro line hline
    exact hstep.equips_of_child hsound hline

theorem make_eq_ok {module : ModuleName} {flags : Flags} {start : Tasks}
    (h : make module flags = .ok start) :
    start = ⟨⟨module, flags, none, .start RunTask.taskName⟩, []⟩ := by
  obtain ⟨run, hrun, h⟩ := exists_of_bind_eq_ok h
  rw [RunTask.make_eq_ok hrun] at h
  cases h
  rfl

theorem sound_of_make {module : ModuleName} {flags : Flags} {start : Tasks}
    (h : make module flags = .ok start) : start.Sound := by
  rw [make_eq_ok h]
  constructor
  · exact iff_of_false nofun (fun h => h rfl)
  · exact nofun

/-- Of any calls about tasks just made, and one more: the run task is configured once it was given
something and has what it was given first, everything goes by that, and no task starts a second
child. -/
theorem calls_keep_first_inputs {module : ModuleName} {flags : Flags} {start : Tasks}
    (hmake : make module flags = .ok start) (past : List Call) (call : Call) :
    (start.after past).Sound ∧
    (start.after past).run.inputs = start.firstGiven? past ∧
    (start.after past).run.flags = flags ∧
    call.Keeps (start.after past) ∧
    ∀ id, (childrenOf id start past).length ≤ 1 := by
  have hsound := sound_of_make hmake
  have hinputs := inputs_after hsound past
  have hflags := flags_after start past
  have hstart := make_eq_ok hmake
  refine ⟨sound_after hsound past, ?_, ?_, call.keeps (sound_after hsound past), ?_⟩
  · rw [hinputs, hstart]
    rfl
  · rw [hflags, hstart]
  · intro id
    exact childrenOf_length_le_one id start past

def sampleModule : ModuleName := ⟨"a.Main", by decide⟩

def sampleFlags : Flags := ⟨sampleModule, ["-ea"]⟩

/-- A launcher whose program ends with one. -/
def sampleHost : Host :=
  { Host.blank with files := Host.blank.files.put ["java"] (.file [] (.program fun _ =>
      ⟨[], [], .ofCode 1⟩)) }

/-- Calls too early, on an empty classpath and after the end, and a second classpath. -/
def sampleCalls : List Call :=
  [.invocation [], .makeBenchmark, .materialize .empty ⟨⟨"/java"⟩⟩, .run [], .runBenchmark 0,
    .materialize ⟨[⟨"app"⟩]⟩ ⟨⟨"/java"⟩⟩, .materialize ⟨[⟨"lib"⟩]⟩ ⟨⟨"/jre"⟩⟩, .makeBenchmark,
    .runBenchmark 0, .run ["x"], .run ["y"], .runBenchmark 0, .makeBenchmark].map (⟨·, sampleHost⟩)

theorem calls_keep_first_inputs_of_mixed :
    ∃ start, make sampleModule sampleFlags = .ok start ∧
      (start.after sampleCalls).run.inputs = some ⟨⟨[⟨"app"⟩]⟩, ⟨⟨"/java"⟩⟩⟩ ∧
      (start.after sampleCalls).run.lifecycle.state = .failed ∧
      (start.after sampleCalls).run.isMaterialized = true ∧
      childrenOf .run start sampleCalls = [["-ea", "--module-path", "app", "-m", "a.Main", "x"]] ∧
      childrenOf (.benchmark 0) start sampleCalls =
        [["-ea", "--module-path", "app", "-m", "a.Main", "--no-tests"]] ∧
      (childrenOf (.benchmark 1) start sampleCalls).length ≤ 1 := by
  have hmake : make sampleModule sampleFlags =
      .ok ⟨⟨sampleModule, sampleFlags, none, .start RunTask.taskName⟩, []⟩ := by rfl
  obtain ⟨hsound, hinputs, -, -, hchildren⟩ :=
    calls_keep_first_inputs hmake sampleCalls ⟨.runBenchmark 1, sampleHost⟩
  have hstate : (after ⟨⟨sampleModule, sampleFlags, none, .start RunTask.taskName⟩, []⟩
      sampleCalls).run.lifecycle.state = .failed := by rfl
  refine ⟨_, hmake, ?_, hstate, ?_, ?_, ?_, hchildren _⟩
  · rw [hinputs]
    rfl
  · rw [hsound.materialized, hstate]
    decide
  · rfl
  · rfl

end Tasks

end ModuleRig
