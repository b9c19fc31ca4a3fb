import ModuleRig.Proofs.Report.Totals
import ModuleRig.Proofs.Task.Run
import ModuleRig.Proofs.Text.Lines

/-!
# The verdict over a test run

What the console launcher writes and how it ends decide whether a run passes: `Passes` says when.
`run_verdict` says that the report of a run, and the state in which its task ends, go by that.
-/

namespace ModuleRig.TestTask

open Summary

/-- The console launcher exits with zero, some line of its output counts something, and no last line
about failed tests or failed containers counts any. -/
structure Passes (child : ChildRun) : Prop where
  exits : child.status.exitCode = 0
  counts : ∃ line ∈ Text.lines child.stdout, ∃ subject outcome n, CountLine line subject outcome n
  tests : ∀ n, LastCount (Text.lines child.stdout) .tests .failed n → n = 0
  containers : ∀ n, LastCount (Text.lines child.stdout) .containers .failed n → n = 0

/-- A run of the task now starts the console launcher, which leaves the child behind and whose end
is told. -/
def Launches (t : TestTask) (host : Host) (child : ChildRun) : Prop :=
  t.lifecycle.state = .configured ∧ ∃ line, t.invocation.commandLine = .ok line ∧
    t.invocation.launcher.Finishes line host child

theorem linesOfChunks_stdout (child : ChildRun) :
    Text.linesOfChunks child.chunks = Text.lines child.stdout :=
  Text.linesOfChunks_eq child.chunks

/-! ## The report -/

theorem clean_reportOf (child : ChildRun) :
    (reportOf child).clean = some true ↔
      (∃ line ∈ Text.lines child.stdout, ∃ subject outcome n,
        CountLine line subject outcome n) ∧
      (∀ n, LastCount (Text.lines child.stdout) .tests .failed n → n = 0) ∧
      ∀ n, LastCount (Text.lines child.stdout) .containers .failed n → n = 0 := by
  have hseen := SummaryReader.seen_feedAll .start (Text.lines child.stdout)
  have htests := SummaryReader.counted_eq_zero_iff (.inl rfl : Keeps .tests .failed)
    (Text.lines child.stdout)
  have hcontainers := SummaryReader.counted_eq_zero_iff (.inr (.inr rfl) : Keeps .containers .failed)
    (Text.lines child.stdout)
  rw [or_iff_right (show ¬ SummaryReader.start.seen = true by decide)] at hseen
  rw [← hseen, ← htests, ← hcontainers, ← isClean_iff]
  unfold Report.clean reportOf Summary.ofLines? SummaryReader.result?
  rw [linesOfChunks_stdout]
  split
  · next h => simp [h]
  · next h => simp [h]

theorem passed_reportOf (child : ChildRun) : (reportOf child).passed = true ↔ Passes child := by
  have hcode : (reportOf child).launcherExitCode = 0 ↔ child.status.exitCode = 0 := by
    simp [reportOf]
  rw [Report.passed, Bool.and_eq_true, beq_iff_eq, beq_iff_eq, hcode, clean_reportOf]
  constructor
  · rintro ⟨hexits, hcounts, htests, hcontainers⟩
    exact ⟨hexits, hcounts, htests, hcontainers⟩
  · rintro ⟨hexits, hcounts, htests, hcontainers⟩
    exact ⟨hexits, hcounts, htests, hcontainers⟩

/-! ## The run -/

theorem launches_iff_of_make {console : Path} {roots classpath : Classpath} {launcher : Launcher}
    {flags : Flags} {options : TestOptions} {t : TestTask} {host : Host} {child : ChildRun}
    (hmake : make console roots classpath launcher flags options = .ok t) :
    t.Launches host child ↔
      launcher.Finishes (flags.arguments ++ ["-jar", console.spelling] ++ t.invocation.arguments)
        host child := by
  obtain ⟨arguments, -, rfl⟩ := make_eq_ok hmake
  constructor
  · rintro ⟨-, line, hline, hfinishes⟩
    cases hline
    exact hfinishes
  · intro hfinishes
    exact ⟨rfl, _, rfl, hfinishes⟩

theorem finish_running {l : Lifecycle} (h : l.state = .running) (code : Int) :
    l.finish code = .ok { l with state := .ofExitCode code } := by
  rw [Lifecycle.finish, Lifecycle.move_eq_ok_iff]
  refine ⟨?_, rfl⟩
  rw [h, TaskState.ofExitCode]
  split <;> rfl

theorem run_of_launches {σ : Type} {t : TestTask} {reporter : Reporter σ} {told : σ} {host : Host}
    {child : ChildRun} (hlaunch : t.Launches host child)
    (hreporter : (reporter.onReport ((Text.lines child.stdout).foldl reporter.onLine told)
      (reportOf child)).1 = .ok ()) :
    ∃ ended told' left, t.run reporter told host = ((.ok (reportOf child), ended, told'), left) ∧
      ended.lifecycle.state = .ofExitCode (reportOf child).exitCode := by
  obtain ⟨hstate, line, hline, hfinishes⟩ := hlaunch
  have hmove : t.lifecycle.move .running = .ok { t.lifecycle with state := .running } := by
    rw [Lifecycle.move_eq_ok_iff, hstate]
    exact ⟨rfl, rfl⟩
  unfold run
  simp only [hline, hmove, hfinishes.start_eq, Launcher.await_of_none, hfinishes.2,
    linesOfChunks_stdout]
  unfold conclude
  rw [finish_running rfl]
  simp only [hreporter]
  exact ⟨_, _, _, rfl, rfl⟩

/-- Of every run that could start its console launcher and was told of its end: the report says zero exactly when the
launcher has passed, else one, and the task ends by it. -/
theorem run_verdict {σ : Type} (t : TestTask) (reporter : Reporter σ) (told : σ) (host : Host)
    (child : ChildRun) (hlaunch : t.Launches host child)
    (hreporter : (reporter.onReport ((Text.lines child.stdout).foldl reporter.onLine told)
      (reportOf child)).1 = .ok ()) :
    ∃ ended told' left, t.run reporter told host = ((.ok (reportOf child), ended, told'), left) ∧
      ((reportOf child).exitCode = 0 ↔ Passes child) ∧
      (¬ Passes child → (reportOf child).exitCode = 1) ∧
      (ended.lifecycle.state = .succeeded ↔ (reportOf child).exitCode = 0) ∧
      ((reportOf child).exitCode ≠ 0 → ended.lifecycle.state = .failed) := by
  obtain ⟨ended, told', left, hrun, hended⟩ := run_of_launches hlaunch hreporter
  refine ⟨ended, told', left, hrun, ?_⟩
  rw [hended, ← passed_reportOf]
  unfold Report.exitCode
  cases (reportOf child).passed with
  | true => decide
  | false => decide

/-- A stand-in for the console launcher. Its output comes in pieces, the first count of failed tests
is colored, and the last one is too great to be read. -/
def sampleChild : ChildRun where
  chunks := [Text.Utf8.ofText "\x1b[31m[ 2 tes", Text.Utf8.ofText "ts failed ]\x1b[0m\n[ 0",
    Text.Utf8.ofText " tests failed ]\r\n[ 3 containers started ]\n\n",
    Text.Utf8.ofText "[ 18446744073709551616 tests failed ]"]
  stderr := []
  status := .ofCode 0

def sampleHost : Host :=
  { Host.blank with files := Host.blank.files.put ["java"] (.file [] (.program fun _ => sampleChild)) }

def sampleTask : TestTask where
  invocation := ⟨taskName, .empty, ⟨⟨"/java"⟩⟩, .jar ⟨"/console.jar"⟩, ["execute"],
    ⟨⟨"a.Tests", by decide⟩, ["-Xmx1g"]⟩⟩
  lifecycle := ⟨taskName, .configured⟩

theorem run_verdict_of_chunks :
    sampleTask.Launches sampleHost sampleChild ∧ Passes sampleChild ∧
      ∃ ended told left, sampleTask.run (.recording none) ⟨[], []⟩ sampleHost =
          ((.ok (reportOf sampleChild), ended, told), left) ∧
        ended.lifecycle.state = .succeeded := by
  have hlaunch : sampleTask.Launches sampleHost sampleChild :=
    ⟨rfl, _, rfl, rfl, rfl⟩
  have hzero : (reportOf sampleChild).exitCode = 0 := by decide +kernel
  obtain ⟨ended, told, left, hrun, hpasses, -, hended, -⟩ :=
    run_verdict sampleTask (.recording none) ⟨[], []⟩ sampleHost sampleChild hlaunch rfl
  exact ⟨hlaunch, hpasses.1 hzero, ended, told, left, hrun, hended.2 hzero⟩

end ModuleRig.TestTask
