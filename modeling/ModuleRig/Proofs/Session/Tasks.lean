import ModuleRig.Proofs.Session.Launches
import ModuleRig.Proofs.Session.SetUp
import ModuleRig.Proofs.Settings.Validation

/-!
# The tasks of a session

A session stands on settings that passed their check (`Ready`), and making the test task changes
nothing of it but what the resolver remembers (`Later`). So its run task and its benchmark task can
always be made, whatever has become of the files: `validation_is_complete`. The command lines of its
tasks begin with the same flags: `shared_flags`.
-/

namespace ModuleRig

/-! ## Classpaths that hold a path -/

namespace Classpath

theorem holds_push (cp : Classpath) (p : Path) : (cp.push p).holds p = true := by
  unfold push
  split
  · next h => exact h
  · simp [holds, Path.same]

theorem isEmpty_of_holds {cp : Classpath} {p : Path} (h : cp.holds p = true) :
    cp.isEmpty = false := by
  rw [isEmpty, List.isEmpty_eq_false_iff]
  intro hnone
  rw [holds, hnone] at h
  cases h

end Classpath

namespace Session

variable {s s' session : Session} {options : SetupOptions} {host left : Host}

/-! ## What a session stands on -/

/-- What a session becomes when its test task is made, any number of times. -/
inductive Later (s : Session) : Session → Prop
  | refl : Later s s
  | testTask {s' : Session} (h : Later s s') (options : TestOptions) (host : Host) :
      Later s (s'.testTask options host).1.2

theorem agrees_testTask (s : Session) (options : TestOptions) (host : Host) :
    s.Agrees (s.testTask options host).1.2 := by
  have hmakes := s.makesTests options host
  generalize s.testTask options host = run at hmakes
  cases hmakes with
  | refused hc => exact .refl s
  | unresolved hc hresolve => exact .of_resolver
  | resolved hc hresolve => exact .of_resolver

theorem Agrees.trans {s'' : Session} (h : s.Agrees s') (h' : s'.Agrees s'') : s.Agrees s'' where
  settings := h'.settings.trans h.settings
  module := h'.module.trans h.module
  flags := h'.flags.trans h.flags
  launcher := h'.launcher.trans h.launcher
  dependency := h'.dependency.trans h.dependency

theorem Later.agrees (h : s.Later s') : s.Agrees s' := by
  induction h with
  | refl => exact .refl s
  | testTask h options host ih => exact ih.trans (agrees_testTask _ options host)

/-- The settings of the session are valid for its module, and its flags are made of them. -/
structure Ready (s : Session) : Prop where
  valid : s.settings.Valid s.module
  flags : Flags.ofSettings s.module s.settings.execution = .ok s.flags

theorem ready_of_prepare {files : FileTree} {settings : Settings} {module : ModuleName}
    {flags : Flags} {c : Coordinate}
    (h : prepare files options = .ok (settings, module, flags, c)) :
    settings.Valid module ∧ Flags.ofSettings module settings.execution = .ok flags := by
  obtain ⟨settings', -, h⟩ := exists_of_bind_eq_ok h
  obtain ⟨⟨⟩, hvalidate, h⟩ := exists_of_bind_eq_ok h
  obtain ⟨module', hmodule, h⟩ := exists_of_bind_eq_ok h
  obtain ⟨flags', hflags, h⟩ := exists_of_bind_eq_ok h
  obtain ⟨c', -, h⟩ := exists_of_bind_eq_ok h
  obtain ⟨rfl, rfl, rfl, -⟩ := Except.ok.inj h
  rw [mapError_eq_ok_iff] at hvalidate hmodule hflags
  obtain ⟨module, hvalid⟩ := Settings.validate_eq_ok_iff.1 hvalidate
  obtain rfl := Except.ok.inj (hvalid.names.symm.trans hmodule)
  exact ⟨hvalid, hflags⟩

theorem ready_of_setUp (h : setUp options host = (.ok session, left)) : session.Ready := by
  have hsetsUp := setsUp options host
  rw [h] at hsetsUp
  cases hsetsUp with
  | ready hprepare hresolve hlauncher =>
    obtain ⟨hvalid, hflags⟩ := ready_of_prepare hprepare
    exact ⟨hvalid, hflags⟩

theorem Ready.of_agrees (h : s.Ready) (hs : s.Agrees s') : s'.Ready := by
  obtain ⟨hvalid, hflags⟩ := h
  constructor
  · rw [hs.settings, hs.module]
    exact hvalid
  · rw [hs.settings, hs.module, hs.flags]
    exact hflags

/-! ## Tasks that can always be made -/

theorem holds_dependency (s : Session) (files : FileTree) :
    (s.runtimeClasspath files).holds s.dependency.path = true :=
  Classpath.holds_push _ _

theorem runTask_eq (h : s.Ready) (files : FileTree) :
    s.runTask files = .ok ⟨s.module, s.flags, some ⟨s.runtimeClasspath files, s.launcher⟩,
      ⟨RunTask.taskName, .configured⟩⟩ := by
  have hclasspath := Classpath.isEmpty_of_holds (s.holds_dependency files)
  rw [runTask, RunTask.make_of_ofSettings h.flags]
  exact RunTask.materialize_eq_ok_iff.2 ⟨hclasspath, rfl, rfl⟩

theorem benchmarkTask_eq (h : s.Ready) (files : FileTree) :
    s.benchmarkTask files = .ok ⟨⟨BenchmarkTask.taskName, s.runtimeClasspath files, s.launcher,
      .module s.module, [BenchmarkTask.noTestsFlag], s.flags⟩,
      ⟨BenchmarkTask.taskName, .configured⟩⟩ := by
  rw [benchmarkTask, runTask_eq h]
  rfl

/-! ## Command lines -/

/-- The command line of the run task, as it would be made now. -/
def runLine (s : Session) (files : FileTree) (arguments : List String) :
    Except Failure (List String) := do
  let task ← s.runTask files
  (← task.invocation arguments).commandLine

/-- The command line of the benchmark task, as it would be made now. -/
def benchmarkLine (s : Session) (files : FileTree) : Except Failure (List String) := do
  (← s.benchmarkTask files).invocation.commandLine

/-- The command line that starts the session's module. -/
def moduleLine (s : Session) (arguments : List String) (classpath : String) : List String :=
  s.flags.arguments ++ ["--module-path", classpath, "-m", s.module.text] ++ arguments

theorem runLine_eq (h : s.Ready) (files : FileTree) (arguments : List String) :
    s.runLine files arguments =
      (s.runtimeClasspath files).argument.map (s.moduleLine arguments) := by
  rw [runLine, runTask_eq h]
  show Invocation.commandLine _ = _
  unfold Invocation.commandLine Invocation.targetArguments
  dsimp only
  cases (s.runtimeClasspath files).argument with
  | error f => rfl
  | ok classpath => rfl

theorem benchmarkLine_eq (h : s.Ready) (files : FileTree) :
    s.benchmarkLine files = s.runLine files [BenchmarkTask.noTestsFlag] := by
  rw [benchmarkLine, benchmarkTask_eq h, runLine, runTask_eq h]
  rfl

theorem runLine_congr (hs : s.Agrees s') {files files' : FileTree}
    (h : ∀ dir ∈ s.settings.project.classes, files'.exists? dir = files.exists? dir)
    (arguments : List String) : s'.runLine files' arguments = s.runLine files arguments := by
  unfold runLine runTask runtimeClasspath
  rw [hs.settings, hs.module, hs.flags, hs.launcher, hs.dependency, existing_congr h]

theorem exists_of_runLine_eq_ok (h : s.Ready) {files : FileTree} {arguments line : List String}
    (hline : s.runLine files arguments = .ok line) :
    ∃ classpath, (s.runtimeClasspath files).argument = .ok classpath ∧
      line = s.moduleLine arguments classpath := by
  rw [runLine_eq h, map_eq_ok_iff] at hline
  obtain ⟨classpath, hclasspath, rfl⟩ := hline
  exact ⟨classpath, hclasspath, rfl⟩

theorem exists_of_testTask {testOptions : TestOptions} {task : TestTask}
    (h : (s.testTask testOptions host).1.1 = .ok task) :
    ∃ (console : Path) (arguments : List String), task.invocation.commandLine =
      .ok (s.flags.arguments ++ ["-jar", console.spelling] ++ arguments) := by
  have hmakes := s.makesTests testOptions host
  generalize s.testTask testOptions host = run at hmakes h
  cases hmakes with
  | refused hc => cases h
  | unresolved hc hresolve => cases h
  | resolved hc hresolve =>
    obtain ⟨arguments, -, rfl⟩ := TestTask.make_eq_ok h
    exact ⟨_, arguments, rfl⟩

/-! ## What holds of every session -/

/-- The sample project with the jar of the console launcher. -/
def completeHost : Host :=
  { Program.sampleHost with
    files.entries :=
      (["repo", "g", "m", "1", "m-1.jar"], .file [] .plain) ::
        [["repo", "g", "m"], ["repo", "g", "m", "1"]].map (·, .directory) ++
        Program.sampleHost.files.entries }

/-- Arguments that could be taken for a switch, for none, for a double dash and for a command. -/
def completeArguments : List String := ["--offline", "", "--", "test"]

theorem exists_completeSession : ∃ session left line,
    setUp (Program.optionsOf Program.sampleLine) completeHost = (.ok session, left) ∧
    session.flags.arguments = ["--enable-native-access=a.B"] ∧ session.module.text = "a.B" ∧
    session.runLine left.files completeArguments = .ok line ∧
    (∃ child, (session.launcher.start line left).1 = .ok child) ∧
    ∃ task, (session.testTask .default left).1.1 = .ok task := by
  have hready : (setUp (Program.optionsOf Program.sampleLine) completeHost).1.toOption.any
      (fun session =>
        let left := (setUp (Program.optionsOf Program.sampleLine) completeHost).2
        session.flags.arguments == ["--enable-native-access=a.B"] &&
          session.module.text == "a.B" && (session.testTask .default left).1.1.isOk &&
          (session.runLine left.files completeArguments).toOption.any fun line =>
            (session.launcher.start line left).1.isOk) = true := by
    decide +kernel
  rcases hsetUp : setUp (Program.optionsOf Program.sampleLine) completeHost with ⟨result, left⟩
  rw [hsetUp] at hready
  obtain ⟨session, hsession, hfacts⟩ := exists_of_any_toOption hready
  obtain rfl : result = .ok session := hsession
  simp only [Bool.and_eq_true, beq_iff_eq] at hfacts
  obtain ⟨⟨⟨hflags, hmodule⟩, htask⟩, hlines⟩ := hfacts
  obtain ⟨line, hline, hchild⟩ := exists_of_any_toOption hlines
  exact ⟨session, left, line, rfl, hflags, hmodule, hline, exists_of_isOk hchild,
    exists_of_isOk htask⟩

/-- All that is made of settings that pass their check can be made, and a run task takes it. The
run task and the benchmark task of a session can be made in every tree, with the module's jar on
the classpath. -/
theorem validation_is_complete :
    (∀ settings : Settings, settings.validate = .ok () →
      ∃ module dependency console flags task, settings.module? = .ok module ∧
        settings.dependency? = .ok dependency ∧ settings.testLauncher? = .ok console ∧
        Flags.ofSettings module settings.execution = .ok flags ∧
        RunTask.make module flags = .ok task) ∧
    ∀ (options : SetupOptions) (host : Host) (session : Session) (left : Host),
      setUp options host = (.ok session, left) → ∀ s, session.Later s → ∀ files : FileTree,
        (∃ task inputs, s.runTask files = .ok task ∧ task.inputs = some inputs ∧
          inputs.classpath.holds session.dependency.path = true) ∧
        ∃ task, s.benchmarkTask files = .ok task ∧
          task.invocation.classpath.holds session.dependency.path = true := by
  constructor
  · intro settings hvalidate
    obtain ⟨module, hvalid⟩ := Settings.validate_eq_ok_iff.1 hvalidate
    obtain ⟨dependency, hdependency⟩ := hvalid.dependency
    obtain ⟨console, hconsole⟩ := hvalid.testLauncher
    obtain ⟨flags, hflags⟩ := hvalid.exists_flags
    exact ⟨module, dependency, console, flags, _, hvalid.names, hdependency, hconsole, hflags,
      RunTask.make_of_ofSettings hflags⟩
  · intro options host session left hsetUp s hlater files
    have hagrees := hlater.agrees
    have hready := (ready_of_setUp hsetUp).of_agrees hagrees
    have hjar := s.holds_dependency files
    rw [hagrees.dependency] at hjar
    exact ⟨⟨_, _, runTask_eq hready files, rfl, hjar⟩, _, benchmarkTask_eq hready files, hjar⟩

theorem validation_is_complete_of_lost_files : ∃ session left,
    setUp (Program.optionsOf Program.sampleLine) completeHost = (.ok session, left) ∧
    (∃ task, session.runTask .empty = .ok task) ∧
    ∃ task, session.benchmarkTask .empty = .ok task := by
  obtain ⟨session, left, -, hsetUp, -⟩ := exists_completeSession
  obtain ⟨⟨task, -, htask, -⟩, benchmark, hbenchmark, -⟩ :=
    validation_is_complete.2 _ _ session left hsetUp session .refl .empty
  exact ⟨session, left, hsetUp, ⟨task, htask⟩, benchmark, hbenchmark⟩

/-- Whatever task a session makes, early or late, its command line starts with the session's flags.
The benchmark task's is that of the run task with one argument. All grants among the flags are to
the module alone that the run task and the benchmark task start. -/
theorem shared_flags (h : setUp options host = (.ok session, left)) :
    (∀ s, session.Later s → ∀ files arguments line, s.runLine files arguments = .ok line →
      ∃ classpath, (s.runtimeClasspath files).argument = .ok classpath ∧
        line = session.flags.arguments ++
          ["--module-path", classpath, "-m", session.module.text] ++ arguments) ∧
    (∀ s, session.Later s → ∀ files line, s.benchmarkLine files = .ok line →
      ∃ classpath, (s.runtimeClasspath files).argument = .ok classpath ∧
        line = session.flags.arguments ++
          ["--module-path", classpath, "-m", session.module.text] ++
          [BenchmarkTask.noTestsFlag]) ∧
    (∀ s, session.Later s → ∀ testOptions now task line,
      (s.testTask testOptions now).1.1 = .ok task → task.invocation.commandLine = .ok line →
      ∃ (console : Path) (arguments : List String),
        line = session.flags.arguments ++ ["-jar", console.spelling] ++ arguments) ∧
    (∀ s s', session.Later s → session.Later s' → ∀ files files' : FileTree,
      (∀ dir ∈ session.settings.project.classes, files'.exists? dir = files.exists? dir) →
      s'.benchmarkLine files' = s.runLine files [BenchmarkTask.noTestsFlag]) ∧
    ∀ argument ∈ session.flags.arguments, ∀ grant, Grant.parse? argument = some grant →
      grant.modules = [session.module.text] := by
  have hready := ready_of_setUp h
  have hmoduleLine : ∀ s, session.Later s → ∀ files arguments line,
      s.runLine files arguments = .ok line →
      ∃ classpath, (s.runtimeClasspath files).argument = .ok classpath ∧
        line = session.flags.arguments ++
          ["--module-path", classpath, "-m", session.module.text] ++ arguments := by
    intro s hlater files arguments line hline
    have hagrees := hlater.agrees
    obtain ⟨classpath, hclasspath, rfl⟩ :=
      exists_of_runLine_eq_ok (hready.of_agrees hagrees) hline
    exact ⟨classpath, hclasspath, by rw [moduleLine, hagrees.flags, hagrees.module]⟩
  refine ⟨hmoduleLine, ?_, ?_, ?_, ?_⟩
  · intro s hlater files line hline
    rw [benchmarkLine_eq (hready.of_agrees hlater.agrees)] at hline
    exact hmoduleLine s hlater files _ line hline
  · intro s hlater testOptions now task line htask hline
    obtain ⟨console, arguments, hcommand⟩ := exists_of_testTask htask
    rw [hlater.agrees.flags] at hcommand
    exact ⟨console, arguments, Except.ok.inj (hline.symm.trans hcommand)⟩
  · intro s s' hlater hlater' files files' hclasses
    rw [benchmarkLine_eq (hready.of_agrees hlater'.agrees), runLine_congr hlater'.agrees hclasses,
      runLine_congr hlater.agrees fun _ _ => rfl]
  · intro argument hmem grant hparse
    have hchecked := Flags.checkGrants_arguments hready.flags
    exact Grant.namesExactly_iff.1 (checkGrants_eq_ok_iff.1 hchecked argument hmem grant hparse)

theorem shared_flags_of_grant : ∃ session left,
    setUp (Program.optionsOf Program.sampleLine) completeHost = (.ok session, left) ∧
    (∃ line, session.runLine left.files completeArguments =
      .ok ("--enable-native-access=a.B" :: line)) ∧
    ∃ task line, (session.testTask .default left).1.1 = .ok task ∧
      task.invocation.commandLine = .ok ("--enable-native-access=a.B" :: line) := by
  obtain ⟨session, left, line, hsetUp, hflags, -, hline, -, task, htask⟩ :=
    exists_completeSession
  obtain ⟨testLine, hcommand⟩ : ∃ line, task.invocation.commandLine = .ok line := by
    obtain ⟨console, arguments, hcommand⟩ := exists_of_testTask htask
    exact ⟨_, hcommand⟩
  obtain ⟨hmodule, -, hconsole, -, -⟩ := shared_flags hsetUp
  obtain ⟨classpath, -, rfl⟩ := hmodule session .refl _ _ _ hline
  obtain ⟨console, arguments, rfl⟩ := hconsole session .refl _ _ _ _ htask hcommand
  rw [hflags] at hline hcommand
  exact ⟨session, left, hsetUp, ⟨_, hline⟩, task, _, htask, hcommand⟩

end Session

end ModuleRig
