import ModuleRig.Program
import ModuleRig.Proofs.Task.Run

/-!
# The same programs on two hosts

What a launcher's child leaves comes from the program that is found and its arguments. So a task
that is run on two hosts on which the same program is found gives the same result and starts the
same children: `Alike` says so of any two runs, and that neither requests anything.
-/

namespace ModuleRig

/-- The launcher stands for the same program on both hosts, and waiting for a child goes the same way
on both. -/
structure Host.SameProgram (l : Launcher) (host host' : Host) : Prop where
  program : ∀ arguments,
    host'.programFor? l.program arguments = host.programFor? l.program arguments
  waits : host'.waitError? = host.waitError?

theorem Host.SameProgram.refl (l : Launcher) (host : Host) : SameProgram l host host :=
  ⟨fun _ => rfl, rfl⟩

/-- Two runs, each on its host, have the same result, start the same children, and change nothing
but the children started and what was written. -/
structure Alike {α : Type} (host host' : Host) (run run' : α × Host) : Prop where
  result : run'.1 = run.1
  left : ∃ children output output',
    run.2 = { host with launches := host.launches ++ children, output := output } ∧
      run'.2 = { host' with launches := host'.launches ++ children, output := output' }

namespace Alike

variable {α β : Type} {host host' : Host}

theorem same (a : α) : Alike host host' (a, host) (a, host') :=
  ⟨rfl, [], host.output, host'.output, by rw [List.append_nil], by rw [List.append_nil]⟩

theorem child (a : α) (line : List String) (output output' : Output) :
    Alike host host' (a, { host with launches := host.launches ++ [line], output := output })
      (a, { host' with launches := host'.launches ++ [line], output := output' }) :=
  ⟨rfl, [line], output, output', rfl, rfl⟩

theorem map {run run' : α × Host} (h : Alike host host' run run') (f : α → β) :
    Alike host host' (f run.1, run.2) (f run'.1, run'.2) :=
  ⟨congrArg f h.result, h.left⟩

theorem trans {run run' : α × Host} {next next' : β × Host} (h : Alike host host' run run')
    (h' : Alike run.2 run'.2 next next') : Alike host host' next next' := by
  obtain ⟨first, output, output', hleft, hleft'⟩ := h.left
  obtain ⟨second, output₂, output₂', hnext, hnext'⟩ := h'.left
  refine ⟨h'.result, first ++ second, output₂, output₂', ?_, ?_⟩
  · rw [hnext, hleft, List.append_assoc]
  · rw [hnext', hleft', List.append_assoc]

theorem sameProgram {run run' : α × Host} (h : Alike host host' run run') {l : Launcher}
    (hl : Host.SameProgram l host host') : Host.SameProgram l run.2 run'.2 := by
  obtain ⟨children, output, output', hleft, hleft'⟩ := h.left
  rw [hleft, hleft']
  exact ⟨hl.program, hl.waits⟩

theorem files {run run' : α × Host} (h : Alike host host' run run') :
    run.2.files = host.files ∧ run'.2.files = host'.files := by
  obtain ⟨children, output, output', hleft, hleft'⟩ := h.left
  rw [hleft, hleft']
  exact ⟨rfl, rfl⟩

theorem requests {run run' : α × Host} (h : Alike host host' run run') :
    run'.2.requests = host'.requests := by
  obtain ⟨children, output, output', -, hleft'⟩ := h.left
  rw [hleft']

theorem bind {ε : Type} {x x' : Action ε α} {f f' : α → Action ε β}
    (h : Alike host host' (x host) (x' host'))
    (hf : ∀ a, Alike (x host).2 (x' host').2 (f a (x host).2) (f' a (x' host').2)) :
    Alike host host' ((x >>= f) host) ((x' >>= f') host') := by
  have hresult := h.result
  rcases hx : x host with ⟨result, mid⟩
  rcases hx' : x' host' with ⟨result', mid'⟩
  rw [hx, hx'] at h hresult
  obtain rfl : result' = result := hresult
  cases result' with
  | error e =>
    rw [Action.bind_of_error f hx, Action.bind_of_error f' hx']
    exact ⟨rfl, h.left⟩
  | ok a =>
    rw [Action.bind_of_ok f hx, Action.bind_of_ok f' hx']
    have hnext := hf a
    rw [hx, hx'] at hnext
    exact h.trans hnext

end Alike

/-- Two runs, each on its host, have the same result and start the same children. Files may be
changed and pages requested. -/
structure Matches {α : Type} (host host' : Host) (run run' : α × Host) : Prop where
  result : run'.1 = run.1
  launches : ∃ children, run.2.launches = host.launches ++ children ∧
    run'.2.launches = host'.launches ++ children

namespace Matches

variable {α β : Type} {host host' mid mid' : Host} {run run' : α × Host}

theorem map (h : Matches host host' run run') (f : α → β) :
    Matches host host' (f run.1, run.2) (f run'.1, run'.2) :=
  ⟨congrArg f h.result, h.launches⟩

theorem after (h : Matches mid mid' run run') (hmid : mid.launches = host.launches)
    (hmid' : mid'.launches = host'.launches) : Matches host host' run run' := by
  obtain ⟨children, hleft, hleft'⟩ := h.launches
  exact ⟨h.result, children, by rw [hleft, hmid], by rw [hleft', hmid']⟩

theorem trans {next next' : β × Host} (h : Matches host host' run run')
    (h' : Matches run.2 run'.2 next next') : Matches host host' next next' := by
  obtain ⟨first, hleft, hleft'⟩ := h.launches
  obtain ⟨second, hnext, hnext'⟩ := h'.launches
  refine ⟨h'.result, first ++ second, ?_, ?_⟩
  · rw [hnext, hleft, List.append_assoc]
  · rw [hnext', hleft', List.append_assoc]

end Matches

variable {host host' : Host} {l : Launcher}

/-! ## Launchers -/

namespace Launcher

theorem launch_alike (h : Host.SameProgram l host host') (line : List String) :
    Alike host host' (Action.launch l.program line host) (Action.launch l.program line host') := by
  unfold Action.launch
  rw [h.program line]
  cases Host.holdsZero l.program line with
  | true => exact .same _
  | false =>
    cases host.programFor? l.program line with
    | error kind => exact .same _
    | ok program => exact .child _ _ _ _

theorem start_alike (h : Host.SameProgram l host host') (line : List String) :
    Alike host host' (l.start line host) (l.start line host') :=
  (launch_alike h line).map (Except.mapError (Failure.launch l.program.spelling))

theorem await_alike (h : Host.SameProgram l host host') (line : List String) :
    Alike host host' (l.await line host) (l.await line host') := by
  have hwaits := congrFun h.waits line
  cases hwait : host.waitError? line with
  | none =>
    rw [l.await_of_none hwait, l.await_of_none (hwaits.trans hwait)]
    exact .same _
  | some cause =>
    rw [l.await_of_some hwait, l.await_of_some (hwaits.trans hwait)]
    exact .same _

theorem majorVersion_alike (h : Host.SameProgram l host host') :
    Alike host host' (l.majorVersion host) (l.majorVersion host') := by
  have hstart := start_alike h ["-version"]
  refine hstart.bind fun child => ?_
  refine (await_alike (hstart.sameProgram h) ["-version"]).bind fun _ => ?_
  cases JavaVersion.major? (bannerOf child) with
  | none => exact .same _
  | some major => exact .same _

theorem verify_alike (h : Host.SameProgram l host host') (required : Nat) :
    Alike host host' (l.verify required host) (l.verify required host') := by
  refine (majorVersion_alike h).bind fun major => ?_
  split
  · exact .same _
  · exact .same _

end Launcher

theorem Session.chooseLauncher_alike {settings : JavaSettings}
    (hselect : Launcher.select settings host' = Launcher.select settings host)
    (h : Host.SameProgram (Launcher.select settings host) host host') :
    Alike host host' (chooseLauncher settings host) (chooseLauncher settings host') := by
  unfold chooseLauncher
  rw [Action.bind_of_ok _ (by rfl : Action.ask (Launcher.select settings) host = (.ok _, host)),
    Action.bind_of_ok _ (by rfl : Action.ask (Launcher.select settings) host' = (.ok _, host')),
    hselect]
  split
  · exact (Launcher.verify_alike h settings.languageVersion).bind fun _ => .same _
  · exact .same _

/-! ## Tasks -/

theorem Action.relay_alike (host host' : Host) (stdout stderr : Bytes) :
    Alike host host' ((relay stdout stderr : Action Failure Unit) host)
      ((relay stdout stderr : Action Failure Unit) host') :=
  ⟨rfl, [], _, _, by rw [List.append_nil]; rfl, by rw [List.append_nil]; rfl⟩

theorem Invocation.run_alike {i : Invocation} (h : Host.SameProgram i.launcher host host') :
    Alike host host' (i.run host) (i.run host') := by
  unfold run
  refine Alike.bind (.same _) fun line => ?_
  have hstart := Launcher.start_alike h line
  refine hstart.bind fun child => ?_
  have hrelay := Action.relay_alike (i.launcher.start line host).2 (i.launcher.start line host').2
    child.stdout child.stderr
  refine hrelay.bind fun _ => ?_
  exact (Launcher.await_alike (hrelay.sameProgram (hstart.sameProgram h)) line).bind fun _ =>
    .same _

theorem Lifecycle.runOnce_alike (l : Lifecycle) {i : Invocation}
    (h : Host.SameProgram i.launcher host host') :
    Alike host host' (l.runOnce i host) (l.runOnce i host') := by
  have hrun := Invocation.run_alike h
  unfold runOnce
  split
  · exact .same _
  · next running hmove =>
    have hresult := hrun.result
    rcases hi : i.run host with ⟨result, left⟩
    rcases hi' : i.run host' with ⟨result', left'⟩
    rw [hi, hi'] at hrun hresult
    obtain rfl : result' = result := hresult
    cases result' with
    | error e => exact ⟨rfl, hrun.left⟩
    | ok code =>
      dsimp only
      split
      · exact ⟨rfl, hrun.left⟩
      · exact ⟨rfl, hrun.left⟩

theorem RunTask.run_alike {t : RunTask} {arguments : List String}
    (h : ∀ i, t.invocation arguments = .ok i → Host.SameProgram i.launcher host host') :
    Alike host host' (t.run arguments host) (t.run arguments host') := by
  unfold run
  cases hi : t.invocation arguments with
  | error e => exact .same _
  | ok i =>
    exact (t.lifecycle.runOnce_alike (h i hi)).map fun run => (run.1, { t with lifecycle := run.2 })

theorem BenchmarkTask.run_alike {t : BenchmarkTask}
    (h : Host.SameProgram t.invocation.launcher host host') :
    Alike host host' (t.run host) (t.run host') :=
  (t.lifecycle.runOnce_alike h).map fun run =>
    (run.1, ({ t with lifecycle := run.2 } : BenchmarkTask))

theorem TestTask.run_alike {σ : Type} {t : TestTask} (reporter : Reporter σ) (told : σ)
    (h : Host.SameProgram t.invocation.launcher host host') :
    Alike host host' (t.run reporter told host) (t.run reporter told host') := by
  unfold run
  split
  · exact .same _
  · next line hline =>
    split
    · exact .same _
    · next running hmove =>
      have hstart := Launcher.start_alike h line
      have hresult := hstart.result
      rcases hi : t.invocation.launcher.start line host with ⟨result, left⟩
      rcases hi' : t.invocation.launcher.start line host' with ⟨result', left'⟩
      rw [hi, hi'] at hstart hresult
      obtain rfl : result' = result := hresult
      simp only [hi, hi']
      cases result' with
      | error e => exact ⟨rfl, hstart.left⟩
      | ok child =>
        obtain ⟨children, output, output', hleft, hleft'⟩ := hstart.left
        obtain rfl : left = _ := hleft
        obtain rfl : left' = _ := hleft'
        have hwaits := congrFun h.waits line
        cases hwait : host.waitError? line with
        | none =>
          rw [hwait] at hwaits
          simp only [Launcher.await_of_none, hwait, hwaits]
          exact ⟨rfl, children, _, _, rfl, rfl⟩
        | some cause =>
          rw [hwait] at hwaits
          simp only [@Launcher.await_of_some _ _ _ cause, hwait, hwaits]
          exact ⟨rfl, children, _, _, rfl, rfl⟩

/-! ## Sessions -/

namespace Session

variable {s s' : Session} {files files' : FileTree}

/-- The class directories that the settings name are there in both trees, or in neither. -/
def SameClasses (settings : Settings) (files files' : FileTree) : Prop :=
  ∀ dir ∈ settings.project.classes ++ settings.test.classes,
    files'.exists? dir = files.exists? dir

/-- All that tasks are made from is the same. -/
structure Agrees (s s' : Session) : Prop where
  settings : s'.settings = s.settings
  module : s'.module = s.module
  flags : s'.flags = s.flags
  launcher : s'.launcher = s.launcher
  dependency : s'.dependency = s.dependency

theorem Agrees.refl (s : Session) : s.Agrees s :=
  ⟨rfl, rfl, rfl, rfl, rfl⟩

theorem Agrees.of_resolver {settings : Settings} {module : ModuleName} {flags : Flags}
    {launcher : Launcher} {dependency : Artifact} {rs rs' : Repositories} {r r' : CachingResolver} :
    Agrees ⟨settings, module, flags, launcher, rs, r, dependency⟩
      ⟨settings, module, flags, launcher, rs', r', dependency⟩ :=
  ⟨rfl, rfl, rfl, rfl, rfl⟩

theorem existing_congr {dirs : List Path}
    (h : ∀ dir ∈ dirs, files'.exists? dir = files.exists? dir) :
    existing files' dirs = existing files dirs := by
  unfold existing
  rw [List.filter_congr h]

theorem runtimeClasspath_congr (hs : s.Agrees s') (h : SameClasses s.settings files files') :
    s'.runtimeClasspath files' = s.runtimeClasspath files := by
  unfold runtimeClasspath
  rw [hs.settings, hs.dependency,
    existing_congr fun dir hdir => h dir (List.mem_append_left _ hdir)]

theorem runTask_congr (hs : s.Agrees s') (h : SameClasses s.settings files files') :
    s'.runTask files' = s.runTask files := by
  unfold runTask
  rw [hs.module, hs.flags, hs.launcher, runtimeClasspath_congr hs h]

theorem inputs_of_runTask {t : RunTask} (h : s.runTask files = .ok t) :
    t.inputs = some ⟨s.runtimeClasspath files, s.launcher⟩ := by
  obtain ⟨task, -, h⟩ := exists_of_bind_eq_ok h
  obtain ⟨-, -, rfl⟩ := RunTask.materialize_eq_ok_iff.1 h
  rfl

theorem launcher_of_equips {t : RunTask} {i : Invocation} (h : s.runTask files = .ok t)
    (hi : t.Equips i) : i.launcher = s.launcher := by
  have hinputs := hi.inputs
  rw [inputs_of_runTask h] at hinputs
  exact (RunInputs.mk.inj (Option.some.inj hinputs)).2.symm

theorem run_alike (hs : s.Agrees s') (h : SameClasses s.settings host.files host'.files)
    (hl : Host.SameProgram s.launcher host host') (arguments : List String) :
    Alike host host' (s.run arguments host) (s'.run arguments host') := by
  unfold run
  rw [runTask_congr hs h]
  cases htask : s.runTask host.files with
  | error f => exact .same _
  | ok t =>
    refine (RunTask.run_alike fun i hi => ?_).map fun run => run.1
    rw [launcher_of_equips htask (RunTask.equips_of_invocation hi)]
    exact hl

end Session

namespace Program

variable {s s' : Session}

end Program

end ModuleRig
