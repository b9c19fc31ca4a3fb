import ModuleRig.Program
import ModuleRig.Proofs.Cache.Saving
import ModuleRig.Proofs.Repository.Passes
import ModuleRig.Proofs.Task.Run

/-!
# Setting up a session

Setting up goes from the settings by way of a resolution to the launcher. A resolution starts no
program, and the launcher is only asked for its version. `setup_failure_starts_no_task` says what
has happened when the program stops before its task.
-/

namespace ModuleRig

/-- Pages were requested and files changed in between, and nothing else. -/
structure Host.Fetched (host left : Host) : Prop where
  web : left.web = host.web
  environment : left.environment = host.environment
  now : left.now = host.now
  later : left.later = host.later
  launches : left.launches = host.launches
  waits : left.waitError? = host.waitError?
  output : left.output = host.output

theorem Host.Fetched.refl (host : Host) : host.Fetched host :=
  ⟨rfl, rfl, rfl, rfl, rfl, rfl, rfl⟩

theorem Host.Fetched.trans {host mid left : Host} (h : host.Fetched mid) (h' : mid.Fetched left) :
    host.Fetched left where
  web := h'.web.trans h.web
  environment := h'.environment.trans h.environment
  now := h'.now.trans h.now
  later := h'.later.trans h.later
  launches := h'.launches.trans h.launches
  waits := h'.waits.trans h.waits
  output := h'.output.trans h.output

theorem Host.fetched_asked (host : Host) (urls : List String) : host.Fetched (host.asked urls) :=
  ⟨rfl, rfl, rfl, rfl, rfl, rfl, rfl⟩

theorem Host.fetched_performed (host : Host) (operations : List FileTree.Operation) :
    host.Fetched (host.performed operations) :=
  ⟨rfl, rfl, rfl, rfl, rfl, rfl, rfl⟩

/-! ## Resolutions -/

theorem Repositories.fetched_resolve (rs : Repositories) (c : Coordinate) (host : Host) :
    host.Fetched (rs.resolve c host).2 := by
  have hresolved := rs.resolved_resolve c host
  generalize rs.resolve c host = run at hresolved
  cases hresolved with
  | failed urls e => exact host.fetched_asked urls
  | present urls v name root content hsettles hfirst => exact host.fetched_asked urls
  | stored urls v name address content hsettles hfirst =>
    exact (host.fetched_asked urls).trans (Host.fetched_performed _ _)

theorem Cache.fetched_save (cache : Cache) (host : Host) : host.Fetched (cache.save host).2 := by
  cases hfile : cache.file? with
  | none =>
    rw [save_of_none hfile]
    exact .refl host
  | some file =>
    rw [save_of_some hfile]
    exact host.fetched_performed (saveOperations cache.index file)

theorem CachingResolver.Call.fetched (call : Call) (r : CachingResolver)
    (h : call.host.Fetched call.upstream.2) : call.host.Fetched (call.left r) := by
  cases call.ends r with
  | reused entry hentry hpermits hanswer hnext hleft => rw [hleft]; exact .refl _
  | refused hanswer hnext hleft => rw [hleft]; exact .refl _
  | failed e honline hup hanswer hasked hcache hleft => rw [hleft]; exact h
  | remembered a honline hup hanswer hasked hcache hleft =>
    rw [hleft]
    exact h.trans (Cache.fetched_save _ _)

namespace Session

theorem fetched_of_resolve {rs : Repositories} {r : CachingResolver} {c : Coordinate}
    {host left : Host} {result : Except Failure Artifact × CachingResolver}
    (h : resolve rs r c host = (result, left)) : host.Fetched left := by
  have hfetched := CachingResolver.Call.fetched ⟨c, host, rs.resolve⟩ r (rs.fetched_resolve c host)
  have hleft : CachingResolver.Call.left ⟨c, host, rs.resolve⟩ r = left :=
    congrArg (fun run => run.2) h
  rw [hleft] at hfetched
  exact hfetched

/-! ## The launcher -/

/-- No program was started in between, but perhaps the launcher, to tell its version. -/
def AtMostAsks (host left : Host) : Prop :=
  left.launches = host.launches ∨ left.launches = host.launches ++ [["-version"]]

theorem launches_majorVersion (l : Launcher) (host : Host) :
    (l.majorVersion host).2.launches = (l.start ["-version"] host).2.launches := by
  unfold Launcher.majorVersion
  refine Action.left_bind Host.launches _ (fun child mid => ?_) host
  refine (Action.left_bind Host.launches _ (fun _ mid => ?_) mid).trans
    (congrArg Host.launches (l.left_await _ mid))
  cases JavaVersion.major? (Launcher.bannerOf child) <;> rfl

theorem majorVersion_left (l : Launcher) (host : Host) :
    AtMostAsks host (l.majorVersion host).2 := by
  unfold AtMostAsks
  rw [launches_majorVersion]
  obtain ⟨e, hstart⟩ | ⟨child, hstart⟩ := l.start_cases ["-version"] host
  · rw [hstart]
    exact .inl rfl
  · rw [hstart]
    exact .inr rfl

theorem verify_left (l : Launcher) (required : Nat) (host : Host) :
    (l.verify required host).2 = (l.majorVersion host).2 := by
  unfold Launcher.verify
  rcases hmajor : l.majorVersion host with ⟨result, left⟩
  cases result with
  | error e => rw [Action.bind_of_error _ hmajor]
  | ok major =>
    rw [Action.bind_of_ok _ hmajor]
    dsimp only
    split <;> rfl

theorem chooseLauncher_eq (settings : JavaSettings) (host : Host) :
    chooseLauncher settings host =
      if settings.checkVersion = true then
        let verified := (Launcher.select settings host).verify settings.languageVersion host
        (verified.1.map fun _ => Launcher.select settings host, verified.2)
      else (.ok (Launcher.select settings host), host) := by
  unfold chooseLauncher
  rw [Action.bind_of_ok _ (by rfl : Action.ask (Launcher.select settings) host = (.ok _, host))]
  split
  · rcases hverify : (Launcher.select settings host).verify settings.languageVersion host with
      ⟨result, left⟩
    cases result with
    | error e => rw [Action.bind_of_error _ hverify]; rfl
    | ok u => rw [Action.bind_of_ok _ hverify]; rfl
  · rfl

section

variable {settings : JavaSettings} {host left : Host}

theorem asks_of_chooseLauncher {result : Except Failure Launcher}
    (h : chooseLauncher settings host = (result, left)) : AtMostAsks host left := by
  rw [chooseLauncher_eq] at h
  split at h
  · cases h
    rw [verify_left]
    exact majorVersion_left _ host
  · cases h
    exact .inl rfl

end

/-! ## What is settled first -/

/-- Where the settings of a project are read. -/
def settingsPath (options : SetupOptions) : Path :=
  options.settingsFile.getD (options.projectDir.child Settings.fileName)

/-- Two trees have the same settings file, or both have none. -/
structure SameSettings (options : SetupOptions) (files files' : FileTree) : Prop where
  isFile : files'.isFile (settingsPath options) = files.isFile (settingsPath options)
  text : files'.readText (settingsPath options) = files.readText (settingsPath options)

/-- The settings cannot be loaded, or are refused. -/
def Rejects (files : FileTree) (options : SetupOptions) : Prop :=
  (∃ e, Settings.load files options.projectDir options.settingsFile = .error e) ∨
    ∃ settings f, Settings.load files options.projectDir options.settingsFile = .ok settings ∧
      settings.validate = .error f

theorem exists_prepare_of_rejects {files : FileTree} {options : SetupOptions}
    (h : Rejects files options) : ∃ e, prepare files options = .error e := by
  unfold prepare
  rcases h with ⟨e, hload⟩ | ⟨settings, f, hload, hvalidate⟩
  · rw [hload]
    exact ⟨_, rfl⟩
  · rw [hload]
    refine ⟨.failure f, ?_⟩
    show (settings.validate.mapError SetupError.failure >>= _) = _
    rw [hvalidate]
    rfl

theorem load_congr {options : SetupOptions} {files files' : FileTree}
    (h : SameSettings options files files') :
    Settings.load files' options.projectDir options.settingsFile =
      Settings.load files options.projectDir options.settingsFile := by
  obtain ⟨hfile, htext⟩ := h
  unfold Settings.load Settings.find Settings.ofFile
  cases hnamed : options.settingsFile with
  | none =>
    rw [settingsPath, hnamed, Option.getD_none] at hfile htext
    simp only [hfile, htext]
  | some path =>
    rw [settingsPath, hnamed, Option.getD_some] at htext
    simp only [htext]

theorem prepare_congr {options : SetupOptions} {files files' : FileTree}
    (h : SameSettings options files files') : prepare files' options = prepare files options := by
  unfold prepare
  rw [load_congr h]

/-! ## Setting up -/

theorem setUp_of_prepare_error {options : SetupOptions} {host : Host} {e : SetupError}
    (h : prepare host.files options = .error e) : setUp options host = (.error e, host) := by
  unfold setUp
  rw [h]

theorem AtMostAsks.after {host mid left : Host} (h : host.Fetched mid) (h' : AtMostAsks mid left) :
    AtMostAsks host left := by
  unfold AtMostAsks at h' ⊢
  rw [h.launches] at h'
  exact h'

theorem AtMostAsks.before {host mid left : Host} (h : AtMostAsks host mid)
    (h' : left.launches = mid.launches) : AtMostAsks host left := by
  unfold AtMostAsks
  rw [h']
  exact h

/-- The resolver that a session starts with. -/
def firstResolver (options : SetupOptions) (settings : Settings) (files : FileTree) :
    CachingResolver :=
  .start (policyOf settings options) (Cache.load files settings.cache.dir)

/-- The resolution of the module's jar, which is the first one of a session. -/
def resolveFirst (options : SetupOptions) (settings : Settings) (c : Coordinate) :
    StateM Host (Except Failure Artifact × CachingResolver) :=
  fun host =>
    resolve (repositoriesOf settings options.projectDir)
      (firstResolver options settings host.files) c host

/-- The ways in which setting up can end. -/
inductive SetsUp (options : SetupOptions) (host : Host) : Except SetupError Session × Host → Prop
  | refused {e : SetupError} (hprepare : prepare host.files options = .error e) :
      SetsUp options host (.error e, host)
  | unresolved {settings module flags c f r left}
      (hprepare : prepare host.files options = .ok (settings, module, flags, c))
      (hresolve : resolveFirst options settings c host = ((.error f, r), left)) :
      SetsUp options host (.error (.failure f), left)
  | unlaunched {settings module flags c d r mid f left}
      (hprepare : prepare host.files options = .ok (settings, module, flags, c))
      (hresolve : resolveFirst options settings c host = ((.ok d, r), mid))
      (hlauncher : chooseLauncher settings.java mid = (.error f, left)) :
      SetsUp options host (.error (.failure f), left)
  | ready {settings module flags c d r mid launcher left}
      (hprepare : prepare host.files options = .ok (settings, module, flags, c))
      (hresolve : resolveFirst options settings c host = ((.ok d, r), mid))
      (hlauncher : chooseLauncher settings.java mid = (.ok launcher, left)) :
      SetsUp options host (.ok ⟨settings, module, flags, launcher,
        repositoriesOf settings options.projectDir, r, d⟩, left)

theorem setsUp (options : SetupOptions) (host : Host) :
    SetsUp options host (setUp options host) := by
  unfold setUp
  split
  · next e hprepare => exact .refused hprepare
  · next settings module flags c hprepare =>
    dsimp only
    split
    · next f r left hresolve => exact .unresolved hprepare hresolve
    · next d r mid hresolve =>
      split
      · next f left hlauncher => exact .unlaunched hprepare hresolve hlauncher
      · next launcher left hlauncher => exact .ready hprepare hresolve hlauncher

theorem fetched_of_resolveFirst {options : SetupOptions} {settings : Settings} {c : Coordinate}
    {host left : Host} {result : Except Failure Artifact × CachingResolver}
    (h : resolveFirst options settings c host = (result, left)) : host.Fetched left := by
  unfold resolveFirst at h
  exact fetched_of_resolve h

theorem setUp_left (options : SetupOptions) (host : Host) :
    AtMostAsks host (setUp options host).2 := by
  have hsetsUp := setsUp options host
  generalize setUp options host = run at hsetsUp
  cases hsetsUp with
  | refused hprepare => exact .inl rfl
  | unresolved hprepare hresolve => exact .inl (fetched_of_resolveFirst hresolve).launches
  | unlaunched hprepare hresolve hlauncher =>
    exact (asks_of_chooseLauncher hlauncher).after (fetched_of_resolveFirst hresolve)
  | ready hprepare hresolve hlauncher =>
    exact (asks_of_chooseLauncher hlauncher).after (fetched_of_resolveFirst hresolve)

/-- The ways in which making the test task can end. -/
inductive MakesTests (s : Session) (options : TestOptions) (host : Host) :
    (Except Failure TestTask × Session) × Host → Prop
  | refused {f : Failure} (hc : s.settings.testLauncher? = .error f) :
      MakesTests s options host ((.error f, s), host)
  | unresolved {c f r left} (hc : s.settings.testLauncher? = .ok c)
      (hresolve : resolve s.repositories s.resolver c host.passed = ((.error f, r), left)) :
      MakesTests s options host ((.error f, { s with resolver := r }), left)
  | resolved {c} {console : Artifact} {r left} (hc : s.settings.testLauncher? = .ok c)
      (hresolve : resolve s.repositories s.resolver c host.passed = ((.ok console, r), left)) :
      MakesTests s options host
        ((s.testTaskWith left.files console.path options, { s with resolver := r }), left)

theorem makesTests (s : Session) (options : TestOptions) (host : Host) :
    MakesTests s options host (s.testTask options host) := by
  unfold testTask
  split
  · next f hc => exact .refused hc
  · next c hc =>
    split
    · next f r left hresolve => exact .unresolved hc hresolve
    · next console r left hresolve => exact .resolved hc hresolve

theorem launches_testTask (s : Session) (options : TestOptions) (host : Host) :
    (s.testTask options host).2.launches = host.launches := by
  have hmakes := s.makesTests options host
  generalize s.testTask options host = run at hmakes
  cases hmakes with
  | refused hc => rfl
  | unresolved hc hresolve =>
    exact (fetched_of_resolve hresolve).launches.trans host.launches_passed
  | resolved hc hresolve =>
    exact (fetched_of_resolve hresolve).launches.trans host.launches_passed

theorem test_of_testTask_error {σ : Type} {s s' : Session} {options : TestOptions}
    {host left : Host} {f : Failure} (h : s.testTask options host = ((.error f, s'), left))
    (reporter : Reporter σ) (told : σ) : s.test options reporter told host = ((.error f, s', told), left) := by
  unfold test
  rw [h]

end Session

namespace Program

variable {line : CommandLine} {arguments : List String} {host left : Host}

theorem run_of_error {e : SetupError} (h : execute line host = (.error e, left)) :
    run line host = (2, (complain ("Error: " ++ e.fullMessage ++ "\n") left).2) := by
  unfold run
  rw [h]
  cases e <;> rfl

theorem start_of_error {e : SetupError} (hparse : CommandLine.parse arguments = .ok line)
    (h : execute line host = (.error e, left)) :
    start arguments host =
      (.finished 2, (complain ("Error: " ++ e.fullMessage ++ "\n") left).2) := by
  unfold start
  rw [hparse]
  simp only [run_of_error h]

theorem execute_of_setUp_error {e : SetupError}
    (h : Session.setUp (optionsOf line) host = (.error e, left)) :
    execute line host = (.error e, left) :=
  Action.bind_of_error _ h

theorem runTests_of_testTask_error {s next : Session} {options : TestOptions} {f : Failure}
    (h : s.testTask options host = ((.error f, next), left)) (format : ReportFormat) :
    runTests s options format host = (.error f, left) := by
  simp only [runTests, Session.test_of_testTask_error h, List.append_nil]
  rfl

theorem execute_of_testTask_error {session next : Session} {options : TestOptions}
    {format : ReportFormat} {mid : Host} {f : Failure}
    (hsetUp : Session.setUp (optionsOf line) host = (.ok session, mid))
    (hcommand : line.command = .test options format)
    (htask : session.testTask options mid = ((.error f, next), left)) :
    execute line host = (.error (.failure f), left) := by
  unfold execute
  rw [Action.bind_of_ok _ hsetUp, hcommand]
  simp only [Action.mapError, runCommand, runTests_of_testTask_error htask]
  rfl

/-- If the settings cannot be loaded or are refused, or anything fails before the resolution, then
the settings file alone decides what is told, and nothing else has happened. If setting up fails
later, or the console launcher is not resolved, then the launcher was at most asked for its version.
The exit code is 2 each time. -/
theorem setup_failure_starts_no_task (hparse : CommandLine.parse arguments = .ok line)
    (host : Host) :
    (Session.Rejects host.files (optionsOf line) →
      ∃ e, Session.prepare host.files (optionsOf line) = .error e) ∧
    (∀ e, Session.prepare host.files (optionsOf line) = .error e →
      ∀ host' : Host, Session.SameSettings (optionsOf line) host.files host'.files →
        start arguments host' =
          (.finished 2, (complain ("Error: " ++ e.fullMessage ++ "\n") host').2)) ∧
    (∀ e, (Session.setUp (optionsOf line) host).1 = .error e →
      (start arguments host).1 = .finished 2 ∧
        Session.AtMostAsks host (start arguments host).2) ∧
    ∀ session mid options format f, Session.setUp (optionsOf line) host = (.ok session, mid) →
      line.command = .test options format → (session.testTask options mid).1.1 = .error f →
      (start arguments host).1 = .finished 2 ∧
        Session.AtMostAsks host (start arguments host).2 := by
  refine ⟨Session.exists_prepare_of_rejects, ?_, ?_, ?_⟩
  · intro e hprepare host' hsame
    have hsetUp : Session.setUp (optionsOf line) host' = (.error e, host') :=
      Session.setUp_of_prepare_error (by rw [Session.prepare_congr hsame, hprepare])
    exact start_of_error hparse (execute_of_setUp_error hsetUp)
  · intro e hsetUp
    have hasks := Session.setUp_left (optionsOf line) host
    rcases hrun : Session.setUp (optionsOf line) host with ⟨result, left⟩
    rw [hrun] at hsetUp hasks
    obtain rfl : result = .error e := hsetUp
    rw [start_of_error hparse (execute_of_setUp_error hrun)]
    exact ⟨rfl, hasks⟩
  · intro session mid options format f hsetUp hcommand htask
    have hasks := Session.setUp_left (optionsOf line) host
    have hlaunches := session.launches_testTask options mid
    rcases hrun : session.testTask options mid with ⟨⟨result, next⟩, left⟩
    rw [hrun] at htask hlaunches
    rw [hsetUp] at hasks
    obtain rfl : result = .error f := htask
    have hleft : Session.AtMostAsks host left := hasks.before hlaunches
    rw [start_of_error hparse (execute_of_testTask_error hsetUp hcommand hrun)]
    exact ⟨rfl, hleft⟩

def sampleLine : CommandLine := ⟨none, ".", false, false, false, .test .default .text⟩

def sampleSettings : String :=
  "[application]\nmain_module = \"a.B\"\n[dependency]\ncoordinate = \"g:n:1\"\n" ++
    "[[repository]]\nname = \"r\"\nurl = \"repo\"\n[java]\nhome = \"jdk\"\n" ++
    "[test]\nlauncher = \"g:m:1\"\n"

/-- The repository has the module's jar, but not that of the console launcher. -/
def sampleHost : Host :=
  { Host.blank with
    files.entries :=
      [(["harness.toml"], .file (Text.Utf8.ofText sampleSettings) .plain),
        (["repo", "g", "n", "1", "n-1.jar"], .file [] .plain),
        (["jdk", "bin", "java"], .file [] (.program fun _ =>
          ⟨[], Text.Utf8.ofText "version \"25\"", .ofCode 0⟩))] ++
        [["repo"], ["repo", "g"], ["repo", "g", "n"], ["repo", "g", "n", "1"], ["jdk"],
          ["jdk", "bin"]].map (·, .directory) }

theorem setup_failure_starts_no_task_of_missing_console :
    CommandLine.parse ["test"] = .ok sampleLine ∧
    ∃ session mid f, Session.setUp (optionsOf sampleLine) sampleHost = (.ok session, mid) ∧
      (session.testTask .default mid).1.1 = .error f ∧
      (start ["test"] sampleHost).1 = .finished 2 ∧
      Session.AtMostAsks sampleHost (start ["test"] sampleHost).2 := by
  have hparse : CommandLine.parse ["test"] = .ok sampleLine := by rfl
  have hfails : (Session.setUp (optionsOf sampleLine) sampleHost).1.toOption.any (fun session =>
      !(session.testTask .default
        (Session.setUp (optionsOf sampleLine) sampleHost).2).1.1.isOk) = true := by
    decide +kernel
  rcases hsetUp : Session.setUp (optionsOf sampleLine) sampleHost with ⟨result, mid⟩
  rw [hsetUp] at hfails
  obtain ⟨session, hsession, hconsole⟩ := exists_of_any_toOption hfails
  obtain rfl : result = .ok session := hsession
  cases htask : (session.testTask .default mid).1.1 with
  | error f =>
    obtain ⟨-, -, -, hstops⟩ := setup_failure_starts_no_task hparse sampleHost
    exact ⟨hparse, session, mid, f, rfl, htask, hstops _ _ _ _ f hsetUp rfl htask⟩
  | ok task =>
    rw [htask] at hconsole
    cases hconsole

end Program

end ModuleRig
