import ModuleRig.Proofs.Cache.Kept
import ModuleRig.Proofs.Coordinate.Reading
import ModuleRig.Proofs.Settings.Validation
import ModuleRig.Repository.Resolver

/-!
# The console launcher among the answers that are kept

The settings can say whether the module is changing, but not whether the console launcher is. Its
coordinate is taken as it was read, so a launcher with an exact version is kept for ever just if
this version is no snapshot.
-/

namespace ModuleRig

namespace Coordinate

theorem changesByDefault_iff {selector : Version.Selector} :
    changesByDefault selector = true ↔
      ∃ v, selector = .exact v ∧ Version.isSnapshot v = true := by
  cases selector <;> simp [changesByDefault]

end Coordinate

theorem CachePolicy.windowFor_eq_none_iff {policy : CachePolicy} {c : Coordinate} {v : String}
    (hexact : c.selector = .exact v) : policy.windowFor c = none ↔ c.changing = false := by
  unfold windowFor
  rw [hexact]
  cases c.changing with
  | true => simp
  | false => simp [Version.Selector.isDynamic]

namespace Settings

variable {s : Settings} {c : Coordinate}

theorem changing_of_testLauncher? (h : s.testLauncher? = .ok c) :
    c.changing = Coordinate.changesByDefault c.selector := by
  unfold testLauncher? coordinate? Coordinate.parse? at h
  obtain ⟨_, -, -, -, -, hchanging⟩ :=
    Coordinate.parse_eq_ok_iff.1 (mapError_eq_ok_iff.1 (mapError_eq_ok_iff.1 h))
  exact hchanging

theorem changing_iff_of_testLauncher? (h : s.testLauncher? = .ok c) :
    c.changing = true ↔ ∃ v, c.selector = .exact v ∧ Version.isSnapshot v = true := by
  rw [changing_of_testLauncher? h, Coordinate.changesByDefault_iff]

theorem windowFor_testLauncher? {v : String} (policy : CachePolicy) (h : s.testLauncher? = .ok c)
    (hexact : c.selector = .exact v) :
    policy.windowFor c = none ↔ ¬ Version.isSnapshot v = true := by
  rw [CachePolicy.windowFor_eq_none_iff hexact, changing_of_testLauncher? h, hexact,
    Bool.not_eq_true]
  rfl

/-- The launcher of settings that pass the check is changing just if its version is an exact
snapshot. Every other exact launcher is never asked for again, and a snapshot only offline. -/
theorem launcher_kept_iff (s : Settings) (hvalid : s.validate = .ok ()) :
    ∃ c, s.testLauncher? = .ok c ∧
      (c.changing = true ↔ ∃ v, c.selector = .exact v ∧ Version.isSnapshot v = true) ∧
      ∀ v, c.selector = .exact v → ∀ policy : CachePolicy, policy.refresh = false →
        (policy.KeepsLast c ↔ policy.offline = true ∨ ¬ Version.isSnapshot v = true) ∧
        (policy.KeepsSettled c ↔ policy.offline = true ∨ ¬ Version.isSnapshot v = true) := by
  obtain ⟨module, hmodule⟩ := validate_eq_ok_iff.1 hvalid
  obtain ⟨c, hc⟩ := hmodule.testLauncher
  refine ⟨c, hc, changing_iff_of_testLauncher? hc, ?_⟩
  intro v hexact policy hrefresh
  rw [← windowFor_testLauncher? policy hc hexact]
  exact ⟨CachePolicy.keepsLast_iff hrefresh, CachePolicy.keepsSettled_iff hrefresh⟩

/-- The launcher of the settings that count when nothing is said. -/
def defaultLauncher : Coordinate :=
  ⟨"org.junit.platform", "junit-platform-console-standalone", .exact "1.14.1", false⟩

open CachePolicy CachingResolver

theorem launcher_kept_iff_of_default :
    Settings.default.validate = .ok () ∧ Settings.default.testLauncher? = .ok defaultLauncher ∧
    CachePolicy.default.KeepsLast defaultLauncher ∧
    (jarCall defaultLauncher 3155760000000000000).Reuses
      (after (start .default .inMemory) ([] ++ [jarCall defaultLauncher 0]))
      (jarOf defaultLauncher) := by
  have hvalid : Settings.default.validate = .ok () := by decide +kernel
  have hlauncher : Settings.default.testLauncher? = .ok defaultLauncher := by decide +kernel
  have hplain : ¬ Version.isSnapshot "1.14.1" = true := by decide +kernel
  obtain ⟨c, hc, -, hkept⟩ := launcher_kept_iff Settings.default hvalid
  obtain rfl : c = defaultLauncher := Except.ok.inj (hc.symm.trans hlauncher)
  obtain ⟨hlast, hsettled⟩ := hkept "1.14.1" rfl .default rfl
  refine ⟨hvalid, hlauncher, hlast.2 (.inr hplain), ?_⟩
  exact hsettled.2 (.inr hplain) .inMemory [] (jarCall _ 0) [] _ _ rfl
    (first_jarCall rfl _ 0).1 (by simp) rfl (findsIntact_jarCall _ _)

/-- Settings that name a snapshot of the launcher. -/
def snapshotSettings : Settings :=
  { Settings.default with test := ⟨"g:m:1-SNAPSHOT", []⟩ }

def snapshotLauncher : Coordinate := ⟨"g", "m", .exact "1-SNAPSHOT", true⟩

def snapshotJar : Artifact :=
  ⟨"g:m:1-SNAPSHOT", "1-SNAPSHOT", ⟨"/r/g/m/1-SNAPSHOT/m-1-SNAPSHOT.jar"⟩, "r",
    Digest.ofBytes [1]⟩

def snapshotFiles : FileTree :=
  ⟨[(["r"], .directory), (["r", "g"], .directory), (["r", "g", "m"], .directory),
    (["r", "g", "m", "1-SNAPSHOT"], .directory),
    (["r", "g", "m", "1-SNAPSHOT", "m-1-SNAPSHOT.jar"], .file [1] .plain)], []⟩

/-- A directory has the jar of the launcher at all times. -/
def snapshotCall (now : Int) : Call :=
  ⟨snapshotLauncher, { Host.blank with files := snapshotFiles, now },
    Repositories.resolve ⟨[.directory "r" ⟨"/r"⟩], ⟨"/c"⟩⟩⟩

/-- Two hours later the repository is asked once more, while the file is as it was. -/
theorem not_kept_of_snapshot :
    snapshotSettings.validate = .ok () ∧
    snapshotSettings.testLauncher? = .ok snapshotLauncher ∧ snapshotLauncher.changing = true ∧
    (snapshotCall 0).answer (start .default .inMemory) = .ok snapshotJar ∧
    (snapshotCall 7200000000000).FindsIntact snapshotJar ∧
    (snapshotCall 7200000000000).consultation?
        (after (start .default .inMemory) [snapshotCall 0]) =
      some ⟨"g:m:1-SNAPSHOT", 7200000000000, .ok snapshotJar⟩ := by
  have hasked : ((snapshotCall 7200000000000).next
      (after (start .default .inMemory) [snapshotCall 0])).consulted =
        (after (start .default .inMemory) [snapshotCall 0]).consulted + 1 := by
    decide +kernel
  have hup : (snapshotCall 7200000000000).upstream.1 = .ok snapshotJar := by decide +kernel
  refine ⟨by decide +kernel, by decide +kernel, rfl, by decide +kernel, ?_, ?_⟩
  · show snapshotFiles.digest snapshotJar.path = .ok snapshotJar.sha256
    decide +kernel
  · rw [consultation?_eq_some hasked, hup]
    rfl

end Settings

end ModuleRig
