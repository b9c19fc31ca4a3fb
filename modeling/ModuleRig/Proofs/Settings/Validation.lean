import ModuleRig.Proofs.Module.Grants
import ModuleRig.Proofs.Task.Run
import ModuleRig.Settings.Basic

/-!
# What the check of the settings makes sure of

Settings are checked once, and the flags that are made of them again for each task. `Valid` is what
the first check looks for. Settings that pass it give a module, coordinates, and flags that pass the
second check too, with the grant that the settings add themselves.
-/

namespace ModuleRig

/-! ## Flags -/

theorem Grant.moduleList_text (module : ModuleName) :
    moduleList module.text.toList = [module.text] := by
  unfold moduleList
  rw [Text.splitOn_of_not_mem module.comma_not_mem, List.map_singleton,
    Text.trim_eq_self fun _ => ModuleName.isBlank_of_mem]
  have hne : module.text.toList.isEmpty = false := by
    rw [List.isEmpty_eq_false_iff]
    exact fun h => module.text_ne_empty (String.toList_eq_nil_iff.1 h)
  simp [hne]

namespace Flags

variable {module : ModuleName} {settings : ExecutionSettings} {flags : Flags}

theorem checkGrants_arguments (h : ofSettings module settings = .ok flags) :
    checkGrants module flags.arguments = .ok () := by
  obtain ⟨hcheck, rfl⟩ := ofSettings_eq_ok_iff.1 h
  rw [checkGrants_eq_ok_iff] at hcheck ⊢
  intro argument hmem grant hparse
  rw [List.mem_eraseDups, List.mem_append] at hmem
  rcases hmem with hgrant | hconfigured
  · unfold ExecutionSettings.grantArguments at hgrant
    split at hgrant
    · rw [List.mem_singleton.1 hgrant, Grant.parse?_argument, Grant.moduleList_text] at hparse
      obtain rfl := Option.some.inj hparse
      exact Grant.namesExactly_iff.2 rfl
    · cases hgrant
  · exact hcheck argument hconfigured grant hparse

theorem module_of_ofSettings (h : ofSettings module settings = .ok flags) :
    flags.module = module := by
  obtain ⟨-, rfl⟩ := ofSettings_eq_ok_iff.1 h
  rfl

theorem verifyFor_of_ofSettings (h : ofSettings module settings = .ok flags) :
    flags.verifyFor module = .ok () := by
  rw [verifyFor, if_pos (module_of_ofSettings h)]
  exact checkGrants_arguments h

end Flags

theorem RunTask.make_of_ofSettings {module : ModuleName} {settings : ExecutionSettings}
    {flags : Flags} (h : Flags.ofSettings module settings = .ok flags) :
    make module flags = .ok ⟨module, flags, none, .start taskName⟩ := by
  rw [make, Flags.verifyFor_of_ofSettings h]
  rfl

/-! ## Settings -/

namespace Settings

/-- The settings name a module, two coordinates and some repositories, and grant the module alone
native access. -/
structure Valid (s : Settings) (module : ModuleName) : Prop where
  names : s.module? = .ok module
  dependency : ∃ c, s.dependency? = .ok c
  testLauncher : ∃ c, s.testLauncher? = .ok c
  repositories : s.repositories ≠ []
  addresses : ∀ r ∈ s.repositories, Text.trim r.url.toList ≠ []
  grants : checkGrants module s.execution.jvmArgs = .ok ()

theorem checkRepositories_eq_ok_iff {rs : List RepositorySettings} :
    checkRepositories rs = .ok () ↔ ∀ r ∈ rs, Text.trim r.url.toList ≠ [] := by
  induction rs with
  | nil => simp [checkRepositories]
  | cons r rs ih =>
    rw [checkRepositories, List.forall_mem_cons, ← ih]
    by_cases h : Text.trim r.url.toList = []
    · simp [h]
    · simp [h]

theorem validate_eq_ok_iff {s : Settings} : s.validate = .ok () ↔ ∃ module, s.Valid module := by
  unfold validate
  constructor
  · intro h
    obtain ⟨module, hmodule, h⟩ := exists_of_bind_eq_ok h
    obtain ⟨c, hdependency, h⟩ := exists_of_bind_eq_ok h
    obtain ⟨console, hconsole, h⟩ := exists_of_bind_eq_ok h
    split at h
    · cases h
    · next hsome =>
      obtain ⟨⟨⟩, haddresses, hgrants⟩ := exists_of_bind_eq_ok h
      refine ⟨module, hmodule, ⟨c, hdependency⟩, ⟨console, hconsole⟩, ?_,
        checkRepositories_eq_ok_iff.1 haddresses, hgrants⟩
      exact fun h => hsome (List.isEmpty_iff.2 h)
  · rintro ⟨module, hmodule, ⟨c, hdependency⟩, ⟨console, hconsole⟩, hsome, haddresses, hgrants⟩
    have hempty : ¬ s.repositories.isEmpty = true := fun h => hsome (List.isEmpty_iff.1 h)
    rw [hmodule, hdependency, hconsole]
    show (if _ then _ else _) = _
    rw [if_neg hempty]
    show (checkRepositories s.repositories >>= _) = _
    rw [checkRepositories_eq_ok_iff.2 haddresses]
    exact hgrants

theorem Valid.exists_flags {s : Settings} {module : ModuleName} (h : s.Valid module) :
    ∃ flags, Flags.ofSettings module s.execution = .ok flags :=
  ⟨_, Flags.ofSettings_eq_ok_iff.2 ⟨h.grants, rfl⟩⟩

end Settings

end ModuleRig
