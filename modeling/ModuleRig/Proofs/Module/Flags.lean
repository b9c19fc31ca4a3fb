import Mathlib.Data.List.Induction
import ModuleRig.Module.Flags
import ModuleRig.Proofs.Basic

/-!
# What becomes of the configured arguments

The flags are the grant and the configured arguments, each as it comes for the first time
(`ofSettings_eq_ok_iff`). A second occurrence is lost even where it counts, as in an option that is
given twice with different values. `keeps_arguments_iff` says when the arguments stay as they are.
-/

namespace ModuleRig.Flags

/-- A list, and the same list with repeats of one argument left out. Any other argument stays each
time it comes. -/
inductive DropsRepeats (argument : String) : List String → List String → Prop
  | nil : DropsRepeats argument [] []
  | keep {whole kept : List String} (a : String) (h : DropsRepeats argument whole kept) :
      DropsRepeats argument (whole ++ [a]) (kept ++ [a])
  | drop {whole kept : List String} (hmem : argument ∈ whole) (h : DropsRepeats argument whole kept) :
      DropsRepeats argument (whole ++ [argument]) kept

/-! ## Each argument once -/

theorem eraseDups_concat (held : List String) (a : String) :
    (held ++ [a]).eraseDups = addNew held.eraseDups a := by
  rw [List.eraseDups_append, addNew]
  by_cases h : a ∈ held
  · simp [h, List.removeAll]
  · simp [h, List.removeAll, List.eraseDups_cons]

theorem foldl_addNew (held arguments : List String) :
    arguments.foldl addNew held.eraseDups = (held ++ arguments).eraseDups := by
  induction arguments generalizing held with
  | nil => rw [List.append_nil]; rfl
  | cons a arguments ih =>
    rw [List.foldl_cons, ← eraseDups_concat, ih, List.append_assoc, List.singleton_append]

theorem eraseDups_grantArguments (module : ModuleName) (settings : ExecutionSettings) :
    (settings.grantArguments module).eraseDups = settings.grantArguments module := by
  unfold ExecutionSettings.grantArguments
  split
  · simp [List.eraseDups_cons]
  · rfl

theorem ofSettings_eq_ok_iff {module : ModuleName} {settings : ExecutionSettings} {flags : Flags} :
    ofSettings module settings = .ok flags ↔ checkGrants module settings.jvmArgs = .ok () ∧
      flags = ⟨module, (settings.grantArguments module ++ settings.jvmArgs).eraseDups⟩ := by
  rw [← foldl_addNew, eraseDups_grantArguments]
  unfold ofSettings
  constructor
  · intro h
    obtain ⟨⟨⟩, hcheck, h⟩ := exists_of_bind_eq_ok h
    cases h
    exact ⟨hcheck, rfl⟩
  · rintro ⟨hcheck, rfl⟩
    rw [hcheck]
    rfl

/-! ## Nothing lost but repeats of one argument -/

theorem DropsRepeats.filter_eq {argument : String} {whole kept : List String}
    (h : DropsRepeats argument whole kept) :
    kept.filter (· != argument) = whole.filter (· != argument) := by
  induction h with
  | nil => rfl
  | keep a _ ih => rw [List.filter_append, List.filter_append, ih]
  | drop _ _ ih => simp [List.filter_append, ih]

theorem dropsRepeats_eraseDups_iff {argument : String} {whole : List String} :
    DropsRepeats argument whole whole.eraseDups ↔ (whole.filter (· != argument)).Nodup := by
  constructor
  · intro h
    rw [← h.filter_eq]
    exact (nodup_eraseDups whole).filter _
  · intro h
    -- Arguments are taken from the left, so the last one is what is left to look at.
    induction whole using List.reverseRecOn with
    | nil => exact .nil
    | append_singleton whole a ih =>
      rw [List.filter_append, List.nodup_append] at h
      rw [eraseDups_concat, addNew]
      split
      · next hheld =>
        rw [List.contains_iff_mem, List.mem_eraseDups] at hheld
        have ha : a = argument := by
          refine Classical.byContradiction fun hne => ?_
          exact h.2.2 a (by simp [hheld, hne]) a (by simp [hne]) rfl
        subst ha
        exact .drop hheld (ih h.1)
      · exact .keep a (ih h.1)

/-- The grant stays in front and no configured argument vanishes altogether. All arguments stay as
configured, repeats of the grant apart, exactly when no other argument is repeated. -/
theorem keeps_arguments_iff {module : ModuleName} {settings : ExecutionSettings} {flags : Flags}
    (h : ofSettings module settings = .ok flags) :
    settings.grantArguments module <+: flags.arguments ∧
    (∀ a ∈ settings.jvmArgs, a ∈ flags.arguments) ∧
    (DropsRepeats module.grant.argument (settings.grantArguments module ++ settings.jvmArgs)
        flags.arguments ↔
      (settings.jvmArgs.filter (· != module.grant.argument)).Nodup) := by
  obtain ⟨-, rfl⟩ := ofSettings_eq_ok_iff.1 h
  refine ⟨?_, ?_, ?_⟩
  · rw [List.eraseDups_append, eraseDups_grantArguments]
    exact List.prefix_append _ _
  · intro a ha
    exact List.mem_eraseDups.2 (List.mem_append_right _ ha)
  · have hgrant : (settings.grantArguments module).filter (· != module.grant.argument) = [] := by
      unfold ExecutionSettings.grantArguments
      split <;> simp
    rw [dropsRepeats_eraseDups_iff, List.filter_append, hgrant, List.nil_append]

def sampleModule : ModuleName := ⟨"a.B", by decide⟩

/-- The grant is configured again, twice, and nothing else is repeated. -/
def sampleSettings : ExecutionSettings :=
  ⟨true, ["-ea", "--enable-native-access=a.B", "-Xmx1g", "--enable-native-access=a.B"]⟩

theorem keeps_arguments_of_grant_repeated :
    ofSettings sampleModule sampleSettings =
        .ok ⟨sampleModule, ["--enable-native-access=a.B", "-ea", "-Xmx1g"]⟩ ∧
      DropsRepeats sampleModule.grant.argument
        (sampleSettings.grantArguments sampleModule ++ sampleSettings.jvmArgs)
        ["--enable-native-access=a.B", "-ea", "-Xmx1g"] := by
  have h : ofSettings sampleModule sampleSettings =
      .ok ⟨sampleModule, ["--enable-native-access=a.B", "-ea", "-Xmx1g"]⟩ := by rfl
  exact ⟨h, (keeps_arguments_iff h).2.2.2 (by decide)⟩

/-- An option is configured twice, with two values. -/
def repeatedSettings : ExecutionSettings :=
  ⟨true, ["--add-opens", "a/b=c", "--add-opens", "a/d=c"]⟩

theorem not_keeps_arguments_of_option_repeated :
    ofSettings sampleModule repeatedSettings =
        .ok ⟨sampleModule, ["--enable-native-access=a.B", "--add-opens", "a/b=c", "a/d=c"]⟩ ∧
      ¬ DropsRepeats sampleModule.grant.argument
        (repeatedSettings.grantArguments sampleModule ++ repeatedSettings.jvmArgs)
        ["--enable-native-access=a.B", "--add-opens", "a/b=c", "a/d=c"] := by
  refine ⟨by rfl, ?_⟩
  intro h
  have := h.filter_eq
  revert this
  decide

end ModuleRig.Flags
