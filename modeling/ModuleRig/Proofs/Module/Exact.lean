import ModuleRig.Proofs.Settings.Validation

/-!
# Grants to the module alone

Flags are refused over a list behind the equals sign that has anything but the module's name in it,
and over nothing else. Flags that are made are the module's: `accepts_only_exact_grants`.
-/

namespace ModuleRig

namespace Grant

/-- One piece between the commas is the name, blanks around it apart, and the others are blank. So a
name that comes twice does not stand alone. -/
def ListsOnly (list name : String) : Prop :=
  ∃ front piece back, Text.splitOn ',' list.toList = front ++ piece :: back ∧
    Text.trim piece = name.toList ∧ ∀ other ∈ front ++ back, Text.trim other = []

theorem moduleList_eq_singleton_iff {list name : String} (hne : name ≠ "") :
    moduleList list.toList = [name] ↔ ListsOnly list name := by
  have hname : name.toList ≠ [] := fun h => hne (String.toList_eq_nil_iff.1 h)
  unfold moduleList ListsOnly
  constructor
  · intro h
    obtain ⟨piece, hpiece, rfl⟩ := List.map_eq_singleton_iff.1 h
    obtain ⟨front, back, hsplit, hfront, -, hback⟩ := List.filter_eq_cons_iff.1 hpiece
    obtain ⟨before, rest, hpieces, rfl, hrest⟩ := List.map_eq_append_iff.1 hsplit
    obtain ⟨first, after, rfl, rfl, rfl⟩ := List.map_eq_cons_iff.1 hrest
    refine ⟨before, first, after, hpieces, String.toList_ofList.symm, ?_⟩
    rw [List.filter_eq_nil_iff] at hback
    intro other hother
    rcases List.mem_append.1 hother with hother | hother
    · simpa using hfront _ (List.mem_map_of_mem hother)
    · simpa using hback _ (List.mem_map_of_mem hother)
  · rintro ⟨front, piece, back, hpieces, hpiece, hothers⟩
    rw [List.forall_mem_append] at hothers
    have hblank : ∀ pieces : List (List Char), (∀ other ∈ pieces, Text.trim other = []) →
        (pieces.map Text.trim).filter (!·.isEmpty) = [] := by
      intro pieces h
      rw [List.filter_eq_nil_iff]
      intro trimmed hmem
      obtain ⟨other, hother, rfl⟩ := List.mem_map.1 hmem
      simp [h other hother]
    rw [hpieces, List.map_append, List.map_cons, List.filter_append, List.filter_cons,
      hblank front hothers.1, hblank back hothers.2, hpiece]
    simp [hname]

theorem parse?_eq_some_iff {argument : String} {grant : Grant} :
    parse? argument = some grant ↔
      ∃ list, argument = option ++ "=" ++ list ∧ grant = ⟨moduleList list.toList⟩ := by
  constructor
  · intro h
    obtain ⟨value, hvalue, rfl⟩ := Option.map_eq_some_iff.1 h
    refine ⟨String.ofList value, ?_, by rw [String.toList_ofList]⟩
    rw [← String.toList_inj, Text.after?_eq_some_iff.1 hvalue]
    simp
  · rintro ⟨list, rfl, rfl⟩
    exact parse?_joined list

theorem namesExactly_moduleList {list : String} {module : ModuleName} :
    namesExactly ⟨moduleList list.toList⟩ module = true ↔ ListsOnly list module.text :=
  namesExactly_iff.trans (moduleList_eq_singleton_iff module.text_ne_empty)

end Grant

open Grant (ListsOnly)

variable {module : ModuleName} {settings : ExecutionSettings} {flags : Flags}

/-! ## What is refused -/

theorem checkGrants_eq_error {arguments : List String} {failure : Failure}
    (h : checkGrants module arguments = .error failure) :
    ∃ found, failure = .moduleMismatch module.text found := by
  induction arguments with
  | nil => cases h
  | cons argument arguments ih =>
    rw [checkGrants] at h
    split at h
    · exact ih h
    · split at h
      · exact ih h
      · cases h
        exact ⟨_, rfl⟩

theorem checkGrants_ok_iff_listsOnly {arguments : List String} :
    checkGrants module arguments = .ok () ↔
      ∀ list, Grant.option ++ "=" ++ list ∈ arguments → ListsOnly list module.text := by
  rw [checkGrants_eq_ok_iff]
  constructor
  · intro h list hmem
    exact Grant.namesExactly_moduleList.1 (h _ hmem _ (Grant.parse?_joined list))
  · intro h argument hmem grant hparse
    obtain ⟨list, rfl, rfl⟩ := Grant.parse?_eq_some_iff.1 hparse
    exact Grant.namesExactly_moduleList.2 (h list hmem)

namespace Flags

theorem ofSettings_eq_error_iff {failure : Failure} :
    ofSettings module settings = .error failure ↔
      checkGrants module settings.jvmArgs = .error failure := by
  unfold ofSettings
  cases checkGrants module settings.jvmArgs with
  | error e => exact ⟨fun h => by cases h; rfl, fun h => by cases h; rfl⟩
  | ok u => exact iff_of_false (fun h => by cases h) (fun h => by cases h)

theorem exists_error_iff :
    (∃ failure, ofSettings module settings = .error failure) ↔
      ∃ list, Grant.option ++ "=" ++ list ∈ settings.jvmArgs ∧ ¬ ListsOnly list module.text := by
  have hok : (∀ failure, checkGrants module settings.jvmArgs ≠ .error failure) ↔
      checkGrants module settings.jvmArgs = .ok () := by
    cases checkGrants module settings.jvmArgs with
    | error e => exact iff_of_false (fun h => h e rfl) (fun h => by cases h)
    | ok u => exact iff_of_true (fun _ h => by cases h) rfl
  rw [checkGrants_ok_iff_listsOnly] at hok
  simp only [ofSettings_eq_error_iff]
  rw [← not_iff_not]
  push Not
  exact hok

/-! ## What the flags are good for -/

theorem verifyFor_eq_ok_iff (h : ofSettings module settings = .ok flags) (other : ModuleName) :
    flags.verifyFor other = .ok () ↔ other = module := by
  constructor
  · intro hverify
    unfold verifyFor at hverify
    split at hverify
    · next hmodule => exact hmodule.symm.trans (module_of_ofSettings h)
    · cases hverify
  · rintro rfl
    exact verifyFor_of_ofSettings h

theorem grantsNativeAccess_iff (h : ofSettings module settings = .ok flags) :
    flags.grantsNativeAccess = true ↔ settings.enableNativeAccess = true ∨
      ∃ list, Grant.option ++ "=" ++ list ∈ settings.jvmArgs ∧ ListsOnly list module.text := by
  obtain ⟨-, rfl⟩ := ofSettings_eq_ok_iff.1 h
  unfold grantsNativeAccess
  simp only [List.any_eq_true, List.mem_filterMap, List.mem_eraseDups, List.mem_append]
  constructor
  · rintro ⟨grant, ⟨argument, hgrant | hconfigured, hparse⟩, hnames⟩
    · refine .inl ?_
      unfold ExecutionSettings.grantArguments at hgrant
      split at hgrant
      · next henabled => exact henabled
      · cases hgrant
    · obtain ⟨list, rfl, rfl⟩ := Grant.parse?_eq_some_iff.1 hparse
      exact .inr ⟨list, hconfigured, Grant.namesExactly_moduleList.1 hnames⟩
  · rintro (henabled | ⟨list, hmem, hlist⟩)
    · refine ⟨_, ⟨module.grant.argument, .inl ?_, Grant.parse?_argument module⟩, ?_⟩
      · rw [ExecutionSettings.grantArguments, if_pos henabled]
        exact List.mem_singleton_self _
      · exact Grant.namesExactly_iff.2 (Grant.moduleList_text module)
    · exact ⟨_, ⟨_, .inr hmem, Grant.parse?_joined list⟩, Grant.namesExactly_moduleList.2 hlist⟩

/-- The settings are refused just if a list behind the equals sign is not the module alone, whether
or not the settings grant access themselves, and then over the module. The flags they give are good
for the module and for no other, and say whether anything grants the module access. -/
theorem accepts_only_exact_grants (module : ModuleName) (settings : ExecutionSettings) :
    (∀ failure, ofSettings module settings = .error failure →
      ∃ found, failure = .moduleMismatch module.text found) ∧
    ((∃ expected found, ofSettings module settings = .error (.moduleMismatch expected found)) ↔
      ∃ list, Grant.option ++ "=" ++ list ∈ settings.jvmArgs ∧ ¬ ListsOnly list module.text) ∧
    ∀ flags, ofSettings module settings = .ok flags →
      (∀ other, flags.verifyFor other = .ok () ↔ other = module) ∧
      (flags.grantsNativeAccess = true ↔ settings.enableNativeAccess = true ∨
        ∃ list, Grant.option ++ "=" ++ list ∈ settings.jvmArgs ∧ ListsOnly list module.text) := by
  have hfailure : ∀ failure, ofSettings module settings = .error failure →
      ∃ found, failure = .moduleMismatch module.text found :=
    fun failure h => checkGrants_eq_error (ofSettings_eq_error_iff.1 h)
  refine ⟨hfailure, ?_, fun flags h => ⟨verifyFor_eq_ok_iff h, grantsNativeAccess_iff h⟩⟩
  rw [← exists_error_iff]
  constructor
  · rintro ⟨expected, found, h⟩
    exact ⟨_, h⟩
  · rintro ⟨failure, h⟩
    obtain ⟨found, rfl⟩ := hfailure failure h
    exact ⟨module.text, found, h⟩

/-- The grant is switched off, and an argument makes it with blanks about the name. -/
def configuredGrant : ExecutionSettings :=
  ⟨false, ["-ea", "--enable-native-access=, a.B"]⟩

/-- A list may have blank pieces beside the module, but not another module or the module twice. -/
theorem accepts_only_exact_grants_of_blanks :
    (∃ flags, ofSettings sampleModule configuredGrant = .ok flags ∧
      flags.verifyFor sampleModule = .ok () ∧ flags.grantsNativeAccess = true) ∧
    (∃ expected found, ofSettings sampleModule ⟨false, ["--enable-native-access=a.B,a.B"]⟩ =
      .error (.moduleMismatch expected found)) := by
  have h : ofSettings sampleModule configuredGrant =
      .ok ⟨sampleModule, configuredGrant.jvmArgs⟩ := by rfl
  have hlist : ListsOnly ", a.B" sampleModule.text := ⟨[[]], " a.B".toList, [], by decide⟩
  obtain ⟨hverify, hgrants⟩ := (accepts_only_exact_grants _ _).2.2 _ h
  refine ⟨⟨_, h, (hverify sampleModule).2 rfl, hgrants.2 (.inr ⟨_, ?_, hlist⟩)⟩, ?_⟩
  · exact List.mem_cons_of_mem _ List.mem_cons_self
  · refine (accepts_only_exact_grants sampleModule _).2.1.2 ⟨"a.B,a.B", List.mem_cons_self, ?_⟩
    rw [← Grant.moduleList_eq_singleton_iff sampleModule.text_ne_empty]
    decide

end Flags

end ModuleRig
