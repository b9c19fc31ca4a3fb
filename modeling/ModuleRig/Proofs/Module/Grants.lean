import ModuleRig.Proofs.Module.Flags
import ModuleRig.Proofs.Text.Front
import ModuleRig.Proofs.Text.Split

/-!
# Who is granted native access

A launcher takes a list of modules behind the equals sign of the option, and just as well as the next
argument. `Grants` reads arguments in both ways. The check of the flags looks at the first way alone,
so another module can be granted access in the second: `grants_no_other_module` says how far the
check reaches, and `grants_separate` that it reaches no further.
-/

namespace ModuleRig

namespace Grant

/-- The list with commas names the module. Blanks around a name do not count, so a name without blanks
is found whether or not the launcher passes them over. -/
def Lists (list name : String) : Prop :=
  name ≠ "" ∧ ∃ piece ∈ Text.splitOn ',' list.toList, Text.trim piece = name.toList

/-- The arguments grant the module native access. -/
inductive Grants (arguments : List String) (name : String) : Prop
  | joined {list : String} (hmem : option ++ "=" ++ list ∈ arguments) (hname : Lists list name)
  | separate {list : String} (hpair : [option, list] <:+: arguments) (hname : Lists list name)

end Grant

/-! ## Names of modules -/

namespace ModuleName

theorem mem_text {module : ModuleName} {c : Char} (hc : c ∈ module.text.toList) :
    c = '.' ∨ continuesIdentifier c = true := by
  have hvalid := module.valid
  rw [isValid, List.all_eq_true] at hvalid
  rw [← Text.joinWith_splitOn '.' module.text.toList] at hc
  refine (Text.mem_joinWith hc).imp_right ?_
  rintro ⟨piece, hpiece, hmem⟩
  have hpart := hvalid piece hpiece
  cases piece with
  | nil => cases hmem
  | cons d piece =>
    rw [isIdentifier, Bool.and_eq_true, List.all_eq_true] at hpart
    rcases List.mem_cons.1 hmem with rfl | hmem
    · have hstart := hpart.1
      simp only [startsIdentifier, Bool.or_eq_true] at hstart
      simp only [continuesIdentifier, Bool.or_eq_true]
      refine hstart.imp_left (Or.imp_left ?_)
      unfold Text.isAlphabetic Text.isAlphanumeric
      intro h
      split
      · next hlt => simp_all [Char.isAlphanum]
      · next hlt => simp_all
    · exact hpart.2 c hmem

theorem text_ne_empty (module : ModuleName) : module.text ≠ "" := by
  intro h
  have hvalid := module.valid
  rw [h] at hvalid
  revert hvalid
  decide

theorem comma_not_mem (module : ModuleName) : ',' ∉ module.text.toList := by
  intro h
  rcases mem_text h with h | h
  · contradiction
  · revert h
    decide

theorem isBlank_of_mem {module : ModuleName} {c : Char} (hc : c ∈ module.text.toList) :
    Text.isBlank c = false := by
  rw [← Bool.not_eq_true]
  intro hblank
  have hcodes : ∀ code ∈ Text.blankCodes, ¬ (Char.ofNat code = '.' ∨
      continuesIdentifier (Char.ofNat code) = true) := by decide +kernel
  have := hcodes c.toNat (Text.mem_blankCodes hblank)
  rw [Char.ofNat_toNat] at this
  exact this (mem_text hc)

end ModuleName

/-! ## Grants in one argument -/

namespace Grant

theorem lists_text {module : ModuleName} {name : String} :
    Lists module.text name ↔ name = module.text := by
  unfold Lists
  rw [Text.splitOn_of_not_mem module.comma_not_mem]
  simp only [List.mem_singleton, exists_eq_left, Text.trim_eq_self fun _ => ModuleName.isBlank_of_mem]
  constructor
  · rintro ⟨-, h⟩
    exact String.toList_inj.1 h.symm
  · rintro rfl
    exact ⟨module.text_ne_empty, rfl⟩

theorem lists_iff {list name : String} : Lists list name ↔ name ∈ moduleList list.toList := by
  unfold Lists moduleList
  simp only [List.mem_map, List.mem_filter, Bool.not_eq_true', List.isEmpty_eq_false_iff]
  constructor
  · rintro ⟨hne, piece, hpiece, htrim⟩
    refine ⟨_, ⟨⟨piece, hpiece, htrim⟩, ?_⟩, String.ofList_toList⟩
    exact fun h => hne (String.toList_eq_nil_iff.1 h)
  · rintro ⟨_, ⟨⟨piece, hpiece, rfl⟩, hne⟩, rfl⟩
    rw [String.toList_ofList]
    refine ⟨fun h => hne ?_, piece, hpiece, rfl⟩
    rw [← String.toList_ofList (l := Text.trim piece), h]
    rfl

theorem parse?_joined (list : String) :
    parse? (option ++ "=" ++ list) = some ⟨moduleList list.toList⟩ := by
  rw [parse?, String.toList_append, String.toList_append]
  have : Text.after? (option.toList ++ ['=']) (option.toList ++ "=".toList ++ list.toList) =
    some list.toList := Text.after?_append (option.toList ++ ['=']) list.toList
  rw [this, Option.map_some]

theorem argument_grant (module : ModuleName) :
    module.grant.argument = option ++ "=" ++ module.text := by
  rfl

theorem parse?_option : parse? option = none := by
  rfl

theorem parse?_argument (module : ModuleName) :
    parse? module.grant.argument = some ⟨moduleList module.text.toList⟩ := by
  rw [argument_grant, parse?_joined]

theorem namesExactly_iff {grant : Grant} {module : ModuleName} :
    grant.namesExactly module = true ↔ grant.modules = [module.text] := by
  rw [namesExactly, beq_iff_eq]

end Grant

theorem checkGrants_eq_ok_iff {module : ModuleName} {arguments : List String} :
    checkGrants module arguments = .ok () ↔ ∀ argument ∈ arguments, ∀ grant,
      Grant.parse? argument = some grant → grant.namesExactly module = true := by
  induction arguments with
  | nil => simp [checkGrants]
  | cons argument arguments ih =>
    rw [checkGrants, List.forall_mem_cons, ← ih]
    cases hparse : Grant.parse? argument with
    | none => simp
    | some grant =>
      by_cases hnames : grant.namesExactly module = true
      · simp [hnames]
      · simp [hnames]

theorem ExecutionSettings.not_mem_grantArguments {module : ModuleName} {argument : String}
    (settings : ExecutionSettings) (hnone : Grant.parse? argument = none) :
    argument ∉ settings.grantArguments module := by
  unfold ExecutionSettings.grantArguments
  split
  · rw [List.mem_singleton]
    rintro rfl
    rw [Grant.parse?_argument] at hnone
    contradiction
  · exact List.not_mem_nil

namespace Flags

open Grant

theorem joined_lists {module : ModuleName} {settings : ExecutionSettings} {flags : Flags}
    {list name : String} (h : ofSettings module settings = .ok flags)
    (hmem : Grant.option ++ "=" ++ list ∈ flags.arguments) (hname : Lists list name) :
    name = module.text := by
  obtain ⟨hcheck, rfl⟩ := ofSettings_eq_ok_iff.1 h
  rw [List.mem_eraseDups, List.mem_append] at hmem
  rcases hmem with hmem | hmem
  · unfold ExecutionSettings.grantArguments at hmem
    split at hmem
    · rw [List.mem_singleton, argument_grant, String.append_right_inj] at hmem
      subst hmem
      exact lists_text.1 hname
    · cases hmem
  · have hnames := checkGrants_eq_ok_iff.1 hcheck _ hmem _ (parse?_joined list)
    have hlist : moduleList list.toList = [module.text] := namesExactly_iff.1 hnames
    rw [lists_iff, hlist, List.mem_singleton] at hname
    exact hname

theorem option_not_mem {module : ModuleName} {settings : ExecutionSettings} {flags : Flags}
    (h : ofSettings module settings = .ok flags) (hnone : Grant.option ∉ settings.jvmArgs) :
    Grant.option ∉ flags.arguments := by
  obtain ⟨-, rfl⟩ := ofSettings_eq_ok_iff.1 h
  rw [List.mem_eraseDups, List.mem_append, not_or]
  exact ⟨settings.not_mem_grantArguments parse?_option, hnone⟩

/-- The check keeps every grant behind an equals sign to the module. So no other module is granted
access exactly when no list that follows the bare option as an argument names one, and that is so
when the option is never configured bare. -/
theorem grants_no_other_module {module : ModuleName} {settings : ExecutionSettings} {flags : Flags}
    (h : ofSettings module settings = .ok flags) :
    (∀ list name, Grant.option ++ "=" ++ list ∈ flags.arguments → Lists list name →
      name = module.text) ∧
    ((∀ name, Grants flags.arguments name → name = module.text) ↔
      ∀ list name, [Grant.option, list] <:+: flags.arguments → Lists list name →
        name = module.text) ∧
    (Grant.option ∉ settings.jvmArgs → ∀ name, Grants flags.arguments name →
      name = module.text) := by
  refine ⟨fun list name => joined_lists h, ⟨?_, ?_⟩, ?_⟩
  · intro hgrants list name hpair hname
    exact hgrants name (.separate hpair hname)
  · rintro hpairs name (⟨hmem, hname⟩ | ⟨hpair, hname⟩)
    · exact joined_lists h hmem hname
    · exact hpairs _ name hpair hname
  · rintro hnone name (⟨hmem, hname⟩ | ⟨hpair, hname⟩)
    · exact joined_lists h hmem hname
    · exact absurd (hpair.subset List.mem_cons_self) (option_not_mem h hnone)

def sampleGrant : ExecutionSettings :=
  ⟨true, ["-ea", "--enable-native-access= a.B ,"]⟩

theorem grants_no_other_module_of_blanks :
    ofSettings sampleModule sampleGrant = .ok ⟨sampleModule,
        ["--enable-native-access=a.B", "-ea", "--enable-native-access= a.B ,"]⟩ ∧
      ∀ name, Grants ["--enable-native-access=a.B", "-ea", "--enable-native-access= a.B ,"] name →
        name = "a.B" := by
  have h : ofSettings sampleModule sampleGrant = .ok ⟨sampleModule,
      ["--enable-native-access=a.B", "-ea", "--enable-native-access= a.B ,"]⟩ := by rfl
  exact ⟨h, (grants_no_other_module h).2.2 (by decide)⟩

theorem grants_separate {module : ModuleName} {enable : Bool} {list name : String}
    (hparse : Grant.parse? list = none) (hne : list ≠ Grant.option) (hname : Lists list name) :
    ∃ flags, ofSettings module ⟨enable, [Grant.option, list]⟩ = .ok flags ∧
      Grants flags.arguments name := by
  have hcheck : checkGrants module [Grant.option, list] = .ok () := by
    rw [checkGrants_eq_ok_iff]
    intro argument hmem grant hgrant
    rcases List.mem_cons.1 hmem with rfl | hmem
    · cases hgrant
    · rw [List.mem_singleton.1 hmem, hparse] at hgrant
      cases hgrant
  refine ⟨_, ofSettings_eq_ok_iff.2 ⟨hcheck, rfl⟩, .separate ?_ hname⟩
  have hremoved : [Grant.option, list].removeAll
      (ExecutionSettings.grantArguments ⟨enable, [Grant.option, list]⟩ module) =
      [Grant.option, list] := by
    simp [List.removeAll, ExecutionSettings.not_mem_grantArguments _ hparse,
      ExecutionSettings.not_mem_grantArguments _ parse?_option]
  have hpair : [Grant.option, list].eraseDups = [Grant.option, list] := by
    simp [List.eraseDups_cons, hne]
  rw [List.eraseDups_append, hremoved, hpair]
  exact (List.suffix_append _ _).isInfix

theorem not_only_module_of_separate_list :
    ofSettings sampleModule ⟨true, ["--enable-native-access", "a.C"]⟩ = .ok ⟨sampleModule,
        ["--enable-native-access=a.B", "--enable-native-access", "a.C"]⟩ ∧
      Grants ["--enable-native-access=a.B", "--enable-native-access", "a.C"] "a.C" ∧
      "a.C" ≠ sampleModule.text := by
  refine ⟨by rfl, ?_, by decide⟩
  have hpair : [Grant.option, "a.C"] <:+:
      ["--enable-native-access=a.B", "--enable-native-access", "a.C"] :=
    ⟨["--enable-native-access=a.B"], [], rfl⟩
  have hlists : Lists "a.C" "a.C" := ⟨by decide, _, List.mem_cons_self, by decide⟩
  exact .separate hpair hlists

end Flags

end ModuleRig
