import Mathlib.Data.List.Forall2
import ModuleRig.Proofs.Settings.Validation

/-!
# Grants written out again

A grant that is read holds names which reading takes as they are, so the argument written for it
makes the same grant. No check can tell the two arguments apart: `grants_read_back`.
-/

namespace ModuleRig

open Text (splitOn joinWith)

theorem Text.joinWith_eq_intercalate (separator : Char) (pieces : List (List Char)) :
    joinWith separator pieces = [separator].intercalate pieces := by
  induction pieces with
  | nil => rfl
  | cons piece pieces ih =>
    cases pieces with
    | nil => simp [joinWith]
    | cons next pieces =>
      rw [joinWith_cons_cons, ih]
      simp

namespace Grant

variable {name list argument : String} {grant : Grant} {module : ModuleName}

/-- A list between commas can hold the name as it is. -/
structure IsListable (name : String) : Prop where
  ne_empty : name ≠ ""
  comma_not_mem : ',' ∉ name.toList
  isTrimmed : Text.IsTrimmed name.toList

theorem isListable_of_mem_moduleList (h : name ∈ moduleList list.toList) : IsListable name := by
  obtain ⟨hne, piece, hpiece, htrim⟩ := lists_iff.2 h
  refine ⟨hne, ?_, ?_⟩
  · rw [← htrim]
    exact fun hcomma => Text.not_mem_of_mem_splitOn hpiece (Text.mem_of_mem_trim hcomma)
  · rw [← htrim]
    exact Text.isTrimmed_trim piece

theorem isListable_text (module : ModuleName) : IsListable module.text where
  ne_empty := module.text_ne_empty
  comma_not_mem := module.comma_not_mem
  isTrimmed := Text.isTrimmed_of_word fun _ => ModuleName.isBlank_of_mem

theorem splitOn_modulesText (hne : grant.modules ≠ [])
    (h : ∀ name ∈ grant.modules, IsListable name) :
    splitOn ',' grant.modulesText.toList = grant.modules.map String.toList := by
  have hjoined : grant.modulesText.toList = joinWith ',' (grant.modules.map String.toList) := by
    rw [Text.joinWith_eq_intercalate]
    exact String.toList_intercalate
  rw [hjoined]
  apply Text.splitOn_joinWith
  · simpa using hne
  · simpa using fun name hname => (h name hname).comma_not_mem

theorem moduleList_modulesText (h : ∀ name ∈ grant.modules, IsListable name) :
    moduleList grant.modulesText.toList = grant.modules := by
  by_cases hne : grant.modules = []
  · -- No name at all is written as an empty list, which is one blank piece for the reader.
    rw [modulesText, hne]
    rfl
  · have htrim : (grant.modules.map String.toList).map Text.trim =
        grant.modules.map String.toList := by
      rw [List.map_map]
      apply List.map_congr_left
      intro name hname
      exact Text.trim_of_isTrimmed (h name hname).isTrimmed
    have hfull : (grant.modules.map String.toList).filter (!·.isEmpty) =
        grant.modules.map String.toList := by
      rw [List.filter_eq_self]
      simpa using fun name hname => (h name hname).ne_empty
    rw [moduleList, splitOn_modulesText hne h, htrim, hfull, List.map_map]
    simp [Function.comp_def]

theorem parse?_argument_of_isListable (h : ∀ name ∈ grant.modules, IsListable name) :
    parse? grant.argument = some grant := by
  rw [argument, parse?_joined, moduleList_modulesText h]

theorem isListable_of_parse? (h : parse? argument = some grant) :
    ∀ name ∈ grant.modules, IsListable name := by
  obtain ⟨value, -, rfl⟩ := Option.map_eq_some_iff.1 h
  intro name hname
  rw [← String.toList_ofList (l := value)] at hname
  exact isListable_of_mem_moduleList hname

/-- The second argument is the first, or the one that is written for its grant. -/
inductive Restates : String → String → Prop
  | same (argument : String) : Restates argument argument
  | written {argument : String} {grant : Grant} (h : parse? argument = some grant) :
    Restates argument grant.argument

theorem Restates.parse?_eq {old new : String} (h : Restates old new) :
    parse? new = parse? old := by
  cases h with
  | same => rfl
  | written h => rw [h, parse?_argument_of_isListable (isListable_of_parse? h)]

end Grant

open Grant (Restates)

theorem checkGrants_congr {old new : List String} (module : ModuleName)
    (h : List.Forall₂ (fun a b => Grant.parse? b = Grant.parse? a) old new) :
    checkGrants module new = checkGrants module old := by
  induction h with
  | nil => rfl
  | cons hargument _ ih => rw [checkGrants, checkGrants, hargument, ih]

theorem checkGrants_restated {old new : List String} (module : ModuleName)
    (h : List.Forall₂ Restates old new) : checkGrants module new = checkGrants module old :=
  checkGrants_congr module (h.imp fun _ _ => Restates.parse?_eq)

theorem Grant.forall₂_restates_at {argument : String} {grant : Grant}
    (h : Grant.parse? argument = some grant) (front back : List String) :
    List.Forall₂ Restates (front ++ argument :: back) (front ++ grant.argument :: back) := by
  induction front with
  | nil => exact .cons (.written h) (List.forall₂_same.2 fun a _ => .same a)
  | cons a front ih => exact .cons (.same a) ih

/-- The argument written for a grant that was read, or for that of a module, makes just this grant.
Put in the place of the argument that was read, once or as often as one likes, it changes no check:
neither whether the arguments pass nor what is told about them. -/
theorem grants_read_back :
    (∀ argument grant, Grant.parse? argument = some grant →
      Grant.parse? grant.argument = some grant) ∧
    (∀ module : ModuleName, Grant.parse? module.grant.argument = some module.grant) ∧
    (∀ argument grant, Grant.parse? argument = some grant →
      ∀ (front back : List String) (module : ModuleName),
        checkGrants module (front ++ grant.argument :: back) =
          checkGrants module (front ++ argument :: back)) ∧
    ∀ old new, List.Forall₂ Restates old new → ∀ module : ModuleName,
      checkGrants module new = checkGrants module old := by
  refine ⟨?_, ?_, ?_, ?_⟩
  · intro argument grant h
    exact Grant.parse?_argument_of_isListable (Grant.isListable_of_parse? h)
  · intro module
    apply Grant.parse?_argument_of_isListable
    intro name hname
    rw [List.mem_singleton.1 hname]
    exact Grant.isListable_text module
  · intro argument grant h front back module
    exact checkGrants_restated module (Grant.forall₂_restates_at h front back)
  · intro old new h module
    exact checkGrants_restated module h

theorem grants_read_back_of_blanks :
    Grant.parse? "--enable-native-access=\t a.B ,,\u2003\u00e9.C\u2003," =
      some ⟨["a.B", "\u00e9.C"]⟩ ∧
    Grant.parse? "--enable-native-access=a.B,\u00e9.C" = some ⟨["a.B", "\u00e9.C"]⟩ ∧
    Grant.parse? "--enable-native-access= , " = some ⟨[]⟩ ∧
    Grant.parse? "--enable-native-access=" = some ⟨[]⟩ ∧
    checkGrants Flags.sampleModule ["-ea", "--enable-native-access=a.B,\u00e9.C", "-ea"] =
      .error (.moduleMismatch "a.B" "a.B,\u00e9.C") := by
  have hnames : Grant.parse? "--enable-native-access=\t a.B ,,\u2003\u00e9.C\u2003," =
      some ⟨["a.B", "\u00e9.C"]⟩ := by rfl
  have hnone : Grant.parse? "--enable-native-access= , " = some ⟨[]⟩ := by rfl
  have hwritten : Grant.argument ⟨["a.B", "\u00e9.C"]⟩ = "--enable-native-access=a.B,\u00e9.C" := by
    decide
  have hempty : Grant.argument ⟨[]⟩ = "--enable-native-access=" := by decide
  obtain ⟨hread, -, hcheck, -⟩ := grants_read_back
  have hagain := hread _ _ hnames
  have hemptyAgain := hread _ _ hnone
  have hrefused := hcheck _ _ hnames ["-ea"] ["-ea"] Flags.sampleModule
  rw [hwritten] at hagain hrefused
  rw [hempty] at hemptyAgain
  exact ⟨hnames, hagain, hnone, hemptyAgain, hrefused.trans (by rfl)⟩

end ModuleRig
