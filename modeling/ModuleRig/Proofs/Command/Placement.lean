import Mathlib.Logic.Relation
import ModuleRig.Proofs.Command.Written

/-!
# Options on either side of a command

An option that belongs to every level may stand in front of the command or behind it. If none of
them is given twice, moving one across the command leaves a line accepted that was, and it asks for
the same: `common_options_move_freely`.
-/

namespace ModuleRig.Arguments

/-- The option belongs to every level. -/
def Item.IsCommon (i : Item) : Prop :=
  i.option ∈ commonOptions.map Prod.snd

instance (i : Item) : Decidable i.IsCommon :=
  inferInstanceAs (Decidable (_ ∈ _))

/-- No common option is given twice, and the two that exclude each other are not both given. -/
structure Unrepeated (items : List Item) : Prop where
  once : ∀ o ∈ commonOptions.map Prod.snd, (optionsIn items).count o ≤ 1
  apart : ¬(.switch .offline ∈ items ∧ .switch .refresh ∈ items)

def Written.items (w : Written) : List Item :=
  w.front ++ w.behind

/-- One common option is taken across the command, to a place between the options there. -/
inductive Move (w : Written) : Written → Prop
  | toBehind {i : Item} {front₁ front₂ behind₁ behind₂ : List Item} (hi : i.IsCommon)
      (hfront : w.front = front₁ ++ i :: front₂) (hbehind : w.behind = behind₁ ++ behind₂) :
      Move w { w with front := front₁ ++ front₂, behind := behind₁ ++ i :: behind₂ }
  | toFront {i : Item} {front₁ front₂ behind₁ behind₂ : List Item} (hi : i.IsCommon)
      (hfront : w.front = front₁ ++ front₂) (hbehind : w.behind = behind₁ ++ i :: behind₂) :
      Move w { w with front := front₁ ++ i :: front₂, behind := behind₁ ++ behind₂ }

variable {level level' : Level} {i : Item} {items items' : List Item} {w w' : Written}
  {line : CommandLine}

/-! ## Common options -/

theorem Item.IsCommon.option?_name (hi : i.IsCommon) (level : Level) :
    level.option? i.name = some i.option := by
  cases i with
  | switch x => exact Arguments.option?_name level x
  | valued v value attached =>
    cases v with
    | settingsFile => cases level <;> rfl
    | projectDir => cases level <;> rfl
    | _ => simp [IsCommon, option, commonOptions] at hi

theorem Item.IsCommon.fits_eq (hi : i.IsCommon) (level level' : Level) :
    i.fits level = i.fits level' := by
  unfold fits
  rw [hi.option?_name level, hi.option?_name level']

theorem valuesOf_insert_of_common {v : Valued} (hi : i.IsCommon)
    (hv : .valued v ∉ commonOptions.map Prod.snd) (items items' : List Item) :
    valuesOf v (items ++ i :: items') = valuesOf v (items ++ items') := by
  have hnone : i.valueOf? v = none := by
    rw [Item.valueOf?_eq_none_iff]
    rintro heq
    exact hv (heq ▸ hi)
  simp [valuesOf, hnone]

theorem commandOf_insert_of_common (hi : i.IsCommon) (level : Level) (items items' : List Item)
    (arguments : List String) :
    commandOf level { Given.ofItems (items ++ i :: items') with arguments } =
      commandOf level { Given.ofItems (items ++ items') with arguments } := by
  have hsame : ∀ v : Valued, .valued v ∉ commonOptions.map Prod.snd →
      valuesOf v (items ++ i :: items') = valuesOf v (items ++ items') :=
    fun v hv => valuesOf_insert_of_common hi hv items items'
  cases level with
  | test =>
    simp only [commandOf, Given.ofItems, firstOf?, hsame .details (by decide),
      hsame .format (by decide), hsame .includeTag (by decide), hsame .excludeTag (by decide)]
  | _ => rfl

/-! ## Options in any order -/

theorem perm_optionsIn (h : items.Perm items') : (optionsIn items).Perm (optionsIn items') :=
  h.map _

theorem Unrepeated.of_perm (hitems : Unrepeated items) (h : items.Perm items') :
    Unrepeated items' := by
  constructor
  · intro o ho
    rw [← (perm_optionsIn h).count_eq]
    exact hitems.once o ho
  · rw [← h.mem_iff, ← h.mem_iff]
    exact hitems.apart

theorem Unrepeated.length_valuesOf_le {v : Valued} (hitems : Unrepeated items)
    (hv : .valued v ∈ commonOptions.map Prod.snd) : (valuesOf v items).length ≤ 1 := by
  rw [length_valuesOf]
  exact hitems.once _ hv

theorem firstOf?_eq_of_perm {α : Type} {read : String → Option α} {v : Valued}
    (h : items.Perm items') (hone : (valuesOf v items).length ≤ 1) :
    firstOf? read v items = firstOf? read v items' := by
  have hperm : (valuesOf v items).Perm (valuesOf v items') := h.filterMap _
  unfold firstOf?
  cases hvalues : valuesOf v items with
  | nil =>
    rw [hvalues] at hperm
    rw [hperm.nil_eq]
  | cons value values =>
    rw [hvalues] at hperm hone
    have hnil : values = [] := List.length_eq_zero_iff.1 (by simpa using hone)
    subst hnil
    rw [List.singleton_perm.1 hperm]

theorem firstOf?_or {α : Type} {read : String → Option α} {v : Valued}
    (hone : (valuesOf v (items ++ items')).length ≤ 1) :
    (firstOf? read v items').or (firstOf? read v items) = firstOf? read v (items ++ items') := by
  unfold firstOf?
  rw [valuesOf_append] at hone ⊢
  cases hvalues : valuesOf v items with
  | nil => simp
  | cons value values =>
    rw [hvalues, List.length_append, List.length_cons] at hone
    have hnil : valuesOf v items' = [] := List.length_eq_zero_iff.1 (by omega)
    simp [hnil]

/-- What a line asks for depends on its common options, wherever they stand, and on its command. -/
theorem meaning_eq_of_perm (hw : Unrepeated w.items) (h : w.items.Perm w'.items)
    (hcommand : commandOf w.level w.below = commandOf w'.level w'.below) :
    w.meaning = w'.meaning := by
  have hvalue : ∀ {α : Type} (read : String → Option α) (v : Valued),
      .valued v ∈ commonOptions.map Prod.snd →
      (firstOf? read v w.behind).or (firstOf? read v w.front) =
        (firstOf? read v w'.behind).or (firstOf? read v w'.front) := by
    intro α read v hv
    have hone := hw.length_valuesOf_le hv
    have hone' := (hw.of_perm h).length_valuesOf_le hv
    exact (firstOf?_or hone).trans ((firstOf?_eq_of_perm h hone).trans (firstOf?_or hone').symm)
  have hswitch : ∀ x : Switch,
      (w.front.contains (.switch x) || w.behind.contains (.switch x)) =
        (w'.front.contains (.switch x) || w'.behind.contains (.switch x)) := by
    intro x
    rw [← List.contains_append, ← List.contains_append]
    exact h.contains_eq
  simp only [Written.meaning, Written.below, combine, Given.ofItems] at hcommand ⊢
  rw [hvalue _ _ (by decide), hvalue _ _ (by decide), hswitch, hswitch, hswitch, hcommand]

/-! ## One option moved -/

theorem count_optionsIn_le (h : items.Sublist items') (o : LongOption) :
    (optionsIn items).count o ≤ (optionsIn items').count o :=
  (h.map _).count_le o

theorem Unrepeated.of_sublist (h : Unrepeated items') (hsub : items.Sublist items') :
    Unrepeated items where
  once o ho := Nat.le_trans (count_optionsIn_le hsub o) (h.once o ho)
  apart hboth := h.apart (hboth.imp hsub.mem hsub.mem)

theorem AcceptedAt.of_sublist (h : AcceptedAt level items') (hsub : items.Sublist items') :
    AcceptedAt level items where
  values i hi := h.values i (hsub.mem hi)
  once o ho := Nat.le_trans (count_optionsIn_le hsub o) (h.once o ho)
  fits i hi := h.fits i (hsub.mem hi)
  apart hboth := h.apart (hboth.imp hsub.mem hsub.mem)

theorem AcceptedAt.insert (h : AcceptedAt level (items ++ items')) (hi : i.IsCommon)
    (hfits : i.fits level' = true) (hsound : i.isSound = true)
    (hall : Unrepeated (items ++ i :: items')) : AcceptedAt level (items ++ i :: items') := by
  have hmem : ∀ j ∈ items ++ i :: items', j = i ∨ j ∈ items ++ items' := by
    intro j hj
    exact List.mem_cons.1 (List.perm_middle.mem_iff.1 hj)
  constructor
  · constructor
    · intro j hj
      rcases hmem j hj with rfl | hj
      · exact hsound
      · exact h.values j hj
    · intro o ho
      by_cases heq : i.option = o
      · subst heq
        exact hall.once _ hi
      · rw [(perm_optionsIn List.perm_middle).count_eq, optionsIn, List.map_cons,
          List.count_cons_of_ne heq]
        exact h.once o ho
  · intro j hj
    rcases hmem j hj with rfl | hj
    · rw [hi.fits_eq level level', hfits]
    · exact h.fits j hj
  · exact hall.apart

theorem perm_across (items₁ items₂ items₁' items₂' : List Item) :
    (items₁ ++ i :: items₂ ++ (items₁' ++ items₂')).Perm
      (items₁ ++ items₂ ++ (items₁' ++ i :: items₂')) := by
  have hleft : (items₁ ++ i :: items₂ ++ (items₁' ++ items₂')).Perm
      (i :: (items₁ ++ items₂) ++ (items₁' ++ items₂')) := List.perm_middle.append_right _
  have hright : (items₁ ++ items₂ ++ (items₁' ++ i :: items₂')).Perm
      (items₁ ++ items₂ ++ i :: (items₁' ++ items₂')) := List.perm_middle.append_left _
  exact hleft.trans (List.perm_middle.symm.trans hright.symm)

namespace Move

theorem perm (h : Move w w') : w.items.Perm w'.items := by
  cases h with
  | toBehind hi hfront hbehind =>
    rw [Written.items, hfront, hbehind]
    exact perm_across ..
  | toFront hi hfront hbehind =>
    rw [Written.items, hfront, hbehind]
    exact (perm_across ..).symm

theorem commandOf_eq (h : Move w w') :
    commandOf w.level w.below = commandOf w'.level w'.below := by
  cases h with
  | toBehind hi hfront hbehind =>
    rw [Written.below, Written.below, hbehind]
    exact (commandOf_insert_of_common hi ..).symm
  | toFront hi hfront hbehind =>
    rw [Written.below, Written.below, hbehind]
    exact commandOf_insert_of_common hi ..

theorem meaning_eq (h : Move w w') (hw : Unrepeated w.items) : w.meaning = w'.meaning :=
  meaning_eq_of_perm hw h.perm h.commandOf_eq

theorem acceptedAt (h : Move w w') (hw : Unrepeated w.items) (hfront : AcceptedAt .top w.front)
    (hbehind : AcceptedAt w.level w.behind) :
    AcceptedAt .top w'.front ∧ AcceptedAt w'.level w'.behind := by
  have hw' := hw.of_perm h.perm
  have hunfront : Unrepeated w'.front := hw'.of_sublist (List.sublist_append_left ..)
  have hunbehind : Unrepeated w'.behind := hw'.of_sublist (List.sublist_append_right ..)
  cases h with
  | @toBehind i _ _ _ _ hi hf hb =>
    have hmem : i ∈ w.front := by simp [hf]
    rw [hb] at hbehind
    refine ⟨?_, hbehind.insert hi (hfront.fits i hmem) (hfront.values i hmem) hunbehind⟩
    rw [hf] at hfront
    exact hfront.of_sublist ((List.sublist_cons_self ..).append_left _)
  | @toFront i _ _ _ _ hi hf hb =>
    have hmem : i ∈ w.behind := by simp [hb]
    rw [hf] at hfront
    refine ⟨hfront.insert hi (hbehind.fits i hmem) (hbehind.values i hmem) hunfront, ?_⟩
    rw [hb] at hbehind
    exact hbehind.of_sublist ((List.sublist_cons_self ..).append_left _)

theorem parse_eq_ok (h : Move w w') (hw : Unrepeated w.items)
    (hline : CommandLine.parse w.arguments = .ok line) :
    CommandLine.parse w'.arguments = .ok line := by
  obtain ⟨hfront, hbehind, htail, rfl⟩ := (parse_arguments_eq_ok_iff w).1 hline
  obtain ⟨hfront', hbehind'⟩ := h.acceptedAt hw hfront hbehind
  refine (parse_arguments_eq_ok_iff w').2 ⟨hfront', hbehind', ?_, h.meaning_eq hw⟩
  cases h with
  | toBehind => exact htail
  | toFront => exact htail

end Move

/-! ## Any number of options moved -/

theorem parse_eq_ok_of_moves (hmoves : Relation.ReflTransGen Move w w')
    (hw : Unrepeated w.items) (hline : CommandLine.parse w.arguments = .ok line) :
    Unrepeated w'.items ∧ CommandLine.parse w'.arguments = .ok line := by
  induction hmoves with
  | refl => exact ⟨hw, hline⟩
  | tail _ h ih =>
    obtain ⟨hw', hline'⟩ := ih
    exact ⟨hw'.of_perm h.perm, h.parse_eq_ok hw' hline'⟩

/-- A line that is accepted is written in one way. If it has no common option twice and not both
that exclude each other, then such options may be taken across the command, one after the other and
in both directions: each line that comes about is accepted and asks for the same. -/
theorem common_options_move_freely {arguments : List String}
    (h : CommandLine.parse arguments = .ok line) :
    (∃! w : Written, w.arguments = arguments) ∧
      ∀ w : Written, w.arguments = arguments → Unrepeated w.items →
        ∀ w', Relation.ReflTransGen Move w w' → CommandLine.parse w'.arguments = .ok line := by
  refine ⟨existsUnique_written h, ?_⟩
  rintro w rfl hw w' hmoves
  exact (parse_eq_ok_of_moves hmoves hw h).2

theorem common_options_move_freely_of_assorted :
    let w : Written :=
      ⟨[.valued .projectDir "p" false, .switch .offline], "test", .test, rfl,
        [.valued .includeTag "a" false, .valued .settingsFile "c" true,
          .valued .includeTag "b" false], none⟩
    let w' : Written :=
      ⟨[.valued .settingsFile "c" true, .valued .projectDir "p" false], "test", .test, rfl,
        [.valued .includeTag "a" false, .switch .offline, .valued .includeTag "b" false], none⟩
    let line : CommandLine :=
      ⟨some "c", "p", true, false, false, .test ⟨.tree, ["a", "b"], []⟩ .text⟩
    w.arguments = ["--project-dir", "p", "--offline", "test", "--include-tag", "a", "--config=c",
      "--include-tag", "b"] ∧
    w'.arguments = ["--config=c", "--project-dir", "p", "test", "--include-tag", "a", "--offline",
      "--include-tag", "b"] ∧
    CommandLine.parse w.arguments = .ok line ∧ Unrepeated w.items ∧
    Relation.ReflTransGen Move w w' ∧ CommandLine.parse w'.arguments = .ok line := by
  intro w w' line
  have hline : CommandLine.parse w.arguments = .ok line := by rfl
  have hw : Unrepeated w.items := ⟨by decide, by decide⟩
  let between : Written :=
    { w with
      front := [.valued .projectDir "p" false]
      behind := [.valued .includeTag "a" false, .switch .offline, .valued .settingsFile "c" true,
        .valued .includeTag "b" false] }
  have hswitch : Move w between := @Move.toBehind w (.switch .offline)
    [.valued .projectDir "p" false] [] [.valued .includeTag "a" false]
    [.valued .settingsFile "c" true, .valued .includeTag "b" false] (by decide) rfl rfl
  have hvalued : Move between w' := @Move.toFront between (.valued .settingsFile "c" true) []
    [.valued .projectDir "p" false] [.valued .includeTag "a" false, .switch .offline]
    [.valued .includeTag "b" false] (by decide) rfl rfl
  have hmoves : Relation.ReflTransGen Move w w' := .tail (.single hswitch) hvalued
  exact ⟨by decide, by decide, hline, hw, hmoves,
    (common_options_move_freely hline).2 w rfl hw w' hmoves⟩

end ModuleRig.Arguments
