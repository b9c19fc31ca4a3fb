import ModuleRig.Proofs.Version.Order
import ModuleRig.Version.Selector

/-!
# Choosing a version

What a selector picks is one of the versions it was given, one that it accepts, and none of these
is newer. It picks none only when it accepts none. Of equal ones it picks the last, so the order in
which versions are given decides between spellings of one version and nothing else:
`selects_last_newest`.
-/

namespace ModuleRig.Version

open Std (OrientedCmp ReflCmp TransCmp)

variable {versions : List String} {v w : String}

theorem mem_of_newest? (h : newest? versions = some v) : v ∈ versions := by
  induction versions generalizing v with
  | nil => cases h
  | cons first rest ih =>
    rw [newest?] at h
    cases hrest : newest? rest with
    | none =>
      rw [hrest] at h
      obtain rfl := Option.some.inj h
      exact List.mem_cons_self
    | some w =>
      rw [hrest] at h
      dsimp only at h
      split at h
      · obtain rfl := Option.some.inj h
        exact List.mem_cons_self
      · obtain rfl := Option.some.inj h
        exact List.mem_cons_of_mem first (ih hrest)

theorem newest?_eq_none_iff : newest? versions = none ↔ versions = [] := by
  cases versions with
  | nil => simp [newest?]
  | cons first rest =>
    rw [newest?]
    split
    · simp
    · split <;> simp

theorem isLE_self (v : String) : (compare v v).isLE := by
  have heq : compare v v = .eq := ReflCmp.compare_self
  rw [heq]
  rfl

theorem isLE_newest? (h : newest? versions = some w) (hv : v ∈ versions) :
    (compare v w).isLE := by
  induction versions generalizing w with
  | nil => cases hv
  | cons first rest ih =>
    rw [newest?] at h
    cases hrest : newest? rest with
    | none =>
      rw [hrest] at h
      obtain rfl := Option.some.inj h
      rw [newest?_eq_none_iff.1 hrest, List.mem_singleton] at hv
      exact hv ▸ isLE_self v
    | some w' =>
      rw [hrest] at h
      dsimp only at h
      split at h
      · next hgt =>
        obtain rfl := Option.some.inj h
        rcases List.mem_cons.1 hv with rfl | hv
        · exact isLE_self v
        · have hlt : compare w' first = .lt := OrientedCmp.gt_iff_lt.1 hgt
          have hle : (compare w' first).isLE := by rw [hlt]; rfl
          exact TransCmp.isLE_trans (ih hrest hv) hle
      · next hle =>
        obtain rfl := Option.some.inj h
        rcases List.mem_cons.1 hv with rfl | hv
        · exact Ordering.isLE_iff_ne_gt.2 hle
        · exact ih hrest hv

theorem mem_of_select? {selector : Selector} (h : selector.select? versions = some v) :
    v ∈ versions ∧ selector.accepts v = true :=
  List.mem_filter.1 (mem_of_newest? h)

theorem isLE_select? {selector : Selector} (h : selector.select? versions = some w)
    (hv : v ∈ versions) (haccepts : selector.accepts v = true) : (compare v w).isLE :=
  isLE_newest? h (List.mem_filter.2 ⟨hv, haccepts⟩)

theorem select?_eq_none_iff {selector : Selector} :
    selector.select? versions = none ↔ ∀ v ∈ versions, ¬ selector.accepts v = true := by
  rw [Selector.select?, newest?_eq_none_iff, List.filter_eq_nil_iff]

/-! ## The last of the newest -/

theorem compare_eq_of_ne_gt (h : compare v w ≠ .gt) (h' : compare w v ≠ .gt) :
    compare v w = .eq :=
  OrientedCmp.isLE_antisymm (Ordering.isLE_iff_ne_gt.2 h) (Ordering.isLE_iff_ne_gt.2 h')

theorem newest?_cons_eq_self {first : String} {rest : List String}
    (h : ∀ u ∈ rest, compare u first = .lt) : newest? (first :: rest) = some first := by
  rw [newest?]
  cases hrest : newest? rest with
  | none => rfl
  | some w =>
    have hgt : compare first w = .gt := OrientedCmp.gt_of_lt (h w (mem_of_newest? hrest))
    exact if_pos hgt

theorem newest?_append {before after : List String} (h : ∀ u ∈ before, compare u v ≠ .gt)
    (hafter : newest? after = some v) : newest? (before ++ after) = some v := by
  induction before with
  | nil => exact hafter
  | cons first before ih =>
    rw [List.cons_append, newest?, ih fun u hu => h u (List.mem_cons_of_mem first hu)]
    exact if_neg (h first List.mem_cons_self)

theorem newest?_eq_some_iff :
    newest? versions = some v ↔
      ∃ before after, versions = before ++ v :: after ∧ (∀ u ∈ before, compare u v ≠ .gt) ∧
        ∀ u ∈ after, compare u v = .lt := by
  constructor
  · intro h
    induction versions generalizing v with
    | nil => cases h
    | cons first rest ih =>
      rw [newest?] at h
      cases hrest : newest? rest with
      | none =>
        rw [hrest] at h
        obtain rfl := Option.some.inj h
        rw [newest?_eq_none_iff.1 hrest]
        exact ⟨[], [], rfl, by simp, by simp⟩
      | some w =>
        rw [hrest] at h
        dsimp only at h
        split at h
        · next hgt =>
          obtain rfl := Option.some.inj h
          refine ⟨[], rest, rfl, by simp, ?_⟩
          intro u hu
          exact TransCmp.lt_of_isLE_of_lt (isLE_newest? hrest hu) (OrientedCmp.lt_of_gt hgt)
        · next hle =>
          obtain rfl := Option.some.inj h
          obtain ⟨before, after, rfl, hbefore, hafter⟩ := ih hrest
          refine ⟨first :: before, after, rfl, ?_, hafter⟩
          rw [List.forall_mem_cons]
          exact ⟨hle, hbefore⟩
  · rintro ⟨before, after, rfl, hbefore, hafter⟩
    exact newest?_append hbefore (newest?_cons_eq_self hafter)

/-- The version is the choice of the selector at its place in the list. -/
structure Selector.PicksFrom (selector : Selector) (before : List String) (v : String)
    (after : List String) : Prop where
  accepted : selector.accepts v = true
  newest : ∀ u ∈ before ++ v :: after, selector.accepts u = true → compare u v ≠ .gt
  last : ∀ u ∈ after, selector.accepts u = true → compare u v = .lt

theorem select?_eq_some_iff {selector : Selector} :
    selector.select? versions = some v ↔
      ∃ before after, versions = before ++ v :: after ∧ selector.PicksFrom before v after := by
  constructor
  · intro h
    have hnewest : ∀ u ∈ versions, selector.accepts u = true → compare u v ≠ .gt := by
      intro u hu haccepts
      exact Ordering.isLE_iff_ne_gt.1 (isLE_select? h hu haccepts)
    obtain ⟨front, back, hfilter, -, hback⟩ := newest?_eq_some_iff.1 h
    obtain ⟨before, rest, rfl, -, hrest⟩ := List.filter_eq_append_iff.1 hfilter
    obtain ⟨skipped, after, rfl, -, haccepts, hafter⟩ := List.filter_eq_cons_iff.1 hrest
    refine ⟨before ++ skipped, after, by simp, haccepts, ?_, ?_⟩
    · simpa using hnewest
    · intro u hu haccepts
      exact hback u (hafter ▸ List.mem_filter.2 ⟨hu, haccepts⟩)
  · rintro ⟨before, after, rfl, hpicks⟩
    refine newest?_eq_some_iff.2
      ⟨before.filter selector.accepts, after.filter selector.accepts, ?_, ?_, ?_⟩
    · rw [List.filter_append, List.filter_cons_of_pos hpicks.accepted]
    · intro u hu
      obtain ⟨hu, haccepts⟩ := List.mem_filter.1 hu
      exact hpicks.newest u (List.mem_append_left _ hu) haccepts
    · intro u hu
      obtain ⟨hu, haccepts⟩ := List.mem_filter.1 hu
      exact hpicks.last u hu haccepts

theorem select?_perm {selector : Selector} {versions' : List String}
    (h : versions.Perm versions') :
    Option.Rel (fun v v' => compare v v' = .eq) (selector.select? versions)
      (selector.select? versions') := by
  cases hv : selector.select? versions with
  | none =>
    have hnone : selector.select? versions' = none := by
      rw [select?_eq_none_iff] at hv ⊢
      intro u hu
      exact hv u (h.mem_iff.2 hu)
    rw [hnone]
    exact .none
  | some v =>
    cases hv' : selector.select? versions' with
    | none =>
      obtain ⟨hmem, haccepts⟩ := mem_of_select? hv
      exact absurd haccepts (select?_eq_none_iff.1 hv' v (h.mem_iff.1 hmem))
    | some v' =>
      obtain ⟨hmem, haccepts⟩ := mem_of_select? hv
      obtain ⟨hmem', haccepts'⟩ := mem_of_select? hv'
      have hle := isLE_select? hv' (h.mem_iff.1 hmem) haccepts
      have hge := isLE_select? hv (h.mem_iff.2 hmem') haccepts'
      exact .some (OrientedCmp.isLE_antisymm hle hge)

theorem selects_last_newest (selector : Selector) (versions : List String) :
    (selector.select? versions = none ↔ ∀ v ∈ versions, ¬ selector.accepts v = true) ∧
      (∀ v, selector.select? versions = some v ↔
        ∃ before after, versions = before ++ v :: after ∧ selector.PicksFrom before v after) ∧
      ∀ versions', versions.Perm versions' →
        Option.Rel (fun v v' => compare v v' = .eq) (selector.select? versions)
          (selector.select? versions') := by
  refine ⟨select?_eq_none_iff, fun v => select?_eq_some_iff, ?_⟩
  intro versions' hperm
  exact select?_perm hperm

end ModuleRig.Version
