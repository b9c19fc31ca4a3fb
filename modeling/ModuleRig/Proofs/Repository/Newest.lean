import ModuleRig.Proofs.Repository.Answers

/-!
# Resolving to the newest version

The first pass takes the greatest of all versions that any repository lists, and the second takes
the first repository with that jar, which need not be one that lists it. `resolves_newest` says
what both come to together, and that the order of the repositories decides only between spellings
of one version.
-/

namespace ModuleRig

open ModuleRig.Action (OnlyAsks)

namespace Repositories

variable {rs rs' : Repositories} {c : Coordinate} {host : Host} {v w : String}

def Lists (rs : Repositories) (c : Coordinate) (host : Host) (v : String) : Prop :=
  ∃ r ∈ rs.declared, ∃ own, (r.versions c host).1 = .ok own ∧ v ∈ own

/-- The version is listed and accepted, and none of those is greater. -/
structure IsNewest (rs : Repositories) (c : Coordinate) (host : Host) (v : String) : Prop where
  listed : rs.Lists c host v
  accepted : c.selector.accepts v = true
  greatest : ∀ w, rs.Lists c host w → c.selector.accepts w = true → Version.compare w v ≠ .gt

/-- Every repository can say what it has. -/
def AllList (rs : Repositories) (c : Coordinate) (host : Host) : Prop :=
  ∀ r ∈ rs.declared, ∃ own, (r.versions c host).1 = .ok own

/-! ## The first pass -/

theorem exists_listed {repositories : List Repository}
    (h : ∀ r ∈ repositories, ∃ own, (r.versions c host).1 = .ok own) :
    ∃ versions, (listed c repositories host).1 = .ok versions ∧
      ∀ r ∈ repositories, ∀ own, (r.versions c host).1 = .ok own → own ⊆ versions := by
  induction repositories with
  | nil => exact ⟨[], rfl, fun r hr => absurd hr List.not_mem_nil⟩
  | cons r rest ih =>
    obtain ⟨own, hown⟩ := h r List.mem_cons_self
    obtain ⟨others, hothers, hrest⟩ := ih fun q hq => h q (List.mem_cons_of_mem r hq)
    have hasks := onlyAsks_listed c rest
    refine ⟨own ++ others, ?_, ?_⟩
    · rw [listed_cons, (r.onlyAsks_versions c).result_bind_of_ok
        (hasks.bind fun _ => OnlyAsks.pure _) hown]
      exact hasks.result_bind_of_ok (OnlyAsks.pure (own ++ others)) hothers
    · intro q hq own' hown'
      rcases List.mem_cons.1 hq with rfl | hq
      · obtain rfl := Except.ok.inj (hown.symm.trans hown')
        exact List.subset_append_left _ _
      · intro v hv
        exact List.mem_append_right own (hrest q hq own' hown' hv)

theorem exists_listing (h : rs.AllList c host) :
    ∃ versions, (listed c rs.declared host).1 = .ok versions ∧
      ∀ v, v ∈ versions ↔ rs.Lists c host v := by
  obtain ⟨versions, hversions, hall⟩ := exists_listed h
  refine ⟨versions, hversions, fun v => ⟨exists_versions_of_listed hversions, ?_⟩⟩
  rintro ⟨r, hr, own, hown, hv⟩
  exact hall r hr own hown hv

theorem settle_of_dynamic (hdynamic : c.selector.isDynamic = true) :
    rs.settle c = listed c rs.declared >>= rs.choose c := by
  rcases rs.settle_cases c with ⟨v, hexact, -⟩ | hsettle
  · rw [hexact] at hdynamic
    contradiction
  · exact hsettle

theorem settle_newest (hdynamic : c.selector.isDynamic = true) (h : rs.AllList c host) :
    (∃ v, rs.Settles c host v ∧ rs.IsNewest c host v) ∨
      (rs.settle c host).1 = .error (.noMatchingVersion c.text rs.names) ∧
        ∀ v, rs.Lists c host v → ¬ c.selector.accepts v = true := by
  obtain ⟨versions, hversions, hmem⟩ := exists_listing h
  have hsettle : (rs.settle c host).1 = (rs.choose c versions host).1 := by
    rw [settle_of_dynamic hdynamic]
    exact (onlyAsks_listed c rs.declared).result_bind_of_ok (rs.onlyAsks_choose c versions)
      hversions
  unfold choose at hsettle
  cases hselect : c.selector.select? versions with
  | none =>
    right
    rw [hselect] at hsettle
    refine ⟨hsettle, fun v hv => ?_⟩
    exact Version.select?_eq_none_iff.1 hselect v ((hmem v).2 hv)
  | some v =>
    left
    rw [hselect] at hsettle
    obtain ⟨hv, haccepts⟩ := Version.mem_of_select? hselect
    refine ⟨v, hsettle, (hmem v).1 hv, haccepts, fun w hw haccepts' => ?_⟩
    exact Ordering.isLE_iff_ne_gt.1 (Version.isLE_select? hselect ((hmem w).2 hw) haccepts')

theorem Settles.unique (h : rs.Settles c host v) (h' : rs.Settles c host w) : v = w :=
  Except.ok.inj (h.symm.trans h')

theorem isNewest_of_settles (hdynamic : c.selector.isDynamic = true) (h : rs.AllList c host)
    (hsettles : rs.Settles c host v) : rs.IsNewest c host v := by
  rcases settle_newest hdynamic h with ⟨w, hw, hnewest⟩ | ⟨herror, -⟩
  · rwa [hsettles.unique hw]
  · have hok : (rs.settle c host).1 = .ok v := hsettles
    rw [herror] at hok
    contradiction

/-! ## Another order -/

theorem lists_perm (hperm : rs'.declared.Perm rs.declared) :
    rs'.Lists c host v ↔ rs.Lists c host v := by
  unfold Lists
  simp only [hperm.mem_iff]

theorem allList_perm (hperm : rs'.declared.Perm rs.declared) (h : rs.AllList c host) :
    rs'.AllList c host :=
  fun r hr => h r (hperm.mem_iff.1 hr)

theorem IsNewest.perm (hperm : rs'.declared.Perm rs.declared) (h : rs'.IsNewest c host v) :
    rs.IsNewest c host v where
  listed := (lists_perm hperm).1 h.listed
  accepted := h.accepted
  greatest w hw := h.greatest w ((lists_perm hperm).2 hw)

theorem IsNewest.compare_eq (h : rs.IsNewest c host v) (h' : rs.IsNewest c host w) :
    Version.compare v w = .eq :=
  Version.compare_eq_of_ne_gt (h'.greatest v h.listed h.accepted)
    (h.greatest w h'.listed h'.accepted)

/-! ## Both passes -/

/-- What a resolution with a choice of versions comes to. -/
structure ResolvesNewest (rs : Repositories) (c : Coordinate) (host : Host) : Prop where
  /-- With nothing to choose from the error names all repositories in their order. -/
  nothing : (∀ v, rs.Lists c host v → ¬ c.selector.accepts v = true) →
    (rs.resolve c host).1 = .error (.noMatchingVersion c.text rs.names)
  /-- Else a newest version is chosen. -/
  chosen : ∀ w, rs.Lists c host w → c.selector.accepts w = true →
    ∃ v, rs.Settles c host v ∧ rs.IsNewest c host v
  /-- An answer is about the chosen version, and comes from the first repository with its jar. -/
  answer : ∀ a, (rs.resolve c host).1 = .ok a →
    rs.Settles c host a.version ∧ rs.IsNewest c host a.version ∧
    ∃ r content, FirstWith c a.version host rs.declared r content ∧
      a.repository = r.name ∧ a.sha256 = Digest.ofBytes content
  /-- In another order the repositories may have another spelling of the version chosen. -/
  order : ∀ rs' : Repositories, rs'.declared.Perm rs.declared → ∀ v, rs.Settles c host v →
    ∃ v', rs'.Settles c host v' ∧ Version.compare v v' = .eq

theorem resolves_newest (rs : Repositories) (c : Coordinate) (host : Host)
    (hdynamic : c.selector.isDynamic = true) (hlist : rs.AllList c host) :
    rs.ResolvesNewest c host where
  nothing := by
    intro hnone
    rcases settle_newest hdynamic hlist with ⟨v, -, hnewest⟩ | ⟨herror, -⟩
    · exact absurd hnewest.accepted (hnone v hnewest.listed)
    · exact (rs.onlyAsks_settle c).result_bind_of_error _ herror
  chosen := by
    intro w hw haccepts
    rcases settle_newest hdynamic hlist with hchosen | ⟨-, hnone⟩
    · exact hchosen
    · exact absurd haccepts (hnone w hw)
  answer := by
    intro a ha
    have htruthful := truthful_of_resolve ha
    exact ⟨htruthful.settled, isNewest_of_settles hdynamic hlist htruthful.settled,
      htruthful.supplied⟩
  order := by
    intro rs' hperm v hv
    have hnewest := isNewest_of_settles hdynamic hlist hv
    rcases settle_newest hdynamic (allList_perm hperm hlist) with ⟨v', hv', hnewest'⟩ | ⟨-, hnone⟩
    · exact ⟨v', hv', hnewest.compare_eq (hnewest'.perm hperm)⟩
    · exact absurd hnewest.accepted (hnone v ((lists_perm hperm).2 hnewest.listed))

/-- A directory that is missing, a web repository that lists a version and has no jar of it, and
one that has the jar and lists nothing. -/
def mixedRepositories : Repositories :=
  ⟨[.directory "d" ⟨"/d"⟩, .web "w" "http://r", .web "x" "http://s"], ⟨"/c"⟩⟩

def mixedHost : Host :=
  let document := Text.Utf8.ofText "<version>1.10</version>"
  { Host.blank with
    web := ⟨[("http://r/a/b/maven-metadata.xml", .answered 200 document true),
      ("http://s/a/b/1.10/b-1.10.jar", .answered 200 [2] true)], .answered 404 [] true⟩ }

def mixedCoordinate : Coordinate := ⟨"a", "b", .stem "1.", false⟩

theorem resolves_newest_of_mixed :
    mixedCoordinate.selector.isDynamic = true ∧
    mixedRepositories.AllList mixedCoordinate mixedHost ∧
    ∃ a, (mixedRepositories.resolve mixedCoordinate mixedHost).1 = .ok a ∧
      a.version = "1.10" ∧ a.repository = "x" ∧ a.sha256 = Digest.ofBytes [2] ∧
      mixedRepositories.IsNewest mixedCoordinate mixedHost a.version := by
  have hlist : mixedRepositories.AllList mixedCoordinate mixedHost := by
    intro r hr
    simp only [mixedRepositories, List.mem_cons, List.not_mem_nil, or_false] at hr
    rcases hr with rfl | rfl | rfl
    · exact ⟨[], by decide +kernel⟩
    · exact ⟨["1.10"], by decide +kernel⟩
    · exact ⟨[], by decide +kernel⟩
  have hanswer : (mixedRepositories.resolve mixedCoordinate mixedHost).1 =
      .ok ⟨"a:b:1.+", "1.10", ⟨"/c/artifacts/a/b/1.10/b-1.10.jar"⟩, "x", Digest.ofBytes [2]⟩ := by
    decide +kernel
  have hnewest := (resolves_newest mixedRepositories mixedCoordinate mixedHost rfl hlist).answer _
    hanswer
  exact ⟨rfl, hlist, _, hanswer, rfl, rfl, rfl, hnewest.2.1⟩

end Repositories

end ModuleRig
