import ModuleRig.Proofs.Version.Word

/-!
# Qualifiers around a release

On every version the words for stages before the release come before it, in the order of their
stages, and all other words after it. Any number comes after any word. What follows the word does
not count, and neither does what the version ends in. `qualifier_ladder` says this.
-/

namespace ModuleRig.Version

variable {stage stage' : Stage} {text text' : List Char} {q r n : String}

theorem Token.compare_of_rank_lt (h : stage.rank < stage'.rank) (text text' : List Char) :
    (Token.qualifier stage text).compare (.qualifier stage' text') = .lt := by
  have hrank : Ord.compare stage.rank stage'.rank = .lt := Nat.compare_eq_lt.2 h
  rw [Token.compare, hrank]
  rfl

theorem Token.compare_release (h : stage ≠ .release) (text : List Char) :
    (Token.qualifier stage text).compare .release =
      if stage.rank < Stage.release.rank then .lt else .gt := by
  have hne : stage.rank ≠ Stage.release.rank := mt rank_injective h
  split
  · next hlt => exact Token.compare_of_rank_lt hlt text []
  · next hnlt =>
    have hgt : Stage.release.rank < stage.rank := by omega
    have hswap := Token.compare_swap .release (.qualifier stage text)
    rw [Token.release, Token.compare_of_rank_lt hgt] at hswap
    exact hswap

theorem compare_extend_release (v : String) (hq : IsQualifier q) {x : String}
    (hx : StopsRun .letter x.toList) :
    compare (extend v q x) v = if lowerCase q ∈ preReleaseWords then .lt else .gt := by
  have hstage : stageOf q ≠ .release := mt (stageOf_eq_release_iff q).1 hq.notRelease
  have hrelease := Token.compare_release hstage (lowerCase q).toList
  unfold compare
  rw [key_extend_qualifier v hq hx]
  unfold before key
  rw [compareTokens_settled, compareTokens, hrelease]
  simp only [rank_stageOf_lt_iff]
  split <;> rfl

theorem compare_extend_lt_extend (v : String) (hq : IsQualifier q) (hr : IsQualifier r)
    {x y : String} (hx : StopsRun .letter x.toList) (hy : StopsRun .letter y.toList)
    (h : (stageOf q).rank < (stageOf r).rank) : compare (extend v q x) (extend v r y) = .lt := by
  unfold compare
  rw [key_extend_qualifier v hq hx, key_extend_qualifier v hr hy, compareTokens_append,
    compareTokens, Token.compare_of_rank_lt h]
  rfl

theorem compare_extend_lt_number (v : String) (hq : IsQualifier q) (hn : IsPositive n)
    {x z : String} (hx : StopsRun .letter x.toList) (hz : StopsRun .digit z.toList) :
    compare (extend v q x) (extend v n z) = .lt := by
  obtain ⟨zeros, value, hzeros, hkey⟩ := key_extend_number v hn hz
  unfold compare
  rw [key_extend_qualifier v hq hx, hkey, compareTokens_append]
  match zeros with
  | [] => rw [List.nil_append, compareTokens]; rfl
  | zero :: zeros =>
    rw [hzeros zero List.mem_cons_self, List.cons_append, compareTokens]
    rfl

theorem qualifier_ladder (v q r n x y z : String) (hq : IsQualifier q) (hr : IsQualifier r)
    (hn : IsPositive n) (hx : StopsRun .letter x.toList) (hy : StopsRun .letter y.toList)
    (hz : StopsRun .digit z.toList) :
    compare (extend v q x) v = (if lowerCase q ∈ preReleaseWords then .lt else .gt) ∧
      ((stageOf q).rank < (stageOf r).rank → compare (extend v q x) (extend v r y) = .lt) ∧
      compare (extend v q x) (extend v n z) = .lt := by
  refine ⟨compare_extend_release v hq hx, ?_, compare_extend_lt_number v hq hn hx hz⟩
  intro h
  exact compare_extend_lt_extend v hq hr hx hy h

theorem qualifier_ladder_of_final :
    compare "1.0-final.0-RC1" "1.0-final.0" = .lt ∧
      compare "1.0-final.0-RC1" "1.0-final.0-sp.2" = .lt ∧
      compare "1.0-final.0-RC1" "1.0-final.0-007b" = .lt := by
  have hrc : extend "1.0-final.0" "RC" "1" = "1.0-final.0-RC1" := by decide
  have hsp : extend "1.0-final.0" "sp" ".2" = "1.0-final.0-sp.2" := by decide
  have hnumber : extend "1.0-final.0" "007" "b" = "1.0-final.0-007b" := by decide
  have hq : IsQualifier "RC" := ⟨by decide, by decide⟩
  have hr : IsQualifier "sp" := ⟨by decide, by decide⟩
  have hn : IsPositive "007" := ⟨by decide, by decide⟩
  have h := qualifier_ladder "1.0-final.0" "RC" "sp" "007" "1" ".2" "b" hq hr hn
    (by decide) (by decide) (by decide)
  rw [hrc, hsp, hnumber] at h
  exact ⟨h.1, h.2.1 (by decide), h.2.2⟩

/-! ## Two words for one stage -/

theorem ofWord_congr {q' : String} (hstage : stageOf q = stageOf q')
    (h : lowerCase q ∈ releaseMarkers ∨ lowerCase q = lowerCase q') :
    Token.ofWord q.toList = .ofWord q'.toList := by
  by_cases hrelease : stageOf q = .release
  · rw [ofWord_eq_release hrelease, ofWord_eq_release (hstage ▸ hrelease)]
  · have hmarker := mt (stageOf_eq_release_iff q).2 hrelease
    rw [ofWord_eq_qualifier hrelease, ofWord_eq_qualifier (hstage ▸ hrelease), hstage,
      h.resolve_left hmarker]

theorem key_extend_congr {q' : String} (v : String) (hq : IsWord q) (hq' : IsWord q') {x : String}
    (hx : StopsRun .letter x.toList) (htoken : Token.ofWord q.toList = .ofWord q'.toList) :
    key (extend v q x) = key (extend v q' x) := by
  unfold key
  rw [tokens_extend_word v hq hx, tokens_extend_word v hq' hx, htoken]

theorem compare_extend_of_stageOf_eq {q' : String} (v : String) (hq : IsQualifier q)
    (hq' : IsQualifier q') (hstage : stageOf q = stageOf q') {x y : String}
    (hx : StopsRun .letter x.toList) (hy : StopsRun .letter y.toList) :
    compare (extend v q x) (extend v q' y) =
      (Ord.compare (lowerCase q).toList (lowerCase q').toList).then (compareTokens (key x) (key y)) := by
  unfold compare
  rw [key_extend_qualifier v hq hx, key_extend_qualifier v hq' hy, compareTokens_append,
    compareTokens, Token.compare, hstage, Std.ReflOrd.compare_self, Ordering.eq_then]

/-- Two words for one stage are one word where the spelling is forgotten. Elsewhere the spelling
decides, and what is behind the words does not count. -/
theorem compare_spellings (v q q' x : String) (hq : IsWord q) (hq' : IsWord q')
    (hstage : stageOf q = stageOf q') (hx : StopsRun .letter x.toList) :
    (lowerCase q ∈ releaseMarkers ∨ lowerCase q = lowerCase q' →
      compare (extend v q x) (extend v q' x) = .eq ∧
        ∀ w, compare (extend v q x) w = compare (extend v q' x) w) ∧
    (lowerCase q ∉ releaseMarkers → lowerCase q ≠ lowerCase q' →
      Ord.compare (lowerCase q).toList (lowerCase q').toList ≠ .eq ∧
        ∀ y : String, StopsRun .letter y.toList → compare (extend v q x) (extend v q' y) =
          Ord.compare (lowerCase q).toList (lowerCase q').toList) := by
  constructor
  · intro hsame
    have hkey := key_extend_congr v hq hq' hx (ofWord_congr hstage hsame)
    refine ⟨(compare_eq_eq_iff _ _).2 hkey, fun w => ?_⟩
    unfold compare
    rw [hkey]
  · intro hmarker hne
    have hmarker' : lowerCase q' ∉ releaseMarkers := by
      rwa [← stageOf_eq_release_iff, ← hstage, stageOf_eq_release_iff]
    have hwords : Ord.compare (lowerCase q).toList (lowerCase q').toList ≠ .eq := by
      intro h
      exact hne (String.toList_inj.1 (Std.compare_eq_iff_eq.1 h))
    refine ⟨hwords, fun y hy => ?_⟩
    rw [compare_extend_of_stageOf_eq v ⟨hq, hmarker⟩ ⟨hq', hmarker'⟩ hstage hx hy]
    cases hcmp : Ord.compare (lowerCase q).toList (lowerCase q').toList with
    | lt => rfl
    | eq => contradiction
    | gt => rfl

theorem compare_spellings_of_numbers :
    compare "1.0-CR2" "1.0-rc1" = .lt ∧
      ∀ w, compare "2-Final1" w = compare "2-GA1" w := by
  have hcr : extend "1.0" "CR" "2" = "1.0-CR2" := by decide
  have hrc : extend "1.0" "rc" "1" = "1.0-rc1" := by decide
  have hfinal : extend "2" "Final" "1" = "2-Final1" := by decide
  have hga : extend "2" "GA" "1" = "2-GA1" := by decide
  have hlt := compare_spellings "1.0" "CR" "rc" "2" (by decide) (by decide)
    (by decide) (by decide)
  have heq := compare_spellings "2" "Final" "GA" "1" (by decide) (by decide)
    (by decide) (by decide)
  have hlt := (hlt.2 (by decide) (by decide)).2 "1" (by decide)
  have heq := (heq.1 (.inl (by decide))).2
  rw [hcr, hrc] at hlt
  rw [hfinal, hga] at heq
  exact ⟨hlt, heq⟩

/-- The earlier preview is taken for the newer one. -/
theorem not_one_word_of_alias :
    stageOf "a" = stageOf "alpha" ∧ compare "1.0-a" "1.0-alpha" = .lt ∧
      newest? ["1.0-alpha1", "1.0-a2"] = some "1.0-alpha1" := by
  have hlt (x y : String) (hx : StopsRun .letter x.toList) (hy : StopsRun .letter y.toList) :
      compare (extend "1.0" "a" x) (extend "1.0" "alpha" y) = .lt := by
    have ha : IsQualifier "a" := ⟨by decide, by decide⟩
    have halpha : IsQualifier "alpha" := ⟨by decide, by decide⟩
    rw [compare_extend_of_stageOf_eq "1.0" ha halpha (by decide) hx hy]
    rfl
  have hplain : extend "1.0" "a" "" = "1.0-a" := by decide
  have hplain' : extend "1.0" "alpha" "" = "1.0-alpha" := by decide
  have hsecond : extend "1.0" "a" "2" = "1.0-a2" := by decide
  have hfirst : extend "1.0" "alpha" "1" = "1.0-alpha1" := by decide
  have hwords := hlt "" "" (by decide) (by decide)
  have hnumbers := hlt "2" "1" (by decide) (by decide)
  rw [hplain, hplain'] at hwords
  rw [hsecond, hfirst] at hnumbers
  have hswap : compare "1.0-alpha1" "1.0-a2" = (compare "1.0-a2" "1.0-alpha1").swap :=
    Std.OrientedCmp.eq_swap
  refine ⟨by decide, hwords, ?_⟩
  show (if compare "1.0-alpha1" "1.0-a2" = .gt then some "1.0-alpha1" else some "1.0-a2") = _
  rw [hswap, hnumbers]
  rfl

end ModuleRig.Version
