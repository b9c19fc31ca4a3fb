import ModuleRig.Proofs.Coordinate.RoundTrip

/-!
# What is read as a selector

A selector is read from the name of one directory in which a plus stands at the end or nowhere
(`IsNotation`), and says what it was read from in each of its written forms:
`reads_exactly_notations`.
-/

namespace ModuleRig.Version

/-- The text is the name of one directory, and a plus is the last character of it or none. -/
structure IsNotation (cs : List Char) : Prop where
  ne_nil : cs ≠ []
  slash : '/' ∉ cs
  backslash : '\\' ∉ cs
  ne_here : cs ≠ ['.']
  ne_parent : cs ≠ ['.', '.']
  one_plus : cs.count '+' ≤ 1
  plus_last : '+' ∈ cs → cs.getLast? = some '+'

theorem isSegment_iff {cs : List Char} :
    isSegment cs = true ↔ '/' ∉ cs ∧ '\\' ∉ cs ∧ cs ≠ ['.'] ∧ cs ≠ ['.', '.'] := by
  have hslash : cs.any isSlash = true ↔ '/' ∈ cs ∨ '\\' ∈ cs := by
    simp only [List.any_eq_true, isSlash, Bool.or_eq_true, beq_iff_eq]
    constructor
    · rintro ⟨c, hc, rfl | rfl⟩
      · exact .inl hc
      · exact .inr hc
    · rintro (hc | hc)
      · exact ⟨_, hc, .inl rfl⟩
      · exact ⟨_, hc, .inr rfl⟩
  unfold isSegment
  rw [Bool.and_eq_true, Bool.and_eq_true, Bool.not_eq_true', ← Bool.not_eq_true, hslash, not_or,
    bne_iff_ne, bne_iff_ne, and_assoc, and_assoc]

/-! ## Where the plus stands -/

theorem beforePlus?_concat (front : List Char) : beforePlus? (front ++ ['+']) = some front := by
  simp [beforePlus?]

theorem beforePlus?_of_not_mem {cs : List Char} (h : '+' ∉ cs) : beforePlus? cs = none := by
  rw [beforePlus?, if_neg fun hlast => h (List.mem_of_getLast? hlast)]

theorem count_concat_le_one_iff {front : List Char} :
    (front ++ ['+']).count '+' ≤ 1 ↔ '+' ∉ front := by
  rw [List.count_append, List.count_singleton_self, ← List.count_eq_zero]
  omega

namespace Selector

/-- What a text asks for, by its plus. -/
inductive Says : List Char → Selector → Prop
  | exact {cs : List Char} (h : '+' ∉ cs) : Says cs (.exact (String.ofList cs))
  | latest : Says ['+'] .latest
  | stem {front : List Char} (hne : front ≠ []) (h : '+' ∉ front) :
      Says (front ++ ['+']) (.stem (String.ofList front))

theorem ofTrimmed_eq_ok_iff {cs : List Char} {s : Selector} :
    ofTrimmed cs = .ok s ↔ cs ≠ [] ∧ isSegment cs = true ∧ Says cs s := by
  constructor
  · intro h
    refine ⟨ne_nil_of_ofTrimmed h, ?_⟩
    unfold ofTrimmed at h
    simp only at h
    split at h
    · cases h
    · split at h
      · cases h
      · next hsegment =>
        rw [Bool.not_eq_true', Bool.not_eq_false] at hsegment
        refine ⟨hsegment, ?_⟩
        split at h
        · next hbefore =>
          cases h
          rw [eq_of_beforePlus? hbefore]
          exact .latest
        · next front hne hbefore =>
          split at h
          · cases h
          · next hfront =>
            cases h
            rw [eq_of_beforePlus? hbefore]
            exact .stem hne (by simpa using hfront)
        · split at h
          · cases h
          · next hplus =>
            cases h
            exact .exact (by simpa using hplus)
  · rintro ⟨hne, hsegment, hsays⟩
    have hempty : ¬ cs.isEmpty = true := fun hnil => hne (List.isEmpty_iff.1 hnil)
    simp only [ofTrimmed, if_neg hempty, hsegment, Bool.not_true, Bool.false_eq_true, if_false]
    cases hsays with
    | exact h => rw [beforePlus?_of_not_mem h, if_neg (by simpa using h)]
    | latest => rfl
    | @stem front hfront h =>
      rw [beforePlus?_concat]
      split
      · next hnil => exact absurd (Option.some.inj hnil) hfront
      · next before _ hbefore =>
        obtain rfl := Option.some.inj hbefore
        rw [if_neg (by simpa using h)]
      · next hnone => cases hnone

theorem Says.pluses {cs : List Char} {s : Selector} (h : Says cs s) :
    cs.count '+' ≤ 1 ∧ ('+' ∈ cs → cs.getLast? = some '+') := by
  cases h with
  | exact h => exact ⟨by simp [List.count_eq_zero.2 h], fun hmem => absurd hmem h⟩
  | latest => exact ⟨by decide, fun _ => rfl⟩
  | stem _ h => exact ⟨count_concat_le_one_iff.2 h, fun _ => List.getLast?_concat⟩

theorem exists_says {cs : List Char} (hone : cs.count '+' ≤ 1)
    (hlast : '+' ∈ cs → cs.getLast? = some '+') : ∃ s, Says cs s := by
  by_cases hplus : '+' ∈ cs
  · obtain ⟨front, rfl⟩ := List.getLast?_eq_some_iff.1 (hlast hplus)
    by_cases hne : front = []
    · rw [hne]
      exact ⟨_, .latest⟩
    · exact ⟨_, .stem hne (count_concat_le_one_iff.1 hone)⟩
  · exact ⟨_, .exact hplus⟩

theorem Says.kind {cs : List Char} {s : Selector} (h : Says cs s) :
    (s = .latest ↔ cs = ['+']) ∧ (s.isDynamic = true ↔ cs.getLast? = some '+') := by
  cases h with
  | exact h =>
    refine ⟨iff_of_false (fun hlatest => by cases hlatest) ?_, ?_⟩
    · rintro rfl
      exact h List.mem_cons_self
    · exact iff_of_false Bool.false_ne_true fun hlast => h (List.mem_of_getLast? hlast)
  | latest => exact ⟨iff_of_true rfl rfl, iff_of_true rfl rfl⟩
  | stem hne h =>
    refine ⟨iff_of_false (fun hlatest => by cases hlatest) fun hplus => hne ?_, ?_⟩
    · exact List.append_cancel_right hplus
    · exact iff_of_true rfl List.getLast?_concat

theorem exists_ofTrimmed_iff {cs : List Char} :
    (∃ s, ofTrimmed cs = .ok s) ↔ IsNotation cs := by
  simp only [ofTrimmed_eq_ok_iff, isSegment_iff]
  constructor
  · rintro ⟨s, hne, ⟨hslash, hbackslash, hhere, hparent⟩, hsays⟩
    exact ⟨hne, hslash, hbackslash, hhere, hparent, hsays.pluses.1, hsays.pluses.2⟩
  · rintro ⟨hne, hslash, hbackslash, hhere, hparent, hone, hlast⟩
    obtain ⟨s, hsays⟩ := exists_says hone hlast
    exact ⟨s, hne, ⟨hslash, hbackslash, hhere, hparent⟩, hsays⟩

/-- A text is read just if it is a notation but for the blanks around it. The selector shows that
notation, is read back from it and from JSON, and leaves a choice just if it ends with a plus. -/
theorem reads_exactly_notations (text : String) :
    ((∃ s, parse text = .ok s) ↔ IsNotation (Text.trim text.toList)) ∧
    ∀ s, parse text = .ok s →
      s.text.toList = Text.trim text.toList ∧ parse s.text = .ok s ∧
      (Json.read? s.toJson.compact).bind ofJson? = some s ∧
      (Json.read? s.toJson.pretty).bind ofJson? = some s ∧
      (s = .latest ↔ Text.trim text.toList = ['+']) ∧
      (s.isDynamic = true ↔ (Text.trim text.toList).getLast? = some '+') := by
  refine ⟨exists_ofTrimmed_iff, fun s h => ?_⟩
  have htext : s.text.toList = Text.trim text.toList := by
    rw [text_of_ofTrimmed h, String.toList_ofList]
  have hexact : s.toJson.IsExact := Json.isExact_ofText s.text
  rw [Json.read?_compact hexact, Json.read?_pretty hexact]
  obtain ⟨-, -, hsays⟩ := ofTrimmed_eq_ok_iff.1 h
  exact ⟨htext, parse_text h, ofJson?_toJson h, ofJson?_toJson h, hsays.kind⟩

theorem reads_exactly_notations_of_blanks :
    IsNotation "1.\u2003+".toList ∧
    parse "\u00a0 1.\u2003+\n" = .ok (.stem "1.\u2003") ∧
    parse "1.\u2003+" = .ok (.stem "1.\u2003") ∧
    (Json.read? (Selector.stem "1.\u2003").toJson.compact).bind ofJson? =
      some (.stem "1.\u2003") ∧
    ¬ ∃ s, parse "1.++" = .ok s := by
  obtain ⟨hreads, hread⟩ := reads_exactly_notations "\u00a0 1.\u2003+\n"
  have h : parse "\u00a0 1.\u2003+\n" = .ok (.stem "1.\u2003") := by rfl
  obtain ⟨-, hagain, hjson, -⟩ := hread _ h
  refine ⟨hreads.1 ⟨_, h⟩, h, hagain, hjson, ?_⟩
  rw [(reads_exactly_notations "1.++").1]
  exact fun hnotation => absurd hnotation.one_plus (by decide)

end Selector

end ModuleRig.Version
