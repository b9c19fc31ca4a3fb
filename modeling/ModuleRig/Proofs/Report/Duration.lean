import ModuleRig.Proofs.Report.Line
import ModuleRig.Proofs.Report.Parts

/-!
# Duration lines

`DurationLine` spells out which lines of output tell how long the run took. The reader of the summary
takes just these lines for durations: `ofText_eq_duration_iff`. The number is none if it does not fit
into 64 bits or has digits of another script.
-/

namespace ModuleRig

namespace Summary

open Text

/-- A text that tells a duration: digits of any script behind the words for it, and the unit. Blanks
may stand before it and anything behind it. -/
inductive DurationText : List Char → List Char → Prop
  | mk {lead digits : List Char} (rest : List Char) (hlead : ∀ c ∈ lead, isBlank c = true)
      (hdigits : digits ≠ [] ∧ ∀ c ∈ digits, isAnyDigit c = true) :
      DurationText (lead ++ ("Test run finished after ".toList ++ (digits ++ (" ms".toList ++ rest))))
        digits

/-- A line of output that tells a duration once its escape sequences are taken out. -/
def DurationLine (line : String) (digits : List Char) : Prop :=
  ∃ plain, Escape.Stripped line.toList plain ∧ DurationText plain digits

/-! ## What is read as a duration -/

theorem durationLine?_eq_some_iff {text digits : List Char} :
    durationLine? text = some digits ↔
      ∃ rest, text = "Test run finished after ".toList ++ (digits ++ (" ms".toList ++ rest)) ∧
        digits ≠ [] ∧ ∀ c ∈ digits, isAnyDigit c = true := by
  unfold durationLine?
  constructor
  · intro h
    simp only [Option.bind_eq_bind, Option.bind_eq_some_iff, Option.pure_def, Option.some.injEq,
      Prod.exists] at h
    obtain ⟨number, hwords, digits', unit, hnumber, rest, hunit, rfl⟩ := h
    obtain ⟨rfl, hne, hdigits, -⟩ := digits?_eq_some_iff.1 hnumber
    refine ⟨rest, ?_, hne, hdigits⟩
    rw [after?_eq_some_iff.1 hwords, after?_eq_some_iff.1 hunit]
  · rintro ⟨rest, rfl, hne, hdigits⟩
    have hnumber : digits? (digits ++ (" ms".toList ++ rest)) = some (digits, " ms".toList ++ rest) :=
      digits?_eq_some_iff.2 ⟨rfl, hne, hdigits, stopsAt_cons.2 (by decide)⟩
    simp only [after?_append, hnumber, Option.bind_eq_bind, Option.bind_some, Option.pure_def]

theorem ofPlain_eq_duration_iff {text : List Char} {ms : Option Nat} :
    Line.ofPlain text = .duration ms ↔
      ∃ digits, durationLine? text = some digits ∧ word64? digits = ms := by
  unfold Line.ofPlain
  cases durationLine? text with
  | some digits => simp
  | none =>
    refine iff_of_false (fun h => ?_) (by simp)
    dsimp only at h
    split at h
    · cases h
    · split at h <;> cases h

theorem trim_duration {lead : List Char} (hlead : ∀ c ∈ lead, isBlank c = true)
    (digits rest : List Char) :
    trim (lead ++ ("Test run finished after ".toList ++ (digits ++ (" ms".toList ++ rest)))) =
      "Test run finished after ".toList ++ (digits ++ (" ms".toList ++ dropEnd isBlank rest)) := by
  have hfront : StopsAt isBlank
      ("Test run finished after ".toList ++ (digits ++ (" ms".toList ++ rest))) :=
    stopsAt_cons.2 (by decide)
  -- the last letter of the unit keeps the blanks behind the line apart
  have hback := @dropEnd_append_cons isBlank
    ("Test run finished after ".toList ++ (digits ++ " m".toList)) rest 's' (by decide)
  rw [trim, dropWhile_run hlead hfront]
  simpa using hback

theorem durationLine?_trim_iff {text digits : List Char} :
    durationLine? (trim text) = some digits ↔ DurationText text digits := by
  rw [durationLine?_eq_some_iff]
  constructor
  · rintro ⟨rest, htext, hdigits⟩
    obtain ⟨before, after, hwhole, hbefore, -⟩ := exists_trim text
    rw [hwhole, htext]
    simpa using DurationText.mk (rest ++ after) hbefore hdigits
  · intro h
    cases h with
    | @mk lead digits rest hlead hdigits =>
      refine ⟨dropEnd isBlank rest, ?_, hdigits⟩
      rw [trim_duration hlead]

theorem DurationLine.unique {line : String} {digits digits' : List Char}
    (h : DurationLine line digits) (h' : DurationLine line digits') : digits = digits' := by
  obtain ⟨plain, hstripped, htext⟩ := h
  obtain ⟨plain', hstripped', htext'⟩ := h'
  obtain rfl := hstripped.unique hstripped'
  rw [← durationLine?_trim_iff] at htext htext'
  rw [htext] at htext'
  exact Option.some.inj htext'

theorem ofText_eq_duration_iff {line : String} {ms : Option Nat} :
    Line.ofText line = .duration ms ↔ ∃ digits, DurationLine line digits ∧ word64? digits = ms := by
  rw [Line.ofText, ofPlain_eq_duration_iff]
  unfold DurationLine
  simp only [Escape.stripped_iff, exists_eq_left, durationLine?_trim_iff]

end Summary

open Summary

namespace SummaryReader

theorem overwrites_duration :
    Overwrites Summary.duration fun line told =>
      ∃ digits, DurationLine line digits ∧ Text.word64? digits = told where
  told h r := by
    rw [feed, ofText_eq_duration_iff.2 h]
    rfl
  silent {line} hnone r := by
    unfold feed
    cases hline : Line.ofText line with
    | count subject outcome n => cases subject <;> cases outcome <;> rfl
    | duration ms => exact absurd (ofText_eq_duration_iff.1 hline) (hnone ms)
    | other => rfl

end SummaryReader

end ModuleRig
