import ModuleRig.Proofs.Report.Line
import ModuleRig.Proofs.Report.Parts

/-!
# Which lines make up a summary

A count that the summary keeps is that of the last line about it, and zero if there is none
(`counted_eq_zero_iff`). There is a summary as soon as any line counts something (`seen_feedAll`).
-/

namespace ModuleRig

namespace Summary

/-- The last line about the outcome of the subject counts this many. -/
def LastCount (lines : List String) (subject : Subject) (outcome : Outcome) (n : Nat) : Prop :=
  ∃ before line after, lines = before ++ line :: after ∧ CountLine line subject outcome n ∧
    ∀ later ∈ after, ∀ m, ¬ CountLine later subject outcome m

/-- The counts that a summary keeps. Those of containers are only kept if they were found or
failed. -/
def Keeps (subject : Subject) (outcome : Outcome) : Prop :=
  subject = .tests ∨ outcome = .found ∨ outcome = .failed

/-- What a summary says, zero where it keeps nothing. -/
def counted (s : Summary) : Subject → Outcome → Nat
  | .tests, .found => s.testsFound
  | .tests, .started => s.testsStarted
  | .tests, .successful => s.testsSuccessful
  | .tests, .failed => s.testsFailed
  | .tests, .skipped => s.testsSkipped
  | .tests, .aborted => s.testsAborted
  | .containers, .found => s.containersFound
  | .containers, .failed => s.containersFailed
  | .containers, _ => 0

theorem counted_empty (subject : Subject) (outcome : Outcome) :
    empty.counted subject outcome = 0 := by
  cases subject <;> cases outcome <;> rfl

theorem counted_setCount_self {subject : Subject} {outcome : Outcome} (h : Keeps subject outcome)
    (s : Summary) (n : Nat) : (s.setCount subject outcome n).counted subject outcome = n := by
  cases subject <;> cases outcome <;> first | rfl | simp [Keeps] at h

theorem counted_setCount_ne {subject subject' : Subject} {outcome outcome' : Outcome}
    (h : ¬ (subject' = subject ∧ outcome' = outcome)) (s : Summary) (n : Nat) :
    (s.setCount subject' outcome' n).counted subject outcome = s.counted subject outcome := by
  cases subject <;> cases outcome <;> cases subject' <;> cases outcome' <;>
    first | rfl | exact absurd ⟨rfl, rfl⟩ h

theorem isClean_iff (s : Summary) :
    s.isClean = true ↔ s.counted .tests .failed = 0 ∧ s.counted .containers .failed = 0 := by
  simp [isClean, counted]

end Summary

open Summary

namespace SummaryReader

/-! ## One line -/

theorem feed_of_count {line : String} {subject : Subject} {outcome : Outcome} {n : Nat}
    (h : CountLine line subject outcome n) (r : SummaryReader) :
    r.feed line = ⟨r.summary.setCount subject outcome n, true⟩ := by
  rw [feed, ofText_eq_count_iff.2 h]
  rfl

theorem feed_of_no_count {line : String} (h : ∀ subject outcome n, ¬ CountLine line subject outcome n)
    (r : SummaryReader) :
    (r.feed line).seen = r.seen ∧
      ∀ subject outcome, (r.feed line).summary.counted subject outcome =
        r.summary.counted subject outcome := by
  unfold feed
  cases hline : Line.ofText line with
  | count subject outcome n => exact absurd (ofText_eq_count_iff.1 hline) (h subject outcome n)
  | duration ms =>
    refine ⟨rfl, fun subject outcome => ?_⟩
    cases subject <;> cases outcome <;> rfl
  | other => exact ⟨rfl, fun _ _ => rfl⟩

theorem seen_feed (r : SummaryReader) (line : String) :
    (r.feed line).seen = true ↔
      r.seen = true ∨ ∃ subject outcome n, CountLine line subject outcome n := by
  by_cases h : ∃ subject outcome n, CountLine line subject outcome n
  · obtain ⟨subject, outcome, n, hcount⟩ := h
    rw [feed_of_count hcount]
    exact iff_of_true rfl (.inr ⟨subject, outcome, n, hcount⟩)
  · have hnone : ∀ subject outcome n, ¬ CountLine line subject outcome n :=
      fun subject outcome n hcount => h ⟨subject, outcome, n, hcount⟩
    rw [(feed_of_no_count hnone r).1, or_iff_left h]

theorem counted_feed_of_ne {line : String} {subject : Subject} {outcome : Outcome}
    (h : ∀ n, ¬ CountLine line subject outcome n) (r : SummaryReader) :
    (r.feed line).summary.counted subject outcome = r.summary.counted subject outcome := by
  by_cases hother : ∃ subject' outcome' n, CountLine line subject' outcome' n
  · obtain ⟨subject', outcome', n, hcount⟩ := hother
    rw [feed_of_count hcount]
    refine counted_setCount_ne ?_ r.summary n
    rintro ⟨rfl, rfl⟩
    exact h n hcount
  · refine (feed_of_no_count ?_ r).2 subject outcome
    intro subject' outcome' n hcount
    exact hother ⟨subject', outcome', n, hcount⟩

/-! ## All lines -/

theorem seen_feedAll (r : SummaryReader) (lines : List String) :
    (r.feedAll lines).seen = true ↔
      r.seen = true ∨ ∃ line ∈ lines, ∃ subject outcome n, CountLine line subject outcome n := by
  unfold feedAll
  induction lines generalizing r with
  | nil => simp
  | cons line lines ih =>
    rw [List.foldl_cons, ih, seen_feed, or_assoc]
    simp only [List.mem_cons, exists_eq_or_imp]

theorem overwrites_counted {subject : Subject} {outcome : Outcome} (h : Keeps subject outcome) :
    Overwrites (fun s => s.counted subject outcome) fun line n =>
      CountLine line subject outcome n where
  told hcount r := by
    rw [feed_of_count hcount]
    exact counted_setCount_self h r.summary _
  silent hnone r := counted_feed_of_ne hnone r

end SummaryReader

theorem SummaryReader.counted_eq_zero_iff {subject : Subject} {outcome : Outcome}
    (hkeeps : Keeps subject outcome) (lines : List String) :
    (start.feedAll lines).summary.counted subject outcome = 0 ↔
      ∀ n, LastCount lines subject outcome n → n = 0 := by
  have hpart := overwrites_counted hkeeps
  constructor
  · intro hzero n hlast
    exact (hpart.feedAll_of_last hlast start).symm.trans hzero
  · intro h
    rcases lastTold_or_silent (CountLine · subject outcome ·) lines with ⟨n, hlast⟩ | hsilent
    · exact (hpart.feedAll_of_last hlast start).trans (h n hlast)
    · exact (hpart.feedAll_of_none hsilent start).trans (counted_empty subject outcome)

end ModuleRig
