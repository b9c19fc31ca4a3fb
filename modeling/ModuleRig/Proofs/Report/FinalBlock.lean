import ModuleRig.Proofs.Report.Duration
import ModuleRig.Proofs.Report.Totals

/-!
# The final block

Whatever the tests wrote before it, the block of counts and the duration at the end of an output
decide the summary: `ofLines?_of_finalBlock`. Its lines may stand in any order and between others,
with blanks and escape sequences in them. The reason is that any part of a summary is what the last
lines about it agree on (`Overwrites.feedAll_of_agreed`).
-/

namespace ModuleRig

namespace Summary

open Text

/-! ## How a summary is shown -/

/-- The blanks in and around a line. Between a number and the words of a count line there are
some. -/
structure Padding where
  lead : List Char
  pad : List Char
  gap : List Char
  between : List Char
  tail : List Char
  trail : List Char
  hlead : ∀ c ∈ lead, isBlank c = true
  hpad : ∀ c ∈ pad, isBlank c = true
  hgap : gap ≠ [] ∧ ∀ c ∈ gap, isBlank c = true
  hbetween : between ≠ [] ∧ ∀ c ∈ between, isBlank c = true
  htail : ∀ c ∈ tail, isBlank c = true
  htrail : ∀ c ∈ trail, isBlank c = true

/-- How many tests or containers had the outcome, in brackets. -/
def Padding.countText (p : Padding) (subject : Subject) (outcome : Outcome) (n : Nat) : List Char :=
  p.lead ++ '[' :: (p.pad ++ (digits n ++ (p.gap ++ (subject.word ++ (p.between ++
    (outcome.word ++ (p.tail ++ ']' :: p.trail)))))))

def Padding.durationText (p : Padding) (ms : Nat) : List Char :=
  p.lead ++ ("Test run finished after ".toList ++ (digits ms ++ (" ms".toList ++ p.trail)))

/-- The line shows the count, with any blanks and any escape sequences in it. -/
def ShowsCount (line : String) (subject : Subject) (outcome : Outcome) (n : Nat) : Prop :=
  ∃ p : Padding, Escape.Colored (p.countText subject outcome n) line.toList

def ShowsDuration (line : String) (ms : Nat) : Prop :=
  ∃ p : Padding, Escape.Colored (p.durationText ms) line.toList

/-- The line tells no count that a summary keeps, and no duration. -/
def Silent (line : String) : Prop :=
  (∀ subject outcome n, Keeps subject outcome → ¬ CountLine line subject outcome n) ∧
    ∀ digits, ¬ DurationLine line digits

/-- The eight counts of a summary. -/
def kept : List (Subject × Outcome) :=
  [(.tests, .found), (.tests, .started), (.tests, .successful), (.tests, .failed),
    (.tests, .skipped), (.tests, .aborted), (.containers, .found), (.containers, .failed)]

/-- Lines that show the whole summary, each count and the duration once, in any order and among lines
that tell nothing of the kind. -/
inductive FinalBlock (s : Summary) (block : List String) : Prop
  | mk {noise : List String} {finished : String} {ms : Nat}
      (line : Subject → Outcome → String)
      (hcounts : ∀ subject outcome, Keeps subject outcome →
        ShowsCount (line subject outcome) subject outcome (s.counted subject outcome))
      (hms : s.duration = some ms) (hfinished : ShowsDuration finished ms)
      (hnoise : ∀ other ∈ noise, Silent other)
      (hblock : block.Perm (kept.map (fun slot => line slot.1 slot.2) ++ finished :: noise))

/-- All numbers of the summary are of 64 bits. -/
structure Fits (s : Summary) : Prop where
  counts : ∀ subject outcome, s.counted subject outcome ≤ maxWord64
  duration : ∀ ms ∈ s.duration, ms ≤ maxWord64

/-- The line is read as something that a summary keeps. -/
def Line.isKept : Line → Bool
  | .count subject outcome _ => decide ((subject, outcome) ∈ kept)
  | .duration _ => true
  | .other => false

theorem mem_kept_iff {subject : Subject} {outcome : Outcome} :
    (subject, outcome) ∈ kept ↔ Keeps subject outcome := by
  unfold Keeps
  cases subject <;> cases outcome <;> decide

theorem silent_iff {line : String} : Silent line ↔ (Line.ofText line).isKept = false := by
  constructor
  · rintro ⟨hcount, hduration⟩
    cases hline : Line.ofText line with
    | count subject outcome n =>
      refine decide_eq_false (fun hkept => ?_)
      exact hcount subject outcome n (mem_kept_iff.1 hkept) (ofText_eq_count_iff.1 hline)
    | duration ms =>
      obtain ⟨digits, hline, -⟩ := ofText_eq_duration_iff.1 hline
      exact absurd hline (hduration digits)
    | other => rfl
  · intro h
    refine ⟨fun subject outcome n hkeeps hcount => ?_, fun digits hduration => ?_⟩
    · rw [ofText_eq_count_iff.2 hcount, Line.isKept, decide_eq_false_iff_not, mem_kept_iff] at h
      exact h hkeeps
    · rw [ofText_eq_duration_iff.2 ⟨digits, hduration, rfl⟩] at h
      contradiction

instance (line : String) : Decidable (Silent line) :=
  decidable_of_iff _ silent_iff.symm

theorem eq_of_counted {s s' : Summary}
    (hcounts : ∀ subject outcome, Keeps subject outcome →
      s.counted subject outcome = s'.counted subject outcome)
    (hduration : s.duration = s'.duration) : s = s' := by
  have htests : ∀ outcome, s.counted .tests outcome = s'.counted .tests outcome :=
    fun outcome => hcounts .tests outcome (.inl rfl)
  have hfound := hcounts .containers .found (.inr (.inl rfl))
  have hfailed := hcounts .containers .failed (.inr (.inr rfl))
  rw [Summary.mk.injEq]
  exact ⟨htests .found, htests .started, htests .successful, htests .failed, htests .skipped,
    htests .aborted, hfound, hfailed, hduration⟩

/-! ## What the lines of a block tell -/

theorem escapeChar_not_mem {within : Char → Bool} {text : List Char}
    (h : ∀ c ∈ text, within c = true) (hescape : within Escape.escapeChar = false) :
    Escape.escapeChar ∉ text := by
  intro hmem
  rw [h _ hmem] at hescape
  contradiction

theorem escapeChar_not_mem_digits (n : Nat) : Escape.escapeChar ∉ digits n :=
  escapeChar_not_mem (fun _ => isDigit_of_mem_digits) (by decide)

theorem Padding.escapeChar_not_mem_countText (p : Padding) (subject : Subject) (outcome : Outcome)
    (n : Nat) : Escape.escapeChar ∉ p.countText subject outcome n := by
  have hblank : isBlank Escape.escapeChar = false := by decide
  have hsubject : Escape.escapeChar ∉ subject.word := by cases subject <;> decide
  have houtcome : Escape.escapeChar ∉ outcome.word := by cases outcome <;> decide
  simp only [countText, List.mem_append, List.mem_cons, not_or]
  exact ⟨escapeChar_not_mem p.hlead hblank, by decide, escapeChar_not_mem p.hpad hblank,
    escapeChar_not_mem_digits n, escapeChar_not_mem p.hgap.2 hblank, hsubject,
    escapeChar_not_mem p.hbetween.2 hblank, houtcome, escapeChar_not_mem p.htail hblank, by decide,
    escapeChar_not_mem p.htrail hblank⟩

theorem Padding.escapeChar_not_mem_durationText (p : Padding) (ms : Nat) :
    Escape.escapeChar ∉ p.durationText ms := by
  have hblank : isBlank Escape.escapeChar = false := by decide
  simp only [durationText, List.mem_append, not_or]
  exact ⟨escapeChar_not_mem p.hlead hblank, by decide, escapeChar_not_mem_digits ms, by decide,
    escapeChar_not_mem p.htrail hblank⟩

theorem countLine_of_shows {line : String} {subject : Subject} {outcome : Outcome} {n : Nat}
    (h : ShowsCount line subject outcome n) (hfits : n ≤ maxWord64) :
    CountLine line subject outcome n := by
  obtain ⟨p, hcolored⟩ := h
  refine ⟨_, hcolored.stripped (p.escapeChar_not_mem_countText subject outcome n), ?_⟩
  have hvalue := digitsValue_digits n
  have htext := CountText.mk subject outcome p.trail p.hlead p.hpad
    ⟨digits_ne_nil n, fun _ => isDigit_of_mem_digits⟩ (hvalue.symm ▸ hfits) p.hgap p.hbetween p.htail
  rwa [hvalue] at htext

theorem durationLine_of_shows {line : String} {ms : Nat} (h : ShowsDuration line ms) :
    DurationLine line (digits ms) := by
  obtain ⟨p, hcolored⟩ := h
  refine ⟨_, hcolored.stripped (p.escapeChar_not_mem_durationText ms), ?_⟩
  exact .mk p.trail p.hlead
    ⟨digits_ne_nil ms, fun c hc => isAnyDigit_of_isDigit c (isDigit_of_mem_digits hc)⟩

theorem word64?_digits {n : Nat} (h : n ≤ maxWord64) : word64? (digits n) = some n :=
  word64?_eq_some_iff.2
    ⟨⟨digits_ne_nil n, fun _ => isDigit_of_mem_digits⟩, digitsValue_digits n, h⟩

theorem CountLine.unique {line : String} {subject subject' : Subject} {outcome outcome' : Outcome}
    {n n' : Nat} (h : CountLine line subject outcome n) (h' : CountLine line subject' outcome' n') :
    subject = subject' ∧ outcome = outcome' ∧ n = n' := by
  rw [← ofText_eq_count_iff] at h h'
  rw [h] at h'
  simpa using h'

theorem CountLine.not_durationLine {line : String} {subject : Subject} {outcome : Outcome} {n : Nat}
    (h : CountLine line subject outcome n) (digits : List Char) : ¬ DurationLine line digits := by
  intro hduration
  have hline := ofText_eq_duration_iff.2 ⟨digits, hduration, rfl⟩
  rw [ofText_eq_count_iff.2 h] at hline
  contradiction

variable {s : Summary} {block : List String}

/-- Each line of a block tells one thing of the summary, or nothing that is kept. -/
theorem FinalBlock.line_cases (h : FinalBlock s block) (hfits : s.Fits) {line : String}
    (hline : line ∈ block) :
    (∃ subject outcome, CountLine line subject outcome (s.counted subject outcome)) ∨
      (∃ ms, s.duration = some ms ∧ DurationLine line (digits ms)) ∨ Silent line := by
  cases h with
  | @mk noise finished ms shown hcounts hms hfinished hnoise hblock =>
    rw [hblock.mem_iff, List.mem_append, List.mem_map, List.mem_cons] at hline
    rcases hline with ⟨⟨subject, outcome⟩, hkept, rfl⟩ | rfl | hother
    · have hcount := hcounts subject outcome (mem_kept_iff.1 hkept)
      exact .inl ⟨subject, outcome, countLine_of_shows hcount (hfits.counts subject outcome)⟩
    · exact .inr (.inl ⟨ms, hms, durationLine_of_shows hfinished⟩)
    · exact .inr (.inr (hnoise line hother))

theorem FinalBlock.exists_countLine (h : FinalBlock s block) (hfits : s.Fits) {subject : Subject}
    {outcome : Outcome} (hkeeps : Keeps subject outcome) :
    ∃ line ∈ block, CountLine line subject outcome (s.counted subject outcome) := by
  cases h with
  | @mk noise finished ms shown hcounts hms hfinished hnoise hblock =>
    refine ⟨shown subject outcome, ?_,
      countLine_of_shows (hcounts subject outcome hkeeps) (hfits.counts subject outcome)⟩
    rw [hblock.mem_iff]
    exact List.mem_append_left _ (List.mem_map.2 ⟨(subject, outcome), mem_kept_iff.2 hkeeps, rfl⟩)

theorem FinalBlock.exists_durationLine (h : FinalBlock s block) :
    ∃ ms, s.duration = some ms ∧ ∃ line ∈ block, DurationLine line (digits ms) := by
  cases h with
  | @mk noise finished ms shown hcounts hms hfinished hnoise hblock =>
    refine ⟨ms, hms, finished, ?_, durationLine_of_shows hfinished⟩
    rw [hblock.mem_iff]
    exact List.mem_append_right _ List.mem_cons_self

theorem FinalBlock.counted_of_countLine (h : FinalBlock s block) (hfits : s.Fits) {line : String}
    (hline : line ∈ block) {subject : Subject} {outcome : Outcome} (hkeeps : Keeps subject outcome)
    {n : Nat} (hcount : CountLine line subject outcome n) : n = s.counted subject outcome := by
  rcases h.line_cases hfits hline with ⟨subject', outcome', hcount'⟩ | ⟨ms, -, hduration⟩ | hsilent
  · obtain ⟨rfl, rfl, hn⟩ := hcount.unique hcount'
    exact hn
  · exact absurd hduration (hcount.not_durationLine _)
  · exact absurd hcount (hsilent.1 subject outcome n hkeeps)

theorem FinalBlock.duration_of_durationLine (h : FinalBlock s block) (hfits : s.Fits) {line : String}
    (hline : line ∈ block) {digits : List Char} (hduration : DurationLine line digits) :
    word64? digits = s.duration := by
  rcases h.line_cases hfits hline with ⟨subject, outcome, hcount⟩ | ⟨ms, hms, hduration'⟩ | hsilent
  · exact absurd hduration (hcount.not_durationLine _)
  · rw [hduration.unique hduration', hms, word64?_digits (hfits.duration ms hms)]
  · exact absurd hduration (hsilent.2 digits)

end Summary

open Summary

/-! ## What the lines decide -/

namespace SummaryReader

theorem counted_of_finalBlock {s : Summary} {block : List String} (h : FinalBlock s block)
    (hfits : s.Fits) {subject : Subject} {outcome : Outcome} (hkeeps : Keeps subject outcome)
    (r : SummaryReader) :
    (r.feedAll block).summary.counted subject outcome = s.counted subject outcome := by
  obtain ⟨line, hline, hcount⟩ := h.exists_countLine hfits hkeeps
  refine (overwrites_counted hkeeps).feedAll_of_agreed ?_ r (.inr ⟨line, hline, _, hcount⟩)
  intro line hline n hcount
  exact h.counted_of_countLine hfits hline hkeeps hcount

theorem duration_of_finalBlock {s : Summary} {block : List String} (h : FinalBlock s block)
    (hfits : s.Fits) (r : SummaryReader) : (r.feedAll block).summary.duration = s.duration := by
  obtain ⟨ms, hms, line, hline, hduration⟩ := h.exists_durationLine
  refine overwrites_duration.feedAll_of_agreed ?_ r (.inr ⟨line, hline, _, _, hduration, rfl⟩)
  rintro line hline _ ⟨digits, hduration, rfl⟩
  exact h.duration_of_durationLine hfits hline hduration

end SummaryReader

/-- An output that ends with such a block has the summary that the block shows, whatever stands
before the block. -/
theorem Summary.ofLines?_of_finalBlock (s : Summary) (earlier block : List String) (hfits : s.Fits)
    (hblock : FinalBlock s block) : ofLines? (earlier ++ block) = some s := by
  have hsplit : SummaryReader.start.feedAll (earlier ++ block) =
      (SummaryReader.start.feedAll earlier).feedAll block := List.foldl_append
  have hseen : ((SummaryReader.start.feedAll earlier).feedAll block).seen = true := by
    obtain ⟨line, hline, hcount⟩ := hblock.exists_countLine hfits (.inl rfl : Keeps .tests .found)
    exact (SummaryReader.seen_feedAll _ block).2 (.inr ⟨line, hline, _, _, _, hcount⟩)
  rw [ofLines?, SummaryReader.result?, hsplit, if_pos hseen, Option.some.injEq]
  refine eq_of_counted ?_ (SummaryReader.duration_of_finalBlock hblock hfits _)
  intro subject outcome hkeeps
  exact SummaryReader.counted_of_finalBlock hblock hfits hkeeps _

namespace Summary

open Text

/-- Of twelve tests one was skipped and one aborted, and two containers failed. -/
def sampleSummary : Summary := ⟨12, 11, 10, 0, 1, 1, 3, 2, some 1204⟩

def samplePadding : Subject → Padding
  | .tests => ⟨[], ['\t', ' '], [' '], [' '], [' ', ' '], [' '], by simp, by simp [isBlank],
      by simp [isBlank], by simp [isBlank], by simp [isBlank], by simp [isBlank]⟩
  | .containers => ⟨[' ', '\u00a0'], [], ['\u2003'], ['\t'], [], [], by simp [isBlank], by simp,
      by simp [isBlank], by simp [isBlank], by simp, by simp⟩

def sampleLine : Subject → Outcome → String
  | .tests, .found => "[\t 1\x1b[1;31m2 tests found  ] "
  | .tests, .started => "\x1b[0m[\t 11 te\x1b[;mst\x1b[ms started  ] "
  | .tests, .successful => "[\t 10 tests successful  ]\x1b[0m "
  | .tests, .failed => "[\t 0 tests f\x1b[31mailed  ] "
  | .tests, .skipped => "[\t 1 tests skipped  ] \x1b[K\x1b[K"
  | .tests, .aborted => "[\t 1 tests aborted  ] "
  | .containers, .found => " \u00a0\x1b[35m[3\u2003containers\tfound]"
  | .containers, _ => " \u00a0[2\u2003containers\tfailed\x1b[0m]"

def sampleNoise : List String :=
  ["", "[ 9 containers skipped ]", "[ 18446744073709551616 tests failed ]", "finished after 3 ms"]

def sampleBlock : List String :=
  ["[ 9 containers skipped ]", sampleLine .containers .failed, sampleLine .tests .aborted,
    "Test run finished af\x1b[1mter 12\x1b[0m04 ms ", sampleLine .tests .found,
    "[ 18446744073709551616 tests failed ]", sampleLine .tests .failed, "",
    sampleLine .tests .started, sampleLine .containers .found, sampleLine .tests .successful,
    "finished after 3 ms", sampleLine .tests .skipped]

theorem ofLines?_of_imitated_block :
    sampleSummary.Fits ∧ FinalBlock sampleSummary sampleBlock ∧
      ofLines? (["[ 7 tests failed ]", "Test run finished after 5 ms"] ++ sampleBlock) =
        some sampleSummary := by
  have hfits : sampleSummary.Fits :=
    ⟨by intro subject outcome; cases subject <;> cases outcome <;> decide, by decide⟩
  have hcounts : ∀ slot ∈ kept, (samplePadding slot.1).countText slot.1 slot.2
      (sampleSummary.counted slot.1 slot.2) = Escape.strip (sampleLine slot.1 slot.2).toList := by
    decide +kernel
  have hfinished : (samplePadding .tests).durationText 1204 =
      Escape.strip "Test run finished af\x1b[1mter 12\x1b[0m04 ms ".toList := by
    decide +kernel
  have hnoise : ∀ other ∈ sampleNoise, Silent other := by decide +kernel
  have hblock : FinalBlock sampleSummary sampleBlock := by
    refine .mk sampleLine (fun subject outcome hkeeps => ?_) rfl
      ⟨_, (Escape.stripped_iff.2 hfinished).colored⟩ hnoise (by decide +kernel)
    exact ⟨_, (Escape.stripped_iff.2 (hcounts (subject, outcome) (mem_kept_iff.2 hkeeps))).colored⟩
  exact ⟨hfits, hblock, ofLines?_of_finalBlock _ _ _ hfits hblock⟩

end Summary

end ModuleRig
