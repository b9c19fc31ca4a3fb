import ModuleRig.Proofs.Report.FinalBlock

/-!
# The last lines decide

Any number of lines may tell a count or the duration. The summary goes by the last line of each kind
(`SaysLast`), and by nothing else in the output: `last_lines_decide`. So it matters in which order
the lines of one kind stand, and not how the kinds are mixed or what stands between them.
-/

namespace ModuleRig

namespace Summary

open Text

/-! ## What a line is about -/

/-- What a line can tell: how many tests or containers had an outcome, or the duration. -/
inductive Kind where
  | count (subject : Subject) (outcome : Outcome)
  | duration
deriving DecidableEq

def Kind.ToldBy (line : String) : Kind → Prop
  | .count subject outcome => ∃ n, CountLine line subject outcome n
  | .duration => ∃ digits, DurationLine line digits

/-- The line has the shape of a count, but its number is too great or in digits of another
script. -/
def UnfitCount (line : String) : Prop :=
  ∃ plain digits subject outcome, Escape.Stripped line.toList plain ∧
    CountShape plain digits subject outcome ∧
      ¬ ((∀ c ∈ digits, c.isDigit = true) ∧ digitsValue digits ≤ maxWord64)

def Line.kind? : Line → Option Kind
  | .count subject outcome _ => some (.count subject outcome)
  | .duration _ => some .duration
  | .other => none

theorem toldBy_iff {line : String} {kind : Kind} :
    kind.ToldBy line ↔ (Line.ofText line).kind? = some kind := by
  cases kind with
  | count subject outcome =>
    simp only [Kind.ToldBy, ← ofText_eq_count_iff]
    cases Line.ofText line <;> simp [Line.kind?]
  | duration =>
    have hduration : (∃ digits, DurationLine line digits) ↔
        ∃ ms, Line.ofText line = .duration ms := by
      simp only [ofText_eq_duration_iff]
      exact ⟨fun ⟨digits, h⟩ => ⟨_, digits, h, rfl⟩, fun ⟨_, digits, h, _⟩ => ⟨digits, h⟩⟩
    rw [Kind.ToldBy, hduration]
    cases Line.ofText line <;> simp [Line.kind?]

instance (line : String) (kind : Kind) : Decidable (kind.ToldBy line) :=
  decidable_of_iff _ toldBy_iff.symm

theorem UnfitCount.tells_nothing {line : String} (h : UnfitCount line) (kind : Kind) :
    ¬ kind.ToldBy line := by
  obtain ⟨plain, digits, subject, outcome, hstripped, hshape, hunfit⟩ := h
  have hline := countLine?_trim_iff.2 hshape
  cases kind with
  | count subject' outcome' =>
    rintro ⟨n, plain', hstripped', htext⟩
    obtain rfl := hstripped.unique hstripped'
    obtain ⟨digits', hshape', hword⟩ := countText_iff.1 htext
    have hsame := hline.symm.trans (countLine?_trim_iff.2 hshape')
    obtain ⟨rfl, -⟩ := Prod.mk.inj (Option.some.inj hsame)
    obtain ⟨⟨-, hdigits⟩, rfl, hfits⟩ := word64?_eq_some_iff.1 hword
    exact hunfit ⟨hdigits, hfits⟩
  | duration =>
    rintro ⟨digits', plain', hstripped', htext⟩
    obtain rfl := hstripped.unique hstripped'
    have hduration := durationLine?_trim_iff.2 htext
    obtain ⟨pad, gap, between, tail, rest, htrim, -⟩ := countLine?_eq_some_iff.1 hline
    rw [htrim, durationLine?_bracket] at hduration
    contradiction

/-! ## The last line of each kind -/

/-- A count is that of the last line about it, and zero if no line is about it. The duration is that
of the last line about it, and none if no line is or if the number of the last does not fit. -/
structure SaysLast (s : Summary) (lines : List String) : Prop where
  counts : ∀ subject outcome, Keeps subject outcome → ∀ n, s.counted subject outcome = n ↔
    LastCount lines subject outcome n ∨
      n = 0 ∧ ∀ line ∈ lines, ¬ (Kind.count subject outcome).ToldBy line
  duration : ∀ ms, s.duration = some ms ↔
    ∃ digits, LastTold DurationLine lines digits ∧ (∀ c ∈ digits, c.isDigit = true) ∧
      digitsValue digits = ms ∧ ms ≤ maxWord64

theorem SaysLast.unique {s s' : Summary} {lines : List String} (h : SaysLast s lines)
    (h' : SaysLast s' lines) : s = s' := by
  refine eq_of_counted (fun subject outcome hkeeps => ?_) (Option.ext fun ms => ?_)
  · rw [h.counts subject outcome hkeeps, ← h'.counts subject outcome hkeeps]
  · rw [h.duration, h'.duration]

theorem DurationLine.ne_nil {line : String} {digits : List Char} (h : DurationLine line digits) :
    digits ≠ [] := by
  obtain ⟨plain, -, htext⟩ := h
  cases htext with
  | mk rest hlead hdigits => exact hdigits.1

theorem lastTold_duration_iff {lines : List String} {told : Option Nat} :
    LastTold (fun line told => ∃ digits, DurationLine line digits ∧ word64? digits = told) lines
        told ↔
      ∃ digits, LastTold DurationLine lines digits ∧ word64? digits = told := by
  constructor
  · rintro ⟨before, line, after, hlines, ⟨digits, hduration, htold⟩, hafter⟩
    refine ⟨digits, ⟨before, line, after, hlines, hduration, ?_⟩, htold⟩
    intro later hlater digits' hlast
    exact hafter later hlater _ ⟨digits', hlast, rfl⟩
  · rintro ⟨digits, ⟨before, line, after, hlines, hduration, hafter⟩, htold⟩
    refine ⟨before, line, after, hlines, ⟨digits, hduration, htold⟩, ?_⟩
    rintro later hlater _ ⟨digits', hlast, -⟩
    exact hafter later hlater digits' hlast

/-- What an output with these lines is read as depends on the last lines alone. -/
structure DecidedByLast (lines : List String) : Prop where
  /-- There is no summary exactly if no line counts anything. -/
  nothing : ofLines? lines = none ↔
    ∀ subject outcome, ∀ line ∈ lines, ¬ (Kind.count subject outcome).ToldBy line
  summary : ∀ s, ofLines? lines = some s ↔
    (∃ subject outcome, ∃ line ∈ lines, (Kind.count subject outcome).ToldBy line) ∧
      SaysLast s lines
  /-- Lines that tell nothing change nothing, and no count that does not fit tells anything. -/
  silent : ∀ before line after, lines = before ++ line :: after →
    (∀ kind : Kind, ¬ kind.ToldBy line) ∨ UnfitCount line →
      ofLines? (before ++ after) = ofLines? lines
  /-- The lines may stand in any other order that keeps those of each kind in theirs. -/
  reordered : ∀ lines', (∀ kind : Kind, lines'.filter (kind.ToldBy ·) =
    lines.filter (kind.ToldBy ·)) → ofLines? lines' = ofLines? lines

end Summary

open Summary

namespace SummaryReader

/-! ## What the reader ends with -/

theorem seen_start_feedAll (lines : List String) :
    (start.feedAll lines).seen = true ↔
      ∃ subject outcome, ∃ line ∈ lines, (Kind.count subject outcome).ToldBy line := by
  rw [seen_feedAll, or_iff_right (show ¬ start.seen = true by decide)]
  constructor
  · rintro ⟨line, hline, subject, outcome, htold⟩
    exact ⟨subject, outcome, line, hline, htold⟩
  · rintro ⟨subject, outcome, line, hline, htold⟩
    exact ⟨line, hline, subject, outcome, htold⟩

theorem saysLast_feedAll (lines : List String) : SaysLast (start.feedAll lines).summary lines where
  counts := by
    intro subject outcome hkeeps n
    have hstart : start.summary.counted subject outcome = 0 := counted_empty subject outcome
    rw [(overwrites_counted hkeeps).feedAll_eq_iff, hstart]
    refine or_congr Iff.rfl (and_congr eq_comm (forall₂_congr fun line _ => ?_))
    exact not_exists.symm
  duration := by
    intro ms
    have hstart : start.summary.duration = none := rfl
    rw [overwrites_duration.feedAll_eq_iff, hstart, lastTold_duration_iff]
    simp only [word64?_eq_some_iff, reduceCtorEq, false_and, or_false]
    refine exists_congr fun digits => and_congr_right fun hlast => ?_
    obtain ⟨line, -, hduration⟩ := hlast.exists_mem
    rw [and_iff_right hduration.ne_nil]

theorem feedAll_eq_of_filter_eq {lines lines' : List String}
    (h : ∀ kind : Kind, lines'.filter (kind.ToldBy ·) = lines.filter (kind.ToldBy ·)) :
    start.feedAll lines' = start.feedAll lines := by
  have hmem : ∀ kind : Kind,
      (∃ line ∈ lines', kind.ToldBy line) ↔ ∃ line ∈ lines, kind.ToldBy line := by
    intro kind
    have hfilter := congrArg (∃ line, line ∈ ·) (h kind)
    simpa [List.mem_filter] using hfilter
  have hseen : (start.feedAll lines').seen = (start.feedAll lines).seen := by
    rw [Bool.eq_iff_iff, seen_start_feedAll, seen_start_feedAll]
    exact exists_congr fun subject => exists_congr fun outcome => hmem (.count subject outcome)
  have hcounts : ∀ subject outcome, Keeps subject outcome →
      (start.feedAll lines').summary.counted subject outcome =
        (start.feedAll lines).summary.counted subject outcome := by
    intro subject outcome hkeeps
    refine (overwrites_counted hkeeps).feedAll_eq_of_filter_eq (fun line => ?_)
      (h (.count subject outcome)) start
    exact decide_eq_true_iff
  have hduration : (start.feedAll lines').summary.duration =
      (start.feedAll lines).summary.duration := by
    refine overwrites_duration.feedAll_eq_of_filter_eq (fun line => ?_) (h .duration) start
    rw [decide_eq_true_iff]
    exact ⟨fun ⟨digits, hline⟩ => ⟨_, digits, hline, rfl⟩,
      fun ⟨_, digits, hline, _⟩ => ⟨digits, hline⟩⟩
  rw [SummaryReader.mk.injEq]
  exact ⟨eq_of_counted hcounts hduration, hseen⟩

end SummaryReader

namespace Summary

theorem ofLines?_eq_none_iff {lines : List String} :
    ofLines? lines = none ↔
      ∀ subject outcome, ∀ line ∈ lines, ¬ (Kind.count subject outcome).ToldBy line := by
  have hseen := SummaryReader.seen_start_feedAll lines
  rw [ofLines?, SummaryReader.result?, ite_eq_right_iff]
  simp only [reduceCtorEq, imp_false, hseen, not_exists, not_and]

theorem ofLines?_eq_some_iff {lines : List String} {s : Summary} :
    ofLines? lines = some s ↔
      (∃ subject outcome, ∃ line ∈ lines, (Kind.count subject outcome).ToldBy line) ∧
        SaysLast s lines := by
  have hlast := SummaryReader.saysLast_feedAll lines
  rw [← SummaryReader.seen_start_feedAll, ofLines?, SummaryReader.result?,
    Option.ite_none_right_eq_some, Option.some.injEq]
  refine and_congr_right fun _ => ⟨?_, hlast.unique⟩
  rintro rfl
  exact hlast

theorem ofLines?_eq_of_filter_eq {lines lines' : List String}
    (h : ∀ kind : Kind, lines'.filter (kind.ToldBy ·) = lines.filter (kind.ToldBy ·)) :
    ofLines? lines' = ofLines? lines := by
  rw [ofLines?, ofLines?, SummaryReader.feedAll_eq_of_filter_eq h]

/-- The last line of each kind decides, and nothing else in the output does. -/
theorem last_lines_decide (lines : List String) : DecidedByLast lines where
  nothing := ofLines?_eq_none_iff
  summary _ := ofLines?_eq_some_iff
  silent := by
    rintro before line after rfl hline
    have hnothing : ∀ kind : Kind, ¬ kind.ToldBy line := hline.elim id UnfitCount.tells_nothing
    refine ofLines?_eq_of_filter_eq fun kind => ?_
    simp [List.filter_append, hnothing kind]
  reordered _ := ofLines?_eq_of_filter_eq

/-- The second duration is in digits of another script and takes the first one away. Such a count
changes nothing. -/
example : ofLines? ["Test run finished after 5 ms", "[ 2 tests failed ]",
    "[ 1 containers started ]", "[ \u0663 tests failed ]", "Test run finished after \u0663 ms",
      "[ 1 tests failed ]"] =
      some { empty with testsFailed := 1 } := by
  decide +kernel

end Summary

end ModuleRig
