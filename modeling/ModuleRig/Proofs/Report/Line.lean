import ModuleRig.Proofs.Text.Escape
import ModuleRig.Proofs.Text.Front
import ModuleRig.Report.Summary

/-!
# Count lines

`CountLine` spells out which lines of output count something, by what is written in them. The reader
of the summary takes just these lines for counts: `ofText_eq_count_iff`.
-/

namespace ModuleRig.Summary

open Text

/-- A text that counts something: in brackets a number, a subject and an outcome, with blanks
between them. Blanks may stand before it and anything behind it. The number fits into 64 bits. -/
inductive CountText : List Char → Subject → Outcome → Nat → Prop
  | mk {lead pad digits gap between tail : List Char} (subject : Subject) (outcome : Outcome)
      (rest : List Char)
      (hlead : ∀ c ∈ lead, isBlank c = true) (hpad : ∀ c ∈ pad, isBlank c = true)
      (hdigits : digits ≠ [] ∧ ∀ c ∈ digits, c.isDigit = true)
      (hfits : digitsValue digits ≤ maxWord64)
      (hgap : gap ≠ [] ∧ ∀ c ∈ gap, isBlank c = true)
      (hbetween : between ≠ [] ∧ ∀ c ∈ between, isBlank c = true)
      (htail : ∀ c ∈ tail, isBlank c = true) :
      CountText (lead ++ '[' :: (pad ++ (digits ++ (gap ++ (subject.word ++ (between ++
        (outcome.word ++ (tail ++ ']' :: rest)))))))) subject outcome (digitsValue digits)

/-- A text of the shape of a count, with a number in digits of any script. -/
inductive CountShape : List Char → List Char → Subject → Outcome → Prop
  | mk {lead pad digits gap between tail : List Char} (subject : Subject) (outcome : Outcome)
      (rest : List Char)
      (hlead : ∀ c ∈ lead, isBlank c = true) (hpad : ∀ c ∈ pad, isBlank c = true)
      (hdigits : digits ≠ [] ∧ ∀ c ∈ digits, isAnyDigit c = true)
      (hgap : gap ≠ [] ∧ ∀ c ∈ gap, isBlank c = true)
      (hbetween : between ≠ [] ∧ ∀ c ∈ between, isBlank c = true)
      (htail : ∀ c ∈ tail, isBlank c = true) :
      CountShape (lead ++ '[' :: (pad ++ (digits ++ (gap ++ (subject.word ++ (between ++
        (outcome.word ++ (tail ++ ']' :: rest)))))))) digits subject outcome

/-- A line of output that counts something once its escape sequences are taken out. -/
def CountLine (line : String) (subject : Subject) (outcome : Outcome) (n : Nat) : Prop :=
  ∃ plain, Escape.Stripped line.toList plain ∧ CountText plain subject outcome n

/-! ## The pieces of a count line -/

theorem digits?_eq_some_iff {text digits rest : List Char} :
    digits? text = some (digits, rest) ↔
      text = digits ++ rest ∧ digits ≠ [] ∧ (∀ c ∈ digits, isAnyDigit c = true) ∧
        StopsAt isAnyDigit rest := by
  unfold digits?
  constructor
  · intro h
    split at h
    · contradiction
    · next hne =>
      simp only [Option.some.injEq, Prod.mk.injEq] at h
      obtain ⟨rfl, rfl⟩ := h
      exact ⟨List.takeWhile_append_dropWhile.symm, hne, List.all_eq_true.1 List.all_takeWhile,
        stopsAt_dropWhile⟩
  · rintro ⟨rfl, hne, hdigits, hstop⟩
    rw [takeWhile_run hdigits hstop, dropWhile_run hdigits hstop]
    cases digits with
    | nil => exact absurd rfl hne
    | cons c digits => rfl

theorem afterBlanks?_eq_some_iff {text rest : List Char} :
    afterBlanks? text = some rest ↔
      ∃ gap, text = gap ++ rest ∧ gap ≠ [] ∧ (∀ c ∈ gap, isBlank c = true) ∧
        StopsAt isBlank rest := by
  constructor
  · intro h
    cases text with
    | nil => simp [afterBlanks?] at h
    | cons c text =>
      simp only [afterBlanks?, Option.ite_none_right_eq_some, Option.some.injEq] at h
      obtain ⟨hc, rfl⟩ := h
      obtain ⟨gap, htext, hgap⟩ := exists_run isBlank text
      refine ⟨c :: gap, by rw [List.cons_append, ← htext], List.cons_ne_nil c gap, ?_,
        stopsAt_dropWhile⟩
      exact List.forall_mem_cons.2 ⟨hc, hgap⟩
  · rintro ⟨gap, rfl, hne, hgap, hstop⟩
    cases gap with
    | nil => exact absurd rfl hne
    | cons c gap =>
      rw [List.forall_mem_cons] at hgap
      simp only [List.cons_append, afterBlanks?, hgap.1, if_true, dropWhile_run hgap.2 hstop]

theorem append_of_wordOf? {α : Type} {word : α → List Char} {all : List α} {text rest : List Char}
    {a : α} (h : wordOf? word all text = some (a, rest)) : text = word a ++ rest := by
  obtain ⟨b, -, hb⟩ := List.exists_of_findSome?_eq_some h
  obtain ⟨r, hafter, heq⟩ := Option.map_eq_some_iff.1 hb
  simp only [Prod.mk.injEq] at heq
  obtain ⟨rfl, rfl⟩ := heq
  exact after?_eq_some_iff.1 hafter

theorem subject?_eq_some_iff {text rest : List Char} {subject : Subject} :
    wordOf? Subject.word Subject.all text = some (subject, rest) ↔
      text = subject.word ++ rest := by
  constructor
  · exact append_of_wordOf?
  · rintro rfl
    cases subject <;> rfl

theorem outcome?_eq_some_iff {text rest : List Char} {outcome : Outcome} :
    wordOf? Outcome.word Outcome.all text = some (outcome, rest) ↔
      text = outcome.word ++ rest := by
  constructor
  · exact append_of_wordOf?
  · rintro rfl
    cases outcome <;> rfl

theorem stopsAt_subject (subject : Subject) (rest : List Char) :
    StopsAt isBlank (subject.word ++ rest) := by
  cases subject <;> exact stopsAt_cons.2 rfl

theorem stopsAt_outcome (outcome : Outcome) (rest : List Char) :
    StopsAt isBlank (outcome.word ++ rest) := by
  cases outcome <;> exact stopsAt_cons.2 rfl

/-! ## A whole count line -/

theorem countLine?_eq_some_iff {text digits : List Char} {subject : Subject} {outcome : Outcome} :
    countLine? text = some (digits, subject, outcome) ↔
      ∃ pad gap between tail rest, text = '[' :: (pad ++ (digits ++ (gap ++ (subject.word ++
          (between ++ (outcome.word ++ (tail ++ ']' :: rest))))))) ∧
        (∀ c ∈ pad, isBlank c = true) ∧ (digits ≠ [] ∧ ∀ c ∈ digits, isAnyDigit c = true) ∧
        (gap ≠ [] ∧ ∀ c ∈ gap, isBlank c = true) ∧
        (between ≠ [] ∧ ∀ c ∈ between, isBlank c = true) ∧ ∀ c ∈ tail, isBlank c = true := by
  unfold countLine?
  constructor
  · intro h
    simp only [Option.bind_eq_bind, Option.bind_eq_some_iff, Option.pure_def, Option.some.injEq,
      Prod.exists, Prod.mk.injEq] at h
    obtain ⟨inner, hinner, digits', afterDigits, hdigits, afterGap, hgap, subject', afterSubject,
      hsubject, afterBetween, hbetween, outcome', afterOutcome, houtcome, rest, htail, rfl, rfl,
      rfl⟩ := h
    obtain ⟨pad, hpadded, hpad⟩ := exists_run isBlank inner
    obtain ⟨hdigits, hne, halldigits, -⟩ := digits?_eq_some_iff.1 hdigits
    obtain ⟨gap, hgap, hgapne, hallgap, -⟩ := afterBlanks?_eq_some_iff.1 hgap
    obtain ⟨between, hbetween, hbetweenne, hallbetween, -⟩ := afterBlanks?_eq_some_iff.1 hbetween
    obtain ⟨tail, htailed, halltail⟩ := exists_run isBlank afterOutcome
    refine ⟨pad, gap, between, tail, rest, ?_, hpad, ⟨hne, halldigits⟩, ⟨hgapne, hallgap⟩,
      ⟨hbetweenne, hallbetween⟩, halltail⟩
    rw [after?_eq_some_iff.1 hinner, hpadded, hdigits, hgap, subject?_eq_some_iff.1 hsubject,
      hbetween, outcome?_eq_some_iff.1 houtcome, htailed, after?_eq_some_iff.1 htail]
    rfl
  · rintro ⟨pad, gap, between, tail, rest, rfl, hpad, ⟨hne, hdigits⟩, ⟨hgapne, hgap⟩,
      ⟨hbetweenne, hbetween⟩, htail⟩
    have hopen : ∀ t, after? ['['] ('[' :: t) = some t := fun t => after?_append ['['] t
    have hpadded : ∀ t, (pad ++ (digits ++ t)).dropWhile isBlank = digits ++ t := fun t =>
      dropWhile_run hpad (stopsAt_append hne fun c hc => isBlank_of_isAnyDigit (hdigits c hc))
    have hnumber : ∀ t, digits? (digits ++ (gap ++ t)) = some (digits, gap ++ t) := fun t =>
      digits?_eq_some_iff.2 ⟨rfl, hne, hdigits,
        stopsAt_append hgapne fun c hc => isAnyDigit_of_isBlank (hgap c hc)⟩
    have hsubject : ∀ t, afterBlanks? (gap ++ (subject.word ++ t)) = some (subject.word ++ t) :=
      fun t => afterBlanks?_eq_some_iff.2 ⟨gap, rfl, hgapne, hgap, stopsAt_subject subject t⟩
    have houtcome : ∀ t, afterBlanks? (between ++ (outcome.word ++ t)) =
        some (outcome.word ++ t) := fun t =>
      afterBlanks?_eq_some_iff.2 ⟨between, rfl, hbetweenne, hbetween, stopsAt_outcome outcome t⟩
    have hclose : (tail ++ ']' :: rest).dropWhile isBlank = ']' :: rest :=
      dropWhile_run htail (stopsAt_cons.2 (by decide))
    simp only [hopen, hpadded, hnumber, hsubject, subject?_eq_some_iff.2 rfl, houtcome,
      outcome?_eq_some_iff.2 rfl, hclose, Option.bind_eq_bind, Option.bind_some]
    rfl

theorem word64?_eq_some_iff {digits : List Char} {n : Nat} :
    word64? digits = some n ↔ (digits ≠ [] ∧ ∀ c ∈ digits, c.isDigit = true) ∧
      digitsValue digits = n ∧ n ≤ maxWord64 := by
  simp only [word64?, boundedNumeral?, numeral?, Option.filter_eq_some_iff,
    Option.ite_none_right_eq_some, Option.some.injEq, decide_eq_true_eq, Bool.and_eq_true,
    Bool.not_eq_true', List.isEmpty_eq_false_iff, List.all_eq_true, and_assoc]

theorem durationLine?_bracket (text : List Char) : durationLine? ('[' :: text) = none := by
  have hword : after? "Test run finished after ".toList ('[' :: text) = none := rfl
  rw [durationLine?, hword]
  rfl

theorem ofPlain_eq_count_iff {text : List Char} {subject : Subject} {outcome : Outcome} {n : Nat} :
    Line.ofPlain text = .count subject outcome n ↔
      ∃ digits, countLine? text = some (digits, subject, outcome) ∧ word64? digits = some n := by
  unfold Line.ofPlain
  constructor
  · intro h
    split at h
    · contradiction
    · split at h
      · contradiction
      · next digits s o hline =>
        split at h
        · contradiction
        · next m hword =>
          simp only [Line.count.injEq] at h
          obtain ⟨rfl, rfl, rfl⟩ := h
          exact ⟨digits, hline, hword⟩
  · rintro ⟨digits, hline, hword⟩
    obtain ⟨pad, gap, between, tail, rest, htext, -⟩ := countLine?_eq_some_iff.1 hline
    have hduration : durationLine? text = none := by rw [htext, durationLine?_bracket]
    simp only [hduration, hline, hword]

theorem trim_brackets {lead : List Char} (hlead : ∀ c ∈ lead, isBlank c = true)
    (inner rest : List Char) :
    trim (lead ++ '[' :: (inner ++ ']' :: rest)) =
      '[' :: (inner ++ ']' :: dropEnd isBlank rest) := by
  rw [trim, dropWhile_run hlead (stopsAt_cons.2 (by decide)), ← List.cons_append,
    dropEnd_append_cons (by decide), List.cons_append]

theorem countLine?_trim_iff {text digits : List Char} {subject : Subject} {outcome : Outcome} :
    countLine? (trim text) = some (digits, subject, outcome) ↔
      CountShape text digits subject outcome := by
  rw [countLine?_eq_some_iff]
  constructor
  · rintro ⟨pad, gap, between, tail, rest, htext, hpad, hdigits, hgap, hbetween, htail⟩
    obtain ⟨before, after, hwhole, hbefore, -⟩ := exists_trim text
    rw [hwhole, htext]
    simpa using CountShape.mk subject outcome (rest ++ after) hbefore hpad hdigits hgap hbetween
      htail
  · intro h
    cases h with
    | @mk lead pad digits gap between tail subject outcome rest hlead hpad hdigits hgap hbetween
        htail =>
      have hplain := trim_brackets hlead (pad ++ (digits ++ (gap ++ (subject.word ++ (between ++
        (outcome.word ++ tail)))))) rest
      simp only [List.append_assoc] at hplain
      exact ⟨pad, gap, between, tail, dropEnd isBlank rest, hplain, hpad, hdigits, hgap, hbetween,
        htail⟩

theorem countText_iff {text : List Char} {subject : Subject} {outcome : Outcome} {n : Nat} :
    CountText text subject outcome n ↔
      ∃ digits, CountShape text digits subject outcome ∧ word64? digits = some n := by
  constructor
  · intro h
    cases h with
    | @mk lead pad digits gap between tail subject outcome rest hlead hpad hdigits hfits hgap
        hbetween htail =>
      have hany : ∀ c ∈ digits, isAnyDigit c = true := fun c hc =>
        isAnyDigit_of_isDigit c (hdigits.2 c hc)
      exact ⟨digits, .mk subject outcome rest hlead hpad ⟨hdigits.1, hany⟩ hgap hbetween htail,
        word64?_eq_some_iff.2 ⟨hdigits, rfl, hfits⟩⟩
  · rintro ⟨digits, hshape, hword⟩
    obtain ⟨hdigits, rfl, hfits⟩ := word64?_eq_some_iff.1 hword
    cases hshape with
    | mk subject outcome rest hlead hpad hany hgap hbetween htail =>
      exact .mk subject outcome rest hlead hpad hdigits hfits hgap hbetween htail

theorem ofPlain_trim_eq_count_iff {text : List Char} {subject : Subject} {outcome : Outcome}
    {n : Nat} :
    Line.ofPlain (trim text) = .count subject outcome n ↔ CountText text subject outcome n := by
  rw [ofPlain_eq_count_iff, countText_iff]
  simp only [countLine?_trim_iff]

theorem ofText_eq_count_iff {line : String} {subject : Subject} {outcome : Outcome} {n : Nat} :
    Line.ofText line = .count subject outcome n ↔ CountLine line subject outcome n := by
  rw [Line.ofText, ofPlain_trim_eq_count_iff]
  unfold CountLine
  simp only [Escape.stripped_iff, exists_eq_left]

end ModuleRig.Summary
