import ModuleRig.Report.Summary

/-!
# What the lines make of a part of the summary

Some lines overwrite a part of the summary, and all others leave it as it is: `Overwrites`. So the
last of those lines decides what the part is in the end (`feedAll_eq_iff`), and the others may as
well not be there (`feedAll_eq_of_filter_eq`).
-/

namespace ModuleRig

variable {α : Type} {tells : String → α → Prop} {lines : List String} {a : α}

/-- The last line that tells anything tells this. -/
def Summary.LastTold (tells : String → α → Prop) (lines : List String) (a : α) : Prop :=
  ∃ before line after, lines = before ++ line :: after ∧ tells line a ∧
    ∀ later ∈ after, ∀ b, ¬ tells later b

theorem Summary.LastTold.exists_mem (h : LastTold tells lines a) :
    ∃ line ∈ lines, tells line a := by
  obtain ⟨before, line, after, rfl, htells, -⟩ := h
  exact ⟨line, List.mem_append_right _ List.mem_cons_self, htells⟩

theorem Summary.lastTold_or_silent (tells : String → α → Prop) (lines : List String) :
    (∃ a, LastTold tells lines a) ∨ ∀ line ∈ lines, ∀ a, ¬ tells line a := by
  induction lines with
  | nil => simp
  | cons line lines ih =>
    rcases ih with ⟨a, before, last, after, rfl, htells, hafter⟩ | hsilent
    · exact .inl ⟨a, line :: before, last, after, rfl, htells, hafter⟩
    · by_cases hline : ∃ a, tells line a
      · obtain ⟨a, htells⟩ := hline
        exact .inl ⟨a, [], line, lines, rfl, htells, hsilent⟩
      · exact .inr (List.forall_mem_cons.2 ⟨not_exists.1 hline, hsilent⟩)

namespace SummaryReader

theorem feedAll_cons (r : SummaryReader) (line : String) (lines : List String) :
    r.feedAll (line :: lines) = (r.feed line).feedAll lines :=
  rfl

theorem feedAll_append (r : SummaryReader) (before after : List String) :
    r.feedAll (before ++ after) = (r.feedAll before).feedAll after :=
  List.foldl_append

/-- A part of the summary that some lines overwrite, while all others leave it as it is. -/
structure Overwrites (part : Summary → α) (tells : String → α → Prop) : Prop where
  told : ∀ {line a}, tells line a → ∀ r : SummaryReader, part (r.feed line).summary = a
  silent : ∀ {line}, (∀ a, ¬ tells line a) →
    ∀ r : SummaryReader, part (r.feed line).summary = part r.summary

namespace Overwrites

variable {part : Summary → α}

theorem feedAll_of_none (h : Overwrites part tells) (hnone : ∀ line ∈ lines, ∀ a, ¬ tells line a)
    (r : SummaryReader) : part (r.feedAll lines).summary = part r.summary := by
  induction lines generalizing r with
  | nil => rfl
  | cons line lines ih =>
    rw [List.forall_mem_cons] at hnone
    rw [feedAll_cons, ih hnone.2, h.silent hnone.1]

theorem feedAll_of_last (h : Overwrites part tells) (hlast : Summary.LastTold tells lines a)
    (r : SummaryReader) : part (r.feedAll lines).summary = a := by
  obtain ⟨before, line, after, rfl, htells, hafter⟩ := hlast
  rw [feedAll_append, feedAll_cons, h.feedAll_of_none hafter, h.told htells]

theorem feedAll_eq_iff (h : Overwrites part tells) (r : SummaryReader) :
    part (r.feedAll lines).summary = a ↔
      Summary.LastTold tells lines a ∨
        part r.summary = a ∧ ∀ line ∈ lines, ∀ b, ¬ tells line b := by
  constructor
  · rintro rfl
    rcases Summary.lastTold_or_silent tells lines with ⟨b, hlast⟩ | hsilent
    · rw [h.feedAll_of_last hlast]
      exact .inl hlast
    · exact .inr ⟨(h.feedAll_of_none hsilent r).symm, hsilent⟩
  · rintro (hlast | ⟨hpart, hsilent⟩)
    · exact h.feedAll_of_last hlast r
    · exact (h.feedAll_of_none hsilent r).trans hpart

theorem feedAll_of_agreed (h : Overwrites part tells)
    (hall : ∀ line ∈ lines, ∀ b, tells line b → b = a) (r : SummaryReader)
    (hsome : part r.summary = a ∨ ∃ line ∈ lines, ∃ b, tells line b) :
    part (r.feedAll lines).summary = a := by
  rcases Summary.lastTold_or_silent tells lines with ⟨b, hlast⟩ | hsilent
  · obtain ⟨line, hmem, htells⟩ := hlast.exists_mem
    rw [h.feedAll_of_last hlast, hall line hmem b htells]
  · rw [h.feedAll_of_none hsilent]
    exact hsome.resolve_right fun ⟨line, hmem, b, htells⟩ => hsilent line hmem b htells

theorem feedAll_filter (h : Overwrites part tells) {about : String → Bool}
    (habout : ∀ line, about line = true ↔ ∃ a, tells line a) {r r' : SummaryReader}
    (hr : part r.summary = part r'.summary) (lines : List String) :
    part (r.feedAll lines).summary = part (r'.feedAll (lines.filter about)).summary := by
  -- Both readers hold the same part so far, whatever else they hold.
  induction lines generalizing r r' with
  | nil => exact hr
  | cons line lines ih =>
    by_cases hline : about line = true
    · obtain ⟨a, htells⟩ := (habout line).1 hline
      rw [List.filter_cons_of_pos hline, feedAll_cons, feedAll_cons]
      exact ih ((h.told htells r).trans (h.told htells r').symm)
    · have hnone : ∀ a, ¬ tells line a := fun a htells => hline ((habout line).2 ⟨a, htells⟩)
      rw [List.filter_cons_of_neg hline, feedAll_cons]
      exact ih ((h.silent hnone r).trans hr)

theorem feedAll_eq_of_filter_eq (h : Overwrites part tells) {about : String → Bool}
    (habout : ∀ line, about line = true ↔ ∃ a, tells line a) {lines lines' : List String}
    (hlines : lines'.filter about = lines.filter about) (r : SummaryReader) :
    part (r.feedAll lines').summary = part (r.feedAll lines).summary := by
  rw [h.feedAll_filter habout rfl lines', hlines, ← h.feedAll_filter habout rfl lines]

end Overwrites

end SummaryReader

end ModuleRig
