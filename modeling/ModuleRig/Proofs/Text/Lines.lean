import ModuleRig.Text.Lines

/-!
# Lines of a stream in chunks

However a stream is cut into chunks, its lines are those of the whole stream: `linesOfChunks_eq`.
-/

namespace ModuleRig.Text

theorem newline_not_mem_takeLines (bytes : Bytes) : newline ∉ (takeLines bytes).2 := by
  induction bytes with
  | nil => simp [takeLines]
  | cons b bytes ih =>
    simp only [takeLines]
    split
    · exact ih
    · next hne =>
      split
      · simp only [List.mem_cons, not_or]
        exact ⟨Ne.symm hne, ih⟩
      · exact ih

theorem rawLines_append (bytes more : Bytes) :
    rawLines (bytes ++ more) = (takeLines bytes).1 ++ rawLines ((takeLines bytes).2 ++ more) := by
  induction bytes with
  | nil => rfl
  | cons b bytes ih =>
    simp only [List.cons_append, rawLines, takeLines, ih]
    split
    · rfl
    · next hne =>
      cases hdone : (takeLines bytes).1 with
      | nil => simp only [List.nil_append, List.cons_append, rawLines, if_neg hne]
      | cons line done => rfl

theorem rawLines_of_not_mem {held : Bytes} (h : newline ∉ held) :
    rawLines held = if held.isEmpty then [] else [held] := by
  induction held with
  | nil => rfl
  | cons b held ih =>
    simp only [List.mem_cons, not_or] at h
    simp only [rawLines, if_neg (Ne.symm h.1), ih h.2]
    cases held with
    | nil => rfl
    | cons c held => rfl

/-- The reader holds back the unfinished line, which has no newline, and nothing else. -/
theorem readChunks_eq {held : Bytes} (h : newline ∉ held) (chunks : List Bytes) :
    readChunks held chunks = rawLines (held ++ chunks.flatten) := by
  induction chunks generalizing held with
  | nil => simp only [readChunks, List.flatten_nil, List.append_nil, rawLines_of_not_mem h]
  | cons chunk chunks ih =>
    simp only [readChunks, List.flatten_cons]
    rw [ih (newline_not_mem_takeLines (held ++ chunk)), ← List.append_assoc]
    exact (rawLines_append (held ++ chunk) chunks.flatten).symm

theorem linesOfChunks_eq (chunks : List Bytes) : linesOfChunks chunks = lines chunks.flatten := by
  unfold linesOfChunks lines
  rw [readChunks_eq List.not_mem_nil, List.nil_append]

end ModuleRig.Text
