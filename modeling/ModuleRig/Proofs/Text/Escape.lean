import ModuleRig.Proofs.Text.Front
import ModuleRig.Text.Escape

/-!
# What is left without the escape sequences

`Stripped` says it without a machine: wherever a whole sequence stands it goes, read from the left,
and any other character stays. The machine of `strip` gives just that text: `stripped_iff`.
-/

namespace ModuleRig.Text.Escape

/-- A text that starts with a whole sequence, and what follows the sequence. -/
inductive Sequence : List Char → List Char → Prop
  | mk {parameters : List Char} {last : Char} (rest : List Char)
      (hparameters : ∀ c ∈ parameters, isParameter c = true) (hlast : last.isAlpha = true) :
      Sequence (escapeChar :: '[' :: (parameters ++ last :: rest)) rest

/-- A text, and what is left of it without its sequences. -/
inductive Stripped : List Char → List Char → Prop
  | nil : Stripped [] []
  | sequence {text rest plain : List Char} (hsequence : Sequence text rest)
      (hrest : Stripped rest plain) : Stripped text plain
  | char {c : Char} {text plain : List Char} (hnone : ∀ rest, ¬ Sequence (c :: text) rest)
      (htext : Stripped text plain) : Stripped (c :: text) (c :: plain)

/-! ## Where a sequence stands -/

theorem isParameter_of_isAlpha {c : Char} (h : c.isAlpha = true) : isParameter c = false := by
  rw [← Bool.not_eq_true]
  intro hparameter
  have hcode : c.toNat < 60 := by
    rw [isParameter, Bool.or_eq_true, beq_iff_eq] at hparameter
    rcases hparameter with hdigit | rfl
    · simp [Char.isDigit, UInt32.le_iff_toNat_le] at hdigit
      omega
    · decide
  have hcodes : ∀ code < 60, isParameter (Char.ofNat code) = true →
      (Char.ofNat code).isAlpha = false := by decide
  have halpha := hcodes c.toNat hcode
  rw [Char.ofNat_toNat, h] at halpha
  exact Bool.noConfusion (halpha hparameter)

theorem sequence_iff {text rest : List Char} :
    Sequence text rest ↔ ∃ tail last, text = escapeChar :: '[' :: tail ∧
      tail.dropWhile isParameter = last :: rest ∧ last.isAlpha = true := by
  constructor
  · rintro ⟨rest, hparameters, hlast⟩
    refine ⟨_, _, rfl, dropWhile_run hparameters ?_, hlast⟩
    exact stopsAt_cons.2 (isParameter_of_isAlpha hlast)
  · rintro ⟨tail, last, rfl, hdrop, hlast⟩
    obtain ⟨parameters, htail, hparameters⟩ := exists_run isParameter tail
    rw [htail, hdrop]
    exact .mk rest hparameters hlast

theorem Sequence.unique {text rest rest' : List Char} (h : Sequence text rest)
    (h' : Sequence text rest') : rest = rest' := by
  obtain ⟨tail, last, rfl, hdrop, -⟩ := sequence_iff.1 h
  obtain ⟨tail', last', htail, hdrop', -⟩ := sequence_iff.1 h'
  simp only [List.cons.injEq, true_and] at htail
  subst htail
  rw [hdrop] at hdrop'
  simp only [List.cons.injEq] at hdrop'
  exact hdrop'.2

theorem not_sequence_of_ne {c : Char} (h : c ≠ escapeChar) (text rest : List Char) :
    ¬ Sequence (c :: text) rest := by
  intro hs
  obtain ⟨tail, last, htext, -⟩ := sequence_iff.1 hs
  exact h (List.cons.inj htext).1

theorem not_sequence_of_unfinished {parameters text : List Char}
    (hparameters : ∀ c ∈ parameters, isParameter c = true)
    (hstop : StopsAt isParameter text) (halpha : StopsAt Char.isAlpha text) (rest : List Char) :
    ¬ Sequence (escapeChar :: '[' :: (parameters ++ text)) rest := by
  intro hs
  obtain ⟨tail, last, htext, hdrop, hlast⟩ := sequence_iff.1 hs
  simp only [List.cons.injEq, true_and] at htext
  subst htext
  rw [dropWhile_run hparameters hstop] at hdrop
  subst hdrop
  simp [stopsAt_cons.1 halpha] at hlast

/-! ## What the machine leaves -/

theorem Stripped.unique {text plain plain' : List Char} (h : Stripped text plain)
    (h' : Stripped text plain') : plain = plain' := by
  induction h generalizing plain' with
  | nil =>
    cases h' with
    | nil => rfl
    | sequence hsequence => cases hsequence
  | sequence hsequence _ ih =>
    cases h' with
    | nil => cases hsequence
    | sequence hsequence' hrest' =>
      obtain rfl := hsequence.unique hsequence'
      exact ih hrest'
    | char hnone => exact absurd hsequence (hnone _)
  | char hnone _ ih =>
    cases h' with
    | sequence hsequence' => exact absurd hsequence' (hnone _)
    | char _ htext' => rw [ih htext']

theorem Stripped.append {front text plain : List Char} (hfront : escapeChar ∉ front)
    (h : Stripped text plain) : Stripped (front ++ text) (front ++ plain) := by
  induction front with
  | nil => exact h
  | cons c front ih =>
    rw [List.mem_cons, not_or] at hfront
    exact .char (not_sequence_of_ne (Ne.symm hfront.1) _) (ih hfront.2)

/-- What a state holds back is a sequence so far. -/
def State.IsBegun : State → Prop
  | .parameters held => ∀ c ∈ held, isParameter c = true
  | _ => True

theorem stripped_unfinished {held text plain : List Char}
    (hheld : ∀ c ∈ held, isParameter c = true)
    (hstop : StopsAt isParameter text) (halpha : StopsAt Char.isAlpha text)
    (h : Stripped text plain) :
    Stripped ((State.parameters held).held ++ text) ((State.parameters held).held ++ plain) := by
  have hreverse : ∀ c ∈ held.reverse, isParameter c = true := by simpa using hheld
  have hfront : escapeChar ∉ '[' :: held.reverse := by
    rw [List.mem_cons, not_or]
    refine ⟨by decide, fun hmem => ?_⟩
    have := hreverse _ hmem
    revert this
    decide
  exact .char (not_sequence_of_unfinished hreverse hstop halpha) (h.append hfront)

theorem stripped_start {c : Char} {cs : List Char}
    (ih : ∀ state : State, state.IsBegun → Stripped (state.held ++ cs) (stripFrom state cs)) :
    Stripped (c :: cs) ((start c).1 ++ stripFrom (start c).2 cs) := by
  unfold start
  split
  · next heq =>
    subst heq
    exact ih .afterEscape trivial
  · next hne => exact .char (not_sequence_of_ne hne cs) (ih .outside trivial)

/-- Each state stands for the characters that it holds back. -/
theorem stripped_stripFrom (cs : List Char) (state : State) (hstate : state.IsBegun) :
    Stripped (state.held ++ cs) (stripFrom state cs) := by
  induction cs generalizing state with
  | nil =>
    rw [stripFrom]
    cases state with
    | outside => exact .nil
    | afterEscape =>
      refine .char ?_ .nil
      intro rest hs
      obtain ⟨tail, last, htext, -⟩ := sequence_iff.1 hs
      simp at htext
    | parameters held =>
      have := stripped_unfinished hstate (by simp [StopsAt]) (by simp [StopsAt]) .nil
      rwa [List.append_nil (State.parameters held).held] at this ⊢
  | cons c cs ih =>
    rw [stripFrom]
    cases state with
    | outside => exact stripped_start ih
    | afterEscape =>
      simp only [step]
      split
      · next heq =>
        subst heq
        exact ih (.parameters []) (by simp [State.IsBegun])
      · next hne =>
        rw [List.append_assoc]
        refine .char ?_ (stripped_start ih)
        intro rest hs
        obtain ⟨tail, last, htext, -⟩ := sequence_iff.1 hs
        exact hne (List.cons.inj (List.cons.inj htext).2).1
    | parameters held =>
      simp only [step]
      split
      · next hc =>
        have := ih (.parameters (c :: held)) (by simpa [State.IsBegun] using ⟨hc, hstate⟩)
        simpa [State.held] using this
      · next hc =>
        split
        · next halpha =>
          refine .sequence ?_ (ih .outside trivial)
          exact .mk cs (by simpa [State.IsBegun] using hstate) halpha
        · next halpha =>
          rw [List.append_assoc]
          refine stripped_unfinished hstate ?_ ?_ (stripped_start ih)
          · exact stopsAt_cons.2 (by simpa using hc)
          · exact stopsAt_cons.2 (by simpa using halpha)

theorem stripped_iff {text plain : List Char} : Stripped text plain ↔ plain = strip text := by
  have hstrip : Stripped text (strip text) := stripped_stripFrom text .outside trivial
  constructor
  · intro h
    exact h.unique hstrip
  · rintro rfl
    exact hstrip

/-! ## Sequences put into a text -/

/-- A text, and the same with whole sequences anywhere between its characters and at its ends. -/
inductive Colored : List Char → List Char → Prop
  | nil : Colored [] []
  | char {plain text : List Char} (c : Char) (htext : Colored plain text) :
      Colored (c :: plain) (c :: text)
  | sequence {plain text rest : List Char} (hsequence : Sequence text rest)
      (hrest : Colored plain rest) : Colored plain text

theorem Colored.stripped {plain text : List Char} (h : Colored plain text)
    (hplain : escapeChar ∉ plain) : Stripped text plain := by
  induction h with
  | nil => exact .nil
  | char c htext ih =>
    rw [List.mem_cons, not_or] at hplain
    exact .char (not_sequence_of_ne (Ne.symm hplain.1) _) (ih hplain.2)
  | sequence hsequence hrest ih => exact .sequence hsequence (ih hplain)

theorem Stripped.colored {plain text : List Char} (h : Stripped text plain) :
    Colored plain text := by
  induction h with
  | nil => exact .nil
  | sequence hsequence hrest ih => exact .sequence hsequence ih
  | char hnone htext ih => exact .char _ ih

end ModuleRig.Text.Escape
