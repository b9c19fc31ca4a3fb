import ModuleRig.Text.Cut
import ModuleRig.Text.Letter

/-!
# What stands at the front of a text

A run of characters of one class, and a fixed word. A run that is read is as long as it can be, so a
reader gets back just the run that was put there if no such character follows it: `StopsAt`.
-/

namespace ModuleRig.Text

variable {p : Char → Bool} {front text rest : List Char}

/-- The text does not start with a character of the class. -/
def StopsAt (p : Char → Bool) (text : List Char) : Prop :=
  ∀ c ∈ text.head?, p c = false

theorem stopsAt_cons {c : Char} : StopsAt p (c :: text) ↔ p c = false := by
  simp [StopsAt]

theorem stopsAt_append (hne : front ≠ []) (hfront : ∀ c ∈ front, p c = false) :
    StopsAt p (front ++ rest) := by
  cases front with
  | nil => exact absurd rfl hne
  | cons c front => exact stopsAt_cons.2 (hfront c List.mem_cons_self)

theorem stopsAt_append_iff (hne : front ≠ []) : StopsAt p (front ++ rest) ↔ StopsAt p front := by
  cases front with
  | nil => contradiction
  | cons c front => exact stopsAt_cons.trans stopsAt_cons.symm

theorem stopsAt_dropWhile : StopsAt p (text.dropWhile p) := by
  induction text with
  | nil => simp [StopsAt]
  | cons c text ih =>
    rw [List.dropWhile_cons]
    split
    · exact ih
    · next h => exact stopsAt_cons.2 (by simpa using h)

theorem takeWhile_run (hfront : ∀ c ∈ front, p c = true) (hstop : StopsAt p rest) :
    (front ++ rest).takeWhile p = front := by
  rw [List.takeWhile_append_of_pos hfront]
  cases rest with
  | nil => simp
  | cons c rest => simp [stopsAt_cons.1 hstop]

theorem dropWhile_run (hfront : ∀ c ∈ front, p c = true) (hstop : StopsAt p rest) :
    (front ++ rest).dropWhile p = rest := by
  rw [List.dropWhile_append_of_pos hfront]
  cases rest with
  | nil => rfl
  | cons c rest => simp [stopsAt_cons.1 hstop]

theorem dropWhile_of_stopsAt (h : StopsAt p text) : text.dropWhile p = text := by
  cases text with
  | nil => rfl
  | cons c text => simp [stopsAt_cons.1 h]

theorem exists_run (p : Char → Bool) (text : List Char) :
    ∃ front, text = front ++ text.dropWhile p ∧ ∀ c ∈ front, p c = true :=
  ⟨text.takeWhile p, List.takeWhile_append_dropWhile.symm, List.all_eq_true.1 List.all_takeWhile⟩

theorem after?_eq_some_iff {pattern : List Char} :
    after? pattern text = some rest ↔ text = pattern ++ rest := by
  constructor
  · exact eq_append_of_after?
  · rintro rfl
    exact after?_append pattern rest

/-! ## Blanks -/

theorem dropEnd_append_cons {c : Char} (hc : p c = false) :
    dropEnd p (front ++ c :: rest) = front ++ c :: dropEnd p rest := by
  unfold dropEnd
  rw [List.reverse_append, List.reverse_cons, List.append_assoc, List.dropWhile_append]
  split
  · next h =>
    rw [List.isEmpty_iff] at h
    simp [h, hc]
  · simp

theorem stopsAt_dropEnd (h : StopsAt p text) : StopsAt p (dropEnd p text) := by
  cases text with
  | nil => exact h
  | cons c text =>
    have hc := stopsAt_cons.1 h
    rw [← List.nil_append (c :: text), dropEnd_append_cons hc]
    exact stopsAt_cons.2 hc

theorem exists_dropEnd (p : Char → Bool) (text : List Char) :
    ∃ last, text = dropEnd p text ++ last ∧ ∀ c ∈ last, p c = true := by
  obtain ⟨front, htext, hfront⟩ := exists_run p text.reverse
  refine ⟨front.reverse, ?_, by simpa using hfront⟩
  unfold dropEnd
  rw [← List.reverse_append, ← htext, List.reverse_reverse]

theorem exists_trim (text : List Char) :
    ∃ before after, text = before ++ (trim text ++ after) ∧ (∀ c ∈ before, isBlank c = true) ∧
      ∀ c ∈ after, isBlank c = true := by
  obtain ⟨before, htext, hbefore⟩ := exists_run isBlank text
  obtain ⟨after, hdrop, hafter⟩ := exists_dropEnd isBlank (text.dropWhile isBlank)
  refine ⟨before, after, ?_, hbefore, hafter⟩
  rw [trim, ← hdrop]
  exact htext

theorem mem_of_mem_trim {c : Char} (h : c ∈ trim text) : c ∈ text := by
  obtain ⟨before, after, htext, -, -⟩ := exists_trim text
  rw [htext]
  simp [h]

/-- There are no blanks at the ends of the text. -/
structure IsTrimmed (text : List Char) : Prop where
  front : StopsAt isBlank text
  back : StopsAt isBlank text.reverse

theorem isTrimmed_trim (text : List Char) : IsTrimmed (trim text) := by
  refine ⟨stopsAt_dropEnd stopsAt_dropWhile, ?_⟩
  rw [trim, dropEnd, List.reverse_reverse]
  exact stopsAt_dropWhile

theorem trim_of_isTrimmed (h : IsTrimmed text) : trim text = text := by
  rw [trim, dropEnd, dropWhile_of_stopsAt h.front, dropWhile_of_stopsAt h.back,
    List.reverse_reverse]

theorem trim_padded {back : List Char} (hfront : ∀ c ∈ front, isBlank c = true) (h : IsTrimmed text)
    (hback : ∀ c ∈ back, isBlank c = true) : trim (front ++ (text ++ back)) = text := by
  by_cases hne : text = []
  · have hblank : ∀ c ∈ front ++ back, isBlank c = true := fun c hc =>
      (List.mem_append.1 hc).elim (hfront c) (hback c)
    rw [hne, List.nil_append, trim, ← List.append_nil (front ++ back),
      dropWhile_run hblank (by simp [StopsAt])]
    rfl
  · rw [trim, dropWhile_run hfront ((stopsAt_append_iff hne).2 h.front), dropEnd,
      List.reverse_append, dropWhile_run (by simpa using hback) h.back, List.reverse_reverse]

theorem trim_trim (text : List Char) : trim (trim text) = trim text :=
  trim_of_isTrimmed (isTrimmed_trim text)

theorem isTrimmed_of_word (h : ∀ c ∈ text, isBlank c = false) : IsTrimmed text := by
  refine ⟨fun c hc => h c (List.mem_of_mem_head? hc), fun c hc => ?_⟩
  exact h c (List.mem_reverse.1 (List.mem_of_mem_head? hc))

theorem trim_eq_self (h : ∀ c ∈ text, isBlank c = false) : trim text = text :=
  trim_of_isTrimmed (isTrimmed_of_word h)

def blankCodes : List Nat :=
  [9, 10, 11, 12, 13, 32, 0x85, 0xA0, 0x1680, 0x2000, 0x2001, 0x2002, 0x2003, 0x2004, 0x2005,
    0x2006, 0x2007, 0x2008, 0x2009, 0x200A, 0x2028, 0x2029, 0x202F, 0x205F, 0x3000]

theorem mem_blankCodes {c : Char} (h : isBlank c = true) : c.toNat ∈ blankCodes := by
  simp only [isBlank, Bool.or_eq_true, Bool.and_eq_true, decide_eq_true_eq, beq_iff_eq] at h
  simp only [blankCodes, List.mem_cons, List.not_mem_nil, or_false]
  omega

theorem isAnyDigit_of_isBlank {c : Char} (h : isBlank c = true) : isAnyDigit c = false := by
  have hcodes : ∀ code ∈ blankCodes, isAnyDigit (Char.ofNat code) = false := by decide
  rw [← Char.ofNat_toNat c]
  exact hcodes c.toNat (mem_blankCodes h)

theorem isBlank_of_isAnyDigit {c : Char} (h : isAnyDigit c = true) : isBlank c = false := by
  rw [← Bool.not_eq_true]
  intro hblank
  rw [isAnyDigit_of_isBlank hblank] at h
  contradiction

end ModuleRig.Text
