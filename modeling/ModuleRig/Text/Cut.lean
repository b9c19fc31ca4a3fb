/-!
# Cutting texts

`trim` takes the blanks off both ends, `after?` takes a fixed text off the front, and `cutAt?` cuts at
its first occurrence. What the last two return joins up to the input again: `eq_append_of_after?` and
`eq_append_of_cutAt?`.
-/

namespace ModuleRig.Text

/-! ## Blanks -/

/-- The character is white space in the Unicode sense. -/
def isBlank (c : Char) : Bool :=
  let code := c.toNat
  (9 ≤ code && code ≤ 13) || code == 32 || code == 0x85 || code == 0xA0 || code == 0x1680 ||
    (0x2000 ≤ code && code ≤ 0x200A) || code == 0x2028 || code == 0x2029 || code == 0x202F ||
    code == 0x205F || code == 0x3000

def dropEnd (p : Char → Bool) (cs : List Char) : List Char :=
  (cs.reverse.dropWhile p).reverse

/-- Drops the blanks at both ends. -/
def trim (cs : List Char) : List Char :=
  dropEnd isBlank (cs.dropWhile isBlank)

def trimmed (s : String) : String :=
  String.ofList (trim s.toList)

theorem isBlank_of_isWhitespace (c : Char) (h : c.isWhitespace) : isBlank c := by
  simp only [Char.isWhitespace, Bool.or_eq_true, decide_eq_true_eq] at h
  rcases h with ((rfl | rfl) | rfl) | rfl <;> decide

/-! ## Fixed texts -/

/-- What follows the pattern, when the text starts with it. -/
def after? : List Char → List Char → Option (List Char)
  | [], text => some text
  | _ :: _, [] => none
  | p :: pattern, c :: text => if p = c then after? pattern text else none

/-- What stands before and after the first occurrence of the pattern. -/
def cutAt? (pattern : List Char) : List Char → Option (List Char × List Char)
  | [] => if pattern.isEmpty then some ([], []) else none
  | c :: text =>
    match after? pattern (c :: text) with
    | some rest => some ([], rest)
    | none => (cutAt? pattern text).map fun (before, rest) => (c :: before, rest)

/-- The pieces between the separators, one more than there are separators. -/
def splitOn (separator : Char) : List Char → List (List Char)
  | [] => [[]]
  | c :: text =>
    if c = separator then [] :: splitOn separator text
    else
      match splitOn separator text with
      | [] => [[c]]
      | piece :: pieces => (c :: piece) :: pieces

/-- The pieces with a separator between any two of them. -/
def joinWith (separator : Char) : List (List Char) → List Char
  | [] => []
  | [piece] => piece
  | piece :: pieces => piece ++ separator :: joinWith separator pieces

def splitText (separator : Char) (s : String) : List String :=
  (splitOn separator s.toList).map String.ofList

theorem eq_append_of_after? {pattern text rest : List Char} (h : after? pattern text = some rest) :
    text = pattern ++ rest := by
  induction pattern generalizing text with
  | nil => simpa [after?] using h
  | cons p pattern ih =>
    cases text with
    | nil => simp [after?] at h
    | cons c text =>
      simp only [after?] at h
      split at h
      · next e => simp [e, ih h]
      · simp at h

theorem after?_append (pattern rest : List Char) :
    after? pattern (pattern ++ rest) = some rest := by
  induction pattern with
  | nil => rfl
  | cons p pattern ih => simpa [after?] using ih

theorem eq_append_of_cutAt? {pattern text before rest : List Char}
    (h : cutAt? pattern text = some (before, rest)) : text = before ++ pattern ++ rest := by
  induction text generalizing before with
  | nil =>
    simp only [cutAt?, List.isEmpty_iff] at h
    split at h
    · next e => simp_all
    · simp at h
  | cons c text ih =>
    simp only [cutAt?] at h
    split at h
    · next e =>
      simp only [Option.some.injEq, Prod.mk.injEq] at h
      obtain ⟨rfl, rfl⟩ := h
      exact eq_append_of_after? e
    · obtain ⟨⟨b, r⟩, hcut, he⟩ := Option.map_eq_some_iff.1 h
      simp only [Prod.mk.injEq] at he
      obtain ⟨rfl, rfl⟩ := he
      simp [ih hcut]

theorem splitOn_ne_nil (separator : Char) (text : List Char) : splitOn separator text ≠ [] := by
  cases text with
  | nil => simp [splitOn]
  | cons c text =>
    simp only [splitOn]
    split
    · simp
    · split <;> simp

theorem joinWith_splitOn (separator : Char) (text : List Char) :
    joinWith separator (splitOn separator text) = text := by
  induction text with
  | nil => rfl
  | cons c text ih =>
    simp only [splitOn]
    split
    · next e =>
      cases hs : splitOn separator text with
      | nil => exact absurd hs (splitOn_ne_nil separator text)
      | cons piece pieces => rw [hs] at ih; simp [joinWith, ih, e]
    · cases hs : splitOn separator text with
      | nil => exact absurd hs (splitOn_ne_nil separator text)
      | cons piece pieces =>
        rw [hs] at ih
        cases pieces with
        | nil => simpa [joinWith] using ih
        | cons p ps => simpa [joinWith] using ih

end ModuleRig.Text
