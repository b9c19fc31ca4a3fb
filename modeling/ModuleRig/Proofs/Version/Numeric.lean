import ModuleRig.Proofs.Version.Normal
import ModuleRig.Proofs.Version.Runs
import ModuleRig.Text.Cut

/-!
# Versions of numbers alone

A version that is numbers with dots between them compares like the list of its numbers, where the
shorter list goes on with zeros. A number beyond 64 bits counts as the greatest one of 64 bits.
-/

namespace ModuleRig.Version

/-- A number as it can be spelled. -/
structure Numeral where
  leadingZeros : Nat
  value : Nat

def Numeral.text (n : Numeral) : List Char :=
  List.replicate n.leadingZeros '0' ++ Text.digits n.value

/-- The number as far as it counts. -/
def Numeral.capped (n : Numeral) : Nat :=
  min n.value (UInt64.size - 1)

def dotted (ns : List Numeral) : String :=
  String.ofList (Text.joinWith '.' (ns.map Numeral.text))

/-! ## Tokens -/

theorem digitsValue_zeros (k : Nat) (digits : List Char) :
    Text.digitsValue (List.replicate k '0' ++ digits) = Text.digitsValue digits := by
  induction k with
  | zero => rfl
  | succ k ih => exact ih

theorem ofDigits_text (n : Numeral) : Token.ofDigits n.text = .number n.capped := by
  unfold Token.ofDigits Numeral.text Numeral.capped
  rw [digitsValue_zeros, Text.digitsValue_digits]
  rfl

theorem charKind_of_mem_text {n : Numeral} : ∀ c ∈ n.text, charKind c = .digit := by
  intro c hc
  unfold Numeral.text at hc
  rcases List.mem_append.1 hc with hzero | hdigit
  · rw [List.eq_of_mem_replicate hzero]
    decide
  · exact charKind_of_isDigit (Text.isDigit_of_mem_digits hdigit)

theorem tokens_text (n : Numeral) : tokens n.text = [.number n.capped] := by
  have hne : n.text ≠ [] := by
    intro h
    exact Text.digits_ne_nil n.value (List.append_eq_nil_iff.1 h).2
  have hword := runs_word hne charKind_of_mem_text
  unfold tokens
  rw [hword, ← ofDigits_text]
  rfl

theorem tokens_dotted (ns : List Numeral) :
    tokens (dotted ns).toList = ns.map fun n => .number n.capped := by
  unfold dotted
  rw [String.toList_ofList]
  induction ns with
  | nil => rfl
  | cons n ns ih =>
    match ns with
    | [] => exact tokens_text n
    | m :: ns =>
      simp only [List.map_cons] at ih ⊢
      rw [Text.joinWith, tokens_append_separator (by decide), tokens_text, ih]
      · rfl
      · exact List.cons_ne_nil _ _

/-! ## The key -/

theorem dropInnerZeros_numbers (ns : List Nat) :
    dropInnerZeros (ns.map .number) = ns.map .number := by
  induction ns with
  | nil => rfl
  | cons n ns ih =>
    have hnot : startsQualified (ns.map .number) = false := by cases ns <;> rfl
    rw [List.map_cons, dropInnerZeros, ih, hnot]
    simp

/-- What counts of a list of numbers: all but the zeros at its end. -/
def significant (ns : List Nat) : List Token :=
  normal (ns.map .number)

theorem significant_eq (ns : List Nat) :
    significant ns =
      if significant ns.tail = [] ∧ ns.headD 0 = 0 then []
      else .number (ns.headD 0) :: significant ns.tail := by
  unfold significant normal
  rw [dropInnerZeros_numbers, dropInnerZeros_numbers]
  cases ns with
  | nil => rfl
  | cons n ns =>
    have hfiller : (Token.number n).isFiller = true ↔ n = 0 := by
      simp [Token.isFiller, Token.release]
    simp only [dropFillers_eq_rdropWhile, List.map_cons, List.tail_cons, List.headD_cons,
      rdropWhile_cons, hfiller]

theorem compareTokens_nil_of_ne {ns : List Nat} (h : significant ns ≠ []) :
    compareTokens [] (significant ns) = .lt := by
  rw [significant_eq] at h ⊢
  split
  · next hnil =>
    rw [if_pos hnil] at h
    contradiction
  · rw [compareTokens]
    rfl

theorem compareTokens_nil_significant (ns : List Nat) :
    compareTokens [] (significant ns) =
      (Ord.compare 0 (ns.headD 0)).then (compareTokens [] (significant ns.tail)) := by
  by_cases hhead : ns.headD 0 = 0
  · rw [hhead]
    by_cases htail : significant ns.tail = []
    · rw [significant_eq, if_pos ⟨htail, hhead⟩, htail]
      rfl
    · -- Behind a zero the first number that counts comes later.
      have hne : significant ns ≠ [] := by
        rw [significant_eq, if_neg fun hboth => htail hboth.1]
        exact List.cons_ne_nil _ _
      rw [compareTokens_nil_of_ne hne, compareTokens_nil_of_ne htail]
      rfl
  · have hne : significant ns ≠ [] := by
      rw [significant_eq, if_neg fun hboth => hhead hboth.2]
      exact List.cons_ne_nil _ _
    rw [compareTokens_nil_of_ne hne, Nat.compare_eq_lt.2 (Nat.pos_of_ne_zero hhead)]
    rfl

theorem compareTokens_significant_nil (ns : List Nat) :
    compareTokens (significant ns) [] =
      (Ord.compare (ns.headD 0) 0).then (compareTokens (significant ns.tail) []) := by
  rw [compareTokens_swap, compareTokens_nil_significant, Ordering.swap_then, ← compareTokens_swap,
    Nat.compare_swap]

theorem compareTokens_significant (ns ms : List Nat) :
    compareTokens (significant ns) (significant ms) =
      (Ord.compare (ns.headD 0) (ms.headD 0)).then
        (compareTokens (significant ns.tail) (significant ms.tail)) := by
  have hns := significant_eq ns
  have hms := significant_eq ms
  split at hns
  · next hzeros =>
    rw [hns, hzeros.1, hzeros.2]
    exact compareTokens_nil_significant ms
  · split at hms
    · next hzeros =>
      rw [hms, hzeros.1, hzeros.2]
      exact compareTokens_significant_nil ns
    · rw [hns, hms, compareTokens]
      rfl

/-! ## Padding -/

/-- The numbers as far as they count, and zeros up to the length. -/
def padded (length : Nat) (ns : List Numeral) : List Nat :=
  (ns.map Numeral.capped).rightpad length 0

theorem rightpad_succ (k : Nat) (ns : List Nat) :
    ns.rightpad (k + 1) 0 = ns.headD 0 :: ns.tail.rightpad k 0 := by
  cases ns with
  | nil => rfl
  | cons n ns => simp [List.rightpad]

theorem compareTokens_rightpad {k : Nat} {ns ms : List Nat} (hns : ns.length ≤ k)
    (hms : ms.length ≤ k) :
    compareTokens (significant ns) (significant ms) =
      List.compareLex Ord.compare (ns.rightpad k 0) (ms.rightpad k 0) := by
  induction k generalizing ns ms with
  | zero =>
    obtain rfl := List.eq_nil_of_length_eq_zero (Nat.le_zero.1 hns)
    obtain rfl := List.eq_nil_of_length_eq_zero (Nat.le_zero.1 hms)
    exact Std.ReflCmp.compare_self
  | succ k ih =>
    rw [compareTokens_significant, rightpad_succ, rightpad_succ, List.compareLex_cons_cons, ih]
    all_goals rw [List.length_tail]; omega

/-- Versions of numbers alone compare as lists of the same length, one number after the other. -/
theorem compare_dotted (ns ms : List Numeral) :
    compare (dotted ns) (dotted ms) =
      List.compareLex Ord.compare (padded (max ns.length ms.length) ns)
        (padded (max ns.length ms.length) ms) := by
  have hkey : ∀ ns : List Numeral, key (dotted ns) = significant (ns.map Numeral.capped) := by
    intro ns
    unfold key significant
    rw [tokens_dotted, List.map_map]
    rfl
  unfold compare padded
  rw [hkey, hkey]
  apply compareTokens_rightpad
  · rw [List.length_map]
    exact Nat.le_max_left _ _
  · rw [List.length_map]
    exact Nat.le_max_right _ _

end ModuleRig.Version
