/-!
# Decimal numerals

Reading of plain decimal numerals into machine words, and writing of numbers. Only the ASCII
digits have a value here. A numeral that does not fit into the word is refused, however many
leading zeros it has.
-/

namespace ModuleRig.Text

/-- The greatest value of a 64-bit and of a 32-bit word. -/
def maxWord64 : Nat := 18446744073709551615
def maxWord32 : Nat := 4294967295

def digitValue (c : Char) : Nat := c.toNat - '0'.toNat

/-- The value of a run of ASCII digits, the first being the most significant. -/
def digitsValue (cs : List Char) : Nat :=
  cs.foldl (fun n c => n * 10 + digitValue c) 0

/-- The value of a numeral: one or more ASCII digits and nothing else. -/
def numeral? (cs : List Char) : Option Nat :=
  if !cs.isEmpty && cs.all Char.isDigit then some (digitsValue cs) else none

/-- A numeral that fits below the bound, which is included. -/
def boundedNumeral? (bound : Nat) (cs : List Char) : Option Nat :=
  (numeral? cs).filter (· ≤ bound)

def word64? (cs : List Char) : Option Nat := boundedNumeral? maxWord64 cs

def word32? (cs : List Char) : Option Nat := boundedNumeral? maxWord32 cs

def digitChar (n : Nat) : Char := Char.ofNat ('0'.toNat + n % 10)

/-- The decimal digits of a number, without leading zeros. -/
def digits (n : Nat) : List Char :=
  if n < 10 then [digitChar n] else digits (n / 10) ++ [digitChar n]
termination_by n

def decimal (n : Nat) : String := String.ofList (digits n)

/-- The number written in decimal, with a minus sign if it is negative. -/
def signed (i : Int) : String :=
  if i < 0 then "-" ++ decimal i.natAbs else decimal i.natAbs

theorem digitValue_digitChar (n : Nat) : digitValue (digitChar n) = n % 10 := by
  have h : n % 10 < 10 := Nat.mod_lt _ (by omega)
  have : ∀ k : Fin 10, digitValue (Char.ofNat ('0'.toNat + k)) = k := by decide
  exact this ⟨n % 10, h⟩

theorem isDigit_digitChar (n : Nat) : (digitChar n).isDigit := by
  have h : n % 10 < 10 := Nat.mod_lt _ (by omega)
  have : ∀ k : Fin 10, (Char.ofNat ('0'.toNat + k)).isDigit := by decide
  exact this ⟨n % 10, h⟩

theorem digitsValue_append (cs : List Char) (c : Char) :
    digitsValue (cs ++ [c]) = digitsValue cs * 10 + digitValue c := by
  simp [digitsValue]

/-- Reading the digits of a number gives the number back. -/
theorem digitsValue_digits (n : Nat) : digitsValue (digits n) = n := by
  induction n using digits.induct with
  | case1 n h =>
    unfold digits
    simp only [h, if_true]
    simp only [digitsValue, List.foldl_cons, List.foldl_nil, digitValue_digitChar]
    omega
  | case2 n h ih =>
    unfold digits
    simp only [h, if_false]
    rw [digitsValue_append, ih, digitValue_digitChar]
    omega

theorem isDigit_of_mem_digits {n : Nat} {c : Char} (h : c ∈ digits n) : c.isDigit = true := by
  induction n using digits.induct with
  | case1 n hn =>
    rw [digits, if_pos hn, List.mem_singleton] at h
    exact h ▸ isDigit_digitChar n
  | case2 n hn ih =>
    rw [digits, if_neg hn, List.mem_append, List.mem_singleton] at h
    rcases h with h | rfl
    · exact ih h
    · exact isDigit_digitChar n

/-- Only the number zero begins with a zero. -/
theorem head?_digits (n : Nat) : ∃ c, (digits n).head? = some c ∧ (c = '0' → n = 0) := by
  induction n using digits.induct with
  | case1 n hn =>
    have hdigit : ∀ k : Fin 10, digitChar k = '0' → k.val = 0 := by decide
    refine ⟨digitChar n, ?_, hdigit ⟨n, hn⟩⟩
    rw [digits, if_pos hn, List.head?_cons]
  | case2 n hn ih =>
    obtain ⟨c, hhead, hzero⟩ := ih
    refine ⟨c, ?_, fun hc => ?_⟩
    · rw [digits, if_neg hn, List.head?_append, hhead, Option.some_or]
    · have := hzero hc
      omega

theorem digits_ne_nil (n : Nat) : digits n ≠ [] := by
  obtain ⟨c, hhead, -⟩ := head?_digits n
  intro hnil
  rw [hnil] at hhead
  contradiction

end ModuleRig.Text
