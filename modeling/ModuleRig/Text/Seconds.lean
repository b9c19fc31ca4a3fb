import ModuleRig.Text.Numeral

/-!
# Durations in seconds

A duration of whole milliseconds is printed in seconds with two places. The seconds are first
taken to the nearest binary64 number, as are the milliseconds, and the exact value of that number
is then rounded. So `0.125` s prints as `0.12`, and `1.005` s, which lies just below its decimal
spelling, as `1.00`. All of it is exact arithmetic on fractions of naturals.
-/

namespace ModuleRig.Text

/-- The quotient rounded to the nearest whole number. A half goes to the even neighbour. -/
def roundDiv (num den : Nat) : Nat :=
  let q := num / den
  let r := num % den
  if 2 * r < den then q
  else if den < 2 * r then q + 1
  else if q % 2 = 0 then q else q + 1

/-- A fraction of naturals. -/
structure Fraction where
  num : Nat
  den : Nat
deriving DecidableEq, Repr

/-- The fraction divided by a power of two, which may be negative. -/
def Fraction.scaleDown (x : Fraction) (e : Int) : Fraction :=
  if 0 ≤ e then ⟨x.num, x.den * Nat.pow 2 e.toNat⟩ else ⟨x.num * Nat.pow 2 (-e).toNat, x.den⟩

/-- The exponent that brings a fraction between two to the 52 and two to the 53. -/
def Fraction.exponent (x : Fraction) : Int :=
  let e : Int := (Nat.log2 x.num : Int) - (Nat.log2 x.den : Int) - 52
  let y := x.scaleDown e
  if y.num < 4503599627370496 * y.den then e - 1 else e

/-- The nearest binary64 number of a fraction in the normal range, ties to even. -/
def Fraction.toBinary64 (x : Fraction) : Fraction :=
  if x.num = 0 then ⟨0, 1⟩
  else
    let e := x.exponent
    let y := x.scaleDown e
    Fraction.scaleDown ⟨roundDiv y.num y.den, 1⟩ (-e)

/-- The seconds of a duration in milliseconds, as a binary64 number. -/
def secondsOf (milliseconds : Nat) : Fraction :=
  let ms := Fraction.toBinary64 ⟨milliseconds, 1⟩
  Fraction.toBinary64 ⟨ms.num, ms.den * 1000⟩

/-- A number of hundredths with a point before the last two digits. -/
def hundredthsText (n : Nat) : String :=
  decimal (n / 100) ++ "." ++ String.ofList [digitChar (n / 10), digitChar n]

/-- The duration in seconds with two places. -/
def secondsText (milliseconds : Nat) : String :=
  let s := secondsOf milliseconds
  hundredthsText (roundDiv (s.num * 100) s.den)

/-- The rounded quotient is within half a unit of the exact one. -/
theorem roundDiv_near (num den : Nat) (h : 0 < den) :
    2 * (roundDiv num den * den) ≤ 2 * num + den ∧
      2 * num ≤ 2 * (roundDiv num den * den) + den := by
  have hmod := Nat.mod_lt num h
  have hdiv := Nat.div_add_mod num den
  have hmul : (num / den + 1) * den = den * (num / den) + den := by
    rw [Nat.add_mul, Nat.one_mul, Nat.mul_comm]
  have hmul' : num / den * den = den * (num / den) := Nat.mul_comm _ _
  unfold roundDiv
  simp only
  split
  · rw [hmul']; omega
  · split
    · rw [hmul]; omega
    · split
      · rw [hmul']; omega
      · rw [hmul]; omega

end ModuleRig.Text
