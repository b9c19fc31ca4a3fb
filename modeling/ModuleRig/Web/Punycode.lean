/-!
# Punycode

A label of a host name in ASCII: its ASCII characters, and behind the last hyphen a row of numbers
that say which other characters stand between them. The characters come in the order of their code
points, and each number is the distance to the next one. The numbers are written with digits of
changing weight, which `readNumber?_writeNumber` says can be read back.
-/

namespace ModuleRig.Web.Punycode

/-- The digit of a value below 36: the letters, then the decimal digits. -/
def digit (n : Nat) : Char :=
  if n < 26 then Char.ofNat (97 + n) else Char.ofNat (22 + n)

/-- The value of a digit. Letters of both cases have the same. -/
def digit? (c : Char) : Option Nat :=
  if 'a' ≤ c && c ≤ 'z' then some (c.toNat - 97)
  else if 'A' ≤ c && c ≤ 'Z' then some (c.toNat - 65)
  else if c.isDigit then some (c.toNat - 22)
  else none

theorem digit?_digit {n : Nat} (h : n < 36) : digit? (digit n) = some n := by
  have : ∀ k : Fin 36, digit? (digit k) = some k.val := by decide
  exact this ⟨n, h⟩

/-- A digit below the threshold of its place is the last one. -/
def threshold (bias place : Nat) : Nat :=
  max 1 (min 26 (place - bias))

theorem one_le_threshold (bias place : Nat) : 1 ≤ threshold bias place := by
  unfold threshold; omega

theorem threshold_le (bias place : Nat) : threshold bias place ≤ 26 := by
  unfold threshold; omega

def writeNumber (bias place n : Nat) : List Char :=
  let t := threshold bias place
  if n < t then [digit n]
  else digit (t + (n - t) % (36 - t)) :: writeNumber bias (place + 36) ((n - t) / (36 - t))
termination_by n
decreasing_by
  have := one_le_threshold bias place
  exact Nat.lt_of_le_of_lt (Nat.div_le_self _ _) (by omega)

/-- Reads a number and adds it, times the weight, to the sum so far. -/
def readNumber? (bias place weight sum : Nat) : List Char → Option (Nat × List Char)
  | [] => none
  | c :: rest =>
    match digit? c with
    | none => none
    | some d =>
      let t := threshold bias place
      if d < t then some (sum + d * weight, rest)
      else readNumber? bias (place + 36) (weight * (36 - t)) (sum + d * weight) rest

/-- Divides by 35 as long as the number is great, counting 36 for each time. -/
def shrink (n count : Nat) : Nat × Nat :=
  if 455 < n then shrink (n / 35) (count + 36) else (n, count)
termination_by n
decreasing_by exact Nat.div_lt_self (by omega) (by omega)

/-- The bias for the next number: small after small numbers. -/
def adapted (distance points : Nat) (isFirst : Bool) : Nat :=
  let start := if isFirst then distance / 700 else distance / 2
  let (n, count) := shrink (start + start / points) 0
  count + 36 * n / (n + 38)

def firstBias : Nat := 72

def isAscii (c : Char) : Bool := c.toNat < 128

/-! ## Writing -/

structure Writing where
  written : List Char
  /-- The distance since the last number. -/
  distance : Nat
  bias : Nat
  /-- How many characters are placed. -/
  placed : Nat

/-- Goes past one character of the label, of which those of one code point are placed now. -/
def Writing.pass (basic code : Nat) (w : Writing) (c : Char) : Writing :=
  if c.toNat < code then { w with distance := w.distance + 1 }
  else if c.toNat = code then
    { written := w.written ++ writeNumber w.bias 36 w.distance
      distance := 0
      bias := adapted w.distance (w.placed + 1) (w.placed == basic)
      placed := w.placed + 1 }
  else w

/-- Places the characters of the code points, which are in order. -/
def Writing.run (label : List Char) (basic : Nat) : Nat → List Nat → Writing → Writing
  | _, [], w => w
  | least, code :: codes, w =>
    let w := { w with distance := w.distance + (code - least) * (w.placed + 1) }
    let w := label.foldl (pass basic code) w
    run label basic (code + 1) codes { w with distance := w.distance + 1 }

/-- The label in ASCII, without the mark in front that tells it from others. -/
def encode (label : List Char) : List Char :=
  let ascii := label.filter isAscii
  let codes := ((label.filter (!isAscii ·)).map Char.toNat).eraseDups.mergeSort
  let w := Writing.run label ascii.length 128 codes ⟨[], 0, firstBias, ascii.length⟩
  ascii ++ (if ascii.isEmpty then [] else ['-']) ++ w.written

/-! ## Reading -/

theorem length_of_readNumber? {bias place weight sum n : Nat} {cs rest : List Char}
    (h : readNumber? bias place weight sum cs = some (n, rest)) : rest.length < cs.length := by
  induction cs generalizing place weight sum with
  | nil => simp [readNumber?] at h
  | cons c cs ih =>
    simp only [readNumber?] at h
    split at h
    · simp at h
    · split at h
      · simp only [Option.some.injEq, Prod.mk.injEq] at h
        simp [← h.2]
      · have := ih h
        simp only [List.length_cons]
        omega

def isCodePoint (n : Nat) : Bool :=
  n < 0xD800 || (0xE000 ≤ n && n < 0x110000)

/-- Puts the characters of the numbers into the text, from a code point and a position on. -/
def placeAll (bias code position : Nat) (text cs : List Char) : Option (List Char) :=
  match cs with
  | [] => some text
  | c :: rest =>
    match _h : readNumber? bias 36 1 position (c :: rest) with
    | none => none
    | some (n, after) =>
      let points := text.length + 1
      let code := code + n / points
      if isCodePoint code then
        placeAll (adapted (n - position) points (position == 0)) code (n % points + 1)
          (text.insertIdx (n % points) (Char.ofNat code)) after
      else none
termination_by cs.length
decreasing_by exact length_of_readNumber? _h

/-- What stands in front of the last hyphen and behind it. -/
def cutAtLastHyphen (cs : List Char) : List Char × List Char :=
  match cs.reverse.dropWhile (· != '-') with
  | [] => ([], cs)
  | _ :: front => (front.reverse, (cs.reverse.takeWhile (· != '-')).reverse)

def decode? (cs : List Char) : Option (List Char) :=
  let (ascii, numbers) := cutAtLastHyphen cs
  if ascii.all isAscii then placeAll firstBias 128 0 ascii numbers else none

/-- A number that is written is read again, whatever follows it. -/
theorem readNumber?_writeNumber (bias n place weight sum : Nat) (rest : List Char) :
    readNumber? bias place weight sum (writeNumber bias place n ++ rest) =
      some (sum + n * weight, rest) := by
  induction n using Nat.strongRecOn generalizing place weight sum with
  | _ n ih =>
    have low := one_le_threshold bias place
    have high := threshold_le bias place
    rw [writeNumber]
    by_cases h : n < threshold bias place
    · have := digit?_digit (n := n) (by omega)
      simp [h, readNumber?, this]
    · generalize ht : threshold bias place = t at low high h
      have hm : (n - t) % (36 - t) < 36 - t := Nat.mod_lt _ (by omega)
      have hd := digit?_digit (n := t + (n - t) % (36 - t)) (by omega)
      have hlt : (n - t) / (36 - t) < n :=
        Nat.lt_of_le_of_lt (Nat.div_le_self _ _) (by omega)
      have hsum : t + (n - t) % (36 - t) + (n - t) / (36 - t) * (36 - t) = n := by
        have := Nat.mod_add_div' (n - t) (36 - t)
        omega
      have hmul : (n - t) / (36 - t) * (weight * (36 - t)) =
          (n - t) / (36 - t) * (36 - t) * weight := by
        rw [Nat.mul_comm weight, ← Nat.mul_assoc]
      simp only [ht, h, if_false, List.cons_append, readNumber?, hd]
      rw [if_neg (by omega), ih _ hlt, hmul, Nat.add_assoc, ← Nat.add_mul, hsum]

end ModuleRig.Web.Punycode
