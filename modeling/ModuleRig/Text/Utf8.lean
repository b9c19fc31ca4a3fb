/-!
# Bytes and UTF-8

Files and streams hold bytes. `encode` writes characters as bytes. Reading runs one machine over the
bytes: `feed` takes a byte and says which pieces it completes, where a piece is a character or a
malformed stretch. A malformed stretch is as long as it could still have become a character, so each
one stands for a single mistake. `decode?` refuses malformed input, and `decodeLossy` puts U+FFFD in
its place.
-/

namespace ModuleRig

abbrev Bytes := List UInt8

namespace Text.Utf8

/-- The bytes of one character, most significant bits first. -/
def encodeChar (c : Char) : Bytes :=
  let n := c.toNat
  if n < 0x80 then [n.toUInt8]
  else if n < 0x800 then [(0xC0 + n / 64).toUInt8, (0x80 + n % 64).toUInt8]
  else if n < 0x10000 then
    [(0xE0 + n / 4096).toUInt8, (0x80 + n / 64 % 64).toUInt8, (0x80 + n % 64).toUInt8]
  else
    [(0xF0 + n / 262144).toUInt8, (0x80 + n / 4096 % 64).toUInt8, (0x80 + n / 64 % 64).toUInt8,
      (0x80 + n % 64).toUInt8]

def encode (cs : List Char) : Bytes :=
  cs.flatMap encodeChar

/-- A character that has begun. -/
structure Pending where
  /-- The bits read so far. -/
  bits : Nat
  /-- How many bytes are still to come, at least one. -/
  owed : Nat
  /-- The least and the greatest value the next byte may have. -/
  low : Nat
  high : Nat
deriving DecidableEq, Repr

/-- A character, or none for a malformed stretch. -/
abbrev Piece := Option Char

/-- The pieces a byte completes when no character has begun, and the character it begins. -/
def start (b : UInt8) : List Piece × Option Pending :=
  let n := b.toNat
  if n < 0x80 then ([some (Char.ofNat n)], none)
  else if n < 0xC2 then ([none], none)
  else if n < 0xE0 then ([], some ⟨n - 0xC0, 1, 0x80, 0xBF⟩)
  else if n = 0xE0 then ([], some ⟨0, 2, 0xA0, 0xBF⟩)
  else if n = 0xED then ([], some ⟨n - 0xE0, 2, 0x80, 0x9F⟩)
  else if n < 0xF0 then ([], some ⟨n - 0xE0, 2, 0x80, 0xBF⟩)
  else if n = 0xF0 then ([], some ⟨0, 3, 0x90, 0xBF⟩)
  else if n < 0xF4 then ([], some ⟨n - 0xF0, 3, 0x80, 0xBF⟩)
  else if n = 0xF4 then ([], some ⟨n - 0xF0, 3, 0x80, 0x8F⟩)
  else ([none], none)

/-- One byte. A byte that cannot continue the character begun ends it as malformed and is read
again on its own. -/
def feed : Option Pending → UInt8 → List Piece × Option Pending
  | none, b => start b
  | some p, b =>
    if p.low ≤ b.toNat ∧ b.toNat ≤ p.high then
      let bits := p.bits * 64 + (b.toNat - 0x80)
      if p.owed ≤ 1 then ([some (Char.ofNat bits)], none)
      else ([], some ⟨bits, p.owed - 1, 0x80, 0xBF⟩)
    else
      let (pieces, next) := start b
      (none :: pieces, next)

/-- All pieces of the bytes. A character that is still unfinished at the end is malformed. -/
def piecesFrom : Option Pending → Bytes → List Piece
  | none, [] => []
  | some _, [] => [none]
  | state, b :: bytes => (feed state b).1 ++ piecesFrom (feed state b).2 bytes

def pieces (bytes : Bytes) : List Piece :=
  piecesFrom none bytes

def replacement : Char := '\uFFFD'

/-- Every malformed stretch becomes one U+FFFD. -/
def decodeLossy (bytes : Bytes) : List Char :=
  (pieces bytes).map (·.getD replacement)

/-- The characters, when every piece is one. -/
def allChars? : List Piece → Option (List Char)
  | [] => some []
  | none :: _ => none
  | some c :: rest => (allChars? rest).map (c :: ·)

/-- Refuses bytes that are not UTF-8. -/
def decode? (bytes : Bytes) : Option (List Char) :=
  allChars? (pieces bytes)

def ofText (s : String) : Bytes :=
  encode s.toList

def textLossy (bytes : Bytes) : String :=
  String.ofList (decodeLossy bytes)

def text? (bytes : Bytes) : Option String :=
  (decode? bytes).map String.ofList

/-- A byte below 128 never belongs to a longer character, so it can be split on. -/
theorem feed_ascii (state : Option Pending) (b : UInt8) (h : b.toNat < 0x80)
    (hlow : ∀ p, state = some p → 0x80 ≤ p.low) :
    (feed state b).2 = none ∧ (feed state b).1.getLast? = some (some (Char.ofNat b.toNat)) := by
  cases state with
  | none => simp [feed, start, h]
  | some p =>
    have := hlow p rfl
    have hn : ¬ (p.low ≤ b.toNat ∧ b.toNat ≤ p.high) := by omega
    simp [feed, start, h, hn]

end Text.Utf8

end ModuleRig
