import ModuleRig.Text.Utf8

/-!
# Percent encoding

A character that may not stand in a part of a URL is written as its bytes, each as a percent sign
and two hexadecimal digits. Which characters these are differs from part to part. A text without
any of them stays as it is: `encode_eq_self`.
-/

namespace ModuleRig.Web.Percent

def hexDigit? (c : Char) : Option Nat :=
  if c.isDigit then some (c.toNat - 48)
  else if 'a' ≤ c && c ≤ 'f' then some (c.toNat - 87)
  else if 'A' ≤ c && c ≤ 'F' then some (c.toNat - 55)
  else none

def hexDigit (n : Nat) : Char :=
  if n < 10 then Char.ofNat (48 + n) else Char.ofNat (55 + n)

def encodeByte (b : UInt8) : List Char :=
  ['%', hexDigit (b.toNat / 16), hexDigit (b.toNat % 16)]

def encode (isEncoded : Char → Bool) (cs : List Char) : List Char :=
  cs.flatMap fun c => if isEncoded c then (Text.Utf8.encodeChar c).flatMap encodeByte else [c]

/-- The bytes of a text. A percent sign without two digits behind it stands for itself. -/
def decode : List Char → Bytes
  | [] => []
  | '%' :: a :: b :: rest =>
    match hexDigit? a, hexDigit? b with
    | some high, some low => (high * 16 + low).toUInt8 :: decode rest
    | _, _ => 37 :: decode (a :: b :: rest)
  | c :: rest => Text.Utf8.encodeChar c ++ decode rest

/-! ## What is encoded where -/

/-- Control characters and all characters beyond ASCII, which are encoded everywhere. -/
def isControl (c : Char) : Bool :=
  c.toNat < 0x20 || 0x7F ≤ c.toNat

def isEncodedInFragment (c : Char) : Bool :=
  isControl c || c == ' ' || c == '"' || c == '<' || c == '>' || c == '`'

def isEncodedInQuery (c : Char) : Bool :=
  isControl c || c == ' ' || c == '"' || c == '#' || c == '<' || c == '>' || c == '\''

def isEncodedInPath (c : Char) : Bool :=
  isEncodedInFragment c || c == '#' || c == '?' || c == '{' || c == '}'

def isEncodedInUser (c : Char) : Bool :=
  isEncodedInPath c || c == '/' || c == ':' || c == ';' || c == '=' || c == '@' || c == '[' ||
    c == '\\' || c == ']' || c == '^' || c == '|'

theorem encode_eq_self {isEncoded : Char → Bool} {cs : List Char}
    (h : ∀ c ∈ cs, isEncoded c = false) : encode isEncoded cs = cs := by
  induction cs with
  | nil => rfl
  | cons c cs ih =>
    have hc : isEncoded c = false := h c (by simp)
    have := ih fun d hd => h d (by simp [hd])
    simp only [encode] at this ⊢
    simp [hc, this]

theorem hexDigit?_hexDigit {n : Nat} (h : n < 16) : hexDigit? (hexDigit n) = some n := by
  have : ∀ k : Fin 16, hexDigit? (hexDigit k) = some k.val := by decide
  exact this ⟨n, h⟩

/-- Decoding gives an encoded byte back. -/
theorem decode_encodeByte (b : UInt8) (rest : List Char) :
    decode (encodeByte b ++ rest) = b :: decode rest := by
  have hb := b.toNat_lt
  have high := hexDigit?_hexDigit (n := b.toNat / 16) (by omega)
  have low := hexDigit?_hexDigit (n := b.toNat % 16) (by omega)
  have : b.toNat / 16 * 16 + b.toNat % 16 = b.toNat := by omega
  simp [encodeByte, decode, high, low, this]

end ModuleRig.Web.Percent
