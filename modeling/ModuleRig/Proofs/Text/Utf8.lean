import ModuleRig.Text.Utf8

/-!
# Text that was encoded is read back

The first byte of a character says how many follow and bounds the next one, so that no shorter
form, no surrogate and nothing beyond the last character gets through. The bytes that `encodeChar`
writes stay within these bounds, and so `feed` completes the character they were written for.
-/

namespace ModuleRig.Text.Utf8

theorem toNat_toUInt8 {n : Nat} (h : n < 256) : n.toUInt8.toNat = n := by
  rw [Nat.toUInt8, UInt8.toNat_ofNat']
  omega

/-! ## First bytes -/

theorem feed_one {n : Nat} (h : n < 0x80) :
    feed none n.toUInt8 = ([some (Char.ofNat n)], none) := by
  have hn : n.toUInt8.toNat = n := toNat_toUInt8 (by omega)
  unfold feed start
  simp only [hn, h, if_true]

theorem feed_two {lead : Nat} (hlow : 2 ≤ lead) (hhigh : lead < 32) :
    feed none (0xC0 + lead).toUInt8 = ([], some ⟨lead, 1, 0x80, 0xBF⟩) := by
  have h : ∀ lead : Fin 32, 2 ≤ lead.val →
      feed none (0xC0 + lead.val).toUInt8 = ([], some ⟨lead.val, 1, 0x80, 0xBF⟩) := by decide
  exact h ⟨lead, hhigh⟩ hlow

theorem feed_three {lead : Nat} (h : lead < 16) :
    feed none (0xE0 + lead).toUInt8 =
      ([], some ⟨lead, 2, if lead = 0 then 0xA0 else 0x80, if lead = 13 then 0x9F else 0xBF⟩) := by
  have hall : ∀ lead : Fin 16, feed none (0xE0 + lead.val).toUInt8 =
      ([], some ⟨lead.val, 2, if lead.val = 0 then 0xA0 else 0x80,
        if lead.val = 13 then 0x9F else 0xBF⟩) := by decide
  exact hall ⟨lead, h⟩

theorem feed_four {lead : Nat} (h : lead < 5) :
    feed none (0xF0 + lead).toUInt8 =
      ([], some ⟨lead, 3, if lead = 0 then 0x90 else 0x80, if lead = 4 then 0x8F else 0xBF⟩) := by
  have hall : ∀ lead : Fin 5, feed none (0xF0 + lead.val).toUInt8 =
      ([], some ⟨lead.val, 3, if lead.val = 0 then 0x90 else 0x80,
        if lead.val = 4 then 0x8F else 0xBF⟩) := by decide
  exact hall ⟨lead, h⟩

/-! ## The bytes after the first -/

section

variable {bits owed low high k : Nat}

theorem feed_last (hk : k < 64) (hlow : low ≤ 0x80 + k) (hhigh : 0x80 + k ≤ high) :
    feed (some ⟨bits, 1, low, high⟩) (0x80 + k).toUInt8 =
      ([some (Char.ofNat (bits * 64 + k))], none) := by
  have hn : (0x80 + k).toUInt8.toNat = 0x80 + k := toNat_toUInt8 (by omega)
  simp only [feed]
  rw [hn, if_pos ⟨hlow, hhigh⟩, if_pos (Nat.le_refl 1), Nat.add_sub_cancel_left]

theorem feed_more (hk : k < 64) (hlow : low ≤ 0x80 + k) (hhigh : 0x80 + k ≤ high) :
    feed (some ⟨bits, owed + 2, low, high⟩) (0x80 + k).toUInt8 =
      ([], some ⟨bits * 64 + k, owed + 1, 0x80, 0xBF⟩) := by
  have hn : (0x80 + k).toUInt8.toNat = 0x80 + k := toNat_toUInt8 (by omega)
  have howed : ¬ owed + 2 ≤ 1 := by omega
  simp only [feed]
  rw [hn, if_pos ⟨hlow, hhigh⟩, if_neg howed, Nat.add_sub_cancel_left]
  rfl

end

/-! ## Characters -/

theorem piecesFrom_cons {state next : Option Pending} {b : UInt8} {done : List Piece}
    (bytes : Bytes) (h : feed state b = (done, next)) :
    piecesFrom state (b :: bytes) = done ++ piecesFrom next bytes := by
  rw [piecesFrom, h]

theorem piecesFrom_two (lead k : Nat) (rest : Bytes) (hlow : 2 ≤ lead) (hhigh : lead < 32)
    (hk : k < 64) :
    piecesFrom none ((0xC0 + lead).toUInt8 :: (0x80 + k).toUInt8 :: rest) =
      some (Char.ofNat (lead * 64 + k)) :: piecesFrom none rest := by
  rw [piecesFrom_cons _ (feed_two hlow hhigh),
    piecesFrom_cons _ (feed_last hk (by omega) (by omega))]
  rfl

/-- The second byte is not one that a shorter form would have, nor that of a surrogate. -/
theorem piecesFrom_three (lead j k : Nat) (rest : Bytes) (hlead : lead < 16) (hj : j < 64)
    (hk : k < 64) (hlow : lead = 0 → 32 ≤ j) (hhigh : lead = 13 → j < 32) :
    piecesFrom none ((0xE0 + lead).toUInt8 :: (0x80 + j).toUInt8 :: (0x80 + k).toUInt8 :: rest) =
      some (Char.ofNat ((lead * 64 + j) * 64 + k)) :: piecesFrom none rest := by
  rw [piecesFrom_cons _ (feed_three hlead), piecesFrom_cons _ (feed_more hj ?_ ?_),
    piecesFrom_cons _ (feed_last hk (by omega) (by omega))]
  · rfl
  · split <;> omega
  · split <;> omega

/-- The second byte is not one that a shorter form would have, nor beyond the last character. -/
theorem piecesFrom_four (lead i j k : Nat) (rest : Bytes) (hlead : lead < 5) (hi : i < 64)
    (hj : j < 64) (hk : k < 64) (hlow : lead = 0 → 16 ≤ i) (hhigh : lead = 4 → i < 16) :
    piecesFrom none ((0xF0 + lead).toUInt8 :: (0x80 + i).toUInt8 :: (0x80 + j).toUInt8 ::
        (0x80 + k).toUInt8 :: rest) =
      some (Char.ofNat (((lead * 64 + i) * 64 + j) * 64 + k)) :: piecesFrom none rest := by
  rw [piecesFrom_cons _ (feed_four hlead), piecesFrom_cons _ (feed_more hi ?_ ?_),
    piecesFrom_cons _ (feed_more hj (by omega) (by omega)),
    piecesFrom_cons _ (feed_last hk (by omega) (by omega))]
  · rfl
  · split <;> omega
  · split <;> omega

theorem toNat_valid (c : Char) : c.toNat < 0xD800 ∨ 0xDFFF < c.toNat ∧ c.toNat < 0x110000 :=
  c.valid

theorem piecesFrom_encodeChar (c : Char) (rest : Bytes) :
    piecesFrom none (encodeChar c ++ rest) = some c :: piecesFrom none rest := by
  have hvalid := toNat_valid c
  have hc : Char.ofNat c.toNat = c := Char.ofNat_toNat c
  unfold encodeChar
  generalize c.toNat = n at hvalid hc
  dsimp only
  split
  · next hone =>
    rw [← hc]
    exact piecesFrom_cons rest (feed_one hone)
  · split
    · next hone htwo =>
      have hbits : n / 64 * 64 + n % 64 = n := by omega
      have hpieces := piecesFrom_two (n / 64) (n % 64) rest (by omega) (by omega) (by omega)
      rwa [hbits, hc] at hpieces
    · split
      · next htwo hthree =>
        have hbits : (n / 4096 * 64 + n / 64 % 64) * 64 + n % 64 = n := by omega
        have hpieces := piecesFrom_three (n / 4096) (n / 64 % 64) (n % 64) rest (by omega)
          (by omega) (by omega) (by omega) (by omega)
        rwa [hbits, hc] at hpieces
      · next hthree =>
        have hbits : ((n / 262144 * 64 + n / 4096 % 64) * 64 + n / 64 % 64) * 64 + n % 64 = n := by
          omega
        have hpieces := piecesFrom_four (n / 262144) (n / 4096 % 64) (n / 64 % 64) (n % 64) rest
          (by omega) (by omega) (by omega) (by omega) (by omega) (by omega)
        rwa [hbits, hc] at hpieces

/-! ## Texts -/

theorem pieces_encode (cs : List Char) : pieces (encode cs) = cs.map some := by
  unfold pieces encode
  induction cs with
  | nil => rfl
  | cons c cs ih => rw [List.flatMap_cons, piecesFrom_encodeChar, ih, List.map_cons]

theorem allChars?_map_some (cs : List Char) : allChars? (cs.map some) = some cs := by
  induction cs with
  | nil => rfl
  | cons c cs ih => rw [List.map_cons, allChars?, ih, Option.map_some]

theorem text?_ofText (s : String) : text? (ofText s) = some s := by
  rw [text?, decode?, ofText, pieces_encode, allChars?_map_some, Option.map_some,
    String.ofList_toList]

end ModuleRig.Text.Utf8
