import ModuleRig.Process

/-!
# The bits of a wait status

How a child ended, told from the bits of its status: bits 0 to 6 say in which way it ended, bit 7
whether core was dumped, bits 8 to 15 are the code of an exit, and those above say nothing. The exit
code that is passed on goes by these bits, and is 0 for an exit with 0 alone.
-/

namespace ModuleRig.WaitStatus

variable {s : WaitStatus} {code signal : Nat}

/-- The child ended by itself and gave the code. -/
def Exited (s : WaitStatus) (code : Nat) : Prop :=
  (s.bits.toBitVec.extractLsb 6 0).toNat = 0 ∧ (s.bits.toBitVec.extractLsb 15 8).toNat = code

/-- The signal ended the child, with or without a core dump. All seven bits set are no signal. -/
def Killed (s : WaitStatus) (signal : Nat) : Prop :=
  (s.bits.toBitVec.extractLsb 6 0).toNat = signal ∧ 0 < signal ∧ signal < 127

theorem toNat_extract_low (s : WaitStatus) :
    (s.bits.toBitVec.extractLsb 6 0).toNat = s.bits.toNat % 128 := by
  rw [BitVec.extractLsb_toNat, UInt32.toNat_toBitVec, Nat.shiftRight_zero]

theorem toNat_extract_code (s : WaitStatus) :
    (s.bits.toBitVec.extractLsb 15 8).toNat = s.bits.toNat / 256 % 256 := by
  rw [BitVec.extractLsb_toNat, UInt32.toNat_toBitVec, Nat.shiftRight_eq_div_pow]

theorem exited_iff : s.Exited code ↔ s.ending = .exited code := by
  unfold Exited ending
  rw [toNat_extract_low, toNat_extract_code]
  dsimp only
  split
  · next h => simp [h]
  · next h => split <;> simp [h]

theorem killed_iff : s.Killed signal ↔ s.ending = .killed signal := by
  unfold Killed ending
  rw [toNat_extract_low]
  have hlow : s.bits.toNat % 128 < 128 := Nat.mod_lt _ (by decide)
  dsimp only
  split
  · next h => simp; omega
  · split
    · simp; omega
    · rw [Ending.killed.injEq]
      omega

theorem exitCode_of_exited (h : s.Exited code) : s.exitCode = code := by
  rw [exitCode, exited_iff.1 h]
  rfl

theorem exitCode_of_killed (h : s.Killed signal) : s.exitCode = 128 + signal := by
  rw [exitCode, killed_iff.1 h]
  rfl

theorem exitCode_of_neither (hexited : ∀ code, ¬ s.Exited code)
    (hkilled : ∀ signal, ¬ s.Killed signal) : s.exitCode = 1 := by
  simp only [exited_iff] at hexited
  simp only [killed_iff] at hkilled
  rw [exitCode]
  cases hending : s.ending with
  | exited code => exact absurd hending (hexited code)
  | killed signal => exact absurd hending (hkilled signal)
  | stopped => rfl

theorem exitCode_eq_zero_iff : s.exitCode = 0 ↔ s.Exited 0 := by
  rw [exited_iff, exitCode]
  cases s.ending with
  | exited code => simp [Ending.exitCode]
  | killed signal => simp [Ending.exitCode]
  | stopped => simp [Ending.exitCode]

end ModuleRig.WaitStatus
