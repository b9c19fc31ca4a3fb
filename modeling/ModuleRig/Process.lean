import ModuleRig.Text.Utf8

/-!
# Processes

A program that can be started, seen from outside: what it writes and how it ends, given its
arguments. The system reports the end of a process in a 32-bit word, for which an exit code is passed
on. Every exit code fits into a byte: `exitCode_lt`.
-/

namespace ModuleRig

/-- The word the system gives for a child that has been waited for. -/
structure WaitStatus where
  bits : UInt32
deriving DecidableEq, Repr

inductive WaitStatus.Ending where
  | exited (code : Nat)
  | killed (signal : Nat)
  /-- Not ended at all: neither a code nor a signal. -/
  | stopped
deriving DecidableEq, Repr

namespace WaitStatus

/-- The low seven bits tell an exit (0) from a stop (127) and are the signal otherwise. The eighth
bit only says whether a core was dumped. The code of an exit is the second byte. -/
def ending (s : WaitStatus) : Ending :=
  let low := s.bits.toNat % 128
  if low = 0 then .exited (s.bits.toNat / 256 % 256)
  else if low = 127 then .stopped
  else .killed low

/-- The code passed on for an ending. Signals come after 128, as in a shell. -/
def Ending.exitCode : Ending → Nat
  | .exited code => code
  | .killed signal => 128 + signal
  | .stopped => 1

def exitCode (s : WaitStatus) : Nat :=
  s.ending.exitCode

/-- The status of a child that exits with the code. -/
def ofCode (code : Nat) : WaitStatus :=
  ⟨(code % 256 * 256).toUInt32⟩

def ofSignal (signal : Nat) : WaitStatus :=
  ⟨(signal % 128).toUInt32⟩

theorem exitCode_lt (s : WaitStatus) : s.exitCode < 256 := by
  unfold exitCode ending
  simp only
  split
  · simp only [Ending.exitCode]; omega
  · split
    · simp [Ending.exitCode]
    · simp only [Ending.exitCode]; omega

end WaitStatus

/-- What a child process leaves behind. -/
structure ChildRun where
  /-- The standard output, in the chunks in which it arrives. -/
  chunks : List Bytes
  stderr : Bytes
  status : WaitStatus
deriving DecidableEq, Repr

/-- The whole standard output. -/
def ChildRun.stdout (run : ChildRun) : Bytes :=
  run.chunks.flatten

abbrev Program := List String → ChildRun

end ModuleRig
