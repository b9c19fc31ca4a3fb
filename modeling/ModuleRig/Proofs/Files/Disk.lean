import ModuleRig.Files.Disk
import ModuleRig.Proofs.Files.Interruption

/-!
# Disks that fail

A disk can fail at any call, and the program can be stopped within one. `Sound` is what is still
asked of the disk then. So operations that fail have done what they may have done when they are cut
short, and a replacement that fails has only been prepared.
-/

namespace ModuleRig.FileTree.Disk

variable {disk : Disk} {t u : FileTree} {operations first : List Operation} {e : SystemError}

/-- What the disk reports as done is done. What it reports as failed may be done in part, but a move
happens at once. Nothing is asked of what it tells about files. -/
structure Sound (disk : Disk) : Prop where
  done : ∀ {t operation u}, disk.perform t operation = (.ok (), u) →
    t.perform operation = (.ok (), u)
  failed : ∀ {t operation e u}, disk.perform t operation = (.error e, u) → t.Leaves operation u
  notMoved : ∀ {t source target e u}, disk.perform t (.rename source target) = (.error e, u) → u = t

namespace Sound

theorem cutShort (h : disk.Sound) (t : FileTree) (operations : List Operation) :
    t.CutShort operations (disk.performAll t operations).2 := by
  induction operations generalizing t with
  | nil => exact .done t
  | cons operation rest ih =>
    rw [performAll]
    rcases hperform : disk.perform t operation with ⟨_ | _, u⟩
    · exact .within (h.failed hperform)
    · exact .onwards (h.done hperform) (ih u)

theorem performAll_ok (h : disk.Sound) (hok : disk.performAll t operations = (.ok (), u)) :
    t.performAll operations = (.ok (), u) := by
  induction operations generalizing t with
  | nil =>
    rw [performAll, Prod.mk.injEq] at hok
    rw [FileTree.performAll, hok.2]
  | cons operation rest ih =>
    rw [performAll] at hok
    rcases hperform : disk.perform t operation with ⟨_ | _, v⟩
    · rw [hperform] at hok
      cases hok
    · rw [hperform] at hok
      rw [FileTree.performAll, h.done hperform]
      exact ih hok

/-- If operations fail that end with a move, then the move is not done. -/
theorem cutShort_of_error (h : disk.Sound) {source target : Path}
    (herror : disk.performAll t (first ++ [.rename source target]) = (.error e, u)) :
    t.CutShort first u := by
  induction first generalizing t with
  | nil =>
    rw [List.nil_append, performAll] at herror
    rcases hperform : disk.perform t (.rename source target) with ⟨_ | _, v⟩
    · rw [hperform, Prod.mk.injEq] at herror
      rw [← herror.2, h.notMoved hperform]
      exact .done t
    · rw [hperform] at herror
      cases herror
  | cons operation rest ih =>
    rw [List.cons_append, performAll] at herror
    rcases hperform : disk.perform t operation with ⟨_ | _, v⟩
    · rw [hperform, Prod.mk.injEq] at herror
      rw [← herror.2]
      exact .within (h.failed hperform)
    · rw [hperform] at herror
      exact .onwards (h.done hperform) (ih herror)

theorem keepsDirectories (h : disk.Sound) (t : FileTree) (operations : List Operation) :
    KeepsDirectories t (disk.performAll t operations).2 :=
  (h.cutShort t operations).keepsDirectories

variable {dir partialFile target : Path} {content : Bytes} {safe : Bool}

theorem alters_replacement_of_error (h : disk.Sound)
    (herror : disk.performAll t (replacement dir partialFile target content safe) =
      (.error e, u)) :
    Alters (fun l => ∃ q ∈ dir.ancestors, l = q.place t.workingDirectory)
      (· = partialFile.place t.workingDirectory) t u := by
  rw [replacement_eq] at herror
  exact (h.cutShort_of_error herror).alters_preparation

/-- The file under the target's name is the old one or the new one. -/
theorem bytesAt?_replacement (h : disk.Sound)
    (hne : partialFile.place t.workingDirectory ≠ target.place t.workingDirectory) :
    (disk.performAll t (replacement dir partialFile target content safe)).2.bytesAt? target =
        t.bytesAt? target ∨
      (disk.performAll t (replacement dir partialFile target content safe)).2.bytesAt? target =
        some content := by
  rcases hrun : disk.performAll t (replacement dir partialFile target content safe) with
    ⟨e | _, u⟩
  · exact .inl ((h.alters_replacement_of_error hrun).bytesAt?_eq hne.symm)
  · have hread := read_of_replacement_ok (congrArg Prod.fst (h.performAll_ok hrun)) hne
    rw [h.performAll_ok hrun] at hread
    exact .inr (bytesAt?_of_read hread)

end Sound

end ModuleRig.FileTree.Disk
