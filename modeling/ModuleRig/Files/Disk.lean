import ModuleRig.Files.Change

/-!
# Disks

The calls by which the program reaches a file tree. What a tree answers and what becomes of it, in
`list`, `isFile`, `digest` and `perform`, goes by the tree alone. A real disk can fail besides: it is
full, or a sector of it cannot be read. So the program is written for any disk, and `reliable` is the
one on which nothing but the tree stands in the way.
-/

namespace ModuleRig.FileTree

/-- What each call answers on a tree, and the tree that an operation leaves. -/
structure Disk where
  list : FileTree → Path → Except SystemError (List String)
  isFile : FileTree → Path → Bool
  digest : FileTree → Path → Except SystemError String
  perform : FileTree → Operation → Except SystemError Unit × FileTree

namespace Disk

def reliable : Disk where
  list := FileTree.list
  isFile := FileTree.isFile
  digest := FileTree.digest
  perform t operation :=
    let (result, left) := t.perform operation
    (result.mapError .ofKind, left)

@[simp] theorem list_reliable : reliable.list = FileTree.list := rfl
@[simp] theorem isFile_reliable : reliable.isFile = FileTree.isFile := rfl
@[simp] theorem digest_reliable : reliable.digest = FileTree.digest := rfl

/-- Performs operations in order, up to the first that fails. -/
def performAll (disk : Disk) (t : FileTree) : List Operation → Except SystemError Unit × FileTree
  | [] => (.ok (), t)
  | operation :: rest =>
    match disk.perform t operation with
    | (.error e, left) => (.error e, left)
    | (.ok (), left) => disk.performAll left rest

theorem performAll_reliable (t : FileTree) (operations : List Operation) :
    reliable.performAll t operations =
      ((t.performAll operations).1.mapError .ofKind, (t.performAll operations).2) := by
  induction operations generalizing t with
  | nil => rfl
  | cons operation rest ih =>
    have hperform : reliable.perform t operation =
        ((t.perform operation).1.mapError .ofKind, (t.perform operation).2) := rfl
    rw [performAll, FileTree.performAll, hperform]
    rcases t.perform operation with ⟨_ | _, left⟩
    · rfl
    · exact ih left

end Disk

end ModuleRig.FileTree
