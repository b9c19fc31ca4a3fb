import ModuleRig.Proofs.Cache.History
import ModuleRig.Proofs.Files.Replacement
import ModuleRig.Proofs.Repository.Answers

/-!
# Saving the index

A save replaces the index file as a whole, and touches no other file but the one that the new text
is first written to. So no jar changes, and a save that succeeds leaves the text to be read.
-/

namespace ModuleRig

open ModuleRig.FileTree (Alters KeepsDirectories)

namespace Cache

/-- The index belongs in the index file of some directory, or in no file. -/
def IsPlaced (cache : Cache) : Prop :=
  ∀ file, cache.file? = some file → ∃ dir : Path, file = dir.child fileName

/-- The ending of the file that the index is first written to. -/
def partialEnding : String := ".json.part"

theorem isPlaced_inMemory : inMemory.IsPlaced := by
  intro file h
  contradiction

theorem isPlaced_load (files : FileTree) (dir : Path) : (load files dir).IsPlaced := by
  rintro file ⟨⟩
  exact ⟨dir, rfl⟩

variable {cache : Cache} {host : Host} {file dir : Path}

theorem readIndex_of_error {files : FileTree} {e : SystemError} (h : files.read file = .error e) :
    readIndex files file = .empty := by
  rw [readIndex, FileTree.readText, h]
  rfl

theorem endsWith_file (dir : Path) : (dir.child fileName).EndsWith fileName :=
  Path.endsWith_child dir List.suffix_rfl (by decide) (by decide)

theorem endsWith_partialFile (dir : Path) :
    ((dir.child fileName).withExtension "json.part").EndsWith partialEnding :=
  Path.endsWith_withExtension (endsWith_file dir) (by decide) (by decide)

theorem save_of_none (h : cache.file? = none) : cache.save host = (.ok (), host) := by
  rw [save, saveOn, h]
  rfl

theorem save_of_some (h : cache.file? = some file) :
    cache.save host =
      ((host.files.performAll (saveOperations cache.index file)).1.mapError .ofKind,
        host.performed (saveOperations cache.index file)) := by
  rw [save, saveOn, h]
  exact Action.performOn_reliable (saveOperations cache.index file) host

theorem keepsDirectories_save (cache : Cache) (host : Host) :
    KeepsDirectories host.files (cache.save host).2.files := by
  cases hfile : cache.file? with
  | none =>
    rw [save_of_none hfile]
    exact fun _ => id
  | some file =>
    rw [save_of_some hfile, Host.files_performed]
    exact FileTree.keepsDirectories_performAll host.files _

theorem alters_save (h : cache.IsPlaced) (host : Host) :
    Alters (fun _ => True) (fun l => l.EndsWith partialEnding ∨ l.EndsWith fileName) host.files
      (cache.save host).2.files := by
  cases hfile : cache.file? with
  | none =>
    rw [save_of_none hfile]
    exact Alters.refl _ _ _
  | some file =>
    obtain ⟨dir, rfl⟩ := h file hfile
    rw [save_of_some hfile, Host.files_performed, saveOperations]
    refine (FileTree.alters_replacement host.files _ _ _ _ false).mono (fun _ _ => trivial) ?_
    intro l hl
    rcases hl with hl | hl
    all_goals rw [hl]
    · exact .inl (Path.endsWith_place (endsWith_partialFile dir) _)
    · exact .inr (Path.endsWith_place (endsWith_file dir) _)

theorem bytesAt?_save_jar (h : cache.IsPlaced) (host : Host) {path : Path}
    (hpath : path.EndsWith jarEnding) :
    (cache.save host).2.files.bytesAt? path = host.files.bytesAt? path := by
  apply (alters_save h host).bytesAt?_eq
  have hjar := Path.endsWith_place hpath host.files.workingDirectory
  rintro (hpartial | hindex)
  · exact Location.ne_of_endsWith hjar hpartial (by decide) rfl
  · exact Location.ne_of_endsWith hjar hindex (by decide) rfl

theorem digest_save (h : cache.IsPlaced) {path : Path} (hpath : path.EndsWith jarEnding)
    {sha256 : String} (hdigest : host.files.digest path = .ok sha256) :
    (cache.save host).2.files.digest path = .ok sha256 :=
  FileTree.digest_again (keepsDirectories_save cache host) (alters_save h host).workingDirectory
    hdigest (bytesAt?_save_jar h host hpath)

theorem place_partialFile_ne (dir : Path) (start : Location) :
    ((dir.child fileName).withExtension "json.part").place start ≠
      (dir.child fileName).place start :=
  Path.place_ne_of_endsWith (endsWith_partialFile dir) (endsWith_file dir) (by decide) start

theorem read_of_save (hfile : cache.file? = some (dir.child fileName))
    (h : (cache.save host).1 = .ok ()) :
    (cache.save host).2.files.read (dir.child fileName) =
      .ok (Text.Utf8.ofText cache.index.text) := by
  rw [save_of_some hfile] at h ⊢
  dsimp only at h ⊢
  rw [mapError_eq_ok_iff, saveOperations] at h
  rw [Host.files_performed, saveOperations]
  exact FileTree.read_of_replacement_ok h (place_partialFile_ne dir _)

end Cache

namespace CachingResolver

theorem file?_next (call : Call) (r : CachingResolver) :
    (call.next r).cache.file? = r.cache.file? := by
  cases call.ends r with
  | reused entry hentry hpermits hanswer hnext hleft => rw [hnext]
  | refused hanswer hnext hleft => rw [hnext]
  | failed e honline hup hanswer hasked hcache hleft => rw [hcache]
  | remembered a honline hup hanswer hasked hcache hleft =>
    rw [hcache]
    rfl

theorem file?_after (r : CachingResolver) (calls : List Call) :
    (after r calls).cache.file? = r.cache.file? := by
  induction calls generalizing r with
  | nil => rfl
  | cons call calls ih => exact (ih (call.next r)).trans (file?_next call r)

theorem isPlaced_after {r : CachingResolver} (h : r.cache.IsPlaced) (calls : List Call) :
    (after r calls).cache.IsPlaced := by
  unfold Cache.IsPlaced
  rw [file?_after]
  exact h

end CachingResolver

end ModuleRig
