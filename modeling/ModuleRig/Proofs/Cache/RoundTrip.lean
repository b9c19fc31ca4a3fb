import ModuleRig.Proofs.Cache.Restart
import ModuleRig.Proofs.Files.Repetition

/-!
# Saved and loaded again

A cache that was saved is loaded as it was, whatever texts and paths its entries hold, and nothing
is in the way of saving it once more, which leaves the file as it is.
-/

namespace ModuleRig.Cache

variable {cache : Cache} {dir : Path} {host : Host}

theorem save_again (hfile : cache.file? = some (dir.child fileName))
    (hsaved : (cache.save host).1 = .ok ()) (index : CacheIndex) :
    (save ⟨some (dir.child fileName), index⟩ (cache.save host).2).1 = .ok () := by
  rw [save_of_some hfile] at hsaved ⊢
  rw [save_of_some rfl]
  dsimp only at hsaved ⊢
  rw [mapError_eq_ok_iff, saveOperations] at hsaved ⊢
  rw [Host.files_performed, saveOperations]
  exact FileTree.replacement_again hsaved (place_partialFile_ne dir _)

/-- A cache whose times have 64 bits and that was saved is loaded with the same entries under the
same keys. Saving what was loaded succeeds and leaves the same bytes in the file. -/
theorem save_load_save (cache : Cache) (dir : Path) (host : Host)
    (hfile : cache.file? = some (dir.child fileName)) (hfits : cache.index.Fits)
    (hsaved : (cache.save host).1 = .ok ()) :
    let left := (cache.save host).2
    let loaded := load left.files dir
    let text := Text.Utf8.ofText cache.index.text
    loaded.index.entries = cache.index.entries ∧ (∀ key, loaded.get? key = cache.get? key) ∧
      left.files.read (dir.child fileName) = .ok text ∧
      (loaded.save left).1 = .ok () ∧
      (loaded.save left).2.files.read (dir.child fileName) = .ok text := by
  intro left loaded text
  have hloaded : loaded = cache := load_of_save hfile hfits hsaved
  have hagain : (cache.save left).1 = .ok () := by
    have := save_again hfile hsaved cache.index
    rwa [← hfile] at this
  rw [hloaded]
  exact ⟨rfl, fun _ => rfl, read_of_save hfile hsaved, hagain, read_of_save hfile hagain⟩

/-- An entry with quotes, control characters and characters beyond the basic plane, from the last
second that fits. -/
def oddEntry : CacheEntry :=
  ⟨⟨"a:b:\"1\"", "1\n\t\x01", ⟨"/c/\\𝄞 ä.jar"⟩, "", "\u2028"⟩, Text.maxWord64⟩

def oddCache : Cache :=
  ⟨some ((Path.mk "/c").child fileName),
    (CacheIndex.empty.insert "a:b:\"1\"" oddEntry).insert "" oddEntry⟩

theorem save_load_save_of_odd_texts :
    oddCache.file? = some ((Path.mk "/c").child fileName) ∧ oddCache.index.Fits ∧
    (oddCache.save Host.blank).1 = .ok () ∧
    let left := (oddCache.save Host.blank).2
    let loaded := load left.files ⟨"/c"⟩
    loaded.get? "a:b:\"1\"" = some oddEntry ∧ loaded.get? "" = some oddEntry ∧
      loaded.index.entries.length = 2 ∧
      (loaded.save left).2.files.read ((Path.mk "/c").child fileName) =
        left.files.read ((Path.mk "/c").child fileName) := by
  have hfits : oddCache.index.Fits := by decide
  have hsaved : (oddCache.save Host.blank).1 = .ok () := by decide +kernel
  obtain ⟨hentries, hget, hfirst, -, hsecond⟩ :=
    save_load_save oddCache ⟨"/c"⟩ Host.blank rfl hfits hsaved
  refine ⟨rfl, hfits, hsaved, (hget _).trans (by decide), (hget _).trans (by decide), ?_,
    hsecond.trans hfirst.symm⟩
  rw [hentries]
  decide

end ModuleRig.Cache
