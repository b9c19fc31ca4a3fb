import ModuleRig.Proofs.Cache.Saving
import ModuleRig.Proofs.Files.Interruption

/-!
# Writes to the cache directory that are cut short

The index file and the jars of web repositories are read again by later runs. Saving the index and
fetching a jar are replacements and nothing else, so whatever stops them, the next run finds the old
file or the whole new one: `writes_are_whole`.
-/

namespace ModuleRig

open ModuleRig.FileTree (Operation WholeOrNot)

/-- A step of the program leads from the files `t` to the files `left` by some operations, and
`succeeds` or not. It puts a content under the name of a target by way of a second file, and does so
in full or not at all, wherever it is stopped and whichever operation fails. -/
structure FileTree.PutsWhole (t : FileTree) (operations : List Operation)
    (partialFile target : Path) (content : Bytes) (succeeds : Prop) (left : FileTree) : Prop where
  performs : left = (t.performAll operations).2
  succeeds_iff : succeeds ↔ (t.performAll operations).1 = .ok ()
  reached : t.CutShort operations left
  complete : succeeds → left.read target = .ok content
  cutShort : ∀ u, t.CutShort operations u →
    WholeOrNot (partialFile.place t.workingDirectory) (target.place t.workingDirectory) content t u

theorem FileTree.putsWhole_replacement {t left : FileTree} {dir partialFile target : Path}
    {content : Bytes} {safe : Bool} {succeeds : Prop}
    (hne : ∀ start, partialFile.place start ≠ target.place start)
    (hleft : left = (t.performAll (replacement dir partialFile target content safe)).2)
    (hsucceeds : succeeds ↔
      (t.performAll (replacement dir partialFile target content safe)).1 = .ok ()) :
    t.PutsWhole (replacement dir partialFile target content safe) partialFile target content
      succeeds left where
  performs := hleft
  succeeds_iff := hsucceeds
  reached := hleft ▸ cutShort_performAll t _
  complete := by
    intro h
    rw [hleft]
    exact read_of_replacement_ok (hsucceeds.1 h) (hne _)
  cutShort := fun _ h => h.wholeOrNot (hne _)

namespace Cache

theorem putsWhole_save (dir : Path) (index : CacheIndex) (host : Host) :
    host.files.PutsWhole (saveOperations index (dir.child fileName))
      ((dir.child fileName).withExtension "json.part") (dir.child fileName)
      (Text.Utf8.ofText index.text)
      ((save ⟨some (dir.child fileName), index⟩ host).1 = .ok ())
      (save ⟨some (dir.child fileName), index⟩ host).2.files := by
  rw [save_of_some rfl, Host.files_performed]
  dsimp only
  rw [saveOperations]
  exact FileTree.putsWhole_replacement (place_partialFile_ne dir) rfl mapError_eq_ok_iff

end Cache

namespace Repository

variable {name address : String} {c : Coordinate} {v : String} {cacheDir : Path} {host : Host}
  {content : Bytes}

theorem storeResult_map_eq_ok_iff {files : FileTree} :
    (storeResult files cacheDir c v content).map some = .ok (some (downloadPath cacheDir c v)) ↔
      (files.performAll (storeOperations cacheDir c v content)).1 = .ok () := by
  rw [map_eq_ok_iff]
  constructor
  · rintro ⟨path, hstored, -⟩
    exact (storeResult_ok hstored).1
  · intro h
    exact ⟨_, by rw [storeResult, h], rfl⟩

theorem putsWhole_fetch (h : (web name address).jarBytes c v host = .ok (some content))
    (cacheDir : Path) :
    host.files.PutsWhole (storeOperations cacheDir c v content)
      ((downloadPath cacheDir c v).withExtension "jar.part") (downloadPath cacheDir c v) content
      (((web name address).fetch c v cacheDir host).1 = .ok (some (downloadPath cacheDir c v)))
      ((web name address).fetch c v cacheDir host).2.files := by
  obtain ⟨urls, hrun⟩ := (onlyAsks_download address c v).run_eq h
  rw [fetch, fetchOn_web_eq, Action.bind_of_ok _ hrun, keepOn_reliable_some, Host.files_performed,
    Host.files_asked]
  exact FileTree.putsWhole_replacement (place_partialPath_ne cacheDir c v) rfl
    storeResult_map_eq_ok_iff

theorem files_fetch_of_no_jar
    (h : ∀ content, (web name address).jarBytes c v host ≠ .ok (some content)) (cacheDir : Path) :
    ((web name address).fetch c v cacheDir host).2.files = host.files := by
  obtain ⟨urls, ⟨e, hrun⟩ | ⟨-, hrun⟩ | ⟨content, hjar, -⟩⟩ :=
    fetch_web name address c v cacheDir host
  · rw [hrun, Host.files_asked]
  · rw [hrun, Host.files_asked]
  · exact absurd hjar (h content)

end Repository

/-- Saving the index and fetching a jar from the web write whole files or none, from every tree. A
web repository that has no jar to give writes nothing. -/
theorem writes_are_whole (host : Host) (cacheDir : Path) :
    (∀ index : CacheIndex,
      host.files.PutsWhole (Cache.saveOperations index (cacheDir.child Cache.fileName))
        ((cacheDir.child Cache.fileName).withExtension "json.part")
        (cacheDir.child Cache.fileName) (Text.Utf8.ofText index.text)
        ((Cache.save ⟨some (cacheDir.child Cache.fileName), index⟩ host).1 = .ok ())
        (Cache.save ⟨some (cacheDir.child Cache.fileName), index⟩ host).2.files) ∧
    ∀ (name address : String) (c : Coordinate) (v : String),
      (∃ content, (Repository.web name address).jarBytes c v host = .ok (some content) ∧
        host.files.PutsWhole (Repository.storeOperations cacheDir c v content)
          ((Repository.downloadPath cacheDir c v).withExtension "jar.part")
          (Repository.downloadPath cacheDir c v) content
          (((Repository.web name address).fetch c v cacheDir host).1 =
            .ok (some (Repository.downloadPath cacheDir c v)))
          ((Repository.web name address).fetch c v cacheDir host).2.files) ∨
      (∀ content, (Repository.web name address).jarBytes c v host ≠ .ok (some content)) ∧
        ((Repository.web name address).fetch c v cacheDir host).2.files = host.files := by
  refine ⟨fun index => Cache.putsWhole_save cacheDir index host, ?_⟩
  intro name address c v
  by_cases hjar : ∃ content, (Repository.web name address).jarBytes c v host = .ok (some content)
  · obtain ⟨content, hjar⟩ := hjar
    exact .inl ⟨content, hjar, Repository.putsWhole_fetch hjar cacheDir⟩
  · have hnone := not_exists.1 hjar
    exact .inr ⟨hnone, Repository.files_fetch_of_no_jar hnone cacheDir⟩

/-- An old index file beside what an earlier save has left, and then the first byte of a new one. -/
def Cache.sampleFiles : FileTree :=
  ⟨[(["c"], .directory), (["c", "resolutions.json"], .file [7, 8, 9] .plain),
    (["c", "resolutions.json.part"], .file [7] .plain)], []⟩

def Cache.sampleHalf : FileTree :=
  (sampleFiles.put ["c", "resolutions.json.part"] (.file [] .plain)).put
    ["c", "resolutions.json.part"] (.file [123] .plain)

/-- The old index is still there when the new one is stopped behind its first byte. -/
theorem writes_are_whole_of_half_index :
    Cache.sampleFiles.CutShort
      (Cache.saveOperations .empty ((Path.mk "c").child Cache.fileName)) Cache.sampleHalf ∧
    Cache.sampleHalf.content? ["c", "resolutions.json.part"] = some [123] ∧
    Cache.sampleHalf.file? ["c", "resolutions.json"] =
      Cache.sampleFiles.file? ["c", "resolutions.json"] := by
  have hcut : Cache.sampleFiles.CutShort
      (Cache.saveOperations .empty ((Path.mk "c").child Cache.fileName)) Cache.sampleHalf := by
    have hpart : [123] <+: Text.Utf8.ofText CacheIndex.empty.text := by decide +kernel
    refine .onwards (u := Cache.sampleFiles) (by rfl) (.onwards (by rfl) (.within ?_))
    exact .appended hpart (by rfl)
  have hwhole := (writes_are_whole { Host.blank with files := Cache.sampleFiles } ⟨"c"⟩).1 .empty
  refine ⟨hcut, by rfl, ?_⟩
  rcases (hwhole.cutShort _ hcut).replaced with hsame | hnew
  · exact hsame
  · have hold : Cache.sampleHalf.content? ["c", "resolutions.json"] = some [7, 8, 9] := by rfl
    have hne : Text.Utf8.ofText CacheIndex.empty.text ≠ [7, 8, 9] := by decide +kernel
    exact absurd (Option.some.inj (hnew.symm.trans hold)) hne

end ModuleRig
