import ModuleRig.Proofs.Coordinate.Layout
import ModuleRig.Proofs.Files.Replacement
import ModuleRig.Proofs.Path.Ending
import ModuleRig.Proofs.Repository.Passes
import ModuleRig.Proofs.Version.Choice

/-!
# What a resolution answers and what it writes

An answer names a file that can be read in the tree the resolution leaves, and holds its digest.
Jars are the only files a resolution changes, apart from those they are first written to.
-/

namespace ModuleRig

open ModuleRig.FileTree (Alters KeepsDirectories)

/-- The ending of a jar, and of the file that a jar is first written to. -/
def jarEnding : String := ".jar"
def partialJarEnding : String := ".jar.part"

theorem disparate_jarEnding : Disparate partialJarEnding jarEnding := by
  decide

namespace Repository

variable {files : FileTree} {cacheDir root path : Path} {c : Coordinate} {v : String}
  {content : Bytes} {host : Host}

/-! ## The names of jars -/

theorem suffix_jarName (c : Coordinate) (v : String) :
    jarEnding.toList <:+ (c.jarName v).toList := by
  rw [Coordinate.toList_jarName, ← List.append_assoc]
  exact List.suffix_append _ _

theorem endsWith_jarPath (root : Path) (c : Coordinate) (v : String) :
    (jarPath root c v).EndsWith jarEnding :=
  Path.endsWith_child _ (suffix_jarName c v) (by decide) (by decide)

theorem endsWith_downloadPath (cacheDir : Path) (c : Coordinate) (v : String) :
    (downloadPath cacheDir c v).EndsWith jarEnding :=
  Path.endsWith_child _ (suffix_jarName c v) (by decide) (by decide)

theorem endsWith_partialPath (cacheDir : Path) (c : Coordinate) (v : String) :
    ((downloadPath cacheDir c v).withExtension "jar.part").EndsWith partialJarEnding :=
  Path.endsWith_withExtension (endsWith_downloadPath cacheDir c v) (by decide) (by decide)

theorem place_partialPath_ne (cacheDir : Path) (c : Coordinate) (v : String) (start : Location) :
    ((downloadPath cacheDir c v).withExtension "jar.part").place start ≠
      (downloadPath cacheDir c v).place start :=
  Path.place_ne_of_endsWith (endsWith_partialPath cacheDir c v)
    (endsWith_downloadPath cacheDir c v) disparate_jarEnding start

/-! ## Storing a jar -/

theorem read_of_storeResult (h : storeResult files cacheDir c v content = .ok path) :
    (files.performAll (storeOperations cacheDir c v content)).2.read path = .ok content := by
  obtain ⟨hperform, rfl⟩ := storeResult_ok h
  simp only [storeOperations] at hperform ⊢
  exact FileTree.read_of_replacement_ok hperform (place_partialPath_ne cacheDir c v _)

theorem alters_store (files : FileTree) (cacheDir : Path) (c : Coordinate) (v : String)
    (content : Bytes) :
    Alters (fun _ => True) (fun l => l.EndsWith partialJarEnding ∨ l.EndsWith jarEnding) files
      (files.performAll (storeOperations cacheDir c v content)).2 := by
  simp only [storeOperations]
  refine (FileTree.alters_replacement files _ _ _ content true).mono (fun _ _ => trivial) ?_
  intro l hl
  rcases hl with hl | hl
  all_goals rw [hl]
  · exact .inl (Path.endsWith_place (endsWith_partialPath cacheDir c v) _)
  · exact .inr (Path.endsWith_place (endsWith_downloadPath cacheDir c v) _)

theorem read_of_jarBytes_directory {name : String}
    (h : (directory name root).jarBytes c v host = .ok (some content)) :
    host.files.read (jarPath root c v) = .ok content := by
  have hread : (host.files.read (jarPath root c v)).toOption = some content := Except.ok.inj h
  cases hresult : host.files.read (jarPath root c v) with
  | error e =>
    rw [hresult] at hread
    contradiction
  | ok content' =>
    rw [hresult] at hread
    rw [Option.some.inj hread]

end Repository

namespace Repositories

variable {rs : Repositories} {c : Coordinate} {host : Host} {a : Artifact}
  {v : String}

theorem Settles.accepts (h : rs.Settles c host v) : c.selector.accepts v = true := by
  rcases h.cases with hexact | ⟨versions, -, hselect⟩
  · rw [hexact]
    exact beq_self_eq_true v
  · exact (Version.mem_of_select? hselect).2

/-! ## Answers -/

/-- What an answer tells is so: the version is the one that was settled, the first repository with
its jar has supplied it, and the file holds what that repository has. -/
structure Truthful (rs : Repositories) (c : Coordinate) (host : Host) (a : Artifact) : Prop where
  coordinate : a.coordinate = c.text
  settled : rs.Settles c host a.version
  supplied : ∃ r content, FirstWith c a.version host rs.declared r content ∧
    a.repository = r.name ∧ a.sha256 = Digest.ofBytes content
  digest : (rs.resolve c host).2.files.digest a.path = .ok a.sha256
  path : a.path.EndsWith jarEnding

theorem artifactAt_of_read {files : FileTree} {path : Path} {content : Bytes} (r : Repository)
    (h : files.read path = .ok content) :
    artifactAt files c v r path = .ok ⟨c.text, v, path, r.name, Digest.ofBytes content⟩ := by
  have hdigest : files.digest path = .ok (Digest.ofBytes content) :=
    (FileTree.digest_eq_ok_iff files path _).2 ⟨content, h, rfl⟩
  rw [artifactAt, hdigest]

theorem truthful_of_read {r : Repository} {path : Path} {content : Bytes} {urls : List String}
    {left : Host} (hrun : rs.resolve c host = (artifactAt left.files c v r path, left.asked urls))
    (hread : left.files.read path = .ok content) (hsettles : rs.Settles c host v)
    (hfirst : FirstWith c v host rs.declared r content) (hending : path.EndsWith jarEnding)
    (h : (rs.resolve c host).1 = .ok a) : rs.Truthful c host a := by
  rw [hrun, artifactAt_of_read r hread] at h
  obtain rfl := Except.ok.inj h
  refine ⟨rfl, hsettles, ⟨r, content, hfirst, rfl, rfl⟩, ?_, hending⟩
  rw [hrun]
  exact (FileTree.digest_eq_ok_iff _ _ _).2 ⟨content, hread, rfl⟩

theorem truthful_of_resolve (h : (rs.resolve c host).1 = .ok a) : rs.Truthful c host a := by
  have hresolved := rs.resolved_resolve c host
  have hanswer := h
  generalize hrun : rs.resolve c host = run at hresolved hanswer
  cases hresolved with
  | failed urls e => contradiction
  | present urls v name root content hsettles hfirst =>
    have hread : host.files.read (Repository.jarPath root c v) = .ok content := by
      obtain ⟨before, after, -, -, hbytes⟩ := hfirst
      exact Repository.read_of_jarBytes_directory hbytes
    exact truthful_of_read hrun hread hsettles hfirst (Repository.endsWith_jarPath root c v) h
  | stored urls v name address content hsettles hfirst =>
    obtain ⟨path, hstored, -⟩ := exists_of_bind_eq_ok hanswer
    have hpath := (Repository.storeResult_ok hstored).2
    have hending := Repository.endsWith_downloadPath rs.cacheDir c v
    rw [← hpath] at hending
    have hread : (host.performed
        (Repository.storeOperations rs.cacheDir c v content)).files.read path = .ok content := by
      rw [Host.files_performed]
      exact Repository.read_of_storeResult hstored
    rw [hstored, Host.performed_asked] at hrun
    exact truthful_of_read hrun hread hsettles hfirst hending h

/-! ## Changes -/

theorem keepsDirectories_resolve (rs : Repositories) (c : Coordinate) (host : Host) :
    KeepsDirectories host.files (rs.resolve c host).2.files := by
  have hresolved := rs.resolved_resolve c host
  generalize rs.resolve c host = run at hresolved
  cases hresolved with
  | failed urls e => exact fun _ => id
  | present urls v name root content hsettles hfirst => exact fun _ => id
  | stored urls v name address content hsettles hfirst =>
    rw [Host.files_performed, Host.files_asked]
    exact FileTree.keepsDirectories_performAll host.files _

theorem alters_resolve (rs : Repositories) (c : Coordinate) (host : Host) :
    Alters (fun _ => True) (fun l => l.EndsWith partialJarEnding ∨ l.EndsWith jarEnding)
      host.files (rs.resolve c host).2.files := by
  have hresolved := rs.resolved_resolve c host
  generalize rs.resolve c host = run at hresolved
  cases hresolved with
  | failed urls e => exact Alters.refl _ _ _
  | present urls v name root content hsettles hfirst => exact Alters.refl _ _ _
  | stored urls v name address content hsettles hfirst =>
    rw [Host.files_performed, Host.files_asked]
    exact Repository.alters_store host.files rs.cacheDir c v content

end Repositories

end ModuleRig
