import ModuleRig.Proofs.Files.Entries
import ModuleRig.Proofs.Repository.Answers

/-!
# Listed versions are there

A directory repository is asked for its versions by the names in a directory, and for a jar by a
path. Both come to the same (`DirectoriesAgree`): the way to a jar leads through that directory and
from there to the version, so the version is one of the names. A name that starts with a slash is
the exception, as it makes a path of its own. Over directories alone a version that was chosen is
always found, even so.
-/

namespace ModuleRig

open ModuleRig.Action (bind_of_ok)
open ModuleRig.Path (IsName)

/-! ## What a directory lists -/

namespace Repository

variable {files : FileTree} {root : Path} {c : Coordinate} {versions : List String} {v : String}

theorem result_versions_directory (name : String) (root : Path) (c : Coordinate) (host : Host) :
    ((directory name root).versions c host).1 = directoryVersions host.files root c := by
  rw [versions_directory]

theorem system_of_directoryVersions {e : ResolveError}
    (h : directoryVersions files root c = .error e) : ∃ cause, e = .system cause := by
  rw [directoryVersions_eq] at h
  split at h
  · next cause _ =>
    split at h
    · cases h
    · exact ⟨cause, (Except.error.inj h).symm⟩
  · cases h

theorem pairwise_lt_directoryVersions (h : directoryVersions files root c = .ok versions) :
    versions.Pairwise (· < ·) := by
  rcases directoryVersions_cases h with ⟨rfl, -⟩ | ⟨names, hlist, rfl⟩
  · exact List.Pairwise.nil
  · obtain ⟨l, rfl⟩ := FileTree.list_ok hlist
    exact pairwise_lt_mergeSort ((files.nodup_names l).filter _)

theorem isFile_of_mem_directoryVersions (h : directoryVersions files root c = .ok versions)
    (hv : v ∈ versions) : files.isFile (jarPath root c v) = true := by
  rcases directoryVersions_cases h with ⟨rfl, -⟩ | ⟨names, -, rfl⟩
  · cases hv
  · rw [List.mem_mergeSort, List.mem_filter] at hv
    exact hv.2

theorem mem_directoryVersions_iff (hname : (⟨c.name⟩ : Path).isAbsolute = false)
    (h : directoryVersions files root c = .ok versions) (hv : IsName v) :
    v ∈ versions ↔ files.isFile (jarPath root c v) = true := by
  refine ⟨isFile_of_mem_directoryVersions h, fun hfile => ?_⟩
  obtain ⟨content, hread⟩ := (isFile_iff _ _).1 hfile
  obtain ⟨l, hlocate, -⟩ := (FileTree.read_eq_ok_iff _ _ _).1 hread
  have hdir : (root.child c.artifactDir).chars ≠ [] := by
    intro hnil
    have hsuffix := Path.suffix_chars_child root c.artifactDir
    rw [hnil, List.suffix_nil] at hsuffix
    simp [Coordinate.artifactDir] at hsuffix
  obtain ⟨names, hlist, hmem⟩ :=
    FileTree.mem_list_of_locate hdir hv (Coordinate.isAbsolute_jarName hname v) hlocate
  rcases directoryVersions_cases h with ⟨-, e, herror⟩ | ⟨names', hlist', rfl⟩
  · cases hlist.symm.trans herror
  · obtain rfl := Except.ok.inj (hlist.symm.trans hlist')
    rw [List.mem_mergeSort, List.mem_filter]
    exact ⟨hmem, hfile⟩

theorem fetch_directory_isSome_iff (name : String) (cacheDir : Path) (host : Host) :
    (∃ path, ((directory name root).fetch c v cacheDir host).1 = .ok (some path)) ↔
      host.files.isFile (jarPath root c v) = true := by
  rw [fetch_directory]
  cases host.files.isFile (jarPath root c v) with
  | true => exact iff_of_true ⟨_, rfl⟩ rfl
  | false => exact iff_of_false (fun ⟨_, h⟩ => by cases h) Bool.false_ne_true

end Repository

/-! ## Resolving over directories -/

namespace Repositories

variable {rs : Repositories} {c : Coordinate} {host : Host} {v : String}

/-- All repositories are directories. -/
def AllDirectories (repositories : List Repository) : Prop :=
  ∀ r ∈ repositories, ∃ name root, r = .directory name root

theorem supplier_of_directories {repositories : List Repository} {r : Repository} {content : Bytes}
    (hdirectories : AllDirectories repositories) (hr : r ∈ repositories)
    (hbytes : r.jarBytes c v host = .ok (some content)) (cacheDir : Path) :
    ∃ q path, supplier c v cacheDir repositories host = (.ok (some (q, path)), host) ∧
      ∃ content', host.files.read path = .ok content' := by
  induction repositories with
  | nil => cases hr
  | cons q rest ih =>
    obtain ⟨name, root, rfl⟩ := hdirectories q List.mem_cons_self
    rw [supplier_cons]
    rcases Repository.fetch_directory_cases name root c v cacheDir host with
      ⟨hnone, hrun⟩ | ⟨content', hsome, hrun⟩
    all_goals rw [bind_of_ok _ hrun]
    · have hrest : r ∈ rest := by
        rcases List.mem_cons.1 hr with rfl | hrest
        · rw [hnone] at hbytes
          cases hbytes
        · exact hrest
      exact ih (fun q hq => hdirectories q (List.mem_cons_of_mem _ hq)) hrest
    · exact ⟨_, _, rfl, content', Repository.read_of_jarBytes_directory hsome⟩

theorem resolve_of_settles (hdirectories : AllDirectories rs.declared)
    (hdynamic : c.selector.isDynamic = true) (h : rs.Settles c host v) :
    ∃ a, (rs.resolve c host).1 = .ok a := by
  rcases h.cases with hexact | ⟨versions, hlisted, hselect⟩
  · rw [hexact] at hdynamic
    cases hdynamic
  · obtain ⟨r, hr, own, hown, hv⟩ :=
      exists_versions_of_listed hlisted (Version.mem_of_select? hselect).1
    obtain ⟨name, root, rfl⟩ := hdirectories r hr
    rw [Repository.result_versions_directory] at hown
    obtain ⟨urls, hsettle⟩ := (rs.onlyAsks_settle c).run_eq h
    have hbytes : ∃ content,
        (Repository.directory name root).jarBytes c v (host.asked urls) = .ok (some content) := by
      obtain ⟨content, hread⟩ := (Repository.isFile_iff _ _).1
        (Repository.isFile_of_mem_directoryVersions hown hv)
      rw [Repository.jarBytes_asked, Repository.jarBytes, hread]
      exact ⟨content, rfl⟩
    obtain ⟨content, hbytes⟩ := hbytes
    obtain ⟨q, path, hsupply, content', hread⟩ :=
      supplier_of_directories hdirectories hr hbytes rs.cacheDir
    rw [resolve_eq, bind_of_ok _ hsettle, bind_of_ok _ hsupply]
    dsimp only
    rw [artifactAt_eq, artifactAt_of_read q hread]
    exact ⟨_, rfl⟩

theorem error_of_resolve_directories {e : ResolveError} (hdirectories : AllDirectories rs.declared)
    (hdynamic : c.selector.isDynamic = true) (h : (rs.resolve c host).1 = .error e) :
    e = .noMatchingVersion c.text rs.names ∨ ∃ cause, e = .system cause := by
  cases hsettle : (rs.settle c host).1 with
  | ok v =>
    obtain ⟨a, ha⟩ := resolve_of_settles hdirectories hdynamic hsettle
    cases ha.symm.trans h
  | error e' =>
    have hresolve : (rs.resolve c host).1 = .error e' :=
      (rs.onlyAsks_settle c).result_bind_of_error _ hsettle
    obtain rfl := Except.error.inj (hresolve.symm.trans h)
    rcases error_of_settle hsettle with hnothing | ⟨r, hr, herror⟩
    · exact .inl hnothing
    · obtain ⟨name, root, rfl⟩ := hdirectories r hr
      rw [Repository.result_versions_directory] at herror
      exact .inr (Repository.system_of_directoryVersions herror)

/-- Directories list what they have. -/
structure DirectoriesAgree (c : Coordinate) (host : Host) : Prop where
  /-- What is listed is sorted, with each version once, and can be fetched. -/
  listing : ∀ name root versions,
    ((Repository.directory name root).versions c host).1 = .ok versions →
      versions.Pairwise (· < ·) ∧ ∀ v ∈ versions, ∀ cacheDir,
        ∃ path, ((Repository.directory name root).fetch c v cacheDir host).1 = .ok (some path)
  /-- What can be fetched is listed, if the name does not lead to the root. -/
  fetching : (⟨c.name⟩ : Path).isAbsolute = false → ∀ name root versions,
    ((Repository.directory name root).versions c host).1 = .ok versions →
      ∀ v, IsName v → ∀ cacheDir, v ∈ versions ↔
        ∃ path, ((Repository.directory name root).fetch c v cacheDir host).1 = .ok (some path)
  /-- So a version that is chosen from what directories list is found in one of them. -/
  resolution : ∀ rs : Repositories, AllDirectories rs.declared → c.selector.isDynamic = true →
    ∀ text searched, (rs.resolve c host).1 ≠ .error (.notFound text searched)

theorem directories_agree (c : Coordinate) (host : Host) : DirectoriesAgree c host where
  listing := by
    intro name root versions h
    rw [Repository.result_versions_directory] at h
    refine ⟨Repository.pairwise_lt_directoryVersions h, fun v hv cacheDir => ?_⟩
    rw [Repository.fetch_directory_isSome_iff]
    exact Repository.isFile_of_mem_directoryVersions h hv
  fetching := by
    intro hname name root versions h v hv cacheDir
    rw [Repository.result_versions_directory] at h
    rw [Repository.mem_directoryVersions_iff hname h hv, Repository.fetch_directory_isSome_iff]
  resolution := by
    intro rs hdirectories hdynamic text searched h
    rcases error_of_resolve_directories hdirectories hdynamic h with hnothing | ⟨cause, hcause⟩
    · cases hnothing
    · cases hcause

/-- An empty directory of versions, and at the root a file that a name with a slash leads to. -/
def strayHost : Host :=
  { Host.blank with
    files.entries := (["x-1.jar"], .file [1] .plain) ::
      [["d"], ["d", "g"], ["d", "g", "x"]].map fun l => (l, .directory) }

def strayCoordinate : Coordinate := ⟨"g", "/x", .latest, false⟩

/-- A version can be fetched from a directory that does not list it, if the name leads out of it. -/
theorem fetched_and_not_listed_of_stray :
    ((Repository.directory "d" ⟨"/d"⟩).versions strayCoordinate strayHost).1 = .ok [] ∧
    IsName "1" ∧
    ((Repository.directory "d" ⟨"/d"⟩).fetch strayCoordinate "1" ⟨"/c"⟩ strayHost).1 =
      .ok (some ⟨"/x-1.jar"⟩) := by
  decide +kernel

/-- Two jars, and beside them a file, a directory without a jar and one with a directory that is
called like its jar. -/
def assortedHost : Host :=
  { Host.blank with
    files.entries :=
      [(["d", "a", "b", "2"], .file [] .plain),
        (["d", "a", "b", "x y", "b-x y.jar"], .file [1] .plain),
        (["d", "a", "b", "1.0", "b-1.0.jar"], .file [2] .plain)] ++
        [["d"], ["d", "a"], ["d", "a", "b"], ["d", "a", "b", "x y"], ["d", "a", "b", "1.0"],
          ["d", "a", "b", "3"], ["d", "a", "b", "4"], ["d", "a", "b", "4", "b-4.jar"]].map
          fun l => (l, .directory) }

def assortedDirectory : Repository := .directory "d" ⟨"/d"⟩

theorem directories_agree_of_assorted :
    ∃ c versions, Coordinate.parse "a:b:+" = .ok c ∧
      (assortedDirectory.versions c assortedHost).1 = .ok versions ∧
      versions.Pairwise (· < ·) ∧ "1.0" ∈ versions ∧ "x y" ∈ versions ∧
      "2" ∉ versions ∧ "3" ∉ versions ∧ "4" ∉ versions ∧
      ∀ text searched, ((⟨[assortedDirectory], ⟨"/c"⟩⟩ : Repositories).resolve c assortedHost).1 ≠
        .error (.notFound text searched) := by
  have hparse : Coordinate.parse "a:b:+" = .ok ⟨"a", "b", .latest, false⟩ := by rfl
  have hname := (Coordinate.wellFormed_of_parse hparse).isAbsolute_name
  have hagree := directories_agree ⟨"a", "b", .latest, false⟩ assortedHost
  obtain ⟨versions, hversions⟩ :
      ∃ versions, (assortedDirectory.versions ⟨"a", "b", .latest, false⟩ assortedHost).1 =
        .ok versions := exists_of_isOk (by decide +kernel)
  have hsorted := (hagree.listing _ _ _ hversions).1
  have hlisting := hagree.fetching hname _ _ _ hversions
  have hfetched : ∀ v, IsName v → (v ∈ versions ↔
      assortedHost.files.isFile
        (Repository.jarPath ⟨"/d"⟩ ⟨"a", "b", .latest, false⟩ v) = true) := fun v hv =>
    (hlisting v hv ⟨"/c"⟩).trans (Repository.fetch_directory_isSome_iff "d" ⟨"/c"⟩ assortedHost)
  have hall : AllDirectories [assortedDirectory] := by
    intro r hr
    obtain rfl := List.mem_singleton.1 hr
    exact ⟨_, _, rfl⟩
  refine ⟨_, versions, hparse, hversions, hsorted, ?_, ?_, ?_, ?_, ?_, hagree.resolution _ hall rfl⟩
  all_goals
    rw [hfetched _ (by decide)]
    decide +kernel

end Repositories

end ModuleRig
