import ModuleRig.Proofs.Files.Interruption
import ModuleRig.Proofs.Repository.Places
import ModuleRig.Proofs.Web.Replies

/-!
# What a download does

A jar of a web repository goes by one version on the web, which for a snapshot its own metadata may
name, and by another in the cache directory, which is always the one that was asked for.
`downloads_of_fetch` says what is in the cache directory after a fetch and what has changed, for
each of its ends.
-/

namespace ModuleRig.Repository

open ModuleRig.FileTree (Alters KeepsDirectories)
open ModuleRig.Path (Component IsName)

variable {name address : String} {c : Coordinate} {v : String} {cacheDir : Path} {host : Host}
  {content : Bytes}

/-! ## What is asked for -/

/-- The address of the metadata of a snapshot. -/
def snapshotUrl (address : String) (c : Coordinate) (v : String) : String :=
  versionUrl address c v ++ "/maven-metadata.xml"

/-- The version in the name that a jar has on the web. -/
def remoteVersion (host : Host) (address : String) (c : Coordinate) (v : String) : String :=
  if Version.isSnapshot v then
    ((document? host (snapshotUrl address c v)).bind Metadata.snapshotJarVersion?).getD v
  else v

/-- The address of a jar. -/
def jarUrl (host : Host) (address : String) (c : Coordinate) (v : String) : String :=
  versionUrl address c v ++ "/" ++ c.jarName (remoteVersion host address c v)

theorem fileVersion_ok {w : String} (h : (fileVersion address c v host).1 = .ok w) :
    w = remoteVersion host address c v := by
  unfold fileVersion at h
  unfold remoteVersion
  split
  · next hsnapshot =>
    rw [if_pos hsnapshot] at h
    obtain ⟨document, hpage, hversion⟩ :=
      (onlyAsks_textPage _).of_bind_eq_ok (fun _ => Action.OnlyAsks.pure _) h
    rw [snapshotUrl, textPage_ok hpage]
    exact (Except.ok.inj hversion).symm
  · next hrelease =>
    rw [if_neg hrelease] at h
    exact (Except.ok.inj h).symm

theorem content?_of_download {content? : Option Bytes}
    (h : (download address c v host).1 = .ok content?) :
    host.web.content? (jarUrl host address c v) = .ok content? := by
  obtain ⟨w, hversion, hpage⟩ :=
    (onlyAsks_fileVersion address c v).of_bind_eq_ok (fun _ => onlyAsks_page _) h
  rw [jarUrl, ← fileVersion_ok hversion]
  exact mapError_eq_ok_iff.1 hpage

/-! ## Where it is kept -/

theorem endsWithSlash_artifactDir (h : c.WellFormed) :
    Path.endsWithSlash c.artifactDir.toList = false := by
  have hname := Coordinate.isName_of_isSafeName h.name
  have hne := ((Path.isName_iff c.name).1 hname).1
  have hlast := Path.endsWithSlash_of_not_mem hname.2.2.2
  rw [Path.endsWithSlash] at hlast ⊢
  rwa [Coordinate.artifactDir, String.toList_append, List.getLast?_append_of_ne_nil _ hne]

theorem child_downloadDir (h : c.WellFormed) (hv : IsName v) (cacheDir : Path) {file : String}
    (hfile : (⟨file⟩ : Path).isAbsolute = false) :
    (downloadDir cacheDir c v).child file =
      cacheDir.child ("artifacts/" ++ (c.artifactDir ++ "/" ++ v ++ "/" ++ file)) := by
  have hdir := Path.isAbsolute_of_leading (Coordinate.leading_artifactDir h)
  have hdirne : c.artifactDir.toList ≠ [] := by simp [Coordinate.artifactDir]
  have hvne := ((Path.isName_iff v).1 hv).1
  have hvrelative := Path.isAbsolute_of_not_mem hv.2.2.2
  have hvfile : (⟨v ++ "/" ++ file⟩ : Path).isAbsolute = false := by
    rw [String.append_assoc]
    exact Path.isAbsolute_append hvne _ hvrelative
  have hall : (⟨c.artifactDir ++ "/" ++ (v ++ "/" ++ file)⟩ : Path).isAbsolute = false := by
    rw [String.append_assoc]
    exact Path.isAbsolute_append hdirne _ hdir
  have htext : "artifacts" ++ "/" ++ (c.artifactDir ++ "/" ++ (v ++ "/" ++ file)) =
      "artifacts/" ++ (c.artifactDir ++ "/" ++ v ++ "/" ++ file) := by
    simp only [String.append_assoc]
    rfl
  rw [downloadDir, Path.child_child _ hvne hvrelative (Path.endsWithSlash_of_not_mem hv.2.2.2) hfile,
    Path.child_child _ hdirne hdir (endsWithSlash_artifactDir h) hvfile,
    Path.child_child _ (by decide) (by decide) (by decide) hall, htext]

theorem downloadPath_eq (h : c.WellFormed) (hv : IsName v) (cacheDir : Path) :
    downloadPath cacheDir c v = cacheDir.child ("artifacts/" ++ c.jarText v) := by
  have hjar := Path.isAbsolute_of_not_mem (Coordinate.isName_jarName h hv).2.2.2
  rw [downloadPath, child_downloadDir h hv cacheDir hjar, Coordinate.jarText]

/-- The file that a jar is first written to. -/
def partialPath (cacheDir : Path) (c : Coordinate) (v : String) : Path :=
  cacheDir.child ("artifacts/" ++ c.jarText v ++ ".part")

theorem place_partialPath (h : c.WellFormed) (hv : IsName v) (cacheDir : Path) (start : Location) :
    ((downloadPath cacheDir c v).withExtension "jar.part").place start =
      (partialPath cacheDir c v).place start := by
  have hjar := Coordinate.isName_jarName h hv
  have hpart : IsName (c.jarName v ++ ".part") := by
    apply Path.isName_of_length
    · simp
    · rw [String.toList_append, List.mem_append, not_or]
      exact ⟨hjar.2.2.2, by decide⟩
  have hchild := child_downloadDir h hv cacheDir (Path.isAbsolute_of_not_mem hpart.2.2.2)
  have hstem : Path.stem (c.jarName v).toList = (c.name ++ "-" ++ v).toList := by
    rw [Coordinate.jarName, String.toList_append]
    exact Path.stem_append (by simp) (by decide)
  have hpath : partialPath cacheDir c v =
      (downloadDir cacheDir c v).child (c.jarName v ++ ".part") := by
    rw [hchild, partialPath, Coordinate.jarText]
    simp only [String.append_assoc]
  have hextended : String.ofList ((c.name ++ "-" ++ v).toList ++ '.' :: "jar.part".toList) =
      c.jarName v ++ ".part" := by
    rw [← String.toList_inj, Coordinate.jarName]
    simp
  have hcomponents := Path.components_child_of_isName (downloadDir cacheDir c v) hjar
  rw [hpath, Path.place, Path.place, Path.components_child_of_isName _ hpart, downloadPath,
    Path.components_withExtension hcomponents (by decide) (by decide), hstem, hextended]

/-! ## What is left -/

/-- The location is a directory on the way to the jar of a version. -/
def IsWayTo (cacheDir : Path) (c : Coordinate) (v : String) (start l : Location) : Prop :=
  ∃ dir ∈ (downloadDir cacheDir c v).ancestors, l = dir.place start

/-- What a fetch from a web repository leaves of the files, whatever they were before, by what it
returns. -/
structure Downloads (host : Host) (address : String) (c : Coordinate) (v : String)
    (cacheDir : Path) (result : Except ResolveError (Option Path)) (left : FileTree) : Prop where
  /-- The jar is where it belongs, and holds what the web has under its address. -/
  supplied : ∀ p, result = .ok (some p) →
    p = cacheDir.child ("artifacts/" ++ c.jarText v) ∧
      ∃ content, host.web.Holds (jarUrl host address c v) content ∧ left.read p = .ok content
  /-- The file it was first written to is gone, and nothing else has changed. -/
  tidy : ∀ p, result = .ok (some p) →
    left.node? ((partialPath cacheDir c v).place host.files.workingDirectory) = none ∧
      Alters (IsWayTo cacheDir c v host.files.workingDirectory)
        (fun l => l = (partialPath cacheDir c v).place host.files.workingDirectory ∨
          l = p.place host.files.workingDirectory) host.files left
  missing : result = .ok none → host.web.Lacks (jarUrl host address c v) ∧ left = host.files
  /-- The file where the jar belongs is as before. -/
  failed : ∀ e, result = .error e →
    left.file? ((downloadPath cacheDir c v).place host.files.workingDirectory) =
        host.files.file? ((downloadPath cacheDir c v).place host.files.workingDirectory) ∧
      (∀ content, host.files.read (downloadPath cacheDir c v) = .ok content →
        left.read (downloadPath cacheDir c v) = .ok content) ∧
      Alters (IsWayTo cacheDir c v host.files.workingDirectory)
        (· = (partialPath cacheDir c v).place host.files.workingDirectory) host.files left
  /-- So it is when the jar is being stored and anything stops that before the last operation. -/
  stopped : ∀ content u, host.files.CutShort (storeOperations cacheDir c v content).dropLast u →
    u.file? ((downloadPath cacheDir c v).place host.files.workingDirectory) =
      host.files.file? ((downloadPath cacheDir c v).place host.files.workingDirectory)

theorem jar_of_alters {left : FileTree} (hkeeps : KeepsDirectories host.files left)
    (halters : Alters (IsWayTo cacheDir c v host.files.workingDirectory)
      (· = ((downloadPath cacheDir c v).withExtension "jar.part").place
        host.files.workingDirectory) host.files left) :
    left.file? ((downloadPath cacheDir c v).place host.files.workingDirectory) =
        host.files.file? ((downloadPath cacheDir c v).place host.files.workingDirectory) ∧
      ∀ content, host.files.read (downloadPath cacheDir c v) = .ok content →
        left.read (downloadPath cacheDir c v) = .ok content := by
  have hne := (place_partialPath_ne cacheDir c v host.files.workingDirectory).symm
  refine ⟨halters.file?_eq hne, fun content hread => ?_⟩
  exact FileTree.read_again hkeeps halters.workingDirectory hread (halters.bytesAt?_eq hne)

theorem dropLast_storeOperations (cacheDir : Path) (c : Coordinate) (v : String)
    (content : Bytes) :
    (storeOperations cacheDir c v content).dropLast =
      FileTree.preparation (downloadDir cacheDir c v)
        ((downloadPath cacheDir c v).withExtension "jar.part") content true := by
  rw [storeOperations, FileTree.replacement_eq, List.dropLast_concat]

theorem file?_of_stopped {u : FileTree}
    (h : host.files.CutShort (storeOperations cacheDir c v content).dropLast u) :
    u.file? ((downloadPath cacheDir c v).place host.files.workingDirectory) =
      host.files.file? ((downloadPath cacheDir c v).place host.files.workingDirectory) := by
  rw [dropLast_storeOperations] at h
  exact (jar_of_alters h.keepsDirectories h.alters_preparation).1

theorem downloads_of_unchanged {result : Except ResolveError (Option Path)}
    (hnothing : ∀ p, result ≠ .ok (some p))
    (hlacks : result = .ok none → host.web.Lacks (jarUrl host address c v)) :
    Downloads host address c v cacheDir result host.files where
  supplied p h := absurd h (hnothing p)
  tidy p h := absurd h (hnothing p)
  missing h := ⟨hlacks h, rfl⟩
  failed _ _ := ⟨rfl, fun _ => id, Alters.refl _ _ _⟩
  stopped _ _ := file?_of_stopped

theorem downloads_of_store (hc : c.WellFormed) (hv : IsName v)
    (hholds : host.web.Holds (jarUrl host address c v) content) :
    Downloads host address c v cacheDir ((storeResult host.files cacheDir c v content).map some)
      (host.files.performAll (storeOperations cacheDir c v content)).2 := by
  have hplace := place_partialPath hc hv cacheDir host.files.workingDirectory
  cases hstored : storeResult host.files cacheDir c v content with
  | ok path =>
    obtain ⟨hperform, rfl⟩ := storeResult_ok hstored
    have hread := read_of_storeResult hstored
    have hne := place_partialPath_ne cacheDir c v host.files.workingDirectory
    refine ⟨?_, ?_, nofun, nofun, fun _ _ => file?_of_stopped⟩
    · rintro p ⟨⟩
      exact ⟨downloadPath_eq hc hv cacheDir, content, hholds, hread⟩
    · rintro p ⟨⟩
      rw [← hplace]
      exact ⟨FileTree.node?_partialFile_of_replacement_ok hperform hne,
        FileTree.alters_replacement _ _ _ _ content true⟩
  | error e =>
    obtain ⟨kind, hperform⟩ := storeResult_error hstored
    have halters := FileTree.alters_replacement_of_error hperform
    have hkeeps := FileTree.keepsDirectories_performAll host.files
      (storeOperations cacheDir c v content)
    refine ⟨nofun, nofun, nofun, ?_, fun _ _ => file?_of_stopped⟩
    rintro e' -
    obtain ⟨hfile, hread⟩ := jar_of_alters hkeeps halters
    rw [← hplace]
    exact ⟨hfile, hread, halters⟩

/-- A fetch of a version that is one name puts the whole jar in its place, or has changed nothing,
or has failed and left the old jar. -/
theorem downloads_of_fetch (name address text : String) (c : Coordinate) (v : String)
    (cacheDir : Path) (host : Host) (hparse : Coordinate.parse text = .ok c) (hv : IsName v) :
    Downloads host address c v cacheDir ((web name address).fetch c v cacheDir host).1
      ((web name address).fetch c v cacheDir host).2.files := by
  have hc := Coordinate.wellFormed_of_parse hparse
  obtain ⟨urls, ⟨e, hrun⟩ | ⟨hjar, hrun⟩ | ⟨content, hjar, hrun⟩⟩ :=
    fetch_web name address c v cacheDir host
  · rw [hrun, Host.files_asked]
    exact downloads_of_unchanged nofun nofun
  · rw [hrun, Host.files_asked]
    exact downloads_of_unchanged nofun fun _ => Web.lacks_iff.2 (content?_of_download hjar)
  · rw [hrun]
    simp only [Host.files_performed, Host.files_asked]
    have hholds := Web.holds_iff.2 (content?_of_download hjar)
    exact downloads_of_store hc hv hholds

def snapshotCoordinate : Coordinate := ⟨"a", "b", .exact "1-SNAPSHOT", true⟩

/-- The metadata of a snapshot names its jar, and beside the old jar lies what an earlier download
has left. -/
def snapshotHost : Host :=
  let document := "<snapshotVersion><extension>jar</extension><value>1-7</value></snapshotVersion>"
  { Host.blank with
    files.entries :=
      (["c", "artifacts", "a", "b", "1-SNAPSHOT", "b-1-SNAPSHOT.jar"], .file [9] .plain) ::
      (["c", "artifacts", "a", "b", "1-SNAPSHOT", "b-1-SNAPSHOT.jar.part"], .file [8] .plain) ::
        ["c", "artifacts", "a", "b", "1-SNAPSHOT"].inits.tail.map (·, .directory)
    web := ⟨[("http://r/a/b/1-SNAPSHOT/maven-metadata.xml",
        .answered 200 (Text.Utf8.ofText document) true),
      ("http://r/a/b/1-SNAPSHOT/b-1-7.jar", .answered 200 [1, 2, 3] true)], .refused⟩ }

theorem downloads_of_snapshot :
    Coordinate.parse "a:b:1-SNAPSHOT" = .ok snapshotCoordinate ∧ IsName "1-SNAPSHOT" ∧
    jarUrl snapshotHost "http://r" snapshotCoordinate "1-SNAPSHOT" =
      "http://r/a/b/1-SNAPSHOT/b-1-7.jar" ∧
    let left := ((web "h" "http://r").fetch snapshotCoordinate "1-SNAPSHOT" ⟨"/c"⟩
      snapshotHost).2.files
    left.read ⟨"/c/artifacts/a/b/1-SNAPSHOT/b-1-SNAPSHOT.jar"⟩ = .ok [1, 2, 3] ∧
      left.node? ["c", "artifacts", "a", "b", "1-SNAPSHOT", "b-1-SNAPSHOT.jar.part"] = none := by
  have hparse : Coordinate.parse "a:b:1-SNAPSHOT" = .ok snapshotCoordinate := by decide +kernel
  have hname : IsName "1-SNAPSHOT" := by decide
  have hurl : jarUrl snapshotHost "http://r" snapshotCoordinate "1-SNAPSHOT" =
      "http://r/a/b/1-SNAPSHOT/b-1-7.jar" := by decide +kernel
  have hcontent : snapshotHost.web.content? "http://r/a/b/1-SNAPSHOT/b-1-7.jar" =
      .ok (some [1, 2, 3]) := by decide +kernel
  have hfetch : ((web "h" "http://r").fetch snapshotCoordinate "1-SNAPSHOT" ⟨"/c"⟩
      snapshotHost).1 = .ok (some ⟨"/c/artifacts/a/b/1-SNAPSHOT/b-1-SNAPSHOT.jar"⟩) := by
    decide +kernel
  have hdownloads := downloads_of_fetch "h" "http://r" "a:b:1-SNAPSHOT" snapshotCoordinate
    "1-SNAPSHOT" ⟨"/c"⟩ snapshotHost hparse hname
  obtain ⟨-, content, hholds, hread⟩ := hdownloads.supplied _ hfetch
  rw [hurl, Web.holds_iff, hcontent] at hholds
  obtain rfl := Option.some.inj (Except.ok.inj hholds)
  exact ⟨hparse, hname, hurl, hread, (hdownloads.tidy _ hfetch).1⟩

end ModuleRig.Repository
