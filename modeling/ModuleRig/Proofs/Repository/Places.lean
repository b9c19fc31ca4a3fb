import ModuleRig.Proofs.Repository.Answers
import ModuleRig.Proofs.Repository.Containment

/-!
# Where jars lie

The path of a jar goes through the parts of the group, the name and the version, each a plain name,
so it tells them all. Two versions have their jars in two places, and to download the one does
nothing to the other: `jars_lie_apart`.
-/

namespace ModuleRig

open ModuleRig.FileTree (Alters)
open ModuleRig.Path (Component IsName)

theorem Path.foldl_lead_names (start : Location) (names : List String) :
    (names.map Component.name).foldl Component.lead start = start ++ names := by
  induction names generalizing start with
  | nil => exact (List.append_nil start).symm
  | cons name names ih =>
    rw [List.map_cons, List.foldl_cons, ih, Component.lead, List.append_assoc,
      List.singleton_append]

namespace Coordinate

variable {c c' : Coordinate} {v v' : String}

/-- The path from a root of a repository to the jar of a version. -/
def jarText (c : Coordinate) (v : String) : String :=
  c.artifactDir ++ "/" ++ v ++ "/" ++ c.jarName v

theorem splitText_jarText (h : c.WellFormed) (hv : IsName v) :
    Text.splitText '/' (c.jarText v) = c.jarNames v := by
  have hchars : (c.jarText v).toList =
      c.artifactDir.toList ++ '/' :: (v.toList ++ '/' :: (c.jarName v).toList) := by
    simp [jarText]
  have hdirs := pieces_artifactDir h
  unfold Path.pieces Path.chars at hdirs
  rw [Text.splitText, hchars, Text.splitOn_append, Text.splitOn_append, hdirs,
    Text.splitOn_of_not_mem hv.2.2.2, Text.splitOn_of_not_mem (isName_jarName h hv).2.2.2]
  simp [jarNames, dirNames, Text.splitText]

theorem jarText_eq_iff (h : c.WellFormed) (h' : c'.WellFormed) (hv : IsName v) (hv' : IsName v') :
    c.jarText v = c'.jarText v' ↔ c.group = c'.group ∧ c.name = c'.name ∧ v = v' := by
  constructor
  · intro heq
    apply eq_of_jarNames_eq
    rw [← splitText_jarText h hv, heq, splitText_jarText h' hv']
  · rintro ⟨hgroup, hname, rfl⟩
    rw [jarText, jarText, artifactDir, artifactDir, groupPath, groupPath, jarName, jarName, hgroup,
      hname]

end Coordinate

namespace Repository

variable {c c' : Coordinate} {v v' : String} {cacheDir : Path}

theorem place_downloadPath (h : c.WellFormed) (hv : IsName v) (start : Location) :
    (downloadPath cacheDir c v).place start =
      cacheDir.place start ++ "artifacts" :: c.jarNames v := by
  have hrelative := ((web "" "").keeps_of_isName h hv).1
  have hcomponents := (web "" "").components_jar cacheDir h hrelative
  rw [Coordinate.route_of_isName h hv] at hcomponents
  rw [downloadPath_eq_jar "" "", Path.place_eq_of_components start hcomponents, base, dirs,
    ← Path.foldl_lead_names, Coordinate.jarNames, ← List.cons_append, List.map_append]
  rfl

theorem eq_of_place_downloadPath (h : c.WellFormed) (h' : c'.WellFormed) (hv : IsName v)
    (hv' : IsName v') {start : Location}
    (hplace : (downloadPath cacheDir c v).place start = (downloadPath cacheDir c' v').place start) :
    c.group = c'.group ∧ c.name = c'.name ∧ v = v' := by
  rw [place_downloadPath h hv, place_downloadPath h' hv', List.append_cancel_left_eq] at hplace
  exact Coordinate.eq_of_jarNames_eq (List.cons.inj hplace).2

theorem alters_storeOperations (files : FileTree) (cacheDir : Path) (c : Coordinate) (v : String)
    (content : Bytes) :
    FileTree.Alters (fun _ => True)
      (fun l => l = ((downloadPath cacheDir c v).withExtension "jar.part").place
          files.workingDirectory ∨
        l = (downloadPath cacheDir c v).place files.workingDirectory)
      files (files.performAll (storeOperations cacheDir c v content)).2 :=
  (FileTree.alters_replacement files _ _ _ content true).mono (fun _ _ => trivial) fun _ => id

theorem bytesAt?_storeOperations (h : c.WellFormed) (h' : c'.WellFormed) (hv : IsName v)
    (hv' : IsName v') (hne : ¬(c.group = c'.group ∧ c.name = c'.name ∧ v = v')) (files : FileTree)
    (content : Bytes) :
    (files.performAll (storeOperations cacheDir c v content)).2.bytesAt?
        (downloadPath cacheDir c' v') = files.bytesAt? (downloadPath cacheDir c' v') := by
  apply (alters_storeOperations files cacheDir c v content).bytesAt?_eq
  rintro (hpartial | htarget)
  · exact Path.place_ne_of_endsWith (endsWith_partialPath cacheDir c v)
      (endsWith_downloadPath cacheDir c' v') disparate_jarEnding _ hpartial.symm
  · exact hne (eq_of_place_downloadPath h h' hv hv' htarget.symm)

end Repository

namespace Repositories

variable {c c' : Coordinate} {v v' : String}

theorem eq_of_settles_exact {rs : Repositories} {host : Host} {w : String}
    (hexact : c.selector = .exact v) (h : rs.Settles c host w) : w = v := by
  have haccepts := h.accepts
  rw [hexact] at haccepts
  exact (eq_of_beq haccepts).symm

theorem bytesAt?_resolve (h : c.WellFormed) (h' : c'.WellFormed) (hexact : c.selector = .exact v)
    (hv' : IsName v') (hne : ¬(c.group = c'.group ∧ c.name = c'.name ∧ v = v'))
    (rs : Repositories) (host : Host) :
    (rs.resolve c host).2.files.bytesAt? (Repository.downloadPath rs.cacheDir c' v') =
      host.files.bytesAt? (Repository.downloadPath rs.cacheDir c' v') := by
  rcases rs.files_resolve c host with hsame | ⟨-, -, w, content, -, hsettles, hfiles⟩
  · rw [hsame]
  · obtain rfl := eq_of_settles_exact hexact hsettles
    rw [hfiles]
    exact Repository.bytesAt?_storeOperations h h' (h.version w hexact) hv' hne host.files content

/-- The paths of two versions are safe and differ, and no download changes the jar of another
version. -/
theorem jars_lie_apart (text text' : String) (c c' : Coordinate) (v v' : String)
    (hparse : Coordinate.parse text = .ok c) (hparse' : Coordinate.parse text' = .ok c')
    (hexact : c.selector = .exact v) (hexact' : c'.selector = .exact v') :
    (∀ piece ∈ Text.splitText '/' (c.jarText v), piece ≠ "" ∧ piece ≠ "." ∧ piece ≠ "..") ∧
      (c.jarText v = c'.jarText v' ↔ c.group = c'.group ∧ c.name = c'.name ∧ v = v') ∧
      (c.jarText v ≠ c'.jarText v' → ∀ (rs : Repositories) (host : Host),
        let jar := Repository.downloadPath rs.cacheDir c' v'
        (rs.resolve c host).2.files.bytesAt? jar = host.files.bytesAt? jar ∧
          ∀ content, host.files.read jar = .ok content →
            (rs.resolve c host).2.files.read jar = .ok content) := by
  have h := Coordinate.wellFormed_of_parse hparse
  have h' := Coordinate.wellFormed_of_parse hparse'
  have hv := h.version v hexact
  have hv' := h'.version v' hexact'
  have hsame := Coordinate.jarText_eq_iff h h' hv hv'
  refine ⟨?_, hsame, fun hne rs host => ?_⟩
  · rw [Coordinate.splitText_jarText h hv]
    intro piece hpiece
    obtain ⟨hempty, hdot, hparent, -⟩ := Coordinate.isName_of_mem_jarNames h hv piece hpiece
    exact ⟨hempty, hdot, hparent⟩
  · have hbytes := bytesAt?_resolve h h' hexact hv' (mt hsame.2 hne) rs host
    refine ⟨hbytes, fun content hread => ?_⟩
    exact FileTree.read_again (rs.keepsDirectories_resolve c host)
      (rs.alters_resolve c host).workingDirectory hread hbytes

def hyphenName : Coordinate := ⟨"a", "b-1", .exact "2", false⟩

def hyphenVersion : Coordinate := ⟨"a", "b", .exact "1-2", false⟩

/-- The jar of one version is there, and the web has one for any other. -/
def hyphenHost : Host :=
  { sampleHost "1.0" with
    files.entries :=
      (["c", "artifacts", "a", "b", "1-2", "b-1-2.jar"], .file [9] .plain) ::
        ["c", "artifacts", "a", "b", "1-2"].inits.tail.map (·, .directory) }

theorem jars_lie_apart_of_hyphens :
    hyphenName.jarName "2" = hyphenVersion.jarName "1-2" ∧
      let left := (sampleRepositories.resolve hyphenName hyphenHost).2.files
      (left.read ⟨"/c/artifacts/a/b-1/2/b-1-2.jar"⟩).toOption = some [1, 2, 3] ∧
        left.read ⟨"/c/artifacts/a/b/1-2/b-1-2.jar"⟩ = .ok [9] := by
  have h := jars_lie_apart "a:b-1:2" "a:b:1-2" hyphenName hyphenVersion "2" "1-2" (by rfl) (by rfl)
    rfl rfl
  have hne : hyphenName.jarText "2" ≠ hyphenVersion.jarText "1-2" := by decide
  have hread : hyphenHost.files.read ⟨"/c/artifacts/a/b/1-2/b-1-2.jar"⟩ = .ok [9] := by rfl
  refine ⟨by decide, by decide +kernel, ?_⟩
  exact (h.2.2 hne sampleRepositories hyphenHost).2 [9] hread

end Repositories

end ModuleRig
