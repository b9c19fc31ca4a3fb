import Mathlib.Control.Monad.Basic
import Mathlib.Data.List.Infix
import ModuleRig.Proofs.Coordinate.Layout
import ModuleRig.Proofs.Files.Entries
import ModuleRig.Proofs.Repository.Passes
import ModuleRig.Proofs.Version.Choice

/-!
# Where a resolution may write

Downloads belong below the cache directory, and jars of a directory repository below its root. A
version becomes a directory on the way there. `containment` says for which versions that goes well:
all that are one name, and so all that do not come out of a metadata document, and of the others
those that never climb above the base of the repository.
-/

namespace ModuleRig

open ModuleRig.Path (Component IsName staysBelow)

namespace Repository

/-- The directory that the jars of a repository belong in. -/
def base (cacheDir : Path) : Repository → Path
  | directory _ root => root
  | web _ _ => cacheDir

/-- The directories between the base and the versions. -/
def dirs (c : Coordinate) : Repository → List String
  | directory _ _ => c.dirNames
  | web _ _ => "artifacts" :: c.dirNames

/-- The directory with all versions of a coordinate. -/
def versionsDir (cacheDir : Path) (c : Coordinate) : Repository → Path
  | directory _ root => root.child c.artifactDir
  | web _ _ => (cacheDir.child "artifacts").child c.artifactDir

/-- The path that a repository gives for a jar. -/
def jar (r : Repository) (cacheDir : Path) (c : Coordinate) (v : String) : Path :=
  ((r.versionsDir cacheDir c).child v).child (c.jarName v)

/-- The version is relative and never leads out of the repository's base. -/
def Keeps (r : Repository) (c : Coordinate) (v : String) : Prop :=
  (⟨v⟩ : Path).isAbsolute = false ∧ staysBelow (r.dirs c).length (c.route v) = true

/-! ## The paths of a repository -/

theorem components_versionsDir (r : Repository) (cacheDir : Path) {c : Coordinate}
    (h : c.WellFormed) :
    (r.versionsDir cacheDir c).components =
      (r.base cacheDir).components ++ (r.dirs c).map .name := by
  have hleading := c.leading_artifactDir h
  have hsteps := c.steps_artifactDir h
  cases r with
  | directory name root => rw [versionsDir, Path.components_child hleading, hsteps, base, dirs]
  | web name address =>
    have hartifacts : (cacheDir.child "artifacts").components =
        cacheDir.components ++ [.name "artifacts"] := Path.components_child rfl
    rw [versionsDir, Path.components_child hleading, hsteps, hartifacts, List.append_assoc, base,
      dirs]
    rfl

theorem chars_versionsDir_ne_nil (r : Repository) (cacheDir : Path) {c : Coordinate}
    (h : c.WellFormed) : (r.versionsDir cacheDir c).chars ≠ [] := by
  intro hchars
  have hcomponents := r.components_versionsDir cacheDir h
  have hname : Component.name c.name ∈ (r.dirs c).map .name := by
    refine List.mem_map_of_mem ?_
    cases r <;> simp [dirs, Coordinate.dirNames]
  rw [Path.components, hchars] at hcomponents
  have hmem := List.mem_append_right (r.base cacheDir).components hname
  rw [← hcomponents] at hmem
  cases hmem

theorem components_versionDir (r : Repository) (cacheDir : Path) {c : Coordinate}
    (h : c.WellFormed) {v : String} (hv : (⟨v⟩ : Path).isAbsolute = false) :
    ((r.versionsDir cacheDir c).child v).components =
      (r.base cacheDir).components ++ ((r.dirs c).map .name ++ (⟨v⟩ : Path).steps) := by
  rw [Path.child, Path.components_join (r.chars_versionsDir_ne_nil cacheDir h) hv,
    r.components_versionsDir cacheDir h, List.append_assoc]

theorem components_jar (r : Repository) (cacheDir : Path) {c : Coordinate} (h : c.WellFormed)
    {v : String} (hv : (⟨v⟩ : Path).isAbsolute = false) :
    (r.jar cacheDir c v).components =
      (r.base cacheDir).components ++ ((r.dirs c).map .name ++ c.route v) := by
  rw [jar, Path.components_child (c.leading_jarName h v), r.components_versionDir cacheDir h hv,
    Coordinate.route, List.append_assoc, List.append_assoc]

theorem isBelow_jar_iff (r : Repository) (cacheDir : Path) {c : Coordinate} (h : c.WellFormed)
    {v : String} (hv : (⟨v⟩ : Path).isAbsolute = false) :
    (r.base cacheDir).IsBelow (r.jar cacheDir c v) ↔ r.Keeps c v := by
  rw [Path.isBelow_iff_of_components (r.components_jar cacheDir h hv), Path.staysBelow_names,
    Nat.zero_add, Keeps, and_iff_right hv]

theorem jar_of_absolute (r : Repository) (cacheDir : Path) (c : Coordinate) {v : String}
    (hv : (⟨v⟩ : Path).isAbsolute = true) :
    r.jar cacheDir c v = (⟨v⟩ : Path).child (c.jarName v) := by
  rw [jar, Path.child_of_absolute hv]

theorem keeps_of_isName (r : Repository) {c : Coordinate} (h : c.WellFormed) {v : String}
    (hv : IsName v) : r.Keeps c v := by
  refine ⟨?_, ?_⟩
  · refine Bool.eq_false_iff.2 fun habsolute => ?_
    have hlong := ((Path.isAbsolute_iff ⟨v⟩).1 habsolute).2
    rw [Path.pieces_of_isName hv, List.length_singleton] at hlong
    exact absurd hlong (by decide)
  · rw [Coordinate.route_of_isName h hv]
    exact Path.staysBelow_of_names _ [v, c.jarName v]

/-! ## Downloads -/

theorem downloadPath_eq_jar (name address : String) (cacheDir : Path) (c : Coordinate)
    (v : String) : downloadPath cacheDir c v = (web name address).jar cacheDir c v :=
  rfl

theorem isBelow_withExtension {base p : Path} {cs : List Component} {s extension : String}
    (h : p.components = base.components ++ (cs ++ [.name s])) (hne : extension.toList ≠ [])
    (hslash : '/' ∉ extension.toList) :
    base.IsBelow (p.withExtension extension) ↔ base.IsBelow p := by
  rw [← List.append_assoc] at h
  have hextended := Path.components_withExtension h hne hslash
  rw [List.append_assoc] at h hextended
  rw [Path.isBelow_iff_of_components h, Path.isBelow_iff_of_components hextended,
    Path.staysBelow_concat_name, Path.staysBelow_concat_name]

theorem storeOperations_below_iff (name address : String) (cacheDir : Path) {c : Coordinate}
    (h : c.WellFormed) {v : String} (hv : (⟨v⟩ : Path).isAbsolute = false) (content : Bytes) :
    (∀ operation ∈ storeOperations cacheDir c v content, ∀ p ∈ operation.paths,
      cacheDir.IsBelow p) ↔ (web name address).Keeps c v := by
  have htarget := (web name address).isBelow_jar_iff cacheDir h hv
  rw [← downloadPath_eq_jar] at htarget
  constructor
  · intro hall
    have hrename : .rename ((downloadPath cacheDir c v).withExtension "jar.part")
        (downloadPath cacheDir c v) ∈ storeOperations cacheDir c v content :=
      List.mem_of_getLast? rfl
    exact htarget.1 (hall _ hrename _ (List.mem_cons_of_mem _ List.mem_cons_self))
  · intro hkeeps
    have hbelow : cacheDir.IsBelow (downloadPath cacheDir c v) := htarget.2 hkeeps
    have hpartial : cacheDir.IsBelow ((downloadPath cacheDir c v).withExtension "jar.part") := by
      obtain ⟨cs, file, hsteps⟩ := c.exists_steps_jarName v
      have hcomponents := (web name address).components_jar cacheDir h hv
      rw [Coordinate.route, hsteps, ← List.append_assoc (⟨v⟩ : Path).steps,
        ← List.append_assoc (List.map _ _)] at hcomponents
      exact (isBelow_withExtension hcomponents (by decide) (by decide)).2 hbelow
    have hdir : cacheDir.IsBelow (downloadDir cacheDir c v) := by
      refine ⟨_, (web name address).components_versionDir cacheDir h hv, ?_⟩
      have := hkeeps.2
      rw [Coordinate.route] at this
      rw [Path.staysBelow_names, Nat.zero_add]
      exact Path.staysBelow_of_append this
    intro operation hoperation p hp
    simp only [storeOperations, FileTree.replacement, if_true, List.cons_append, List.nil_append,
      List.mem_cons, List.not_mem_nil, or_false] at hoperation
    rcases hoperation with rfl | rfl | rfl | rfl | rfl
    · exact List.mem_singleton.1 hp ▸ hdir
    · exact List.mem_singleton.1 hp ▸ hpartial
    · exact List.mem_singleton.1 hp ▸ hpartial
    · exact List.mem_singleton.1 hp ▸ hpartial
    · rcases List.mem_cons.1 hp with rfl | hp
      · exact hpartial
      · exact List.mem_singleton.1 hp ▸ hbelow

/-! ## Where versions come from -/

theorem isName_of_directoryVersions {files : FileTree} {root : Path} {c : Coordinate}
    {versions : List String} {v : String}
    (h : directoryVersions files root c = .ok versions) (hv : v ∈ versions) : IsName v := by
  rcases directoryVersions_cases h with ⟨rfl, -⟩ | ⟨names, hlist, rfl⟩
  · cases hv
  · obtain ⟨l, rfl⟩ := FileTree.list_ok hlist
    rw [List.mem_mergeSort, List.mem_filter] at hv
    exact (FileTree.mem_names_iff.1 hv.1).1

end Repository

namespace Repositories

/-- The version stands in a metadata document of one of the repositories. -/
def ToldByWeb (rs : Repositories) (c : Coordinate) (host : Host) (v : String) : Prop :=
  ∃ name address document, .web name address ∈ rs.declared ∧
    Repository.document? host (Repository.metadataUrl address c) = some document ∧
    v ∈ Metadata.versions document

theorem isName_or_toldByWeb {rs : Repositories} {c : Coordinate} (hc : c.WellFormed) {host : Host}
    {v : String} (h : rs.Settles c host v) :
    IsName v ∨ rs.ToldByWeb c host v := by
  rcases h.cases with hexact | ⟨versions, hlisted, hselect⟩
  · exact .inl (hc.version v hexact)
  · obtain ⟨r, hr, own, hown, hv⟩ :=
      exists_versions_of_listed hlisted (Version.mem_of_select? hselect).1
    cases r with
    | directory name root =>
      rw [Repository.versions_directory] at hown
      dsimp only at hown
      exact .inl (Repository.isName_of_directoryVersions hown hv)
    | web name address =>
      obtain ⟨document, hdocument, hv⟩ := Repository.exists_document_of_versions hown hv
      exact .inr ⟨name, address, document, hr, hdocument, hv⟩

/-! ## Confinement -/

/-- A resolution changes nothing outside of the cache directory, except that it may make the
directories on the way there, and what it answers lies below the cache directory or below a
declared directory. -/
structure Confined (rs : Repositories) (c : Coordinate) (host : Host) : Prop where
  writes : FileTree.Alters
    (fun l => rs.cacheDir.IsOnTheWay host.files.workingDirectory l ∨
      rs.cacheDir.place host.files.workingDirectory <+: l)
    (fun l => rs.cacheDir.place host.files.workingDirectory <+: l)
    host.files (rs.resolve c host).2.files
  answer : ∀ a, (rs.resolve c host).1 = .ok a → rs.cacheDir.IsBelow a.path ∨
    ∃ name root, .directory name root ∈ rs.declared ∧ root.IsBelow a.path

theorem files_resolve (rs : Repositories) (c : Coordinate) (host : Host) :
    (rs.resolve c host).2.files = host.files ∨
      ∃ name address v content, .web name address ∈ rs.declared ∧ rs.Settles c host v ∧
        (rs.resolve c host).2.files =
          (host.files.performAll (Repository.storeOperations rs.cacheDir c v content)).2 := by
  have hresolved := rs.resolved_resolve c host
  generalize rs.resolve c host = run at hresolved
  cases hresolved with
  | failed urls e => exact .inl rfl
  | present urls v name root content hsettles hfirst => exact .inl rfl
  | stored urls v name address content hsettles hfirst =>
    refine .inr ⟨name, address, v, content, hfirst.mem, hsettles, ?_⟩
    simp only [Host.files_performed, Host.files_asked]

theorem path_of_resolve {rs : Repositories} {c : Coordinate} {host : Host} {a : Artifact}
    (h : (rs.resolve c host).1 = .ok a) :
    ∃ r ∈ rs.declared, ∃ v, rs.Settles c host v ∧ a.path = r.jar rs.cacheDir c v := by
  have hresolved := rs.resolved_resolve c host
  generalize rs.resolve c host = run at hresolved h
  cases hresolved with
  | failed urls e => cases h
  | present urls v name root content hsettles hfirst =>
    obtain ⟨sha256, -, rfl⟩ := artifactAt_ok h
    exact ⟨_, hfirst.mem, v, hsettles, rfl⟩
  | stored urls v name address content hsettles hfirst =>
    obtain ⟨path, hpath, hartifact⟩ := exists_of_bind_eq_ok h
    obtain ⟨sha256, -, rfl⟩ := artifactAt_ok hartifact
    exact ⟨_, hfirst.mem, v, hsettles, (Repository.storeResult_ok hpath).2⟩

theorem confined_of_keeps {rs : Repositories} {c : Coordinate} (hc : c.WellFormed) {host : Host}
    (hkeeps : ∀ v, rs.Settles c host v → ∀ r ∈ rs.declared, r.Keeps c v) : rs.Confined c host where
  writes := by
    rcases rs.files_resolve c host with hsame | ⟨name, address, v, content, hmem, hv, hfiles⟩
    · rw [hsame]
      exact FileTree.Alters.refl _ _ _
    · rw [hfiles]
      have hkept := hkeeps v hv _ hmem
      exact FileTree.alters_performAll_below
        ((Repository.storeOperations_below_iff name address rs.cacheDir hc hkept.1 content).2 hkept)
  answer := by
    intro a ha
    obtain ⟨r, hr, v, hv, hpath⟩ := path_of_resolve ha
    have hkept := hkeeps v hv r hr
    have hbelow := (r.isBelow_jar_iff rs.cacheDir hc hkept.1).2 hkept
    rw [hpath]
    cases r with
    | directory name root => exact .inr ⟨name, root, hr, hbelow⟩
    | web name address => exact .inl hbelow

/-- What the version decides about where a resolution writes and where its answer lies. -/
structure Containment (rs : Repositories) (c : Coordinate) (host : Host) : Prop where
  /-- All is in its place when the repositories keep the version. -/
  confined : (∀ v, rs.Settles c host v → ∀ r ∈ rs.declared, r.Keeps c v) → rs.Confined c host
  /-- They keep every version but those that a metadata document told of. -/
  keeps : ∀ v, rs.Settles c host v → ¬ rs.ToldByWeb c host v → ∀ r : Repository, r.Keeps c v
  /-- A relative version that is not kept leads the answer out of its repository's base, and an
  absolute one takes the place of the base. -/
  answer : ∀ a, (rs.resolve c host).1 = .ok a →
    ∃ r ∈ rs.declared, ∃ v, rs.Settles c host v ∧ a.path = r.jar rs.cacheDir c v ∧
      ((⟨v⟩ : Path).isAbsolute = false → ((r.base rs.cacheDir).IsBelow a.path ↔ r.Keeps c v)) ∧
      ((⟨v⟩ : Path).isAbsolute = true → a.path = (⟨v⟩ : Path).child (c.jarName v))
  /-- What a download touches lies below the cache directory just as long as the version is kept. -/
  download : (rs.resolve c host).2.files = host.files ∨
    ∃ name address v content, .web name address ∈ rs.declared ∧ rs.Settles c host v ∧
      (rs.resolve c host).2.files =
        (host.files.performAll (Repository.storeOperations rs.cacheDir c v content)).2 ∧
      ((⟨v⟩ : Path).isAbsolute = false →
        ((∀ operation ∈ Repository.storeOperations rs.cacheDir c v content,
          ∀ p ∈ operation.paths, rs.cacheDir.IsBelow p) ↔
            (Repository.web name address).Keeps c v))

/-- A resolution of a coordinate that was read writes and answers where it should exactly as far as
the repositories keep the version, which only a metadata document can prevent. -/
theorem containment (rs : Repositories) (text : String) (c : Coordinate) (host : Host)
    (hparse : Coordinate.parse text = .ok c) : rs.Containment c host := by
  have hc := Coordinate.wellFormed_of_parse hparse
  refine ⟨confined_of_keeps hc, ?_, ?_, ?_⟩
  · intro v hv htold r
    exact r.keeps_of_isName hc ((isName_or_toldByWeb hc hv).resolve_right htold)
  · intro a ha
    obtain ⟨r, hr, v, hv, hpath⟩ := path_of_resolve ha
    refine ⟨r, hr, v, hv, hpath, ?_, ?_⟩
    · intro hrelative
      rw [hpath]
      exact r.isBelow_jar_iff rs.cacheDir hc hrelative
    · intro habsolute
      rw [hpath]
      exact r.jar_of_absolute rs.cacheDir c habsolute
  · rcases rs.files_resolve c host with hsame | ⟨name, address, v, content, hmem, hv, hfiles⟩
    · exact .inl hsame
    · refine .inr ⟨name, address, v, content, hmem, hv, hfiles, fun hrelative => ?_⟩
      exact Repository.storeOperations_below_iff name address rs.cacheDir hc hrelative content

/-! ## A version that leads astray -/

/-- A web repository whose metadata document lists one version, and an empty tree. -/
def sampleRepositories : Repositories :=
  ⟨[.web "h" "http://r"], ⟨"/c"⟩⟩

def sampleCoordinate : Coordinate := ⟨"a", "b", .latest, false⟩

def sampleHost (version : String) : Host :=
  let document := Text.Utf8.ofText ("<version>" ++ version ++ "</version>")
  { Host.blank with
    web := ⟨[("http://r/a/b/maven-metadata.xml", .answered 200 document true)],
      .answered 200 [1, 2, 3] true⟩ }

theorem containment_of_plain_version :
    Coordinate.parse "a:b:+" = .ok sampleCoordinate ∧
    sampleRepositories.Settles sampleCoordinate (sampleHost "1.0") "1.0" ∧
    sampleRepositories.Confined sampleCoordinate (sampleHost "1.0") := by
  have hparse : Coordinate.parse "a:b:+" = .ok sampleCoordinate := by decide +kernel
  have hsettles : sampleRepositories.Settles sampleCoordinate (sampleHost "1.0") "1.0" := by
    unfold Settles
    decide +kernel
  refine ⟨hparse, hsettles, ?_⟩
  refine (containment sampleRepositories "a:b:+" sampleCoordinate (sampleHost "1.0")
    hparse).confined fun v hv r _ => ?_
  obtain rfl : v = "1.0" := Except.ok.inj (hv.symm.trans hsettles)
  exact r.keeps_of_isName (Coordinate.wellFormed_of_parse hparse) (by decide)

/-- No check keeps a resolution in its place: a version in a metadata document can lead out of the
cache directory. -/
theorem not_confined_of_told_version :
    ¬ ∀ (rs : Repositories) (text : String) (c : Coordinate) (host : Host),
      Coordinate.parse text = .ok c → rs.Confined c host := by
  intro hall
  have hconfined := hall sampleRepositories "a:b:+" sampleCoordinate
    (sampleHost "/x") (by decide +kernel)
  have hbefore : ((sampleHost "/x").files.node? ["x"]).isSome = false := by
    decide +kernel
  have hafter : ((sampleRepositories.resolve sampleCoordinate
      (sampleHost "/x")).2.files.node? ["x"]).isSome = true := by
    decide +kernel
  have hplace : sampleRepositories.cacheDir.place
      (sampleHost "/x").files.workingDirectory = ["c"] := by
    decide +kernel
  have hbelow : ¬ ["c"] <+: ["x"] := by decide
  -- The new directory is neither below the cache directory nor on the way to it.
  rcases hconfined.writes.node? ["x"] with hsame | ⟨hmade, -⟩ | hwritten
  · rw [hsame, hbefore] at hafter
    contradiction
  · rw [hplace] at hmade
    rcases hmade with ⟨above, habove, hlead⟩ | hmade
    · rw [← List.mem_inits] at habove
      have : ∀ above ∈ sampleRepositories.cacheDir.components.inits,
          ["x"] ≠ above.foldl Component.lead [] := by
        decide +kernel
      exact this above habove hlead
    · exact hbelow hmade
  · rw [hplace] at hwritten
    exact hbelow hwritten

end Repositories

end ModuleRig
