import ModuleRig.Proofs.Coordinate.Key
import ModuleRig.Proofs.Repository.Listing
import ModuleRig.Proofs.Repository.Twice

/-!
# Repositories away from the cache directory

What a resolution writes can be seen by the next one only on the way to a jar. If the ways to the
jars of all directory repositories go around the cache directory (`GoAround`), then the web and the
directories answer as before, and one coordinate has one answer: `eq_of_resolve_again`.
-/

namespace ModuleRig

open ModuleRig.Action (AsksWeb)
open ModuleRig.Path (IsName)

namespace Path

theorem IsOnTheWay.of_components {p q : Path} {start l : Location} (h : p.IsOnTheWay start l)
    (hcomponents : p.components <+: q.components) : q.IsOnTheWay start l := by
  obtain ⟨above, habove, hl⟩ := h
  exact ⟨above, habove.trans hcomponents, hl⟩

end Path

/-- Nothing but the directory and what is in it has changed, and directories may have been made on
the way to it. -/
abbrev FileTree.ChangesBelow (dir : Path) (files files' : FileTree) : Prop :=
  FileTree.Alters
    (fun l => dir.IsOnTheWay files.workingDirectory l ∨ dir.place files.workingDirectory <+: l)
    (fun l => dir.place files.workingDirectory <+: l) files files'

theorem FileTree.ChangesBelow.trans {dir : Path} {files files' files'' : FileTree}
    (h : ChangesBelow dir files files') (h' : ChangesBelow dir files' files'') :
    ChangesBelow dir files files'' := by
  unfold ChangesBelow at h'
  rw [h.workingDirectory] at h'
  exact Alters.trans h h'

namespace Repository

variable {c c' : Coordinate} {v : String} {host host' : Host} {root : Path}

/-- The two trees are alike on the ways to the jars of a directory. -/
def AlikeOnWays (c : Coordinate) (files files' : FileTree) (root : Path) : Prop :=
  ∀ v, IsName v → ∀ l, (jarPath root c v).IsOnTheWay files.workingDirectory l →
    files'.node? l = files.node? l

variable {files files' : FileTree}

theorem components_versions_prefix_jar (hc : c.WellFormed) (hv : IsName v) (root : Path) :
    (root.child c.artifactDir).components <+: (jarPath root c v).components := by
  have hrelative := ((directory "" root).keeps_of_isName hc hv).1
  have hdir := (directory "" root).components_versionsDir ⟨""⟩ hc
  have hjar := (directory "" root).components_jar ⟨""⟩ hc hrelative
  rw [← List.append_assoc, ← hdir] at hjar
  exact ⟨_, hjar.symm⟩

theorem list_of_alikeOnWays (hc : c.WellFormed)
    (hstart : files'.workingDirectory = files.workingDirectory)
    (h : AlikeOnWays c files files' root) :
    (∃ names names', files.list (root.child c.artifactDir) = .ok names ∧
      files'.list (root.child c.artifactDir) = .ok names') ∨
    files'.list (root.child c.artifactDir) = files.list (root.child c.artifactDir) := by
  have hway : ∀ l, (root.child c.artifactDir).IsOnTheWay files.workingDirectory l →
      files'.node? l = files.node? l := fun l hl =>
    h "1" (by decide) l (hl.of_components (components_versions_prefix_jar hc (by decide) root))
  rw [FileTree.list, FileTree.list, FileTree.locate_congr hstart hway]
  cases hl : files.locate (root.child c.artifactDir) with
  | error kind => exact .inr rfl
  | ok l =>
    dsimp only
    rw [FileTree.requireDirectory_congr (hway l (FileTree.isOnTheWay_of_locate hl))]
    cases files.requireDirectory l with
    | error kind => exact .inr rfl
    | ok _ => exact .inl ⟨_, _, rfl, rfl⟩

theorem mem_directoryVersions_congr (hc : c.WellFormed)
    (hstart : files'.workingDirectory = files.workingDirectory)
    (h : AlikeOnWays c files files' root) {versions versions' : List String}
    (hversions : directoryVersions files root c = .ok versions)
    (hversions' : directoryVersions files' root c = .ok versions') :
    ∀ v, v ∈ versions' ↔ v ∈ versions := by
  have hname := hc.isAbsolute_name
  intro v
  by_cases hv : IsName v
  · rw [mem_directoryVersions_iff hname hversions' hv,
      mem_directoryVersions_iff hname hversions hv, FileTree.isFile_congr hstart (h v hv)]
  · exact iff_of_false (fun hmem => hv (isName_of_directoryVersions hversions' hmem))
      fun hmem => hv (isName_of_directoryVersions hversions hmem)

theorem directoryVersions_again (hc : c.WellFormed)
    (hstart : files'.workingDirectory = files.workingDirectory)
    (h : AlikeOnWays c files files' root) :
    directoryVersions files' root c = directoryVersions files root c := by
  have hlists := list_of_alikeOnWays hc hstart h
  cases hlist : files.list (root.child c.artifactDir) with
  | error e =>
    rw [hlist] at hlists
    rcases hlists with ⟨names, names', hnames, -⟩ | hlist'
    · cases hnames
    · rw [directoryVersions_of_error hlist, directoryVersions_of_error hlist']
  | ok names =>
    have hlist' : ∃ names', files'.list (root.child c.artifactDir) = .ok names' := by
      rcases hlists with ⟨-, names', -, hnames'⟩ | hsame
      · exact ⟨names', hnames'⟩
      · exact ⟨names, hsame.trans hlist⟩
    obtain ⟨names', hlist'⟩ := hlist'
    have hversions := directoryVersions_of_list hlist
    have hversions' := directoryVersions_of_list hlist'
    have hmem := mem_directoryVersions_congr hc hstart h hversions hversions'
    have hsorted := pairwise_lt_directoryVersions hversions
    have hsorted' := pairwise_lt_directoryVersions hversions'
    rw [hversions, hversions', ((List.perm_ext_iff_of_nodup (hsorted'.imp ne_of_lt)
      (hsorted.imp ne_of_lt)).2 hmem).eq_of_pairwise' hsorted' hsorted]

theorem directoryVersions_withChanging (files : FileTree) (root : Path) (c : Coordinate)
    (changing : Bool) :
    directoryVersions files root (c.withChanging changing) = directoryVersions files root c := by
  have hdir : (c.withChanging changing).artifactDir = c.artifactDir := rfl
  have hjar : ∀ v, jarPath root (c.withChanging changing) v = jarPath root c v := fun _ => rfl
  rw [directoryVersions_eq, directoryVersions_eq, hdir]
  simp only [hjar]

theorem asksWeb_versions (name address : String) (c : Coordinate) :
    AsksWeb ((web name address).versions c) := by
  rw [versions_web]
  refine ((asksWeb_page _).bind fun _ => .pure _).bind fun document? => ?_
  cases document? with
  | none => exact .pure _
  | some document => exact .pure _

end Repository

namespace Repositories

variable {rs : Repositories} {c : Coordinate} {host host' : Host} {a a' : Artifact} {v v' : String}
  {changing : Bool}

/-- The two hosts have one web, and the same on the ways to the jars of all directories. -/
structure AlikeFor (rs : Repositories) (c : Coordinate) (host host' : Host) : Prop where
  web : host'.web = host.web
  start : host'.files.workingDirectory = host.files.workingDirectory
  ways : ∀ name root, .directory name root ∈ rs.declared →
    Repository.AlikeOnWays c host.files host'.files root

theorem AlikeFor.versions (h : rs.AlikeFor c host host') (hc : c.WellFormed) {r : Repository}
    (hr : r ∈ rs.declared) :
    (r.versions (c.withChanging changing) host').1 = (r.versions c host).1 := by
  cases r with
  | directory name root =>
    rw [Repository.result_versions_directory, Repository.result_versions_directory,
      Repository.directoryVersions_withChanging,
      Repository.directoryVersions_again hc h.start (h.ways name root hr)]
  | web name address => exact (Repository.asksWeb_versions name address c).web host host' h.web

theorem AlikeFor.jarBytes (h : rs.AlikeFor c host host') (hv : IsName v) {r : Repository}
    (hr : r ∈ rs.declared) :
    r.jarBytes (c.withChanging changing) v host' = r.jarBytes c v host := by
  cases r with
  | directory name root =>
    have hread : host'.files.read (Repository.jarPath root (c.withChanging changing) v) =
        host.files.read (Repository.jarPath root c v) :=
      FileTree.read_congr h.start (h.ways name root hr v hv)
    rw [Repository.jarBytes, Repository.jarBytes, hread]
  | web name address => exact Repository.jarBytes_web_eq h.web rfl rfl

theorem result_listed_congr {c' : Coordinate} {repositories : List Repository}
    (h : ∀ r ∈ repositories, (r.versions c' host').1 = (r.versions c host).1) :
    (listed c' repositories host').1 = (listed c repositories host).1 := by
  induction repositories with
  | nil => rfl
  | cons r rest ih =>
    have hrest := ih fun q hq => h q (List.mem_cons_of_mem r hq)
    have hr := h r List.mem_cons_self
    have hasks : ∀ (c : Coordinate) (own : List String), Action.OnlyAsks (do
        return own ++ (← listed c rest) : Action ResolveError (List String)) :=
      fun c own => (onlyAsks_listed c rest).bind fun _ => Action.OnlyAsks.pure _
    rw [listed_cons, listed_cons]
    cases hown : (r.versions c host).1 with
    | error e =>
      rw [(r.onlyAsks_versions c').result_bind_of_error _ (hr.trans hown),
        (r.onlyAsks_versions c).result_bind_of_error _ hown]
    | ok own =>
      rw [(r.onlyAsks_versions c').result_bind_of_ok (hasks c' own) (hr.trans hown),
        (r.onlyAsks_versions c).result_bind_of_ok (hasks c own) hown]
      cases hothers : (listed c rest host).1 with
      | error e =>
        rw [(onlyAsks_listed c' rest).result_bind_of_error _ (hrest.trans hothers),
          (onlyAsks_listed c rest).result_bind_of_error _ hothers]
      | ok others =>
        have hpure : Action.OnlyAsks (pure (own ++ others) : Action ResolveError (List String)) :=
          .pure _
        exact ((onlyAsks_listed c' rest).result_bind_of_ok
          (f := fun others => pure (own ++ others)) hpure (hrest.trans hothers)).trans
          ((onlyAsks_listed c rest).result_bind_of_ok
            (f := fun others => pure (own ++ others)) hpure hothers).symm

theorem AlikeFor.settles (h : rs.AlikeFor c host host') (hc : c.WellFormed)
    (hv : rs.Settles c host v) (hv' : rs.Settles (c.withChanging changing) host' v') : v' = v := by
  have hlisted : (listed (c.withChanging changing) rs.declared host').1 =
      (listed c rs.declared host).1 := result_listed_congr fun _ hr => h.versions hc hr
  have hselector : (c.withChanging changing).selector = c.selector := rfl
  rcases hv.cases with hexact | ⟨versions, hversions, hselect⟩
  · exact eq_of_settles_exact (hselector.trans hexact) hv'
  · rcases hv'.cases with hexact | ⟨versions', hversions', hselect'⟩
    · exact (eq_of_settles_exact (hselector.symm.trans hexact) hv).symm
    · obtain rfl := Except.ok.inj (hversions'.symm.trans (hlisted.trans hversions))
      exact Option.some.inj (hselect'.symm.trans hselect)

theorem answer_of_resolve (h : (rs.resolve c host).1 = .ok a) :
    ∃ r content, rs.Settles c host a.version ∧
      FirstWith c a.version host rs.declared r content ∧
      a = ⟨c.text, a.version, r.jar rs.cacheDir c a.version, r.name, Digest.ofBytes content⟩ := by
  have hresolved := rs.resolved_resolve c host
  generalize rs.resolve c host = run at hresolved h
  cases hresolved with
  | failed urls e => contradiction
  | present urls v name root content hsettles hfirst =>
    have hread : host.files.read (Repository.jarPath root c v) = .ok content := by
      obtain ⟨before, after, -, -, hbytes⟩ := hfirst
      exact Repository.read_of_jarBytes_directory hbytes
    obtain rfl := Except.ok.inj ((artifactAt_of_read _ hread).symm.trans h)
    exact ⟨_, content, hsettles, hfirst, rfl⟩
  | stored urls v name address content hsettles hfirst =>
    obtain ⟨path, hstored, hartifact⟩ := exists_of_bind_eq_ok h
    have hread := Repository.read_of_storeResult hstored
    obtain ⟨-, rfl⟩ := Repository.storeResult_ok hstored
    obtain rfl := Except.ok.inj ((artifactAt_of_read _ hread).symm.trans hartifact)
    exact ⟨_, content, hsettles, hfirst, rfl⟩

theorem AlikeFor.answer (h : rs.AlikeFor c host host') (hc : c.WellFormed)
    (hname : IsName a.version) (ha : (rs.resolve c host).1 = .ok a)
    (ha' : (rs.resolve (c.withChanging changing) host').1 = .ok a') : a' = a := by
  obtain ⟨r, content, hsettles, hfirst, ha⟩ := answer_of_resolve ha
  obtain ⟨r', content', hsettles', hfirst', ha'⟩ := answer_of_resolve ha'
  have hversion := h.settles hc hsettles hsettles'
  rw [hversion] at hfirst' ha'
  obtain ⟨rfl, rfl⟩ := hfirst.unique hfirst' (h.jarBytes hname hfirst.mem)
    (h.jarBytes hname hfirst'.mem)
  rw [ha', ha]
  rfl

/-! ## Around the cache directory -/

/-- The ways to the jars of all directories lead around the cache directory: not into it, and over
no directory that has to be made for it. -/
def GoAround (rs : Repositories) (files : FileTree) : Prop :=
  ∀ name root, .directory name root ∈ rs.declared → ∀ c : Coordinate, c.WellFormed →
    ∀ v, IsName v → ∀ l, (Repository.jarPath root c v).IsOnTheWay files.workingDirectory l →
      ¬ rs.cacheDir.place files.workingDirectory <+: l ∧
        (rs.cacheDir.IsOnTheWay files.workingDirectory l → files.node? l ≠ none)

theorem GoAround.alikeFor (h : rs.GoAround host.files) (hc : c.WellFormed)
    (hweb : host'.web = host.web)
    (hchanges : FileTree.ChangesBelow rs.cacheDir host.files host'.files) :
    rs.AlikeFor c host host' where
  web := hweb
  start := hchanges.workingDirectory
  ways name root hr v hv l hl := by
    obtain ⟨hbelow, hthere⟩ := h name root hr c hc v hv l hl
    rcases hchanges.node? l with hsame | ⟨hway | hmade, hnone, -⟩ | hwritten
    · exact hsame
    · exact absurd hnone (hthere hway)
    · exact absurd hmade hbelow
    · exact absurd hwritten hbelow

theorem changesBelow_resolve (hc : c.WellFormed) (hname : IsName a.version)
    (h : (rs.resolve c host).1 = .ok a) :
    FileTree.ChangesBelow rs.cacheDir host.files (rs.resolve c host).2.files := by
  refine (confined_of_keeps hc fun v hv r _ => ?_).writes
  obtain rfl := Except.ok.inj ((truthful_of_resolve h).settled.symm.trans hv)
  exact r.keeps_of_isName hc hname

end Repositories

end ModuleRig
