import ModuleRig.Proofs.Basic
import ModuleRig.Proofs.Host.Steps
import ModuleRig.Repository.Resolver

/-!
# The two passes of a resolution

The first pass only asks. The second asks one repository after the other and stops at the first that
has the jar, and it writes only when that one is on the web. `Supplied` and `Resolved` list the
ways in which they can end, with all that they leave.
-/

namespace ModuleRig

open ModuleRig.Action (OnlyAsks bind_of_ok bind_of_error)

/-- The host after some operations on its files, up to the first that failed. -/
def Host.performed (host : Host) (operations : List FileTree.Operation) : Host :=
  { host with files := (host.files.performAll operations).2 }

@[simp] theorem Host.files_performed (host : Host) (operations : List FileTree.Operation) :
    (host.performed operations).files = (host.files.performAll operations).2 :=
  rfl

theorem Action.performOn_reliable (operations : List FileTree.Operation) (host : Host) :
    performOn .reliable operations host =
      ((host.files.performAll operations).1.mapError .ofKind, host.performed operations) := by
  unfold performOn Host.performed
  rw [FileTree.Disk.performAll_reliable]

theorem Host.performed_asked (host : Host) (urls : List String)
    (operations : List FileTree.Operation) :
    (host.asked urls).performed operations = (host.performed operations).asked urls :=
  rfl

namespace Repository

/-! ## What repositories list -/

theorem onlyAsks_page (url : String) : OnlyAsks (page url) :=
  (OnlyAsks.request url).mapError _

theorem onlyAsks_textPage (url : String) : OnlyAsks (textPage url) :=
  (onlyAsks_page url).bind fun _ => OnlyAsks.pure _

theorem onlyAsks_listing (document? : Option String) :
    OnlyAsks (match document? with
      | none => return []
      | some document => return Metadata.versions document :
        Action ResolveError (List String)) := by
  cases document? with
  | none => exact OnlyAsks.pure _
  | some document => exact OnlyAsks.pure _

theorem onlyAsks_versionsOn (disk : FileTree.Disk) (r : Repository) (c : Coordinate) :
    OnlyAsks (r.versionsOn disk c) := by
  cases r with
  | directory name root => exact OnlyAsks.ofReading fun _ _ => rfl
  | web name address =>
    exact (onlyAsks_textPage _).bind onlyAsks_listing

theorem onlyAsks_versions (r : Repository) (c : Coordinate) : OnlyAsks (r.versions c) :=
  r.onlyAsks_versionsOn .reliable c

theorem onlyAsks_fileVersion (address : String) (c : Coordinate) (version : String) :
    OnlyAsks (fileVersion address c version) := by
  unfold fileVersion
  split
  · exact (onlyAsks_textPage _).bind fun _ => OnlyAsks.pure _
  · exact OnlyAsks.pure _

/-- The page that the host's web has under an address, read as text. -/
def document? (host : Host) (url : String) : Option String :=
  match host.web.content? url with
  | .ok (some content) => some (Text.Utf8.textLossy content)
  | _ => none

theorem versions_directory (name : String) (root : Path) (c : Coordinate) (host : Host) :
    (directory name root).versions c host = (directoryVersions host.files root c, host) :=
  rfl

theorem versions_web (name address : String) (c : Coordinate) :
    (web name address).versions c = (do
      match ← textPage (metadataUrl address c) with
      | none => return []
      | some document => return Metadata.versions document) :=
  rfl

theorem directoryVersions_eq (files : FileTree) (root : Path) (c : Coordinate) :
    directoryVersions files root c =
      match files.list (root.child c.artifactDir) with
      | .error e => if e.kind = .notFound then .ok [] else .error (.system e)
      | .ok names =>
        .ok ((names.filter fun v => files.isFile (jarPath root c v)).mergeSort
          fun v w => decide (v ≤ w)) := by
  rw [directoryVersions, directoryVersionsOn, FileTree.Disk.list_reliable]
  cases files.list (root.child c.artifactDir) with
  | error e => rfl
  | ok names => rfl

theorem directoryVersions_of_error {files : FileTree} {root : Path} {c : Coordinate}
    {e : SystemError} (h : files.list (root.child c.artifactDir) = .error e) :
    directoryVersions files root c = if e.kind = .notFound then .ok [] else .error (.system e) := by
  rw [directoryVersions_eq, h]

theorem directoryVersions_of_list {files : FileTree} {root : Path} {c : Coordinate}
    {names : List String} (h : files.list (root.child c.artifactDir) = .ok names) :
    directoryVersions files root c =
      .ok ((names.filter fun v => files.isFile (jarPath root c v)).mergeSort
        fun v w => decide (v ≤ w)) := by
  rw [directoryVersions_eq, h]

theorem directoryVersions_cases {files : FileTree} {root : Path} {c : Coordinate}
    {versions : List String} (h : directoryVersions files root c = .ok versions) :
    versions = [] ∧ (∃ e, files.list (root.child c.artifactDir) = .error e) ∨
    ∃ names, files.list (root.child c.artifactDir) = .ok names ∧
      versions = (names.filter fun v => files.isFile (jarPath root c v)).mergeSort
        fun v w => decide (v ≤ w) := by
  cases hlist : files.list (root.child c.artifactDir) with
  | error e =>
    rw [directoryVersions_of_error hlist] at h
    split at h
    · exact .inl ⟨(Except.ok.inj h).symm, e, rfl⟩
    · cases h
  | ok names =>
    rw [directoryVersions_of_list hlist] at h
    exact .inr ⟨names, rfl, (Except.ok.inj h).symm⟩

theorem textPage_ok {url : String} {host : Host} {text? : Option String}
    (h : (textPage url host).1 = .ok text?) : document? host url = text? := by
  obtain ⟨content?, hpage, htext⟩ := (onlyAsks_page url).of_bind_eq_ok (fun _ => OnlyAsks.pure _) h
  obtain rfl := Except.ok.inj htext
  have hcontent : host.web.content? url = .ok content? := mapError_eq_ok_iff.1 hpage
  rw [document?, hcontent]
  cases content? <;> rfl

theorem exists_document_of_versions {name address : String} {c : Coordinate} {host : Host}
    {versions : List String} {v : String}
    (h : ((web name address).versions c host).1 = .ok versions) (hv : v ∈ versions) :
    ∃ document, document? host (metadataUrl address c) = some document ∧
      v ∈ Metadata.versions document := by
  rw [versions_web] at h
  obtain ⟨text?, hpage, hlisting⟩ := (onlyAsks_textPage _).of_bind_eq_ok onlyAsks_listing h
  cases text? with
  | none =>
    obtain rfl := Except.ok.inj hlisting
    cases hv
  | some document =>
    obtain rfl := Except.ok.inj hlisting
    exact ⟨document, textPage_ok hpage, hv⟩

/-! ## What fetching a jar does -/

theorem fetch_directory (name : String) (root : Path) (c : Coordinate) (v : String)
    (cacheDir : Path) (host : Host) :
    (directory name root).fetch c v cacheDir host =
      (.ok (if host.files.isFile (jarPath root c v) then some (jarPath root c v) else none),
        host) := by
  have hfetch : (directory name root).fetch c v cacheDir host =
      (.ok (if FileTree.Disk.reliable.isFile host.files (jarPath root c v) then
        some (jarPath root c v) else none), host) := rfl
  rw [hfetch, FileTree.Disk.isFile_reliable]

/-- The result of storing a jar. -/
def storeResult (files : FileTree) (cacheDir : Path) (c : Coordinate) (v : String)
    (content : Bytes) : Except ResolveError Path :=
  match (files.performAll (storeOperations cacheDir c v content)).1 with
  | .ok () => .ok (downloadPath cacheDir c v)
  | .error kind => .error (.system (.ofKind kind))

theorem storeResult_ok {files : FileTree} {cacheDir path : Path} {c : Coordinate} {v : String}
    {content : Bytes} (h : storeResult files cacheDir c v content = .ok path) :
    (files.performAll (storeOperations cacheDir c v content)).1 = .ok () ∧
      path = downloadPath cacheDir c v := by
  unfold storeResult at h
  split at h
  · next hperform => exact ⟨hperform, (Except.ok.inj h).symm⟩
  · cases h

theorem storeResult_error {files : FileTree} {cacheDir : Path} {c : Coordinate} {v : String}
    {content : Bytes} {e : ResolveError} (h : storeResult files cacheDir c v content = .error e) :
    ∃ kind, (files.performAll (storeOperations cacheDir c v content)).1 = .error kind := by
  unfold storeResult at h
  split at h
  · cases h
  · next kind hperform => exact ⟨kind, hperform⟩

theorem mapError_performOn_reliable (host : Host) (operations : List FileTree.Operation) :
    ((Action.performOn .reliable operations).mapError ResolveError.system) host =
      (((host.files.performAll operations).1.mapError .ofKind).mapError .system,
        host.performed operations) := by
  rw [Action.mapError, Action.performOn_reliable]

/-- The jar of a version, as the web has it. -/
def download (address : String) (c : Coordinate) (v : String) :
    Action ResolveError (Option Bytes) := do
  let fileVersion ← fileVersion address c v
  page (versionUrl address c v ++ "/" ++ c.jarName fileVersion)

theorem onlyAsks_download (address : String) (c : Coordinate) (v : String) :
    OnlyAsks (download address c v) :=
  (onlyAsks_fileVersion address c v).bind fun _ => onlyAsks_page _

/-- What a repository would supply as the jar of a version. -/
def jarBytes (r : Repository) (c : Coordinate) (v : String) (host : Host) :
    Except ResolveError (Option Bytes) :=
  match r with
  | directory _ root => .ok (host.files.read (jarPath root c v)).toOption
  | web _ address => (download address c v host).1

theorem jarBytes_asked (r : Repository) (c : Coordinate) (v : String) (host : Host)
    (urls : List String) : r.jarBytes c v (host.asked urls) = r.jarBytes c v host := by
  cases r with
  | directory name root => rfl
  | web name address => exact (onlyAsks_download address c v).result host urls

/-- What is made of a jar that was downloaded, if there was one. -/
def keepOn (disk : FileTree.Disk) (cacheDir : Path) (c : Coordinate) (v : String) :
    Option Bytes → Action ResolveError (Option Path)
  | none => return none
  | some content => do
    (Action.performOn disk (storeOperations cacheDir c v content)).mapError .system
    return some (downloadPath cacheDir c v)

theorem keepOn_some (disk : FileTree.Disk) (cacheDir : Path) (c : Coordinate) (v : String)
    (content : Bytes) :
    keepOn disk cacheDir c v (some content) = (do
      (Action.performOn disk (storeOperations cacheDir c v content)).mapError .system
      return some (downloadPath cacheDir c v)) :=
  rfl

theorem fetchOn_web_eq (disk : FileTree.Disk) (name address : String) (c : Coordinate)
    (v : String) (cacheDir : Path) :
    (web name address).fetchOn disk c v cacheDir =
      download address c v >>= keepOn disk cacheDir c v := by
  rw [fetchOn, download, bind_assoc]
  rfl

theorem keepOn_reliable_some (cacheDir : Path) (c : Coordinate) (v : String) (content : Bytes)
    (host : Host) :
    keepOn .reliable cacheDir c v (some content) host =
      ((storeResult host.files cacheDir c v content).map some,
        host.performed (storeOperations cacheDir c v content)) := by
  have hperform := mapError_performOn_reliable host (storeOperations cacheDir c v content)
  rw [keepOn_some]
  unfold storeResult
  cases hstored : (host.files.performAll (storeOperations cacheDir c v content)).1 with
  | error kind =>
    rw [hstored] at hperform
    rw [bind_of_error _ hperform]
    rfl
  | ok _ =>
    rw [hstored] at hperform
    rw [bind_of_ok _ hperform]
    rfl

theorem fetchOn_web (disk : FileTree.Disk) (name address : String) (c : Coordinate) (v : String)
    (cacheDir : Path) (host : Host) :
    ∃ urls, (∃ e, (web name address).fetchOn disk c v cacheDir host =
        (.error e, host.asked urls)) ∨
      ((web name address).jarBytes c v host = .ok none ∧
        (web name address).fetchOn disk c v cacheDir host = (.ok none, host.asked urls)) ∨
      ∃ content, (web name address).jarBytes c v host = .ok (some content) ∧
        (web name address).fetchOn disk c v cacheDir host =
          keepOn disk cacheDir c v (some content) (host.asked urls) := by
  rw [fetchOn_web_eq, jarBytes]
  cases hresult : (download address c v host).1 with
  | error e =>
    obtain ⟨urls, hrun⟩ := (onlyAsks_download address c v).run_eq hresult
    exact ⟨urls, .inl ⟨e, bind_of_error _ hrun⟩⟩
  | ok content? =>
    obtain ⟨urls, hrun⟩ := (onlyAsks_download address c v).run_eq hresult
    rw [bind_of_ok _ hrun]
    cases content? with
    | none => exact ⟨urls, .inr (.inl ⟨rfl, rfl⟩)⟩
    | some content => exact ⟨urls, .inr (.inr ⟨content, rfl, rfl⟩)⟩

theorem fetch_web (name address : String) (c : Coordinate) (v : String) (cacheDir : Path)
    (host : Host) :
    ∃ urls, (∃ e, (web name address).fetch c v cacheDir host = (.error e, host.asked urls)) ∨
      ((web name address).jarBytes c v host = .ok none ∧
        (web name address).fetch c v cacheDir host = (.ok none, host.asked urls)) ∨
      ∃ content, (web name address).jarBytes c v host = .ok (some content) ∧
        (web name address).fetch c v cacheDir host =
          ((storeResult host.files cacheDir c v content).map some,
            (host.asked urls).performed (storeOperations cacheDir c v content)) := by
  have hfetch := fetchOn_web .reliable name address c v cacheDir host
  simp only [keepOn_reliable_some, Host.files_asked] at hfetch
  exact hfetch

theorem isFile_iff (files : FileTree) (p : Path) :
    files.isFile p = true ↔ ∃ content, files.read p = .ok content := by
  unfold FileTree.isFile FileTree.nodeAt? FileTree.read
  cases files.locate p with
  | error kind => simp
  | ok l =>
    cases hnode : files.node? l with
    | none => simp [hnode]
    | some node => cases node <;> simp [hnode]

theorem fetch_directory_cases (name : String) (root : Path) (c : Coordinate) (v : String)
    (cacheDir : Path) (host : Host) :
    ((directory name root).jarBytes c v host = .ok none ∧
      (directory name root).fetch c v cacheDir host = (.ok none, host)) ∨
    ∃ content, (directory name root).jarBytes c v host = .ok (some content) ∧
      (directory name root).fetch c v cacheDir host = (.ok (some (jarPath root c v)), host) := by
  rw [fetch_directory, jarBytes]
  cases hfile : host.files.isFile (jarPath root c v) with
  | true =>
    obtain ⟨content, hread⟩ := (isFile_iff _ _).1 hfile
    exact .inr ⟨content, by rw [hread]; rfl, rfl⟩
  | false =>
    left
    refine ⟨?_, rfl⟩
    cases hread : host.files.read (jarPath root c v) with
    | error e => rfl
    | ok content =>
      rw [(isFile_iff _ _).2 ⟨content, hread⟩] at hfile
      contradiction

end Repository

namespace Repositories

/-! ## The first pass -/

theorem onlyAsks_listedOn (disk : FileTree.Disk) (c : Coordinate) (rs : List Repository) :
    OnlyAsks (listedOn disk c rs) := by
  induction rs with
  | nil => exact OnlyAsks.pure _
  | cons r rest ih =>
    exact (r.onlyAsks_versionsOn disk c).bind fun _ => ih.bind fun _ => OnlyAsks.pure _

theorem onlyAsks_listed (c : Coordinate) (rs : List Repository) : OnlyAsks (listed c rs) :=
  onlyAsks_listedOn .reliable c rs

theorem listed_cons (c : Coordinate) (r : Repository) (rest : List Repository) :
    listed c (r :: rest) = (do
      let versions ← r.versions c
      return versions ++ (← listed c rest)) :=
  rfl

theorem exists_versions_of_listed {c : Coordinate} {rs : List Repository} {host : Host}
    {versions : List String} {v : String} (h : (listed c rs host).1 = .ok versions)
    (hv : v ∈ versions) :
    ∃ r ∈ rs, ∃ own, (r.versions c host).1 = .ok own ∧ v ∈ own := by
  induction rs generalizing versions with
  | nil =>
    obtain rfl := Except.ok.inj h
    cases hv
  | cons r rest ih =>
    have hrest := onlyAsks_listed c rest
    obtain ⟨own, hown, h⟩ := (r.onlyAsks_versions c).of_bind_eq_ok
      (fun _ => hrest.bind fun _ => OnlyAsks.pure _) h
    obtain ⟨others, hothers, h⟩ := hrest.of_bind_eq_ok (fun _ => OnlyAsks.pure _) h
    obtain rfl := Except.ok.inj h
    rcases List.mem_append.1 hv with hv | hv
    · exact ⟨r, List.mem_cons_self, own, hown, hv⟩
    · obtain ⟨r', hr', hlists⟩ := ih hothers hv
      exact ⟨r', List.mem_cons_of_mem r hr', hlists⟩

theorem exists_error_of_listed {c : Coordinate} {rs : List Repository} {host : Host}
    {e : ResolveError} (h : (listed c rs host).1 = .error e) :
    ∃ r ∈ rs, (r.versions c host).1 = .error e := by
  induction rs with
  | nil => cases h
  | cons r rest ih =>
    have hrest := onlyAsks_listed c rest
    rcases (r.onlyAsks_versions c).of_bind_eq_error
      (fun _ => hrest.bind fun _ => OnlyAsks.pure _) h with herror | ⟨own, -, h⟩
    · exact ⟨r, List.mem_cons_self, herror⟩
    · rcases hrest.of_bind_eq_error (fun _ => OnlyAsks.pure _) h with herror | ⟨others, -, h⟩
      · obtain ⟨r', hr', herror'⟩ := ih herror
        exact ⟨r', List.mem_cons_of_mem r hr', herror'⟩
      · cases h

def Settles (rs : Repositories) (c : Coordinate) (host : Host) (v : String) : Prop :=
  (rs.settle c host).1 = .ok v

/-- The choice among the listed versions. -/
def choose (rs : Repositories) (c : Coordinate) (versions : List String) :
    Action ResolveError String :=
  match c.selector.select? versions with
  | some v => return v
  | none => throw (.noMatchingVersion c.text rs.names)

theorem onlyAsks_choose (rs : Repositories) (c : Coordinate) (versions : List String) :
    OnlyAsks (rs.choose c versions) := by
  unfold choose
  split
  · exact OnlyAsks.pure _
  · exact OnlyAsks.throw _

theorem settleOn_cases (disk : FileTree.Disk) (rs : Repositories) (c : Coordinate) :
    (∃ v, c.selector = .exact v ∧ rs.settleOn disk c = pure v) ∨
      rs.settleOn disk c = listedOn disk c rs.declared >>= rs.choose c := by
  unfold settleOn choose
  cases c.selector with
  | exact v => exact .inl ⟨v, rfl, rfl⟩
  | latest => exact .inr rfl
  | stem text => exact .inr rfl

theorem settle_cases (rs : Repositories) (c : Coordinate) :
    (∃ v, c.selector = .exact v ∧ rs.settle c = pure v) ∨
      rs.settle c = listed c rs.declared >>= rs.choose c :=
  rs.settleOn_cases .reliable c

theorem onlyAsks_settleOn (disk : FileTree.Disk) (rs : Repositories) (c : Coordinate) :
    OnlyAsks (rs.settleOn disk c) := by
  rcases rs.settleOn_cases disk c with ⟨v, -, hsettle⟩ | hsettle
  · rw [hsettle]
    exact OnlyAsks.pure v
  · rw [hsettle]
    exact (onlyAsks_listedOn disk c rs.declared).bind (rs.onlyAsks_choose c)

theorem onlyAsks_settle (rs : Repositories) (c : Coordinate) : OnlyAsks (rs.settle c) :=
  rs.onlyAsks_settleOn .reliable c

theorem Settles.cases {rs : Repositories} {c : Coordinate} {host : Host} {v : String}
    (h : rs.Settles c host v) :
    c.selector = .exact v ∨ ∃ versions, (listed c rs.declared host).1 = .ok versions ∧
      c.selector.select? versions = some v := by
  unfold Settles at h
  rcases rs.settle_cases c with ⟨w, hexact, hsettle⟩ | hsettle
  · rw [hsettle] at h
    obtain rfl := Except.ok.inj h
    exact .inl hexact
  · rw [hsettle] at h
    obtain ⟨versions, hlisted, h⟩ :=
      (onlyAsks_listed c rs.declared).of_bind_eq_ok (rs.onlyAsks_choose c) h
    refine .inr ⟨versions, hlisted, ?_⟩
    rw [choose] at h
    cases hselect : c.selector.select? versions with
    | none =>
      rw [hselect] at h
      cases h
    | some w =>
      rw [hselect] at h
      obtain rfl := Except.ok.inj h
      rfl

theorem error_of_settle {rs : Repositories} {c : Coordinate} {host : Host} {e : ResolveError}
    (h : (rs.settle c host).1 = .error e) :
    e = .noMatchingVersion c.text rs.names ∨
      ∃ r ∈ rs.declared, (r.versions c host).1 = .error e := by
  rcases rs.settle_cases c with ⟨v, -, hsettle⟩ | hsettle
  · rw [hsettle] at h
    cases h
  · rw [hsettle] at h
    rcases (onlyAsks_listed c rs.declared).of_bind_eq_error (rs.onlyAsks_choose c) h with
      hlisted | ⟨versions, -, hchoose⟩
    · exact .inr (exists_error_of_listed hlisted)
    · rw [choose] at hchoose
      cases hselect : c.selector.select? versions with
      | none =>
        rw [hselect] at hchoose
        exact .inl (Except.error.inj hchoose).symm
      | some v =>
        rw [hselect] at hchoose
        cases hchoose

/-! ## The second pass -/

/-- The repository is the first of the list with the jar, and this is what the jar holds. -/
def FirstWith (c : Coordinate) (v : String) (host : Host) (rs : List Repository) (r : Repository)
    (content : Bytes) : Prop :=
  ∃ before after, rs = before ++ r :: after ∧
    (∀ q ∈ before, q.jarBytes c v host = .ok none) ∧ r.jarBytes c v host = .ok (some content)

section

variable {c : Coordinate} {v : String} {host : Host} {rs : List Repository} {r : Repository}
  {content : Bytes}

theorem FirstWith.mem (h : FirstWith c v host rs r content) : r ∈ rs := by
  obtain ⟨before, after, rfl, -⟩ := h
  exact List.mem_append_right before List.mem_cons_self

theorem FirstWith.head (h : r.jarBytes c v host = .ok (some content)) :
    FirstWith c v host (r :: rs) r content :=
  ⟨[], rs, rfl, fun _ hq => absurd hq List.not_mem_nil, h⟩

theorem FirstWith.cons {q : Repository} (hq : q.jarBytes c v host = .ok none)
    (h : FirstWith c v host rs r content) : FirstWith c v host (q :: rs) r content := by
  obtain ⟨before, after, rfl, hbefore, hbytes⟩ := h
  refine ⟨q :: before, after, rfl, ?_, hbytes⟩
  intro q' hq'
  rcases List.mem_cons.1 hq' with rfl | hq'
  · exact hq
  · exact hbefore q' hq'

end

/-- The ways in which asking for the jar can end. -/
inductive Supplied (c : Coordinate) (v : String) (cacheDir : Path) (rs : List Repository)
    (host : Host) : Except ResolveError (Option (Repository × Path)) × Host → Prop where
  | nowhere (urls : List String) : Supplied c v cacheDir rs host (.ok none, host.asked urls)
  | failed (urls : List String) (e : ResolveError) :
    Supplied c v cacheDir rs host (.error e, host.asked urls)
  | present (urls : List String) (name : String) (root : Path) (content : Bytes)
    (hfirst : FirstWith c v host rs (.directory name root) content) :
    Supplied c v cacheDir rs host
      (.ok (some (.directory name root, Repository.jarPath root c v)), host.asked urls)
  | stored (urls : List String) (name address : String) (content : Bytes)
    (hfirst : FirstWith c v host rs (.web name address) content) :
    Supplied c v cacheDir rs host
      ((Repository.storeResult host.files cacheDir c v content).map fun path =>
          some (.web name address, path),
        (host.asked urls).performed (Repository.storeOperations cacheDir c v content))

theorem Supplied.cons {c : Coordinate} {v : String} {cacheDir : Path} {rs : List Repository}
    {host : Host} {run : Except ResolveError (Option (Repository × Path)) × Host} {r : Repository}
    (hr : r.jarBytes c v host = .ok none) (h : Supplied c v cacheDir rs host run) :
    Supplied c v cacheDir (r :: rs) host run := by
  cases h with
  | nowhere urls => exact .nowhere urls
  | failed urls e => exact .failed urls e
  | present urls name root content hfirst => exact .present urls name root content (hfirst.cons hr)
  | stored urls name address content hfirst =>
    exact .stored urls name address content (hfirst.cons hr)

theorem supplier_cons (c : Coordinate) (v : String) (cacheDir : Path) (r : Repository)
    (rest : List Repository) :
    supplier c v cacheDir (r :: rest) = (do
      match ← r.fetch c v cacheDir with
      | some path => return some (r, path)
      | none => supplier c v cacheDir rest) :=
  rfl

theorem supplied_supplier (c : Coordinate) (v : String) (cacheDir : Path) (rs : List Repository)
    (host : Host) (urls : List String) :
    Supplied c v cacheDir rs host (supplier c v cacheDir rs (host.asked urls)) := by
  induction rs generalizing urls with
  | nil => exact .nowhere urls
  | cons r rest ih =>
    rw [supplier_cons]
    cases r with
    | directory name root =>
      rcases Repository.fetch_directory_cases name root c v cacheDir (host.asked urls) with
        ⟨hbytes, hrun⟩ | ⟨content, hbytes, hrun⟩
      all_goals rw [Repository.jarBytes_asked] at hbytes; rw [bind_of_ok _ hrun]
      · exact (ih urls).cons hbytes
      · exact .present urls name root content (.head hbytes)
    | web name address =>
      obtain ⟨more, ⟨e, hrun⟩ | ⟨hbytes, hrun⟩ | ⟨content, hbytes, hrun⟩⟩ :=
        Repository.fetch_web name address c v cacheDir (host.asked urls)
      · rw [bind_of_error _ hrun, Host.asked_asked]
        exact .failed (urls ++ more) e
      · rw [Repository.jarBytes_asked] at hbytes
        rw [bind_of_ok _ hrun, Host.asked_asked]
        exact (ih (urls ++ more)).cons hbytes
      · -- The web has the jar, so no repository is asked after it, even if storing fails.
        rw [Repository.jarBytes_asked] at hbytes
        have hstored : Supplied c v cacheDir (.web name address :: rest) host _ :=
          .stored (urls ++ more) name address content (.head hbytes)
        rw [Host.asked_asked, Host.files_asked] at hrun
        cases hresult : Repository.storeResult host.files cacheDir c v content with
        | error e =>
          rw [hresult] at hrun hstored
          rw [bind_of_error _ hrun]
          exact hstored
        | ok path =>
          rw [hresult] at hrun hstored
          rw [bind_of_ok _ hrun]
          exact hstored

/-! ## Both passes -/

/-- What is told of a jar when it has been found. -/
def artifactAt (files : FileTree) (c : Coordinate) (v : String) (r : Repository) (path : Path) :
    Except ResolveError Artifact :=
  match files.digest path with
  | .ok sha256 => .ok ⟨c.text, v, path, r.name, sha256⟩
  | .error cause => .error (.system cause)

theorem artifactAt_ok {files : FileTree} {c : Coordinate} {v : String} {r : Repository}
    {path : Path} {a : Artifact} (h : artifactAt files c v r path = .ok a) :
    ∃ sha256, files.digest path = .ok sha256 ∧ a = ⟨c.text, v, path, r.name, sha256⟩ := by
  unfold artifactAt at h
  split at h
  · next sha256 hdigest => exact ⟨sha256, hdigest, (Except.ok.inj h).symm⟩
  · cases h

theorem tell_eq (disk : FileTree.Disk) (c : Coordinate) (v : String) (r : Repository)
    (path : Path) (host : Host) :
    (do
      let sha256 ← (Action.readFiles fun files => disk.digest files path).mapError
        ResolveError.system
      return (⟨c.text, v, path, r.name, sha256⟩ : Artifact) : Action ResolveError Artifact) host =
      (match disk.digest host.files path with
        | .error e => .error (.system e)
        | .ok sha256 => .ok ⟨c.text, v, path, r.name, sha256⟩, host) := by
  have hread :
      ((Action.readFiles fun files => disk.digest files path).mapError ResolveError.system) host =
        ((disk.digest host.files path).mapError .system, host) := rfl
  cases hdigest : disk.digest host.files path with
  | error e =>
    rw [hdigest] at hread
    exact bind_of_error _ hread
  | ok sha256 =>
    rw [hdigest] at hread
    exact bind_of_ok _ hread

theorem artifactAt_eq (c : Coordinate) (v : String) (r : Repository) (path : Path) (host : Host) :
    (do
      let sha256 ← (Action.readFiles fun files => files.digest path).mapError ResolveError.system
      return (⟨c.text, v, path, r.name, sha256⟩ : Artifact) : Action ResolveError Artifact) host =
      (artifactAt host.files c v r path, host) := by
  rw [artifactAt]
  refine (tell_eq .reliable c v r path host).trans ?_
  rw [FileTree.Disk.digest_reliable]
  cases host.files.digest path <;> rfl

/-- The ways in which a resolution can end. -/
inductive Resolved (rs : Repositories) (c : Coordinate) (host : Host) :
    Except ResolveError Artifact × Host → Prop where
  | failed (urls : List String) (e : ResolveError) :
    Resolved rs c host (.error e, host.asked urls)
  | present (urls : List String) (v name : String) (root : Path) (content : Bytes)
    (hsettles : rs.Settles c host v)
    (hfirst : FirstWith c v host rs.declared (.directory name root) content) :
    Resolved rs c host
      (artifactAt host.files c v (.directory name root) (Repository.jarPath root c v),
        host.asked urls)
  | stored (urls : List String) (v name address : String) (content : Bytes)
    (hsettles : rs.Settles c host v)
    (hfirst : FirstWith c v host rs.declared (.web name address) content) :
    Resolved rs c host
      (do
        let path ← Repository.storeResult host.files rs.cacheDir c v content
        artifactAt (host.performed (Repository.storeOperations rs.cacheDir c v content)).files c v
          (.web name address) path,
        (host.asked urls).performed (Repository.storeOperations rs.cacheDir c v content))

theorem resolve_eq (rs : Repositories) (c : Coordinate) :
    rs.resolve c = (do
      let version ← rs.settle c
      match ← supplier c version rs.cacheDir rs.declared with
      | none => throw (.notFound (c.text ++ " (" ++ version ++ ")") rs.names)
      | some (repository, path) =>
        let sha256 ←
          (Action.readFiles fun files => files.digest path).mapError ResolveError.system
        return ⟨c.text, version, path, repository.name, sha256⟩) :=
  rfl

theorem resolved_resolve (rs : Repositories) (c : Coordinate) (host : Host) :
    Resolved rs c host (rs.resolve c host) := by
  rw [resolve_eq]
  cases hsettle : (rs.settle c host).1 with
  | error e =>
    obtain ⟨urls, hrun⟩ := (rs.onlyAsks_settle c).run_eq hsettle
    rw [bind_of_error _ hrun]
    exact .failed urls e
  | ok v =>
    obtain ⟨urls, hrun⟩ := (rs.onlyAsks_settle c).run_eq hsettle
    rw [bind_of_ok _ hrun]
    have hsupplied := supplied_supplier c v rs.cacheDir rs.declared host urls
    rcases hsupply : supplier c v rs.cacheDir rs.declared (host.asked urls) with ⟨result, left⟩
    rw [hsupply] at hsupplied
    cases hsupplied with
    | nowhere urls' =>
      rw [bind_of_ok _ hsupply]
      exact .failed urls' _
    | failed urls' e =>
      rw [bind_of_error _ hsupply]
      exact .failed urls' e
    | present urls' name root content hfirst =>
      rw [bind_of_ok _ hsupply]
      dsimp only
      rw [artifactAt_eq]
      exact .present urls' v name root content hsettle hfirst
    | stored urls' name address content hfirst =>
      have hstored := Resolved.stored urls' v name address content hsettle hfirst
      cases hresult : Repository.storeResult host.files rs.cacheDir c v content with
      | error e =>
        rw [hresult] at hsupply hstored
        rw [bind_of_error _ hsupply]
        exact hstored
      | ok path =>
        rw [hresult] at hsupply hstored
        rw [bind_of_ok _ hsupply]
        dsimp only
        rw [artifactAt_eq]
        exact hstored

end Repositories

end ModuleRig
