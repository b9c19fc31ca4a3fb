import ModuleRig.Proofs.Repository.Downloads
import ModuleRig.Proofs.Repository.Newest

/-!
# What a resolution requests

A resolution makes one inquiry after the other. Those about pages are requests, those about the
files of a directory repository are not, and of both kinds the first that settles the matter, for
good or bad, is the last one made. `requests_of_resolve` gives all requests in their order.
-/

namespace ModuleRig

open ModuleRig.Action (bind_of_ok bind_of_error)

/-! ## Inquiries -/

/-- One thing that a resolution wants to know. -/
inductive Inquiry where
  /-- What a directory lists. -/
  | list (dir : Path)
  /-- What a metadata document says. -/
  | metadata (url : String)
  /-- Whether a jar is there. -/
  | look (jar : Path)
  /-- The content of a jar. -/
  | download (url : String)

namespace Inquiry

variable {q : Inquiry} {qs rest : List Inquiry} {host : Host}

def urls : Inquiry → List String
  | list _ => []
  | metadata url => [url]
  | look _ => []
  | download url => [url]

/-- No inquiry is made after this one: it fails, or it brings the jar. A directory that is missing
is no failure, and neither is a missing page. -/
def Ends (host : Host) : Inquiry → Prop
  | list dir => ∃ e, host.files.list dir = .error e ∧ e.kind ≠ .notFound
  | metadata url => host.web.Fails url
  | look jar => host.files.isFile jar = true
  | download url => host.web.Fails url ∨ ∃ content, host.web.Holds url content

instance (host : Host) (q : Inquiry) : Decidable (q.Ends host) :=
  match q with
  | list dir =>
    inferInstanceAs (Decidable (∃ e, host.files.list dir = .error e ∧ e.kind ≠ .notFound))
  | metadata url => inferInstanceAs (Decidable (host.web.Fails url))
  | look jar => inferInstanceAs (Decidable (host.files.isFile jar = true))
  | download url =>
    inferInstanceAs (Decidable (host.web.Fails url ∨ ∃ content, host.web.Holds url content))

/-- What is requested when these are the inquiries to make. -/
def requests (host : Host) : List Inquiry → List String
  | [] => []
  | q :: rest => q.urls ++ if q.Ends host then [] else requests host rest

theorem requests_cons_of_ends (h : q.Ends host) (rest : List Inquiry) :
    requests host (q :: rest) = q.urls := by
  rw [requests, if_pos h, List.append_nil]

theorem requests_cons_of_not_ends (h : ¬ q.Ends host) (rest : List Inquiry) :
    requests host (q :: rest) = q.urls ++ requests host rest := by
  rw [requests, if_neg h]

theorem requests_append_of_ends (h : ∃ q ∈ qs, q.Ends host) (rest : List Inquiry) :
    requests host (qs ++ rest) = requests host qs := by
  induction qs with
  | nil =>
    obtain ⟨q, hq, -⟩ := h
    cases hq
  | cons q qs ih =>
    rw [List.cons_append]
    by_cases hends : q.Ends host
    · rw [requests_cons_of_ends hends, requests_cons_of_ends hends]
    · have hlater : ∃ q ∈ qs, q.Ends host := by
        obtain ⟨q', hq', hends'⟩ := h
        rcases List.mem_cons.1 hq' with rfl | hq'
        · exact absurd hends' hends
        · exact ⟨q', hq', hends'⟩
      rw [requests_cons_of_not_ends hends, requests_cons_of_not_ends hends, ih hlater]

theorem requests_append_of_not_ends (h : ∀ q ∈ qs, ¬ q.Ends host) (rest : List Inquiry) :
    requests host (qs ++ rest) = requests host qs ++ requests host rest := by
  induction qs with
  | nil => rfl
  | cons q qs ih =>
    have hq := h q List.mem_cons_self
    rw [List.cons_append, requests_cons_of_not_ends hq, requests_cons_of_not_ends hq,
      ih fun q' hq' => h q' (List.mem_cons_of_mem q hq'), List.append_assoc]

theorem requests_singleton (host : Host) (q : Inquiry) : requests host [q] = q.urls := by
  rw [requests, requests, ite_self, List.append_nil]

theorem requests_asked (host : Host) (urls : List String) (qs : List Inquiry) :
    requests (host.asked urls) qs = requests host qs := by
  induction qs with
  | nil => rfl
  | cons q qs ih =>
    have hsame : q.Ends (host.asked urls) ↔ q.Ends host := by cases q <;> rfl
    rw [requests, requests, ih]
    simp only [hsame]

end Inquiry

namespace Repository

variable {c : Coordinate} {v : String} {host : Host}

/-- How a repository is asked for its versions. -/
def listingInquiry (c : Coordinate) : Repository → Inquiry
  | directory _ root => .list (root.child c.artifactDir)
  | web _ address => .metadata (metadataUrl address c)

/-- What is asked for before a jar: for a snapshot its metadata. -/
def nameInquiries (address : String) (c : Coordinate) (v : String) : List Inquiry :=
  if Version.isSnapshot v then [.metadata (snapshotUrl address c v)] else []

/-- How a repository is asked for the jar of a version. -/
def jarInquiries (host : Host) (c : Coordinate) (v : String) : Repository → List Inquiry
  | directory _ root => [.look (jarPath root c v)]
  | web _ address => nameInquiries address c v ++ [.download (jarUrl host address c v)]

theorem jarInquiries_asked (host : Host) (urls : List String) (c : Coordinate) (v : String) :
    jarInquiries (host.asked urls) c v = jarInquiries host c v := by
  funext r
  cases r <;> rfl

/-! ## One repository -/

theorem left_page (url : String) (host : Host) : (page url host).2 = host.asked [url] :=
  rfl

theorem error_of_page_iff {url : String} :
    (∃ e, (page url host).1 = .error e) ↔ host.web.Fails url := by
  have hpage : (page url host).1 = (host.web.content? url).mapError (.web url) := rfl
  rw [Web.fails_iff, hpage]
  cases host.web.content? url <;> simp [Except.mapError]

theorem left_textPage (url : String) (host : Host) : (textPage url host).2 = host.asked [url] :=
  Action.left_bind id (page url) (fun _ _ => rfl) host

theorem error_of_textPage_iff {url : String} :
    (∃ e, (textPage url host).1 = .error e) ↔ host.web.Fails url :=
  (Action.error_bind_iff (page url) (fun _ _ => ⟨_, rfl⟩) host).trans error_of_page_iff

theorem left_versions (r : Repository) (c : Coordinate) (host : Host) :
    (r.versions c host).2 = host.asked (r.listingInquiry c).urls := by
  cases r with
  | directory name root => exact host.asked_nil.symm
  | web name address =>
    refine (Action.left_bind id (textPage (metadataUrl address c)) ?_ host).trans
      (left_textPage _ host)
    rintro (_ | document) mid <;> rfl

theorem error_of_directoryVersions_iff {files : FileTree} {root : Path} :
    (∃ e, directoryVersions files root c = .error e) ↔
      ∃ e, files.list (root.child c.artifactDir) = .error e ∧ e.kind ≠ .notFound := by
  rw [directoryVersions_eq]
  cases files.list (root.child c.artifactDir) with
  | error e => by_cases hmissing : e.kind = .notFound <;> simp [hmissing]
  | ok names => simp

theorem error_of_versions_iff (r : Repository) (c : Coordinate) (host : Host) :
    (∃ e, (r.versions c host).1 = .error e) ↔ (r.listingInquiry c).Ends host := by
  cases r with
  | directory name root =>
    rw [versions_directory]
    dsimp only
    exact error_of_directoryVersions_iff
  | web name address =>
    rw [versions_web, Action.error_bind_iff]
    · exact error_of_textPage_iff
    · rintro (_ | document) mid
      · exact ⟨_, rfl⟩
      · exact ⟨_, rfl⟩

theorem left_fileVersion (address : String) (c : Coordinate) (v : String) (host : Host) :
    (fileVersion address c v host).2 =
      host.asked (Inquiry.requests host (nameInquiries address c v)) := by
  unfold fileVersion nameInquiries
  split
  · rw [Inquiry.requests_singleton]
    exact (Action.left_bind id (textPage _) (fun _ _ => rfl) host).trans (left_textPage _ host)
  · exact host.asked_nil.symm

theorem error_of_fileVersion_iff {address : String} :
    (∃ e, (fileVersion address c v host).1 = .error e) ↔
      ∃ q ∈ nameInquiries address c v, q.Ends host := by
  unfold fileVersion nameInquiries
  split
  · refine (Action.error_bind_iff (textPage _) (fun _ _ => ⟨_, rfl⟩) host).trans ?_
    simp only [List.mem_singleton, exists_eq_left]
    exact error_of_textPage_iff
  · simp only [List.not_mem_nil, false_and, exists_false, iff_false]
    rintro ⟨e, h⟩
    cases h

theorem jarInquiries_web (name address : String) (host : Host) (c : Coordinate) (v : String) :
    (web name address).jarInquiries host c v =
      nameInquiries address c v ++ [.download (jarUrl host address c v)] :=
  rfl

theorem page_eq_none_iff {url : String} :
    (page url host).1 = .ok none ↔ ¬ (Inquiry.download url).Ends host := by
  have hpage : (page url host).1 = (host.web.content? url).mapError (.web url) := rfl
  rw [Inquiry.Ends, Web.fails_iff, hpage]
  simp only [Web.holds_iff]
  rcases host.web.content? url with problem | _ | content <;> simp [Except.mapError]

theorem left_download (name address : String) (c : Coordinate) (v : String) (host : Host) :
    (download address c v host).2 =
      host.asked (Inquiry.requests host ((web name address).jarInquiries host c v)) := by
  have hleft := left_fileVersion address c v host
  rw [jarInquiries_web, download]
  cases hversion : (fileVersion address c v host).1 with
  | error e =>
    have hrun : fileVersion address c v host = (.error e, host.asked _) := Prod.ext hversion hleft
    rw [bind_of_error _ hrun,
      Inquiry.requests_append_of_ends (error_of_fileVersion_iff.1 ⟨e, hversion⟩)]
  | ok w =>
    have hrun : fileVersion address c v host = (.ok w, host.asked _) := Prod.ext hversion hleft
    have hgoes : ∀ q ∈ nameInquiries address c v, ¬ q.Ends host := by
      intro q hq hends
      obtain ⟨e, herror⟩ := error_of_fileVersion_iff.2 ⟨q, hq, hends⟩
      cases herror.symm.trans hversion
    rw [bind_of_ok _ hrun, left_page, Host.asked_asked, Inquiry.requests_append_of_not_ends hgoes,
      Inquiry.requests_singleton, fileVersion_ok hversion]
    rfl

theorem download_eq_none_iff (name : String) {address : String} :
    (download address c v host).1 = .ok none ↔
      ∀ q ∈ (web name address).jarInquiries host c v, ¬ q.Ends host := by
  rw [jarInquiries_web]
  simp only [List.mem_append, or_imp, forall_and, List.mem_singleton, forall_eq]
  constructor
  · intro h
    obtain ⟨w, hversion, hpage⟩ :=
      (onlyAsks_fileVersion address c v).of_bind_eq_ok (fun _ => onlyAsks_page _) h
    obtain rfl := fileVersion_ok hversion
    refine ⟨fun q hq hends => ?_, page_eq_none_iff.1 hpage⟩
    obtain ⟨e, herror⟩ := error_of_fileVersion_iff.2 ⟨q, hq, hends⟩
    cases herror.symm.trans hversion
  · rintro ⟨hname, hjar⟩
    cases hversion : (fileVersion address c v host).1 with
    | error e =>
      obtain ⟨q, hq, hends⟩ := error_of_fileVersion_iff.1 ⟨e, hversion⟩
      exact absurd hends (hname q hq)
    | ok w =>
      obtain rfl := fileVersion_ok hversion
      have hpage := (onlyAsks_fileVersion address c v).result_bind_of_ok
        (f := fun w => page (versionUrl address c v ++ "/" ++ c.jarName w)) (onlyAsks_page _) hversion
      exact hpage.trans (page_eq_none_iff.2 hjar)

theorem requests_keepOn (disk : FileTree.Disk) (cacheDir : Path) (c : Coordinate) (v : String)
    (content? : Option Bytes) (host : Host) :
    (keepOn disk cacheDir c v content? host).2.requests = host.requests := by
  cases content? with
  | none => rfl
  | some content => exact Action.left_bind Host.requests _ (fun _ _ => rfl) host

theorem requests_fetch (r : Repository) (c : Coordinate) (v : String) (cacheDir : Path)
    (host : Host) :
    (r.fetch c v cacheDir host).2.requests =
      host.requests ++ Inquiry.requests host (r.jarInquiries host c v) := by
  cases r with
  | directory name root =>
    rw [fetch_directory, jarInquiries, Inquiry.requests_singleton]
    exact (List.append_nil _).symm
  | web name address =>
    rw [fetch, fetchOn_web_eq]
    refine (Action.left_bind Host.requests (download address c v) ?_ host).trans ?_
    · exact fun content? mid => requests_keepOn .reliable cacheDir c v content? mid
    · rw [left_download name]
      rfl

theorem fetch_of_not_ends {r : Repository} (h : ∀ q ∈ r.jarInquiries host c v, ¬ q.Ends host)
    (cacheDir : Path) :
    r.fetch c v cacheDir host =
      (.ok none, host.asked (Inquiry.requests host (r.jarInquiries host c v))) := by
  cases r with
  | directory name root =>
    have hmissing : ¬ host.files.isFile (jarPath root c v) = true := h _ List.mem_cons_self
    rw [fetch_directory, if_neg hmissing, jarInquiries, Inquiry.requests_singleton]
    exact congrArg (Prod.mk _) host.asked_nil.symm
  | web name address =>
    have hrun : download address c v host = (.ok none, host.asked _) :=
      Prod.ext ((download_eq_none_iff name).2 h) (left_download name address c v host)
    rw [fetch, fetchOn_web_eq, bind_of_ok _ hrun]
    rfl

theorem fetch_ne_none_of_ends {r : Repository} (h : ∃ q ∈ r.jarInquiries host c v, q.Ends host)
    (cacheDir : Path) : (r.fetch c v cacheDir host).1 ≠ .ok none := by
  intro hnone
  obtain ⟨q, hq, hends⟩ := h
  cases r with
  | directory name root =>
    obtain rfl := List.mem_singleton.1 hq
    have hfile : host.files.isFile (jarPath root c v) = true := hends
    rw [fetch_directory, if_pos hfile] at hnone
    cases hnone
  | web name address =>
    rw [fetch, fetchOn_web_eq] at hnone
    cases hjar : download address c v host with
    | mk result mid =>
      rcases result with e | _ | content
      · rw [bind_of_error _ hjar] at hnone
        contradiction
      · exact (download_eq_none_iff name).1 (by rw [hjar]) q hq hends
      · -- The jar is there, so it makes no difference whether it can be stored.
        rw [bind_of_ok _ hjar, keepOn_reliable_some] at hnone
        cases hstored : storeResult mid.files cacheDir c v content <;> rw [hstored] at hnone <;>
          cases hnone

end Repository

namespace Repositories

/-! ## All repositories -/

theorem left_listed (c : Coordinate) (rs : List Repository) (host : Host) :
    (listed c rs host).2 =
      host.asked (Inquiry.requests host (rs.map (Repository.listingInquiry c))) := by
  induction rs generalizing host with
  | nil => exact host.asked_nil.symm
  | cons r rest ih =>
    have hleft := r.left_versions c host
    rw [listed_cons, List.map_cons]
    cases hversions : (r.versions c host).1 with
    | error e =>
      have hrun : r.versions c host = (.error e, host.asked _) := Prod.ext hversions hleft
      rw [bind_of_error _ hrun,
        Inquiry.requests_cons_of_ends ((r.error_of_versions_iff c host).1 ⟨e, hversions⟩)]
    | ok own =>
      have hrun : r.versions c host = (.ok own, host.asked _) := Prod.ext hversions hleft
      have hgoes : ¬ (r.listingInquiry c).Ends host := by
        intro hends
        obtain ⟨e, herror⟩ := (r.error_of_versions_iff c host).2 hends
        cases herror.symm.trans hversions
      rw [bind_of_ok _ hrun, Inquiry.requests_cons_of_not_ends hgoes]
      refine (Action.left_bind id (listed c rest) (fun _ _ => rfl) _).trans ?_
      rw [id, ih, Inquiry.requests_asked, Host.asked_asked]

/-- The requests of the first pass, which an exact version does without. -/
def listingRequests (rs : Repositories) (c : Coordinate) (host : Host) : List String :=
  if c.selector.isDynamic then
    Inquiry.requests host (rs.declared.map (Repository.listingInquiry c))
  else []

theorem left_settle (rs : Repositories) (c : Coordinate) (host : Host) :
    (rs.settle c host).2 = host.asked (rs.listingRequests c host) := by
  unfold listingRequests
  split
  · next hdynamic =>
    rw [settle_of_dynamic hdynamic, ← left_listed]
    refine Action.left_bind id (listed c rs.declared) (fun versions mid => ?_) host
    rw [choose]
    cases c.selector.select? versions <;> rfl
  · next hexact =>
    cases hselector : c.selector with
    | exact v =>
      rw [settle, settleOn, hselector]
      exact host.asked_nil.symm
    | latest => exact absurd (by rw [hselector]; rfl) hexact
    | stem text => exact absurd (by rw [hselector]; rfl) hexact

theorem requests_supplier (c : Coordinate) (v : String) (cacheDir : Path) (rs : List Repository)
    (host : Host) :
    (supplier c v cacheDir rs host).2.requests =
      host.requests ++ Inquiry.requests host (rs.flatMap (Repository.jarInquiries host c v)) := by
  induction rs generalizing host with
  | nil => exact (List.append_nil _).symm
  | cons r rest ih =>
    rw [supplier_cons, List.flatMap_cons]
    by_cases hends : ∃ q ∈ r.jarInquiries host c v, q.Ends host
    · have hrequests := r.requests_fetch c v cacheDir host
      have hfound := Repository.fetch_ne_none_of_ends hends cacheDir
      rw [Inquiry.requests_append_of_ends hends, ← hrequests]
      cases hrun : r.fetch c v cacheDir host with
      | mk result mid =>
        rcases result with e | _ | path
        · rw [bind_of_error _ hrun]
        · exact absurd (by rw [hrun]) hfound
        · rw [bind_of_ok _ hrun]
          rfl
    · have hgoes : ∀ q ∈ r.jarInquiries host c v, ¬ q.Ends host :=
        fun q hq hqends => hends ⟨q, hq, hqends⟩
      have hnext := ih (host.asked (Inquiry.requests host (r.jarInquiries host c v)))
      rw [Repository.jarInquiries_asked, Inquiry.requests_asked] at hnext
      rw [bind_of_ok _ (Repository.fetch_of_not_ends hgoes cacheDir),
        Inquiry.requests_append_of_not_ends hgoes, ← List.append_assoc]
      exact hnext

/-! ## Both passes -/

/-- The requests of the second pass, for a version that was chosen. -/
def jarRequests (rs : Repositories) (c : Coordinate) (host : Host) (v : String) : List String :=
  Inquiry.requests host (rs.declared.flatMap (Repository.jarInquiries host c v))

/-- The requests of a resolution are those of the first pass and, if that chose a version, those of
the second one. -/
theorem requests_of_resolve (rs : Repositories) (c : Coordinate) (host : Host) :
    (rs.resolve c host).2.requests = host.requests ++ rs.listingRequests c host ++
      match (rs.settle c host).1 with
      | .ok v => rs.jarRequests c host v
      | .error _ => [] := by
  have hleft := rs.left_settle c host
  rw [resolve_eq]
  cases hsettle : (rs.settle c host).1 with
  | error e =>
    have hrun : rs.settle c host = (.error e, host.asked _) := Prod.ext hsettle hleft
    rw [bind_of_error _ hrun]
    exact (List.append_nil _).symm
  | ok v =>
    have hrun : rs.settle c host = (.ok v, host.asked _) := Prod.ext hsettle hleft
    have hsupplier := requests_supplier c v rs.cacheDir rs.declared
      (host.asked (rs.listingRequests c host))
    rw [Repository.jarInquiries_asked, Inquiry.requests_asked] at hsupplier
    rw [bind_of_ok _ hrun]
    refine (Action.left_bind Host.requests _ ?_ _).trans hsupplier
    rintro (_ | ⟨r, path⟩) mid
    · rfl
    · dsimp only
      rw [artifactAt_eq]

/-- A web repository is asked twice for a snapshot, and no other one after it if it has the jar. -/
example :
    let host := { Host.blank with web := ⟨[("http://r/a/b/1-SNAPSHOT/b-1-SNAPSHOT.jar",
      .answered 200 [1] true)], .answered 404 [] true⟩ }
    let rs : Repositories :=
      ⟨[.directory "d" ⟨"/d"⟩, .web "r" "http://r", .web "s" "http://s"], ⟨"/c"⟩⟩
    rs.jarRequests ⟨"a", "b", .exact "1-SNAPSHOT", true⟩ host "1-SNAPSHOT" =
      ["http://r/a/b/1-SNAPSHOT/maven-metadata.xml",
        "http://r/a/b/1-SNAPSHOT/b-1-SNAPSHOT.jar"] := by
  decide +kernel

end Repositories

end ModuleRig
