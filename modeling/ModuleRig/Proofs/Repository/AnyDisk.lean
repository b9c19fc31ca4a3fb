import ModuleRig.Proofs.Files.Disk
import ModuleRig.Proofs.Repository.Answers

/-!
# Resolving on any disk

The first pass only asks, whatever the disk is, and the second writes at most once: it stores the
jar that a web repository offers. After that comes only the digest of what was stored. If there
is none, the resolution fails, and what was in the jar's place before is gone: `LostAt`.
-/

namespace ModuleRig

open ModuleRig.Action (bind_of_ok bind_of_error)
open ModuleRig.FileTree (Alters KeepsDirectories)

namespace Repository

variable (disk : FileTree.Disk) (c : Coordinate) (v : String) (cacheDir : Path)

/-- The disk gets the jar stored or not, and this is what it has made of the files by then. -/
def Stores (content : Bytes) (files : FileTree) (result : Except SystemError Unit)
    (left : FileTree) : Prop :=
  disk.performAll files (storeOperations cacheDir c v content) = (result, left)

variable {disk c v cacheDir}

theorem keepOn_of_stores {content : Bytes} {result : Except SystemError Unit} {left : FileTree}
    (host : Host) (h : Stores disk c v cacheDir content host.files result left) :
    keepOn disk cacheDir c v (some content) host =
      (match result with
        | .error e => .error (.system e)
        | .ok () => .ok (some (downloadPath cacheDir c v)), { host with files := left }) := by
  have hperform : ((Action.performOn disk (storeOperations cacheDir c v content)).mapError
      ResolveError.system) host = (result.mapError .system, { host with files := left }) := by
    rw [Action.mapError, Action.performOn, h]
  rw [keepOn_some]
  cases result with
  | error e => rw [bind_of_error _ hperform]
  | ok _ =>
    rw [bind_of_ok _ hperform]
    rfl

section

variable {content : Bytes} {files left : FileTree} {result : Except SystemError Unit}
  {e : SystemError}

theorem Stores.keepsDirectories (h : Stores disk c v cacheDir content files result left)
    (hdisk : disk.Sound) : KeepsDirectories files left := by
  have hkeeps := hdisk.keepsDirectories files (storeOperations cacheDir c v content)
  rwa [h] at hkeeps

theorem Stores.alters_of_error (h : Stores disk c v cacheDir content files (.error e) left)
    (hdisk : disk.Sound) :
    Alters (fun _ => True) (fun l => l.EndsWith partialJarEnding) files left := by
  refine (hdisk.alters_replacement_of_error h).mono (fun _ _ => trivial) ?_
  intro l hl
  rw [hl]
  exact Path.endsWith_place (endsWith_partialPath cacheDir c v) _

theorem Stores.alters_of_ok (h : Stores disk c v cacheDir content files (.ok ()) left)
    (hdisk : disk.Sound) :
    Alters (fun _ => True) (fun l => l.EndsWith partialJarEnding ∨
      l = (downloadPath cacheDir c v).place files.workingDirectory) files left := by
  have halters := FileTree.alters_replacement files (downloadDir cacheDir c v)
    ((downloadPath cacheDir c v).withExtension "jar.part") (downloadPath cacheDir c v) content true
  have hperform := hdisk.performAll_ok h
  rw [storeOperations] at hperform
  rw [hperform] at halters
  refine halters.mono (fun _ _ => trivial) fun l hl => hl.imp_left fun hpartial => ?_
  rw [hpartial]
  exact Path.endsWith_place (endsWith_partialPath cacheDir c v) _

end

end Repository

namespace Repositories

/-- Some web repository has this content as the jar of the version. -/
def Offers (repositories : List Repository) (c : Coordinate) (v : String) (host : Host)
    (content : Bytes) : Prop :=
  ∃ name address, .web name address ∈ repositories ∧
    (Repository.web name address).jarBytes c v host = .ok (some content)

/-- The ways in which asking for the jar can end. -/
inductive SuppliedOn (disk : FileTree.Disk) (c : Coordinate) (v : String) (cacheDir : Path)
    (repositories : List Repository) (host : Host) :
    Except ResolveError (Option (Repository × Path)) × Host → Prop where
  | nowhere (urls : List String) :
    SuppliedOn disk c v cacheDir repositories host (.ok none, host.asked urls)
  | failed (urls : List String) (e : ResolveError) :
    SuppliedOn disk c v cacheDir repositories host (.error e, host.asked urls)
  | present (urls : List String) (r : Repository) (root : Path) :
    SuppliedOn disk c v cacheDir repositories host
      (.ok (some (r, Repository.jarPath root c v)), host.asked urls)
  | unstored (urls : List String) (content : Bytes) (e : SystemError) (left : FileTree)
    (hoffers : Offers repositories c v host content)
    (hstores : Repository.Stores disk c v cacheDir content host.files (.error e) left) :
    SuppliedOn disk c v cacheDir repositories host
      (.error (.system e), { host.asked urls with files := left })
  | stored (urls : List String) (r : Repository) (content : Bytes) (left : FileTree)
    (hoffers : Offers repositories c v host content)
    (hstores : Repository.Stores disk c v cacheDir content host.files (.ok ()) left) :
    SuppliedOn disk c v cacheDir repositories host
      (.ok (some (r, Repository.downloadPath cacheDir c v)), { host.asked urls with files := left })

variable {disk : FileTree.Disk} {c : Coordinate} {v : String} {cacheDir : Path}
  {repositories : List Repository} {host : Host}

theorem Offers.cons {content : Bytes} (h : Offers repositories c v host content)
    (r : Repository) : Offers (r :: repositories) c v host content := by
  obtain ⟨name, address, hmem, hjar⟩ := h
  exact ⟨name, address, List.mem_cons_of_mem r hmem, hjar⟩

theorem SuppliedOn.cons {run : Except ResolveError (Option (Repository × Path)) × Host}
    (h : SuppliedOn disk c v cacheDir repositories host run) (r : Repository) :
    SuppliedOn disk c v cacheDir (r :: repositories) host run := by
  cases h with
  | nowhere urls => exact .nowhere urls
  | failed urls e => exact .failed urls e
  | present urls q root => exact .present urls q root
  | unstored urls content e left hoffers hstores =>
    exact .unstored urls content e left (hoffers.cons r) hstores
  | stored urls q content left hoffers hstores =>
    exact .stored urls q content left (hoffers.cons r) hstores

theorem suppliedOn_supplierOn (disk : FileTree.Disk) (c : Coordinate) (v : String)
    (cacheDir : Path) (repositories : List Repository) (host : Host) (urls : List String) :
    SuppliedOn disk c v cacheDir repositories host
      (supplierOn disk c v cacheDir repositories (host.asked urls)) := by
  induction repositories generalizing urls with
  | nil => exact .nowhere urls
  | cons r rest ih =>
    rw [supplierOn]
    cases r with
    | directory name root =>
      have hfetch : (Repository.directory name root).fetchOn disk c v cacheDir (host.asked urls) =
          (.ok (if disk.isFile host.files (Repository.jarPath root c v) then
            some (Repository.jarPath root c v) else none), host.asked urls) := rfl
      rw [bind_of_ok _ hfetch]
      by_cases hfile : disk.isFile host.files (Repository.jarPath root c v) = true
      · rw [if_pos hfile]
        exact .present urls _ root
      · rw [if_neg hfile]
        exact (ih urls).cons _
    | web name address =>
      obtain ⟨more, ⟨e, hrun⟩ | ⟨-, hrun⟩ | ⟨content, hbytes, hrun⟩⟩ :=
        Repository.fetchOn_web disk name address c v cacheDir (host.asked urls)
      all_goals rw [Host.asked_asked] at hrun
      · rw [bind_of_error _ hrun]
        exact .failed (urls ++ more) e
      · rw [bind_of_ok _ hrun]
        exact (ih (urls ++ more)).cons _
      · rw [Repository.jarBytes_asked] at hbytes
        have hoffers : Offers (.web name address :: rest) c v host content :=
          ⟨name, address, List.mem_cons_self, hbytes⟩
        rcases hstores : disk.performAll host.files
          (Repository.storeOperations cacheDir c v content) with ⟨e | _, left⟩
        all_goals
          rw [Repository.keepOn_of_stores (host.asked (urls ++ more)) hstores] at hrun
        · rw [bind_of_error _ hrun]
          exact .unstored (urls ++ more) content e left hoffers hstores
        · rw [bind_of_ok _ hrun]
          exact .stored (urls ++ more) _ content left hoffers hstores

/-- The ways in which a resolution can end. -/
inductive ResolvedOn (disk : FileTree.Disk) (rs : Repositories) (c : Coordinate) (host : Host) :
    Except ResolveError Artifact × Host → Prop where
  | failed (urls : List String) (e : ResolveError) :
    ResolvedOn disk rs c host (.error e, host.asked urls)
  | present (urls : List String) (v name sha256 : String) (root : Path) :
    ResolvedOn disk rs c host
      (.ok ⟨c.text, v, Repository.jarPath root c v, name, sha256⟩, host.asked urls)
  | unstored (urls : List String) (v : String) (content : Bytes) (e : SystemError)
    (left : FileTree) (hoffers : Offers rs.declared c v host content)
    (hstores : Repository.Stores disk c v rs.cacheDir content host.files (.error e) left) :
    ResolvedOn disk rs c host (.error (.system e), { host.asked urls with files := left })
  | unread (urls : List String) (v : String) (content : Bytes) (e : SystemError)
    (left : FileTree) (hoffers : Offers rs.declared c v host content)
    (hstores : Repository.Stores disk c v rs.cacheDir content host.files (.ok ()) left)
    (hdigest : disk.digest left (Repository.downloadPath rs.cacheDir c v) = .error e) :
    ResolvedOn disk rs c host (.error (.system e), { host.asked urls with files := left })
  | stored (urls : List String) (v name sha256 : String) (content : Bytes) (left : FileTree)
    (hoffers : Offers rs.declared c v host content)
    (hstores : Repository.Stores disk c v rs.cacheDir content host.files (.ok ()) left) :
    ResolvedOn disk rs c host
      (.ok ⟨c.text, v, Repository.downloadPath rs.cacheDir c v, name, sha256⟩,
        { host.asked urls with files := left })

theorem resolvedOn_resolveOn (disk : FileTree.Disk) (rs : Repositories) (c : Coordinate)
    (host : Host) : ResolvedOn disk rs c host (rs.resolveOn disk c host) := by
  rw [resolveOn]
  cases hsettle : (rs.settleOn disk c host).1 with
  | error e =>
    obtain ⟨urls, hrun⟩ := (rs.onlyAsks_settleOn disk c).run_eq hsettle
    rw [bind_of_error _ hrun]
    exact .failed urls e
  | ok v =>
    obtain ⟨urls, hrun⟩ := (rs.onlyAsks_settleOn disk c).run_eq hsettle
    rw [bind_of_ok _ hrun]
    have hsupplied := suppliedOn_supplierOn disk c v rs.cacheDir rs.declared host urls
    rcases hsupply : supplierOn disk c v rs.cacheDir rs.declared (host.asked urls) with
      ⟨result, mid⟩
    rw [hsupply] at hsupplied
    cases hsupplied with
    | nowhere urls' =>
      rw [bind_of_ok _ hsupply]
      exact .failed urls' _
    | failed urls' e =>
      rw [bind_of_error _ hsupply]
      exact .failed urls' e
    | present urls' r root =>
      rw [bind_of_ok _ hsupply]
      dsimp only
      rw [tell_eq]
      split
      · exact .failed urls' _
      · exact .present urls' v _ _ root
    | unstored urls' content e left hoffers hstores =>
      rw [bind_of_error _ hsupply]
      exact .unstored urls' v content e left hoffers hstores
    | stored urls' r content left hoffers hstores =>
      rw [bind_of_ok _ hsupply]
      dsimp only
      rw [tell_eq]
      split
      · next e hdigest => exact .unread urls' v content e left hoffers hstores hdigest
      · exact .stored urls' v _ _ content left hoffers hstores

/-! ## What is written -/

variable {rs : Repositories} {a : Artifact} {e : ResolveError}

theorem alters_resolveOn (hdisk : disk.Sound) (rs : Repositories) (c : Coordinate) (host : Host) :
    Alters (fun _ => True) (fun l => l.EndsWith partialJarEnding ∨ l.EndsWith jarEnding)
      host.files (rs.resolveOn disk c host).2.files := by
  have hjar : ∀ v l, l.EndsWith partialJarEnding ∨
      l = (Repository.downloadPath rs.cacheDir c v).place host.files.workingDirectory →
      l.EndsWith partialJarEnding ∨ l.EndsWith jarEnding := by
    rintro v l (hl | rfl)
    · exact .inl hl
    · exact .inr (Path.endsWith_place (Repository.endsWith_downloadPath rs.cacheDir c v) _)
  have hresolved := resolvedOn_resolveOn disk rs c host
  generalize rs.resolveOn disk c host = run at hresolved
  cases hresolved with
  | failed urls e => exact Alters.refl _ _ _
  | present urls v name sha256 root => exact Alters.refl _ _ _
  | unstored urls v content e left hoffers hstores =>
    exact (hstores.alters_of_error hdisk).mono (fun _ => id) fun _ => .inl
  | unread urls v content e left hoffers hstores hdigest =>
    exact (hstores.alters_of_ok hdisk).mono (fun _ => id) (hjar v)
  | stored urls v name sha256 content left hoffers hstores =>
    exact (hstores.alters_of_ok hdisk).mono (fun _ => id) (hjar v)

theorem endsWith_of_resolveOn (h : (rs.resolveOn disk c host).1 = .ok a) :
    a.path.EndsWith jarEnding := by
  have hresolved := resolvedOn_resolveOn disk rs c host
  generalize rs.resolveOn disk c host = run at hresolved h
  cases hresolved with
  | failed urls e => contradiction
  | present urls v name sha256 root =>
    obtain rfl := Except.ok.inj h
    exact Repository.endsWith_jarPath root c v
  | unstored urls v content e left hoffers hstores => contradiction
  | unread urls v content e left hoffers hstores hdigest => contradiction
  | stored urls v name sha256 content left hoffers hstores =>
    obtain rfl := Except.ok.inj h
    exact Repository.endsWith_downloadPath rs.cacheDir c v

end Repositories

end ModuleRig
