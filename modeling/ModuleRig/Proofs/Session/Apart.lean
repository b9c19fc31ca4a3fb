import ModuleRig.Proofs.Repository.Around
import ModuleRig.Proofs.Session.OfflineAgain

/-!
# Artifacts that lie apart

A repetition finds everything again if the artifacts of the run are `Apart`. That one coordinate has
one answer need not be asked of a run: it is so when the ways to the jars of the repositories lead
around the cache directory, as `Online.apart` shows.
-/

namespace ModuleRig

open ModuleRig.Path (IsName)

theorem Cache.changesBelow_save {cache : Cache} {dir : Path}
    (hfile : cache.file? = some (dir.child fileName)) (host : Host) :
    FileTree.ChangesBelow dir host.files (cache.save host).2.files := by
  have hcomponents : (dir.child fileName).components = dir.components ++ [.name fileName] :=
    Path.components_child rfl
  have hroute : (dir.child fileName).components = dir.components ++ ([] ++ [.name fileName]) :=
    hcomponents
  have hbelow : dir.IsBelow (dir.child fileName) := ⟨_, hcomponents, rfl⟩
  have hpartial : dir.IsBelow ((dir.child fileName).withExtension "json.part") :=
    (Repository.isBelow_withExtension hroute (by decide) (by decide)).2 hbelow
  rw [save_of_some hfile, Host.files_performed, saveOperations]
  refine (FileTree.alters_replacement host.files _ _ _ _ false).mono ?_ ?_
  · rintro l ⟨q, hq, rfl⟩
    have hparent : ((dir.child fileName).parent?.getD ⟨""⟩).components <+:
        (dir.child fileName).components := by
      cases hparent : (dir.child fileName).parent? with
      | none => exact List.nil_prefix
      | some parent => exact Path.components_parent? hparent
    have habove := (Path.components_of_mem_ancestors hq).trans hparent
    rw [hcomponents, List.prefix_concat_iff, ← hcomponents] at habove
    rcases habove with hsame | hway
    · right
      show _ <+: q.components.foldl Path.Component.lead host.files.workingDirectory
      rw [hsame]
      exact hbelow.prefix_place _
    · exact .inl ⟨q.components, hway, rfl⟩
  · rintro l (hl | hl)
    · rw [hl]
      exact hpartial.prefix_place _
    · rw [hl]
      exact hbelow.prefix_place _

namespace Session

variable {rs : Repositories} {r r₁ r₂ : CachingResolver} {c c' : Coordinate}
  {host mid asked left : Host} {d k : Artifact}

theorem Answers.changesBelow (h : Answers rs r c host d r₁ mid) (hc : c.WellFormed)
    (hname : IsName d.version) (hempty : r.cache.index = .empty)
    (hfile : r.cache.file? = some (rs.cacheDir.child Cache.fileName)) :
    FileTree.ChangesBelow rs.cacheDir host.files mid.files := by
  have hfile' := h.file?_eq.trans hfile
  have hresolved := h.resolved_of_empty hempty
  cases h with
  | reused hentry hartifact hdigest => exact FileTree.Alters.refl _ _ _
  | resolved _ hpolicy hcache =>
    exact (rs.changesBelow_resolve hc hname hresolved).trans (Cache.changesBelow_save hfile' _)

theorem eq_of_goAround (hc : c.IsRead) (hc' : c'.IsRead)
    (hd : Answers rs r c host d r₁ mid) (hk : Answers rs r₁ c' asked k r₂ left)
    (hplaced : r.cache.IsPlaced) (hindex : r.cache.index = .empty)
    (hfile : r.cache.file? = some (rs.cacheDir.child Cache.fileName))
    (hfiles : asked.files = mid.files) (hweb : asked.web = host.web)
    (hname : IsName d.version) (haround : rs.GoAround host.files)
    (hcoordinate : d.coordinate = k.coordinate) : k = d := by
  have hkey := cacheKey_eq_of_coordinate_eq hd hk hindex hcoordinate
  have hresolved := hd.resolved_of_empty hindex
  have hchanges := hd.changesBelow hc.wellFormed hname hindex hfile
  rw [← hfiles] at hchanges
  cases hk with
  | reused hentry hartifact hdigest =>
    obtain ⟨entry, hentry', rfl⟩ := (hd.remembers hplaced).entry
    rw [hkey] at hentry'
    rw [← hartifact, Option.some.inj (hentry'.symm.trans hentry)]
  | resolved hresolved' hpolicy hcache =>
    rw [hc'.eq_of_text_eq hc hkey.symm] at hresolved'
    exact (haround.alikeFor hc.wellFormed hweb hchanges).answer hc.wellFormed hname hresolved
      hresolved'

end Session

namespace Program

variable {line : CommandLine} {host : Host} {p : Resolutions}

/-- If the ways to the jars lead around the cache directory, the artifacts of a run lie apart as
soon as their versions are plain names. -/
theorem Online.apart (h : Online line host p) (hnames : ∀ a ∈ p.artifacts, IsName a.version)
    (haround : (Session.repositoriesOf p.settings (optionsOf line).projectDir).GoAround
      host.files) : p.artifacts.Pairwise Session.Apart := by
  have hplaced := Cache.isPlaced_load host.files p.settings.cache.dir
  have hnothing := h.index_eq_empty
  obtain ⟨honline, hrefresh, hempty, hclock, hpast, hsaved⟩ := h
  cases hpast with
  | dependency hcommand hprepare hresolve => exact List.pairwise_singleton _ _
  | console hcommand hprepare hresolve hlauncher hconsole hresolve' =>
    have hanswers := answersTwice honline hresolve hlauncher hresolve'
    have hd := hnames _ List.mem_cons_self
    have hk := hnames _ (List.mem_cons_of_mem _ List.mem_cons_self)
    have hc' := Coordinate.isRead_of_parse (Settings.parse_of_coordinate? hconsole)
    refine List.pairwise_pair.2 ⟨⟨hd, hk⟩, fun hcoordinate => ?_⟩
    exact (Session.eq_of_goAround (Session.isRead_of_prepare hprepare) hc' hanswers.first
      hanswers.second hplaced hnothing rfl hanswers.files hanswers.web hd haround hcoordinate).symm

end Program

end ModuleRig
