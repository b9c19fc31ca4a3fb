import ModuleRig.Proofs.Files.Entries
import ModuleRig.Proofs.Files.Replacement

/-!
# What succeeds again

A replacement that succeeded can be done again, with any content. Its directory is there by then,
the paths lead where they did, and nothing is left in the place of the second file.
-/

namespace ModuleRig.FileTree

variable {t t' u : FileTree} {p dir partialFile target : Path} {kind : Kind}

/-! ## Directories -/

theorem isDirectory_iff :
    t.isDirectory p = true ↔ ∃ l, t.locate p = .ok l ∧ t.node? l = some .directory := by
  unfold isDirectory nodeAt?
  cases t.locate p with
  | error kind => simp
  | ok l =>
    cases hnode : t.node? l with
    | none => simp [hnode]
    | some node => cases node <;> simp [hnode]

theorem isDirectory_again (h : KeepsDirectories t t')
    (hstart : t'.workingDirectory = t.workingDirectory) (hdir : t.isDirectory p = true) :
    t'.isDirectory p = true := by
  obtain ⟨l, hlocate, hnode⟩ := isDirectory_iff.1 hdir
  have hnode' := h l hnode
  exact isDirectory_iff.2 ⟨l, locate_again h hstart hlocate (by simp [hnode']), hnode'⟩

theorem isDirectory_of_makeDirectory (h : t.makeDirectory p = .ok t') :
    t'.isDirectory p = true := by
  have hkeeps := keepsDirectories_makeDirectory h
  have hstart := (alters_makeDirectory h).workingDirectory
  obtain ⟨⟨dir, name⟩, hnew, hmake⟩ := exists_of_bind_eq_ok h
  have hnode : t'.node? (dir ++ [name]) = some .directory := by
    simp only at hmake
    split at hmake
    · contradiction
    · obtain rfl := Except.ok.inj hmake
      exact node?_put_self t .directory (by simp)
  obtain ⟨hspelling, hwalk⟩ := walk_of_locateNew hkeeps hstart hnew (by simp [hnode])
  -- Behind the new name there are only the slashes at the end of the path.
  have hidle := filterMap_component?_rtakeWhile p.pieces
  have hpieces := List.rdropWhile_append_rtakeWhile (p := List.isEmpty) (l := p.pieces)
  refine isDirectory_iff.2 ⟨dir ++ [name], ?_, hnode⟩
  rw [locate, hspelling]
  show t'.walk (t'.origin p) p.moves = .ok (dir ++ [name])
  rw [Path.moves, ← hpieces, List.map_append, walk_append, List.rdropWhile, hwalk]
  exact walk_idle hnode hidle

theorem isDirectory_of_ensureDirectory (h : t.ensureDirectory p = .ok t') :
    t'.isDirectory p = true := by
  unfold ensureDirectory at h
  split at h
  · next hmake =>
    obtain rfl := Except.ok.inj h
    exact isDirectory_of_makeDirectory hmake
  · split at h
    · next hdir => exact Except.ok.inj h ▸ hdir
    · contradiction

theorem ensureDirectory_of_isDirectory (h : t.isDirectory p = true) :
    t.ensureDirectory p = .ok t := by
  unfold ensureDirectory
  split
  · next hmake =>
    -- What is there is not made again.
    obtain ⟨l, hlocate, hnode⟩ := isDirectory_iff.1 h
    obtain ⟨hnone, -⟩ := makeDirectory_ok hmake
    rw [← locate_ok hlocate, hnode] at hnone
    contradiction
  · rw [if_pos h]

theorem isDirectory_of_makeDirectories (h : (t.makeDirectories p).1 = .ok ()) :
    p.chars = [] ∨ (t.makeDirectories p).2.isDirectory p = true := by
  obtain ⟨above, habove⟩ := p.exists_ancestors
  unfold makeDirectories at h ⊢
  rw [habove, ensureAll] at h ⊢
  by_cases hempty : p.chars = []
  · exact .inl hempty
  · rw [if_neg hempty] at h ⊢
    right
    split at h
    · next hensure => exact isDirectory_of_ensureDirectory hensure
    · split at h
      · contradiction
      · split at h
        · next hensure => exact isDirectory_of_ensureDirectory hensure
        · contradiction
    · contradiction

theorem makeDirectories_of_isDirectory (h : p.chars = [] ∨ t.isDirectory p = true) :
    t.makeDirectories p = (.ok (), t) := by
  obtain ⟨above, habove⟩ := p.exists_ancestors
  rw [makeDirectories, habove, ensureAll]
  by_cases hempty : p.chars = []
  · rw [if_pos hempty]
  · rw [if_neg hempty, ensureDirectory_of_isDirectory (h.resolve_left hempty)]

/-! ## Files -/

/-- A file can be put under the path: the way to it is there, and no directory has it. -/
def Takes (t : FileTree) (p : Path) : Prop :=
  ∃ dir name, t.locateNew p p.moves .isADirectory = .ok (dir, name) ∧
    t.node? (dir ++ [name]) ≠ some .directory

theorem place_of_locateNew {dir : Location} {name : String} {nameless : Kind}
    (hnew : t.locateNew p p.moves nameless = .ok (dir, name)) :
    p.place t.workingDirectory = dir ++ [name] := by
  rw [← foldl_lead_moves, locateNew_ok hnew]

theorem Takes.node?_ne (h : t.Takes p) :
    t.node? (p.place t.workingDirectory) ≠ some .directory := by
  obtain ⟨dir, name, hnew, hopen⟩ := h
  rwa [place_of_locateNew hnew]

theorem Takes.again (h : t.Takes p) (hkeeps : KeepsDirectories t t')
    (hstart : t'.workingDirectory = t.workingDirectory)
    (hopen : t'.node? (p.place t.workingDirectory) ≠ some .directory) : t'.Takes p := by
  obtain ⟨dir, name, hnew, -⟩ := h
  rw [place_of_locateNew hnew] at hopen
  exact ⟨dir, name, locateNew_again hkeeps hstart hnew, hopen⟩

theorem takes_of_create (h : t.create p = .ok t') : t.Takes p := by
  have hopen := (create_ok h).1
  obtain ⟨⟨dir, name⟩, hnew, -⟩ := exists_of_bind_eq_ok h
  rw [place_of_locateNew hnew] at hopen
  exact ⟨dir, name, hnew, hopen⟩

theorem takes_of_rename {source : Path} (h : t.rename source target = .ok t') :
    t.Takes target := by
  have hopen := (rename_ok h).1
  obtain ⟨_, -, hrename⟩ := exists_of_bind_eq_ok h
  obtain ⟨⟨dir, name⟩, hnew, -⟩ := exists_of_bind_eq_ok hrename
  rw [place_of_locateNew hnew] at hopen
  exact ⟨dir, name, hnew, hopen⟩

theorem Takes.create (h : t.Takes p) :
    ∃ kind, t.create p = .ok (t.put (p.place t.workingDirectory) (.file [] kind)) := by
  obtain ⟨dir, name, hnew, hopen⟩ := h
  rw [place_of_locateNew hnew]
  unfold FileTree.create
  rw [hnew]
  simp only [bind, Except.bind]
  split
  · next hnode => exact absurd hnode hopen
  · exact ⟨_, rfl⟩
  · exact ⟨_, rfl⟩

theorem append_of_locate {l : Location} {content : Bytes} {kind : FileKind}
    (hlocate : t.locate p = .ok l) (hfile : t.node? l = some (.file content kind))
    (bytes : Bytes) : t.append p bytes = .ok (t.put l (.file (content ++ bytes) kind)) := by
  unfold append
  rw [hlocate]
  simp only [bind, Except.bind, hfile]
  rfl

theorem Takes.rename {source : Path} {l : Location} {content : Bytes} {kind : FileKind}
    (h : t.Takes target) (hlocate : t.locate source = .ok l)
    (hfile : t.node? l = some (.file content kind)) : ∃ u, t.rename source target = .ok u := by
  obtain ⟨dir, name, hnew, hopen⟩ := h
  unfold FileTree.rename
  rw [hlocate]
  simp only [bind, Except.bind, hnew, hfile]
  split
  · exact ⟨_, rfl⟩
  · exact ⟨_, rfl⟩

theorem Takes.locate_put (h : t.Takes p) (content : Bytes) (kind : FileKind) :
    (t.put (p.place t.workingDirectory) (.file content kind)).locate p =
      .ok (p.place t.workingDirectory) := by
  obtain ⟨dir, name, hnew, hopen⟩ := h
  rw [place_of_locateNew hnew]
  refine locate_of_locateNew (keepsDirectories_put hopen _) rfl hnew ?_
  rw [node?_put_self t _ (by simp)]
  rfl

/-! ## Replacements -/

/-- Nothing is in the way of a replacement. -/
structure Ready (t : FileTree) (dir partialFile target : Path) : Prop where
  directory : dir.chars = [] ∨ t.isDirectory dir = true
  beside : t.Takes partialFile
  goal : t.Takes target

theorem performAll_cons_of_ok {operation : Operation} (h : t.perform operation = (.ok (), u))
    (rest : List Operation) : t.performAll (operation :: rest) = u.performAll rest := by
  rw [performAll, h]

theorem Ready.replacement (h : t.Ready dir partialFile target)
    (hne : partialFile.place t.workingDirectory ≠ target.place t.workingDirectory)
    (content : Bytes) (safe : Bool) :
    (t.performAll (replacement dir partialFile target content safe)).1 = .ok () := by
  have hdirs : t.perform (.makeDirectories dir) = (.ok (), t) :=
    makeDirectories_of_isDirectory h.directory
  obtain ⟨kind, hcreate⟩ := h.beside.create
  have hopen := h.beside.node?_ne
  generalize hl : partialFile.place t.workingDirectory = l at hcreate hopen hne
  -- The file is empty at first, then it has its content, and then it is moved.
  let made := t.put l (.file [] kind)
  let written := made.put l (.file content kind)
  have hmade : made.node? l = some (.file [] kind) := node?_put_self t _ (ne_nil_of_node?_ne hopen)
  have hwritten : written.node? l = some (.file content kind) :=
    node?_put_self made _ (ne_nil_of_node?_ne hopen)
  have hlocate : made.locate partialFile = .ok l := by
    have := h.beside.locate_put [] kind
    rwa [hl] at this
  have happend : made.append partialFile content = .ok written :=
    append_of_locate hlocate hmade content
  have hkeeps : KeepsDirectories made written := keepsDirectories_append happend
  have hgoal : written.Takes target := by
    refine h.goal.again ((keepsDirectories_create hcreate).trans hkeeps) rfl ?_
    rw [node?_put_ne made _ hne.symm, node?_put_ne t _ hne.symm]
    exact h.goal.node?_ne
  obtain ⟨u, hrename⟩ := hgoal.rename (locate_again hkeeps rfl hlocate (by simp [hwritten])) hwritten
  have hprepared : t.performAll (preparation dir partialFile content safe) = (.ok (), written) := by
    rw [preparation, List.cons_append, performAll_cons_of_ok hdirs, List.cons_append,
      performAll_cons_of_ok (u := made) (by rw [perform, hcreate]; rfl), List.cons_append,
      performAll_cons_of_ok (u := written) (by rw [perform, happend]; rfl), List.nil_append,
      performAll_settling]
  rw [replacement_eq, performAll_append_of_ok _ (by rw [hprepared]), hprepared,
    performAll_singleton, perform, hrename]
  rfl

/-- After a replacement nothing is in the way of another one. -/
theorem ready_of_replacement {content : Bytes} {safe : Bool}
    (h : (t.performAll (replacement dir partialFile target content safe)).1 = .ok ())
    (hne : partialFile.place t.workingDirectory ≠ target.place t.workingDirectory) :
    (t.performAll (replacement dir partialFile target content safe)).2.Ready dir partialFile
      target := by
  generalize hleft : (t.performAll (replacement dir partialFile target content safe)).2 = left
  have hstart := (alters_replacement t dir partialFile target content safe).workingDirectory
  have hfree := node?_partialFile_of_replacement_ok h hne
  have hread := bytesAt?_of_read (read_of_replacement_ok h hne)
  obtain ⟨-, hrename⟩ := rename_of_replacement_ok h
  rw [hleft] at hstart hfree hread hrename
  have hprepared := (alters_preparation t dir partialFile content safe).workingDirectory
  -- The first two operations leave the directory and the way to the second file.
  obtain ⟨hdirs, hrest⟩ := performAll_cons_ok h
  have hmade := (alters_perform t (.makeDirectories dir)).workingDirectory
  obtain ⟨hcreate, -⟩ := performAll_cons_ok (hrest ▸ h)
  have hkeeps : KeepsDirectories (t.perform (.makeDirectories dir)).2 left := by
    rw [← hleft]
    exact hrest ▸ keepsDirectories_performAll _ _
  have hsame := hstart.trans hmade.symm
  refine ⟨?_, ?_, ?_⟩
  · rcases isDirectory_of_makeDirectories hdirs with hempty | hdir
    · exact .inl hempty
    · exact .inr (isDirectory_again hkeeps hsame hdir)
  · refine (takes_of_create (whole_ok hcreate)).again hkeeps hsame ?_
    rw [hmade, hfree]
    simp
  · refine (takes_of_rename hrename).again (keepsDirectories_rename hrename)
      (hstart.trans hprepared.symm) ?_
    intro hdirectory
    rw [hprepared, ← hstart] at hdirectory
    rw [bytesAt?, content?, hdirectory] at hread
    contradiction

theorem replacement_again {content content' : Bytes} {safe safe' : Bool}
    (h : (t.performAll (replacement dir partialFile target content safe)).1 = .ok ())
    (hne : partialFile.place t.workingDirectory ≠ target.place t.workingDirectory) :
    ((t.performAll (replacement dir partialFile target content safe)).2.performAll
      (replacement dir partialFile target content' safe')).1 = .ok () := by
  have hstart := (alters_replacement t dir partialFile target content safe).workingDirectory
  exact (ready_of_replacement h hne).replacement (by rwa [hstart]) content' safe'

end ModuleRig.FileTree
