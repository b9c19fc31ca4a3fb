import ModuleRig.Proofs.Files.Replacement

/-!
# Changes that are cut short

A program can be stopped at any moment, and a call of the system can fail for reasons that no tree
shows: a full disk, a broken device. `CutShort` is what a list of operations may have done by then.
A replacement that is cut short has left the old file or put the whole new one in its place, and has
changed no other file but the second one: `WholeOrNot`.
-/

namespace ModuleRig.FileTree

variable {t u v : FileTree} {operation : Operation} {first rest : List Operation}

/-! ## Operations that are cut short -/

/-- What an operation may have done when it fails or is stopped. Directories are made one at a time
and a content is written in parts. All else happens at once. -/
inductive Leaves (t : FileTree) : Operation → FileTree → Prop
  | nothing (operation : Operation) : Leaves t operation t
  | directory {p q : Path} {u v : FileTree} (h : Leaves t (.makeDirectories p) u)
      (hq : q ∈ p.ancestors) (hmake : u.makeDirectory q = .ok v) : Leaves t (.makeDirectories p) v
  | created {p : Path} {u : FileTree} (h : t.create p = .ok u) : Leaves t (.create p) u
  | appended {p : Path} {part bytes : Bytes} {u : FileTree} (hpart : part <+: bytes)
      (h : t.append p part = .ok u) : Leaves t (.append p bytes) u
  | renamed {source target : Path} {u : FileTree} (h : t.rename source target = .ok u) :
      Leaves t (.rename source target) u

/-- The trees that are left when operations fail or are stopped anywhere. They go on behind an
operation only if it is done in full. -/
inductive CutShort : FileTree → List Operation → FileTree → Prop
  | done (t : FileTree) : CutShort t [] t
  | within {t u : FileTree} {operation : Operation} {rest : List Operation}
      (h : t.Leaves operation u) : CutShort t (operation :: rest) u
  | onwards {t u v : FileTree} {operation : Operation} {rest : List Operation}
      (hdone : t.perform operation = (.ok (), u)) (h : CutShort u rest v) :
      CutShort t (operation :: rest) v

theorem leaves_whole {x : Except Kind FileTree} (h : ∀ u, x = .ok u → t.Leaves operation u) :
    t.Leaves operation (t.whole x).2 := by
  cases x with
  | error kind => exact .nothing operation
  | ok u => exact h u rfl

theorem leaves_perform (t : FileTree) (operation : Operation) :
    t.Leaves operation (t.perform operation).2 := by
  cases operation with
  | makeDirectories p =>
    refine ensureAll_induction (.nothing _) ?_
    intro q hq u v hu hmake
    exact .directory hu hq hmake
  | create p => exact leaves_whole fun u hu => .created hu
  | append p bytes => exact leaves_whole fun u hu => .appended List.prefix_rfl hu
  | sync p => exact .nothing _
  | rename source target => exact leaves_whole fun u hu => .renamed hu

theorem cutShort_performAll (t : FileTree) (operations : List Operation) :
    t.CutShort operations (t.performAll operations).2 := by
  induction operations generalizing t with
  | nil => exact .done t
  | cons operation rest ih =>
    have hleaves := leaves_perform t operation
    rw [performAll]
    rcases hperform : t.perform operation with ⟨_ | _, u⟩
    · rw [hperform] at hleaves
      exact .within hleaves
    · exact .onwards hperform (ih u)

theorem CutShort.of_append (h : CutShort t (first ++ rest) v) :
    CutShort t first v ∨
      (t.performAll first).1 = .ok () ∧ CutShort (t.performAll first).2 rest v := by
  induction first generalizing t with
  | nil => exact .inr ⟨rfl, h⟩
  | cons operation first ih =>
    cases h with
    | within h => exact .inl (.within h)
    | @onwards _ u _ _ _ hdone h =>
      have hperform : t.performAll (operation :: first) = u.performAll first := by
        rw [performAll, hdone]
      rcases ih h with hfirst | ⟨hall, hrest⟩
      · exact .inl (.onwards hdone hfirst)
      · rw [hperform]
        exact .inr ⟨hall, hrest⟩

theorem CutShort.of_singleton (h : CutShort t [operation] v) : t.Leaves operation v := by
  cases h with
  | within h => exact h
  | onwards hdone h =>
    cases h with
    | done =>
      have hleaves := leaves_perform t operation
      rw [hdone] at hleaves
      exact hleaves

/-! ## What they change -/

theorem Leaves.alters (h : t.Leaves operation u) :
    Alters (operation.makes t.workingDirectory) (operation.writes t.workingDirectory) t u := by
  induction h with
  | nothing operation => exact Alters.refl _ _ t
  | @directory p q u v hleaves hq hmake ih =>
    have hstep := alters_makeDirectory hmake
    rw [ih.workingDirectory] at hstep
    exact ih.trans (hstep.mono (fun l hl => ⟨q, hq, hl⟩) fun l => False.elim)
  | created hcreate => exact (alters_create hcreate).mono (fun l => False.elim) fun l => id
  | appended hpart happend =>
    exact (alters_append happend).mono (fun l => False.elim) fun l => id
  | renamed hrename => exact (alters_rename hrename).mono (fun l => False.elim) fun l => id

theorem Leaves.keepsDirectories (h : t.Leaves operation u) : KeepsDirectories t u := by
  induction h with
  | nothing operation => exact fun l => id
  | directory hleaves hq hmake ih => exact ih.trans (keepsDirectories_makeDirectory hmake)
  | created hcreate => exact keepsDirectories_create hcreate
  | appended hpart happend => exact keepsDirectories_append happend
  | renamed hrename => exact keepsDirectories_rename hrename

theorem CutShort.alters {made written : Location → Prop} {operations : List Operation}
    (h : CutShort t operations v)
    (hmade : ∀ operation ∈ operations, ∀ l, operation.makes t.workingDirectory l → made l)
    (hwritten : ∀ operation ∈ operations, ∀ l, operation.writes t.workingDirectory l → written l) :
    Alters made written t v := by
  induction h with
  | done t => exact Alters.refl _ _ t
  | within h =>
    exact h.alters.mono (hmade _ List.mem_cons_self) (hwritten _ List.mem_cons_self)
  | @onwards t u v operation rest hdone h ih =>
    have hstep := alters_perform t operation
    rw [hdone] at hstep
    have hrest : Alters made written u v := by
      refine ih ?_ ?_
      all_goals rw [hstep.workingDirectory]
      · exact fun op hop => hmade op (List.mem_cons_of_mem _ hop)
      · exact fun op hop => hwritten op (List.mem_cons_of_mem _ hop)
    refine Alters.trans (hstep.mono ?_ ?_) hrest
    · exact hmade operation List.mem_cons_self
    · exact hwritten operation List.mem_cons_self

theorem CutShort.keepsDirectories {operations : List Operation} (h : CutShort t operations v) :
    KeepsDirectories t v := by
  induction h with
  | done t => exact fun l => id
  | within h => exact h.keepsDirectories
  | @onwards t u v operation rest hdone h ih =>
    have hstep := keepsDirectories_perform t operation
    rw [hdone] at hstep
    exact hstep.trans ih

/-! ## Replacements that are cut short -/

/-- Between two trees the file in one place was replaced as a whole or not at all. The one in a
second place may be anything. No other file comes, goes or changes, and no directory is lost. -/
structure WholeOrNot (partialFile target : Location) (content : Bytes) (t u : FileTree) : Prop where
  replaced : u.file? target = t.file? target ∨ u.content? target = some content
  others : ∀ l, l ≠ partialFile → l ≠ target → u.file? l = t.file? l
  directories : ∀ l, t.node? l = some .directory → u.node? l = some .directory

variable {dir partialFile target : Path} {content : Bytes} {safe : Bool}

theorem CutShort.alters_preparation
    (h : CutShort t (preparation dir partialFile content safe) v) :
    Alters (fun l => ∃ q ∈ dir.ancestors, l = q.place t.workingDirectory)
      (· = partialFile.place t.workingDirectory) t v :=
  h.alters (fun _ hmem _ => makes_of_mem_preparation hmem)
    fun _ hmem _ => writes_of_mem_preparation hmem

/-- The move puts the whole content in the place of the target, or does nothing. -/
theorem Leaves.target_of_rename (h : t.Leaves (.rename partialFile target) v)
    (hcontent : t.content? (partialFile.place t.workingDirectory) = some content)
    (hne : partialFile.place t.workingDirectory ≠ target.place t.workingDirectory) :
    v = t ∨ v.content? (target.place t.workingDirectory) = some content := by
  cases h with
  | nothing => exact .inl rfl
  | renamed hrename =>
    have hread := bytesAt?_of_read (read_of_rename hrename hcontent hne)
    rw [bytesAt?, (alters_rename hrename).workingDirectory] at hread
    exact .inr hread

theorem CutShort.wholeOrNot (h : CutShort t (replacement dir partialFile target content safe) v)
    (hne : partialFile.place t.workingDirectory ≠ target.place t.workingDirectory) :
    WholeOrNot (partialFile.place t.workingDirectory) (target.place t.workingDirectory) content
      t v := by
  have hdirectories := h.keepsDirectories
  rw [replacement_eq] at h
  rcases h.of_append with hprepared | ⟨hok, hmove⟩
  · have halters := hprepared.alters_preparation
    refine ⟨.inl (halters.file?_eq hne.symm), ?_, hdirectories⟩
    intro l hpartial htarget
    exact halters.file?_eq hpartial
  · -- All is prepared, and at most the move is still done.
    have halters := FileTree.alters_preparation t dir partialFile content safe
    have hcontent := content?_of_preparation_ok hok
    have hleaves := hmove.of_singleton
    have hmoved := hleaves.alters
    rw [← halters.workingDirectory] at hcontent hne
    have htarget := hleaves.target_of_rename hcontent hne
    rw [halters.workingDirectory] at hmoved htarget hne
    refine ⟨?_, ?_, hdirectories⟩
    · rcases htarget with rfl | hnew
      · exact .inl (halters.file?_eq hne.symm)
      · exact .inr hnew
    · intro l hpartial htarget
      rw [hmoved.file?_eq (not_or.2 ⟨hpartial, htarget⟩), halters.file?_eq hpartial]

end ModuleRig.FileTree
