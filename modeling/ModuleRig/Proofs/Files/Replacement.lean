import ModuleRig.Proofs.Files.Reading

/-!
# Replacing a file

The new content is prepared beside the old file, and only then moved onto its name. So a
replacement that fails has changed nothing but the second file and some directories, and one that
succeeds leaves a file that reads as the new content.
-/

namespace ModuleRig.FileTree

variable {t t' : FileTree} {kind : Kind}

/-! ## Operations one after the other -/

theorem performAll_append_of_error {operations : List Operation} (rest : List Operation)
    (h : (t.performAll operations).1 = .error kind) :
    t.performAll (operations ++ rest) = t.performAll operations := by
  induction operations generalizing t with
  | nil => contradiction
  | cons operation operations ih =>
    rw [List.cons_append, performAll, performAll]
    rw [performAll] at h
    generalize t.perform operation = run at h
    rcases run with ⟨⟨⟩ | ⟨⟨⟩⟩, u⟩
    · rfl
    · exact ih h

theorem performAll_append_of_ok {operations : List Operation} (rest : List Operation)
    (h : (t.performAll operations).1 = .ok ()) :
    t.performAll (operations ++ rest) = (t.performAll operations).2.performAll rest := by
  induction operations generalizing t with
  | nil => rfl
  | cons operation operations ih =>
    rw [List.cons_append, performAll, performAll]
    rw [performAll] at h
    generalize t.perform operation = run at h
    rcases run with ⟨⟨⟩ | ⟨⟨⟩⟩, u⟩
    · contradiction
    · exact ih h

theorem performAll_cons_ok {operation : Operation} {rest : List Operation}
    (h : (t.performAll (operation :: rest)).1 = .ok ()) :
    (t.perform operation).1 = .ok () ∧
      t.performAll (operation :: rest) = (t.perform operation).2.performAll rest := by
  rw [performAll] at h ⊢
  generalize t.perform operation = run at h
  rcases run with ⟨⟨⟩ | ⟨⟨⟩⟩, u⟩
  · contradiction
  · exact ⟨rfl, rfl⟩

theorem performAll_singleton (t : FileTree) (operation : Operation) :
    t.performAll [operation] = t.perform operation := by
  rw [performAll]
  generalize t.perform operation = run
  rcases run with ⟨⟨⟩ | ⟨⟨⟩⟩, u⟩ <;> rfl

theorem whole_ok {x : Except Kind FileTree} (h : (t.whole x).1 = .ok ()) :
    x = .ok (t.whole x).2 := by
  cases x with
  | error kind => contradiction
  | ok u => rfl

/-! ## Preparing the second file -/

variable {dir partialFile target : Path} {content : Bytes} {safe : Bool}

/-- All of a replacement but the last move. -/
def preparation (dir partialFile : Path) (content : Bytes) (safe : Bool) : List Operation :=
  [.makeDirectories dir, .create partialFile, .append partialFile content] ++
    (if safe then [.sync partialFile] else [])

theorem replacement_eq (dir partialFile target : Path) (content : Bytes) (safe : Bool) :
    replacement dir partialFile target content safe =
      preparation dir partialFile content safe ++ [.rename partialFile target] :=
  rfl

theorem mem_preparation {operation : Operation}
    (h : operation ∈ preparation dir partialFile content safe) :
    operation = .makeDirectories dir ∨ operation = .create partialFile ∨
      operation = .append partialFile content ∨ operation = .sync partialFile := by
  cases safe <;> simp [preparation] at h <;> tauto

theorem makes_of_mem_preparation {operation : Operation} {start l : Location}
    (h : operation ∈ preparation dir partialFile content safe) (hmakes : operation.makes start l) :
    ∃ q ∈ dir.ancestors, l = q.place start := by
  rcases mem_preparation h with rfl | rfl | rfl | rfl
  · exact hmakes
  all_goals exact hmakes.elim

theorem writes_of_mem_preparation {operation : Operation} {start l : Location}
    (h : operation ∈ preparation dir partialFile content safe)
    (hwrites : operation.writes start l) : l = partialFile.place start := by
  rcases mem_preparation h with rfl | rfl | rfl | rfl
  · exact hwrites.elim
  · exact hwrites
  · exact hwrites
  · exact hwrites.elim

theorem alters_preparation (t : FileTree) (dir partialFile : Path) (content : Bytes)
    (safe : Bool) :
    Alters (fun l => ∃ q ∈ dir.ancestors, l = q.place t.workingDirectory)
      (· = partialFile.place t.workingDirectory) t
      (t.performAll (preparation dir partialFile content safe)).2 :=
  alters_performAll (fun _ hmem _ => makes_of_mem_preparation hmem)
    fun _ hmem _ => writes_of_mem_preparation hmem

theorem content?_put_self {l : Location} (h : l ≠ []) (content : Bytes) (kind : FileKind) :
    (t.put l (.file content kind)).content? l = some content := by
  unfold content?
  rw [node?_put_self t _ h]

theorem ne_nil_of_node?_ne {l : Location} (h : t.node? l ≠ some .directory) : l ≠ [] := by
  rintro rfl
  exact h (by simp [node?])

theorem content?_of_create_append {p : Path} (hcreate : t.create p = .ok t')
    {t'' : FileTree} (happend : t'.append p content = .ok t'') :
    t''.content? (p.place t.workingDirectory) = some content := by
  obtain ⟨hopen, kind, rfl⟩ := create_ok hcreate
  have hne := ne_nil_of_node?_ne hopen
  have hstart : (t.put (p.place t.workingDirectory) (.file [] kind)).workingDirectory =
      t.workingDirectory := rfl
  obtain ⟨old, kind', hold, rfl⟩ := append_ok happend
  rw [hstart, node?_put_self t _ hne] at hold
  cases hold
  rw [hstart, List.nil_append]
  exact content?_put_self hne content kind

theorem performAll_settling (t : FileTree) (p : Path) (safe : Bool) :
    t.performAll (if safe then [.sync p] else []) = (.ok (), t) := by
  cases safe <;> rfl

theorem content?_of_preparation_ok
    (h : (t.performAll (preparation dir partialFile content safe)).1 = .ok ()) :
    (t.performAll (preparation dir partialFile content safe)).2.content?
      (partialFile.place t.workingDirectory) = some content := by
  have hstart : (t.perform (.makeDirectories dir)).2.workingDirectory = t.workingDirectory :=
    (alters_perform t (.makeDirectories dir)).workingDirectory
  unfold preparation at h ⊢
  simp only [List.cons_append, List.nil_append] at h ⊢
  obtain ⟨-, hdirs⟩ := performAll_cons_ok h
  rw [hdirs] at h ⊢
  obtain ⟨hcreated, hcreate⟩ := performAll_cons_ok h
  rw [hcreate] at h ⊢
  obtain ⟨happended, happend⟩ := performAll_cons_ok h
  rw [happend, performAll_settling, ← hstart]
  exact content?_of_create_append (whole_ok hcreated) (whole_ok happended)

/-! ## The whole replacement -/

theorem alters_replacement_of_error
    (h : (t.performAll (replacement dir partialFile target content safe)).1 = .error kind) :
    Alters (fun l => ∃ q ∈ dir.ancestors, l = q.place t.workingDirectory)
      (· = partialFile.place t.workingDirectory) t
      (t.performAll (replacement dir partialFile target content safe)).2 := by
  have halters := alters_preparation t dir partialFile content safe
  rw [replacement_eq] at h ⊢
  cases hprepared : (t.performAll (preparation dir partialFile content safe)).1 with
  | error kind' =>
    rw [performAll_append_of_error _ hprepared]
    exact halters
  | ok _ =>
    rw [performAll_append_of_ok _ hprepared, performAll_singleton, perform] at h ⊢
    -- The move is the last step, and a move that fails changes nothing.
    cases hrename : (t.performAll (preparation dir partialFile content safe)).2.rename partialFile
        target with
    | error kind' => exact halters
    | ok u =>
      rw [hrename] at h
      contradiction

theorem alters_replacement (t : FileTree) (dir partialFile target : Path) (content : Bytes)
    (safe : Bool) :
    Alters (fun l => ∃ q ∈ dir.ancestors, l = q.place t.workingDirectory)
      (fun l => l = partialFile.place t.workingDirectory ∨ l = target.place t.workingDirectory) t
      (t.performAll (replacement dir partialFile target content safe)).2 := by
  have hprepared := alters_preparation t dir partialFile content safe
  rw [replacement_eq]
  cases hok : (t.performAll (preparation dir partialFile content safe)).1 with
  | error kind =>
    rw [performAll_append_of_error _ hok]
    exact hprepared.mono (fun _ => id) fun _ => .inl
  | ok _ =>
    rw [performAll_append_of_ok _ hok, performAll_singleton]
    have hrename := alters_perform (t.performAll (preparation dir partialFile content safe)).2
      (.rename partialFile target)
    rw [hprepared.workingDirectory] at hrename
    exact (hprepared.mono (fun _ => id) fun _ => .inl).trans
      (hrename.mono (fun _ hmakes => hmakes.elim) fun _ => id)

theorem read_of_rename {source target : Path} (h : t.rename source target = .ok t')
    (hsource : t.content? (source.place t.workingDirectory) = some content)
    (hne : source.place t.workingDirectory ≠ target.place t.workingDirectory) :
    t'.read target = .ok content := by
  obtain ⟨hopen, content', kind, hfile, ⟨-, hsame⟩ | hmoved⟩ := rename_ok h
  · exact absurd hsame hne
  · have hcontent' : content' = content := by
      unfold content? at hsource
      rw [hfile] at hsource
      exact Option.some.inj hsource
    have hthere : t'.content? (target.place t.workingDirectory) = some content := by
      rw [hmoved, hcontent']
      exact content?_put_self (ne_nil_of_node?_ne hopen) content kind
    have hstart : t'.workingDirectory = t.workingDirectory := by
      rw [hmoved]
      rfl
    refine (read_eq_ok_iff t' target content).2 ⟨_, ?_, hthere⟩
    obtain ⟨_, -, hrename⟩ := exists_of_bind_eq_ok h
    obtain ⟨⟨dir, name⟩, hnew, -⟩ := exists_of_bind_eq_ok hrename
    rw [← foldl_lead_moves, ← locateNew_ok hnew] at hthere ⊢
    exact locate_of_locateNew (keepsDirectories_rename h) hstart hnew
      (isSome_node?_of_content? hthere)

theorem node?_source_of_rename {source target : Path} (h : t.rename source target = .ok t')
    (hne : source.place t.workingDirectory ≠ target.place t.workingDirectory) :
    t'.node? (source.place t.workingDirectory) = none := by
  obtain ⟨-, content, kind, hfile, ⟨-, hsame⟩ | rfl⟩ := rename_ok h
  · exact absurd hsame hne
  · have hfound : t.node? (source.place t.workingDirectory) ≠ some .directory := by
      simp [hfile]
    rw [node?_put_ne _ _ hne]
    exact node?_erase_self t (ne_nil_of_node?_ne hfound)

theorem rename_of_replacement_ok
    (h : (t.performAll (replacement dir partialFile target content safe)).1 = .ok ()) :
    (t.performAll (preparation dir partialFile content safe)).1 = .ok () ∧
      (t.performAll (preparation dir partialFile content safe)).2.rename partialFile target =
        .ok (t.performAll (replacement dir partialFile target content safe)).2 := by
  rw [replacement_eq] at h ⊢
  cases hprepared : (t.performAll (preparation dir partialFile content safe)).1 with
  | error kind =>
    rw [performAll_append_of_error _ hprepared, hprepared] at h
    contradiction
  | ok _ =>
    rw [performAll_append_of_ok _ hprepared, performAll_singleton] at h ⊢
    exact ⟨rfl, whole_ok h⟩

theorem read_of_replacement_ok
    (h : (t.performAll (replacement dir partialFile target content safe)).1 = .ok ())
    (hne : partialFile.place t.workingDirectory ≠ target.place t.workingDirectory) :
    (t.performAll (replacement dir partialFile target content safe)).2.read target = .ok content := by
  have halters := alters_preparation t dir partialFile content safe
  obtain ⟨hprepared, hrename⟩ := rename_of_replacement_ok h
  have hcontent := content?_of_preparation_ok hprepared
  rw [← halters.workingDirectory] at hcontent hne
  exact read_of_rename hrename hcontent hne

theorem node?_partialFile_of_replacement_ok
    (h : (t.performAll (replacement dir partialFile target content safe)).1 = .ok ())
    (hne : partialFile.place t.workingDirectory ≠ target.place t.workingDirectory) :
    (t.performAll (replacement dir partialFile target content safe)).2.node?
      (partialFile.place t.workingDirectory) = none := by
  have halters := alters_preparation t dir partialFile content safe
  rw [← halters.workingDirectory] at hne ⊢
  exact node?_source_of_rename (rename_of_replacement_ok h).2 hne

end ModuleRig.FileTree
