import ModuleRig.Files.Change
import ModuleRig.Proofs.Basic
import ModuleRig.Proofs.Path.Below

/-!
# What file operations leave alone

An operation that succeeds on a path has gone to the path's place, so it changes the tree there and
nowhere else. `Alters` keeps apart two kinds of change: a directory made where nothing was, and any
change at all.
-/

namespace ModuleRig

/-- Where a move leads from a location. -/
def Move.lead (here : Location) : Move → Location
  | .stay => here
  | .up => here.dropLast
  | .down name => here ++ [name]

namespace FileTree

/-! ## Places -/

theorem enter_ok {t : FileTree} {here l : Location} {name : String}
    (h : t.enter here name = .ok l) : l = here ++ [name] := by
  unfold enter at h
  split at h
  · contradiction
  · split at h
    · contradiction
    · exact (Except.ok.inj h).symm

theorem walk_ok {t : FileTree} {here l : Location} {moves : List Move}
    (h : t.walk here moves = .ok l) : l = moves.foldl Move.lead here := by
  induction moves generalizing here with
  | nil => exact (Except.ok.inj h).symm
  | cons move moves ih =>
    cases move with
    | stay =>
      obtain ⟨-, -, hrest⟩ := exists_of_bind_eq_ok h
      exact ih hrest
    | up =>
      obtain ⟨-, -, hrest⟩ := exists_of_bind_eq_ok h
      exact ih hrest
    | down name =>
      obtain ⟨-, -, hdown⟩ := exists_of_bind_eq_ok h
      obtain ⟨next, hnext, hrest⟩ := exists_of_bind_eq_ok hdown
      rw [ih hrest, enter_ok hnext, List.foldl_cons, Move.lead]

theorem foldl_lead_pieces (pieces : List (List Char)) (here : Location) :
    (pieces.map Move.ofPiece).foldl Move.lead here =
      (pieces.filterMap Path.component?).foldl Path.Component.lead here := by
  induction pieces generalizing here with
  | nil => rfl
  | cons piece pieces ih =>
    rw [List.map_cons, List.foldl_cons, ih, List.filterMap_cons, Move.ofPiece, Path.component?]
    split
    · rfl
    · split <;> rfl

theorem foldl_lead_moves (t : FileTree) (p : Path) :
    p.moves.foldl Move.lead (t.origin p) = p.place t.workingDirectory := by
  rw [Path.moves, foldl_lead_pieces, Path.place, Path.components_eq, List.foldl_append, Path.steps,
    origin]
  congr 1
  unfold Path.front
  by_cases h : p.isAbsolute = true
  · rw [if_pos h, if_pos (p.isAbsolute_iff.1 h)]
    rfl
  · rw [if_neg h, if_neg fun hfront => h (p.isAbsolute_iff.2 hfront)]
    split <;> rfl

theorem locate_ok {t : FileTree} {p : Path} {l : Location} (h : t.locate p = .ok l) :
    l = p.place t.workingDirectory := by
  obtain ⟨-, -, hwalk⟩ := exists_of_bind_eq_ok h
  rw [walk_ok hwalk, foldl_lead_moves]

theorem locateNew_ok {t : FileTree} {p : Path} {moves : List Move} {nameless : Kind}
    {dir : Location} {name : String} (h : t.locateNew p moves nameless = .ok (dir, name)) :
    dir ++ [name] = moves.foldl Move.lead (t.origin p) := by
  obtain ⟨-, -, hspelled⟩ := exists_of_bind_eq_ok h
  obtain ⟨dir', hdir, hlocated⟩ := exists_of_bind_eq_ok hspelled
  obtain ⟨-, -, hnamed⟩ := exists_of_bind_eq_ok hlocated
  split at hnamed
  · next name' hlast =>
    split at hnamed
    · contradiction
    · obtain ⟨rfl, rfl⟩ := Prod.mk.inj (Except.ok.inj hnamed)
      obtain ⟨front, rfl⟩ := List.getLast?_eq_some_iff.1 hlast
      rw [List.dropLast_concat] at hdir
      rw [List.foldl_append, ← walk_ok hdir]
      rfl
  · contradiction

/-! ## Changes -/

/-- The second tree differs from the first only by directories made where nothing was, at some
locations, and by any changes at some others. -/
structure Alters (made written : Location → Prop) (t t' : FileTree) : Prop where
  workingDirectory : t'.workingDirectory = t.workingDirectory
  node? : ∀ l, t'.node? l = t.node? l ∨
    (made l ∧ t.node? l = none ∧ t'.node? l = some .directory) ∨ written l

variable {made written made' written' : Location → Prop} {t t' t'' : FileTree}

theorem Alters.refl (made written : Location → Prop) (t : FileTree) : Alters made written t t :=
  ⟨rfl, fun _ => .inl rfl⟩

theorem Alters.mono (h : Alters made written t t') (hmade : ∀ l, made l → made' l)
    (hwritten : ∀ l, written l → written' l) : Alters made' written' t t' where
  workingDirectory := h.workingDirectory
  node? := by
    intro l
    rcases h.node? l with hsame | ⟨hl, hbetween⟩ | hl
    · exact .inl hsame
    · exact .inr (.inl ⟨hmade l hl, hbetween⟩)
    · exact .inr (.inr (hwritten l hl))

theorem Alters.trans (h : Alters made written t t') (h' : Alters made written t' t'') :
    Alters made written t t'' where
  workingDirectory := h'.workingDirectory.trans h.workingDirectory
  node? := by
    intro l
    rcases h.node? l with hsame | ⟨hl, hnone, hdirectory⟩ | hl
    · rw [← hsame]
      exact h'.node? l
    · -- What was just made a directory is not made again.
      rcases h'.node? l with hsame' | ⟨-, hnone', -⟩ | hl'
      · exact .inr (.inl ⟨hl, hnone, hsame'.trans hdirectory⟩)
      · rw [hdirectory] at hnone'
        contradiction
      · exact .inr (.inr hl')
    · exact .inr (.inr hl)

theorem alters_put (t : FileTree) (l : Location) (node : Node) :
    Alters (fun _ => False) (· = l) t (t.put l node) where
  workingDirectory := rfl
  node? := by
    intro k
    by_cases h : k = l
    · exact .inr (.inr h)
    · exact .inl (node?_put_ne t node h)

theorem lookup_filter_ne {l k : Location} (h : k ≠ l) (entries : List (Location × Node)) :
    (entries.filter fun (j, _) => j != l).lookup k = entries.lookup k := by
  induction entries with
  | nil => rfl
  | cons entry entries ih =>
    obtain ⟨place, node⟩ := entry
    by_cases hplace : place = l
    · have hne : (k == place) = false := beq_eq_false_iff_ne.2 (hplace ▸ h)
      rw [List.filter_cons_of_neg (by simp [hplace]), ih, List.lookup_cons, hne]
    · rw [List.filter_cons_of_pos (by simp [hplace]), List.lookup_cons, List.lookup_cons, ih]

theorem node?_erase_ne (t : FileTree) {l k : Location} (h : k ≠ l) :
    (t.erase l).node? k = t.node? k := by
  unfold node? erase
  rw [lookup_filter_ne h]

theorem node?_erase_self (t : FileTree) {l : Location} (h : l ≠ []) :
    (t.erase l).node? l = none := by
  rw [node?, if_neg h, List.lookup_eq_none_iff]
  intro entry hentry
  simpa using Ne.symm (bne_iff_ne.1 (List.mem_filter.1 hentry).2)

theorem alters_erase (t : FileTree) (l : Location) :
    Alters (fun _ => False) (· = l) t (t.erase l) where
  workingDirectory := rfl
  node? := by
    intro k
    by_cases h : k = l
    · exact .inr (.inr h)
    · exact .inl (node?_erase_ne t h)

/-! ## Operations -/

theorem filterMap_component?_rtakeWhile (pieces : List (List Char)) :
    (pieces.rtakeWhile List.isEmpty).filterMap Path.component? = [] := by
  refine List.filterMap_eq_nil_iff.2 fun piece hpiece => ?_
  rw [List.isEmpty_iff.1 (List.mem_rtakeWhile_imp hpiece)]
  rfl

theorem foldl_lead_trimmed (t : FileTree) (p : Path) :
    ((p.pieces.reverse.dropWhile List.isEmpty).reverse.map Move.ofPiece).foldl Move.lead
      (t.origin p) = p.place t.workingDirectory := by
  have hidle := filterMap_component?_rtakeWhile p.pieces
  have hpieces := List.rdropWhile_append_rtakeWhile (p := List.isEmpty) (l := p.pieces)
  rw [← foldl_lead_moves, Path.moves, foldl_lead_pieces, foldl_lead_pieces]
  conv_rhs => rw [← hpieces, List.filterMap_append, hidle, List.append_nil]
  rfl

theorem makeDirectory_ok {p : Path} (h : t.makeDirectory p = .ok t') :
    t.node? (p.place t.workingDirectory) = none ∧
      t' = t.put (p.place t.workingDirectory) .directory := by
  obtain ⟨⟨dir, name⟩, hnew, hmake⟩ := exists_of_bind_eq_ok h
  rw [← (locateNew_ok hnew).trans (foldl_lead_trimmed t p)]
  simp only at hmake
  split at hmake
  · contradiction
  · next hnone => exact ⟨hnone, (Except.ok.inj hmake).symm⟩

theorem create_ok {p : Path} (h : t.create p = .ok t') :
    t.node? (p.place t.workingDirectory) ≠ some .directory ∧
      ∃ kind, t' = t.put (p.place t.workingDirectory) (.file [] kind) := by
  obtain ⟨⟨dir, name⟩, hnew, hcreate⟩ := exists_of_bind_eq_ok h
  rw [← foldl_lead_moves, ← locateNew_ok hnew]
  simp only at hcreate
  split at hcreate
  · contradiction
  · next hfile =>
    rw [hfile]
    exact ⟨by simp, _, (Except.ok.inj hcreate).symm⟩
  · next hnone =>
    rw [hnone]
    exact ⟨by simp, _, (Except.ok.inj hcreate).symm⟩

theorem append_ok {p : Path} {bytes : Bytes} (h : t.append p bytes = .ok t') :
    ∃ content kind, t.node? (p.place t.workingDirectory) = some (.file content kind) ∧
      t' = t.put (p.place t.workingDirectory) (.file (content ++ bytes) kind) := by
  obtain ⟨l, hl, happend⟩ := exists_of_bind_eq_ok h
  rw [← locate_ok hl]
  split at happend
  · next content kind hfile => exact ⟨content, kind, hfile, (Except.ok.inj happend).symm⟩
  · contradiction
  · contradiction

theorem rename_ok {source target : Path} (h : t.rename source target = .ok t') :
    t.node? (target.place t.workingDirectory) ≠ some .directory ∧
    ∃ content kind, t.node? (source.place t.workingDirectory) = some (.file content kind) ∧
      (t' = t ∧ source.place t.workingDirectory = target.place t.workingDirectory ∨
        t' = (t.erase (source.place t.workingDirectory)).put (target.place t.workingDirectory)
          (.file content kind)) := by
  obtain ⟨l, hl, hrename⟩ := exists_of_bind_eq_ok h
  obtain ⟨⟨dir, name⟩, hnew, hmove⟩ := exists_of_bind_eq_ok hrename
  rw [← locate_ok hl, ← foldl_lead_moves t target, ← locateNew_ok hnew]
  simp only at hmove
  split at hmove
  · contradiction
  · next content kind hfile hopen =>
    refine ⟨hopen, content, kind, hfile, ?_⟩
    split at hmove
    · next hsame => exact .inl ⟨(Except.ok.inj hmove).symm, hsame⟩
    · exact .inr (Except.ok.inj hmove).symm
  · contradiction

theorem alters_makeDirectory {p : Path} (h : t.makeDirectory p = .ok t') :
    Alters (· = p.place t.workingDirectory) (fun _ => False) t t' := by
  obtain ⟨hnone, rfl⟩ := makeDirectory_ok h
  have hne : p.place t.workingDirectory ≠ [] := by
    intro hroot
    rw [hroot, node?, if_pos rfl] at hnone
    contradiction
  refine ⟨rfl, fun l => ?_⟩
  by_cases hl : l = p.place t.workingDirectory
  · subst hl
    exact .inr (.inl ⟨rfl, hnone, node?_put_self t .directory hne⟩)
  · exact .inl (node?_put_ne t .directory hl)

theorem alters_create {p : Path} (h : t.create p = .ok t') :
    Alters (fun _ => False) (· = p.place t.workingDirectory) t t' := by
  obtain ⟨-, kind, rfl⟩ := create_ok h
  exact alters_put _ _ _

theorem alters_append {p : Path} {bytes : Bytes} (h : t.append p bytes = .ok t') :
    Alters (fun _ => False) (· = p.place t.workingDirectory) t t' := by
  obtain ⟨content, kind, -, rfl⟩ := append_ok h
  exact alters_put _ _ _

theorem alters_rename {source target : Path} (h : t.rename source target = .ok t') :
    Alters (fun _ => False)
      (fun l => l = source.place t.workingDirectory ∨ l = target.place t.workingDirectory)
      t t' := by
  obtain ⟨-, content, kind, -, ⟨rfl, -⟩ | rfl⟩ := rename_ok h
  · exact Alters.refl _ _ _
  · have herase := (alters_erase t (source.place t.workingDirectory)).mono (fun _ => id)
      fun l hl => (Or.inl hl : _ ∨ l = target.place t.workingDirectory)
    exact herase.trans ((alters_put _ _ _).mono (fun _ => id) fun _ => .inr)

theorem ensureDirectory_ok {p : Path} (h : t.ensureDirectory p = .ok t') :
    t.makeDirectory p = .ok t' ∨ t' = t := by
  unfold ensureDirectory at h
  split at h
  · next hmake => exact .inl (hmake.trans h)
  · split at h
    · exact .inr (Except.ok.inj h).symm
    · contradiction

theorem ensureAll_induction {motive : FileTree → Prop} {ps : List Path} (h : motive t)
    (hmake : ∀ p ∈ ps, ∀ u u', motive u → u.makeDirectory p = .ok u' → motive u') :
    motive (t.ensureAll ps).2 := by
  induction ps with
  | nil => exact h
  | cons p above ih =>
    have habove := ih fun q hq => hmake q (List.mem_cons_of_mem p hq)
    have hself : ∀ {u u' : FileTree}, motive u → u.ensureDirectory p = .ok u' → motive u' := by
      intro u u' hu hensure
      rcases ensureDirectory_ok hensure with hmade | rfl
      · exact hmake p List.mem_cons_self u u' hu hmade
      · exact hu
    rw [ensureAll]
    split
    · exact h
    · split
      · next hensure => exact hself h hensure
      · -- The directory above is missing, so those above come first and then this one again.
        split
        · next heq =>
          rw [heq] at habove
          exact habove
        · next heq =>
          rw [heq] at habove
          split
          · next hensure => exact hself habove hensure
          · exact habove
      · exact h

theorem alters_ensureAll (t : FileTree) (ps : List Path) :
    Alters (fun l => ∃ p ∈ ps, l = p.place t.workingDirectory) (fun _ => False) t
      (t.ensureAll ps).2 := by
  refine ensureAll_induction (Alters.refl _ _ t) fun p hp u u' hu hmake => ?_
  refine hu.trans ((alters_makeDirectory hmake).mono (fun l hl => ?_) fun _ => id)
  exact ⟨p, hp, hu.workingDirectory ▸ hl⟩

theorem performAll_induction {motive : FileTree → Prop} {operations : List Operation}
    (h : motive t)
    (hstep : ∀ operation ∈ operations, ∀ u, motive u → motive (u.perform operation).2) :
    motive (t.performAll operations).2 := by
  induction operations generalizing t with
  | nil => exact h
  | cons operation rest ih =>
    have hfirst := hstep operation List.mem_cons_self t h
    rw [performAll]
    split
    · next heq =>
      rw [heq] at hfirst
      exact hfirst
    · next heq =>
      rw [heq] at hfirst
      exact ih hfirst fun op hop => hstep op (List.mem_cons_of_mem operation hop)

def Operation.paths : Operation → List Path
  | .makeDirectories p => [p]
  | .create p => [p]
  | .append p _ => [p]
  | .sync p => [p]
  | .rename source target => [source, target]

/-- The directories that an operation may make. -/
def Operation.makes (start : Location) : Operation → Location → Prop
  | .makeDirectories p, l => ∃ q ∈ p.ancestors, l = q.place start
  | _, _ => False

/-- The locations at which an operation may change anything. -/
def Operation.writes (start : Location) : Operation → Location → Prop
  | .create p, l => l = p.place start
  | .append p _, l => l = p.place start
  | .rename source target, l => l = source.place start ∨ l = target.place start
  | _, _ => False

theorem alters_whole {x : Except Kind FileTree} (h : ∀ u, x = .ok u → Alters made written t u) :
    Alters made written t (t.whole x).2 := by
  cases x with
  | error kind => exact Alters.refl _ _ _
  | ok u => exact h u rfl

theorem alters_perform (t : FileTree) (operation : Operation) :
    Alters (operation.makes t.workingDirectory) (operation.writes t.workingDirectory) t
      (t.perform operation).2 := by
  cases operation with
  | makeDirectories p => exact alters_ensureAll t p.ancestors
  | create p => exact alters_whole fun u hu => alters_create hu
  | append p bytes => exact alters_whole fun u hu => alters_append hu
  | sync p => exact Alters.refl _ _ _
  | rename source target => exact alters_whole fun u hu => alters_rename hu

theorem alters_performAll {operations : List Operation}
    (hmade : ∀ operation ∈ operations, ∀ l, operation.makes t.workingDirectory l → made l)
    (hwritten : ∀ operation ∈ operations, ∀ l, operation.writes t.workingDirectory l → written l) :
    Alters made written t (t.performAll operations).2 := by
  refine performAll_induction (Alters.refl _ _ t) fun operation hmem u hu => ?_
  have hstep := alters_perform u operation
  rw [hu.workingDirectory] at hstep
  exact hu.trans (hstep.mono (hmade operation hmem) (hwritten operation hmem))

theorem alters_performAll_below {base : Path} {operations : List Operation}
    (h : ∀ operation ∈ operations, ∀ p ∈ operation.paths, base.IsBelow p) :
    Alters (fun l => base.IsOnTheWay t.workingDirectory l ∨ base.place t.workingDirectory <+: l)
      (fun l => base.place t.workingDirectory <+: l) t (t.performAll operations).2 := by
  refine alters_performAll ?_ ?_
  · intro operation hmem l hmakes
    cases operation with
    | makeDirectories p =>
      obtain ⟨q, hq, rfl⟩ := hmakes
      exact (h _ hmem p List.mem_cons_self).place_of_mem_ancestors _ hq
    | _ => exact hmakes.elim
  · intro operation hmem l hwrites
    have hpath : ∀ p ∈ operation.paths,
        base.place t.workingDirectory <+: p.place t.workingDirectory :=
      fun p hp => (h operation hmem p hp).prefix_place _
    cases operation with
    | create p => exact hwrites ▸ hpath p List.mem_cons_self
    | append p bytes => exact hwrites ▸ hpath p List.mem_cons_self
    | rename source target =>
      rcases hwrites with rfl | rfl
      · exact hpath source List.mem_cons_self
      · exact hpath target (List.mem_cons_of_mem _ List.mem_cons_self)
    | _ => exact hwrites.elim

end FileTree

end ModuleRig
