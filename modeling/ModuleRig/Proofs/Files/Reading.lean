import ModuleRig.Files.Access
import ModuleRig.Proofs.Files.Frame

/-!
# What can still be read

A path is walked through directories, and no operation takes one away. So a file that could be
read can be read again after any operations that do not write to its own place.
-/

namespace ModuleRig.FileTree

variable {t t' t'' : FileTree}

/-! ## Directories stay -/

def KeepsDirectories (t t' : FileTree) : Prop :=
  ∀ l, t.node? l = some .directory → t'.node? l = some .directory

theorem KeepsDirectories.trans (h : KeepsDirectories t t') (h' : KeepsDirectories t' t'') :
    KeepsDirectories t t'' :=
  fun l hl => h' l (h l hl)

theorem keepsDirectories_put {l : Location} (h : t.node? l ≠ some .directory) (node : Node) :
    KeepsDirectories t (t.put l node) := by
  intro k hk
  have hne : k ≠ l := by
    rintro rfl
    exact h hk
  rw [node?_put_ne t node hne, hk]

theorem keepsDirectories_makeDirectory {p : Path} (h : t.makeDirectory p = .ok t') :
    KeepsDirectories t t' := by
  obtain ⟨hnone, rfl⟩ := makeDirectory_ok h
  apply keepsDirectories_put
  simp [hnone]

theorem keepsDirectories_create {p : Path} (h : t.create p = .ok t') : KeepsDirectories t t' := by
  obtain ⟨hopen, kind, rfl⟩ := create_ok h
  exact keepsDirectories_put hopen _

theorem keepsDirectories_append {p : Path} {bytes : Bytes} (h : t.append p bytes = .ok t') :
    KeepsDirectories t t' := by
  obtain ⟨content, kind, hfile, rfl⟩ := append_ok h
  apply keepsDirectories_put
  simp [hfile]

theorem keepsDirectories_rename {source target : Path} (h : t.rename source target = .ok t') :
    KeepsDirectories t t' := by
  obtain ⟨hopen, content, kind, hfile, ⟨rfl, -⟩ | rfl⟩ := rename_ok h
  · exact fun _ => id
  · intro l hl
    have hsource : l ≠ source.place t.workingDirectory := by
      rintro rfl
      rw [hfile] at hl
      simp at hl
    have htarget : l ≠ target.place t.workingDirectory := by
      rintro rfl
      exact hopen hl
    rw [node?_put_ne _ _ htarget, node?_erase_ne t hsource, hl]

theorem keepsDirectories_whole {x : Except Kind FileTree}
    (h : ∀ u, x = .ok u → KeepsDirectories t u) : KeepsDirectories t (t.whole x).2 := by
  cases x with
  | error kind => exact fun _ => id
  | ok u => exact h u rfl

theorem keepsDirectories_perform (t : FileTree) (operation : Operation) :
    KeepsDirectories t (t.perform operation).2 := by
  cases operation with
  | makeDirectories p =>
    refine ensureAll_induction (fun _ => id) fun q _ u u' hu hmake => ?_
    exact hu.trans (keepsDirectories_makeDirectory hmake)
  | create p => exact keepsDirectories_whole fun u hu => keepsDirectories_create hu
  | append p bytes => exact keepsDirectories_whole fun u hu => keepsDirectories_append hu
  | sync p => exact fun _ => id
  | rename source target => exact keepsDirectories_whole fun u hu => keepsDirectories_rename hu

theorem keepsDirectories_performAll (t : FileTree) (operations : List Operation) :
    KeepsDirectories t (t.performAll operations).2 :=
  performAll_induction (fun _ => id) fun operation _ u hu =>
    hu.trans (keepsDirectories_perform u operation)

/-! ## Walking again -/

theorem requireDirectory_eq_ok_iff (t : FileTree) (l : Location) :
    t.requireDirectory l = .ok () ↔ t.node? l = some .directory := by
  unfold requireDirectory
  split <;> simp_all

theorem eq_or_directory_of_walk {here l : Location} {moves : List Move}
    (h : t.walk here moves = .ok l) : here = l ∨ t.node? here = some .directory := by
  cases moves with
  | nil => exact .inl (Except.ok.inj h)
  | cons move moves =>
    obtain ⟨⟨⟩, hdir, -⟩ := exists_of_bind_eq_ok h
    exact .inr ((requireDirectory_eq_ok_iff t here).1 hdir)

theorem enter_again {here l : Location} {name : String} (h : t.enter here name = .ok l)
    (hl : (t'.node? l).isSome) : t'.enter here name = .ok l := by
  obtain rfl := enter_ok h
  unfold enter at h ⊢
  split at h
  · contradiction
  · next hshort =>
    rw [if_neg hshort]
    obtain ⟨node, hnode⟩ := Option.isSome_iff_exists.1 hl
    rw [hnode]

theorem walk_again (h : KeepsDirectories t t') {here l : Location} {moves : List Move}
    (hwalk : t.walk here moves = .ok l) (hl : (t'.node? l).isSome) :
    t'.walk here moves = .ok l := by
  induction moves generalizing here with
  | nil => exact hwalk
  | cons move moves ih =>
    obtain ⟨⟨⟩, hdir, hmove⟩ := exists_of_bind_eq_ok hwalk
    have hdir' : t'.requireDirectory here = .ok () :=
      (requireDirectory_eq_ok_iff t' here).2 (h here ((requireDirectory_eq_ok_iff t here).1 hdir))
    unfold walk
    rw [hdir']
    cases move with
    | stay => exact ih hmove
    | up => exact ih hmove
    | down name =>
      obtain ⟨next, hnext, hrest⟩ := exists_of_bind_eq_ok hmove
      have hthere : (t'.node? next).isSome := by
        rcases eq_or_directory_of_walk hrest with rfl | hnext'
        · exact hl
        · simp [h next hnext']
      have henter : t'.enter here name = .ok next := enter_again hnext hthere
      show (t'.enter here name >>= fun next => t'.walk next moves) = .ok l
      rw [henter]
      exact ih hrest

theorem origin_again (hstart : t'.workingDirectory = t.workingDirectory) (p : Path) :
    t'.origin p = t.origin p := by
  unfold origin
  rw [hstart]

theorem locate_again (h : KeepsDirectories t t') (hstart : t'.workingDirectory = t.workingDirectory)
    {p : Path} {l : Location} (hlocate : t.locate p = .ok l) (hl : (t'.node? l).isSome) :
    t'.locate p = .ok l := by
  obtain ⟨⟨⟩, hspelling, hwalk⟩ := exists_of_bind_eq_ok hlocate
  rw [locate, hspelling]
  show t'.walk (t'.origin p) p.moves = .ok l
  rw [origin_again hstart]
  exact walk_again h hwalk hl

theorem walk_append (t : FileTree) (here : Location) (moves more : List Move) :
    t.walk here (moves ++ more) = (do t.walk (← t.walk here moves) more) := by
  induction moves generalizing here with
  | nil => rfl
  | cons move moves ih =>
    cases move <;> simp only [List.cons_append, walk, ih, bind_assoc]

theorem walk_down {dir : Location} (hdir : t.node? dir = some .directory) (name : String) :
    t.walk dir [.down name] = t.enter dir name := by
  rw [walk, (requireDirectory_eq_ok_iff t dir).2 hdir]
  show (t.enter dir name >>= fun next => t.walk next []) = t.enter dir name
  cases t.enter dir name <;> rfl

theorem locateNew_eq_ok_iff {p : Path} {moves : List Move} {nameless : Kind} {dir : Location}
    {name : String} :
    t.locateNew p moves nameless = .ok (dir, name) ↔
      checkSpelling p = .ok () ∧ t.walk (t.origin p) moves.dropLast = .ok dir ∧
        t.node? dir = some .directory ∧ moves.getLast? = some (.down name) ∧
        byteLength name ≤ nameLimit := by
  constructor
  · intro h
    obtain ⟨⟨⟩, hspelling, h⟩ := exists_of_bind_eq_ok h
    obtain ⟨dir', hwalk, h⟩ := exists_of_bind_eq_ok h
    obtain ⟨⟨⟩, hrequire, h⟩ := exists_of_bind_eq_ok h
    split at h
    · next name' hlast =>
      split at h
      · contradiction
      · next hshort =>
        obtain ⟨rfl, rfl⟩ := Prod.mk.inj (Except.ok.inj h)
        exact ⟨hspelling, hwalk, (requireDirectory_eq_ok_iff t dir').1 hrequire, hlast,
          Nat.le_of_not_lt hshort⟩
    · contradiction
  · rintro ⟨hspelling, hwalk, hdir, hlast, hshort⟩
    unfold locateNew
    rw [hspelling, hwalk, hlast]
    show (t.requireDirectory dir >>= fun _ => if byteLength name > nameLimit then _ else _) = _
    rw [(requireDirectory_eq_ok_iff t dir).2 hdir, if_neg (Nat.not_lt.2 hshort)]
    rfl

theorem walk_of_locateNew (h : KeepsDirectories t t')
    (hstart : t'.workingDirectory = t.workingDirectory) {p : Path} {moves : List Move}
    {nameless : Kind} {dir : Location} {name : String}
    (hnew : t.locateNew p moves nameless = .ok (dir, name))
    (hl : (t'.node? (dir ++ [name])).isSome) :
    checkSpelling p = .ok () ∧ t'.walk (t'.origin p) moves = .ok (dir ++ [name]) := by
  obtain ⟨hspelling, hwalk, hdir, hlast, hshort⟩ := locateNew_eq_ok_iff.1 hnew
  have hdir' := h dir hdir
  have henter : t'.enter dir name = .ok (dir ++ [name]) := by
    unfold enter
    rw [if_neg (Nat.not_lt.2 hshort)]
    obtain ⟨node, hnode⟩ := Option.isSome_iff_exists.1 hl
    rw [hnode]
  have hmoves : moves = moves.dropLast ++ [.down name] := by
    obtain ⟨front, hfront⟩ := List.getLast?_eq_some_iff.1 hlast
    rw [hfront, List.dropLast_concat]
  refine ⟨hspelling, ?_⟩
  rw [hmoves, origin_again hstart, walk_append, walk_again h hwalk (by simp [hdir'])]
  exact (walk_down hdir' name).trans henter

theorem locate_of_locateNew (h : KeepsDirectories t t')
    (hstart : t'.workingDirectory = t.workingDirectory) {p : Path} {nameless : Kind}
    {dir : Location} {name : String} (hnew : t.locateNew p p.moves nameless = .ok (dir, name))
    (hl : (t'.node? (dir ++ [name])).isSome) : t'.locate p = .ok (dir ++ [name]) := by
  obtain ⟨hspelling, hwalk⟩ := walk_of_locateNew h hstart hnew hl
  rw [locate, hspelling]
  exact hwalk

theorem locateNew_again (h : KeepsDirectories t t')
    (hstart : t'.workingDirectory = t.workingDirectory) {p : Path} {moves : List Move}
    {nameless : Kind} {dir : Location} {name : String}
    (hnew : t.locateNew p moves nameless = .ok (dir, name)) :
    t'.locateNew p moves nameless = .ok (dir, name) := by
  obtain ⟨hspelling, hwalk, hdir, hlast, hshort⟩ := locateNew_eq_ok_iff.1 hnew
  have hdir' := h dir hdir
  have hwalk' := walk_again h hwalk (by simp [hdir'])
  rw [← origin_again hstart] at hwalk'
  exact locateNew_eq_ok_iff.2 ⟨hspelling, hwalk', hdir', hlast, hshort⟩

/-! ## Reading again -/

/-- The bytes in the place of a path, if there is a file. -/
def bytesAt? (t : FileTree) (p : Path) : Option Bytes :=
  t.content? (p.place t.workingDirectory)

theorem read_eq_ok_iff (t : FileTree) (p : Path) (content : Bytes) :
    t.read p = .ok content ↔ ∃ l, t.locate p = .ok l ∧ t.content? l = some content := by
  unfold read content?
  cases t.locate p with
  | error kind => simp
  | ok l =>
    cases hnode : t.node? l with
    | none => simp [hnode]
    | some node => cases node <;> simp [hnode]

theorem bytesAt?_of_read {p : Path} {content : Bytes} (h : t.read p = .ok content) :
    t.bytesAt? p = some content := by
  obtain ⟨l, hl, hcontent⟩ := (read_eq_ok_iff t p content).1 h
  rwa [bytesAt?, ← locate_ok hl]

theorem isSome_node?_of_content? {l : Location} {content : Bytes}
    (h : t.content? l = some content) : (t.node? l).isSome := by
  unfold content? at h
  split at h
  · next hnode => simp [hnode]
  · contradiction

theorem read_again (h : KeepsDirectories t t') (hstart : t'.workingDirectory = t.workingDirectory)
    {p : Path} {content : Bytes} (hread : t.read p = .ok content)
    (hsame : t'.bytesAt? p = t.bytesAt? p) : t'.read p = .ok content := by
  obtain ⟨l, hl, hcontent⟩ := (read_eq_ok_iff t p content).1 hread
  rw [bytesAt?, bytesAt?, hstart, ← locate_ok hl, hcontent] at hsame
  exact (read_eq_ok_iff t' p content).2
    ⟨l, locate_again h hstart hl (isSome_node?_of_content? hsame), hsame⟩

theorem digest_eq_ok_iff (t : FileTree) (p : Path) (sha256 : String) :
    t.digest p = .ok sha256 ↔
      ∃ content, t.read p = .ok content ∧ Digest.ofBytes content = sha256 := by
  rw [digest, map_eq_ok_iff]

theorem digest_again (h : KeepsDirectories t t') (hstart : t'.workingDirectory = t.workingDirectory)
    {p : Path} {sha256 : String} (hdigest : t.digest p = .ok sha256)
    (hsame : t'.bytesAt? p = t.bytesAt? p) : t'.digest p = .ok sha256 := by
  obtain ⟨content, hread, hsha⟩ := (digest_eq_ok_iff t p sha256).1 hdigest
  exact (digest_eq_ok_iff t' p sha256).2 ⟨content, read_again h hstart hread hsame, hsha⟩

/-- The file at a location. -/
def file? (t : FileTree) (l : Location) : Option (Bytes × FileKind) :=
  match t.node? l with
  | some (.file content kind) => some (content, kind)
  | _ => none

theorem content?_eq_file? (t : FileTree) (l : Location) :
    t.content? l = (t.file? l).map Prod.fst := by
  unfold content? file?
  rcases t.node? l with _ | _ | ⟨content, kind⟩ <;> rfl

theorem Alters.file?_eq {made written : Location → Prop} (h : Alters made written t t')
    {l : Location} (hl : ¬ written l) : t'.file? l = t.file? l := by
  unfold file?
  rcases h.node? l with hsame | ⟨-, hnone, hdirectory⟩ | hwritten
  · rw [hsame]
  · rw [hnone, hdirectory]
  · exact absurd hwritten hl

theorem Alters.content?_eq {made written : Location → Prop} (h : Alters made written t t')
    {l : Location} (hl : ¬ written l) : t'.content? l = t.content? l := by
  rw [content?_eq_file?, content?_eq_file?, h.file?_eq hl]

theorem Alters.bytesAt?_eq {made written : Location → Prop} (h : Alters made written t t')
    {p : Path} (hp : ¬ written (p.place t.workingDirectory)) : t'.bytesAt? p = t.bytesAt? p := by
  unfold bytesAt?
  rw [h.workingDirectory, h.content?_eq hp]

theorem programAt_again {made written : Location → Prop} (h : KeepsDirectories t t')
    (halters : Alters made written t t') {p : Path} {run : Program} (hrun : t.programAt p = .ok run)
    (hwritten : ¬ written (p.place t.workingDirectory)) : t'.programAt p = .ok run := by
  unfold programAt at hrun ⊢
  cases hlocate : t.locate p with
  | error e =>
    rw [hlocate] at hrun
    cases hrun
  | ok l =>
    rw [hlocate] at hrun
    rw [← locate_ok hlocate] at hwritten
    cases hnode : t.node? l with
    | none =>
      simp only [hnode] at hrun
      cases hrun
    | some node =>
      have hnode' : t'.node? l = some node := by
        rcases halters.node? l with hsame | ⟨-, hnone, -⟩ | hl
        · exact hsame.trans hnode
        · cases hnone.symm.trans hnode
        · exact absurd hl hwritten
      rw [locate_again h halters.workingDirectory hlocate (by simp [hnode'])]
      simp only [hnode, hnode'] at hrun ⊢
      exact hrun

/-! ## Ways that are left alone -/

theorem requireDirectory_congr {l : Location} (h : t'.node? l = t.node? l) :
    t'.requireDirectory l = t.requireDirectory l := by
  unfold requireDirectory
  rw [h]

theorem walk_congr {here : Location} {moves : List Move}
    (h : ∀ before, before <+: moves →
      t'.node? (before.foldl Move.lead here) = t.node? (before.foldl Move.lead here)) :
    t'.walk here moves = t.walk here moves := by
  induction moves generalizing here with
  | nil => rfl
  | cons move moves ih =>
    have hhere : t'.requireDirectory here = t.requireDirectory here :=
      requireDirectory_congr (h [] List.nil_prefix)
    have hnext : t'.walk (Move.lead here move) moves = t.walk (Move.lead here move) moves :=
      ih fun before hbefore => h (move :: before) (List.prefix_cons_inj move |>.2 hbefore)
    cases move with
    | stay =>
      rw [walk, walk, hhere]
      exact congrArg (t.requireDirectory here >>= fun _ => ·) hnext
    | up =>
      rw [walk, walk, hhere]
      exact congrArg (t.requireDirectory here >>= fun _ => ·) hnext
    | down name =>
      have hname : t'.node? (here ++ [name]) = t.node? (here ++ [name]) :=
        h [.down name] (List.prefix_cons_inj _ |>.2 List.nil_prefix)
      have henter : t'.enter here name = t.enter here name := by
        unfold enter
        rw [hname]
      rw [walk, walk, hhere, henter]
      cases hfound : t.enter here name with
      | error e => rfl
      | ok l =>
        obtain rfl := enter_ok hfound
        exact congrArg (t.requireDirectory here >>= fun _ => ·) hnext

theorem foldl_lead_leading (t : FileTree) (p : Path) :
    (Path.leading p.chars).foldl Path.Component.lead t.workingDirectory = t.origin p := by
  unfold Path.leading origin Path.isAbsolute
  split
  · rfl
  · split <;> rfl

/-- A path that is walked passes its own way. -/
theorem isOnTheWay_of_isPrefix_moves {p : Path} {before : List Move} (h : before <+: p.moves) :
    p.IsOnTheWay t.workingDirectory (before.foldl Move.lead (t.origin p)) := by
  obtain ⟨pieces, hpieces, rfl⟩ := List.prefix_map_iff.1 h
  refine ⟨Path.leading p.chars ++ pieces.filterMap Path.component?,
    (List.prefix_append_right_inj _).2 (hpieces.filterMap _), ?_⟩
  rw [List.foldl_append, foldl_lead_leading, foldl_lead_pieces]

variable {p : Path}

theorem locate_congr (hstart : t'.workingDirectory = t.workingDirectory)
    (h : ∀ l, p.IsOnTheWay t.workingDirectory l → t'.node? l = t.node? l) :
    t'.locate p = t.locate p := by
  rw [locate, locate, origin_again hstart,
    walk_congr fun before hbefore => h _ (isOnTheWay_of_isPrefix_moves hbefore)]

theorem isOnTheWay_of_locate {l : Location} (h : t.locate p = .ok l) :
    p.IsOnTheWay t.workingDirectory l :=
  ⟨p.components, List.prefix_rfl, locate_ok h⟩

theorem read_congr (hstart : t'.workingDirectory = t.workingDirectory)
    (h : ∀ l, p.IsOnTheWay t.workingDirectory l → t'.node? l = t.node? l) :
    t'.read p = t.read p := by
  rw [read, read, locate_congr hstart h]
  cases hl : t.locate p with
  | error kind => rfl
  | ok l =>
    dsimp only
    rw [h l (isOnTheWay_of_locate hl)]

theorem isFile_congr (hstart : t'.workingDirectory = t.workingDirectory)
    (h : ∀ l, p.IsOnTheWay t.workingDirectory l → t'.node? l = t.node? l) :
    t'.isFile p = t.isFile p := by
  unfold isFile nodeAt?
  rw [locate_congr hstart h]
  cases hl : t.locate p with
  | error kind => rfl
  | ok l =>
    dsimp only
    rw [h l (isOnTheWay_of_locate hl)]

end ModuleRig.FileTree
