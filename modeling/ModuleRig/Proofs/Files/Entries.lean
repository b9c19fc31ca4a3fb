import ModuleRig.Proofs.Basic
import ModuleRig.Proofs.Files.Frame
import ModuleRig.Proofs.Files.Reading

/-!
# What a directory lists

A directory lists each name once, and only names that a file can have. The way to a file leads
through directories: each of them can be found by the front of the path, and lists the name that
comes next.
-/

namespace ModuleRig

open ModuleRig.Path (IsName)

namespace FileTree

variable {t : FileTree} {p q : Path} {dir l : Location} {name : String}

/-! ## Names -/

theorem nameBelow?_eq_some_iff : nameBelow? dir l = some name ↔ dir ++ [name] = l := by
  unfold nameBelow?
  constructor
  · intro h
    split at h
    · contradiction
    · next last hlast =>
      rw [Option.ite_none_right_eq_some, Option.some.injEq] at h
      obtain ⟨rfl, rfl⟩ := h
      exact List.dropLast_append_getLast? last hlast
  · rintro rfl
    simp

theorem mem_names_iff :
    name ∈ t.names dir ↔ IsName name ∧ (t.node? (dir ++ [name])).isSome := by
  rw [names, List.mem_eraseDups, List.mem_filter, decide_eq_true_iff, List.mem_filterMap, node?,
    if_neg (by simp), List.lookup_isSome_iff, and_comm]
  simp only [nameBelow?_eq_some_iff, beq_iff_eq]

theorem nodup_names (t : FileTree) (dir : Location) : (t.names dir).Nodup :=
  nodup_eraseDups _

theorem list_ok {p : Path} {names : List String} (h : t.list p = .ok names) :
    ∃ l, names = t.names l := by
  unfold list at h
  cases hl : t.locate p with
  | error kind =>
    rw [hl] at h
    cases h
  | ok l =>
    rw [hl] at h
    dsimp only at h
    cases hdir : t.requireDirectory l with
    | error kind =>
      rw [hdir] at h
      cases h
    | ok _ =>
      rw [hdir] at h
      exact ⟨l, (Except.ok.inj h).symm⟩

/-! ## Shorter paths -/

theorem checkSpelling_eq_ok_iff :
    checkSpelling p = .ok () ↔
      '\x00' ∉ p.chars ∧ p.chars ≠ [] ∧ byteLength p.spelling ≤ pathLimit := by
  unfold checkSpelling
  simp only [List.contains_iff_mem, ← not_lt]
  split
  · simp_all
  · split
    · simp_all
    · split <;> simp_all

theorem byteLength_le_of_isPrefix (h : p.chars <+: q.chars) :
    byteLength p.spelling ≤ byteLength q.spelling := by
  obtain ⟨rest, hrest⟩ := h
  have hencode : Text.Utf8.ofText q.spelling =
      Text.Utf8.ofText p.spelling ++ Text.Utf8.encode rest := by
    unfold Path.chars at hrest
    simp only [Text.Utf8.ofText, Text.Utf8.encode, ← hrest, List.flatMap_append]
  rw [byteLength, byteLength, hencode, List.length_append]
  exact Nat.le_add_right _ _

theorem checkSpelling_of_isPrefix (hp : p.chars ≠ []) (h : p.chars <+: q.chars)
    (hq : checkSpelling q = .ok ()) : checkSpelling p = .ok () := by
  obtain ⟨hzero, -, hshort⟩ := checkSpelling_eq_ok_iff.1 hq
  exact checkSpelling_eq_ok_iff.2
    ⟨fun hmem => hzero (h.subset hmem), hp, (byteLength_le_of_isPrefix h).trans hshort⟩

/-! ## Through directories -/

theorem walk_idle {dir : Location} (hdir : t.node? dir = some .directory)
    {pieces : List (List Char)} (h : pieces.filterMap Path.component? = []) :
    t.walk dir (pieces.map Move.ofPiece) = .ok dir := by
  induction pieces with
  | nil => rfl
  | cons piece pieces ih =>
    rw [List.filterMap_eq_nil_iff] at h ih
    have hstay : Move.ofPiece piece = .stay := by
      have hidle := (Path.component?_eq_none_iff piece).1 (h piece List.mem_cons_self)
      rw [Path.isIdle, Bool.or_eq_true, List.isEmpty_iff, beq_iff_eq] at hidle
      rw [Move.ofPiece, if_pos hidle]
    rw [List.map_cons, hstay, walk, (requireDirectory_eq_ok_iff t dir).2 hdir]
    exact ih fun q hq => h q (List.mem_cons_of_mem piece hq)

theorem exists_directory_of_locate_child {text : String} {l : Location} (hp : p.chars ≠ [])
    (htext : (⟨text⟩ : Path).isAbsolute = false) (h : t.locate (p.child text) = .ok l) :
    ∃ dir, t.locate p = .ok dir ∧ t.node? dir = some .directory ∧
      t.walk dir (⟨text⟩ : Path).moves = .ok l := by
  have hprefix := Path.prefix_chars_join p htext
  obtain ⟨before, last, hpieces, -, hlast, hjoin⟩ := Path.pieces_join hp htext
  obtain ⟨⟨⟩, hspelling, hwalk⟩ := exists_of_bind_eq_ok h
  rw [origin, Path.child, Path.isAbsolute_of_isPrefix hp hprefix, Path.moves, hjoin,
    List.map_append, walk_append] at hwalk
  obtain ⟨dir, hdir, hrest⟩ := exists_of_bind_eq_ok hwalk
  have hdirectory : t.node? dir = some .directory := by
    obtain ⟨piece, pieces, hq⟩ := List.exists_cons_of_ne_nil (Path.pieces_ne_nil ⟨text⟩)
    rw [hq] at hrest
    obtain ⟨⟨⟩, hrequire, -⟩ := exists_of_bind_eq_ok hrest
    exact (requireDirectory_eq_ok_iff t dir).1 hrequire
  refine ⟨dir, ?_, hdirectory, hrest⟩
  rw [locate, checkSpelling_of_isPrefix hp hprefix hspelling]
  show t.walk (t.origin p) p.moves = .ok dir
  rw [origin, Path.moves, hpieces, List.map_append, walk_append, hdir]
  exact walk_idle hdirectory hlast

theorem moves_of_isName {name : String} (h : IsName name) :
    (⟨name⟩ : Path).moves = [.down name] := by
  obtain ⟨hne, hdot, hparent, -⟩ := (Path.isName_iff name).1 h
  rw [Path.moves, Path.pieces_of_isName h, List.map_singleton, Move.ofPiece,
    if_neg (not_or.2 ⟨hne, hdot⟩), if_neg hparent, String.ofList_toList]

theorem mem_list_of_locate {name rest : String} {l : Location} (hp : p.chars ≠ [])
    (hname : IsName name) (hrest : (⟨rest⟩ : Path).isAbsolute = false)
    (h : t.locate ((p.child name).child rest) = .ok l) :
    ∃ names, t.list p = .ok names ∧ name ∈ names := by
  have hslash := Path.isAbsolute_of_not_mem hname.2.2.2
  have hchild : (p.child name).chars ≠ [] :=
    fun hnil => hp (List.prefix_nil.1 (hnil ▸ Path.prefix_chars_join p hslash))
  obtain ⟨below, hbelow, hdirectory, -⟩ := exists_directory_of_locate_child hchild hrest h
  obtain ⟨dir, hdir, hdirectory', hwalk⟩ := exists_directory_of_locate_child hp hslash hbelow
  rw [moves_of_isName hname, walk_down hdirectory'] at hwalk
  obtain rfl := enter_ok hwalk
  refine ⟨t.names dir, ?_, mem_names_iff.2 ⟨hname, by rw [hdirectory]; rfl⟩⟩
  rw [list, hdir]
  dsimp only
  rw [(requireDirectory_eq_ok_iff t dir).2 hdirectory']

end FileTree

end ModuleRig
