import ModuleRig.Proofs.Coordinate.Reading
import ModuleRig.Proofs.Path.Below

/-!
# The paths of a coordinate that was read

Reading a coordinate makes sure that its group and its name make directories and nothing else, and
that an exact version is one name. So only a version that comes from elsewhere can lead astray.
-/

namespace ModuleRig

open ModuleRig.Path (Component IsName)

namespace Coordinate

/-- What reading makes sure of. -/
structure WellFormed (c : Coordinate) : Prop where
  group : isSafeName c.group.toList = true
  name : isSafeName c.name.toList = true
  version : ∀ v, c.selector = .exact v → IsName v

/-- The directories on the way to the versions, in a repository. -/
def dirNames (c : Coordinate) : List String :=
  Text.splitText '.' c.group ++ [c.name]

/-- The names on the way to the jar of a version, in a repository. -/
def jarNames (c : Coordinate) (v : String) : List String :=
  c.dirNames ++ [v, c.jarName v]

/-- The components from the directory of all versions to the jar of one. -/
def route (c : Coordinate) (v : String) : List Component :=
  (⟨v⟩ : Path).steps ++ (⟨c.jarName v⟩ : Path).steps

/-! ## Reading -/

theorem isName_of_isSegment {cs : List Char} (hne : cs ≠ []) (h : Version.isSegment cs = true) :
    IsName (String.ofList cs) := by
  unfold Version.isSegment at h
  rw [Bool.and_eq_true, Bool.and_eq_true, Bool.not_eq_true', List.any_eq_false, bne_iff_ne,
    bne_iff_ne] at h
  obtain ⟨⟨hslash, hdot⟩, hparent⟩ := h
  rw [Path.isName_iff, String.toList_ofList]
  exact ⟨hne, hdot, hparent, fun hmem => hslash '/' hmem rfl⟩

theorem isName_of_parse_exact {text v : String} (h : Version.Selector.parse text = .ok (.exact v)) :
    IsName v := by
  unfold Version.Selector.parse Version.Selector.ofTrimmed at h
  simp only at h
  split at h
  · contradiction
  · next hempty =>
    split at h
    · contradiction
    · next hsegment =>
      rw [Bool.not_eq_true', Bool.not_eq_false] at hsegment
      have hname := isName_of_isSegment (fun hnil => hempty (List.isEmpty_iff.2 hnil)) hsegment
      split at h
      · cases h
      · split at h <;> cases h
      · split at h
        · cases h
        · obtain rfl := Version.Selector.exact.inj (Except.ok.inj h)
          exact hname

theorem wellFormed_of_parse {text : String} {c : Coordinate} (h : parse text = .ok c) :
    c.WellFormed := by
  obtain ⟨selector, -, hgroup, hname, hselector, -⟩ := parse_eq_ok_iff.1 h
  refine ⟨hgroup, hname, ?_⟩
  intro v hv
  rw [hv] at hselector
  exact isName_of_parse_exact hselector

/-! ## Directories -/

theorem isSafeName_iff (cs : List Char) :
    isSafeName cs = true ↔
      (∀ c ∈ cs, Version.isSlash c = false) ∧ ∀ part ∈ Text.splitOn '.' cs, part ≠ [] := by
  simp [isSafeName]

theorem slash_not_mem_of_isSafeName {cs : List Char} (h : isSafeName cs = true) : '/' ∉ cs :=
  fun hmem => Bool.noConfusion (((isSafeName_iff cs).1 h).1 '/' hmem)

theorem isName_of_mem_parts {cs part : List Char} (h : isSafeName cs = true)
    (hpart : part ∈ Text.splitOn '.' cs) : IsName (String.ofList part) := by
  have hne := ((isSafeName_iff cs).1 h).2 part hpart
  have hdot : '.' ∉ part := Text.not_mem_of_mem_splitOn hpart
  rw [Path.isName_iff, String.toList_ofList]
  refine ⟨hne, ?_, ?_, ?_⟩
  · intro heq
    rw [heq] at hdot
    exact hdot List.mem_cons_self
  · intro heq
    rw [heq] at hdot
    exact hdot List.mem_cons_self
  · exact fun hmem => slash_not_mem_of_isSafeName h (Text.mem_of_mem_splitOn hpart hmem)

theorem isName_of_isSafeName {s : String} (h : isSafeName s.toList = true) : IsName s := by
  have hparts := ((isSafeName_iff _).1 h).2
  refine ⟨?_, ?_, ?_, slash_not_mem_of_isSafeName h⟩ <;>
  · rintro rfl
    exact hparts [] (by decide) rfl

theorem toList_groupPath (c : Coordinate) :
    c.groupPath.toList = c.group.toList.map fun ch => if ch = '.' then '/' else ch :=
  String.toList_ofList

theorem pieces_artifactDir {c : Coordinate} (h : c.WellFormed) :
    (⟨c.artifactDir⟩ : Path).pieces = Text.splitOn '.' c.group.toList ++ [c.name.toList] := by
  have hslash : "/".toList = ['/'] := rfl
  rw [Path.pieces, Path.chars, artifactDir, String.toList_append, String.toList_append, hslash,
    List.append_assoc, List.singleton_append, Text.splitOn_append,
    Text.splitOn_of_not_mem (slash_not_mem_of_isSafeName h.name), toList_groupPath,
    Text.splitOn_map_replace (slash_not_mem_of_isSafeName h.group)]

theorem steps_artifactDir {c : Coordinate} (h : c.WellFormed) :
    (⟨c.artifactDir⟩ : Path).steps = c.dirNames.map .name := by
  have hgroup : ∀ parts : List (List Char), (∀ part ∈ parts, IsName (String.ofList part)) →
      parts.filterMap Path.component? = (parts.map String.ofList).map .name := by
    intro parts hparts
    induction parts with
    | nil => rfl
    | cons part parts ih =>
      have hpart := Path.component?_of_isName (hparts part List.mem_cons_self)
      rw [String.toList_ofList] at hpart
      rw [List.filterMap_cons_some hpart, ih fun p hp => hparts p (List.mem_cons_of_mem part hp)]
      rfl
  rw [Path.steps, pieces_artifactDir h, List.filterMap_append,
    hgroup _ fun part => isName_of_mem_parts h.group, dirNames, List.map_append]
  congr 1
  exact List.filterMap_cons_some (Path.component?_of_isName (isName_of_isSafeName h.name))

theorem leading_artifactDir {c : Coordinate} (h : c.WellFormed) :
    Path.leading c.artifactDir.toList = [] := by
  have hpieces := pieces_artifactDir h
  obtain ⟨part, parts, hparts⟩ :=
    List.exists_cons_of_ne_nil (Text.splitOn_ne_nil '.' c.group.toList)
  have hmem : part ∈ Text.splitOn '.' c.group.toList := hparts ▸ List.mem_cons_self
  obtain ⟨hne, hdot, -, -⟩ := (Path.isName_iff _).1 (isName_of_mem_parts h.group hmem)
  rw [String.toList_ofList] at hne hdot
  have hleading := Path.leading_eq_front ⟨c.artifactDir⟩
  rw [hpieces, hparts, List.cons_append, Path.front_cons_of_ne hne hdot] at hleading
  exact hleading

/-! ## Jars -/

theorem toList_jarName (c : Coordinate) (v : String) :
    (c.jarName v).toList = (c.name.toList ++ ['-']) ++ (v.toList ++ ".jar".toList) := by
  have hdash : "-".toList = ['-'] := rfl
  rw [jarName, String.toList_append, String.toList_append, String.toList_append, hdash,
    List.append_assoc]

theorem WellFormed.isAbsolute_name {c : Coordinate} (h : c.WellFormed) :
    (⟨c.name⟩ : Path).isAbsolute = false :=
  Path.isAbsolute_of_not_mem (slash_not_mem_of_isSafeName h.name)

theorem isAbsolute_jarName {c : Coordinate} (h : (⟨c.name⟩ : Path).isAbsolute = false)
    (v : String) : (⟨c.jarName v⟩ : Path).isAbsolute = false := by
  unfold Path.isAbsolute Path.chars at h ⊢
  dsimp only at h ⊢
  rw [toList_jarName]
  cases hname : c.name.toList with
  | nil => rfl
  | cons ch name =>
    rw [hname, Path.startsWithSlash_cons] at h
    rw [List.cons_append, List.cons_append, Path.startsWithSlash_cons, h]

theorem leading_jarName {c : Coordinate} (h : c.WellFormed) (v : String) :
    Path.leading (c.jarName v).toList = [] := by
  have hslash : '/' ∉ c.name.toList ++ ['-'] := by
    rw [List.mem_append, not_or]
    exact ⟨slash_not_mem_of_isSafeName h.name, by decide⟩
  obtain ⟨piece, pieces, -, hpieces⟩ :=
    Text.splitOn_append_of_not_mem hslash (v.toList ++ ".jar".toList)
  rw [← toList_jarName] at hpieces
  have hne := ((Path.isName_iff c.name).1 (isName_of_isSafeName h.name)).1
  have hlength : 0 < c.name.toList.length := List.length_pos_iff.2 hne
  refine (Path.leading_eq_front ⟨c.jarName v⟩).trans ?_
  rw [Path.pieces, Path.chars, hpieces, Path.front_cons_of_ne]
  · simp
  · intro heq
    have := congrArg List.length heq
    simp at this
    omega

theorem exists_steps_jarName (c : Coordinate) (v : String) :
    ∃ cs name, (⟨c.jarName v⟩ : Path).steps = cs ++ [.name name] := by
  have hslash : '/' ∉ ".jar".toList := by decide
  obtain ⟨pieces, piece, -, hpieces⟩ :=
    Text.splitOn_append_tail ((c.name.toList ++ ['-']) ++ v.toList) hslash
  rw [List.append_assoc, ← toList_jarName] at hpieces
  have hletter : 'j' ∈ piece ++ ".jar".toList := List.mem_append_right piece (by decide)
  have hplain : Path.component? (piece ++ ".jar".toList) =
      some (.name (String.ofList (piece ++ ".jar".toList))) := by
    refine Path.component?_of_plain ?_ ?_ ?_ <;>
    · intro heq
      rw [heq] at hletter
      exact absurd hletter (by decide)
  refine ⟨pieces.filterMap Path.component?, String.ofList (piece ++ ".jar".toList), ?_⟩
  rw [Path.steps, Path.pieces, Path.chars, hpieces, List.filterMap_append,
    List.filterMap_cons_some hplain]
  rfl

theorem isName_jarName {c : Coordinate} (h : c.WellFormed) {v : String} (hv : IsName v) :
    IsName (c.jarName v) := by
  have hletter : 'j' ∈ (c.jarName v).toList := by
    rw [toList_jarName]
    exact List.mem_append_right _ (List.mem_append_right _ (by decide))
  rw [Path.isName_iff]
  refine ⟨?_, ?_, ?_, ?_⟩
  · intro heq
    rw [heq] at hletter
    exact absurd hletter (by decide)
  · intro heq
    rw [heq] at hletter
    exact absurd hletter (by decide)
  · intro heq
    rw [heq] at hletter
    exact absurd hletter (by decide)
  · rw [toList_jarName, List.mem_append, List.mem_append, List.mem_append, not_or, not_or, not_or]
    exact ⟨⟨slash_not_mem_of_isSafeName h.name, by decide⟩, hv.2.2.2, by decide⟩

theorem isName_of_mem_jarNames {c : Coordinate} (h : c.WellFormed) {v : String} (hv : IsName v) :
    ∀ name ∈ c.jarNames v, IsName name := by
  intro name hname
  rw [jarNames, dirNames, Text.splitText, List.append_assoc, List.mem_append] at hname
  rcases hname with hgroup | hlast
  · obtain ⟨part, hpart, rfl⟩ := List.mem_map.1 hgroup
    exact isName_of_mem_parts h.group hpart
  · simp only [List.cons_append, List.nil_append, List.mem_cons, List.not_mem_nil, or_false]
      at hlast
    rcases hlast with rfl | rfl | rfl
    · exact isName_of_isSafeName h.name
    · exact hv
    · exact isName_jarName h hv

theorem eq_of_jarNames_eq {c c' : Coordinate} {v v' : String} (h : c.jarNames v = c'.jarNames v') :
    c.group = c'.group ∧ c.name = c'.name ∧ v = v' := by
  obtain ⟨hdirs, hversions⟩ := List.append_inj' h rfl
  obtain ⟨hgroups, hnames⟩ := List.append_inj' hdirs rfl
  exact ⟨Text.eq_of_splitText_eq hgroups, (List.cons.inj hnames).1, (List.cons.inj hversions).1⟩

theorem route_of_isName {c : Coordinate} (h : c.WellFormed) {v : String} (hv : IsName v) :
    c.route v = [.name v, .name (c.jarName v)] := by
  rw [route, Path.steps_of_isName hv, Path.steps_of_isName (isName_jarName h hv)]
  rfl

end Coordinate

end ModuleRig
