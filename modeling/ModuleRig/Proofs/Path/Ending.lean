import ModuleRig.Proofs.Path.Below

/-!
# How file names end

A jar, the index of the cache and the files they are first written to have names with different
endings. So however the paths before these names run, they never meet in one place.
-/

namespace ModuleRig

/-- The path ends in a name, and the name in the text. -/
def Path.EndsWith (p : Path) (ending : String) : Prop :=
  ∃ cs name, p.components = cs ++ [.name name] ∧ ending.toList <:+ name.toList

def Location.EndsWith (l : Location) (ending : String) : Prop :=
  ∃ name, l.getLast? = some name ∧ ending.toList <:+ name.toList

/-- Neither text ends in the other, so nothing ends in both. -/
def Disparate (ending ending' : String) : Prop :=
  ¬ ending.toList <:+ ending'.toList ∧ ¬ ending'.toList <:+ ending.toList

instance (ending ending' : String) : Decidable (Disparate ending ending') :=
  inferInstanceAs (Decidable (_ ∧ _))

variable {ending ending' : String}

namespace Path

/-- An ending of more than two characters is part of a name, since a name goes back to a slash. -/
theorem endsWith_of_spelling {p : Path} (h : ending.toList <:+ p.chars)
    (hslash : '/' ∉ ending.toList) (hlong : 2 < ending.toList.length) : p.EndsWith ending := by
  obtain ⟨text, htext⟩ := h
  obtain ⟨before, piece, -, hpieces⟩ := Text.splitOn_append_tail text hslash
  rw [htext] at hpieces
  have hlength : 2 < (piece ++ ending.toList).length := by
    rw [List.length_append]
    omega
  have hplain : component? (piece ++ ending.toList) =
      some (.name (String.ofList (piece ++ ending.toList))) := by
    apply component?_of_plain
    all_goals
      intro heq
      rw [heq] at hlength
      simp at hlength
  refine ⟨front p.pieces ++ before.filterMap component?,
    String.ofList (piece ++ ending.toList), ?_, ?_⟩
  · rw [components_eq, steps, List.append_assoc]
    congr 1
    rw [pieces, hpieces, List.filterMap_append, List.filterMap_cons_some hplain]
    rfl
  · rw [String.toList_ofList]
    exact List.suffix_append piece _

theorem suffix_chars_child (p : Path) (text : String) : text.toList <:+ (p.child text).chars := by
  unfold child join chars
  split
  · exact List.suffix_rfl
  · split
    · rw [String.toList_append]
      exact List.suffix_append _ _
    · rw [String.toList_append]
      exact List.suffix_append _ _

theorem endsWith_child (p : Path) {text : String} (h : ending.toList <:+ text.toList)
    (hslash : '/' ∉ ending.toList) (hlong : 2 < ending.toList.length) :
    (p.child text).EndsWith ending :=
  endsWith_of_spelling (h.trans (suffix_chars_child p text)) hslash hlong

theorem endsWith_withExtension {p : Path} (h : p.EndsWith ending) {extension : String}
    (hne : extension.toList ≠ []) (hslash : '/' ∉ extension.toList) :
    (p.withExtension extension).EndsWith ("." ++ extension) := by
  obtain ⟨cs, name, hcomponents, -⟩ := h
  refine ⟨cs, _, components_withExtension hcomponents hne hslash, ?_⟩
  rw [String.toList_ofList, String.toList_append]
  exact List.suffix_append _ _

theorem endsWith_place {p : Path} (h : p.EndsWith ending) (start : Location) :
    (p.place start).EndsWith ending := by
  obtain ⟨cs, name, hcomponents, hending⟩ := h
  refine ⟨name, ?_, hending⟩
  rw [place, hcomponents, List.foldl_append, List.foldl_cons, List.foldl_nil, Component.lead,
    List.getLast?_concat]

end Path

theorem Location.ne_of_endsWith {l l' : Location} (h : l.EndsWith ending)
    (h' : l'.EndsWith ending') (hdisparate : Disparate ending ending') : l ≠ l' := by
  rintro rfl
  obtain ⟨name, hname, hending⟩ := h
  obtain ⟨name', hname', hending'⟩ := h'
  obtain rfl : name = name' := Option.some.inj (hname.symm.trans hname')
  rcases List.suffix_or_suffix_of_suffix hending hending' with hin | hin
  · exact hdisparate.1 hin
  · exact hdisparate.2 hin

theorem Path.place_ne_of_endsWith {p q : Path} (h : p.EndsWith ending) (h' : q.EndsWith ending')
    (hdisparate : Disparate ending ending') (start : Location) : p.place start ≠ q.place start :=
  Location.ne_of_endsWith (endsWith_place h start) (endsWith_place h' start) hdisparate

end ModuleRig
