import ModuleRig.Files.Walk
import ModuleRig.Proofs.Path.Components

/-!
# Paths below a path

`IsBelow` reads two paths component by component: the longer one goes on from the other and never
climbs back out of it. `place` is the location that the components lead to when nothing in the tree
is looked at, and a path below another has its place below the other's.
-/

namespace ModuleRig.Path

/-- From so many names down, the components never lead above the start, nor back to the root. -/
def staysBelow : Nat → List Component → Bool
  | _, [] => true
  | depth, .name _ :: rest => staysBelow (depth + 1) rest
  | depth, .here :: rest => staysBelow depth rest
  | 0, .parent :: _ => false
  | depth + 1, .parent :: rest => staysBelow depth rest
  | _, .root :: _ => false

/-- The path goes on from the base and never leads out of it. -/
def IsBelow (base p : Path) : Prop :=
  ∃ rest, p.components = base.components ++ rest ∧ staysBelow 0 rest = true

/-- Where a component leads from a location. -/
def Component.lead (here : Location) : Component → Location
  | .root => []
  | .here => here
  | .parent => here.dropLast
  | .name text => here ++ [text]

/-- Where the components of a path lead. A relative path starts at the given location. -/
def place (start : Location) (p : Path) : Location :=
  p.components.foldl Component.lead start

/-! ## Depth -/

theorem staysBelow_of_append {depth : Nat} {cs rest : List Component}
    (h : staysBelow depth (cs ++ rest) = true) : staysBelow depth cs = true := by
  induction cs generalizing depth with
  | nil => rw [staysBelow]
  | cons c cs ih =>
    cases c with
    | root => cases h
    | here => exact ih h
    | name text => exact ih h
    | parent =>
      cases depth with
      | zero => cases h
      | succ depth => exact ih h

theorem staysBelow_names (depth : Nat) (names : List String) (rest : List Component) :
    staysBelow depth (names.map .name ++ rest) = staysBelow (depth + names.length) rest := by
  induction names generalizing depth with
  | nil => rfl
  | cons name names ih =>
    rw [List.map_cons, List.cons_append, staysBelow, ih, List.length_cons]
    congr 1
    omega

theorem staysBelow_of_names (depth : Nat) (names : List String) :
    staysBelow depth (names.map .name) = true := by
  have := staysBelow_names depth names []
  rw [List.append_nil] at this
  rw [this, staysBelow]

theorem staysBelow_concat_name {depth : Nat} {cs : List Component} (text : String) :
    staysBelow depth (cs ++ [.name text]) = staysBelow depth cs := by
  induction cs generalizing depth with
  | nil => rfl
  | cons c cs ih =>
    cases c with
    | root => rfl
    | here => exact ih
    | name text => exact ih
    | parent =>
      cases depth with
      | zero => rfl
      | succ depth => exact ih

theorem isBelow_iff_of_components {base p : Path} {rest : List Component}
    (h : p.components = base.components ++ rest) : base.IsBelow p ↔ staysBelow 0 rest = true := by
  constructor
  · rintro ⟨rest', hrest, hbelow⟩
    rw [h, List.append_right_inj] at hrest
    exact hrest ▸ hbelow
  · exact fun hbelow => ⟨rest, h, hbelow⟩

theorem prefix_place_of_staysBelow {base inner : Location} {cs : List Component}
    (h : staysBelow inner.length cs = true) :
    base <+: cs.foldl Component.lead (base ++ inner) := by
  induction cs generalizing inner with
  | nil => exact List.prefix_append base inner
  | cons c cs ih =>
    cases c with
    | root => cases h
    | here => exact ih h
    | name text =>
      rw [List.foldl_cons, Component.lead, List.append_assoc]
      refine ih ?_
      rwa [List.length_append, List.length_singleton]
    | parent =>
      cases hinner : inner with
      | nil =>
        rw [hinner] at h
        cases h
      | cons name names =>
        have hne : inner ≠ [] := by rw [hinner]; exact List.cons_ne_nil _ _
        rw [hinner] at h
        rw [List.foldl_cons, Component.lead, ← hinner, List.dropLast_append_of_ne_nil hne]
        refine ih ?_
        rw [hinner, List.length_dropLast_cons]
        exact h

theorem place_eq_of_components {base p : Path} {rest : List Component} (start : Location)
    (h : p.components = base.components ++ rest) :
    p.place start = rest.foldl Component.lead (base.place start) := by
  rw [place, h, List.foldl_append, place]

theorem IsBelow.prefix_place {base p : Path} (start : Location) (h : base.IsBelow p) :
    base.place start <+: p.place start := by
  obtain ⟨rest, hrest, hbelow⟩ := h
  rw [place_eq_of_components start hrest]
  have : base.place start <+: rest.foldl Component.lead (base.place start ++ []) :=
    prefix_place_of_staysBelow hbelow
  rwa [List.append_nil] at this

/-- The location is passed on the way to the path. -/
def IsOnTheWay (p : Path) (start l : Location) : Prop :=
  ∃ above, above <+: p.components ∧ l = above.foldl Component.lead start

theorem IsBelow.place_of_mem_ancestors {base p q : Path} (start : Location) (h : base.IsBelow p)
    (hq : q ∈ p.ancestors) :
    base.IsOnTheWay start (q.place start) ∨ base.place start <+: q.place start := by
  obtain ⟨rest, hrest, hbelow⟩ := h
  have habove := components_of_mem_ancestors hq
  rw [hrest] at habove
  rcases List.prefix_or_prefix_of_prefix habove (List.prefix_append _ rest) with hway | hway
  · exact .inl ⟨q.components, hway, rfl⟩
  · obtain ⟨more, hmore⟩ := hway
    rw [← hmore, List.prefix_append_right_inj] at habove
    obtain ⟨last, rfl⟩ := habove
    exact .inr (prefix_place start ⟨more, hmore.symm, staysBelow_of_append hbelow⟩)

/-! ## Names -/

theorem isName_iff (text : String) :
    IsName text ↔ text.toList ≠ [] ∧ text.toList ≠ ['.'] ∧ text.toList ≠ ['.', '.'] ∧
      '/' ∉ text.toList := by
  simp only [IsName, ne_eq, ← String.toList_inj]
  exact Iff.rfl

theorem component?_of_isName {text : String} (h : IsName text) :
    component? text.toList = some (.name text) := by
  obtain ⟨hne, hdot, hparent, -⟩ := (isName_iff text).1 h
  rw [component?_of_plain hne hdot hparent, String.ofList_toList]

theorem pieces_of_isName {text : String} (h : IsName text) :
    (⟨text⟩ : Path).pieces = [text.toList] :=
  Text.splitOn_of_not_mem h.2.2.2

theorem steps_of_isName {text : String} (h : IsName text) :
    (⟨text⟩ : Path).steps = [.name text] := by
  rw [steps, pieces_of_isName h, List.filterMap_cons_some (component?_of_isName h),
    List.filterMap_nil]

theorem front_cons_of_ne {piece : List Char} (hne : piece ≠ []) (hdot : piece ≠ ['.'])
    (rest : List (List Char)) : front (piece :: rest) = [] := by
  rw [front, List.head?_cons, if_neg, if_neg]
  · rwa [Option.some.injEq]
  · rw [Option.some.injEq]
    exact fun h => hne h.1

theorem isName_of_length {text : String} (hlong : 2 < text.toList.length)
    (hslash : '/' ∉ text.toList) : IsName text := by
  refine (isName_iff text).2 ⟨?_, ?_, ?_, hslash⟩ <;>
  · intro heq
    rw [heq] at hlong
    exact absurd hlong (by decide)

theorem components_child_of_isName (p : Path) {text : String} (h : IsName text) :
    (p.child text).components = p.components ++ [.name text] := by
  obtain ⟨hne, hdot, -, -⟩ := (isName_iff text).1 h
  have hleading : leading text.toList = [] := by
    refine (leading_eq_front ⟨text⟩).trans ?_
    rw [pieces_of_isName h, front_cons_of_ne hne hdot]
  rw [components_child hleading, steps_of_isName h]

theorem endsWithSlash_of_not_mem {cs : List Char} (h : '/' ∉ cs) : endsWithSlash cs = false := by
  rw [endsWithSlash, beq_eq_false_iff_ne]
  exact fun hlast => h (List.mem_of_getLast? hlast)

end ModuleRig.Path
