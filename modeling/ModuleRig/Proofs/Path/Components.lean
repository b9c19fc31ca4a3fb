import Mathlib.Data.List.DropRight
import ModuleRig.Path
import ModuleRig.Proofs.Text.Split

/-!
# The components of built paths

How the components of a path come out of its pieces, and what `child`, `ancestors` and
`withExtension` do to them.
-/

namespace ModuleRig.Path

/-- The components behind the one at the very front. -/
def steps (p : Path) : List Component :=
  p.pieces.filterMap component?

/-- The component at the very front, from the pieces. -/
def front (ps : List (List Char)) : List Component :=
  if ps.head? = some [] ∧ 1 < ps.length then [.root]
  else if ps.head? = some ['.'] then [.here]
  else []

/-! ## Pieces -/

theorem pieces_ne_nil (p : Path) : p.pieces ≠ [] :=
  Text.splitOn_ne_nil '/' p.chars

theorem slash_not_mem_piece {p : Path} {piece : List Char} (h : piece ∈ p.pieces) : '/' ∉ piece :=
  Text.not_mem_of_mem_splitOn h

theorem isIdle_eq_false_iff (piece : List Char) :
    isIdle piece = false ↔ piece ≠ [] ∧ piece ≠ ['.'] := by
  rw [isIdle, Bool.or_eq_false_iff, List.isEmpty_eq_false_iff, beq_eq_false_iff_ne]

theorem component?_eq_none_iff (piece : List Char) :
    component? piece = none ↔ isIdle piece = true := by
  unfold component? isIdle
  rw [Bool.or_eq_true, List.isEmpty_iff, beq_iff_eq]
  split
  · next h => simp [h]
  · next h => split <;> simp [h]

theorem component?_eq_some_name {piece : List Char} {s : String}
    (h : component? piece = some (.name s)) :
    piece = s.toList ∧ piece ≠ [] ∧ piece ≠ ['.'] ∧ piece ≠ ['.', '.'] := by
  unfold component? at h
  split at h
  · contradiction
  · next hidle =>
    split at h
    · cases h
    · next hparent =>
      rw [Option.some.injEq, Component.name.injEq] at h
      rw [not_or] at hidle
      subst h
      exact ⟨String.toList_ofList.symm, hidle.1, hidle.2, hparent⟩

theorem component?_of_plain {piece : List Char} (hne : piece ≠ []) (hdot : piece ≠ ['.'])
    (hparent : piece ≠ ['.', '.']) : component? piece = some (.name (String.ofList piece)) := by
  rw [component?, if_neg (not_or.2 ⟨hne, hdot⟩), if_neg hparent]

theorem startsWithSlash_cons (c : Char) (text : List Char) :
    startsWithSlash (c :: text) = (c == '/') := by
  by_cases hc : c = '/'
  · rw [hc]
    rfl
  · rw [beq_false_of_ne hc]
    unfold startsWithSlash
    split
    · next h => exact absurd (List.cons.inj h).1 hc
    · rfl

theorem isAbsolute_of_not_mem {text : String} (h : '/' ∉ text.toList) :
    (⟨text⟩ : Path).isAbsolute = false := by
  rw [isAbsolute, chars]
  cases hchars : text.toList with
  | nil => rfl
  | cons c rest =>
    rw [startsWithSlash_cons]
    refine beq_false_of_ne fun hc => h ?_
    rw [hchars, hc]
    exact List.mem_cons_self

theorem isAbsolute_iff (p : Path) :
    p.isAbsolute = true ↔ p.pieces.head? = some [] ∧ 1 < p.pieces.length := by
  unfold isAbsolute pieces
  cases p.chars with
  | nil => simp [startsWithSlash, Text.splitOn]
  | cons c text =>
    rw [Text.splitOn]
    have hlength : 0 < (Text.splitOn '/' text).length :=
      List.length_pos_iff.2 (Text.splitOn_ne_nil '/' text)
    by_cases hc : c = '/'
    · subst hc
      rw [if_pos rfl, List.head?_cons, List.length_cons]
      simp only [startsWithSlash, true_and, true_iff]
      omega
    · rw [if_neg hc, startsWithSlash_cons, beq_false_of_ne hc]
      split <;> simp

theorem leading_eq_front (p : Path) : leading p.chars = front p.pieces := by
  have h := p.isAbsolute_iff
  unfold isAbsolute at h
  rw [leading, front]
  by_cases hslash : startsWithSlash p.chars = true
  · rw [if_pos hslash, if_pos (h.1 hslash)]
  · rw [if_neg hslash, if_neg (fun hfront => hslash (h.2 hfront)), pieces]

theorem components_eq (p : Path) : p.components = front p.pieces ++ p.steps := by
  rw [components, leading_eq_front, steps, pieces]

theorem front_congr {ps qs : List (List Char)} (hhead : ps.head? = qs.head?)
    (hlength : ps.head? = some [] → (1 < ps.length ↔ 1 < qs.length)) : front ps = front qs := by
  unfold front
  rw [← hhead]
  by_cases h : ps.head? = some []
  · simp only [h, hlength h]
  · simp only [h, false_and, if_false]

theorem one_lt_length_pieces {p : Path} (h : p.chars ≠ []) (hhead : p.pieces.head? = some []) :
    1 < p.pieces.length := by
  have hjoin : Text.joinWith '/' p.pieces = p.chars := Text.joinWith_splitOn '/' p.chars
  match hpieces : p.pieces with
  | [] => exact absurd hpieces p.pieces_ne_nil
  | [piece] =>
    rw [hpieces, List.head?_cons, Option.some.injEq] at hhead
    rw [hpieces, hhead] at hjoin
    exact absurd hjoin.symm h
  | _ :: _ :: rest => simp

theorem pieces_ofPieces {absolute : Bool} {ps : List (List Char)} (hne : ps ≠ [])
    (h : ∀ piece ∈ ps, '/' ∉ piece) :
    (ofPieces absolute ps).pieces = if absolute = true ∧ ps = [[]] then [[], []] else ps := by
  unfold ofPieces
  split
  · rfl
  · rw [pieces, chars, String.toList_ofList]
    exact Text.splitOn_joinWith hne h

theorem components_ofPieces {absolute : Bool} {ps : List (List Char)} (hne : ps ≠ [])
    (h : ∀ piece ∈ ps, '/' ∉ piece) :
    (ofPieces absolute ps).components =
      (if absolute = true ∧ ps = [[]] then [.root] else front ps) ++ ps.filterMap component? := by
  rw [components_eq, steps, pieces_ofPieces hne h]
  split
  · next hroot =>
    rw [hroot.2]
    rfl
  · rfl

/-! ## Going on to another path -/

theorem pieces_join {p q : Path} (h : p.chars ≠ []) (hq : q.isAbsolute = false) :
    ∃ before last, p.pieces = before ++ last ∧ before ≠ [] ∧ last.filterMap component? = [] ∧
      (p.join q).pieces = before ++ q.pieces := by
  rw [join, if_neg (by simp [hq, h])]
  split
  · next hslash =>
    -- The slash between the two is the one at the end of the first.
    obtain ⟨text, htext⟩ : ∃ text, p.chars = text ++ ['/'] := by
      rw [endsWithSlash, beq_iff_eq] at hslash
      exact List.getLast?_eq_some_iff.1 hslash
    refine ⟨Text.splitOn '/' text, [[]], ?_, Text.splitOn_ne_nil _ _, rfl, ?_⟩
    · rw [pieces, htext]
      exact Text.splitOn_append text []
    · have hchars : p.spelling.toList = text ++ ['/'] := htext
      rw [pieces, chars, String.toList_append, hchars, List.append_assoc]
      exact Text.splitOn_append text q.chars
  · refine ⟨p.pieces, [], (List.append_nil _).symm, p.pieces_ne_nil, rfl, ?_⟩
    rw [pieces, chars, String.toList_append, String.toList_append, List.append_assoc]
    exact Text.splitOn_append p.chars q.chars

theorem prefix_chars_join (p : Path) {q : Path} (hq : q.isAbsolute = false) :
    p.chars <+: (p.join q).chars := by
  by_cases hp : p.chars = []
  · rw [hp]
    exact List.nil_prefix
  · rw [join, if_neg (by simp [hq, hp])]
    split
    · rw [chars, chars, String.toList_append]
      exact List.prefix_append _ _
    · rw [chars, chars, String.toList_append, String.toList_append, List.append_assoc]
      exact List.prefix_append _ _

theorem isAbsolute_of_isPrefix {p q : Path} (hp : p.chars ≠ []) (h : p.chars <+: q.chars) :
    q.isAbsolute = p.isAbsolute := by
  obtain ⟨c, text, hchars⟩ := List.exists_cons_of_ne_nil hp
  obtain ⟨rest, hrest⟩ := h
  rw [isAbsolute, isAbsolute, ← hrest, hchars, List.cons_append, startsWithSlash_cons,
    startsWithSlash_cons]

theorem components_join {p q : Path} (h : p.chars ≠ []) (hq : q.isAbsolute = false) :
    (p.join q).components = p.components ++ q.steps := by
  obtain ⟨before, last, hp, hbefore, hlast, hjoin⟩ := pieces_join h hq
  have hfront : front (before ++ q.pieces) = front p.pieces := by
    have hlength : 1 < (before ++ q.pieces).length := by
      rw [List.length_append]
      have := List.length_pos_iff.2 hbefore
      have := List.length_pos_iff.2 q.pieces_ne_nil
      omega
    have hhead : (before ++ q.pieces).head? = p.pieces.head? := by
      rw [hp, List.head?_append_of_ne_nil _ hbefore, List.head?_append_of_ne_nil _ hbefore]
    refine front_congr hhead fun hempty => iff_of_true hlength ?_
    exact one_lt_length_pieces h (hhead ▸ hempty)
  rw [components_eq, hjoin, hfront, components_eq p, steps, hjoin, steps, steps, hp,
    List.filterMap_append, List.filterMap_append, hlast, List.append_nil, List.append_assoc]

theorem isAbsolute_of_leading {text : String} (h : leading text.toList = []) :
    (⟨text⟩ : Path).isAbsolute = false := by
  rw [isAbsolute, chars]
  unfold leading at h
  split at h
  · cases h
  · next hslash => exact Bool.eq_false_iff.2 hslash

theorem components_child {p : Path} {text : String} (h : leading text.toList = []) :
    (p.child text).components = p.components ++ (⟨text⟩ : Path).steps := by
  have hq := isAbsolute_of_leading h
  by_cases hp : p.chars = []
  · have hcomponents : p.components = [] := by
      rw [components, hp]
      rfl
    rw [child, join, if_pos (Or.inr hp), hcomponents, List.nil_append, components, chars, h]
    rfl
  · exact components_join hp hq

theorem child_of_absolute {p : Path} {text : String} (h : (⟨text⟩ : Path).isAbsolute = true) :
    p.child text = ⟨text⟩ := by
  rw [child, join, if_pos (Or.inl h)]

theorem exists_front (p : Path) :
    ∃ front : String, ∀ text : String, (⟨text⟩ : Path).isAbsolute = false →
      p.child text = ⟨front ++ text⟩ := by
  by_cases hp : p.chars = []
  · refine ⟨"", fun text _ => ?_⟩
    rw [child, join, if_pos (.inr hp), String.empty_append]
  · by_cases hslash : endsWithSlash p.chars = true
    · refine ⟨p.spelling, fun text htext => ?_⟩
      rw [child, join, if_neg (by simp [htext, hp]), if_pos hslash]
    · refine ⟨p.spelling ++ "/", fun text htext => ?_⟩
      rw [child, join, if_neg (by simp [htext, hp]), if_neg hslash]

theorem isAbsolute_append {text : String} (hne : text.toList ≠ []) (rest : String)
    (h : (⟨text⟩ : Path).isAbsolute = false) : (⟨text ++ rest⟩ : Path).isAbsolute = false := by
  rw [isAbsolute_of_isPrefix (p := ⟨text⟩) hne, h]
  rw [chars, chars, String.toList_append]
  exact List.prefix_append _ _

theorem child_child (p : Path) {text rest : String} (hne : text.toList ≠ [])
    (htext : (⟨text⟩ : Path).isAbsolute = false) (hslash : endsWithSlash text.toList = false)
    (hrest : (⟨rest⟩ : Path).isAbsolute = false) :
    (p.child text).child rest = p.child (text ++ "/" ++ rest) := by
  have hboth : (⟨text ++ "/" ++ rest⟩ : Path).isAbsolute = false := by
    rw [String.append_assoc]
    exact isAbsolute_append hne _ htext
  obtain ⟨front, hfront⟩ := p.exists_front
  have hchars : (⟨front ++ text⟩ : Path).chars = front.toList ++ text.toList :=
    String.toList_append
  have hlast : endsWithSlash (front.toList ++ text.toList) = false := by
    rw [endsWithSlash, List.getLast?_append_of_ne_nil _ hne]
    exact hslash
  rw [hfront text htext, hfront _ hboth, child, join, hchars, if_neg (by simp [hrest, hne]),
    if_neg (by simp [hlast]), String.append_assoc, String.append_assoc, String.append_assoc]

/-! ## Going back up -/

theorem isPrefix_dropIdle (ps : List (List Char)) : dropIdle ps <+: ps := by
  cases ps with
  | nil => exact List.prefix_refl []
  | cons first rest => exact List.prefix_cons_inj first |>.2 (List.rdropWhile_prefix isIdle rest)

theorem dropIdle_ne_nil {ps : List (List Char)} (h : ps ≠ []) : dropIdle ps ≠ [] := by
  cases ps with
  | nil => exact absurd rfl h
  | cons first rest => exact List.cons_ne_nil _ _

theorem isPrefix_components_ofPieces {p : Path} {ps : List (List Char)} (hne : ps ≠ [])
    (h : ps <+: p.pieces) (hchars : p.chars ≠ []) :
    (ofPieces p.isAbsolute ps).components <+: p.components := by
  obtain ⟨rest, hrest⟩ := h
  have hhead : ps.head? = p.pieces.head? := by
    rw [← hrest, List.head?_append_of_ne_nil _ hne]
  rw [components_ofPieces hne fun piece hpiece =>
    slash_not_mem_piece (hrest ▸ List.mem_append_left rest hpiece), components_eq]
  have hfront : (if p.isAbsolute = true ∧ ps = [[]] then [.root] else front ps) =
      front p.pieces := by
    split
    · next hroot => rw [front, if_pos (p.isAbsolute_iff.1 hroot.1)]
    · next hroot =>
      refine front_congr hhead fun hempty => ?_
      have hlong := one_lt_length_pieces hchars (hhead ▸ hempty)
      refine iff_of_true ?_ hlong
      have habsolute := p.isAbsolute_iff.2 ⟨hhead ▸ hempty, hlong⟩
      match hps : ps with
      | [] => exact absurd rfl hne
      | [piece] =>
        rw [List.head?_cons, Option.some.injEq] at hempty
        exact absurd ⟨habsolute, by rw [hempty]⟩ hroot
      | _ :: _ :: _ => simp
  rw [hfront, List.prefix_append_right_inj, steps, ← hrest, List.filterMap_append]
  exact List.prefix_append _ _

theorem components_parent? {p q : Path} (h : p.parent? = some q) :
    q.components <+: p.components := by
  unfold parent? at h
  split at h
  · contradiction
  · split at h
    · contradiction
    · obtain rfl := Option.some.inj h
      exact List.nil_prefix
  · next ps hps hlong =>
    obtain rfl := Option.some.inj h
    have hpieces : dropIdle (dropIdle p.pieces).dropLast <+: p.pieces :=
      (isPrefix_dropIdle _).trans ((List.dropLast_prefix _).trans (isPrefix_dropIdle _))
    refine isPrefix_components_ofPieces (dropIdle_ne_nil ?_) hpieces ?_
    · intro hnil
      match hdrop : dropIdle p.pieces with
      | [] => exact hps hdrop
      | [first] => exact hlong first hdrop
      | _ :: _ :: _ =>
        rw [hdrop] at hnil
        cases hnil
    · intro hchars
      have : dropIdle p.pieces = [[]] := by
        rw [pieces, hchars]
        rfl
      exact hlong [] this

theorem components_of_mem_ancestors {p q : Path} (h : q ∈ p.ancestors) :
    q.components <+: p.components := by
  unfold ancestors at h
  generalize p.pieces.length = n at h
  induction n generalizing p with
  | zero =>
    rw [ancestorsWithin, List.mem_singleton] at h
    exact h ▸ List.prefix_refl _
  | succ n ih =>
    rw [ancestorsWithin] at h
    split at h
    · rw [List.mem_singleton] at h
      exact h ▸ List.prefix_refl _
    · next parent hparent =>
      rcases List.mem_cons.1 h with rfl | h
      · exact List.prefix_refl _
      · exact (ih h).trans (components_parent? hparent)

theorem exists_ancestors (p : Path) : ∃ above, p.ancestors = p :: above := by
  unfold ancestors
  cases p.pieces.length with
  | zero => exact ⟨[], rfl⟩
  | succ n =>
    rw [ancestorsWithin]
    split
    · exact ⟨[], rfl⟩
    · exact ⟨_, rfl⟩

/-! ## Another extension -/

theorem mem_of_mem_stem {name : List Char} {c : Char} (h : c ∈ stem name) : c ∈ name := by
  unfold stem at h
  split at h
  · exact h
  · rw [List.mem_reverse] at h
    exact List.mem_reverse.1 ((List.dropWhile_suffix _).subset (List.mem_of_mem_drop h))

theorem stem_ne_nil {name : List Char} (h : name ≠ []) : stem name ≠ [] := by
  unfold stem
  split
  · exact h
  · next hfront => exact fun hnil => hfront (List.reverse_eq_nil_iff.1 hnil)

theorem stem_append {front : List Char} (h : front ≠ []) {extension : List Char}
    (hdot : '.' ∉ extension) : stem (front ++ '.' :: extension) = front := by
  have hdrop : ((front ++ '.' :: extension).reverse.dropWhile (· != '.')).drop 1 =
      front.reverse := by
    rw [List.reverse_append, List.reverse_cons, List.append_assoc, List.dropWhile_append_of_pos]
    · rfl
    · intro c hc
      exact bne_iff_ne.2 fun heq => hdot (heq ▸ List.mem_reverse.1 hc)
  unfold stem
  rw [hdrop]
  split
  · next hnil => exact absurd (List.reverse_eq_nil_iff.1 hnil) h
  · exact List.reverse_reverse front

theorem filterMap_dropIdle (ps : List (List Char)) :
    (dropIdle ps).filterMap component? = ps.filterMap component? := by
  cases ps with
  | nil => rfl
  | cons first rest =>
    have hdrop : dropIdle (first :: rest) = first :: rest.rdropWhile isIdle := rfl
    have hidle : (rest.rtakeWhile isIdle).filterMap component? = [] :=
      List.filterMap_eq_nil_iff.2 fun piece hpiece =>
        (component?_eq_none_iff piece).2 (List.mem_rtakeWhile_imp hpiece)
    have hrest : (rest.rdropWhile isIdle).filterMap component? = rest.filterMap component? := by
      conv_rhs => rw [← List.rdropWhile_append_rtakeWhile (p := isIdle) (l := rest)]
      rw [List.filterMap_append, hidle, List.append_nil]
    rw [hdrop, List.filterMap_cons, List.filterMap_cons, hrest]

theorem eq_nil_of_dropIdle {ps before : List (List Char)} {last : List Char}
    (h : dropIdle ps = before ++ [last]) (hidle : isIdle last = true) : before = [] := by
  cases before with
  | nil => rfl
  | cons b before =>
    cases ps with
    | nil => cases h
    | cons first rest =>
      have hrest : rest.rdropWhile isIdle = before ++ [last] := (List.cons.inj h).2
      have hne : rest.rdropWhile isIdle ≠ [] := by rw [hrest]; simp
      have hlast := List.rdropWhile_last_not isIdle rest hne
      simp only [hrest, List.getLast_concat] at hlast
      exact absurd hidle hlast

theorem front_append_cons {last new : List Char} (hlast : isIdle last = false)
    (hnew : isIdle new = false) (before rest : List (List Char)) :
    front (before ++ last :: rest) = front (before ++ [new]) := by
  cases before with
  | nil =>
    rw [isIdle_eq_false_iff] at hlast hnew
    simp [front, hlast, hnew]
  | cons b before =>
    refine front_congr rfl fun _ => iff_of_true ?_ ?_ <;>
    · rw [List.cons_append, List.length_cons, List.length_append, List.length_cons]
      omega

theorem name_not_mem_front (s : String) (ps : List (List Char)) : .name s ∉ front ps := by
  unfold front
  split
  · simp
  · split <;> simp

theorem exists_last_piece {p : Path} {cs : List Component} {s : String}
    (h : p.components = cs ++ [.name s]) :
    ∃ before, dropIdle p.pieces = before ++ [s.toList] ∧
      cs = front p.pieces ++ before.filterMap component? ∧
      component? s.toList = some (.name s) := by
  obtain ⟨before, last, hdrop⟩ : ∃ before last, dropIdle p.pieces = before ++ [last] :=
    ⟨_, _, (List.dropLast_append_getLast (dropIdle_ne_nil p.pieces_ne_nil)).symm⟩
  rw [components_eq, steps, ← filterMap_dropIdle, hdrop, List.filterMap_append] at h
  cases hlast : component? last with
  | none =>
    have hbefore := eq_nil_of_dropIdle hdrop ((component?_eq_none_iff last).1 hlast)
    rw [hbefore, List.filterMap_nil, List.nil_append, List.filterMap_cons_none hlast,
      List.filterMap_nil, List.append_nil] at h
    have : Component.name s ∈ front p.pieces := h ▸ List.mem_append_right cs List.mem_cons_self
    exact absurd this (name_not_mem_front s _)
  | some component =>
    -- Both lists of components end here, so the last ones are the same and so are those before.
    rw [List.filterMap_cons_some hlast, List.filterMap_nil, ← List.append_assoc] at h
    obtain ⟨hcs, hname⟩ := List.append_inj' h rfl
    rw [List.cons.injEq] at hname
    rw [hname.1] at hlast
    obtain ⟨rfl, -⟩ := component?_eq_some_name hlast
    exact ⟨before, hdrop, hcs.symm, hlast⟩

theorem components_withExtension {p : Path} {cs : List Component} {s extension : String}
    (h : p.components = cs ++ [.name s]) (hne : extension.toList ≠ [])
    (hslash : '/' ∉ extension.toList) :
    (p.withExtension extension).components =
      cs ++ [.name (String.ofList (stem s.toList ++ '.' :: extension.toList))] := by
  obtain ⟨before, hdrop, hcs, hname⟩ := exists_last_piece h
  obtain ⟨-, hempty, hdot, hparent⟩ := component?_eq_some_name hname
  have hmem : ∀ piece ∈ before ++ [s.toList], '/' ∉ piece := fun piece hpiece =>
    slash_not_mem_piece ((isPrefix_dropIdle _).subset (hdrop ▸ hpiece))
  have hidle : isIdle s.toList = false := (isIdle_eq_false_iff _).2 ⟨hempty, hdot⟩
  generalize hnew : stem s.toList ++ '.' :: extension.toList = new
  -- The new name is at least three characters long.
  have hlong : 2 < new.length := by
    have := List.length_pos_iff.2 (stem_ne_nil hempty)
    have := List.length_pos_iff.2 hne
    rw [← hnew, List.length_append, List.length_cons]
    omega
  have hplain : new ≠ [] ∧ new ≠ ['.'] ∧ new ≠ ['.', '.'] := by
    refine ⟨?_, ?_, ?_⟩ <;>
    · rintro rfl
      simp at hlong
  have hnewslash : '/' ∉ new := by
    rw [← hnew, List.mem_append, List.mem_cons, not_or, not_or]
    exact ⟨fun hstem => hmem _ (List.mem_append_right _ List.mem_cons_self)
      (mem_of_mem_stem hstem), by decide, hslash⟩
  have hpath : p.withExtension extension = ofPieces p.isAbsolute (before ++ [new]) := by
    simp only [withExtension, hdrop, List.getLast?_concat, Option.getD_some, List.dropLast_concat,
      hidle, Bool.false_eq_true, hparent, or_self, if_false, hnew]
  have hfront : front p.pieces = front (before ++ [new]) := by
    obtain ⟨rest, hrest⟩ := isPrefix_dropIdle p.pieces
    rw [← hrest, hdrop, List.append_assoc]
    exact front_append_cons hidle ((isIdle_eq_false_iff new).2 ⟨hplain.1, hplain.2.1⟩) before rest
  have hpieces : ∀ piece ∈ before ++ [new], '/' ∉ piece := by
    intro piece hpiece
    rcases List.mem_append.1 hpiece with hpiece | hpiece
    · exact hmem piece (List.mem_append_left _ hpiece)
    · rw [List.mem_singleton.1 hpiece]
      exact hnewslash
  have hroot : before ++ [new] ≠ [[]] := by
    intro hsingle
    have := congrArg List.getLast? hsingle
    rw [List.getLast?_concat, List.getLast?_singleton, Option.some.injEq] at this
    exact hplain.1 this
  rw [hpath, components_ofPieces (by simp) hpieces, if_neg fun hif => hroot hif.2, ← hfront, hcs,
    List.filterMap_append, List.filterMap_cons_some (component?_of_plain hplain.1 hplain.2.1
      hplain.2.2), List.filterMap_nil, List.append_assoc]

end ModuleRig.Path
