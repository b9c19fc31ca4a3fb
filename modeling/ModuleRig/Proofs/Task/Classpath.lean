import Mathlib.Data.List.Induction
import ModuleRig.Proofs.Text.Split
import ModuleRig.Task.Classpath

/-!
# What a classpath holds

Of the paths that are pushed and equal by their components the first stays, in its place and as it
is spelled: `HoldsFirsts`. The argument keeps the entries apart, whatever they are spelled like.
`keeps_first_spellings` has both.
-/

namespace ModuleRig.Classpath

/-- At the place a path is pushed that is equal to none before it. -/
def IsFirst (pushed : List Path) (i : Nat) : Prop :=
  ∃ p, pushed[i]? = some p ∧ ∀ q ∈ pushed.take i, q.components ≠ p.components

/-- The entries are what is pushed for the first time, in this order. -/
structure HoldsFirsts (pushed entries : List Path) : Prop where
  distinct : entries.Pairwise fun p q => p.components ≠ q.components
  covers : ∀ p ∈ pushed, ∃ q ∈ entries, q.components = p.components
  firsts : ∃ places : List Nat, places.Pairwise (· < ·) ∧
    (∀ i, i ∈ places ↔ IsFirst pushed i) ∧ places.map (pushed[·]?) = entries.map some

/-! ## One push -/

theorem holds_iff {cp : Classpath} {p : Path} :
    cp.holds p = true ↔ ∃ q ∈ cp.entries, q.components = p.components := by
  unfold holds Path.same
  simp only [List.any_eq_true, beq_iff_eq]
  exact exists_congr fun q => and_congr_right fun _ => eq_comm

theorem push_of_holds {cp : Classpath} {p : Path} (h : cp.holds p = true) : cp.push p = cp := by
  rw [push, if_pos h]

theorem isFirst_lt {pushed : List Path} {i : Nat} (h : IsFirst pushed i) : i < pushed.length := by
  obtain ⟨p, hp, -⟩ := h
  exact (List.getElem?_eq_some_iff.1 hp).1

theorem isFirst_concat {pushed : List Path} {p : Path} {i : Nat} :
    IsFirst (pushed ++ [p]) i ↔ IsFirst pushed i ∨
      i = pushed.length ∧ ∀ q ∈ pushed, q.components ≠ p.components := by
  rcases Nat.lt_trichotomy i pushed.length with hlt | rfl | hgt
  · unfold IsFirst
    rw [List.getElem?_append_left hlt, List.take_append_of_le_length (Nat.le_of_lt hlt)]
    simp [Nat.ne_of_lt hlt]
  · have hnot : ¬ IsFirst pushed pushed.length := fun h => Nat.lt_irrefl _ (isFirst_lt h)
    rw [or_iff_right hnot]
    simp [IsFirst]
  · have hnot : ¬ IsFirst pushed i := fun h => Nat.lt_asymm (isFirst_lt h) hgt
    have hnot' : ¬ IsFirst (pushed ++ [p]) i := by
      intro h
      have := isFirst_lt h
      rw [List.length_append, List.length_singleton] at this
      omega
    exact iff_of_false hnot' (not_or.2 ⟨hnot, fun h => Nat.ne_of_gt hgt h.1⟩)

theorem HoldsFirsts.mem_pushed {pushed entries : List Path} (h : HoldsFirsts pushed entries)
    {p : Path} (hp : p ∈ entries) : p ∈ pushed := by
  obtain ⟨places, -, -, hentries⟩ := h.firsts
  have hsome : some p ∈ places.map (pushed[·]?) := hentries ▸ List.mem_map_of_mem hp
  obtain ⟨i, -, hi⟩ := List.mem_map.1 hsome
  exact List.mem_of_getElem? hi

theorem map_getElem?_concat {pushed : List Path} {p : Path} {places : List Nat}
    (h : ∀ i ∈ places, i < pushed.length) :
    places.map ((pushed ++ [p])[·]?) = places.map (pushed[·]?) :=
  List.map_congr_left fun i hi => List.getElem?_append_left (h i hi)

theorem HoldsFirsts.push {pushed : List Path} {cp : Classpath}
    (h : HoldsFirsts pushed cp.entries) (p : Path) :
    HoldsFirsts (pushed ++ [p]) (cp.push p).entries := by
  obtain ⟨places, hsorted, hplaces, hentries⟩ := h.firsts
  have hbelow : ∀ i ∈ places, i < pushed.length := fun i hi => isFirst_lt ((hplaces i).1 hi)
  by_cases hheld : cp.holds p = true
  · rw [push_of_holds hheld]
    obtain ⟨q, hq, hsame⟩ := holds_iff.1 hheld
    refine ⟨h.distinct, ?_, places, hsorted, ?_, ?_⟩
    · rw [List.forall_mem_append, List.forall_mem_singleton]
      exact ⟨h.covers, q, hq, hsame⟩
    · intro i
      have hnot : ¬ ∀ q ∈ pushed, q.components ≠ p.components :=
        fun hall => hall q (h.mem_pushed hq) hsame
      rw [hplaces, isFirst_concat, or_iff_left fun hlast => hnot hlast.2]
    · rw [map_getElem?_concat hbelow, hentries]
  · have hnew : ∀ q ∈ cp.entries, q.components ≠ p.components :=
      fun q hq hsame => hheld (holds_iff.2 ⟨q, hq, hsame⟩)
    have hfirst : ∀ q ∈ pushed, q.components ≠ p.components := by
      intro q hq hsame
      obtain ⟨entry, hentry, hequal⟩ := h.covers q hq
      exact hnew entry hentry (hequal.trans hsame)
    rw [Classpath.push, if_neg hheld]
    refine ⟨?_, ?_, places ++ [pushed.length], ?_, ?_, ?_⟩
    · rw [List.pairwise_append]
      exact ⟨h.distinct, List.pairwise_singleton _ _, by simpa using hnew⟩
    · rw [List.forall_mem_append, List.forall_mem_singleton]
      refine ⟨fun q hq => ?_, p, by simp, rfl⟩
      obtain ⟨entry, hentry, hequal⟩ := h.covers q hq
      exact ⟨entry, List.mem_append_left _ hentry, hequal⟩
    · rw [List.pairwise_append]
      exact ⟨hsorted, List.pairwise_singleton _ _, by simpa using hbelow⟩
    · intro i
      rw [List.mem_append, List.mem_singleton, hplaces, isFirst_concat, and_iff_left hfirst]
    · rw [List.map_append, map_getElem?_concat hbelow, hentries]
      simp

/-! ## All pushes -/

theorem pushAll_append (cp : Classpath) (ps qs : List Path) :
    cp.pushAll (ps ++ qs) = (cp.pushAll ps).pushAll qs :=
  List.foldl_append

theorem holdsFirsts_pushAll (pushed : List Path) :
    HoldsFirsts pushed (empty.pushAll pushed).entries := by
  -- Pushes come at the end, so the last one is taken off.
  induction pushed using List.reverseRecOn with
  | nil => exact ⟨.nil, by simp, [], .nil, by simp [IsFirst], rfl⟩
  | append_singleton pushed p ih =>
    rw [pushAll_append]
    exact ih.push p

theorem pushAll_of_holds {cp : Classpath} {again : List Path}
    (h : ∀ p ∈ again, cp.holds p = true) : cp.pushAll again = cp := by
  induction again with
  | nil => rfl
  | cons p again ih =>
    rw [List.forall_mem_cons] at h
    rw [pushAll, List.foldl_cons, push_of_holds h.1]
    exact ih h.2

/-! ## The argument -/

theorem argument_eq_error_iff {cp : Classpath} {failure : Failure} :
    cp.argument = .error failure ↔
      (∃ p ∈ cp.entries, separator ∈ p.chars) ∧ failure = .configuration separatorReason := by
  unfold argument
  simp only [List.any_eq_true, List.contains_iff_mem]
  split
  · next h =>
    constructor
    · intro hfailure
      exact ⟨h, (Except.error.inj hfailure).symm⟩
    · rintro ⟨-, rfl⟩
      rfl
  · next h => exact iff_of_false (fun hfailure => by cases hfailure) fun hboth => h hboth.1

theorem splitText_argument {cp : Classpath} (hne : cp.entries ≠ [])
    (h : ∀ p ∈ cp.entries, separator ∉ p.chars) :
    ∃ text, cp.argument = .ok text ∧
      Text.splitText separator text = cp.entries.map Path.spelling := by
  have hnot : ¬ (cp.entries.any fun p => p.chars.contains separator) = true := by
    simpa using h
  refine ⟨_, by rw [argument, if_neg hnot], ?_⟩
  have hpieces : ∀ piece ∈ cp.entries.map Path.chars, separator ∉ piece := by
    rw [List.forall_mem_map]
    exact h
  rw [Text.splitText, String.toList_ofList, Text.splitOn_joinWith (by simpa using hne) hpieces,
    List.map_map]
  exact List.map_congr_left fun p _ => String.ofList_toList

/-- A classpath holds each path that was pushed once, as it was spelled first. One list behind
another is pushed like both together, and paths that are held are pushed in vain. It makes an
argument unless an entry has a colon in it, and the argument is split into the entries again. -/
theorem keeps_first_spellings (pushed : List Path) :
    let cp := empty.pushAll pushed
    HoldsFirsts pushed cp.entries ∧
    (∀ more, cp.pushAll more = empty.pushAll (pushed ++ more)) ∧
    (∀ again : List Path, (∀ p ∈ again, ∃ q ∈ cp.entries, q.components = p.components) →
      cp.pushAll again = cp) ∧
    (∀ failure, cp.argument = .error failure ↔
      (∃ p ∈ cp.entries, ':' ∈ p.chars) ∧ failure = .configuration separatorReason) ∧
    (cp.entries ≠ [] → (∀ p ∈ cp.entries, ':' ∉ p.chars) →
      ∃ text, cp.argument = .ok text ∧
        Text.splitText ':' text = cp.entries.map Path.spelling) := by
  intro cp
  refine ⟨holdsFirsts_pushAll pushed, fun more => (pushAll_append empty pushed more).symm, ?_,
    fun failure => argument_eq_error_iff, splitText_argument⟩
  intro again h
  exact pushAll_of_holds fun p hp => holds_iff.2 (h p hp)

def assortedPaths : List Path :=
  [⟨"a//b/"⟩, ⟨""⟩, ⟨"./a"⟩, ⟨"a"⟩, ⟨"a/b/."⟩, ⟨"/a"⟩, ⟨"//a"⟩, ⟨"."⟩]

theorem keeps_first_spellings_of_assorted :
    let cp := empty.pushAll assortedPaths
    cp.entries = [⟨"a//b/"⟩, ⟨""⟩, ⟨"./a"⟩, ⟨"a"⟩, ⟨"/a"⟩, ⟨"."⟩] ∧
    cp.pushAll [⟨"a/./b"⟩, ⟨"./"⟩] = cp ∧
    ∃ text, cp.argument = .ok text ∧
      Text.splitText ':' text = ["a//b/", "", "./a", "a", "/a", "."] := by
  intro cp
  have hentries : cp.entries = [⟨"a//b/"⟩, ⟨""⟩, ⟨"./a"⟩, ⟨"a"⟩, ⟨"/a"⟩, ⟨"."⟩] := by decide
  obtain ⟨-, -, hagain, -, hargument⟩ := keeps_first_spellings assortedPaths
  have hcolons : ∀ p ∈ cp.entries, ':' ∉ p.chars := by
    rw [hentries]
    decide
  obtain ⟨text, htext, hsplit⟩ := hargument (by decide) hcolons
  refine ⟨hentries, hagain _ (by decide), text, htext, hsplit.trans ?_⟩
  exact congrArg (List.map Path.spelling) hentries

end ModuleRig.Classpath
