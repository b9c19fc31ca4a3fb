import ModuleRig.Version.Order

/-!
# The order of versions is a total preorder

Version texts compare like endless token sequences in which every version goes on with releases.
`compare_total_preorder` says that this is a total preorder, and that its equal texts are those
with one key.
-/

namespace ModuleRig.Version

open Std (ReflCmp OrientedCmp OrientedOrd TransCmp TransOrd LawfulEqCmp)

/-! ## Tokens -/

theorem rank_injective {s s' : Stage} (h : s.rank = s'.rank) : s = s' := by
  cases s <;> cases s' <;> first | rfl | contradiction

theorem Token.compare_swap (t u : Token) : u.compare t = (t.compare u).swap := by
  cases t with
  | qualifier s w =>
    cases u with
    | qualifier s' w' =>
      have hrank : Ord.compare s'.rank s.rank = (Ord.compare s.rank s'.rank).swap :=
        OrientedOrd.eq_swap
      have hword : Ord.compare w' w = (Ord.compare w w').swap := OrientedOrd.eq_swap
      rw [Token.compare, Token.compare, hrank, hword, Ordering.swap_then]
    | number n => rfl
  | number n =>
    cases u with
    | qualifier s' w' => rfl
    | number n' =>
      show Ord.compare n' n = (Ord.compare n n').swap
      exact OrientedOrd.eq_swap

/-- If the first components decide like an order, and the second ones are in order wherever they
are asked, then both together are in order. -/
theorem isLE_then_trans {α : Type} {cmp : α → α → Ordering} [TransCmp cmp] {a b c : α}
    {ab bc ac : Ordering} (hrest : ab.isLE → bc.isLE → ac.isLE)
    (hab : ((cmp a b).then ab).isLE) (hbc : ((cmp b c).then bc).isLE) :
    ((cmp a c).then ac).isLE := by
  rw [Ordering.isLE_then_iff_or] at hab hbc ⊢
  rcases hab with hab | ⟨hab, hab'⟩
  · left
    rcases hbc with hbc | ⟨hbc, -⟩
    · exact TransCmp.lt_trans hab hbc
    · exact TransCmp.lt_of_lt_of_eq hab hbc
  · rcases hbc with hbc | ⟨hbc, hbc'⟩
    · left
      exact TransCmp.lt_of_eq_of_lt hab hbc
    · right
      exact ⟨TransCmp.eq_trans hab hbc, hrest hab' hbc'⟩

theorem Token.compare_isLE_trans (t u v : Token) (htu : (t.compare u).isLE)
    (huv : (u.compare v).isLE) : (t.compare v).isLE := by
  cases t <;> cases u <;> cases v <;> simp only [Token.compare] at htu huv ⊢
  case qualifier.qualifier.qualifier s w s' w' s'' w'' =>
    exact isLE_then_trans TransOrd.isLE_trans htu huv
  case number.number.number n n' n'' => exact TransOrd.isLE_trans htu huv
  all_goals first | rfl | contradiction

theorem Token.compare_eq_iff (t u : Token) : t.compare u = .eq ↔ t = u := by
  cases t with
  | qualifier s w =>
    cases u with
    | qualifier s' w' =>
      rw [Token.compare, Ordering.then_eq_eq, Std.compare_eq_iff_eq, Std.compare_eq_iff_eq]
      constructor
      · rintro ⟨hs, rfl⟩
        rw [rank_injective hs]
      · rintro ⟨⟩
        exact ⟨rfl, rfl⟩
    | number n => simp [Token.compare]
  | number n =>
    cases u with
    | qualifier s' w' => simp [Token.compare]
    | number n' => simp [Token.compare]

instance : OrientedCmp Token.compare where
  eq_swap := Token.compare_swap _ _

instance : TransCmp Token.compare where
  isLE_trans := Token.compare_isLE_trans _ _ _

instance : LawfulEqCmp Token.compare where
  compare_self := (Token.compare_eq_iff _ _).2 rfl
  eq_of_compare := (Token.compare_eq_iff _ _).1

/-! ## Token lists -/

theorem compareTokens_eq_then (ts us : List Token) :
    compareTokens ts us =
      ((ts.headD .release).compare (us.headD .release)).then (compareTokens ts.tail us.tail) := by
  cases ts with
  | nil =>
    cases us with
    | nil => rfl
    | cons u us => rw [compareTokens]; rfl
  | cons t ts =>
    cases us with
    | nil => rw [compareTokens]; rfl
    | cons u us => rw [compareTokens]; rfl

theorem compareTokens_swap (ts us : List Token) :
    compareTokens us ts = (compareTokens ts us).swap := by
  induction ts, us using compareTokens.induct with
  | case1 => rw [compareTokens]; rfl
  | case2 u us ih => rw [compareTokens, compareTokens, Ordering.swap_then, ← ih, Token.compare_swap]
  | case3 t ts ih => rw [compareTokens, compareTokens, Ordering.swap_then, ← ih, Token.compare_swap]
  | case4 t ts u us ih =>
    rw [compareTokens, compareTokens, Ordering.swap_then, ← ih, Token.compare_swap]

theorem compareTokens_isLE_trans (n : Nat) {ts us vs : List Token} (hts : ts.length ≤ n)
    (hus : us.length ≤ n) (hvs : vs.length ≤ n) (htu : (compareTokens ts us).isLE)
    (huv : (compareTokens us vs).isLE) : (compareTokens ts vs).isLE := by
  -- The bound is for all three at once, since each list may be the one that ends first.
  induction n generalizing ts us vs with
  | zero =>
    rw [List.eq_nil_of_length_eq_zero (Nat.le_zero.1 hts),
      List.eq_nil_of_length_eq_zero (Nat.le_zero.1 hvs), compareTokens]
    rfl
  | succ n ih =>
    rw [compareTokens_eq_then] at htu huv ⊢
    refine isLE_then_trans (ih ?_ ?_ ?_) htu huv
    all_goals rw [List.length_tail]; omega

instance : OrientedCmp compareTokens where
  eq_swap := compareTokens_swap _ _

instance : TransCmp compareTokens where
  isLE_trans {ts us vs} := by
    apply compareTokens_isLE_trans (max ts.length (max us.length vs.length)) <;> omega

instance : OrientedCmp compare where
  eq_swap {a b} := OrientedCmp.eq_swap (a := key a) (b := key b)

instance : TransCmp compare where
  isLE_trans {a b c} := TransCmp.isLE_trans (a := key a) (b := key b) (c := key c)

/-! ## Equal versions -/

/-- A list that could not be shorter and still mean the same. -/
def Trimmed (ts : List Token) : Prop := ts.getLast? ≠ some .release

theorem trimmed_tail {t : Token} {ts : List Token} (h : Trimmed (t :: ts)) : Trimmed ts := by
  cases ts with
  | nil => simp [Trimmed]
  | cons u us => rwa [Trimmed, List.getLast?_cons_cons] at h

theorem nil_of_compareTokens_nil {us : List Token} (h : compareTokens [] us = .eq)
    (hus : Trimmed us) : us = [] := by
  induction us with
  | nil => rfl
  | cons u us ih =>
    rw [compareTokens, Ordering.then_eq_eq, Token.compare_eq_iff] at h
    obtain ⟨rfl, hrest⟩ := h
    rw [ih hrest (trimmed_tail hus)] at hus
    exact absurd rfl hus

theorem eq_of_compareTokens_eq {ts us : List Token} (h : compareTokens ts us = .eq)
    (hts : Trimmed ts) (hus : Trimmed us) : ts = us := by
  induction ts, us using compareTokens.induct with
  | case1 => rfl
  | case2 u us _ => exact (nil_of_compareTokens_nil h hus).symm
  | case3 t ts _ => exact nil_of_compareTokens_nil (OrientedCmp.eq_symm h) hts
  | case4 t ts u us ih =>
    rw [compareTokens, Ordering.then_eq_eq, Token.compare_eq_iff] at h
    obtain ⟨rfl, hrest⟩ := h
    rw [ih hrest (trimmed_tail hts) (trimmed_tail hus)]

theorem isFiller_of_getLast?_dropFillers {ts : List Token} {t : Token}
    (h : (dropFillers ts).getLast? = some t) : t.isFiller = false := by
  induction ts with
  | nil => simp [dropFillers] at h
  | cons u us ih =>
    rw [dropFillers] at h
    split at h
    · split at h
      · simp at h
      · next hu =>
        simp only [List.getLast?_singleton, Option.some.injEq] at h
        subst h
        simpa using hu
    · next v vs hrest =>
      rw [List.getLast?_cons_cons, ← hrest] at h
      exact ih h

theorem key_trimmed (version : String) : Trimmed (key version) := by
  intro h
  have := isFiller_of_getLast?_dropFillers h
  simp [Token.isFiller] at this

theorem compare_eq_eq_iff (a b : String) : compare a b = .eq ↔ key a = key b := by
  constructor
  · intro h
    exact eq_of_compareTokens_eq h (key_trimmed a) (key_trimmed b)
  · intro h
    rw [compare, h]
    exact ReflCmp.compare_self

/-! ## Version texts -/

/-- The order of version texts is a total preorder, and two texts are equal in it when they have
the same normal tokens. -/
theorem compare_total_preorder (a b c : String) :
    compare a a = .eq ∧
    compare b a = (compare a b).swap ∧
    (compare a b ≠ .gt → compare b c ≠ .gt →
      compare a c ≠ .gt ∧ (compare a b = .lt ∨ compare b c = .lt → compare a c = .lt)) ∧
    (compare a b = .eq ↔ normal (tokens a.toList) = normal (tokens b.toList)) := by
  refine ⟨ReflCmp.compare_self, OrientedCmp.eq_swap, ?_, compare_eq_eq_iff a b⟩
  intro hab hbc
  have hab : (compare a b).isLE := Ordering.isLE_iff_ne_gt.2 hab
  have hbc : (compare b c).isLE := Ordering.isLE_iff_ne_gt.2 hbc
  refine ⟨Ordering.isLE_iff_ne_gt.1 (TransCmp.isLE_trans hab hbc), ?_⟩
  rintro (hlt | hlt)
  · exact TransCmp.lt_of_lt_of_isLE hlt hbc
  · exact TransCmp.lt_of_isLE_of_lt hab hlt

end ModuleRig.Version
