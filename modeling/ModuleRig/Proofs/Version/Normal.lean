import Mathlib.Data.List.DropRight
import ModuleRig.Proofs.Version.Order

/-!
# The normal form of a version that goes on

What a version keeps at its end depends on what comes next: a qualifier takes away the zeros before
it, a number keeps them, and at the end the release markers go too. `settled` is the part that
stays in every case but the last, and in the last it loses nothing but releases.
-/

namespace ModuleRig.Version

variable {t : Token} {ts us : List Token}

/-- The normal tokens of a version before a qualifier that follows it. -/
def settled (ts : List Token) : List Token :=
  (dropInnerZeros ts).rdropWhile (· = .number 0)

/-! ## Dropping from the end -/

theorem rdropWhile_cons {α : Type} (p : α → Bool) (a : α) (l : List α) :
    (a :: l).rdropWhile p = if l.rdropWhile p = [] ∧ p a = true then [] else a :: l.rdropWhile p := by
  unfold List.rdropWhile
  rw [List.reverse_cons, List.dropWhile_append]
  by_cases h : l.reverse.dropWhile p = []
  · by_cases ha : p a = true <;> simp [h, ha]
  · simp [h]

theorem dropFillers_eq_rdropWhile (ts : List Token) :
    dropFillers ts = ts.rdropWhile Token.isFiller := by
  induction ts with
  | nil => simp [dropFillers]
  | cons t ts ih =>
    rw [rdropWhile_cons, ← ih, dropFillers]
    cases dropFillers ts with
    | nil => simp
    | cons u us => simp

theorem dropFillers_append (ht : t.isFiller = false) (ts us : List Token) :
    dropFillers (ts ++ t :: us) = ts ++ t :: dropFillers us := by
  simp only [dropFillers_eq_rdropWhile]
  induction ts with
  | nil => simp [rdropWhile_cons, ht]
  | cons u ts ih => simp [rdropWhile_cons, ih]

/-! ## Zeros before a qualifier -/

theorem dropInnerZeros_cons_of_ne (ht : t ≠ .number 0) (ts : List Token) :
    dropInnerZeros (t :: ts) = t :: dropInnerZeros ts := by
  simp [dropInnerZeros, ht]

theorem startsQualified_rdropWhile (ts : List Token) :
    startsQualified (ts.rdropWhile (· = .number 0)) = startsQualified ts := by
  match ts with
  | [] => simp
  | t :: ts =>
    rw [rdropWhile_cons]
    split
    · next h =>
      obtain rfl : t = .number 0 := by simpa using h.2
      rfl
    · rfl

theorem settled_cons_of_ne (ht : t ≠ .number 0) (ts : List Token) :
    settled (t :: ts) = t :: settled ts := by
  simp [settled, dropInnerZeros_cons_of_ne ht, rdropWhile_cons, ht]

theorem settled_cons_zero (ts : List Token) :
    settled (.number 0 :: ts) =
      if startsQualified (settled ts) = true ∨ settled ts = [] then settled ts
      else .number 0 :: settled ts := by
  unfold settled
  rw [startsQualified_rdropWhile, dropInnerZeros]
  by_cases h : startsQualified (dropInnerZeros ts) = true
  · rw [if_pos ⟨rfl, h⟩, if_pos (.inl h)]
  · rw [if_neg fun hboth => h hboth.2, rdropWhile_cons]
    by_cases hnil : (dropInnerZeros ts).rdropWhile (· = .number 0) = []
    · rw [if_pos ⟨hnil, by simp⟩, if_pos (.inr hnil), hnil]
    · rw [if_neg fun hboth => hnil hboth.1, if_neg fun hor => hor.elim h hnil]

theorem dropInnerZeros_append_qualifier (ht : t.isQualifier = true) (ts us : List Token) :
    dropInnerZeros (ts ++ t :: us) = settled ts ++ t :: dropInnerZeros us := by
  have hne : t ≠ .number 0 := by
    rintro rfl
    contradiction
  induction ts with
  | nil => exact dropInnerZeros_cons_of_ne hne us
  | cons u ts ih =>
    rw [List.cons_append]
    by_cases hu : u = .number 0
    · subst hu
      rw [dropInnerZeros, ih, settled_cons_zero]
      match settled ts with
      | [] => simp [startsQualified, ht]
      | w :: ws => simp [startsQualified]; split <;> simp
    · rw [dropInnerZeros_cons_of_ne hu, ih, settled_cons_of_ne hu, List.cons_append]

theorem startsQualified_append_number (n : Nat) (ts us : List Token) :
    startsQualified (ts ++ .number n :: us) = startsQualified ts := by
  match ts with
  | [] => rfl
  | t :: ts => rfl

theorem dropInnerZeros_append_number {n : Nat}
    (hstays : dropInnerZeros (.number n :: us) = .number n :: dropInnerZeros us) (ts : List Token) :
    dropInnerZeros (ts ++ .number n :: us) = dropInnerZeros ts ++ .number n :: dropInnerZeros us := by
  induction ts with
  | nil => exact hstays
  | cons u ts ih =>
    rw [List.cons_append, dropInnerZeros, dropInnerZeros, ih, startsQualified_append_number]
    split <;> rfl

/-! ## The settled part -/

theorem normal_cons_of_ne (ht : t ≠ .number 0) (ts : List Token) :
    normal (t :: ts) = if normal ts = [] ∧ t.isFiller = true then [] else t :: normal ts := by
  unfold normal
  rw [dropInnerZeros_cons_of_ne ht]
  simp only [dropFillers_eq_rdropWhile]
  exact rdropWhile_cons _ _ _

theorem normal_cons_zero (ts : List Token) :
    normal (.number 0 :: ts) =
      if startsQualified (settled ts) = true ∨ normal ts = [] then normal ts
      else .number 0 :: normal ts := by
  unfold normal settled
  rw [startsQualified_rdropWhile, dropInnerZeros]
  by_cases h : startsQualified (dropInnerZeros ts) = true
  · rw [if_pos ⟨rfl, h⟩, if_pos (.inl h)]
  · rw [if_neg fun hboth => h hboth.2]
    simp only [dropFillers_eq_rdropWhile]
    rw [rdropWhile_cons]
    by_cases hnil : (dropInnerZeros ts).rdropWhile Token.isFiller = []
    · rw [if_pos ⟨hnil, by decide⟩, if_pos (.inr hnil), hnil]
    · rw [if_neg fun hboth => hnil hboth.1, if_neg fun hor => hor.elim h hnil]

/-- Releases are qualifiers, so a zero before them goes in both forms or in none. -/
theorem dropsZero_iff {k : Nat} (h : settled ts = normal ts ++ List.replicate k .release) :
    startsQualified (settled ts) = true ∨ settled ts = [] ↔
      startsQualified (settled ts) = true ∨ normal ts = [] := by
  constructor
  · rintro (hqualified | hnil)
    · exact .inl hqualified
    · rw [h] at hnil
      exact .inr (List.append_eq_nil_iff.1 hnil).1
  · rintro (hqualified | hnil)
    · exact .inl hqualified
    · rw [h, hnil]
      cases k with
      | zero => exact .inr rfl
      | succ k => exact .inl rfl

theorem exists_settled_eq (ts : List Token) :
    ∃ k, settled ts = normal ts ++ List.replicate k .release := by
  induction ts with
  | nil => exact ⟨0, by simp [settled, normal, dropInnerZeros, dropFillers]⟩
  | cons t ts ih =>
    obtain ⟨k, hk⟩ := ih
    by_cases ht : t = .number 0
    · rw [ht, settled_cons_zero, normal_cons_zero]
      by_cases hdrop : startsQualified (settled ts) = true ∨ settled ts = []
      · rw [if_pos hdrop, if_pos ((dropsZero_iff hk).1 hdrop)]
        exact ⟨k, hk⟩
      · rw [if_neg hdrop, if_neg (mt (dropsZero_iff hk).2 hdrop)]
        exact ⟨k, by rw [hk, List.cons_append]⟩
    · rw [settled_cons_of_ne ht, normal_cons_of_ne ht]
      split
      · next h =>
        have hrelease : t = .release := by simpa [Token.isFiller, ht] using h.2
        refine ⟨k + 1, ?_⟩
        rw [hk, h.1, hrelease, List.replicate_succ]
        rfl
      · exact ⟨k, by rw [hk, List.cons_append]⟩

/-! ## What goes on -/

theorem normal_append_qualifier (ht : t.isQualifier = true) (hfiller : t.isFiller = false)
    (ts us : List Token) : normal (ts ++ t :: us) = settled ts ++ t :: normal us := by
  unfold normal
  rw [dropInnerZeros_append_qualifier ht, dropFillers_append hfiller]

theorem normal_append_number {n : Nat} (hn : n ≠ 0) (ts us : List Token) :
    ∃ zeros : List Token, (∀ zero ∈ zeros, zero = .number 0) ∧
      normal (ts ++ .number n :: us) = settled ts ++ (zeros ++ .number n :: normal us) := by
  have hfiller : (Token.number n).isFiller = false := by simp [Token.isFiller, hn, Token.release]
  refine ⟨((dropInnerZeros ts).reverse.takeWhile (· = .number 0)).reverse, ?_, ?_⟩
  · intro zero hzero
    simpa using List.mem_takeWhile_imp (List.mem_reverse.1 hzero)
  · have hsplit := congrArg List.reverse
      (List.takeWhile_append_dropWhile (p := (· = .number 0)) (l := (dropInnerZeros ts).reverse))
    rw [List.reverse_append, List.reverse_reverse] at hsplit
    unfold normal
    rw [dropInnerZeros_append_number (dropInnerZeros_cons_of_ne (by simpa using hn) us),
      dropFillers_append hfiller, ← List.append_assoc]
    exact congrArg (· ++ _) hsplit.symm

/-! ## What adds nothing -/

theorem dropInnerZeros_append_congr {us' : List Token} (h : dropInnerZeros us = dropInnerZeros us')
    (ts : List Token) : dropInnerZeros (ts ++ us) = dropInnerZeros (ts ++ us') := by
  induction ts with
  | nil => exact h
  | cons t ts ih =>
    rw [List.cons_append, List.cons_append, dropInnerZeros, dropInnerZeros, ih]

theorem startsQualified_dropInnerZeros (h : startsQualified ts = true) :
    startsQualified (dropInnerZeros ts) = true := by
  match ts with
  | [] => contradiction
  | .number n :: _ => contradiction
  | .qualifier stage text :: ts =>
    rw [dropInnerZeros_cons_of_ne Token.noConfusion]
    rfl

theorem normal_append_zero (h : startsQualified us = true) (ts : List Token) :
    normal (ts ++ .number 0 :: us) = normal (ts ++ us) := by
  unfold normal
  rw [dropInnerZeros_append_congr]
  rw [dropInnerZeros, if_pos ⟨rfl, startsQualified_dropInnerZeros h⟩]

theorem dropFillers_settled (ts : List Token) : dropFillers (settled ts) = normal ts := by
  unfold normal settled
  generalize dropInnerZeros ts = ts
  rw [dropFillers_eq_rdropWhile, dropFillers_eq_rdropWhile]
  induction ts with
  | nil => simp
  | cons t ts ih =>
    rw [rdropWhile_cons, rdropWhile_cons, ← ih]
    split
    · next h =>
      have hfiller : t.isFiller = true := by simp_all [Token.isFiller]
      simp [h.1, hfiller]
    · exact rdropWhile_cons _ _ _

theorem normal_concat_filler (ht : t.isFiller = true) (ts : List Token) :
    normal (ts ++ [t]) = normal ts := by
  have hfiller : t = .number 0 ∨ t = .release := by simpa [Token.isFiller] using ht
  rcases hfiller with rfl | rfl
  · unfold normal
    rw [dropInnerZeros_append_number rfl]
    simp only [dropFillers_eq_rdropWhile]
    exact List.rdropWhile_concat_pos _ _ _ ht
  · rw [← dropFillers_settled ts]
    unfold normal
    rw [dropInnerZeros_append_qualifier rfl]
    simp only [dropFillers_eq_rdropWhile]
    exact List.rdropWhile_concat_pos _ _ _ ht

/-! ## Comparing what goes on -/

theorem compareTokens_append (ts us vs : List Token) :
    compareTokens (ts ++ us) (ts ++ vs) = compareTokens us vs := by
  induction ts with
  | nil => rfl
  | cons t ts ih =>
    have hself : t.compare t = .eq := (Token.compare_eq_iff t t).2 rfl
    rw [List.cons_append, List.cons_append, compareTokens, hself, ih]
    rfl

theorem compareTokens_releases (k : Nat) (us : List Token) :
    compareTokens (List.replicate k .release ++ us) [] = compareTokens us [] := by
  induction k with
  | zero => rfl
  | succ k ih =>
    rw [List.replicate_succ, List.cons_append, compareTokens, ih]
    rfl

/-- What follows the settled part decides how the version compares with the one that ends there. -/
theorem compareTokens_settled (ts us : List Token) :
    compareTokens (settled ts ++ us) (normal ts) = compareTokens us [] := by
  obtain ⟨k, hk⟩ := exists_settled_eq ts
  have happend := compareTokens_append (normal ts) (List.replicate k .release ++ us) []
  rw [List.append_nil] at happend
  rw [hk, List.append_assoc, happend, compareTokens_releases]

end ModuleRig.Version
