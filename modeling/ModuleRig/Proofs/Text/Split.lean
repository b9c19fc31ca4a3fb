import ModuleRig.Text.Cut

/-!
# Pieces between separators

`splitOn` and `joinWith` undo each other on pieces without a separator in them, and a separator
between two texts splits them apart.
-/

namespace ModuleRig.Text

variable {separator : Char}

theorem splitOn_of_not_mem {text : List Char} (h : separator ∉ text) :
    splitOn separator text = [text] := by
  induction text with
  | nil => rfl
  | cons c text ih =>
    rw [List.mem_cons, not_or] at h
    rw [splitOn, if_neg (Ne.symm h.1), ih h.2]

theorem not_mem_of_mem_splitOn {text piece : List Char} (h : piece ∈ splitOn separator text) :
    separator ∉ piece := by
  induction text generalizing piece with
  | nil =>
    rw [splitOn, List.mem_singleton] at h
    subst h
    exact List.not_mem_nil
  | cons c text ih =>
    rw [splitOn] at h
    split at h
    · rcases List.mem_cons.1 h with rfl | h
      · exact List.not_mem_nil
      · exact ih h
    · next hne =>
      split at h
      · next hnil => exact absurd hnil (splitOn_ne_nil separator text)
      · next first pieces hcons =>
        rcases List.mem_cons.1 h with rfl | h
        · rw [List.mem_cons, not_or]
          exact ⟨Ne.symm hne, ih (hcons ▸ List.mem_cons_self)⟩
        · exact ih (hcons ▸ List.mem_cons_of_mem first h)

theorem mem_of_mem_splitOn {text piece : List Char} {c : Char} (h : piece ∈ splitOn separator text)
    (hc : c ∈ piece) : c ∈ text := by
  rw [← joinWith_splitOn separator text]
  generalize splitOn separator text = pieces at h
  induction pieces with
  | nil => cases h
  | cons first pieces ih =>
    cases pieces with
    | nil =>
      rw [List.mem_singleton] at h
      exact h ▸ hc
    | cons next pieces =>
      rw [joinWith, List.mem_append, List.mem_cons]
      rcases List.mem_cons.1 h with rfl | h
      · exact .inl hc
      · exact .inr (.inr (ih h))
      · exact List.cons_ne_nil _ _

theorem splitOn_append (before rest : List Char) :
    splitOn separator (before ++ separator :: rest) =
      splitOn separator before ++ splitOn separator rest := by
  induction before with
  | nil => simp only [List.nil_append, splitOn, if_pos, List.singleton_append]
  | cons c before ih =>
    rw [List.cons_append, splitOn, splitOn, ih]
    split
    · rw [List.cons_append]
    · split
      · next hnil =>
        rw [List.append_eq_nil_iff] at hnil
        exact absurd hnil.1 (splitOn_ne_nil separator before)
      · next first pieces hcons =>
        cases hbefore : splitOn separator before with
        | nil => exact absurd hbefore (splitOn_ne_nil separator before)
        | cons p ps =>
          rw [hbefore, List.cons_append, List.cons.injEq] at hcons
          rw [List.cons_append, hcons.1, hcons.2]

theorem splitOn_append_of_not_mem {front : List Char} (h : separator ∉ front) (rest : List Char) :
    ∃ piece pieces, splitOn separator rest = piece :: pieces ∧
      splitOn separator (front ++ rest) = (front ++ piece) :: pieces := by
  obtain ⟨piece, pieces, hrest⟩ := List.exists_cons_of_ne_nil (splitOn_ne_nil separator rest)
  refine ⟨piece, pieces, hrest, ?_⟩
  induction front with
  | nil => exact hrest
  | cons c front ih =>
    rw [List.mem_cons, not_or] at h
    rw [List.cons_append, splitOn, if_neg (Ne.symm h.1), ih h.2]
    rfl

theorem splitOn_append_tail (text : List Char) {tail : List Char} (h : separator ∉ tail) :
    ∃ pieces piece, splitOn separator text = pieces ++ [piece] ∧
      splitOn separator (text ++ tail) = pieces ++ [piece ++ tail] := by
  induction text with
  | nil => exact ⟨[], [], rfl, splitOn_of_not_mem h⟩
  | cons c text ih =>
    obtain ⟨pieces, piece, htext, happend⟩ := ih
    rw [List.cons_append, splitOn, splitOn, htext, happend]
    by_cases hc : c = separator
    · exact ⟨[] :: pieces, piece, by rw [if_pos hc]; rfl, by rw [if_pos hc]; rfl⟩
    · rw [if_neg hc, if_neg hc]
      cases pieces with
      | nil => exact ⟨[], c :: piece, rfl, rfl⟩
      | cons first pieces => exact ⟨(c :: first) :: pieces, piece, rfl, rfl⟩

theorem splitOn_map_replace {old new : Char} {text : List Char} (h : new ∉ text) :
    splitOn new (text.map fun c => if c = old then new else c) = splitOn old text := by
  induction text with
  | nil => rfl
  | cons c text ih =>
    rw [List.mem_cons, not_or] at h
    rw [List.map_cons, splitOn, splitOn, ih h.2]
    by_cases hc : c = old
    · rw [if_pos hc, if_pos rfl, if_pos hc]
    · rw [if_neg hc, if_neg (Ne.symm h.1), if_neg hc]

theorem joinWith_cons_cons (piece next : List Char) (pieces : List (List Char)) :
    joinWith separator (piece :: next :: pieces) =
      piece ++ separator :: joinWith separator (next :: pieces) :=
  rfl

theorem mem_joinWith {pieces : List (List Char)} {c : Char} (h : c ∈ joinWith separator pieces) :
    c = separator ∨ ∃ piece ∈ pieces, c ∈ piece := by
  induction pieces with
  | nil => cases h
  | cons piece pieces ih =>
    cases pieces with
    | nil => exact .inr ⟨piece, List.mem_cons_self, h⟩
    | cons next pieces =>
      rw [joinWith_cons_cons, List.mem_append, List.mem_cons] at h
      rcases h with h | rfl | h
      · exact .inr ⟨piece, List.mem_cons_self, h⟩
      · exact .inl rfl
      · refine (ih h).imp_right ?_
        rintro ⟨later, hlater, hc⟩
        exact ⟨later, List.mem_cons_of_mem piece hlater, hc⟩

theorem splitOn_joinWith {pieces : List (List Char)} (hne : pieces ≠ [])
    (h : ∀ piece ∈ pieces, separator ∉ piece) :
    splitOn separator (joinWith separator pieces) = pieces := by
  induction pieces with
  | nil => exact absurd rfl hne
  | cons piece pieces ih =>
    have hpiece := splitOn_of_not_mem (h piece List.mem_cons_self)
    cases pieces with
    | nil => exact hpiece
    | cons next pieces =>
      rw [joinWith_cons_cons, splitOn_append, hpiece,
        ih (List.cons_ne_nil _ _) fun p hp => h p (List.mem_cons_of_mem _ hp)]
      rfl

theorem eq_of_splitText_eq {s s' : String} (h : splitText separator s = splitText separator s') :
    s = s' := by
  have htexts := congrArg (List.map String.toList) h
  simp only [splitText, List.map_map, Function.comp_def, String.toList_ofList, List.map_id']
    at htexts
  have hjoined := congrArg (joinWith separator) htexts
  rwa [joinWith_splitOn, joinWith_splitOn, String.toList_inj] at hjoined

end ModuleRig.Text
