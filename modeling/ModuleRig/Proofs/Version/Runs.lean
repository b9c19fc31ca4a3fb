import ModuleRig.Version.Order

/-!
# The tokens of a text that goes on

A separator parts the tokens before it from those behind it, and a run ends where a character of
another kind comes. So a version that goes on has its own tokens first.
-/

namespace ModuleRig.Version

variable {kind : CharKind} {word rest : List Char}

theorem charKind_of_isDigit {c : Char} (h : c.isDigit) : charKind c = .digit := by
  have hne : ¬(c = '.' ∨ c = '-' ∨ c = '_') := by
    rintro (rfl | rfl | rfl) <;> contradiction
  rw [charKind, if_neg hne, if_pos h]

theorem isDigit_of_charKind {c : Char} (h : charKind c = .digit) : c.isDigit = true := by
  unfold charKind at h
  split at h
  · contradiction
  · split at h
    · assumption
    · contradiction

/-- No run of the kind goes on with the text. -/
def StopsRun (kind : CharKind) (text : List Char) : Prop :=
  ∀ c ∈ text.head?, charKind c ≠ kind

theorem stopsRun_cons {c : Char} {text : List Char} :
    StopsRun kind (c :: text) ↔ charKind c ≠ kind := by
  simp [StopsRun]

instance (kind : CharKind) : (text : List Char) → Decidable (StopsRun kind text)
  | [] => .isTrue fun _ h => nomatch h
  | c :: _ => decidable_of_iff (charKind c ≠ kind) stopsRun_cons.symm

theorem addChar_of_head {c : Char} {run : Run} (h : run.kind = charKind c) (rs : List Run) :
    addChar c (run :: rs) = ⟨run.kind, c :: run.text⟩ :: rs := by
  rw [addChar, if_pos h]

theorem addChar_of_ne {c : Char} {run : Run} (h : run.kind ≠ charKind c) (rs : List Run) :
    addChar c (run :: rs) = ⟨charKind c, [c]⟩ :: run :: rs := by
  rw [addChar, if_neg h]

theorem exists_runs_cons (c : Char) (text : List Char) :
    ∃ more rs, runs (c :: text) = ⟨charKind c, more⟩ :: rs := by
  change ∃ more rs, addChar c (runs text) = _
  match runs text with
  | [] => exact ⟨[c], [], rfl⟩
  | run :: rs =>
    by_cases h : run.kind = charKind c
    · exact ⟨c :: run.text, rs, by rw [addChar_of_head h, h]⟩
    · exact ⟨[c], run :: rs, addChar_of_ne h rs⟩

theorem addChar_of_stopsRun {c : Char} {text : List Char} (h : StopsRun (charKind c) text) :
    addChar c (runs text) = ⟨charKind c, [c]⟩ :: runs text := by
  match text with
  | [] => rfl
  | d :: text =>
    obtain ⟨more, rs, hruns⟩ := exists_runs_cons d text
    rw [hruns]
    exact addChar_of_ne (stopsRun_cons.1 h) rs

theorem addChar_append {rs : List Run} (h : rs ≠ []) (c : Char) (more : List Run) :
    addChar c (rs ++ more) = addChar c rs ++ more := by
  match rs with
  | [] => contradiction
  | run :: rs =>
    unfold addChar
    rw [List.cons_append]
    dsimp only
    split <;> rfl

/-- No run goes on from the first text into the second. -/
def Apart (a b : List Char) : Prop :=
  ∀ c ∈ a.getLast?, StopsRun (charKind c) b

instance (a b : List Char) : Decidable (Apart a b) :=
  Option.decidableForallMem a.getLast?

theorem runs_append_of_apart {a b : List Char} (h : Apart a b) :
    runs (a ++ b) = runs a ++ runs b := by
  induction a with
  | nil => rfl
  | cons c a ih =>
    change addChar c (runs (a ++ b)) = addChar c (runs a) ++ runs b
    match a with
    | [] => exact addChar_of_stopsRun (h c rfl)
    | d :: a =>
      have hrest : Apart (d :: a) b := by
        unfold Apart at h ⊢
        rwa [List.getLast?_cons_cons] at h
      obtain ⟨more, rs, hruns⟩ := exists_runs_cons d a
      rw [ih hrest, hruns]
      exact addChar_append (List.cons_ne_nil _ _) c _

theorem runs_word (hne : word ≠ []) (hword : ∀ c ∈ word, charKind c = kind) :
    runs word = [⟨kind, word⟩] := by
  induction word with
  | nil => contradiction
  | cons c word ih =>
    obtain rfl : charKind c = kind := hword c List.mem_cons_self
    change addChar c (runs word) = _
    match word with
    | [] => rfl
    | d :: word =>
      rw [ih (List.cons_ne_nil d word) fun e he => hword e (List.mem_cons_of_mem c he)]
      exact addChar_of_head rfl _

theorem runs_append (hne : word ≠ []) (hword : ∀ c ∈ word, charKind c = kind)
    (hstop : StopsRun kind rest) : runs (word ++ rest) = ⟨kind, word⟩ :: runs rest := by
  have hapart : Apart word rest := by
    intro c hc
    rwa [hword c (List.mem_of_getLast? hc)]
  rw [runs_append_of_apart hapart, runs_word hne hword]
  rfl

/-! ## Separators -/

/-- The runs that have a token. -/
def spoken (rs : List Run) : List Run :=
  rs.filter (·.kind ≠ .separator)

theorem spoken_cons {run : Run} (h : run.kind ≠ .separator) (rs : List Run) :
    spoken (run :: rs) = run :: spoken rs := by
  simp [spoken, h]

theorem spoken_addChar_separator {s : Char} (hs : charKind s = .separator) (rs : List Run) :
    spoken (addChar s rs) = spoken rs := by
  match rs with
  | [] => simp [addChar, spoken, hs]
  | run :: rs =>
    rw [addChar, hs]
    split
    · next h => simp [spoken, h]
    · simp [spoken]

theorem spoken_addChar_append {c : Char} {run run' : Run} {rs rs' more : List Run}
    (hc : charKind c ≠ .separator) (hkind : run'.kind = run.kind)
    (h : spoken (run' :: rs') = spoken (run :: rs) ++ more) :
    spoken (addChar c (run' :: rs')) = spoken (addChar c (run :: rs)) ++ more := by
  have hnew : ∀ rest, spoken (⟨charKind c, [c]⟩ :: rest) = ⟨charKind c, [c]⟩ :: spoken rest :=
    spoken_cons hc
  by_cases hrun : run.kind = charKind c
  · have hne : run.kind ≠ .separator := fun hs => hc (hrun ▸ hs)
    rw [spoken_cons (hkind ▸ hne), spoken_cons hne, List.cons_append, List.cons.injEq] at h
    obtain ⟨rfl, hrest⟩ := h
    have hlonger : ∀ rest, spoken (⟨run'.kind, c :: run'.text⟩ :: rest) =
        ⟨run'.kind, c :: run'.text⟩ :: spoken rest := spoken_cons hne
    rw [addChar_of_head hrun, addChar_of_head hrun, hlonger, hlonger, hrest, List.cons_append]
  · have hrun' : run'.kind ≠ charKind c := by rwa [hkind]
    rw [addChar_of_ne hrun', addChar_of_ne hrun, hnew, hnew, h, List.cons_append]

theorem spoken_runs_append {s : Char} (hs : charKind s = .separator) (a b : List Char) :
    spoken (runs (a ++ s :: b)) = spoken (runs a) ++ spoken (runs b) := by
  induction a with
  | nil => exact spoken_addChar_separator hs (runs b)
  | cons c a ih =>
    change spoken (addChar c (runs (a ++ s :: b))) = spoken (addChar c (runs a)) ++ _
    by_cases hc : charKind c = .separator
    · rw [spoken_addChar_separator hc, spoken_addChar_separator hc, ih]
    match a with
    | [] =>
      have hstop : StopsRun (charKind c) (s :: b) := stopsRun_cons.2 fun h => hc (h ▸ hs)
      have halone : addChar c (runs []) = [⟨charKind c, [c]⟩] := rfl
      rw [List.nil_append, addChar_of_stopsRun hstop, spoken_cons hc, halone, spoken_cons hc,
        ← List.nil_append (s :: b), ih, List.cons_append]
      rfl
    | d :: a =>
      -- Both texts go on with d, so c meets a run of one kind in both.
      obtain ⟨more, rs, hruns⟩ := exists_runs_cons d (a ++ s :: b)
      obtain ⟨more', rs', hruns'⟩ := exists_runs_cons d a
      rw [List.cons_append, hruns, hruns'] at ih ⊢
      exact spoken_addChar_append hc rfl ih

theorem tokens_eq_filterMap_spoken (text : List Char) :
    tokens text = (spoken (runs text)).filterMap Token.ofRun? := by
  rw [spoken, List.filterMap_filter, tokens]
  congr 1
  funext run
  cases hkind : run.kind <;> simp [Token.ofRun?, hkind]

theorem tokens_append_separator {s : Char} (hs : charKind s = .separator) (a b : List Char) :
    tokens (a ++ s :: b) = tokens a ++ tokens b := by
  simp only [tokens_eq_filterMap_spoken, spoken_runs_append hs, List.filterMap_append]

theorem tokens_append {a b : List Char} (h : Apart a b) :
    tokens (a ++ b) = tokens a ++ tokens b := by
  unfold tokens
  rw [runs_append_of_apart h, List.filterMap_append]

/-! ## Words and numbers -/

theorem tokens_word_append (hne : word ≠ []) (hword : ∀ c ∈ word, charKind c = .letter)
    (hstop : StopsRun .letter rest) : tokens (word ++ rest) = .ofWord word :: tokens rest := by
  unfold tokens
  rw [runs_append hne hword hstop]
  rfl

theorem tokens_digits_append {digits : List Char} (hne : digits ≠ [])
    (hdigits : ∀ c ∈ digits, charKind c = .digit) (hstop : StopsRun .digit rest) :
    tokens (digits ++ rest) = .ofDigits digits :: tokens rest := by
  unfold tokens
  rw [runs_append hne hdigits hstop]
  rfl

end ModuleRig.Version
