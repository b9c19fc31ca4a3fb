import Mathlib
import ModuleRig.Proofs.Text.Front
import ModuleRig.Proofs.Version.Normal
import ModuleRig.Proofs.Version.Runs

/-!
# Other spellings of a version

A version can be spelled with other separators and with more of them, in another case, with zeros in
front of its numbers, with zeros before a qualifier and with release markers at its end.
`Respells` lists these changes. Most leave the tokens as they are, and all leave the key, so after
any number of them a version compares as before: `compare_respelled`.
-/

namespace ModuleRig.Version

/-- One change to the spelling of a version. -/
inductive Respells : List Char → List Char → Prop where
  | replace (a b : List Char) {s s' : Char} (hs : charKind s = .separator)
    (hs' : charKind s' = .separator) : Respells (a ++ s :: b) (a ++ s' :: b)
  | double (a b : List Char) {s : Char} (hs : charKind s = .separator) :
    Respells (a ++ s :: b) (a ++ s :: s :: b)
  | addFirst (a : List Char) {s : Char} (hs : charKind s = .separator) : Respells a (s :: a)
  | addLast (a : List Char) {s : Char} (hs : charKind s = .separator) : Respells a (a ++ [s])
  | part (a b : List Char) {c d s : Char} (hs : charKind s = .separator)
    (hmeet : charKind c = .digit ∧ charKind d = .letter ∨
      charKind c = .letter ∧ charKind d = .digit) :
    Respells (a ++ c :: d :: b) (a ++ c :: s :: d :: b)
  /-- Only the ASCII letters have two cases here. -/
  | changeCase (a b : List Char) {c c' : Char} (hcase : c.toLower = c'.toLower) :
    Respells (a ++ c :: b) (a ++ c' :: b)
  | leadingZero (a b : List Char) {d : Char} (hd : charKind d = .digit)
    (hfirst : Apart a (d :: b)) : Respells (a ++ d :: b) (a ++ '0' :: d :: b)
  | endMarker (a : List Char) {s : Char} {marker : String} (hs : charKind s = .separator)
    (hmarker : marker ∈ ["0", "ga", "final", "release"]) : Respells a (a ++ s :: marker.toList)
  /-- There may be more separators on the way to the qualifier. -/
  | innerZero (a between b : List Char) {s s' c : Char} (hs : charKind s = .separator)
    (hs' : charKind s' = .separator) (hbetween : ∀ t ∈ between, charKind t = .separator)
    (hc : charKind c = .letter) :
    Respells (a ++ s :: (between ++ c :: b)) (a ++ s' :: '0' :: s :: (between ++ c :: b))

variable {a b : List Char}

/-! ## Separators -/

theorem tokens_cons_separator {s : Char} (hs : charKind s = .separator) (b : List Char) :
    tokens (s :: b) = tokens b :=
  tokens_append_separator hs [] b

theorem tokens_separators_append {between : List Char}
    (h : ∀ t ∈ between, charKind t = .separator) (b : List Char) :
    tokens (between ++ b) = tokens b := by
  induction between with
  | nil => rfl
  | cons s between ih =>
    rw [List.cons_append, tokens_cons_separator (h s List.mem_cons_self)]
    exact ih fun t ht => h t (List.mem_cons_of_mem s ht)

theorem apart_concat {c d : Char} (h : charKind d ≠ charKind c) (a b : List Char) :
    Apart (a ++ [c]) (d :: b) := by
  simp only [Apart, List.getLast?_concat, Option.mem_some_iff, forall_eq']
  exact stopsRun_cons.2 h

theorem tokens_part {c d s : Char} (hs : charKind s = .separator) (h : charKind d ≠ charKind c)
    (a b : List Char) : tokens (a ++ c :: s :: d :: b) = tokens (a ++ c :: d :: b) := by
  have hparted := tokens_append_separator hs (a ++ [c]) (d :: b)
  have happend := tokens_append (apart_concat h a b)
  simp only [List.append_assoc, List.singleton_append] at hparted happend
  rw [hparted, happend]

/-! ## Case -/

def Run.lower (run : Run) : Run :=
  ⟨run.kind, run.text.map Char.toLower⟩

theorem charKind_of_isAlpha {c : Char} (h : c.isAlpha = true) : charKind c = .letter := by
  have hne : ¬(c = '.' ∨ c = '-' ∨ c = '_') := by
    rintro (rfl | rfl | rfl) <;> contradiction
  have hdigit : c.isDigit = false := by
    simp only [Char.isAlpha, Char.isUpper, Char.isLower, Char.isDigit] at h ⊢
    grind
  simp [charKind, hne, hdigit]

theorem toLower_of_not_isAlpha {c : Char} (h : c.isAlpha = false) : c.toLower = c := by
  apply Char.toLower_eq_of_not_isUpper
  simp_all [Char.isAlpha]

theorem charKind_toLower (c : Char) : charKind c.toLower = charKind c := by
  by_cases h : c.isAlpha = true
  · rw [charKind_of_isAlpha h, charKind_of_isAlpha (by rwa [Char.isAlpha_toLower_eq_isAlpha])]
  · rw [toLower_of_not_isAlpha (by simpa using h)]

theorem runs_map_toLower (a : List Char) : runs (a.map Char.toLower) = (runs a).map Run.lower := by
  induction a with
  | nil => rfl
  | cons c a ih =>
    change addChar c.toLower (runs (a.map Char.toLower)) = (addChar c (runs a)).map Run.lower
    rw [ih]
    match runs a with
    | [] => simp [addChar, Run.lower, charKind_toLower]
    | run :: rs =>
      rw [List.map_cons, addChar, addChar, charKind_toLower]
      by_cases h : run.kind = charKind c <;> simp [Run.lower, h]

theorem charKind_of_mem_runs {run : Run} (hrun : run ∈ runs a) :
    ∀ c ∈ run.text, charKind c = run.kind := by
  induction a generalizing run with
  | nil => cases hrun
  | cons c a ih =>
    change run ∈ addChar c (runs a) at hrun
    generalize runs a = rs at ih hrun
    match rs with
    | [] => simp_all [addChar]
    | first :: rs =>
      rw [addChar] at hrun
      split at hrun
      · next hkind =>
        rcases List.mem_cons.1 hrun with rfl | hrun
        · have hfirst := ih (List.mem_cons_self (a := first) (l := rs))
          simpa [hkind] using hkind ▸ hfirst
        · exact ih (List.mem_cons_of_mem first hrun)
      · rcases List.mem_cons.1 hrun with rfl | hrun
        · simp
        · exact ih hrun

theorem ofWord_map_toLower (word : List Char) :
    Token.ofWord (word.map Char.toLower) = Token.ofWord word := by
  simp [Token.ofWord, Function.comp_def]

theorem map_toLower_of_digits {digits : List Char} (h : ∀ c ∈ digits, charKind c = .digit) :
    digits.map Char.toLower = digits := by
  rw [List.map_congr_left, List.map_id]
  intro c hc
  apply toLower_of_not_isAlpha
  rw [Bool.eq_false_iff]
  intro halpha
  have hkind := h c hc
  rw [charKind_of_isAlpha halpha] at hkind
  contradiction

theorem ofRun?_lower {run : Run} (h : ∀ c ∈ run.text, charKind c = run.kind) :
    Token.ofRun? run.lower = Token.ofRun? run := by
  obtain ⟨kind, text⟩ := run
  cases kind with
  | separator => rfl
  | digit =>
    unfold Run.lower
    rw [map_toLower_of_digits h]
  | letter => exact congrArg some (ofWord_map_toLower text)

theorem tokens_map_toLower (a : List Char) : tokens (a.map Char.toLower) = tokens a := by
  unfold tokens
  rw [runs_map_toLower, List.filterMap_map]
  apply List.filterMap_congr
  intro run hrun
  exact ofRun?_lower (charKind_of_mem_runs hrun)

theorem tokens_changeCase {c c' : Char} (h : c.toLower = c'.toLower) (a b : List Char) :
    tokens (a ++ c' :: b) = tokens (a ++ c :: b) := by
  rw [← tokens_map_toLower, ← tokens_map_toLower (a ++ c :: b)]
  simp [h]

/-! ## Zeros and release markers -/

theorem exists_digits (text : List Char) :
    ∃ digits rest, text = digits ++ rest ∧ (∀ c ∈ digits, charKind c = .digit) ∧
      StopsRun .digit rest := by
  obtain ⟨digits, htext, hdigits⟩ := Text.exists_run Char.isDigit text
  refine ⟨digits, _, htext, fun c hc => charKind_of_isDigit (hdigits c hc), ?_⟩
  intro c hc hkind
  have hnot : c.isDigit = false := Text.stopsAt_dropWhile c hc
  rw [isDigit_of_charKind hkind] at hnot
  contradiction

theorem tokens_zero_digits {d : Char} (hd : charKind d = .digit) (b : List Char) :
    tokens ('0' :: d :: b) = tokens (d :: b) := by
  obtain ⟨more, rest, rfl, hmore, hstop⟩ := exists_digits b
  have hdigits : ∀ c ∈ d :: more, charKind c = .digit := List.forall_mem_cons.2 ⟨hd, hmore⟩
  have hlonger : ∀ c ∈ '0' :: d :: more, charKind c = .digit :=
    List.forall_mem_cons.2 ⟨by decide, hdigits⟩
  have hvalue : Token.ofDigits ('0' :: d :: more) = .ofDigits (d :: more) := rfl
  have hone := tokens_digits_append (List.cons_ne_nil d more) hdigits hstop
  have htwo := tokens_digits_append (List.cons_ne_nil '0' (d :: more)) hlonger hstop
  rw [hvalue, ← hone] at htwo
  exact htwo

theorem tokens_leadingZero {d : Char} (hd : charKind d = .digit) (hfirst : Apart a (d :: b)) :
    tokens (a ++ '0' :: d :: b) = tokens (a ++ d :: b) := by
  have hzero : Apart a ('0' :: d :: b) := by
    intro c hc
    have hstops := hfirst c hc
    rw [stopsRun_cons, hd] at hstops
    exact stopsRun_cons.2 hstops
  rw [tokens_append hzero, tokens_append hfirst, tokens_zero_digits hd]

theorem isQualifier_ofWord (word : List Char) : (Token.ofWord word).isQualifier = true := by
  unfold Token.ofWord
  dsimp only
  split <;> rfl

theorem startsQualified_tokens {c : Char} (hc : charKind c = .letter) (b : List Char) :
    startsQualified (tokens (c :: b)) = true := by
  obtain ⟨more, rs, hruns⟩ := exists_runs_cons c b
  unfold tokens
  rw [hruns, hc]
  exact isQualifier_ofWord more

theorem exists_filler {marker : String} (h : marker ∈ ["0", "ga", "final", "release"]) :
    ∃ t : Token, t.isFiller = true ∧ tokens marker.toList = [t] := by
  simp only [List.mem_cons, List.not_mem_nil, or_false] at h
  rcases h with rfl | rfl | rfl | rfl
  · exact ⟨.number 0, rfl, by decide⟩
  all_goals exact ⟨.release, rfl, by decide⟩

/-! ## The key -/

theorem normal_tokens_of_respells (h : Respells a b) : normal (tokens b) = normal (tokens a) := by
  cases h with
  | replace a b hs hs' => rw [tokens_append_separator hs', tokens_append_separator hs]
  | double a b hs =>
    rw [tokens_append_separator hs, tokens_append_separator hs, tokens_cons_separator hs]
  | addFirst a hs => rw [tokens_cons_separator hs]
  | addLast a hs =>
    rw [tokens_append_separator hs]
    exact congrArg normal (List.append_nil _)
  | part a b hs hmeet =>
    rw [tokens_part hs]
    rcases hmeet with ⟨hc, hd⟩ | ⟨hc, hd⟩ <;> simp [hc, hd]
  | changeCase a b hcase => rw [tokens_changeCase hcase]
  | leadingZero a b hd hfirst => rw [tokens_leadingZero hd hfirst]
  | endMarker a hs hmarker =>
    obtain ⟨t, hfiller, ht⟩ := exists_filler hmarker
    rw [tokens_append_separator hs, ht, normal_concat_filler hfiller]
  | @innerZero a between b s s' c hs hs' hbetween hc =>
    have hzero : tokens ['0'] = [.number 0] := by decide
    have hinner := tokens_append_separator hs ['0'] (between ++ c :: b)
    rw [tokens_separators_append hbetween, hzero, List.singleton_append, List.singleton_append]
      at hinner
    rw [tokens_append_separator hs', tokens_append_separator hs, hinner,
      tokens_separators_append hbetween]
    exact normal_append_zero (startsQualified_tokens hc b) _

theorem key_of_respelled {version version' : String}
    (h : Relation.ReflTransGen Respells version.toList version'.toList) :
    key version' = key version := by
  unfold key
  generalize version.toList = text, version'.toList = text' at h ⊢
  induction h with
  | refl => rfl
  | tail _ hlast ih => rw [normal_tokens_of_respells hlast, ih]

/-- However a version is respelled, it compares with every other as before. -/
theorem compare_respelled {version version' : String}
    (h : Relation.ReflTransGen Respells version.toList version'.toList) (other : String) :
    compare version' other = compare version other := by
  unfold compare
  rw [key_of_respelled h]

theorem compare_respelled_of_candidate :
    Relation.ReflTransGen Respells "1.0rc2".toList ".01--0.0-Rc2_.final".toList ∧
      compare ".01--0.0-Rc2_.final" "1.0" = compare "1.0rc2" "1.0" := by
  have hzero : Respells "1.0rc2".toList "01.0rc2".toList :=
    .leadingZero [] ".0rc2".toList (by decide) (by decide)
  have hreplace : Respells "01.0rc2".toList "01-0rc2".toList :=
    .replace "01".toList "0rc2".toList (by decide) (by decide)
  have hdouble : Respells "01-0rc2".toList "01--0rc2".toList :=
    .double "01".toList "0rc2".toList (by decide)
  have hfirst : Respells "01--0rc2".toList ".01--0rc2".toList := .addFirst _ (by decide)
  have hlast : Respells ".01--0rc2".toList ".01--0rc2_".toList :=
    .addLast ".01--0rc2".toList (by decide)
  have hpart : Respells ".01--0rc2_".toList ".01--0-rc2_".toList :=
    .part ".01--".toList "c2_".toList (by decide) (by decide)
  have hcase : Respells ".01--0-rc2_".toList ".01--0-Rc2_".toList :=
    .changeCase ".01--0-".toList "c2_".toList (by decide)
  have hmarker : Respells ".01--0-Rc2_".toList (".01--0-Rc2_".toList ++ '.' :: "final".toList) :=
    .endMarker _ (by decide) (by decide)
  have hinner : Respells ".01--0-Rc2_.final".toList ".01--0.0-Rc2_.final".toList :=
    .innerZero ".01--0".toList [] "c2_.final".toList (by decide) (by decide)
      (List.forall_mem_nil _) (by decide)
  have hall : Relation.ReflTransGen Respells "1.0rc2".toList ".01--0.0-Rc2_.final".toList :=
    .head hzero <| .head hreplace <| .head hdouble <| .head hfirst <| .head hlast <|
      .head hpart <| .head hcase <| .head hmarker <| .single hinner
  exact ⟨hall, compare_respelled hall "1.0"⟩

end ModuleRig.Version
