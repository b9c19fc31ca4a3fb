import ModuleRig.Proofs.Version.Normal
import ModuleRig.Proofs.Version.Runs

/-!
# A version that goes on with a word

Behind a dash a version can go on with a word or a number. The key then starts with the settled part
of the version, whatever that is, and has the token of the word or the number next.
-/

namespace ModuleRig.Version

variable {word number : String}

/-! ## Words -/

/-- The word with its ASCII letters in lower case. -/
def lowerCase (word : String) : String :=
  String.ofList (word.toList.map Char.toLower)

/-- The stage a word stands for, in any case. -/
def stageOf (word : String) : Stage :=
  Stage.ofWord (lowerCase word).toList

def preReleaseWords : List String :=
  ["alpha", "a", "beta", "b", "milestone", "m", "rc", "cr", "snapshot"]

def releaseMarkers : List String :=
  ["", "ga", "final", "release"]

theorem stageOf_eq_release_iff (word : String) :
    stageOf word = .release ↔ lowerCase word ∈ releaseMarkers := by
  simp only [stageOf, releaseMarkers, List.mem_cons, List.not_mem_nil, ← String.toList_inj,
    or_false]
  generalize (lowerCase word).toList = lower
  fun_cases Stage.ofWord lower with
  | case1 h | case2 _ h | case3 _ _ h | case4 _ _ _ h => rcases h with rfl | rfl <;> decide
  | case5 _ _ _ _ h | case7 _ _ _ _ _ _ h => subst h; decide
  | case6 _ _ _ _ _ h => exact iff_of_true rfl h
  | case8 _ _ _ _ _ h => exact iff_of_false Stage.noConfusion h

theorem rank_stageOf_lt_iff (word : String) :
    (stageOf word).rank < Stage.release.rank ↔ lowerCase word ∈ preReleaseWords := by
  simp only [stageOf, preReleaseWords, List.mem_cons, List.not_mem_nil, ← String.toList_inj,
    or_false]
  generalize (lowerCase word).toList = lower
  fun_cases Stage.ofWord lower with
  | case1 h | case2 _ h | case3 _ _ h | case4 _ _ _ h => rcases h with rfl | rfl <;> decide
  | case5 _ _ _ _ h | case7 _ _ _ _ _ _ h => subst h; decide
  | case6 _ _ _ _ _ h => rcases h with rfl | rfl | rfl | rfl <;> decide
  | case8 => simp_all [Stage.rank]

/-- The text is one word. -/
def IsWord (text : String) : Prop :=
  text ≠ "" ∧ ∀ c ∈ text.toList, charKind c = .letter

instance (text : String) : Decidable (IsWord text) :=
  letI := List.decidableBAll (fun c => charKind c = .letter) text.toList
  inferInstanceAs (Decidable (text ≠ "" ∧ ∀ c ∈ text.toList, charKind c = .letter))

/-- A word that stays in the key of a version, wherever it stands. -/
structure IsQualifier (text : String) : Prop where
  word : IsWord text
  notRelease : lowerCase text ∉ releaseMarkers

/-- The number of the text is not zero. It may have leading zeros and be too great for a word. -/
structure IsPositive (text : String) : Prop where
  digits : text.toList.all Char.isDigit = true
  ne_zero : Text.digitsValue text.toList ≠ 0

theorem ofWord_eq_release (h : stageOf word = .release) : Token.ofWord word.toList = .release := by
  unfold stageOf lowerCase at h
  rw [String.toList_ofList] at h
  rw [Token.ofWord, h]

theorem ofWord_eq_qualifier (h : stageOf word ≠ .release) :
    Token.ofWord word.toList = .qualifier (stageOf word) (lowerCase word).toList := by
  unfold stageOf lowerCase at h ⊢
  rw [String.toList_ofList] at h ⊢
  unfold Token.ofWord
  dsimp only
  split
  · contradiction
  · rfl

theorem isFiller_qualifier {stage : Stage} (h : stage ≠ .release) (text : List Char) :
    (Token.qualifier stage text).isFiller = false := by
  simp [Token.isFiller, Token.release, h]

/-! ## Behind a dash -/

/-- The version that goes on with a dash and the part, and with the rest directly behind it. -/
def extend (version part rest : String) : String :=
  version ++ "-" ++ part ++ rest

theorem toList_extend (version part rest : String) :
    (extend version part rest).toList = version.toList ++ '-' :: (part.toList ++ rest.toList) := by
  simp [extend]

/-- What a version that goes on with a word has before the word. -/
def before (version : String) : List Token :=
  settled (tokens version.toList)

variable {rest : String}

theorem tokens_extend_word (version : String) (hword : IsWord word)
    (hrest : StopsRun .letter rest.toList) :
    tokens (extend version word rest).toList =
      tokens version.toList ++ .ofWord word.toList :: tokens rest.toList := by
  have hne : word.toList ≠ [] := mt String.toList_eq_nil_iff.1 hword.1
  rw [toList_extend, tokens_append_separator (by decide), tokens_word_append hne hword.2 hrest]

theorem key_extend_qualifier (version : String) (hq : IsQualifier word)
    (hrest : StopsRun .letter rest.toList) :
    key (extend version word rest) =
      before version ++ .qualifier (stageOf word) (lowerCase word).toList :: key rest := by
  have hstage : stageOf word ≠ .release := mt (stageOf_eq_release_iff word).1 hq.notRelease
  unfold key
  rw [tokens_extend_word version hq.word hrest, ofWord_eq_qualifier hstage]
  exact normal_append_qualifier rfl (isFiller_qualifier hstage _) _ _

theorem key_extend_number (version : String) (hn : IsPositive number)
    (hrest : StopsRun .digit rest.toList) :
    ∃ zeros n, (∀ zero ∈ zeros, zero = .number 0) ∧
      key (extend version number rest) = before version ++ (zeros ++ .number n :: key rest) := by
  have hne : number.toList ≠ [] := by
    intro h
    apply hn.ne_zero
    rw [h]
    rfl
  have hdigits : ∀ c ∈ number.toList, charKind c = .digit := by
    intro c hc
    exact charKind_of_isDigit (List.all_eq_true.1 hn.digits c hc)
  have hpos : min (Text.digitsValue number.toList) Text.maxWord64 ≠ 0 := by
    have hmax : 0 < Text.maxWord64 := by decide
    have := hn.ne_zero
    omega
  obtain ⟨zeros, hzeros, h⟩ := normal_append_number hpos (tokens version.toList) (tokens rest.toList)
  refine ⟨zeros, min (Text.digitsValue number.toList) Text.maxWord64, hzeros, ?_⟩
  unfold key
  rw [toList_extend, tokens_append_separator (by decide), tokens_digits_append hne hdigits hrest]
  exact h

end ModuleRig.Version
