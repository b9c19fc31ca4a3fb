import ModuleRig.Proofs.Command.Levels

/-!
# Arguments for what is run

Behind `run` and a double dash no argument means anything to the reader, whatever it looks like. So
they are handed on as they are, and the rest of the command line is what it is without them:
`parse_run`.
-/

namespace ModuleRig.Arguments

/-- The name of the command that hands on its arguments. -/
def runName : String := "run"

theorem lookup_runName : commandNames.lookup runName = some .run := by
  rfl

/-! ## Behind the command -/

theorem readBehind_dashed (g : Given) (arguments : List String) :
    readBehind .run ⟨g, .settled, true⟩ arguments =
      Given.check { g with arguments := g.arguments ++ arguments } := by
  induction arguments generalizing g with
  | nil =>
    rw [List.append_nil]
    rfl
  | cons argument rest ih =>
    have hread : LevelState.read ⟨g, .settled, true⟩ .run argument =
        .ok ⟨{ g with arguments := g.arguments ++ [argument] }, .settled, true⟩ := by
      rfl
    rw [readBehind, hread]
    show readBehind .run _ rest = _
    rw [ih, List.append_assoc, List.singleton_append]

theorem readBehind_doubleDash (arguments : List String) :
    readBehind .run .start (doubleDash :: arguments) =
      .ok { Given.nothing with arguments := arguments } :=
  readBehind_dashed .nothing arguments

/-! ## The whole line -/

theorem splitAtCommand?_cons {awaited : Bool} {argument : String} {rest front behind : List String}
    (h : splitAtCommand? awaited (argument :: rest) = some (argument :: front, behind)) :
    (!awaited && (commandNames.lookup argument).isSome) = false ∧
      splitAtCommand? (awaitsValue argument) rest = some (front, behind) := by
  rw [splitAtCommand?] at h
  split at h
  · cases h
  · next hnot =>
    obtain ⟨⟨front', behind'⟩, hrest, heq⟩ := Option.map_eq_some_iff.1 h
    cases heq
    exact ⟨Bool.not_eq_true _ ▸ hnot, hrest⟩

theorem awaited_of_splitAtCommand? {awaited : Bool} {argument : String} {rest : List String}
    (h : splitAtCommand? awaited (argument :: rest) = some ([], rest)) : awaited = false := by
  rw [splitAtCommand?] at h
  split at h
  · next hcommand =>
    rw [Bool.and_eq_true, Bool.not_eq_true'] at hcommand
    exact hcommand.1
  · obtain ⟨⟨front', behind'⟩, -, heq⟩ := Option.map_eq_some_iff.1 h
    cases heq

theorem readTop_runName {s : LevelState} (hawaits : s.awaits = false) (hdashed : s.dashed = false)
    (behind : List String) :
    readTop s (runName :: behind) = (do
      let below ← readBehind .run .start behind
      let top ← (← s.settle).check
      return combine top below (commandOf .run below)) := by
  have hbegin : s.mayBegin = true := by rw [mayBegin_eq, hawaits, hdashed]; rfl
  have hhelp : (runName == helpName) = false := by decide
  rw [readTop, hbegin, hhelp, lookup_runName]
  rfl

theorem readTop_run {front : List String} {s : LevelState} {line : CommandLine}
    (hsplit : splitAtCommand? s.awaits (front ++ [runName]) = some (front, []))
    (h : readTop s (front ++ [runName]) = .ok line) :
    line.command = .run [] ∧ ∀ arguments,
      readTop s (front ++ runName :: doubleDash :: arguments) =
        .ok { line with command := .run arguments } := by
  have hdashed := dashed_of_readTop h
  induction front generalizing s with
  | nil =>
    have hawaits := awaited_of_splitAtCommand? hsplit
    rw [List.nil_append, readTop_runName hawaits hdashed] at h
    obtain ⟨below, hbelow, h⟩ := exists_of_bind_eq_ok h
    cases hbelow
    obtain ⟨g, hg, h⟩ := exists_of_bind_eq_ok h
    obtain ⟨top, htop, h⟩ := exists_of_bind_eq_ok h
    cases h
    refine ⟨rfl, fun arguments => ?_⟩
    rw [List.nil_append, readTop_runName hawaits hdashed, readBehind_doubleDash, hg]
    simp only [bind, Except.bind, htop]
    rfl
  | cons argument front ih =>
    obtain ⟨hcommand, hrest⟩ := splitAtCommand?_cons hsplit
    have hlevel : (if s.mayBegin = true then commandNames.lookup argument else none) = none := by
      rw [mayBegin_eq, hdashed, Bool.not_false, Bool.and_true]
      cases hawaits : s.awaits with
      | true => rfl
      | false =>
        rw [hawaits, Bool.not_false, Bool.true_and, Option.isSome_eq_false_iff,
          Option.isNone_iff_eq_none] at hcommand
        exact hcommand
    simp only [List.cons_append, readTop, hlevel] at h ⊢
    split at h
    · cases h
    · next hhelp =>
      obtain ⟨s', hread, h⟩ := exists_of_bind_eq_ok h
      have hdashed' := dashed_of_readTop h
      rw [← (reads_of_read hread).awaits rfl hdashed'] at hrest
      obtain ⟨hrun, hline⟩ := ih hrest h hdashed'
      refine ⟨hrun, fun arguments => ?_⟩
      rw [if_neg hhelp, hread]
      exact hline arguments

theorem parse_run {front : List String} {line : CommandLine}
    (hsplit : splitAtCommand? false (front ++ [runName]) = some (front, []))
    (h : CommandLine.parse (front ++ [runName]) = .ok line) :
    line.command = .run [] ∧ ∀ arguments,
      CommandLine.parse (front ++ runName :: doubleDash :: arguments) =
        .ok { line with command := .run arguments } :=
  readTop_run hsplit h

end ModuleRig.Arguments
