import ModuleRig.Proofs.Command.Reader
import ModuleRig.Proofs.Command.Verbatim

/-!
# Command lines as they are written

A command line that is accepted is written in one way (`existsUnique_written`): some options, the
command, more options, and perhaps a double dash with arguments. `parse_arguments_eq_ok_iff` says
which of these lines are accepted, and what they ask for.
-/

namespace ModuleRig.Arguments

/-- What stands behind a double dash, if there is one. -/
def tailArguments : Option (List String) → List String
  | none => []
  | some arguments => doubleDash :: arguments

/-- A command line in its parts. -/
@[ext]
structure Written where
  front : List Item
  name : String
  level : Level
  isCommand : commandNames.lookup name = some level
  behind : List Item
  tail : Option (List String)

namespace Written

def arguments (w : Written) : List String :=
  w.front.flatMap Item.arguments ++
    w.name :: (w.behind.flatMap Item.arguments ++ tailArguments w.tail)

/-- What is given behind the command. -/
def below (w : Written) : Given :=
  { Given.ofItems w.behind with arguments := w.tail.getD [] }

/-- What the line asks for. -/
def meaning (w : Written) : CommandLine :=
  combine (.ofItems w.front) w.below (commandOf w.level w.below)

end Written

/-- The level takes the options. -/
structure AcceptedAt (level : Level) (items : List Item) : Prop extends Sound items where
  fits : ∀ i ∈ items, i.fits level = true
  apart : ¬(.switch .offline ∈ items ∧ .switch .refresh ∈ items)

variable {level : Level} {s s' : LevelState} {g : Given} {argument : String} {line : CommandLine}

/-! ## What is accepted -/

theorem readBehind_dashed_eq_ok_iff {arguments : List String} {b : Given} :
    readBehind level ⟨g, .settled, true⟩ arguments = .ok b ↔
      (level = .run ∨ arguments = []) ∧ ¬(g.offline ∧ g.refresh) ∧
        b = { g with arguments := g.arguments ++ arguments } := by
  cases arguments with
  | nil =>
    show g.check = .ok b ↔ _
    rw [check_eq_ok_iff]
    simp
  | cons argument rest =>
    by_cases hlevel : level = .run
    · subst hlevel
      rw [readBehind_dashed, check_eq_ok_iff]
      simp
    · refine iff_of_false (fun h => ?_) (by simp [hlevel])
      obtain ⟨s', hread, -⟩ := exists_of_bind_eq_ok h
      exact hlevel (positional_eq_ok hread).1

theorem readBehind_tail {tail : Option (List String)} {b : Given} :
    readBehind level (.holding g) (tailArguments tail) = .ok b ↔
      (level = .run ∨ tail.getD [] = []) ∧ ¬(g.offline ∧ g.refresh) ∧
        b = { g with arguments := g.arguments ++ tail.getD [] } := by
  cases tail with
  | none =>
    show g.check = .ok b ↔ _
    rw [check_eq_ok_iff]
    simp
  | some arguments =>
    rw [tailArguments, readBehind, read_doubleDash rfl]
    exact readBehind_dashed_eq_ok_iff

theorem acceptedAt_iff {items : List Item} :
    AcceptedAt level items ↔ (∀ i ∈ items, i.fits level = true) ∧ Sound items ∧
      ¬((Given.ofItems items).offline ∧ (Given.ofItems items).refresh) := by
  have hboth : ((Given.ofItems items).offline ∧ (Given.ofItems items).refresh) ↔
      .switch .offline ∈ items ∧ .switch .refresh ∈ items := by
    simp [Given.ofItems]
  rw [hboth]
  exact ⟨fun h => ⟨h.fits, h.toSound, h.apart⟩, fun h => ⟨h.2.1, h.1, h.2.2⟩⟩

theorem readBehind_start_eq_ok_iff {items : List Item} {tail : Option (List String)} {b : Given} :
    readBehind level .start (items.flatMap Item.arguments ++ tailArguments tail) = .ok b ↔
      AcceptedAt level items ∧ (level = .run ∨ tail.getD [] = []) ∧
        b = { Given.ofItems items with arguments := tail.getD [] } := by
  refine ((reader_readBehind level).run_items items).trans ?_
  simp only [foldlM_add_eq_ok_iff, readBehind_tail, acceptedAt_iff]
  constructor
  · rintro ⟨hfit, _, ⟨hsound, rfl⟩, htail, hapart, rfl⟩
    exact ⟨⟨hfit, hsound, hapart⟩, htail, rfl⟩
  · rintro ⟨⟨hfit, hsound, hapart⟩, htail, rfl⟩
    exact ⟨hfit, _, ⟨hsound, rfl⟩, htail, hapart, rfl⟩

theorem readTop_command {name : String} {rest : List String}
    (h : commandNames.lookup name = some level) :
    readTop (.holding g) (name :: rest) = .ok line ↔
      ∃ b, readBehind level .start rest = .ok b ∧ ¬(g.offline ∧ g.refresh) ∧
        line = combine g b (commandOf level b) := by
  have hhelp : ¬((LevelState.holding g).mayBegin && name == helpName) = true := by
    rw [Bool.and_eq_true, beq_iff_eq]
    rintro ⟨-, rfl⟩
    cases h
  have hlookup : (if (LevelState.holding g).mayBegin then commandNames.lookup name else none) =
      some level := h
  rw [readTop, if_neg hhelp, hlookup]
  simp only [bind_eq_ok_iff]
  refine exists_congr fun b => and_congr_right fun _ => ?_
  constructor
  · rintro ⟨_, ⟨⟩, _, hcheck, heq⟩
    obtain ⟨rfl, hnot⟩ := check_eq_ok hcheck
    exact ⟨hnot, (Except.ok.inj heq).symm⟩
  · rintro ⟨hnot, rfl⟩
    exact ⟨g, rfl, g, check_eq_ok_iff.2 ⟨hnot, rfl⟩, rfl⟩

theorem parse_arguments_eq_ok_iff (w : Written) :
    CommandLine.parse w.arguments = .ok line ↔
      AcceptedAt .top w.front ∧ AcceptedAt w.level w.behind ∧
        (w.level = .run ∨ w.tail.getD [] = []) ∧ line = w.meaning := by
  refine (reader_readTop.run_items w.front).trans ?_
  simp only [foldlM_add_eq_ok_iff, readTop_command w.isCommand, readBehind_start_eq_ok_iff,
    @acceptedAt_iff .top]
  constructor
  · rintro ⟨hfit, _, ⟨hsound, rfl⟩, _, ⟨hbehind, htail, rfl⟩, hapart, rfl⟩
    exact ⟨⟨hfit, hsound, hapart⟩, hbehind, htail, rfl⟩
  · rintro ⟨⟨hfit, hsound, hapart⟩, hbehind, htail, rfl⟩
    exact ⟨hfit, _, ⟨hsound, rfl⟩, _, ⟨hbehind, htail, rfl⟩, hapart, rfl⟩

/-! ## One way to write a line -/

/-- No option begins here. -/
def EndsOptions (arguments : List String) : Prop :=
  ∀ argument ∈ arguments.head?, ∀ name attached, spellingOf argument.toList ≠ .long name attached

theorem Switch.name_injective : Function.Injective Switch.name := by
  intro x y
  cases x <;> cases y <;> decide

theorem Valued.name_injective : Function.Injective Valued.name := by
  intro v w
  cases v <;> cases w <;> decide

theorem Switch.name_ne_valued (x : Switch) (v : Valued) : x.name ≠ v.name := by
  cases x <;> cases v <;> decide

namespace Item

def attached? : Item → Option String
  | .valued _ value true => some value
  | _ => none

theorem exists_arguments (i : Item) :
    ∃ argument more, i.arguments = argument :: more ∧
      spellingOf argument.toList = .long i.name i.attached? := by
  cases i with
  | switch x => exact ⟨_, _, rfl, spellingOf_argument x⟩
  | valued v value isAttached =>
    cases isAttached with
    | true => exact ⟨_, _, rfl, v.spellingOf_attached value⟩
    | false => exact ⟨_, _, rfl, v.spellingOf_name⟩

theorem option_eq_of_name_eq {i j : Item} (h : i.name = j.name) : i.option = j.option := by
  cases i with
  | switch x =>
    cases j with
    | switch y => exact congrArg LongOption.switch (Switch.name_injective h)
    | valued w value b => exact (x.name_ne_valued w h).elim
  | valued v value a =>
    cases j with
    | switch y => exact (y.name_ne_valued v h.symm).elim
    | valued w value' b => exact congrArg LongOption.valued (Valued.name_injective h)

theorem eq_of_arguments_append_eq {i j : Item} {rest rest' : List String}
    (h : i.arguments ++ rest = j.arguments ++ rest') : i = j ∧ rest = rest' := by
  obtain ⟨argument, more, hi, hspelled⟩ := i.exists_arguments
  obtain ⟨argument', more', hj, hspelled'⟩ := j.exists_arguments
  have hhead : argument = argument' := by
    rw [hi, hj] at h
    exact (List.cons.inj h).1
  rw [hhead, hspelled', Spelling.long.injEq] at hspelled
  have hoption := option_eq_of_name_eq hspelled.1
  have hattached := hspelled.2
  cases i with
  | switch x =>
    cases j with
    | switch y => cases hoption; exact ⟨rfl, (List.cons.inj h).2⟩
    | valued w value' b => cases hoption
  | valued v value a =>
    cases j with
    | switch y => cases hoption
    | valued w value' b =>
      cases hoption
      cases a with
      | true =>
        cases b with
        | true => cases hattached; exact ⟨rfl, (List.cons.inj h).2⟩
        | false => cases hattached
      | false =>
        cases b with
        | true => cases hattached
        | false =>
          obtain ⟨rfl, hrest⟩ := List.cons.inj (List.cons.inj h).2
          exact ⟨rfl, hrest⟩

end Item

theorem eq_of_flatMap_append_eq {items items' : List Item} {rest rest' : List String}
    (h : items.flatMap Item.arguments ++ rest = items'.flatMap Item.arguments ++ rest')
    (hrest : EndsOptions rest) (hrest' : EndsOptions rest') : items = items' ∧ rest = rest' := by
  induction items generalizing items' with
  | nil =>
    cases items' with
    | nil => exact ⟨rfl, h⟩
    | cons j items' =>
      obtain ⟨argument, more, hj, hspelled⟩ := j.exists_arguments
      rw [List.flatMap_cons, hj] at h
      exact (hrest argument (by simp [show rest = _ from h]) _ _ hspelled).elim
  | cons i items ih =>
    cases items' with
    | nil =>
      obtain ⟨argument, more, hi, hspelled⟩ := i.exists_arguments
      rw [List.flatMap_cons, hi] at h
      exact (hrest' argument (by simp [show rest' = _ from h.symm]) _ _ hspelled).elim
    | cons j items' =>
      rw [List.flatMap_cons, List.flatMap_cons, List.append_assoc, List.append_assoc] at h
      obtain ⟨rfl, hmore⟩ := Item.eq_of_arguments_append_eq h
      obtain ⟨rfl, hends⟩ := ih hmore
      exact ⟨rfl, hends⟩

theorem endsOptions_command {rest : List String} (h : commandNames.lookup argument = some level) :
    EndsOptions (argument :: rest) := by
  rintro _ ⟨⟩ name attached
  rw [spellingOf_command h]
  nofun

theorem endsOptions_tailArguments (tail : Option (List String)) :
    EndsOptions (tailArguments tail) := by
  cases tail with
  | none => exact fun _ h => by cases h
  | some arguments =>
    rintro _ ⟨⟩ name attached
    rw [show spellingOf doubleDash.toList = .doubleDash from rfl]
    nofun

theorem tailArguments_injective : Function.Injective tailArguments := by
  intro tail tail' h
  cases tail <;> cases tail' <;> simp_all [tailArguments]

theorem Written.arguments_injective : Function.Injective Written.arguments := by
  intro w w' h
  obtain ⟨hfront, h⟩ := eq_of_flatMap_append_eq h (endsOptions_command w.isCommand)
    (endsOptions_command w'.isCommand)
  obtain ⟨hname, h⟩ := List.cons.inj h
  obtain ⟨hbehind, htail⟩ := eq_of_flatMap_append_eq h (endsOptions_tailArguments w.tail)
    (endsOptions_tailArguments w'.tail)
  have hlevel : w.level = w'.level := by
    have := w.isCommand
    rw [hname, w'.isCommand] at this
    exact (Option.some.inj this).symm
  exact Written.ext hfront hname hlevel hbehind (tailArguments_injective htail)

/-! ## Every line that is accepted -/

/-- There are options, and what follows them is as it shall be. -/
def OptionsThen (ends : List String → Prop) (arguments : List String) : Prop :=
  ∃ (items : List Item) (rest : List String),
    ends rest ∧ arguments = items.flatMap Item.arguments ++ rest

/-- The same behind the value that is awaited, if one is. -/
def ValueThen (ends : List String → Prop) (awaits : Bool) (arguments : List String) : Prop :=
  match awaits with
  | false => OptionsThen ends arguments
  | true => ∃ value rest, OptionsThen ends rest ∧ arguments = value :: rest

theorem OptionsThen.cons {ends : List String → Prop} {rest : List String} (i : Item)
    (h : OptionsThen ends rest) : OptionsThen ends (i.arguments ++ rest) := by
  obtain ⟨items, rest, hends, rfl⟩ := h
  exact ⟨i :: items, rest, hends, by rw [List.flatMap_cons, List.append_assoc]⟩

theorem optionsThen_of_long {ends : List String → Prop} {rest : List String} {name : String}
    {attached : Option String} (hspelled : spellingOf argument.toList = .long name attached)
    (hlong : s.long level name attached = .ok s') (h : ValueThen ends s'.awaits rest) :
    OptionsThen ends (argument :: rest) := by
  unfold LevelState.long at hlong
  split at hlong
  · cases hlong
  · next v hoption =>
    obtain ⟨g, -, heq⟩ := exists_of_bind_eq_ok hlong
    cases heq
    obtain ⟨value, rest, hrest, rfl⟩ := h
    rw [eq_of_spellingOf hspelled, name_of_option?_valued hoption]
    exact OptionsThen.cons (.valued v value false) hrest
  · next v value hoption =>
    obtain ⟨g, -, htake⟩ := exists_of_bind_eq_ok hlong
    obtain ⟨g', -, heq⟩ := exists_of_bind_eq_ok htake
    cases heq
    rw [attached_of_spellingOf hspelled, name_of_option?_valued hoption]
    exact OptionsThen.cons (.valued v value true) h
  · cases hlong
  · next x hoption =>
    obtain ⟨g, -, hset⟩ := exists_of_bind_eq_ok hlong
    obtain ⟨g', -, heq⟩ := exists_of_bind_eq_ok hset
    cases heq
    rw [eq_of_spellingOf hspelled, name_of_option? hoption]
    exact OptionsThen.cons (.switch x) h
  · obtain ⟨g, -, heq⟩ := exists_of_bind_eq_ok hlong
    cases heq
  · obtain ⟨g, -, heq⟩ := exists_of_bind_eq_ok hlong
    cases heq

theorem valueThen_of_read {ends : List String → Prop} {rest : List String} (hs : s.dashed = false)
    (hread : s.read level argument = .ok s') (hs' : s'.dashed = false)
    (h : ValueThen ends s'.awaits rest) : ValueThen ends s.awaits (argument :: rest) := by
  unfold LevelState.read at hread
  rw [hs, if_neg Bool.false_ne_true] at hread
  split at hread
  · cases hread
    cases hs'
  · next name attached hspelled =>
    obtain ⟨g, hg⟩ := exists_settle_of_long hread
    rw [awaits_of_settle hg]
    exact optionsThen_of_long hspelled hread h
  · exact (not_short hread).elim
  · split at hread
    · next v hsuspense =>
      cases hread
      rw [LevelState.awaits, hsuspense]
      exact ⟨argument, rest, h, rfl⟩
    · have hdashed := (positional_eq_ok hread).2.1
      rw [hs] at hdashed
      cases hdashed

theorem valueThen_of_readBehind {arguments : List String} {b : Given} (hs : s.dashed = false)
    (h : readBehind level s arguments = .ok b) :
    ValueThen (fun rest => ∃ tail, rest = tailArguments tail) s.awaits arguments := by
  induction arguments generalizing s with
  | nil =>
    obtain ⟨g, hg, -⟩ := exists_of_bind_eq_ok h
    rw [awaits_of_settle hg]
    exact ⟨[], [], ⟨none, rfl⟩, rfl⟩
  | cons argument rest ih =>
    obtain ⟨s', hread, hrest⟩ := exists_of_bind_eq_ok h
    by_cases hdash : argument = doubleDash
    · subst hdash
      rw [read_doubleDash hs] at hread
      cases hread
      -- Behind a double dash nothing is taken for a value any more.
      obtain ⟨g, hg⟩ := (reader_readBehind level).settles _ _ _ (fun _ => rfl) hrest
      have hawaits : s.awaits = false := awaits_of_settle hg
      rw [hawaits]
      exact ⟨[], _, ⟨some rest, rfl⟩, rfl⟩
    · have hs' : s'.dashed = false := by
        rw [(reads_of_read hread).dashed, hs, Bool.false_or, beq_eq_false_iff_ne]
        exact hdash
      exact valueThen_of_read hs hread hs' (ih hs' hrest)

theorem valueThen_of_readTop {arguments : List String} (h : readTop s arguments = .ok line) :
    ValueThen (fun rest => ∃ name level behind, commandNames.lookup name = some level ∧
      OptionsThen (fun rest => ∃ tail, rest = tailArguments tail) behind ∧
      rest = name :: behind) s.awaits arguments := by
  induction arguments generalizing s with
  | nil => exact (withoutCommand_ne_ok s line h).elim
  | cons argument rest ih =>
    have hs := dashed_of_readTop h
    unfold readTop at h
    split at h
    · cases h
    · split at h
      · next level hlevel =>
        obtain ⟨hbegin, hlookup⟩ := Option.ite_none_right_eq_some.1 hlevel
        rw [mayBegin_eq, Bool.and_eq_true, Bool.not_eq_true'] at hbegin
        obtain ⟨b, hbehind, -⟩ := exists_of_bind_eq_ok h
        rw [hbegin.1]
        have hrest := valueThen_of_readBehind rfl hbehind
        exact ⟨[], _, ⟨argument, level, rest, hlookup, hrest, rfl⟩, rfl⟩
      · obtain ⟨s', hread, hrest⟩ := exists_of_bind_eq_ok h
        exact valueThen_of_read hs hread (dashed_of_readTop hrest) (ih hrest)

theorem existsUnique_written {arguments : List String}
    (h : CommandLine.parse arguments = .ok line) : ∃! w : Written, w.arguments = arguments := by
  obtain ⟨front, _, ⟨name, level, _, hname, ⟨behind, _, ⟨tail, rfl⟩, rfl⟩, rfl⟩, rfl⟩ :=
    valueThen_of_readTop h
  exact ⟨⟨front, name, level, hname, behind, tail⟩, rfl, fun w hw => Written.arguments_injective hw⟩

end ModuleRig.Arguments
