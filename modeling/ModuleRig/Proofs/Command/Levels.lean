import ModuleRig.Command.Arguments
import ModuleRig.Proofs.Basic

/-!
# Switches in front of a command and behind it

A switch counts wherever it stands, in front of the command or behind it. Of two switches that
exclude each other only one may stand at a level, but nobody looks at both levels together:
`both_iff_apart` says which command lines ask for both.
-/

namespace ModuleRig.Arguments

namespace Switch

def name : Switch → String
  | .offline => "offline"
  | .refresh => "refresh-dependencies"
  | .debug => "debug"

/-- The argument that sets a switch. -/
def argument (x : Switch) : String :=
  "--" ++ x.name

end Switch

def Given.has (g : Given) : Switch → Bool
  | .offline => g.offline
  | .refresh => g.refresh
  | .debug => g.debug

/-- What ends the options of a level. -/
def doubleDash : String := "--"

/-- The value of the option is the next argument. -/
def awaitsValue (argument : String) : Bool :=
  argument == "--config" || argument == "--project-dir"

/-- The arguments in front of the first command and those behind it. What an option waits for is no
command. -/
def splitAtCommand? (awaited : Bool) : List String → Option (List String × List String)
  | [] => none
  | argument :: rest =>
    if !awaited && (commandNames.lookup argument).isSome then some ([], rest)
    else (splitAtCommand? (awaitsValue argument) rest).map fun (front, behind) =>
      (argument :: front, behind)

/-- The arguments that are read as options. -/
def optionsOf (arguments : List String) : List String :=
  arguments.takeWhile (· != doubleDash)

/-! ## Spellings -/

theorem eq_of_spellingOf {argument name : String}
    (h : spellingOf argument.toList = .long name none) : argument = "--" ++ name := by
  unfold spellingOf at h
  split at h
  · cases h
  · next rest hchars =>
    split at h
    · cases h
      simp [← String.toList_inj, hchars]
    · cases h
  · cases h
  · cases h

theorem spellingOf_eq_iff {argument name : String}
    (hname : spellingOf ("--" ++ name).toList = .long name none) :
    spellingOf argument.toList = .long name none ↔ argument = "--" ++ name := by
  refine ⟨eq_of_spellingOf, ?_⟩
  rintro rfl
  exact hname

theorem spellingOf_argument (x : Switch) : spellingOf x.argument.toList = .long x.name none := by
  cases x <;> decide

theorem beq_argument (argument : String) (x : Switch) :
    (argument == x.argument) = (spellingOf argument.toList == .long x.name none) := by
  rw [Bool.eq_iff_iff, beq_iff_eq, beq_iff_eq]
  exact (spellingOf_eq_iff (spellingOf_argument x)).symm

theorem beq_doubleDash (argument : String) :
    (argument == doubleDash) = (spellingOf argument.toList == .doubleDash) := by
  rw [Bool.eq_iff_iff, beq_iff_eq, beq_iff_eq]
  constructor
  · rintro rfl
    decide
  · intro h
    unfold spellingOf at h
    split at h
    · next hchars => exact String.toList_inj.1 hchars
    · split at h <;> cases h
    · cases h
    · cases h

theorem awaitsValue_iff {argument : String} :
    awaitsValue argument = true ↔
      ∃ name option, spellingOf argument.toList = .long name none ∧
        Level.top.option? name = some (.valued option) := by
  simp only [awaitsValue, Bool.or_eq_true, beq_iff_eq]
  constructor
  · rintro (rfl | rfl)
    · exact ⟨"config", .settingsFile, by decide, by decide⟩
    · exact ⟨"project-dir", .projectDir, by decide, by decide⟩
  · rintro ⟨name, option, hspelled, hoption⟩
    obtain ⟨before, after, hoptions, -⟩ := List.lookup_eq_some_iff.1 hoption
    have hmem : (name, LongOption.valued option) ∈ commonOptions ++ Level.top.ownOptions := by
      rw [hoptions]
      exact List.mem_append_right _ List.mem_cons_self
    simp only [commonOptions, Level.ownOptions, List.mem_append, List.mem_cons, Prod.mk.injEq,
      reduceCtorEq, and_false, List.not_mem_nil, or_false, LongOption.valued.injEq] at hmem
    obtain ⟨rfl, -⟩ | ⟨rfl, -⟩ := hmem
    · exact .inl (eq_of_spellingOf hspelled)
    · exact .inr (eq_of_spellingOf hspelled)

theorem option?_name (level : Level) (x : Switch) : level.option? x.name = some (.switch x) := by
  cases level <;> cases x <;> rfl

theorem name_of_option? {level : Level} {name : String} {x : Switch}
    (h : level.option? name = some (.switch x)) : name = x.name := by
  obtain ⟨before, after, hoptions, -⟩ := List.lookup_eq_some_iff.1 h
  have hmem : (name, LongOption.switch x) ∈ commonOptions ++ level.ownOptions := by
    rw [hoptions]
    exact List.mem_append_right _ List.mem_cons_self
  cases level <;> simp [commonOptions, Level.ownOptions] at hmem <;>
    obtain ⟨rfl, rfl⟩ | ⟨rfl, rfl⟩ | ⟨rfl, rfl⟩ := hmem <;> rfl

/-! ## One argument -/

theorem has_take {g g' : Given} {option : Valued} {value : String} (x : Switch)
    (h : g.take option value = .ok g') : g'.has x = g.has x := by
  cases option with
  | settingsFile => obtain ⟨v, -, hv⟩ := exists_of_bind_eq_ok h; cases hv; cases x <;> rfl
  | projectDir => obtain ⟨v, -, hv⟩ := exists_of_bind_eq_ok h; cases hv; cases x <;> rfl
  | details => obtain ⟨v, -, hv⟩ := exists_of_bind_eq_ok h; cases hv; cases x <;> rfl
  | format => obtain ⟨v, -, hv⟩ := exists_of_bind_eq_ok h; cases hv; cases x <;> rfl
  | includeTag => cases h; cases x <;> rfl
  | excludeTag => cases h; cases x <;> rfl

theorem has_settle {s : LevelState} {g : Given} (x : Switch) (h : s.settle = .ok g) :
    g.has x = s.given.has x := by
  unfold LevelState.settle at h
  split at h
  · cases h; rfl
  · cases h
  · exact has_take x h

theorem has_set {g g' : Given} {y : Switch} (x : Switch) (h : g.set y = .ok g') :
    g'.has x = (g.has x || y == x) := by
  cases y <;> simp only [Given.set] at h <;> split at h <;> cases h <;> cases x <;>
    simp [Given.has]

def LevelState.awaits (s : LevelState) : Bool :=
  match s.suspense with
  | .awaiting _ => true
  | _ => false

theorem mayBegin_eq (s : LevelState) : s.mayBegin = (!s.awaits && !s.dashed) := by
  obtain ⟨given, suspense, dashed⟩ := s
  cases suspense <;> rfl

/-- What reading an argument does to a level. -/
structure Reads (level : Level) (s : LevelState) (argument : String) (s' : LevelState) : Prop where
  has (x : Switch) : s'.given.has x = (s.given.has x || (!s.dashed && argument == x.argument))
  dashed : s'.dashed = (s.dashed || argument == doubleDash)
  awaits : level = .top → s'.dashed = false → s'.awaits = awaitsValue argument

theorem has_long {level : Level} {s s' : LevelState} {name : String} {attached : Option String}
    (x : Switch) (h : s.long level name attached = .ok s') :
    s'.given.has x = (s.given.has x || (name == x.name && attached.isNone)) ∧
      s'.dashed = s.dashed ∧
      (s'.awaits = true ↔
        attached = none ∧ ∃ option, level.option? name = some (.valued option)) := by
  unfold LevelState.long at h
  split at h
  · cases h
  · next option hoption =>
    obtain ⟨g, hg, h⟩ := exists_of_bind_eq_ok h
    cases h
    have hne : (name == x.name) = false := by
      rw [beq_eq_false_iff_ne]
      rintro rfl
      rw [option?_name] at hoption
      cases hoption
    refine ⟨?_, rfl, iff_of_true rfl ⟨rfl, option, hoption⟩⟩
    rw [hne, Bool.false_and, Bool.or_false]
    exact has_settle x hg
  · next option value hoption =>
    obtain ⟨g, hg, h⟩ := exists_of_bind_eq_ok h
    obtain ⟨g', hg', h⟩ := exists_of_bind_eq_ok h
    cases h
    refine ⟨?_, rfl, iff_of_false (fun h => by cases h) (fun h => by cases h.1)⟩
    rw [Option.isNone_some, Bool.and_false, Bool.or_false]
    exact (has_take x hg').trans (has_settle x hg)
  · cases h
  · next y hy =>
    obtain ⟨g, hg, h⟩ := exists_of_bind_eq_ok h
    obtain ⟨g', hg', h⟩ := exists_of_bind_eq_ok h
    cases h
    refine ⟨?_, rfl, iff_of_false (fun h => by cases h) ?_⟩
    · have hname : (name == x.name) = (y == x) := by
        rw [name_of_option? hy]
        cases y <;> cases x <;> decide
      rw [hname, Option.isNone_none, Bool.and_true, ← has_settle x hg]
      exact has_set x hg'
    · rintro ⟨-, option, hoption⟩
      rw [hy] at hoption
      cases hoption
  · obtain ⟨g, -, h⟩ := exists_of_bind_eq_ok h
    cases h
  · obtain ⟨g, -, h⟩ := exists_of_bind_eq_ok h
    cases h

theorem not_short {level : Level} {s s' : LevelState} {letter : Char} :
    s.short level letter ≠ .ok s' := by
  intro h
  unfold LevelState.short at h
  split at h
  · obtain ⟨g, -, h⟩ := exists_of_bind_eq_ok h
    cases h
  · split at h
    · obtain ⟨g, -, h⟩ := exists_of_bind_eq_ok h
      cases h
    · cases h

theorem positional_eq_ok {level : Level} {s s' : LevelState} {argument : String}
    (h : s.positional level argument = .ok s') :
    level = .run ∧ s.dashed = true ∧ ∃ g, s.settle = .ok g ∧
      s' = s.goOn { g with arguments := g.arguments ++ [argument] } := by
  cases level with
  | run =>
    simp only [LevelState.positional] at h
    split at h
    · next hdashed =>
      obtain ⟨g, hg, h⟩ := exists_of_bind_eq_ok h
      cases h
      exact ⟨rfl, hdashed, g, hg, rfl⟩
    · cases h
  | top => simp only [LevelState.positional] at h; split at h <;> cases h
  | test => cases h
  | benchmarks => cases h

theorem reads_of_long {level : Level} {s s' : LevelState} {argument name : String}
    {attached : Option String} (hdashed : s.dashed = false)
    (hspelled : spellingOf argument.toList = .long name attached)
    (h : s.long level name attached = .ok s') : Reads level s argument s' := by
  have hlong := fun x => has_long x h
  refine ⟨fun x => ?_, ?_, ?_⟩
  · have hbeq : (Spelling.long name attached == .long x.name none) =
        (name == x.name && attached.isNone) := by
      rw [Bool.eq_iff_iff]
      simp
    rw [(hlong x).1, beq_argument, hspelled, hdashed, hbeq, Bool.not_false, Bool.true_and]
  · rw [(hlong .debug).2.1, beq_doubleDash, hspelled]
    simp
  · rintro rfl -
    rw [Bool.eq_iff_iff, (hlong .debug).2.2, awaitsValue_iff, hspelled]
    constructor
    · rintro ⟨rfl, option, hoption⟩
      exact ⟨name, option, rfl, hoption⟩
    · rintro ⟨_, option, hname, hoption⟩
      cases hname
      exact ⟨rfl, option, hoption⟩

theorem reads_of_read {level : Level} {s s' : LevelState} {argument : String}
    (h : s.read level argument = .ok s') : Reads level s argument s' := by
  unfold LevelState.read at h
  split at h
  · next hdashed =>
    obtain ⟨rfl, -, g, hg, rfl⟩ := positional_eq_ok h
    refine ⟨fun x => ?_, by simp [LevelState.goOn, hdashed], fun h => by cases h⟩
    rw [hdashed, Bool.not_true, Bool.false_and, Bool.or_false, ← has_settle x hg]
    cases x <;> rfl
  · next hdashed =>
    rw [Bool.not_eq_true] at hdashed
    split at h
    · next hspelled =>
      cases h
      refine ⟨fun x => ?_, ?_, fun _ h => by cases h⟩
      · rw [beq_argument, hspelled]
        simp
      · rw [beq_doubleDash, hspelled]
        simp
    · next name attached hspelled => exact reads_of_long hdashed hspelled h
    · next letter hspelled => exact (not_short h).elim
    · next hspelled =>
      split at h
      · cases h
        refine ⟨fun x => ?_, ?_, fun _ _ => ?_⟩
        · rw [beq_argument, hspelled]
          simp
        · rw [beq_doubleDash, hspelled]
          simp
        · rw [Bool.eq_iff_iff, awaitsValue_iff, hspelled]
          simp [LevelState.awaits]
      · obtain ⟨-, hs, -⟩ := positional_eq_ok h
        rw [hdashed] at hs
        cases hs

/-! ## A level -/

theorem contains_optionsOf_cons {argument : String} {rest : List String} (x : Switch) :
    (optionsOf (argument :: rest)).contains x.argument =
      (argument == x.argument ||
        (argument != doubleDash && (optionsOf rest).contains x.argument)) := by
  have hx : (doubleDash == x.argument) = false := by cases x <;> decide
  unfold optionsOf
  rw [List.takeWhile_cons]
  split
  · next hne => rw [List.contains_cons, hne, Bool.true_and, Bool.beq_comm]
  · next hdash =>
    rw [Bool.not_eq_true, bne_eq_false_iff_eq] at hdash
    rw [hdash, hx]
    rfl

theorem Reads.ends {level : Level} {s s' : LevelState} {argument : String} {rest : List String}
    (h : Reads level s argument s') (x : Switch) :
    (s'.given.has x || (!s'.dashed && (optionsOf rest).contains x.argument)) =
      (s.given.has x || (!s.dashed && (optionsOf (argument :: rest)).contains x.argument)) := by
  rw [h.has, h.dashed, contains_optionsOf_cons, bne]
  cases s.dashed <;> simp [Bool.or_assoc]

theorem check_eq_ok {g g' : Given} (h : g.check = .ok g') : g' = g ∧ ¬(g.offline ∧ g.refresh) := by
  unfold Given.check at h
  split at h
  · cases h
  · next hnot =>
    cases h
    exact ⟨rfl, hnot⟩

theorem check_eq_ok_iff {g g' : Given} :
    g.check = .ok g' ↔ ¬(g.offline ∧ g.refresh) ∧ g' = g := by
  refine ⟨fun h => (check_eq_ok h).symm, ?_⟩
  rintro ⟨hnot, rfl⟩
  rw [Given.check, if_neg hnot]

theorem has_readBehind {level : Level} {arguments : List String} {s : LevelState} {g : Given}
    (h : readBehind level s arguments = .ok g) :
    (∀ x, g.has x = (s.given.has x || (!s.dashed && (optionsOf arguments).contains x.argument))) ∧
      ¬(g.offline ∧ g.refresh) := by
  induction arguments generalizing s with
  | nil =>
    obtain ⟨g', hg', hcheck⟩ := exists_of_bind_eq_ok h
    obtain ⟨rfl, hnot⟩ := check_eq_ok hcheck
    refine ⟨fun x => ?_, hnot⟩
    simp [has_settle x hg', optionsOf]
  | cons argument rest ih =>
    obtain ⟨s', hs', hrest⟩ := exists_of_bind_eq_ok h
    obtain ⟨hhas, hnot⟩ := ih hrest
    refine ⟨fun x => ?_, hnot⟩
    rw [hhas, (reads_of_read hs').ends]

theorem withoutCommand_ne_ok (s : LevelState) (line : CommandLine) :
    withoutCommand s ≠ .ok line := by
  intro h
  unfold withoutCommand at h
  obtain ⟨g, -, h⟩ := exists_of_bind_eq_ok h
  split at h <;> cases h

theorem dashed_of_readTop {s : LevelState} {arguments : List String} {line : CommandLine}
    (h : readTop s arguments = .ok line) : s.dashed = false := by
  rw [← Bool.not_eq_true]
  intro hs
  cases arguments with
  | nil => exact withoutCommand_ne_ok s line h
  | cons argument rest =>
    have hbegin : s.mayBegin = false := by rw [mayBegin_eq, hs, Bool.not_true, Bool.and_false]
    simp only [readTop, hbegin, Bool.false_and, Bool.false_eq_true, if_false] at h
    obtain ⟨s', hread, -⟩ := exists_of_bind_eq_ok h
    simp only [LevelState.read, hs, if_true] at hread
    cases (positional_eq_ok hread).1

/-- The switches in front of a command and behind it make up the line, and at neither level do
two stand that exclude each other. -/
structure Combines (front behind : Switch → Bool) (line : CommandLine) : Prop where
  not_front : ¬(front .offline ∧ front .refresh)
  not_behind : ¬(behind .offline ∧ behind .refresh)
  offline : line.offline = (front .offline || behind .offline)
  refresh : line.refresh = (front .refresh || behind .refresh)

theorem combines_of_check {s : LevelState} {rest : List String} {level : Level}
    {below g top : Given} (hbelow : readBehind level .start rest = .ok below)
    (hg : s.settle = .ok g) (htop : g.check = .ok top) (command : Command) :
    Combines s.given.has (fun x => (optionsOf rest).contains x.argument)
      (combine top below command) := by
  obtain ⟨rfl, hnot⟩ := check_eq_ok htop
  obtain ⟨hhas, hnot'⟩ := has_readBehind hbelow
  have hfront : ∀ x, s.given.has x = top.has x := fun x => (has_settle x hg).symm
  have hbehind : ∀ x, (optionsOf rest).contains (Switch.argument x) = below.has x :=
    fun x => by rw [hhas]; cases x <;> simp [LevelState.start, Given.nothing, Given.has]
  constructor
  · rw [hfront, hfront]
    exact hnot
  · rw [hbehind, hbehind]
    exact hnot'
  · rw [hfront, hbehind]
    rfl
  · rw [hfront, hbehind]
    rfl

theorem combines_of_readTop {arguments : List String} {s : LevelState} {line : CommandLine}
    (h : readTop s arguments = .ok line) :
    ∃ front behind, splitAtCommand? s.awaits arguments = some (front, behind) ∧
      Combines (fun x => s.given.has x || front.contains x.argument)
        (fun x => (optionsOf behind).contains x.argument) line := by
  induction arguments generalizing s with
  | nil => exact (withoutCommand_ne_ok s line h).elim
  | cons argument rest ih =>
    have hs := dashed_of_readTop h
    have hbegin : s.mayBegin = !s.awaits := by rw [mayBegin_eq, hs, Bool.not_false, Bool.and_true]
    simp only [readTop, hbegin] at h
    split at h
    · cases h
    · split at h
      · next level hlevel =>
        obtain ⟨below, hbelow, h⟩ := exists_of_bind_eq_ok h
        obtain ⟨g, hg, h⟩ := exists_of_bind_eq_ok h
        obtain ⟨top, htop, h⟩ := exists_of_bind_eq_ok h
        cases h
        have hcommand : (!s.awaits && (commandNames.lookup argument).isSome) = true := by
          split at hlevel
          · next hnot => rw [hnot, hlevel]; rfl
          · cases hlevel
        refine ⟨[], rest, by rw [splitAtCommand?, if_pos hcommand], ?_⟩
        simp only [List.contains_nil, Bool.or_false]
        exact combines_of_check hbelow hg htop _
      · next hlevel =>
        obtain ⟨s', hread, h⟩ := exists_of_bind_eq_ok h
        have hreads := reads_of_read hread
        obtain ⟨front, behind, hsplit, hcombines⟩ := ih h
        have hcommand : ¬(!s.awaits && (commandNames.lookup argument).isSome) = true := by
          split at hlevel
          · next hnot => rw [hnot, hlevel]; simp
          · next hnot => simp [hnot]
        refine ⟨argument :: front, behind, ?_, ?_⟩
        · rw [splitAtCommand?, if_neg hcommand, ← hreads.awaits rfl (dashed_of_readTop h), hsplit]
          rfl
        · simp only [hreads.has, hs, Bool.not_false, Bool.true_and, Bool.or_assoc] at hcombines
          simpa only [List.contains_cons, Bool.beq_comm] using hcombines

/-! ## Offline and anew -/

/-- At neither level two switches stand that exclude each other. A line asks for both just if one
stands in front of the command and the other one behind it, as an option each. -/
theorem both_iff_apart {arguments : List String} {line : CommandLine}
    (h : CommandLine.parse arguments = .ok line) :
    ∃ front behind, splitAtCommand? false arguments = some (front, behind) ∧
      ¬(Switch.offline.argument ∈ front ∧ Switch.refresh.argument ∈ front) ∧
      ¬(Switch.offline.argument ∈ optionsOf behind ∧
        Switch.refresh.argument ∈ optionsOf behind) ∧
      ((line.offline = true ∧ line.refresh = true) ↔
        (Switch.offline.argument ∈ front ∧ Switch.refresh.argument ∈ optionsOf behind) ∨
          (Switch.refresh.argument ∈ front ∧ Switch.offline.argument ∈ optionsOf behind)) := by
  obtain ⟨front, behind, hsplit, hcombines⟩ := combines_of_readTop h
  have hfront : ∀ x, (LevelState.start.given.has x || front.contains (Switch.argument x)) =
      front.contains x.argument := fun x => by cases x <;> rfl
  simp only [hfront] at hcombines
  have hnot := hcombines.not_front
  have hnot' := hcombines.not_behind
  rw [hcombines.offline, hcombines.refresh]
  simp only [Bool.or_eq_true, List.contains_iff_mem] at hnot hnot' ⊢
  refine ⟨front, behind, hsplit, hnot, hnot', ?_⟩
  constructor
  · rintro ⟨hoffline | hoffline, hrefresh | hrefresh⟩
    · exact (hnot ⟨hoffline, hrefresh⟩).elim
    · exact .inl ⟨hoffline, hrefresh⟩
    · exact .inr ⟨hrefresh, hoffline⟩
    · exact (hnot' ⟨hoffline, hrefresh⟩).elim
  · rintro (⟨hoffline, hrefresh⟩ | ⟨hrefresh, hoffline⟩)
    · exact ⟨.inl hoffline, .inr hrefresh⟩
    · exact ⟨.inr hoffline, .inl hrefresh⟩

/-- A value is no command, and what stands behind a double dash is no switch. -/
theorem both_iff_apart_of_value :
    let arguments :=
      ["--config", "run", "--offline", "run", "--debug", "--", "--refresh-dependencies"]
    let line : CommandLine :=
      ⟨some "run", ".", true, false, true, .run ["--refresh-dependencies"]⟩
    CommandLine.parse arguments = .ok line ∧
    ∃ front behind, splitAtCommand? false arguments = some (front, behind) ∧
      ¬(Switch.offline.argument ∈ front ∧ Switch.refresh.argument ∈ front) ∧
      ¬(Switch.offline.argument ∈ optionsOf behind ∧
        Switch.refresh.argument ∈ optionsOf behind) ∧
      ((line.offline = true ∧ line.refresh = true) ↔
        (Switch.offline.argument ∈ front ∧ Switch.refresh.argument ∈ optionsOf behind) ∨
          (Switch.refresh.argument ∈ front ∧ Switch.offline.argument ∈ optionsOf behind)) :=
  have h : CommandLine.parse
      ["--config", "run", "--offline", "run", "--debug", "--", "--refresh-dependencies"] =
    .ok ⟨some "run", ".", true, false, true, .run ["--refresh-dependencies"]⟩ := by rfl
  ⟨h, both_iff_apart h⟩

/-- It is not so that no line asks for both. -/
theorem not_exclusive_of_apart :
    ¬∀ (arguments : List String) (line : CommandLine), CommandLine.parse arguments = .ok line →
      ¬(line.offline = true ∧ line.refresh = true) := by
  intro h
  have hparse : CommandLine.parse ["--offline", "test", "--refresh-dependencies"] =
      .ok ⟨none, ".", true, true, false, .test ⟨.tree, [], []⟩ .text⟩ := by rfl
  exact h _ _ hparse ⟨rfl, rfl⟩

end ModuleRig.Arguments
