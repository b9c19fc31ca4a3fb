import ModuleRig.Proofs.Command.Options

/-!
# Options read one after the other

Both levels of a command line read options alike, and for what is accepted it does not matter when a
value is looked at. So a row of options is read just if each of them fits the level and can be added
to those before it: `Reader.run_items`.
-/

namespace ModuleRig.Arguments

/-- The options of a level were all looked at. -/
def LevelState.holding (g : Given) : LevelState :=
  ⟨g, .settled, false⟩

variable {level : Level} {s s' : LevelState} {g g' : Given} {argument : String} {β : Type}

/-! ## Spellings -/

theorem cutAt?_singleton {c : Char} {front rest : List Char} (h : c ∉ front) :
    Text.cutAt? [c] (front ++ c :: rest) = some (front, rest) := by
  induction front with
  | nil => simp [Text.cutAt?, Text.after?]
  | cons d front ih =>
    rw [List.mem_cons, not_or] at h
    simp [Text.cutAt?, Text.after?, h.1, ih h.2]

theorem Valued.spellingOf_name (v : Valued) :
    spellingOf ("--" ++ v.name).toList = .long v.name none := by
  cases v <;> decide

theorem Valued.spellingOf_attached (v : Valued) (value : String) :
    spellingOf ("--" ++ v.name ++ "=" ++ value).toList = .long v.name (some value) := by
  have hname : '=' ∉ v.name.toList := by cases v <;> decide
  have hchars : ("--" ++ v.name ++ "=" ++ value).toList =
      '-' :: '-' :: (v.name.toList ++ '=' :: value.toList) := by
    simp [String.toList_append]
  have hcut : Text.cutAt? ['='] (v.name.toList ++ '=' :: value.toList) =
      some (v.name.toList, value.toList) := cutAt?_singleton hname
  rw [hchars]
  cases hrest : v.name.toList ++ '=' :: value.toList with
  | nil => simp at hrest
  | cons c rest =>
    rw [hrest] at hcut
    simp [spellingOf, hcut]

theorem attached_of_spellingOf {name value : String}
    (h : spellingOf argument.toList = .long name (some value)) :
    argument = "--" ++ name ++ "=" ++ value := by
  unfold spellingOf at h
  split at h
  · cases h
  · next rest hchars =>
    split at h
    · cases h
    · next hcut =>
      cases h
      rw [← String.toList_inj, hchars, Text.eq_append_of_cutAt? hcut]
      simp
  · cases h
  · cases h

theorem name_of_option?_valued {name : String} {v : Valued}
    (h : level.option? name = some (.valued v)) : name = v.name := by
  obtain ⟨before, after, hoptions, -⟩ := List.lookup_eq_some_iff.1 h
  have hmem : (name, LongOption.valued v) ∈ commonOptions ++ level.ownOptions := by
    rw [hoptions]
    exact List.mem_append_right _ List.mem_cons_self
  cases level <;> cases v <;> simp [commonOptions, Level.ownOptions] at hmem <;> exact hmem

/-! ## Values looked at early -/

theorem settle_goOn (s : LevelState) (g : Given) : (s.goOn g).settle = .ok g :=
  rfl

theorem awaits_of_settle (h : s.settle = .ok g) : s.awaits = false := by
  unfold LevelState.settle at h
  unfold LevelState.awaits
  split at h
  · next hs => rw [hs]
  · cases h
  · next hs => rw [hs]

theorem long_of_settle {name : String} {attached : Option String} (h : s.settle = .ok g) :
    s.long level name attached = (s.goOn g).long level name attached := by
  unfold LevelState.long
  rw [h, settle_goOn]
  rfl

theorem exists_settle_of_long {name : String} {attached : Option String}
    (h : s.long level name attached = .ok s') : ∃ g, s.settle = .ok g := by
  unfold LevelState.long at h
  split at h
  case h_1 | h_4 => cases h
  -- Whatever the option is, the value before it is looked at first.
  all_goals
    obtain ⟨g, hg, -⟩ := exists_of_bind_eq_ok h
    exact ⟨g, hg⟩

theorem exists_settle_of_read (hawaits : s.awaits = true → s.dashed = true)
    (h : s.read level argument = .ok s') :
    (∃ g, s.settle = .ok g) ∨ s' = { s with dashed := true } := by
  unfold LevelState.read at h
  split at h
  · next hdashed =>
    obtain ⟨-, -, g, hg, -⟩ := positional_eq_ok h
    exact .inl ⟨g, hg⟩
  · next hdashed =>
    split at h
    · exact .inr (Except.ok.inj h).symm
    · exact .inl (exists_settle_of_long h)
    · exact (not_short h).elim
    · split at h
      · next option hs => exact absurd (hawaits (by rw [LevelState.awaits, hs])) hdashed
      · exact absurd (positional_eq_ok h).2.1 hdashed

theorem read_of_settle (h : s.settle = .ok g)
    (hdash : s.dashed = true ∨ argument ≠ doubleDash) :
    s.read level argument = (s.goOn g).read level argument := by
  have hpositional : s.positional level argument = (s.goOn g).positional level argument := by
    unfold LevelState.positional
    rw [h, settle_goOn]
    rfl
  have hawaits := awaits_of_settle h
  unfold LevelState.read
  have hsame : (s.goOn g).dashed = s.dashed := rfl
  rw [hsame]
  split
  · exact hpositional
  · next hnot =>
    have hne := hdash.resolve_left hnot
    split
    · next hspelled =>
      rw [← beq_iff_eq, ← beq_doubleDash, beq_iff_eq] at hspelled
      exact absurd hspelled hne
    · exact long_of_settle h
    · unfold LevelState.short
      rw [h, settle_goOn]
    · unfold LevelState.awaits at hawaits
      split
      · next hs => rw [hs] at hawaits; cases hawaits
      · exact hpositional

theorem read_doubleDash (hs : s.dashed = false) :
    s.read level doubleDash = .ok { s with dashed := true } := by
  unfold LevelState.read
  rw [hs]
  rfl

/-! ## Readers -/

/-- A reader of arguments takes them one by one, unless a command begins. -/
structure Reader (level : Level) (run : LevelState → List String → Except UsageError β) : Prop where
  step : ∀ s argument rest, (s.awaits = true ∨ spellingOf argument.toList ≠ .plain) →
    run s (argument :: rest) = (s.read level argument >>= (run · rest))
  early : ∀ s g arguments, s.settle = .ok g → run s arguments = run (s.goOn g) arguments
  settles : ∀ s arguments b, (s.awaits = true → s.dashed = true) → run s arguments = .ok b →
    ∃ g, s.settle = .ok g

theorem reader_readBehind (level : Level) : Reader level (readBehind level) := by
  refine ⟨fun s argument rest _ => rfl, ?_, ?_⟩
  · intro s g arguments h
    induction arguments generalizing s with
    | nil =>
      unfold readBehind
      rw [h, settle_goOn]
    | cons argument rest ih =>
      unfold readBehind
      by_cases hdash : s.dashed = true ∨ argument ≠ doubleDash
      · rw [read_of_settle h hdash]
      · rw [not_or, Bool.not_eq_true, not_not] at hdash
        obtain ⟨hs, rfl⟩ := hdash
        rw [read_doubleDash hs, read_doubleDash (s := s.goOn g) hs]
        exact ih { s with dashed := true } h
  · intro s arguments b hawaits h
    induction arguments generalizing s with
    | nil =>
      obtain ⟨g, hg, -⟩ := exists_of_bind_eq_ok h
      exact ⟨g, hg⟩
    | cons argument rest ih =>
      obtain ⟨s', hread, h⟩ := exists_of_bind_eq_ok h
      rcases exists_settle_of_read hawaits hread with hg | rfl
      · exact hg
      · exact ih { s with dashed := true } (fun _ => rfl) h

theorem mayBegin_goOn (h : s.awaits = false) (g : Given) : (s.goOn g).mayBegin = s.mayBegin := by
  rw [mayBegin_eq, mayBegin_eq, h]
  rfl

theorem spellingOf_command (h : commandNames.lookup argument = some level) :
    spellingOf argument.toList = .plain := by
  obtain ⟨before, after, hnames, -⟩ := List.lookup_eq_some_iff.1 h
  have hmem : (argument, level) ∈ commandNames := by simp [hnames]
  simp only [commandNames, List.mem_cons, Prod.mk.injEq, List.not_mem_nil, or_false] at hmem
  obtain ⟨rfl, -⟩ | ⟨rfl, -⟩ | ⟨rfl, -⟩ | ⟨rfl, -⟩ := hmem <;> decide

theorem readTop_cons {rest : List String}
    (h : s.awaits = true ∨ spellingOf argument.toList ≠ .plain) :
    readTop s (argument :: rest) = (s.read .top argument >>= (readTop · rest)) := by
  have hplain : s.mayBegin = true → spellingOf argument.toList ≠ .plain := by
    intro hbegin
    rw [mayBegin_eq] at hbegin
    apply h.resolve_left
    simp_all
  have hlookup : (if s.mayBegin then commandNames.lookup argument else none) = none := by
    split
    · next hbegin =>
      rw [Option.eq_none_iff_forall_ne_some]
      exact fun level hlevel => hplain hbegin (spellingOf_command hlevel)
    · rfl
  have hhelp : ¬ (s.mayBegin && argument == helpName) = true := by
    rw [Bool.and_eq_true, beq_iff_eq]
    rintro ⟨hbegin, rfl⟩
    exact hplain hbegin rfl
  rw [readTop, if_neg hhelp, hlookup]

theorem reader_readTop : Reader .top readTop := by
  refine ⟨fun s argument rest h => readTop_cons h, ?_, ?_⟩
  · intro s g arguments h
    induction arguments generalizing s with
    | nil =>
      unfold readTop withoutCommand
      rw [h, settle_goOn]
    | cons argument rest ih =>
      unfold readTop
      rw [mayBegin_goOn (awaits_of_settle h)]
      split
      · rfl
      · split
        · rw [h, settle_goOn]
        · by_cases hdash : s.dashed = true ∨ argument ≠ doubleDash
          · rw [read_of_settle h hdash]
          · rw [not_or, Bool.not_eq_true, not_not] at hdash
            obtain ⟨hs, rfl⟩ := hdash
            rw [read_doubleDash hs, read_doubleDash (s := s.goOn g) hs]
            exact ih { s with dashed := true } h
  · intro s arguments line hawaits h
    cases arguments with
    | nil => exact (withoutCommand_ne_ok s line h).elim
    | cons argument rest =>
      unfold readTop at h
      split at h
      · cases h
      · split at h
        · obtain ⟨below, -, h⟩ := exists_of_bind_eq_ok h
          obtain ⟨g, hg, -⟩ := exists_of_bind_eq_ok h
          exact ⟨g, hg⟩
        · obtain ⟨s', hread, h⟩ := exists_of_bind_eq_ok h
          rcases exists_settle_of_read hawaits hread with hg | rfl
          · exact hg
          · have := dashed_of_readTop h
            contradiction

/-! ## Options read -/

theorem read_long {name : String} {attached : Option String} (hs : s.dashed = false)
    (h : spellingOf argument.toList = .long name attached) :
    s.read level argument = s.long level name attached := by
  unfold LevelState.read
  rw [hs, h]
  rfl

theorem option?_valued_name (level : Level) (v : Valued) :
    level.option? v.name = some (.valued v) ∨ level.option? v.name = none := by
  cases level <;> cases v <;> decide

theorem read_value {v : Valued} {value : String}
    (h : LevelState.read ⟨g, .awaiting v, false⟩ level value = .ok s') :
    (spellingOf value.toList = .plain ∧ s' = ⟨g, .holding v value, false⟩) ∨
      s' = ⟨g, .awaiting v, true⟩ := by
  unfold LevelState.read at h
  split at h
  · next hdashed => cases hdashed
  · split at h
    · exact .inr (Except.ok.inj h).symm
    · obtain ⟨g', hg'⟩ := exists_settle_of_long h
      cases hg'
    · exact (not_short h).elim
    · next hplain => exact .inl ⟨hplain, (Except.ok.inj h).symm⟩

theorem read_value_of_plain {v : Valued} {value : String} (h : spellingOf value.toList = .plain) :
    LevelState.read ⟨g, .awaiting v, false⟩ level value = .ok ⟨g, .holding v value, false⟩ := by
  unfold LevelState.read
  rw [h]
  rfl

theorem Item.fits_switch (level : Level) (x : Switch) : (Item.switch x).fits level = true := by
  simp [fits, name, option, option?_name]

theorem Item.fits_attached_iff {v : Valued} {value : String} :
    (Item.valued v value true).fits level = true ↔ level.option? v.name = some (.valued v) := by
  simp [fits, name, option]

theorem Item.fits_followed_iff {v : Valued} {value : String} :
    (Item.valued v value false).fits level = true ↔
      level.option? v.name = some (.valued v) ∧ spellingOf value.toList = .plain := by
  simp [fits, name, option]

namespace Reader

variable {run : LevelState → List String → Except UsageError β} {rest : List String} {b : β}

theorem run_long (hrun : Reader level run) {name : String} {attached : Option String}
    (h : spellingOf argument.toList = .long name attached) :
    run (.holding g) (argument :: rest) =
      ((LevelState.holding g).long level name attached >>= (run · rest)) := by
  have hne : spellingOf argument.toList ≠ .plain := by rw [h]; nofun
  rw [hrun.step _ _ _ (.inr hne), read_long rfl h]

theorem run_switch (hrun : Reader level run) (x : Switch) :
    run (.holding g) (x.argument :: rest) = .ok b ↔
      ∃ g', g.set x = .ok g' ∧ run (.holding g') rest = .ok b := by
  have hlong : (LevelState.holding g).long level x.name none = (g.set x).map .holding := by
    unfold LevelState.long
    rw [option?_name]
    show (g.set x >>= _) = _
    cases g.set x <;> rfl
  rw [hrun.run_long (spellingOf_argument x), hlong, map_bind_eq_ok_iff]

theorem run_attached (hrun : Reader level run) (v : Valued) (value : String) :
    run (.holding g) (("--" ++ v.name ++ "=" ++ value) :: rest) = .ok b ↔
      level.option? v.name = some (.valued v) ∧
        ∃ g', g.take v value = .ok g' ∧ run (.holding g') rest = .ok b := by
  rw [hrun.run_long (v.spellingOf_attached value)]
  rcases option?_valued_name level v with h | h
  · have hlong : (LevelState.holding g).long level v.name (some value) =
        (g.take v value).map .holding := by
      unfold LevelState.long
      rw [h]
      show (g.take v value >>= _) = _
      cases g.take v value <;> rfl
    rw [hlong, map_bind_eq_ok_iff, h, and_iff_right rfl]
  · unfold LevelState.long
    rw [h]
    simp [bind, Except.bind]

theorem run_suspended (hrun : Reader level run) (v : Valued) (value : String) :
    run ⟨g, .holding v value, false⟩ rest = .ok b ↔
      ∃ g', g.take v value = .ok g' ∧ run (.holding g') rest = .ok b := by
  constructor
  · intro h
    obtain ⟨g', hg'⟩ := hrun.settles _ _ _ (by simp [LevelState.awaits]) h
    rw [hrun.early _ g' _ hg'] at h
    exact ⟨g', hg', h⟩
  · rintro ⟨g', hg', h⟩
    rw [hrun.early ⟨g, .holding v value, false⟩ g' rest hg']
    exact h

theorem run_followed (hrun : Reader level run) (v : Valued) (value : String) :
    run (.holding g) (("--" ++ v.name) :: value :: rest) = .ok b ↔
      (level.option? v.name = some (.valued v) ∧ spellingOf value.toList = .plain) ∧
        ∃ g', g.take v value = .ok g' ∧ run (.holding g') rest = .ok b := by
  rw [hrun.run_long v.spellingOf_name]
  unfold LevelState.long
  rcases option?_valued_name level v with h | h
  · have hvalue : run ⟨g, .awaiting v, false⟩ (value :: rest) = .ok b ↔
        spellingOf value.toList = .plain ∧ run ⟨g, .holding v value, false⟩ rest = .ok b := by
      rw [hrun.step _ _ _ (.inl rfl), bind_eq_ok_iff]
      constructor
      · rintro ⟨s', hread, hrest⟩
        rcases read_value hread with ⟨hplain, rfl⟩ | rfl
        · exact ⟨hplain, hrest⟩
        · obtain ⟨g', hg'⟩ := hrun.settles _ _ _ (fun _ => rfl) hrest
          cases hg'
      · rintro ⟨hplain, hrest⟩
        exact ⟨_, read_value_of_plain hplain, hrest⟩
    rw [h, ← hrun.run_suspended, and_iff_right rfl]
    exact hvalue
  · rw [h]
    simp [bind, Except.bind]

theorem run_item (hrun : Reader level run) (i : Item) :
    run (.holding g) (i.arguments ++ rest) = .ok b ↔
      i.fits level = true ∧ ∃ g', g.add i = .ok g' ∧ run (.holding g') rest = .ok b := by
  cases i with
  | switch x =>
    rw [and_iff_right (Item.fits_switch level x)]
    exact hrun.run_switch x
  | valued v value isAttached =>
    cases isAttached with
    | true =>
      rw [Item.fits_attached_iff]
      exact hrun.run_attached v value
    | false =>
      rw [Item.fits_followed_iff]
      exact hrun.run_followed v value

theorem run_items (hrun : Reader level run) (items : List Item) :
    run (.holding g) (items.flatMap Item.arguments ++ rest) = .ok b ↔
      (∀ i ∈ items, i.fits level = true) ∧
        ∃ g', items.foldlM Given.add g = .ok g' ∧ run (.holding g') rest = .ok b := by
  induction items generalizing g with
  | nil => simp [pure, Except.pure]
  | cons i items ih =>
    rw [List.flatMap_cons, List.append_assoc, hrun.run_item, List.forall_mem_cons, and_assoc,
      List.foldlM_cons]
    simp only [ih, bind_eq_ok_iff]
    constructor
    · rintro ⟨hi, g₁, hadd, hfit, g₂, hfold, hrest⟩
      exact ⟨hi, hfit, g₂, ⟨g₁, hadd, hfold⟩, hrest⟩
    · rintro ⟨hi, hfit, g₂, ⟨g₁, hadd, hfold⟩, hrest⟩
      exact ⟨hi, g₁, hadd, hfit, g₂, hfold, hrest⟩

end Reader

end ModuleRig.Arguments
