import Mathlib.Data.List.Induction
import ModuleRig.Proofs.Command.Levels

/-!
# Options as they are written

An option takes up one argument, or two when its value is the next one. At a level it does not
matter in which order options are read, nor when a value is looked at: what the level is given can
be told from the options alone (`foldlM_add_eq_ok_iff`).
-/

namespace ModuleRig.Arguments

namespace Valued

def name : Valued → String
  | .settingsFile => "config"
  | .projectDir => "project-dir"
  | .details => "details"
  | .includeTag => "include-tag"
  | .excludeTag => "exclude-tag"
  | .format => "format"

/-- The option can be given again and again. -/
def isRepeatable : Valued → Bool
  | .includeTag => true
  | .excludeTag => true
  | _ => false

/-- The option can have the value. -/
def takes (v : Valued) (value : String) : Bool :=
  match v with
  | .settingsFile => (pathValue? value).isSome
  | .projectDir => (pathValue? value).isSome
  | .details => (choice? Details.word Details.all value).isSome
  | .format => (choice? ReportFormat.word ReportFormat.all value).isSome
  | .includeTag => true
  | .excludeTag => true

end Valued

def LongOption.isRepeatable : LongOption → Bool
  | .valued v => v.isRepeatable
  | _ => false

/-- An option with its value, if it takes one. The value is attached to it by an equals sign, or it
is the next argument. -/
inductive Item where
  | switch (x : Switch)
  | valued (v : Valued) (value : String) (attached : Bool)
deriving DecidableEq, Repr

namespace Item

def option : Item → LongOption
  | .switch x => .switch x
  | .valued v _ _ => .valued v

def name : Item → String
  | .switch x => x.name
  | .valued v _ _ => v.name

def arguments : Item → List String
  | .switch x => [x.argument]
  | .valued v value true => ["--" ++ v.name ++ "=" ++ value]
  | .valued v value false => ["--" ++ v.name, value]

/-- The level has the option, and the value is not taken for an option itself. -/
def fits (level : Level) (i : Item) : Bool :=
  level.option? i.name == some i.option &&
    match i with
    | .valued _ value false => spellingOf value.toList == .plain
    | _ => true

/-- The value is one that the option can have. -/
def isSound : Item → Bool
  | .switch _ => true
  | .valued v value _ => v.takes value

/-- The value for an option, if it is the one. -/
def valueOf? (v : Valued) : Item → Option String
  | .switch _ => none
  | .valued w value _ => if w = v then some value else none

end Item

/-- The values of an option, in order. -/
def valuesOf (v : Valued) (items : List Item) : List String :=
  items.filterMap (Item.valueOf? v)

def optionsIn (items : List Item) : List LongOption :=
  items.map Item.option

def Given.add (g : Given) : Item → Except UsageError Given
  | .switch x => g.set x
  | .valued v value _ => g.take v value

/-- What the first value of an option is read as. -/
def firstOf? {α : Type} (read : String → Option α) (v : Valued) (items : List Item) : Option α :=
  (valuesOf v items).head?.bind read

/-- What the options give, in whatever order. -/
def Given.ofItems (items : List Item) : Given where
  settingsFile := firstOf? pathValue? .settingsFile items
  projectDir := firstOf? pathValue? .projectDir items
  offline := items.contains (.switch .offline)
  refresh := items.contains (.switch .refresh)
  debug := items.contains (.switch .debug)
  details := firstOf? (choice? Details.word Details.all) .details items
  format := firstOf? (choice? ReportFormat.word ReportFormat.all) .format items
  includeTags := valuesOf .includeTag items
  excludeTags := valuesOf .excludeTag items
  arguments := []

/-- Every value is one that its option can have, and only tags are given again. -/
structure Sound (items : List Item) : Prop where
  values : ∀ i ∈ items, i.isSound = true
  once : ∀ o : LongOption, o.isRepeatable = false → (optionsIn items).count o ≤ 1

/-! ## Values of an option -/

theorem valuesOf_append (v : Valued) (items more : List Item) :
    valuesOf v (items ++ more) = valuesOf v items ++ valuesOf v more :=
  List.filterMap_append

theorem Item.valueOf?_eq_none_iff {v : Valued} {i : Item} :
    i.valueOf? v = none ↔ i.option ≠ .valued v := by
  cases i with
  | switch x => simp [valueOf?, option]
  | valued w value attached => simp [valueOf?, option]

theorem length_valuesOf (v : Valued) (items : List Item) :
    (valuesOf v items).length = (optionsIn items).count (.valued v) := by
  rw [valuesOf, optionsIn, List.length_filterMap_eq_countP, List.count, List.countP_map]
  refine List.countP_congr fun i _ => ?_
  rw [Option.isSome_iff_ne_none, ne_eq, Item.valueOf?_eq_none_iff, not_not]
  simp

theorem valuesOf_eq_nil_iff {v : Valued} {items : List Item} :
    valuesOf v items = [] ↔ .valued v ∉ optionsIn items := by
  rw [← List.length_eq_zero_iff, length_valuesOf, List.count_eq_zero]

theorem takes_of_mem_valuesOf {v : Valued} {items : List Item} {value : String}
    (h : ∀ i ∈ items, i.isSound = true) (hvalue : value ∈ valuesOf v items) :
    v.takes value = true := by
  obtain ⟨i, hi, hof⟩ := List.mem_filterMap.1 hvalue
  have hsound := h i hi
  cases i with
  | switch x => cases hof
  | valued w value' attached =>
    simp only [Item.valueOf?, Option.ite_none_right_eq_some, Option.some.injEq] at hof
    obtain ⟨rfl, rfl⟩ := hof
    exact hsound

theorem switch_mem_optionsIn_iff {x : Switch} {items : List Item} :
    .switch x ∈ optionsIn items ↔ .switch x ∈ items := by
  rw [optionsIn, List.mem_map]
  constructor
  · rintro ⟨i, hi, hoption⟩
    cases i with
    | switch y => cases hoption; exact hi
    | valued v value attached => cases hoption
  · intro h
    exact ⟨_, h, rfl⟩

theorem firstOf?_eq_none_iff {α : Type} {read : String → Option α} {v : Valued}
    {items : List Item} (h : ∀ value ∈ valuesOf v items, (read value).isSome = true) :
    firstOf? read v items = none ↔ .valued v ∉ optionsIn items := by
  rw [← valuesOf_eq_nil_iff, firstOf?]
  cases hvalues : valuesOf v items with
  | nil => simp
  | cons value values =>
    have hsome := h value (by simp [hvalues])
    simp only [List.head?_cons, Option.bind_some, reduceCtorEq, iff_false]
    rintro hnone
    rw [hnone] at hsome
    cases hsome

/-! ## One option more -/

theorem valuesOf_concat_self (v : Valued) (items : List Item) (value : String) (attached : Bool) :
    valuesOf v (items ++ [.valued v value attached]) = valuesOf v items ++ [value] := by
  rw [valuesOf_append]
  simp [valuesOf, Item.valueOf?]

theorem valuesOf_concat_of_ne {v : Valued} {i : Item} (items : List Item)
    (h : i.option ≠ .valued v) : valuesOf v (items ++ [i]) = valuesOf v items := by
  rw [valuesOf_append]
  simp [valuesOf, Item.valueOf?_eq_none_iff.2 h]

theorem firstOf?_concat_self {α : Type} {read : String → Option α} {v : Valued}
    {items : List Item} (value : String) (attached : Bool) (h : .valued v ∉ optionsIn items) :
    firstOf? read v (items ++ [.valued v value attached]) = read value := by
  rw [firstOf?, valuesOf_concat_self, valuesOf_eq_nil_iff.2 h]
  rfl

theorem firstOf?_concat_of_ne {α : Type} {read : String → Option α} {v : Valued} {i : Item}
    (items : List Item) (h : i.option ≠ .valued v) :
    firstOf? read v (items ++ [i]) = firstOf? read v items := by
  rw [firstOf?, valuesOf_concat_of_ne items h, firstOf?]

theorem once_eq_ok_iff {α : Type} {read : String → Option α} {v : Valued} {items : List Item}
    {value : String} {f : Option α → Given} {g with_ : Given}
    (hgood : ∀ held ∈ valuesOf v items, (read held).isSome = true)
    (hwith : .valued v ∉ optionsIn items → f (read value) = with_) :
    (do return f (← once (firstOf? read v items) (read value)) : Except UsageError Given) = .ok g ↔
      (read value).isSome = true ∧ .valued v ∉ optionsIn items ∧ g = with_ := by
  rw [← firstOf?_eq_none_iff hgood] at hwith ⊢
  cases hheld : firstOf? read v items with
  | some held => simp [once, bind, Except.bind]
  | none =>
    rw [← hwith hheld]
    cases read value <;> simp [once, bind, Except.bind, pure, Except.pure, eq_comm]

theorem take_ofItems_eq_ok_iff {items : List Item} {v : Valued} {value : String} (attached : Bool)
    {g : Given} (h : ∀ i ∈ items, i.isSound = true) :
    (Given.ofItems items).take v value = .ok g ↔
      v.takes value = true ∧ (v.isRepeatable = false → .valued v ∉ optionsIn items) ∧
        g = .ofItems (items ++ [.valued v value attached]) := by
  have hgood : ∀ w, ∀ held ∈ valuesOf w items, w.takes held = true :=
    fun w held => takes_of_mem_valuesOf h
  have hother : ∀ w ≠ v, (Item.valued v value attached).option ≠ .valued w :=
    fun w hw heq => hw (LongOption.valued.inj heq).symm
  cases v with
  | includeTag | excludeTag =>
    simp [Given.ofItems, firstOf?_concat_of_ne, valuesOf_concat_of_ne, valuesOf_concat_self, hother,
      Given.take, Valued.takes, Valued.isRepeatable, eq_comm]
  | _ =>
    simp only [Valued.isRepeatable, forall_const]
    refine once_eq_ok_iff (hgood _) fun hnew => ?_
    simp [Given.ofItems, firstOf?_concat_self, firstOf?_concat_of_ne, valuesOf_concat_of_ne, hother,
      hnew]

theorem set_ofItems_eq_ok_iff {items : List Item} {x : Switch} {g : Given} :
    (Given.ofItems items).set x = .ok g ↔
      .switch x ∉ optionsIn items ∧ g = .ofItems (items ++ [.switch x]) := by
  have hvalued : ∀ v, (Item.switch x).option ≠ .valued v := fun v heq => by cases heq
  rw [switch_mem_optionsIn_iff]
  by_cases hset : .switch x ∈ items
  · cases x <;> simp [Given.set, Given.ofItems, hset]
  · cases x <;> simp [Given.set, Given.ofItems, firstOf?_concat_of_ne, valuesOf_concat_of_ne,
      hvalued, hset, eq_comm]

theorem add_ofItems_eq_ok_iff {items : List Item} {i : Item} {g : Given}
    (h : ∀ j ∈ items, j.isSound = true) :
    (Given.ofItems items).add i = .ok g ↔
      i.isSound = true ∧ (i.option.isRepeatable = false → i.option ∉ optionsIn items) ∧
        g = .ofItems (items ++ [i]) := by
  cases i with
  | switch x => simp [Given.add, set_ofItems_eq_ok_iff, Item.isSound, Item.option,
      LongOption.isRepeatable]
  | valued v value attached => exact take_ofItems_eq_ok_iff attached h

/-! ## All options of a level -/

theorem sound_nil : Sound [] :=
  ⟨by simp, by simp [optionsIn]⟩

theorem sound_concat_iff {items : List Item} {i : Item} :
    Sound (items ++ [i]) ↔ Sound items ∧ i.isSound = true ∧
      (i.option.isRepeatable = false → i.option ∉ optionsIn items) := by
  have hcount : ∀ o, (optionsIn (items ++ [i])).count o =
      (optionsIn items).count o + if i.option = o then 1 else 0 := by
    intro o
    simp [optionsIn, List.count_singleton]
  constructor
  · rintro ⟨hvalues, honce⟩
    rw [List.forall_mem_append, List.forall_mem_singleton] at hvalues
    refine ⟨⟨hvalues.1, fun o ho => ?_⟩, hvalues.2, fun hnot => ?_⟩
    · have := honce o ho
      rw [hcount] at this
      omega
    · have := honce _ hnot
      rw [hcount, if_pos rfl] at this
      exact List.count_eq_zero.1 (by omega)
  · rintro ⟨hitems, hi, hnew⟩
    refine ⟨?_, fun o ho => ?_⟩
    · rw [List.forall_mem_append, List.forall_mem_singleton]
      exact ⟨hitems.values, hi⟩
    · rw [hcount]
      split
      · next heq =>
        subst heq
        exact Nat.le_of_eq (by rw [List.count_eq_zero.2 (hnew ho)])
      · exact hitems.once o ho

theorem foldlM_add_eq_ok_iff {items : List Item} {g : Given} :
    items.foldlM Given.add .nothing = .ok g ↔ Sound items ∧ g = .ofItems items := by
  -- What is given depends on the options before, so the last one is taken off.
  induction items using List.reverseRecOn generalizing g with
  | nil => exact ⟨fun h => ⟨sound_nil, (Except.ok.inj h).symm⟩, fun h => by rw [h.2]; rfl⟩
  | append_singleton items i ih =>
    rw [List.foldlM_append, bind_eq_ok_iff, sound_concat_iff]
    simp only [ih, List.foldlM_cons, List.foldlM_nil, bind_pure]
    constructor
    · rintro ⟨_, ⟨hitems, rfl⟩, hadd⟩
      obtain ⟨hi, hnew, rfl⟩ := (add_ofItems_eq_ok_iff hitems.values).1 hadd
      exact ⟨⟨hitems, hi, hnew⟩, rfl⟩
    · rintro ⟨⟨hitems, hi, hnew⟩, rfl⟩
      exact ⟨_, ⟨hitems, rfl⟩, (add_ofItems_eq_ok_iff hitems.values).2 ⟨hi, hnew, rfl⟩⟩

end ModuleRig.Arguments
