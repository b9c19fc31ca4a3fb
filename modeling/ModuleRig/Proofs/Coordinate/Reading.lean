import ModuleRig.Coordinate
import ModuleRig.Proofs.Basic
import ModuleRig.Proofs.Text.Front
import ModuleRig.Proofs.Text.Split

/-!
# What is read as a coordinate

A coordinate is read from the texts that have its parts between two colons. The parts are taken as
they stand, but for the blanks around the selector and around the whole.
-/

namespace ModuleRig

theorem Version.eq_of_beforePlus? {cs front : List Char} (h : beforePlus? cs = some front) :
    cs = front ++ ['+'] := by
  unfold beforePlus? at h
  rw [Option.ite_none_right_eq_some, Option.some.injEq] at h
  obtain ⟨before, rfl⟩ := List.getLast?_eq_some_iff.1 h.1
  rw [List.dropLast_concat] at h
  rw [h.2]

namespace Version.Selector

theorem text_of_ofTrimmed {cs : List Char} {s : Selector} (h : ofTrimmed cs = .ok s) :
    s.text = String.ofList cs := by
  unfold ofTrimmed at h
  simp only at h
  split at h
  · contradiction
  · split at h
    · contradiction
    · split at h
      · next hfront =>
        obtain rfl := Except.ok.inj h
        rw [eq_of_beforePlus? hfront]
        rfl
      · next front _ hfront =>
        split at h
        · contradiction
        · obtain rfl := Except.ok.inj h
          rw [eq_of_beforePlus? hfront, String.ofList_append]
          rfl
      · split at h
        · contradiction
        · obtain rfl := Except.ok.inj h
          rfl

theorem parse_eq_ofTrimmed (cs : List Char) :
    parse (String.ofList cs) = ofTrimmed (Text.trim cs) := by
  rw [parse, String.toList_ofList]

theorem ne_nil_of_ofTrimmed {cs : List Char} {s : Selector} (h : ofTrimmed cs = .ok s) :
    cs ≠ [] := by
  rintro rfl
  contradiction

theorem toList_text_of_parse {cs : List Char} {s : Selector}
    (h : parse (String.ofList cs) = .ok s) : s.text.toList = Text.trim cs := by
  rw [parse_eq_ofTrimmed] at h
  rw [text_of_ofTrimmed h, String.toList_ofList]

theorem parse_text {text : String} {s : Selector} (h : parse text = .ok s) :
    parse s.text = .ok s := by
  rw [parse] at h
  rw [text_of_ofTrimmed h, parse_eq_ofTrimmed, Text.trim_trim]
  exact h

end Version.Selector

namespace Coordinate

variable {text : String} {c : Coordinate}

theorem ne_nil_of_isSafeName {cs : List Char} (h : isSafeName cs = true) : cs ≠ [] := by
  rintro rfl
  contradiction

theorem checkName_eq_ok_iff {label s : String} {cs : List Char} :
    checkName label cs = .ok s ↔ isSafeName cs = true ∧ cs = s.toList := by
  unfold checkName
  constructor
  · intro h
    split at h
    · contradiction
    · split at h
      · next hsafe =>
        obtain rfl := Except.ok.inj h
        exact ⟨hsafe, String.toList_ofList.symm⟩
      · contradiction
  · rintro ⟨hsafe, rfl⟩
    have hne := ne_nil_of_isSafeName hsafe
    rw [if_neg (mt List.isEmpty_iff.1 hne), if_pos hsafe, String.ofList_toList]

theorem parse_eq_ok_iff :
    parse text = .ok c ↔ ∃ selector,
      Text.splitOn ':' (Text.trim text.toList) = [c.group.toList, c.name.toList, selector] ∧
        isSafeName c.group.toList = true ∧ isSafeName c.name.toList = true ∧
        Version.Selector.parse (String.ofList selector) = .ok c.selector ∧
        c.changing = changesByDefault c.selector := by
  constructor
  · intro h
    unfold parse at h
    split at h
    · next group name selector hsplit =>
      obtain ⟨group', hgroup, h⟩ := exists_of_bind_eq_ok h
      obtain ⟨name', hname, h⟩ := exists_of_bind_eq_ok h
      obtain ⟨selector', hselector, h⟩ := exists_of_bind_eq_ok h
      obtain rfl := Except.ok.inj h
      obtain ⟨hgroupSafe, rfl⟩ := checkName_eq_ok_iff.1 hgroup
      obtain ⟨hnameSafe, rfl⟩ := checkName_eq_ok_iff.1 hname
      exact ⟨selector, hsplit, hgroupSafe, hnameSafe, mapError_eq_ok_iff.1 hselector, rfl⟩
    · contradiction
  · rintro ⟨selector, hsplit, hgroup, hname, hselector, hchanging⟩
    obtain ⟨group, name, sel, changing⟩ := c
    dsimp only at hsplit hgroup hname hselector hchanging
    subst hchanging
    unfold parse
    rw [hsplit]
    dsimp only
    rw [checkName_eq_ok_iff.2 ⟨hgroup, rfl⟩, checkName_eq_ok_iff.2 ⟨hname, rfl⟩,
      mapError_eq_ok_iff.2 hselector]
    rfl

end Coordinate

end ModuleRig
