import ModuleRig.Proofs.Coordinate.Reading

/-!
# The key of a coordinate that was read

Resolutions are remembered under the text of their coordinate. No part that is read has a colon in
it and a selector is read back from its text, so one text stands for one group, one name and one
selector.
-/

namespace ModuleRig

namespace Version.Selector

theorem eq_of_parse {text text' : String} {s s' : Selector} (h : parse text = .ok s)
    (h' : parse text' = .ok s') (heq : s.text = s'.text) : s = s' := by
  unfold parse at h h'
  rw [text_of_ofTrimmed h, text_of_ofTrimmed h', String.ofList_inj] at heq
  rw [heq] at h
  exact Except.ok.inj (h.symm.trans h')

end Version.Selector

namespace Coordinate

/-- The coordinate was read, and may then have been said to be changing or not. -/
def IsRead (c : Coordinate) : Prop :=
  ∃ text read changing, parse text = .ok read ∧ c = read.withChanging changing

theorem isRead_of_parse {text : String} {c : Coordinate} (h : parse text = .ok c) : c.IsRead :=
  ⟨text, c, c.changing, h, rfl⟩

theorem IsRead.parts {c : Coordinate} (h : c.IsRead) :
    ':' ∉ c.group.toList ∧ ':' ∉ c.name.toList ∧
      ∃ text, Version.Selector.parse text = .ok c.selector := by
  obtain ⟨text, read, changing, hparse, rfl⟩ := h
  obtain ⟨selector, hsplit, -, -, hselector, -⟩ := parse_eq_ok_iff.1 hparse
  have hpieces : ∀ piece ∈ [read.group.toList, read.name.toList, selector], ':' ∉ piece := by
    intro piece hpiece
    rw [← hsplit] at hpiece
    exact Text.not_mem_of_mem_splitOn hpiece
  exact ⟨hpieces read.group.toList (by simp), hpieces read.name.toList (by simp), _, hselector⟩

theorem splitOn_text {c : Coordinate} (hgroup : ':' ∉ c.group.toList)
    (hname : ':' ∉ c.name.toList) :
    Text.splitOn ':' c.text.toList =
      c.group.toList :: c.name.toList :: Text.splitOn ':' c.selector.text.toList := by
  have hcolon : ":".toList = [':'] := rfl
  rw [text, String.toList_append, String.toList_append, String.toList_append,
    String.toList_append, hcolon, List.append_assoc, List.append_assoc, List.append_assoc,
    List.singleton_append, Text.splitOn_append, Text.splitOn_of_not_mem hgroup,
    List.singleton_append, List.singleton_append, Text.splitOn_append,
    Text.splitOn_of_not_mem hname]
  rfl

theorem IsRead.eq_of_text_eq {c c' : Coordinate} (h : c.IsRead) (h' : c'.IsRead)
    (htext : c.text = c'.text) : c = c'.withChanging c.changing := by
  obtain ⟨hgroup, hname, text, hselector⟩ := h.parts
  obtain ⟨hgroup', hname', text', hselector'⟩ := h'.parts
  have hsplit := splitOn_text hgroup hname
  rw [htext, splitOn_text hgroup' hname', List.cons.injEq, List.cons.injEq] at hsplit
  obtain ⟨hg, hn, hs⟩ := hsplit
  have hjoin := congrArg (Text.joinWith ':') hs
  rw [Text.joinWith_splitOn, Text.joinWith_splitOn, String.toList_inj] at hjoin
  have hsame := Version.Selector.eq_of_parse hselector hselector' hjoin.symm
  cases c
  cases c'
  rw [String.toList_inj] at hg hn
  simp only [withChanging] at hg hn hsame ⊢
  rw [hg, hn, hsame]

theorem cacheKey_eq_iff {c c' : Coordinate} (h : c.IsRead) (h' : c'.IsRead) :
    c.cacheKey = c'.cacheKey ↔
      c.group = c'.group ∧ c.name = c'.name ∧ c.selector = c'.selector := by
  constructor
  · intro hkey
    rw [h.eq_of_text_eq h' hkey]
    exact ⟨rfl, rfl, rfl⟩
  · rintro ⟨hgroup, hname, hselector⟩
    rw [cacheKey, cacheKey, text, text, hgroup, hname, hselector]

end Coordinate

end ModuleRig
