import ModuleRig.Proofs.Text.Front
import ModuleRig.Repository.Metadata

/-!
# Elements in a text

A tag is searched for as text, so it must be known where else in a document it might stand. It has
an opening bracket at its front only. So it stands nowhere in a text without brackets, it is not
part of another tag, and it does not begin before a tag and end within it: `Lacks`. The value of an
element is therefore found between its own tags: `tagValue?_elements`.
-/

namespace ModuleRig.Metadata

open Text (after? cutAt? after?_append after?_eq_some_iff dropWhile_run eq_append_of_cutAt? isBlank
  stopsAt_cons takeWhile_run trim IsTrimmed StopsAt)

/-! ## Tags -/

/-- A label in angle brackets. An opening tag has a name for its label, a closing tag a slash and a
name. -/
def tag (label : List Char) : List Char := '<' :: (label ++ ['>'])

theorem openTag_eq (name : String) : openTag name = tag name.toList :=
  rfl

theorem closeTag_eq (name : String) : closeTag name = tag ('/' :: name.toList) :=
  rfl

/-- There are no brackets in the label. -/
def IsLabel (label : List Char) : Prop :=
  ∀ c ∈ label, c ≠ '<' ∧ c ≠ '>'

instance (label : List Char) : Decidable (IsLabel label) :=
  List.decidableBAll (fun c => c ≠ '<' ∧ c ≠ '>') label

variable {label other text before rest : List Char}

theorem tag_append (label rest : List Char) :
    tag label ++ rest = '<' :: (label ++ '>' :: rest) := by
  rw [tag, List.cons_append, List.append_assoc, List.singleton_append]

theorem IsLabel.of_cons {c : Char} (h : IsLabel (c :: label)) : IsLabel label :=
  fun d hd => h d (List.mem_cons_of_mem c hd)

theorem IsLabel.not_mem_tail (h : IsLabel label) : '<' ∉ label ++ ['>'] := by
  rw [List.mem_append, List.mem_singleton, not_or]
  exact ⟨fun hmem => (h _ hmem).1 rfl, by decide⟩

theorem IsLabel.takeWhile (h : IsLabel label) (rest : List Char) :
    (label ++ '>' :: rest).takeWhile (· != '>') = label :=
  takeWhile_run (fun c hc => bne_iff_ne.2 (h c hc).2) (stopsAt_cons.2 (by decide))

theorem eq_of_tags_at_front (hlabel : IsLabel label) (hother : IsLabel other)
    (h : tag label <+: tag other ++ rest) : label = other := by
  obtain ⟨more, hmore⟩ := h
  rw [tag_append, tag_append, List.cons.injEq] at hmore
  rw [← hlabel.takeWhile more, hmore.2, hother.takeWhile]

/-- The tag stands nowhere in the text. -/
def Lacks (label text : List Char) : Prop := ¬ tag label <:+: text

theorem lacks_of_not_mem (h : '<' ∉ text) : Lacks label text := by
  intro htag
  exact h (htag.subset List.mem_cons_self)

theorem Lacks.append (hbefore : '<' ∉ before) (h : Lacks label rest) :
    Lacks label (before ++ rest) := by
  induction before with
  | nil => exact h
  | cons c before ih =>
    rw [List.mem_cons, not_or] at hbefore
    intro htag
    rw [List.cons_append, List.infix_cons_iff] at htag
    rcases htag with ⟨more, hmore⟩ | hlater
    · exact hbefore.1 (List.cons.inj hmore).1
    · exact ih hbefore.2 hlater

theorem Lacks.tag_append (hlabel : IsLabel label) (hother : IsLabel other) (hne : label ≠ other)
    (h : Lacks label rest) : Lacks label (tag other ++ rest) := by
  intro htag
  change tag label <:+: '<' :: (other ++ ['>'] ++ rest) at htag
  rw [List.infix_cons_iff] at htag
  rcases htag with hfront | hlater
  · exact hne (eq_of_tags_at_front hlabel hother hfront)
  · exact Lacks.append hother.not_mem_tail h hlater

theorem lacks_tag (hlabel : IsLabel label) (hother : IsLabel other) (hne : label ≠ other) :
    Lacks label (tag other) := by
  rw [← List.append_nil (tag other)]
  exact .tag_append hlabel hother hne (lacks_of_not_mem List.not_mem_nil)

theorem cutAt?_of_lacks (h : Lacks label text) : cutAt? (tag label) text = none := by
  cases hcut : cutAt? (tag label) text with
  | none => rfl
  | some pieces =>
    obtain ⟨before, rest⟩ := pieces
    exact absurd ⟨before, rest, (eq_append_of_cutAt? hcut).symm⟩ h

theorem cutAt?_tag_append (label rest : List Char) :
    cutAt? (tag label) (tag label ++ rest) = some ([], rest) := by
  have hafter := after?_append (tag label) rest
  rw [tag_append] at hafter ⊢
  rw [cutAt?, hafter]

theorem after?_of_lacks (hlabel : IsLabel label) (h : Lacks label before) (hne : before ≠ [])
    (rest : List Char) : after? (tag label) (before ++ (tag label ++ rest)) = none := by
  cases hafter : after? (tag label) (before ++ (tag label ++ rest)) with
  | none => rfl
  | some more =>
    exfalso
    rcases List.append_eq_append_iff.1 (after?_eq_some_iff.1 hafter) with
      ⟨overlap, htag, hover⟩ | ⟨back, hbefore, -⟩
    · cases overlap with
      | nil => exact h ⟨[], [], by simpa using htag⟩
      | cons c overlap =>
        -- The bracket that follows would stand within the tag.
        obtain rfl : '<' = c := by
          rw [tag_append, List.cons_append, List.cons.injEq] at hover
          exact hover.1
        obtain ⟨b, before, rfl⟩ := List.exists_cons_of_ne_nil hne
        rw [tag, List.cons_append, List.cons.injEq] at htag
        exact hlabel.not_mem_tail (htag.2 ▸ List.mem_append_right before List.mem_cons_self)
    · exact h ⟨[], back, hbefore.symm⟩

/-- The tag is found where it was put, if it does not stand before that. -/
theorem cutAt?_tag (hlabel : IsLabel label) (h : Lacks label before) (rest : List Char) :
    cutAt? (tag label) (before ++ (tag label ++ rest)) = some (before, rest) := by
  induction before with
  | nil => exact cutAt?_tag_append label rest
  | cons c before ih =>
    have hlater : Lacks label before := fun htag => h (htag.trans ⟨[c], [], by simp⟩)
    have hafter := after?_of_lacks hlabel h (List.cons_ne_nil c before) rest
    rw [List.cons_append] at hafter ⊢
    rw [cutAt?, hafter, ih hlater]
    rfl

/-! ## Elements -/

/-- A value between two tags. There may be blanks around the value and behind the element. -/
structure Element where
  name : String
  value : List Char
  front : List Char
  back : List Char
  behind : List Char
  hname : IsLabel ('/' :: name.toList)
  hvalue : '<' ∉ value
  htrimmed : IsTrimmed value
  hfront : ∀ c ∈ front, isBlank c = true
  hback : ∀ c ∈ back, isBlank c = true
  hbehind : ∀ c ∈ behind, isBlank c = true

namespace Element

/-- What stands between the tags. -/
def inner (e : Element) : List Char :=
  e.front ++ (e.value ++ e.back)

def written (e : Element) : List Char :=
  openTag e.name ++ (e.inner ++ (closeTag e.name ++ e.behind))

/-- Elements in a row. -/
def row (elements : List Element) : List Char :=
  elements.flatMap written

theorem row_append (before after : List Element) :
    row (before ++ after) = row before ++ row after :=
  List.flatMap_append

theorem row_cons (e : Element) (rest : List Element) : row (e :: rest) = e.written ++ row rest :=
  List.flatMap_cons

theorem written_append (e : Element) (rest : List Char) :
    e.written ++ rest = openTag e.name ++ (e.inner ++ (closeTag e.name ++ (e.behind ++ rest))) := by
  simp only [written, List.append_assoc]

end Element

theorem open_not_mem_of_blank (h : ∀ c ∈ text, isBlank c = true) : '<' ∉ text := by
  intro hmem
  have hblank := h _ hmem
  revert hblank
  decide

namespace Element

theorem isLabel_name (e : Element) : IsLabel e.name.toList :=
  e.hname.of_cons

theorem open_not_mem_inner (e : Element) : '<' ∉ e.inner := by
  simp only [inner, List.mem_append, not_or]
  exact ⟨open_not_mem_of_blank e.hfront, e.hvalue, open_not_mem_of_blank e.hback⟩

theorem trim_inner (e : Element) : trim e.inner = e.value :=
  Text.trim_padded e.hfront e.htrimmed e.hback

theorem lacks_row_append {elements : List Element} (hlabel : IsLabel label)
    (h : ∀ e ∈ elements, label ≠ e.name.toList ∧ label ≠ '/' :: e.name.toList)
    (hrest : Lacks label rest) : Lacks label (row elements ++ rest) := by
  induction elements with
  | nil => exact hrest
  | cons e elements ih =>
    rw [List.forall_mem_cons] at h
    rw [row_cons, List.append_assoc, written_append]
    refine .tag_append hlabel e.isLabel_name h.1.1 (.append e.open_not_mem_inner ?_)
    refine .tag_append hlabel e.hname h.1.2 (.append (open_not_mem_of_blank e.hbehind) ?_)
    exact ih h.2

theorem lacks_row {elements : List Element} (hlabel : IsLabel label)
    (h : ∀ e ∈ elements, label ≠ e.name.toList ∧ label ≠ '/' :: e.name.toList) :
    Lacks label (row elements) := by
  rw [← List.append_nil (row elements)]
  exact lacks_row_append hlabel h (lacks_of_not_mem List.not_mem_nil)

end Element

/-! ## Values -/

theorem tagValue?_of_lacks {name : String} (h : Lacks name.toList text) :
    tagValue? name text = none := by
  rw [tagValue?, openTag_eq, cutAt?_of_lacks h]
  rfl

theorem tagValue?_element (e : Element) (h : Lacks e.name.toList before) (rest : List Char) :
    tagValue? e.name (before ++ (e.written ++ rest)) = some e.value := by
  have hopen := cutAt?_tag e.isLabel_name h (e.inner ++ (closeTag e.name ++ (e.behind ++ rest)))
  have hclose := cutAt?_tag e.hname (lacks_of_not_mem e.open_not_mem_inner) (e.behind ++ rest)
  rw [tagValue?, e.written_append, openTag_eq, hopen]
  simp only [Option.bind_eq_bind, Option.bind_some]
  rw [closeTag_eq, hclose]
  simp only [Option.bind_some, Option.pure_def, e.trim_inner]

theorem tagValue?_elements {name : String} {lead : List Char} {elements : List Element}
    (hname : IsLabel name.toList) (hslash : '/' ∉ name.toList)
    (hlead : ∀ c ∈ lead, isBlank c = true) :
    tagValue? name (lead ++ Element.row elements) =
      (elements.find? (·.name == name)).map Element.value := by
  have hlacks : ∀ others : List Element, (∀ e ∈ others, e.name ≠ name) →
      Lacks name.toList (lead ++ Element.row others) := by
    intro others hothers
    refine .append (open_not_mem_of_blank hlead) (Element.lacks_row hname fun e he => ⟨?_, ?_⟩)
    · exact fun heq => hothers e he (String.toList_inj.1 heq.symm)
    · exact fun heq => hslash (heq ▸ List.mem_cons_self)
  cases hfind : elements.find? (·.name == name) with
  | none =>
    rw [List.find?_eq_none] at hfind
    exact tagValue?_of_lacks (hlacks elements (by simpa using hfind))
  | some e =>
    obtain ⟨hfound, front, back, rfl, hfront⟩ := List.find?_eq_some_iff_append.1 hfind
    obtain rfl : e.name = name := by simpa using hfound
    rw [Element.row_append, Element.row_cons, ← List.append_assoc]
    exact tagValue?_element e (hlacks front (by simpa using hfront)) _

end ModuleRig.Metadata
