import Mathlib.Data.List.Find
import Mathlib.Data.List.Nodup
import ModuleRig.Proofs.Repository.Elements

/-!
# What a metadata document is read as

A repository writes the versions of an artifact as elements in a block, and the files of a snapshot
as blocks of elements. Both are read back whatever stands around the blocks: `versions_document` and
`snapshotJarVersion?_document`.
-/

namespace ModuleRig.Metadata

open Text (after? after?_append cutAt? dropWhile_run isBlank stopsAt_append stopsAt_cons
  takeWhile_run StopsAt)

/-! ## Versions -/

/-- An element that tells a version: a word of any characters but the bracket that ends it. -/
structure Element.TellsVersion (e : Element) : Prop where
  name : e.name = "version"
  nonempty : e.value ≠ []
  word : ∀ c ∈ e.value, isBlank c = false

variable {before lead rest : List Char}

theorem isBlank_of_isValueChar {c : Char} (h : isValueChar c = true) : isBlank c = false := by
  simpa using (Bool.and_eq_true_iff.1 h).2

theorem versionHere?_of_ne {c : Char} (h : c ≠ '<') (text : List Char) :
    versionHere? (c :: text) = none := by
  have hafter : after? (openTag "version") (c :: text) = none := if_neg (Ne.symm h)
  rw [versionHere?, hafter]
  rfl

theorem versionElements_append (h : '<' ∉ before) (rest : List Char) :
    versionElements (before ++ rest) = versionElements rest := by
  induction before with
  | nil => rfl
  | cons c before ih =>
    rw [List.mem_cons, not_or] at h
    rw [List.cons_append, versionElements, versionHere?_of_ne (Ne.symm h.1), ih h.2]

theorem versionElements_closeTag (rest : List Char) :
    versionElements (closeTag "version" ++ rest) = versionElements rest := by
  have hhere : versionHere? (closeTag "version" ++ rest) = none := rfl
  have hlabel : IsLabel ('/' :: "version".toList) := by decide
  rw [← versionElements_append hlabel.not_mem_tail rest]
  rw [closeTag_eq, tag, List.cons_append] at hhere ⊢
  rw [versionElements, hhere]

/-- The value ends where it should: blanks or a bracket follow it. -/
theorem Element.stopsAt_value (e : Element) (rest : List Char) :
    StopsAt isValueChar (e.back ++ (closeTag "version" ++ rest)) := by
  cases hback : e.back with
  | nil => exact stopsAt_cons.2 (by decide)
  | cons c back =>
    have hblank : isBlank c = true := e.hback c (hback ▸ List.mem_cons_self)
    exact stopsAt_cons.2 (by simp [isValueChar, hblank])

namespace Element.TellsVersion

variable {e : Element}

theorem versionHere?_written (h : e.TellsVersion) (rest : List Char) :
    versionHere? (e.written ++ rest) = some (String.ofList e.value) := by
  have hvalue : ∀ c ∈ e.value, isValueChar c = true := by
    intro c hc
    have hbracket : c ≠ '<' := fun heq => e.hvalue (heq ▸ hc)
    simp [isValueChar, hbracket, h.word c hc]
  have hopen : after? (openTag "version") (e.written ++ rest) =
      some (e.inner ++ (closeTag "version" ++ (e.behind ++ rest))) := by
    rw [e.written_append, h.name]
    exact after?_append _ _
  have hclose := after?_append (closeTag "version") (e.behind ++ rest)
  have hstop := e.stopsAt_value (e.behind ++ rest)
  have hbracket : StopsAt isBlank (closeTag "version" ++ (e.behind ++ rest)) :=
    stopsAt_cons.2 (by decide)
  generalize closeTag "version" ++ (e.behind ++ rest) = behind at hopen hclose hstop hbracket
  have hfront : (e.inner ++ behind).dropWhile isBlank = e.value ++ (e.back ++ behind) := by
    rw [Element.inner, List.append_assoc, List.append_assoc]
    exact dropWhile_run e.hfront (stopsAt_append h.nonempty h.word)
  unfold versionHere?
  simp only [hopen, hfront, takeWhile_run hvalue hstop, dropWhile_run hvalue hstop,
    dropWhile_run e.hback hbracket, hclose, Option.bind_eq_bind, Option.bind_some,
    List.isEmpty_iff, if_neg h.nonempty]

theorem versionElements_written (h : e.TellsVersion) (rest : List Char) :
    versionElements (e.written ++ rest) = String.ofList e.value :: versionElements rest := by
  have hhere := h.versionHere?_written rest
  have hlater : versionElements (e.name.toList ++ ['>'] ++ (e.inner ++
      (closeTag e.name ++ (e.behind ++ rest)))) = versionElements rest := by
    rw [versionElements_append e.isLabel_name.not_mem_tail,
      versionElements_append e.open_not_mem_inner, h.name, versionElements_closeTag,
      versionElements_append (open_not_mem_of_blank e.hbehind)]
  rw [e.written_append, openTag_eq, tag, List.cons_append] at hhere ⊢
  rw [versionElements, hhere]
  exact congrArg _ hlater

end Element.TellsVersion

theorem versionElements_row {elements : List Element} (h : ∀ e ∈ elements, e.TellsVersion) :
    versionElements (Element.row elements) = elements.map fun e => String.ofList e.value := by
  induction elements with
  | nil => rfl
  | cons e elements ih =>
    rw [List.forall_mem_cons] at h
    rw [Element.row_cons, h.1.versionElements_written, ih h.2, List.map_cons]

/-- The block of versions in a document. -/
def versionDocument (before lead : List Char) (elements : List Element) (after : List Char) :
    List Char :=
  before ++ (openTag "versions" ++
    (lead ++ (Element.row elements ++ (closeTag "versions" ++ after))))

theorem versionBlock_document (hbefore : ¬ openTag "versions" <:+: before)
    (hlead : ∀ c ∈ lead, isBlank c = true) {elements : List Element}
    (helements : ∀ e ∈ elements, e.TellsVersion) (after : List Char) :
    versionBlock (versionDocument before lead elements after) = lead ++ Element.row elements := by
  have hlacks : Lacks ('/' :: "versions".toList) (lead ++ Element.row elements) := by
    refine .append (open_not_mem_of_blank hlead) (Element.lacks_row (by decide) fun e he => ?_)
    rw [(helements e he).name]
    decide
  have hopen := cutAt?_tag (by decide) hbefore
    (lead ++ (Element.row elements ++ (closeTag "versions" ++ after)))
  have hclose := cutAt?_tag (by decide) hlacks after
  rw [versionBlock, versionDocument, openTag_eq, hopen]
  dsimp only
  rw [← List.append_assoc, closeTag_eq, hclose]

/-- The versions are those of the elements in the first block of versions. Elements that stand
before the block or behind it tell nothing. -/
theorem versions_document {before lead : List Char} {elements : List Element}
    (hbefore : ¬ openTag "versions" <:+: before) (hlead : ∀ c ∈ lead, isBlank c = true)
    (helements : ∀ e ∈ elements, e.TellsVersion) (after : List Char) :
    versions (String.ofList (versionDocument before lead elements after)) =
      elements.map fun e => String.ofList e.value := by
  rw [versions, String.toList_ofList, versionBlock_document hbefore hlead helements,
    versionElements_append (open_not_mem_of_blank hlead), versionElements_row helements]

/-- A word with blanks around it. -/
def Element.padded (name : String) (word : List Char) (hname : IsLabel ('/' :: name.toList))
    (hword : word.all isValueChar = true) : Element where
  name := name
  value := word
  front := [' ', '\u2003']
  back := ['\n']
  behind := ['\t', '\n']
  hname := hname
  hvalue := fun hmem => absurd (List.all_eq_true.1 hword _ hmem) (by decide)
  htrimmed := Text.isTrimmed_of_word fun c hc =>
    isBlank_of_isValueChar (List.all_eq_true.1 hword c hc)
  hfront := List.all_eq_true.1 rfl
  hback := List.all_eq_true.1 rfl
  hbehind := List.all_eq_true.1 rfl

theorem Element.tellsVersion_padded {word : List Char} (hne : word ≠ [])
    (hname : IsLabel ('/' :: "version".toList)) (hword : word.all isValueChar = true) :
    (Element.padded "version" word hname hword).TellsVersion where
  name := rfl
  nonempty := hne
  word := fun c hc => isBlank_of_isValueChar (List.all_eq_true.1 hword c hc)

/-- The same version twice, and another one between. -/
def sampleVersions : List Element :=
  [.padded "version" ['2', '>', '/'] (by decide) (by decide),
    .padded "version" ['1', '.', '0'] (by decide) (by decide),
    .padded "version" ['2', '>', '/'] (by decide) (by decide)]

/-- A version outside the block. -/
def strayVersions : List Element :=
  [.padded "version" ['7'] (by decide) (by decide)]

theorem versions_document_of_strays :
    ¬ openTag "versions" <:+: Element.row strayVersions ++ closeTag "versions" ∧
      (∀ c ∈ [' '], isBlank c = true) ∧ (∀ e ∈ sampleVersions, e.TellsVersion) ∧
      versions (String.ofList (versionDocument (Element.row strayVersions ++ closeTag "versions")
        [' '] sampleVersions (openTag "versions" ++ Element.row strayVersions))) =
          ["2>/", "1.0", "2>/"] := by
  have hbefore : Lacks "versions".toList (Element.row strayVersions ++ closeTag "versions") := by
    refine Element.lacks_row_append (by decide) ?_ ?_
    · intro e he
      obtain rfl := List.mem_singleton.1 he
      exact ⟨by decide, by decide⟩
    · exact lacks_tag (by decide) (by decide) (by decide)
  have hlead : ∀ c ∈ [' '], isBlank c = true := List.all_eq_true.1 rfl
  have hversions : ∀ e ∈ sampleVersions, e.TellsVersion := by
    simp [sampleVersions, Element.tellsVersion_padded]
  exact ⟨hbefore, hlead, hversions, versions_document hbefore hlead hversions _⟩

/-! ## Snapshots -/

/-- What is told of a file of a snapshot, in the order in which the fields are named here. -/
def fileFields (extension value : List Char) (classifier : Option (List Char)) :
    List (String × List Char) :=
  ("extension", extension) :: ("value", value) :: (classifier.map ("classifier", ·)).toList

theorem fileFields_names (extension value : List Char) (classifier : Option (List Char)) :
    ((fileFields extension value classifier).map Prod.fst).Sublist
      ["extension", "value", "classifier"] := by
  cases classifier with
  | none => exact (by decide : ["extension", "value"].Sublist ["extension", "value", "classifier"])
  | some _ => exact .refl _

/-- A file of a snapshot: an element for each field, in any order. -/
structure SnapshotFile where
  extension : List Char
  value : List Char
  classifier : Option (List Char)
  lead : List Char
  elements : List Element
  hlead : ∀ c ∈ lead, isBlank c = true
  helements : (elements.map fun e => (e.name, e.value)).Perm
    (fileFields extension value classifier)

namespace SnapshotFile

def written (file : SnapshotFile) : List Char :=
  file.lead ++ Element.row file.elements

def IsPlainJar (file : SnapshotFile) : Prop :=
  file.extension = ['j', 'a', 'r'] ∧ file.classifier = none

instance (file : SnapshotFile) : Decidable file.IsPlainJar :=
  inferInstanceAs (Decidable (_ ∧ _))

variable (file : SnapshotFile)

/-- No field is told twice, so the order of the elements does not matter. -/
theorem find?_elements (name : String) :
    (file.elements.find? (·.name == name)).map Element.value =
      ((fileFields file.extension file.value file.classifier).find? (·.1 == name)).map
        Prod.snd := by
  have hnodup := (fileFields_names file.extension file.value file.classifier).nodup (by decide)
  rw [List.find?_eq_find?_of_perm file.helements.symm, List.find?_map, Option.map_map]
  · rfl
  · rintro field ⟨hfield, hname⟩ other ⟨hother, hsame⟩
    rw [beq_iff_eq] at hname hsame
    exact List.inj_on_of_nodup_map hnodup hfield hother (hname.trans hsame.symm)

theorem tagValue?_written {name : String} (hname : IsLabel name.toList)
    (hslash : '/' ∉ name.toList) :
    tagValue? name file.written =
      ((fileFields file.extension file.value file.classifier).find? (·.1 == name)).map
        Prod.snd := by
  rw [written, tagValue?_elements hname hslash file.hlead, file.find?_elements]

theorem plainJarValue?_written :
    plainJarValue? file.written = if file.IsPlainJar then some file.value else none := by
  have hextension : tagValue? "extension" file.written = some file.extension :=
    file.tagValue?_written (by decide) (by decide)
  have hvalue : tagValue? "value" file.written = some file.value :=
    file.tagValue?_written (by decide) (by decide)
  have hclassifier : tagValue? "classifier" file.written = file.classifier := by
    rw [file.tagValue?_written (by decide) (by decide)]
    cases file.classifier <;> rfl
  rw [plainJarValue?, hextension, hvalue, hclassifier]
  exact if_congr (and_congr_left' Option.some_inj) rfl rfl

theorem findSome?_plainJarValue? (files : List SnapshotFile) :
    (files.map written).findSome? plainJarValue? =
      (files.find? fun file => file.IsPlainJar).map value := by
  induction files with
  | nil => rfl
  | cons file files ih =>
    rw [List.map_cons, List.findSome?_cons, List.find?_cons, plainJarValue?_written]
    by_cases hplain : file.IsPlainJar
    · simp [hplain]
    · simp [hplain, ih]

theorem name_mem {e : Element} (h : e ∈ file.elements) :
    e.name ∈ ["extension", "value", "classifier"] := by
  have hfield : (e.name, e.value) ∈ fileFields file.extension file.value file.classifier :=
    file.helements.subset (List.mem_map.2 ⟨e, h, rfl⟩)
  exact (fileFields_names _ _ _).subset (List.mem_map.2 ⟨_, hfield, rfl⟩)

theorem lacks_row {label : List Char} (hlabel : IsLabel label)
    (h : ∀ name ∈ ["extension", "value", "classifier"],
      label ≠ name.toList ∧ label ≠ '/' :: name.toList) :
    Lacks label (Element.row file.elements) :=
  Element.lacks_row hlabel fun e he => h e.name (file.name_mem he)

theorem lacks_written : Lacks ('/' :: "snapshotVersion".toList) file.written :=
  .append (open_not_mem_of_blank file.hlead) (file.lacks_row (by decide) (by decide))

end SnapshotFile

/-- The blocks without the proofs that the rest gets shorter. -/
theorem blocks_eq (name : String) (text : List Char) :
    blocks name text =
      match cutAt? (openTag name) text with
      | none => []
      | some (_, inner) =>
        match cutAt? (closeTag name) inner with
        | none => []
        | some (block, rest) => block :: blocks name rest := by
  rw [blocks]
  split
  · next hopen => rw [hopen]
  · next hopen =>
    rw [hopen]
    dsimp only
    split
    · next hclose => rw [hclose]
    · next hclose => rw [hclose]

theorem blocks_of_lacks {name : String} (h : Lacks name.toList text) : blocks name text = [] := by
  rw [blocks_eq, openTag_eq, cutAt?_of_lacks h]

theorem blocks_append {name : String} (hname : IsLabel ('/' :: name.toList))
    (hbefore : Lacks name.toList before) {block : List Char}
    (hblock : Lacks ('/' :: name.toList) block) (rest : List Char) :
    blocks name (before ++ (openTag name ++ (block ++ (closeTag name ++ rest)))) =
      block :: blocks name rest := by
  have hopen := cutAt?_tag hname.of_cons hbefore (block ++ (closeTag name ++ rest))
  have hclose := cutAt?_tag hname hblock rest
  rw [blocks_eq, openTag_eq, hopen]
  dsimp only
  rw [closeTag_eq, hclose]

/-- The files of a snapshot in a document, each with the text behind it. -/
def snapshotDocument (before : List Char) (files : List (SnapshotFile × List Char)) : List Char :=
  before ++ files.flatMap fun (file, behind) =>
    openTag "snapshotVersion" ++ (file.written ++ (closeTag "snapshotVersion" ++ behind))

theorem blocks_snapshotDocument {files : List (SnapshotFile × List Char)}
    (hbefore : Lacks "snapshotVersion".toList before)
    (hbehind : ∀ entry ∈ files, Lacks "snapshotVersion".toList entry.2) :
    blocks "snapshotVersion" (snapshotDocument before files) =
      (files.map Prod.fst).map SnapshotFile.written := by
  induction files generalizing before with
  | nil =>
    rw [snapshotDocument, List.flatMap_nil, List.append_nil, blocks_of_lacks hbefore]
    rfl
  | cons entry files ih =>
    rw [List.forall_mem_cons] at hbehind
    have hlater := ih hbehind.1 hbehind.2
    rw [snapshotDocument] at hlater ⊢
    simp only [List.flatMap_cons, List.append_assoc]
    rw [blocks_append (by decide) hbefore entry.1.lacks_written, hlater, List.map_cons,
      List.map_cons]

/-- The version of a snapshot is that of the first file that is a plain jar. Closing tags between
the files do no harm. -/
theorem snapshotJarVersion?_document {before : List Char} {files : List (SnapshotFile × List Char)}
    (hbefore : ¬ openTag "snapshotVersion" <:+: before)
    (hbehind : ∀ entry ∈ files, ¬ openTag "snapshotVersion" <:+: entry.2) :
    snapshotJarVersion? (String.ofList (snapshotDocument before files)) =
      ((files.map Prod.fst).find? fun file => file.IsPlainJar).map fun file =>
        String.ofList file.value := by
  rw [snapshotJarVersion?, String.toList_ofList, blocks_snapshotDocument hbefore hbehind,
    SnapshotFile.findSome?_plainJarValue?, Option.map_map]
  rfl

def sampleSources : SnapshotFile :=
  ⟨['j', 'a', 'r'], ['1'], some ['s', 'r', 'c'], ['\n'],
    [.padded "classifier" ['s', 'r', 'c'] (by decide) (by decide),
      .padded "extension" ['j', 'a', 'r'] (by decide) (by decide),
      .padded "value" ['1'] (by decide) (by decide)], List.all_eq_true.1 rfl, by decide⟩

def samplePom : SnapshotFile :=
  ⟨['p', 'o', 'm'], ['2'], none, ['\n'],
    [.padded "extension" ['p', 'o', 'm'] (by decide) (by decide),
      .padded "value" ['2'] (by decide) (by decide)], List.all_eq_true.1 rfl, by decide⟩

def sampleJar : SnapshotFile :=
  ⟨['j', 'a', 'r'], ['3', '>'], none, ['\n'],
    [.padded "value" ['3', '>'] (by decide) (by decide),
      .padded "extension" ['j', 'a', 'r'] (by decide) (by decide)], List.all_eq_true.1 rfl,
    by decide⟩

theorem snapshotJarVersion?_document_of_others :
    let files := [(sampleSources, ['x']), (samplePom, closeTag "snapshotVersion"),
      (sampleJar, ['\n'])]
    ¬ openTag "snapshotVersion" <:+: Element.row sampleSources.elements ∧
      (∀ entry ∈ files, ¬ openTag "snapshotVersion" <:+: entry.2) ∧
      snapshotJarVersion? (String.ofList
        (snapshotDocument (Element.row sampleSources.elements) files)) = some "3>" := by
  intro files
  have hbefore : Lacks "snapshotVersion".toList (Element.row sampleSources.elements) :=
    sampleSources.lacks_row (by decide) (by decide)
  have hend : Lacks "snapshotVersion".toList (closeTag "snapshotVersion") :=
    lacks_tag (by decide) (by decide) (by decide)
  have hbehind : ∀ entry ∈ files, ¬ openTag "snapshotVersion" <:+: entry.2 := by
    simp only [files, List.forall_mem_cons]
    exact ⟨lacks_of_not_mem (by decide), hend, lacks_of_not_mem (by decide), by simp⟩
  exact ⟨hbefore, hbehind, snapshotJarVersion?_document hbefore hbehind⟩

end ModuleRig.Metadata
