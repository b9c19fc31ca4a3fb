import Mathlib.Data.List.Basic
import ModuleRig.Cache.Basic
import ModuleRig.Proofs.Json.Printing
import ModuleRig.Proofs.Text.Utf8

/-!
# The text of an index is read back

An index file holds seconds in 64 bits, so an index is read back as long as its times fit. An index
that was read always fits, and so does one that has only taken in times of a 64-bit clock since.
-/

namespace ModuleRig

theorem Json.entries?_ofFields {α : Type} {read : Json → Option α} {write : α → Json}
    {Fits : α → Prop} [DecidablePred Fits]
    (h : ∀ a, read (write a) = if Fits a then some a else none) (entries : List (String × α)) :
    entries? read (ofFields (entries.map fun (key, value) => (key, write value))) =
      if ∀ e ∈ entries, Fits e.2 then some entries else none := by
  unfold ofFields entries?
  dsimp only
  induction entries with
  | nil => simp
  | cons e entries ih =>
    obtain ⟨key, value⟩ := e
    have hall : (∀ e ∈ (key, value) :: entries, Fits e.2) ↔
        Fits value ∧ ∀ e ∈ entries, Fits e.2 := List.forall_mem_cons
    rw [List.map_cons, List.map_cons, List.mapM_cons, ih]
    by_cases hvalue : Fits value
    · by_cases hrest : ∀ e ∈ entries, Fits e.2
      · rw [if_pos hrest, if_pos (hall.2 ⟨hvalue, hrest⟩)]
        simp [h, hvalue]
      · rw [if_neg hrest, if_neg fun hboth => hrest (hall.1 hboth).2]
        simp [h, hvalue]
    · rw [if_neg fun hboth => hvalue (hall.1 hboth).1]
      simp [h, hvalue]

/-- The time of the entry can be read back from an index file. -/
def CacheEntry.Fits (entry : CacheEntry) : Prop :=
  entry.resolvedAt ≤ Text.maxWord64

instance : DecidablePred CacheEntry.Fits :=
  fun entry => inferInstanceAs (Decidable (entry.resolvedAt ≤ Text.maxWord64))

def CacheIndex.Fits (index : CacheIndex) : Prop :=
  ∀ e ∈ index.entries, e.2.Fits

instance : DecidablePred CacheIndex.Fits :=
  fun index => inferInstanceAs (Decidable (∀ e ∈ index.entries, e.2.Fits))

/-! ## Entries -/

namespace CacheEntry

theorem artifact?_toJson (a : Artifact) : artifact? a.toJson = some a := by
  simp [artifact?, Artifact.toJson, Json.ofFields, Json.record?, Json.field?, Json.fieldValues,
    Json.required?, Json.ofText, Json.text?]

theorem word64?_ofNat (n : Nat) :
    Json.word64? (.ofNat n) = if n ≤ Text.maxWord64 then some n else none :=
  rfl

theorem ofJson?_toJson (entry : CacheEntry) :
    ofJson? entry.toJson = if entry.Fits then some entry else none := by
  have hrecord : Json.record? ["artifact", "resolved_at"] entry.toJson =
      some [some entry.artifact.toJson, some (.ofNat entry.resolvedAt)] := by
    simp [toJson, Json.ofFields, Json.record?, Json.field?, Json.fieldValues]
  unfold ofJson? Fits
  rw [hrecord]
  by_cases hfits : entry.resolvedAt ≤ Text.maxWord64
  · simp [Json.required?, artifact?_toJson, word64?_ofNat, hfits]
  · simp [Json.required?, artifact?_toJson, word64?_ofNat, hfits]

theorem le_of_word64? {j : Json} {n : Nat} (h : Json.word64? j = some n) :
    n ≤ Text.maxWord64 := by
  unfold Json.word64? at h
  split at h
  · split at h
    · next hle => exact Option.some.inj h ▸ hle
    · contradiction
  · contradiction

theorem fits_of_ofJson? {j : Json} {entry : CacheEntry} (h : ofJson? j = some entry) :
    entry.Fits := by
  unfold ofJson? at h
  split at h
  · simp only [Option.bind_eq_bind, Option.bind_eq_some_iff, Json.required?] at h
    obtain ⟨artifact, -, resolvedAt, ⟨value, -, hword⟩, hentry⟩ := h
    obtain rfl := Option.some.inj hentry
    exact le_of_word64? hword
  · contradiction

end CacheEntry

/-! ## Indexes -/

theorem insertByKey_append {α : Type} {key : String} {value : α} {entries : List (String × α)}
    (h : ∀ e ∈ entries, e.1 < key) : insertByKey key value entries = entries ++ [(key, value)] := by
  induction entries with
  | nil => rfl
  | cons e entries ih =>
    obtain ⟨k, v⟩ := e
    have hlt : k < key := h (k, v) List.mem_cons_self
    have hne : ¬ key = k := by
      rintro rfl
      exact String.lt_irrefl _ hlt
    have hnlt : ¬ key < k := fun hgt => String.lt_irrefl _ (String.lt_trans hlt hgt)
    rw [insertByKey, if_neg hne, if_neg hnlt, ih fun e he => h e (List.mem_cons_of_mem _ he)]
    rfl

namespace CacheIndex

theorem eq_of_entries_eq {index index' : CacheIndex} (h : index.entries = index'.entries) :
    index = index' := by
  cases index
  cases index'
  simp only at h
  subst h
  rfl

theorem entries_foldl_insert (start : CacheIndex) (more : List (String × CacheEntry))
    (h : Ascending (start.entries ++ more)) :
    (more.foldl (fun index (key, entry) => index.insert key entry) start).entries =
      start.entries ++ more := by
  induction more generalizing start with
  | nil => simp
  | cons e more ih =>
    obtain ⟨key, entry⟩ := e
    have hbelow : ∀ e ∈ start.entries, e.1 < key := fun e he =>
      (List.pairwise_append.1 h).2.2 e he (key, entry) List.mem_cons_self
    have hinsert : (start.insert key entry).entries = start.entries ++ [(key, entry)] :=
      insertByKey_append hbelow
    rw [List.foldl_cons, ih]
    · rw [hinsert, List.append_assoc]
      rfl
    · rw [hinsert, List.append_assoc]
      exact h

theorem ofList_entries (index : CacheIndex) : ofList index.entries = index :=
  eq_of_entries_eq (entries_foldl_insert .empty index.entries index.ascending)

theorem record?_singleton (name : String) (j : Json) :
    Json.record? [name] (.ofFields [(name, j)]) = some [some j] := by
  simp [Json.ofFields, Json.record?, Json.field?, Json.fieldValues]

theorem ofJson?_toJson (index : CacheIndex) :
    ofJson? index.toJson = if index.Fits then some index else none := by
  have hentries := Json.entries?_ofFields CacheEntry.ofJson?_toJson index.entries
  unfold ofJson? toJson
  rw [record?_singleton]
  simp only [Json.required?, Option.bind_some, hentries]
  by_cases hfits : index.Fits
  · have hall : ∀ e ∈ index.entries, e.2.Fits := hfits
    rw [if_pos hall, if_pos hfits, Option.map_some, ofList_entries]
  · have hnot : ¬ ∀ e ∈ index.entries, e.2.Fits := hfits
    rw [if_neg hnot, if_neg hfits, Option.map_none]

theorem isExact_toJson (index : CacheIndex) : index.toJson.IsExact := by
  have hartifact : ∀ a : Artifact, a.toJson.IsExact := by
    intro a
    refine Json.isExact_ofFields fun f hf => ?_
    simp only [List.mem_cons, List.not_mem_nil, or_false] at hf
    rcases hf with rfl | rfl | rfl | rfl | rfl
    all_goals exact Json.isExact_ofText _
  have hentry : ∀ entry : CacheEntry, entry.toJson.IsExact := by
    intro entry
    refine Json.isExact_ofFields fun f hf => ?_
    simp only [List.mem_cons, List.not_mem_nil, or_false] at hf
    rcases hf with rfl | rfl
    · exact hartifact entry.artifact
    · exact Json.isExact_ofNat entry.resolvedAt
  refine Json.isExact_ofFields fun f hf => ?_
  rw [List.mem_singleton] at hf
  subst hf
  refine Json.isExact_ofFields fun f hf => ?_
  obtain ⟨⟨key, entry⟩, -, rfl⟩ := List.mem_map.1 hf
  exact hentry entry

theorem read?_text (index : CacheIndex) :
    read? index.text = if index.Fits then some index else none := by
  rw [read?, text, Json.read?_pretty index.isExact_toJson, Option.bind_some, ofJson?_toJson]

/-! ## What is read fits -/

theorem fits_empty : empty.Fits := by
  intro e he
  contradiction

theorem Fits.insert {index : CacheIndex} (h : index.Fits) {entry : CacheEntry} (hentry : entry.Fits)
    (key : String) : (index.insert key entry).Fits := by
  intro e he
  rcases mem_insertByKey he with rfl | he
  · exact hentry
  · exact h e he

theorem fits_ofList {entries : List (String × CacheEntry)} (h : ∀ e ∈ entries, e.2.Fits) :
    (ofList entries).Fits := by
  suffices hall : ∀ index : CacheIndex, index.Fits →
      (entries.foldl (fun index (key, entry) => index.insert key entry) index).Fits from
    hall .empty fits_empty
  induction entries with
  | nil => exact fun index hindex => hindex
  | cons e entries ih =>
    intro index hindex
    obtain ⟨hentry, hrest⟩ := List.forall_mem_cons.1 h
    exact ih hrest _ (hindex.insert hentry e.1)

theorem fits_of_entries? {j : Json} {entries : List (String × CacheEntry)}
    (h : Json.entries? CacheEntry.ofJson? j = some entries) : ∀ e ∈ entries, e.2.Fits := by
  unfold Json.entries? at h
  split at h
  · next fields =>
    induction fields generalizing entries with
    | nil =>
      obtain rfl := Option.some.inj h
      intro e he
      contradiction
    | cons field fields ih =>
      rw [List.mapM_cons] at h
      simp only [Option.bind_eq_bind, Option.bind_eq_some_iff, Option.pure_def] at h
      obtain ⟨_, ⟨key, -, entry, hentry, ⟨⟩⟩, rest, hrest, ⟨⟩⟩ := h
      exact List.forall_mem_cons.2 ⟨CacheEntry.fits_of_ofJson? hentry, ih hrest⟩
  · contradiction

theorem fits_of_read? {text : String} {index : CacheIndex} (h : read? text = some index) :
    index.Fits := by
  obtain ⟨j, -, hindex⟩ := Option.bind_eq_some_iff.1 h
  unfold ofJson? at hindex
  split at hindex
  · obtain ⟨entries, hentries, rfl⟩ := Option.map_eq_some_iff.1 hindex
    obtain ⟨value, -, hvalue⟩ := Option.bind_eq_some_iff.1 hentries
    exact fits_ofList (fits_of_entries? hvalue)
  · contradiction

end CacheIndex

/-! ## Index files -/

namespace Cache

variable {files : FileTree} {file : Path}

/-- The index file reads the same in both trees, or in neither. -/
def SameFile (dir : Path) (files files' : FileTree) : Prop :=
  (files'.read (dir.child fileName)).toOption = (files.read (dir.child fileName)).toOption

theorem readIndex_congr {files' : FileTree}
    (h : (files'.read file).toOption = (files.read file).toOption) :
    readIndex files' file = readIndex files file := by
  unfold readIndex FileTree.readText
  cases hread : files.read file with
  | error e =>
    cases hread' : files'.read file with
    | error e' => rfl
    | ok content =>
      rw [hread, hread'] at h
      contradiction
  | ok content =>
    cases hread' : files'.read file with
    | error e' =>
      rw [hread, hread'] at h
      contradiction
    | ok content' =>
      rw [hread, hread'] at h
      rw [show content' = content from Option.some.inj h]

theorem SameFile.load_eq {files' : FileTree} {dir : Path} (h : SameFile dir files files') :
    load files' dir = load files dir := by
  simp only [load, readIndex_congr h]

theorem readText_of_read {text : String} (h : files.read file = .ok (Text.Utf8.ofText text)) :
    files.readText file = .ok text := by
  unfold FileTree.readText
  simp only [h, bind, Except.bind, Text.Utf8.text?_ofText]
  rfl

theorem readIndex_of_text {index : CacheIndex}
    (h : files.read file = .ok (Text.Utf8.ofText index.text)) :
    readIndex files file = if index.Fits then index else .empty := by
  rw [readIndex, readText_of_read h]
  dsimp only
  rw [CacheIndex.read?_text]
  split <;> rfl

theorem fits_readIndex (files : FileTree) (file : Path) : (readIndex files file).Fits := by
  unfold readIndex
  split
  · next text _ =>
    cases hindex : CacheIndex.read? text with
    | none => exact CacheIndex.fits_empty
    | some index => exact CacheIndex.fits_of_read? hindex
  · exact CacheIndex.fits_empty

end Cache

end ModuleRig
