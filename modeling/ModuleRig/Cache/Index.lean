import ModuleRig.Cache.Entry
import ModuleRig.Json.Printer

/-!
# The index of remembered resolutions

Entries by key, in the order of their keys. The order is part of the type, so that one set of
entries has one list and one text. `get?_insert_self` and `get?_insert_ne` say what an insertion
changes.
-/

namespace ModuleRig

/-- Puts an entry where its key belongs. An entry of the same key is replaced. -/
def insertByKey {α : Type} (key : String) (value : α) : List (String × α) → List (String × α)
  | [] => [(key, value)]
  | (k, v) :: rest =>
    if key = k then (key, value) :: rest
    else if key < k then (key, value) :: (k, v) :: rest
    else (k, v) :: insertByKey key value rest

/-- The keys grow from entry to entry. -/
def Ascending {α : Type} (entries : List (String × α)) : Prop :=
  entries.Pairwise fun a b => a.1 < b.1

theorem mem_insertByKey {α : Type} {key : String} {value : α} {entries : List (String × α)}
    {e : String × α} (h : e ∈ insertByKey key value entries) : e = (key, value) ∨ e ∈ entries := by
  induction entries with
  | nil => simpa [insertByKey] using h
  | cons head rest ih =>
    obtain ⟨k, v⟩ := head
    simp only [insertByKey] at h
    split at h
    · simp only [List.mem_cons] at h ⊢
      rcases h with h | h
      · exact .inl h
      · exact .inr (.inr h)
    · split at h
      · simpa using h
      · simp only [List.mem_cons] at h ⊢
        rcases h with h | h
        · exact .inr (.inl h)
        · rcases ih h with h | h
          · exact .inl h
          · exact .inr (.inr h)

theorem ascending_insertByKey {α : Type} {key : String} {value : α} {entries : List (String × α)}
    (h : Ascending entries) : Ascending (insertByKey key value entries) := by
  induction entries with
  | nil => simp [insertByKey, Ascending]
  | cons head rest ih =>
    obtain ⟨k, v⟩ := head
    have hrest : Ascending rest := (List.pairwise_cons.1 h).2
    have hfirst := (List.pairwise_cons.1 h).1
    simp only [insertByKey]
    split
    · next e => subst e; exact List.pairwise_cons.2 ⟨hfirst, hrest⟩
    · split
      · next lt =>
        refine List.pairwise_cons.2 ⟨fun e he => ?_, h⟩
        rcases List.mem_cons.1 he with rfl | he
        · exact lt
        · exact String.lt_trans lt (hfirst e he)
      · next ne nlt =>
        have lt : k < key := by
          have hle : k ≤ key := String.not_lt.1 nlt
          rcases Decidable.em (k < key) with h | h
          · exact h
          · exact absurd (String.le_antisymm (String.not_lt.1 h) hle) ne
        refine List.pairwise_cons.2 ⟨fun e he => ?_, ih hrest⟩
        rcases mem_insertByKey he with rfl | he
        · exact lt
        · exact hfirst e he

structure CacheIndex where
  entries : List (String × CacheEntry)
  ascending : Ascending entries

namespace CacheIndex

def empty : CacheIndex := ⟨[], .nil⟩

def get? (index : CacheIndex) (key : String) : Option CacheEntry :=
  index.entries.lookup key

def insert (index : CacheIndex) (key : String) (entry : CacheEntry) : CacheIndex :=
  ⟨insertByKey key entry index.entries, ascending_insertByKey index.ascending⟩

def size (index : CacheIndex) : Nat :=
  index.entries.length

/-- The index of entries in any order. Of two with one key the later counts. -/
def ofList (entries : List (String × CacheEntry)) : CacheIndex :=
  entries.foldl (fun index (key, entry) => index.insert key entry) .empty

def toJson (index : CacheIndex) : Json :=
  .ofFields [("entries", .ofFields (index.entries.map fun (key, entry) => (key, entry.toJson)))]

def text (index : CacheIndex) : String :=
  index.toJson.pretty

def ofJson? (j : Json) : Option CacheIndex :=
  match Json.record? ["entries"] j with
  | some [entries] => (Json.required? (Json.entries? CacheEntry.ofJson?) entries).map ofList
  | _ => none

def read? (text : String) : Option CacheIndex :=
  (Json.read? text).bind ofJson?

theorem lookup_cons_eq_ite {α : Type} (key k : String) (value : α) (entries : List (String × α)) :
    ((key, value) :: entries).lookup k = if k = key then some value else entries.lookup k := by
  by_cases h : k = key
  · simp [h]
  · have : (k == key) = false := by simpa using h
    simp [List.lookup_cons, h, this]

theorem lookup_insertByKey {α : Type} (key k : String) (value : α)
    (entries : List (String × α)) :
    (insertByKey key value entries).lookup k =
      if k = key then some value else entries.lookup k := by
  induction entries with
  | nil => simp [insertByKey, lookup_cons_eq_ite]
  | cons head rest ih =>
    obtain ⟨k', v⟩ := head
    simp only [insertByKey]
    split
    · next e => subst e; by_cases h : k = key <;> simp [lookup_cons_eq_ite, h]
    · next ne =>
      split
      · simp [lookup_cons_eq_ite]
      · simp only [lookup_cons_eq_ite, ih]
        by_cases h : k = k'
        · subst h; simp [Ne.symm ne]
        · simp [h]

theorem get?_insert_self (index : CacheIndex) (key : String) (entry : CacheEntry) :
    (index.insert key entry).get? key = some entry := by
  simp [get?, insert, lookup_insertByKey]

theorem get?_insert_ne (index : CacheIndex) {key k : String} (entry : CacheEntry) (h : k ≠ key) :
    (index.insert key entry).get? k = index.get? k := by
  simp [get?, insert, lookup_insertByKey, h]

end CacheIndex

end ModuleRig
