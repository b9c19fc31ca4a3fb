import Mathlib.Data.List.Chain
import ModuleRig.Proofs.Json.Printing

/-!
# A value that was written without blanks is read back

A compact text has nothing between its tokens. Words and numbers are told apart from what follows
all the same, since no two of them are neighbours: there is always a mark or a string between.
-/

namespace ModuleRig.Json

/-- The token goes on with any word or number that follows it. -/
def Token.isOpenEnded : Token → Bool
  | .null | .bool _ | .number _ => true
  | _ => false

/-- Of two neighbours, one ends or begins by itself. -/
def Apart (ts : List Token) : Prop :=
  ts.IsChain fun t u => t.isOpenEnded = false ∨ u.isOpenEnded = false

variable {t : Token} {ts us : List Token}

theorem apart_single (t : Token) : Apart [t] :=
  .singleton t

theorem Apart.append (ht : t.isOpenEnded = false) (h : Apart ts) (h' : Apart us) :
    Apart (ts ++ t :: us) := by
  unfold Apart at h h' ⊢
  simp [List.isChain_append, List.isChain_cons, h, h', ht]

mutual

theorem apart_tokens (j : Json) : Apart (tokens j) := by
  match j with
  | .null => exact apart_single .null
  | .bool b => exact apart_single (.bool b)
  | .number n => exact apart_single (.number n)
  | .string s => exact apart_single (.string s)
  | .array items => exact .append rfl .nil (apart_items items)
  | .object fields => exact .append rfl .nil (apart_fields fields)

theorem apart_items (items : List Json) : Apart (tokensOfItems items) := by
  match items with
  | [] => exact apart_single .closeArray
  | [item] => exact (apart_tokens item).append rfl .nil
  | item :: next :: items => exact (apart_tokens item).append rfl (apart_items (next :: items))

theorem apart_fields (fields : List (Option String × Json)) : Apart (tokensOfFields fields) := by
  match fields with
  | [] => exact apart_single .closeObject
  | [(key, value)] =>
    exact (apart_single (.string key)).append rfl ((apart_tokens value).append rfl .nil)
  | (key, value) :: next :: fields =>
    exact (apart_single (.string key)).append rfl
      ((apart_tokens value).append rfl (apart_fields (next :: fields)))

end

/-! ## Scanning -/

theorem scanFrom_spell_closed (ht : t.isOpenEnded = false) (rest : List Char) :
    scanFrom .between (spell t ++ rest) = (scanFrom .between rest).map (t :: ·) := by
  cases t with
  | openArray => exact scanFrom_mark rest rfl rfl
  | closeArray => exact scanFrom_mark rest rfl rfl
  | openObject => exact scanFrom_mark rest rfl rfl
  | closeObject => exact scanFrom_mark rest rfl rfl
  | comma => exact scanFrom_mark rest rfl rfl
  | colon => exact scanFrom_mark rest rfl rfl
  | string text => exact scanFrom_spellString text rest
  | null | bool value | number n => contradiction

theorem delimited_spell (ht : t.isOpenEnded = false) (rest : List Char) :
    Delimited (spell t ++ rest) := by
  have hquote (cs : List Char) : Delimited ('"' :: cs) := delimited_cons (by decide) (by decide)
  cases t with
  | string text => cases text <;> exact hquote _
  | null | bool value | number n => contradiction
  | _ => exact delimited_cons (by decide) (by decide)

theorem scan_flatMap_spell (happart : Apart ts) (hexact : ∀ t ∈ ts, t.IsExact) :
    scan (ts.flatMap spell) = some ts := by
  unfold scan
  induction ts with
  | nil => rfl
  | cons t ts ih =>
    obtain ⟨hnext, hrest⟩ := List.isChain_cons.1 happart
    have hscan := ih hrest fun u hu => hexact u (List.mem_cons_of_mem t hu)
    have ht := hexact t List.mem_cons_self
    rw [List.flatMap_cons]
    by_cases hopen : t.isOpenEnded = false
    · rw [scanFrom_spell_closed hopen, hscan, Option.map_some]
    · have hdelimited : Delimited (ts.flatMap spell) := by
        match ts with
        | [] => exact delimited_nil
        | u :: ts => exact delimited_spell ((hnext u rfl).resolve_left hopen) _
      rw [scanFrom_spell ht hdelimited, hscan, Option.map_some]

theorem read?_compact {j : Json} (h : j.IsExact) : read? j.compact = some j := by
  rw [read?, compact, String.toList_ofList, scan_flatMap_spell (apart_tokens j) h]
  exact ofTokens?_tokens j

end ModuleRig.Json
