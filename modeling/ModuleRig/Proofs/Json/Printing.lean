import ModuleRig.Proofs.Json.Spelling

/-!
# A value that was printed is read back

Printing puts blanks between the tokens of a value, and always where a word or a number ends. So a
scan of the printed text gives the tokens, and of these `ofTokens?` makes the value again.
-/

namespace ModuleRig.Json

/-- There is no decimal numeral in the value. -/
def IsExact (j : Json) : Prop :=
  ∀ token ∈ tokens j, token.IsExact

/-! ## Exact values -/

theorem isExact_ofText (s : String) : (ofText s).IsExact := by
  intro token h
  obtain rfl := List.mem_singleton.1 h
  trivial

theorem isExact_bool (b : Bool) : (Json.bool b).IsExact := by
  intro token h
  obtain rfl := List.mem_singleton.1 h
  trivial

theorem isExact_ofNat (n : Nat) : (ofNat n).IsExact := by
  intro token h
  obtain rfl := List.mem_singleton.1 h
  trivial

theorem isExact_object {fields : List (Option String × Json)} (h : ∀ f ∈ fields, f.2.IsExact) :
    (Json.object fields).IsExact := by
  suffices hall : ∀ t ∈ tokensOfFields fields, t.IsExact by
    intro t ht
    rcases List.mem_cons.1 ht with rfl | ht
    · trivial
    · exact hall t ht
  induction fields with
  | nil =>
    intro t ht
    obtain rfl := List.mem_singleton.1 ht
    trivial
  | cons field fields ih =>
    obtain ⟨key, value⟩ := field
    have hvalue : ∀ t ∈ tokens value, t.IsExact := h _ List.mem_cons_self
    have hrest := ih fun f hf => h f (List.mem_cons_of_mem _ hf)
    intro t ht
    cases fields with
    | nil =>
      simp only [tokensOfFields, List.mem_cons, List.mem_append, List.not_mem_nil, or_false] at ht
      rcases ht with rfl | rfl | ht | rfl
      · trivial
      · trivial
      · exact hvalue t ht
      · trivial
    | cons next fields =>
      simp only [tokensOfFields, List.mem_cons, List.mem_append] at ht
      rcases ht with rfl | rfl | ht | rfl | ht
      · trivial
      · trivial
      · exact hvalue t ht
      · trivial
      · exact hrest t ht

theorem isExact_ofFields {fields : List (String × Json)} (h : ∀ f ∈ fields, f.2.IsExact) :
    (ofFields fields).IsExact := by
  apply isExact_object
  intro f hf
  obtain ⟨field, hfield, rfl⟩ := List.mem_map.1 hf
  exact h field hfield

/-! ## Pieces -/

/-- In front of this rest the pieces are scanned as these tokens. -/
def Scans (ps : List Piece) (ts : List Token) (rest : List Char) : Prop :=
  scanFrom .between (ps.flatMap Piece.chars ++ rest) = (scanFrom .between rest).map (ts ++ ·)

namespace Scans

variable {ps ps' : List Piece} {ts ts' : List Token} {rest : List Char}

theorem nil (rest : List Char) : Scans [] [] rest := by
  unfold Scans
  simp

theorem append (h : Scans ps ts (ps'.flatMap Piece.chars ++ rest)) (h' : Scans ps' ts' rest) :
    Scans (ps ++ ps') (ts ++ ts') rest := by
  unfold Scans at h h' ⊢
  rw [List.flatMap_append, List.append_assoc, h, h', Option.map_map]
  congr 1
  funext more
  simp

theorem line (depth : Nat) (h : Scans ps ts rest) : Scans (.line depth :: ps) ts rest := by
  unfold Scans at h ⊢
  rw [List.flatMap_cons, List.append_assoc, scanFrom_line, h]

theorem blank (h : Scans ps ts rest) : Scans (.blank :: ps) ts rest := by
  unfold Scans at h ⊢
  rw [List.flatMap_cons, List.append_assoc]
  exact (scanFrom_space _).trans h

theorem token {t : Token} (hexact : t.IsExact)
    (hdelimited : Delimited (ps.flatMap Piece.chars ++ rest)) (h : Scans ps ts rest) :
    Scans (.token t :: ps) (t :: ts) rest := by
  unfold Scans at h ⊢
  rw [List.flatMap_cons, List.append_assoc, Piece.chars, scanFrom_spell hexact hdelimited, h,
    Option.map_map]
  rfl

theorem single (t : Token) (hexact : t.IsExact) (h : Delimited rest) :
    Scans [.token t] [t] rest :=
  (nil rest).token hexact h

end Scans

theorem delimited_piecesOfItems (depth : Nat) (items : List Json) (rest : List Char) :
    Delimited ((piecesOfItems depth items).flatMap Piece.chars ++ rest) := by
  cases items with
  | nil => exact delimited_cons (by decide) (by decide)
  | cons item items => exact delimited_cons (by decide) (by decide)

theorem delimited_piecesOfFields (depth : Nat) (fields : List (Option String × Json))
    (rest : List Char) :
    Delimited ((piecesOfFields depth fields).flatMap Piece.chars ++ rest) := by
  cases fields with
  | nil => exact delimited_cons (by decide) (by decide)
  | cons field fields => exact delimited_cons (by decide) (by decide)

mutual

theorem scans_pieces (j : Json) (depth : Nat) (rest : List Char) (hexact : j.IsExact)
    (h : Delimited rest) : Scans (pieces depth j) (tokens j) rest := by
  match j with
  | .null => exact .single .null trivial h
  | .bool b => exact .single (.bool b) trivial h
  | .number n => exact .single (.number n) (hexact _ List.mem_cons_self) h
  | .string t => exact .single (.string t) trivial h
  | .array [] =>
    have hclose := Scans.single .closeArray trivial h
    exact hclose.token trivial (delimited_cons (by decide) (by decide))
  | .array (item :: items) =>
    have hitems := scans_items item items depth rest
      (fun t ht => hexact t (List.mem_cons_of_mem _ ht)) h
    exact (hitems.line (depth + 1)).token trivial (delimited_cons (by decide) (by decide))
  | .object [] =>
    have hclose := Scans.single .closeObject trivial h
    exact hclose.token trivial (delimited_cons (by decide) (by decide))
  | .object ((key, value) :: fields) =>
    have hfields := scans_fields key value fields depth rest
      (fun t ht => hexact t (List.mem_cons_of_mem _ ht)) h
    exact (hfields.line (depth + 1)).token trivial (delimited_cons (by decide) (by decide))
termination_by sizeOf j

theorem scans_items (item : Json) (items : List Json) (depth : Nat) (rest : List Char)
    (hexact : ∀ t ∈ tokensOfItems (item :: items), t.IsExact) (h : Delimited rest) :
    Scans (pieces (depth + 1) item ++ piecesOfItems depth items) (tokensOfItems (item :: items))
      rest := by
  match items with
  | [] =>
    have hitem := scans_pieces item (depth + 1) _
      (fun t ht => hexact t (List.mem_append_left _ ht)) (delimited_piecesOfItems depth [] rest)
    exact hitem.append ((Scans.single .closeArray trivial h).line depth)
  | next :: items =>
    have hitem := scans_pieces item (depth + 1) _
      (fun t ht => hexact t (List.mem_append_left _ ht))
      (delimited_piecesOfItems depth (next :: items) rest)
    have hitems := scans_items next items depth rest
      (fun t ht => hexact t (List.mem_append_right _ (List.mem_cons_of_mem _ ht))) h
    exact hitem.append
      ((hitems.line (depth + 1)).token trivial (delimited_cons (by decide) (by decide)))
termination_by 1 + sizeOf item + sizeOf items

theorem scans_fields (key : Option String) (value : Json) (fields : List (Option String × Json))
    (depth : Nat) (rest : List Char)
    (hexact : ∀ t ∈ tokensOfFields ((key, value) :: fields), t.IsExact) (h : Delimited rest) :
    Scans (.token (.string key) :: .token .colon :: .blank ::
        (pieces (depth + 1) value ++ piecesOfFields depth fields))
      (tokensOfFields ((key, value) :: fields)) rest := by
  have hvalue : ∀ more : List Token,
      tokensOfFields ((key, value) :: fields) =
        .string key :: .colon :: (tokens value ++ more) →
      Scans (piecesOfFields depth fields) more rest →
      Scans (.token (.string key) :: .token .colon :: .blank ::
          (pieces (depth + 1) value ++ piecesOfFields depth fields))
        (tokensOfFields ((key, value) :: fields)) rest := by
    intro more htokens hmore
    rw [htokens] at hexact ⊢
    have hvalue := scans_pieces value (depth + 1) _ (fun t ht => hexact t (by simp [ht]))
      (delimited_piecesOfFields depth fields rest)
    have hcolon := (hvalue.append hmore).blank.token (t := .colon) trivial
      (delimited_cons (by decide) (by decide))
    exact hcolon.token trivial (delimited_cons (by decide) (by decide))
  match fields with
  | [] => exact hvalue [.closeObject] rfl ((Scans.single .closeObject trivial h).line depth)
  | (nextKey, nextValue) :: fields =>
    have hfields := scans_fields nextKey nextValue fields depth rest
      (fun t ht => hexact t (by simp [tokensOfFields, ht])) h
    exact hvalue (.comma :: tokensOfFields ((nextKey, nextValue) :: fields)) rfl
      ((hfields.line (depth + 1)).token trivial (delimited_cons (by decide) (by decide)))
termination_by 1 + sizeOf value + sizeOf fields

end

theorem read?_pretty {j : Json} (h : j.IsExact) : read? j.pretty = some j := by
  have hscans := scans_pieces j 0 [] h delimited_nil
  unfold Scans at hscans
  have hscan : scan ((pieces 0 j).flatMap Piece.chars) = some (tokens j) := by
    rw [List.append_nil] at hscans
    rw [scan, hscans]
    simp [scanFrom, finish?]
  rw [read?, pretty, String.toList_ofList, hscan]
  exact ofTokens?_tokens j

end ModuleRig.Json
