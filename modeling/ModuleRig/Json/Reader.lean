import ModuleRig.Json.Token

/-!
# Reading JSON

`ofTokens?` builds the value of a token list with a machine that holds the arrays and objects still
open as a stack, so a document may be nested to any depth. `read?` reads a whole text: one value
and nothing after it. `ofTokens?_tokens` says that a value is read back from its own tokens.
-/

namespace ModuleRig.Json

/-- An array or object that is still open. Its finished members are held newest first. -/
inductive Frame where
  | array (done : List Json)
  /-- The key is the one whose value is being read. -/
  | object (done : List (Option String × Json)) (key : Option String)

/-- What the next token may be. -/
inductive Expect where
  | value
  /-- A value, or the end of an array that has just begun. -/
  | valueOrEnd
  /-- A key of an object. -/
  | key (done : List (Option String × Json))
  /-- A key, or the end of an object that has just begun. -/
  | keyOrEnd
  | colon (done : List (Option String × Json)) (name : Option String)
  /-- A value is complete: its surroundings go on or end. -/
  | after (value : Json)

structure ReadState where
  stack : List Frame
  expect : Expect

def beginValue (stack : List Frame) : Token → Option ReadState
  | .openArray => some ⟨stack, .valueOrEnd⟩
  | .openObject => some ⟨stack, .keyOrEnd⟩
  | .null => some ⟨stack, .after .null⟩
  | .bool b => some ⟨stack, .after (.bool b)⟩
  | .number n => some ⟨stack, .after (.number n)⟩
  | .string t => some ⟨stack, .after (.string t)⟩
  | _ => none

def endValue (value : Json) : List Frame → Token → Option ReadState
  | .array done :: stack, .comma => some ⟨.array (value :: done) :: stack, .value⟩
  | .array done :: stack, .closeArray =>
    some ⟨stack, .after (.array (value :: done).reverse)⟩
  | .object done key :: stack, .comma => some ⟨stack, .key ((key, value) :: done)⟩
  | .object done key :: stack, .closeObject =>
    some ⟨stack, .after (.object ((key, value) :: done).reverse)⟩
  | _, _ => none

def readStep (state : ReadState) (token : Token) : Option ReadState :=
  match state.expect, token with
  | .value, token => beginValue state.stack token
  | .valueOrEnd, .closeArray => some ⟨state.stack, .after (.array [])⟩
  | .valueOrEnd, token => beginValue (.array [] :: state.stack) token
  | .keyOrEnd, .closeObject => some ⟨state.stack, .after (.object [])⟩
  | .keyOrEnd, .string name => some ⟨state.stack, .colon [] name⟩
  | .key done, .string name => some ⟨state.stack, .colon done name⟩
  | .colon done name, .colon => some ⟨.object done name :: state.stack, .value⟩
  | .after value, token => endValue value state.stack token
  | _, _ => none

def readTokens (state : ReadState) : List Token → Option ReadState
  | [] => some state
  | token :: tokens => (readStep state token).bind fun next => readTokens next tokens

/-- The value of the tokens, when they are exactly one value. -/
def ofTokens? (tokens : List Token) : Option Json :=
  match readTokens ⟨[], .value⟩ tokens with
  | some ⟨[], .after value⟩ => some value
  | _ => none

/-- The value of a text, when the text is exactly one value. -/
def read? (text : String) : Option Json :=
  (scan text.toList).bind ofTokens?

mutual

def tokens : Json → List Token
  | .null => [.null]
  | .bool b => [.bool b]
  | .number n => [.number n]
  | .string t => [.string t]
  | .array items => .openArray :: tokensOfItems items
  | .object fields => .openObject :: tokensOfFields fields

/-- The tokens of the items of an array, up to its end. -/
def tokensOfItems : List Json → List Token
  | [] => [.closeArray]
  | [item] => tokens item ++ [.closeArray]
  | item :: items => tokens item ++ .comma :: tokensOfItems items

/-- The tokens of the fields of an object, up to its end. -/
def tokensOfFields : List (Option String × Json) → List Token
  | [] => [.closeObject]
  | [(key, value)] => .string key :: .colon :: (tokens value ++ [.closeObject])
  | (key, value) :: fields =>
    .string key :: .colon :: (tokens value ++ .comma :: tokensOfFields fields)

end

theorem readTokens_append (state : ReadState) (front back : List Token) :
    readTokens state (front ++ back) =
      (readTokens state front).bind fun next => readTokens next back := by
  induction front generalizing state with
  | nil => rfl
  | cons token front ih =>
    simp only [List.cons_append, readTokens, Option.bind_assoc]
    congr 1
    funext next
    exact ih next

/-- A value never begins with the end of an array. -/
theorem readTokens_valueOrEnd (stack : List Frame) (j : Json) (rest : List Token) :
    readTokens ⟨stack, .valueOrEnd⟩ (tokens j ++ rest) =
      readTokens ⟨.array [] :: stack, .value⟩ (tokens j ++ rest) := by
  cases j <;> rfl

mutual

/-- The tokens of a value are read as the value, whatever is still open around it. -/
theorem readTokens_tokens (j : Json) (stack : List Frame) (rest : List Token) :
    readTokens ⟨stack, .value⟩ (tokens j ++ rest) = readTokens ⟨stack, .after j⟩ rest := by
  match j with
  | .null => rfl
  | .bool _ => rfl
  | .number _ => rfl
  | .string _ => rfl
  | .array [] => rfl
  | .array (item :: items) =>
    have h := readTokens_items item items [] stack rest
    simp only [List.reverse_nil, List.nil_append] at h
    rw [← h]
    cases items <;>
      simp only [tokens, tokensOfItems, List.append_assoc, List.cons_append] <;>
      rw [← readTokens_valueOrEnd] <;>
      rfl
  | .object [] => rfl
  | .object ((key, value) :: fields) =>
    have h := readTokens_fields key value fields [] stack rest
    simp only [List.reverse_nil, List.nil_append] at h
    rw [← h]
    cases fields <;> rfl
termination_by sizeOf j

theorem readTokens_items (item : Json) (items done : List Json) (stack : List Frame)
    (rest : List Token) :
    readTokens ⟨.array done :: stack, .value⟩ (tokensOfItems (item :: items) ++ rest) =
      readTokens ⟨stack, .after (.array (done.reverse ++ item :: items))⟩ rest := by
  match items with
  | [] =>
    simp only [tokensOfItems, List.append_assoc]
    rw [readTokens_tokens item]
    simp [readTokens, readStep, endValue]
  | next :: items =>
    simp only [tokensOfItems, List.append_assoc]
    rw [readTokens_tokens item]
    have h := readTokens_items next items (item :: done) stack rest
    simp only [List.reverse_cons, List.append_assoc, List.cons_append, List.nil_append] at h
    rw [← h]
    rfl
termination_by 1 + sizeOf item + sizeOf items

theorem readTokens_fields (key : Option String) (value : Json)
    (fields done : List (Option String × Json)) (stack : List Frame) (rest : List Token) :
    readTokens ⟨stack, .key done⟩ (tokensOfFields ((key, value) :: fields) ++ rest) =
      readTokens ⟨stack, .after (.object (done.reverse ++ (key, value) :: fields))⟩ rest := by
  match fields with
  | [] =>
    have h := readTokens_tokens value (.object done key :: stack) (.closeObject :: rest)
    simp only [tokensOfFields, List.append_assoc, List.cons_append, List.nil_append, readTokens,
      readStep, Option.bind_some] at h ⊢
    rw [h]
    simp [endValue]
  | (nextKey, nextValue) :: fields =>
    have h := readTokens_tokens value (.object done key :: stack)
      (.comma :: (tokensOfFields ((nextKey, nextValue) :: fields) ++ rest))
    have h' := readTokens_fields nextKey nextValue fields ((key, value) :: done) stack rest
    simp only [List.reverse_cons, List.append_assoc, List.cons_append, List.nil_append] at h'
    rw [← h']
    simp only [tokensOfFields, List.append_assoc, List.cons_append, readTokens, readStep,
      Option.bind_some] at h ⊢
    rw [h]
    rfl
termination_by 1 + sizeOf value + sizeOf fields

end

/-- A value is read back from its own tokens. -/
theorem ofTokens?_tokens (j : Json) : ofTokens? (tokens j) = some j := by
  have h := readTokens_tokens j [] []
  simp only [List.append_nil] at h
  simp [ofTokens?, h, readTokens]

end ModuleRig.Json
