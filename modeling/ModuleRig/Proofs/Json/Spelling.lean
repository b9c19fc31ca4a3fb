import Mathlib.Data.List.TakeWhile
import ModuleRig.Json.Printer

/-!
# A token that was spelled is scanned back

Marks and strings end by themselves. A word or a number ends only where the next character is not
part of it, so what follows these has to be told apart: `Delimited` says that it can be.
-/

namespace ModuleRig.Json

/-- No word and no number goes on with the text. -/
def Delimited (rest : List Char) : Prop :=
  ∀ c, rest.head? = some c → c.isLower = false ∧ isNumberChar c = false

theorem delimited_cons {c : Char} {rest : List Char} (hlower : c.isLower = false)
    (hnumber : isNumberChar c = false) : Delimited (c :: rest) := by
  rintro _ ⟨⟩
  exact ⟨hlower, hnumber⟩

theorem delimited_nil : Delimited [] := by
  intro c h
  contradiction

/-- Decimal numerals have many spellings. All other numbers are written as they are read. -/
def Token.IsExact : Token → Prop
  | .number (.decimal _) => False
  | _ => True

variable {rest : List Char} {state : ScanState}

theorem scanFrom_step {c : Char} {done : List Token} {next : ScanState} (rest : List Char)
    (h : scanStep state c = some (done, next)) :
    scanFrom state (c :: rest) = (scanFrom next rest).map (done ++ ·) := by
  rw [scanFrom, h, Option.bind_some]

theorem scanFrom_quiet {c : Char} {next : ScanState} (rest : List Char)
    (h : scanStep state c = some ([], next)) :
    scanFrom state (c :: rest) = scanFrom next rest := by
  rw [scanFrom_step rest h]
  simp

theorem scanFrom_token {c : Char} {token : Token} {next : ScanState} (rest : List Char)
    (h : scanStep state c = some ([token], next)) :
    scanFrom state (c :: rest) = (scanFrom next rest).map (token :: ·) := by
  rw [scanFrom_step rest h]
  rfl

/-! ## Blanks -/

theorem scanFrom_space (rest : List Char) :
    scanFrom .between (' ' :: rest) = scanFrom .between rest :=
  scanFrom_quiet rest rfl

theorem scanFrom_line (depth : Nat) (rest : List Char) :
    scanFrom .between ((Piece.line depth).chars ++ rest) = scanFrom .between rest := by
  have hspaces : ∀ n,
      scanFrom .between (List.replicate n ' ' ++ rest) = scanFrom .between rest := by
    intro n
    induction n with
    | zero => rfl
    | succ n ih => rw [List.replicate_succ, List.cons_append, scanFrom_space, ih]
  rw [Piece.chars, List.cons_append, scanFrom_quiet _ rfl, hspaces]

/-! ## Words and numbers -/

theorem scanFrom_delimited {done : List Token} (hfinish : finish? state = some done)
    (hstep : ∀ c, c.isLower = false → isNumberChar c = false →
      scanStep state c = (startToken c).map fun (more, next) => (done ++ more, next))
    (h : Delimited rest) :
    scanFrom state rest = (scanFrom .between rest).map (done ++ ·) := by
  cases rest with
  | nil =>
    rw [scanFrom, hfinish, scanFrom, finish?]
    simp
  | cons c rest =>
    obtain ⟨hlower, hnumber⟩ := h c rfl
    rw [scanFrom, scanFrom, hstep c hlower hnumber, scanStep]
    cases startToken c with
    | none => rfl
    | some started => simp [Function.comp_def]

theorem scanFrom_held {hold : List Char → ScanState} {cs : List Char} (held rest : List Char)
    (h : ∀ held, ∀ c ∈ cs, scanStep (hold held) c = some ([], hold (c :: held))) :
    scanFrom (hold held) (cs ++ rest) = scanFrom (hold (cs.reverse ++ held)) rest := by
  induction cs generalizing held with
  | nil => rfl
  | cons c cs ih =>
    rw [List.cons_append, scanFrom_quiet _ (h held c List.mem_cons_self),
      ih _ fun held d hd => h held d (List.mem_cons_of_mem c hd)]
    simp

theorem scanFrom_word {c : Char} {cs : List Char} {token : Token}
    (hstart : scanStep .between c = some ([], .word [c])) (hlower : cs.all Char.isLower = true)
    (hword : word? (c :: cs) = some token) (h : Delimited rest) :
    scanFrom .between (c :: (cs ++ rest)) = (scanFrom .between rest).map (token :: ·) := by
  have hfinish : finish? (.word (cs.reverse ++ [c])) = some [token] := by
    simp [finish?, hword]
  rw [scanFrom_quiet _ hstart, scanFrom_held]
  · refine scanFrom_delimited hfinish (fun d hd _ => ?_) h
    simp [scanStep, hd, hfinish]
  · intro held d hd
    rw [scanStep, if_pos (List.all_eq_true.1 hlower d hd)]

theorem scanFrom_numeral {c : Char} {cs : List Char} {n : Number}
    (hstart : scanStep .between c = some ([], .numeral [c]))
    (hchars : ∀ d ∈ cs, isNumberChar d = true)
    (hnumber : number? (c :: cs) = some n) (h : Delimited rest) :
    scanFrom .between (c :: (cs ++ rest)) = (scanFrom .between rest).map (.number n :: ·) := by
  have hfinish : finish? (.numeral (cs.reverse ++ [c])) = some [.number n] := by
    simp [finish?, hnumber]
  rw [scanFrom_quiet _ hstart, scanFrom_held]
  · refine scanFrom_delimited hfinish (fun d _ hd => ?_) h
    simp [scanStep, hd, hfinish]
  · intro held d hd
    rw [scanStep, if_pos (hchars d hd)]

/-! ## Digits -/

theorem unsigned?_digits (negative : Bool) (spelling : List Char) (n : Nat) :
    unsigned? negative spelling (Text.digits n) = some (.integer negative n) := by
  have htake : (Text.digits n).takeWhile Char.isDigit = Text.digits n :=
    List.takeWhile_eq_self_iff.2 fun c hc => Text.isDigit_of_mem_digits hc
  have hdrop : (Text.digits n).dropWhile Char.isDigit = [] :=
    List.dropWhile_eq_nil_iff.2 fun c hc => Text.isDigit_of_mem_digits hc
  have hleading : ((Text.digits n).head? == some '0' && (Text.digits n).length != 1) = false := by
    obtain ⟨c, hhead, hzero⟩ := Text.head?_digits n
    by_cases hc : c = '0'
    · rw [hzero hc]
      decide +kernel
    · simp [hhead, hc]
  have hempty : (Text.digits n).isEmpty = false := List.isEmpty_eq_false_iff.2 (Text.digits_ne_nil n)
  unfold unsigned?
  simp only [htake, hdrop, hempty, hleading, Text.digitsValue_digits]
  rfl

theorem number?_spellNumber (negative : Bool) (n : Nat) :
    number? (spellNumber (.integer negative n)) = some (.integer negative n) := by
  cases negative with
  | true => exact unsigned?_digits true _ n
  | false =>
    have hminus : ∀ rest, Text.digits n ≠ '-' :: rest := by
      intro rest heq
      have hdigit : Char.isDigit '-' = true :=
        Text.isDigit_of_mem_digits (n := n) (by rw [heq]; exact List.mem_cons_self)
      contradiction
    show number? (Text.digits n) = _
    unfold number?
    split
    · next rest heq => exact absurd heq (hminus rest)
    · exact unsigned?_digits false _ n

theorem scanStep_digit {c : Char} (h : c.isDigit = true) :
    scanStep .between c = some ([], .numeral [c]) := by
  have hall : ∀ k : Fin 10, scanStep .between (Char.ofNat (48 + k)) =
      some ([], .numeral [Char.ofNat (48 + k)]) := by decide
  have hrange : 48 ≤ c.toNat ∧ c.toNat ≤ 57 := by
    simpa [Char.isDigit, UInt32.le_iff_toNat_le] using h
  have hc : Char.ofNat (48 + (c.toNat - 48)) = c := by
    rw [Nat.add_sub_cancel' hrange.1, Char.ofNat_toNat]
  have hdigit := hall ⟨c.toNat - 48, by omega⟩
  rwa [hc] at hdigit

theorem scanFrom_integer (negative : Bool) (n : Nat) (h : Delimited rest) :
    scanFrom .between (spellNumber (.integer negative n) ++ rest) =
      (scanFrom .between rest).map (.number (.integer negative n) :: ·) := by
  have hnumber := number?_spellNumber negative n
  have hchars : ∀ c ∈ Text.digits n, isNumberChar c = true := by
    intro c hc
    simp [isNumberChar, Text.isDigit_of_mem_digits hc]
  cases negative with
  | true => exact scanFrom_numeral rfl hchars hnumber h
  | false =>
    obtain ⟨c, cs, hdigits⟩ := List.exists_cons_of_ne_nil (Text.digits_ne_nil n)
    have hspell : spellNumber (.integer false n) = c :: cs := hdigits
    rw [hdigits] at hchars
    rw [hspell] at hnumber ⊢
    refine scanFrom_numeral (scanStep_digit ?_) (fun d hd => ?_) hnumber h
    · exact Text.isDigit_of_mem_digits (n := n) (hdigits ▸ List.mem_cons_self)
    · exact hchars d (List.mem_cons_of_mem c hd)

/-! ## Strings -/

theorem hexValue?_hexDigit {k : Nat} (h : k < 16) : hexValue? (hexDigit k) = some k := by
  have hall : ∀ k : Fin 16, hexValue? (hexDigit k) = some k.val := by decide
  exact hall ⟨k, h⟩

/-- The spelling is read as one unit, and the unit stands for the character. -/
def Spells (cs : List Char) (c : Char) : Prop :=
  ∃ unit : StringUnit,
    (∀ units, textOfUnits? (unit :: units) = (textOfUnits? units).map (c :: ·)) ∧
    ∀ held rest, scanFrom (.literal held) (cs ++ rest) = scanFrom (.literal (unit :: held)) rest

theorem spells_escape {c escape : Char} (hu : escape ≠ 'u') (h : escape? escape = some c) :
    Spells ['\\', escape] c := by
  refine ⟨.char c, fun units => rfl, fun held rest => ?_⟩
  have hstep : scanStep (.escaped held) escape = some ([], .literal (.char c :: held)) := by
    rw [scanStep, if_neg hu, h, Option.map_some]
  rw [List.cons_append, scanFrom_quiet _ rfl, List.cons_append, scanFrom_quiet _ hstep,
    List.nil_append]

theorem scanStep_hex {held : List StringUnit} {value owed k : Nat} (h : k < 16) :
    scanStep (.hex held value owed) (hexDigit k) =
      some (if owed ≤ 1 then ([], .literal (.code (value * 16 + k) :: held))
        else ([], .hex held (value * 16 + k) (owed - 1))) := by
  rw [scanStep, hexValue?_hexDigit h, Option.map_some]

theorem spells_control {c : Char} (h : c.toNat < 0x20) :
    Spells ['\\', 'u', '0', '0', hexDigit (c.toNat / 16), hexDigit (c.toNat % 16)] c := by
  refine ⟨.code c.toNat, fun units => ?_, fun held rest => ?_⟩
  · have hlow : (decide (c.toNat < 0xD800) || decide (0xE000 ≤ c.toNat)) = true := by
      simp only [Bool.or_eq_true, decide_eq_true_eq]
      omega
    rw [textOfUnits?.eq_def]
    dsimp only
    rw [if_pos hlow, Char.ofNat_toNat]
  · have hzero : ∀ value owed, scanStep (.hex held value (owed + 2)) '0' =
        some ([], .hex held (value * 16) (owed + 1)) := fun _ _ => rfl
    have hbits : c.toNat / 16 * 16 + c.toNat % 16 = c.toNat := by omega
    have hhigh : scanStep (.hex held 0 2) (hexDigit (c.toNat / 16)) =
        some ([], .hex held (c.toNat / 16) 1) := by
      rw [scanStep_hex (by omega), if_neg (by decide), Nat.zero_mul, Nat.zero_add]
    have hlow : scanStep (.hex held (c.toNat / 16) 1) (hexDigit (c.toNat % 16)) =
        some ([], .literal (.code c.toNat :: held)) := by
      rw [scanStep_hex (by omega), if_pos (Nat.le_refl 1), hbits]
    simp only [List.cons_append, List.nil_append]
    rw [scanFrom_quiet _ rfl, scanFrom_quiet _ rfl, scanFrom_quiet _ (hzero 0 2),
      scanFrom_quiet _ (hzero 0 1), scanFrom_quiet _ hhigh, scanFrom_quiet _ hlow]

theorem spells_self {c : Char} (hquote : c ≠ '"') (hslash : c ≠ '\\') (h : ¬ c.toNat < 0x20) :
    Spells [c] c := by
  refine ⟨.char c, fun units => rfl, fun held rest => ?_⟩
  have hstep : scanStep (.literal held) c = some ([], .literal (.char c :: held)) := by
    rw [scanStep, if_neg hquote, if_neg hslash, if_neg h]
  exact scanFrom_quiet rest hstep

theorem spells_spellChar (c : Char) : Spells (spellChar c) c := by
  unfold spellChar
  split
  · next hc => obtain rfl := hc; exact spells_escape (by decide) rfl
  · next hquote =>
    split
    · next hc => obtain rfl := hc; exact spells_escape (by decide) rfl
    · next hslash =>
      repeat' split
      · next hc => obtain rfl := hc; exact spells_escape (by decide) rfl
      · next hc => obtain rfl := hc; exact spells_escape (by decide) rfl
      · next hc => obtain rfl := hc; exact spells_escape (by decide) rfl
      · next hc => obtain rfl := hc; exact spells_escape (by decide) rfl
      · next hc => obtain rfl := hc; exact spells_escape (by decide) rfl
      · next hcontrol => exact spells_control hcontrol
      · next hcontrol => exact spells_self hquote hslash hcontrol

theorem exists_units (text : List Char) : ∃ units, textOfUnits? units = some text ∧
    ∀ held rest, scanFrom (.literal held) (text.flatMap spellChar ++ rest) =
      scanFrom (.literal (units.reverse ++ held)) rest := by
  induction text with
  | nil => exact ⟨[], rfl, fun _ _ => rfl⟩
  | cons c text ih =>
    obtain ⟨units, htext, hscan⟩ := ih
    obtain ⟨unit, hunit, hchar⟩ := spells_spellChar c
    refine ⟨unit :: units, ?_, fun held rest => ?_⟩
    · rw [hunit, htext, Option.map_some]
    · rw [List.flatMap_cons, List.append_assoc, hchar, hscan]
      simp

theorem scanFrom_spellString (text : Option String) (rest : List Char) :
    scanFrom .between (spellString text ++ rest) =
      (scanFrom .between rest).map (.string text :: ·) := by
  cases text with
  | none =>
    -- Half of a surrogate pair: well-formed, and not a text.
    simp only [spellString, List.cons_append, List.nil_append]
    rw [scanFrom_quiet _ rfl, scanFrom_quiet _ rfl, scanFrom_quiet _ rfl, scanFrom_quiet _ rfl,
      scanFrom_quiet _ rfl, scanFrom_quiet _ rfl, scanFrom_quiet _ rfl]
    exact scanFrom_token rest rfl
  | some text =>
    obtain ⟨units, htext, hscan⟩ := exists_units text.toList
    have hend : scanStep (.literal units.reverse) '"' = some ([.string (some text)], .between) := by
      rw [scanStep, if_pos rfl, stringToken, List.reverse_reverse, htext, Option.map_some,
        String.ofList_toList]
    rw [spellString, List.cons_append, List.cons_append, List.append_assoc, scanFrom_quiet _ rfl,
      hscan, List.append_nil]
    exact scanFrom_token rest hend

/-! ## All tokens -/

theorem scanFrom_mark {c : Char} {token : Token} (rest : List Char) (hspell : spell token = [c])
    (h : scanStep .between c = some ([token], .between)) :
    scanFrom .between (spell token ++ rest) = (scanFrom .between rest).map (token :: ·) := by
  rw [hspell]
  exact scanFrom_token rest h

/-- A token that is followed by what is no part of it is scanned back. -/
theorem scanFrom_spell {token : Token} (hexact : token.IsExact) (h : Delimited rest) :
    scanFrom .between (spell token ++ rest) = (scanFrom .between rest).map (token :: ·) := by
  cases token with
  | openArray => exact scanFrom_mark rest rfl rfl
  | closeArray => exact scanFrom_mark rest rfl rfl
  | openObject => exact scanFrom_mark rest rfl rfl
  | closeObject => exact scanFrom_mark rest rfl rfl
  | comma => exact scanFrom_mark rest rfl rfl
  | colon => exact scanFrom_mark rest rfl rfl
  | string text => exact scanFrom_spellString text rest
  | null => exact scanFrom_word rfl rfl rfl h
  | bool value =>
    cases value with
    | true => exact scanFrom_word rfl rfl rfl h
    | false => exact scanFrom_word rfl rfl rfl h
  | number n =>
    cases n with
    | decimal spelling => exact hexact.elim
    | integer negative magnitude => exact scanFrom_integer negative magnitude h

end ModuleRig.Json
