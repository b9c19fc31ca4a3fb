import ModuleRig.Proofs.Text.Lines
import ModuleRig.Proofs.Text.Split

/-!
# Lines of the whole text

The lines of a stream are decoded one by one, each from its own bytes. They are nevertheless the
lines of the stream decoded as a whole: `lines_of_whole`. The reason is that no byte of a longer
character is below 128, so a newline byte ends whatever was begun before it
(`piecesFrom_append_newline`), and only a newline byte becomes a newline.
-/

namespace ModuleRig.Text

/-! ## Decoding up to a newline -/

namespace Utf8

/-- The character that has begun will be none of ASCII, and no byte of ASCII continues it. -/
structure Pending.Wide (p : Pending) : Prop where
  low : 0x80 ≤ p.low
  next : 2 ≤ p.bits * 64 + (p.low - 0x80)
  last : p.owed ≤ 1 → 2 ≤ p.bits

theorem wide_start (b : UInt8) : ∀ p ∈ (start b).2, p.Wide := by
  intro p hp
  unfold start at hp
  dsimp only at hp
  repeat' split at hp
  all_goals simp only [Option.mem_def, Option.some.injEq, reduceCtorEq] at hp
  all_goals subst hp
  all_goals constructor <;> dsimp only <;> omega

theorem wide_feed {state : Option Pending} (h : ∀ p ∈ state, p.Wide) (b : UInt8) :
    ∀ p ∈ (feed state b).2, p.Wide := by
  cases state with
  | none => exact wide_start b
  | some p =>
    have hp := h p rfl
    rw [feed]
    split
    · next hwithin =>
      dsimp only
      split
      · exact fun q hq => by cases hq
      · have hnext := hp.next
        have hlow := hp.low
        intro q hq
        obtain rfl := Option.some.inj hq
        constructor <;> dsimp only <;> omega
    · exact wide_start b

theorem feed_newline {state : Option Pending} (h : ∀ p ∈ state, p.Wide) :
    feed state newline = (piecesFrom state [] ++ [some '\n'], none) := by
  cases state with
  | none => rfl
  | some p =>
    have hlow := (h p rfl).low
    have hbyte : newline.toNat = 10 := rfl
    have hstart : start newline = ([some '\n'], none) := rfl
    rw [feed, if_neg (by omega), hstart]
    rfl

theorem piecesFrom_append_newline {state : Option Pending} (h : ∀ p ∈ state, p.Wide)
    (bytes rest : Bytes) :
    piecesFrom state (bytes ++ newline :: rest) =
      piecesFrom state bytes ++ some '\n' :: piecesFrom none rest := by
  induction bytes generalizing state with
  | nil =>
    rw [List.nil_append, piecesFrom, feed_newline h, List.append_assoc, List.singleton_append]
  | cons b bytes ih =>
    rw [List.cons_append, piecesFrom, piecesFrom, ih (wide_feed h b), List.append_assoc]

theorem decodeLossy_append_newline (bytes rest : Bytes) :
    decodeLossy (bytes ++ newline :: rest) = decodeLossy bytes ++ '\n' :: decodeLossy rest := by
  unfold decodeLossy pieces
  rw [piecesFrom_append_newline (by simp), List.map_append, List.map_cons]
  rfl

/-! ## Where a newline comes from -/

theorem eq_of_ofNat_eq_newline {n : Nat} (h : Char.ofNat n = '\n') : n = 10 := by
  by_cases hvalid : n.isValidChar
  · rw [Char.ofNat, dif_pos hvalid] at h
    exact congrArg Char.toNat h
  · rw [Char.ofNat, dif_neg hvalid] at h
    cases h

theorem newline_not_mem_start {b : UInt8} (h : b ≠ newline) : some '\n' ∉ (start b).1 := by
  unfold start
  dsimp only
  split
  · rw [List.mem_singleton, Option.some.injEq]
    intro hchar
    exact h (UInt8.toNat_inj.1 (eq_of_ofNat_eq_newline hchar.symm))
  · repeat' split
    all_goals simp

theorem newline_not_mem_feed {state : Option Pending} (hwide : ∀ p ∈ state, p.Wide) {b : UInt8}
    (h : b ≠ newline) : some '\n' ∉ (feed state b).1 := by
  cases state with
  | none => exact newline_not_mem_start h
  | some p =>
    rw [feed]
    split
    · dsimp only
      split
      · next howed =>
        have hbits := (hwide p rfl).last howed
        rw [List.mem_singleton, Option.some.injEq]
        intro hchar
        have hcode := eq_of_ofNat_eq_newline hchar.symm
        omega
      · exact List.not_mem_nil
    · rw [List.mem_cons, not_or]
      exact ⟨by simp, newline_not_mem_start h⟩

theorem newline_not_mem_piecesFrom {state : Option Pending} (hwide : ∀ p ∈ state, p.Wide)
    {bytes : Bytes} (h : newline ∉ bytes) : some '\n' ∉ piecesFrom state bytes := by
  induction bytes generalizing state with
  | nil =>
    cases state with
    | none => exact List.not_mem_nil
    | some p => simp [piecesFrom]
  | cons b bytes ih =>
    rw [List.mem_cons, not_or] at h
    rw [piecesFrom, List.mem_append, not_or]
    exact ⟨newline_not_mem_feed hwide (Ne.symm h.1), ih (wide_feed hwide b) h.2⟩

theorem newline_not_mem_decodeLossy {bytes : Bytes} (h : newline ∉ bytes) :
    '\n' ∉ decodeLossy bytes := by
  unfold decodeLossy
  rw [List.mem_map]
  rintro ⟨piece, hpiece, hchar⟩
  cases piece with
  | none => revert hchar; decide
  | some c =>
    rw [Option.getD_some] at hchar
    subst hchar
    exact newline_not_mem_piecesFrom (by simp) h hpiece

theorem piecesFrom_some_ne_nil (p : Pending) (bytes : Bytes) : piecesFrom (some p) bytes ≠ [] := by
  induction bytes generalizing p with
  | nil => simp [piecesFrom]
  | cons b bytes ih =>
    rw [piecesFrom, feed]
    split
    · dsimp only
      split
      · simp
      · exact ih _
    · simp

theorem decodeLossy_eq_nil_iff {bytes : Bytes} : decodeLossy bytes = [] ↔ bytes = [] := by
  cases bytes with
  | nil => exact iff_of_true rfl rfl
  | cons b bytes =>
    have hpieces : piecesFrom none (b :: bytes) ≠ [] := by
      rw [piecesFrom, feed, start]
      repeat' split
      all_goals simp [piecesFrom_some_ne_nil]
    simpa [decodeLossy, pieces] using hpieces

end Utf8

/-! ## Line by line -/

theorem rawLines_line {line : Bytes} (h : newline ∉ line) (rest : Bytes) :
    rawLines (line ++ newline :: rest) = (line ++ [newline]) :: rawLines rest := by
  induction line with
  | nil => rfl
  | cons b line ih =>
    rw [List.mem_cons, not_or] at h
    rw [List.cons_append, rawLines, if_neg (Ne.symm h.1), ih h.2]
    rfl

/-- A stream is one unfinished line, or a finished line and a stream behind it. -/
theorem line_induction {motive : Bytes → Prop} (last : ∀ line, newline ∉ line → motive line)
    (ended : ∀ line rest, newline ∉ line → motive rest → motive (line ++ newline :: rest))
    (bytes : Bytes) : motive bytes := by
  suffices h : ∀ line, newline ∉ line → motive (line ++ bytes) from h [] List.not_mem_nil
  induction bytes with
  | nil =>
    intro line hline
    rw [List.append_nil]
    exact last line hline
  | cons b bytes ih =>
    intro line hline
    by_cases hb : b = newline
    · rw [hb]
      exact ended line bytes hline (ih [] List.not_mem_nil)
    · have hmore := ih (line ++ [b]) (by simp [hline, Ne.symm hb])
      rwa [List.append_assoc] at hmore

/-- The text of a piece, without the carriage returns at its end. -/
def pieceText (piece : List Char) : String :=
  String.ofList (dropEnd (· == '\r') piece)

/-- The pieces without the last one if that is empty. -/
def withoutEmptyLast (pieces : List (List Char)) : List (List Char) :=
  if pieces.getLast? = some [] then pieces.dropLast else pieces

theorem withoutEmptyLast_cons (piece : List Char) {pieces : List (List Char)} (h : pieces ≠ []) :
    withoutEmptyLast (piece :: pieces) = piece :: withoutEmptyLast pieces := by
  cases pieces with
  | nil => contradiction
  | cons next pieces =>
    simp only [withoutEmptyLast, List.getLast?_cons_cons, List.dropLast_cons_cons]
    split <;> rfl

theorem dropWhile_lineEnd {text : List Char} (h : '\n' ∉ text) :
    text.dropWhile isLineEnd = text.dropWhile (· == '\r') := by
  induction text with
  | nil => rfl
  | cons c text ih =>
    rw [List.mem_cons, not_or] at h
    have hc : isLineEnd c = (c == '\r') := by simp [isLineEnd, Ne.symm h.1]
    rw [List.dropWhile_cons, List.dropWhile_cons, hc, ih h.2]

theorem dropEnd_lineEnd {piece : List Char} (h : '\n' ∉ piece) :
    dropEnd isLineEnd piece = dropEnd (· == '\r') piece := by
  rw [dropEnd, dropEnd, dropWhile_lineEnd (by rwa [List.mem_reverse])]

theorem lineText_unended {line : Bytes} (h : newline ∉ line) :
    lineText line = pieceText (Utf8.decodeLossy line) := by
  rw [lineText, dropEnd_lineEnd (Utf8.newline_not_mem_decodeLossy h), pieceText]

theorem lineText_ended {line : Bytes} (h : newline ∉ line) :
    lineText (line ++ [newline]) = pieceText (Utf8.decodeLossy line) := by
  have hdrop : dropEnd isLineEnd (Utf8.decodeLossy line ++ ['\n']) =
      dropEnd isLineEnd (Utf8.decodeLossy line) := by
    simp [dropEnd, isLineEnd]
  rw [← lineText_unended h, lineText, lineText, Utf8.decodeLossy_append_newline]
  exact congrArg String.ofList hdrop

theorem lines_line {line : Bytes} (h : newline ∉ line) (rest : Bytes) :
    lines (line ++ newline :: rest) = pieceText (Utf8.decodeLossy line) :: lines rest := by
  rw [lines, rawLines_line h, List.map_cons, lineText_ended h, lines]

theorem lines_unended {line : Bytes} (h : newline ∉ line) :
    lines line = if line = [] then [] else [pieceText (Utf8.decodeLossy line)] := by
  rw [lines, rawLines_of_not_mem h]
  cases line with
  | nil => rfl
  | cons b line => simp [lineText_unended h]

/-! ## The whole text -/

theorem lines_eq_pieces (bytes : Bytes) :
    lines bytes = (withoutEmptyLast (splitOn '\n' (Utf8.decodeLossy bytes))).map pieceText := by
  induction bytes using line_induction with
  | last line h =>
    rw [lines_unended h, splitOn_of_not_mem (Utf8.newline_not_mem_decodeLossy h)]
    by_cases hline : line = []
    · subst hline
      rfl
    · have hpiece := mt Utf8.decodeLossy_eq_nil_iff.1 hline
      simp [withoutEmptyLast, hline, hpiece]
  | ended line rest h ih =>
    rw [lines_line h, Utf8.decodeLossy_append_newline, splitOn_append,
      splitOn_of_not_mem (Utf8.newline_not_mem_decodeLossy h), List.singleton_append,
      withoutEmptyLast_cons _ (splitOn_ne_nil _ _), List.map_cons, ih]

/-- What stands here starts a line. -/
def AtLineStart (before : Bytes) : Prop :=
  ∀ b ∈ before.getLast?, b = newline

theorem lines_append {before : Bytes} (h : AtLineStart before) (rest : Bytes) :
    lines (before ++ rest) = lines before ++ lines rest := by
  induction before using line_induction with
  | last line hline =>
    cases line.eq_nil_or_concat with
    | inl hnil =>
      subst hnil
      rfl
    | inr hconcat =>
      obtain ⟨front, b, rfl⟩ := hconcat
      obtain rfl : b = newline := h b (by simp)
      simp at hline
  | ended line more hline ih =>
    have hmore : AtLineStart more := by
      intro b hb
      refine h b ?_
      rw [List.append_cons, List.getLast?_append, Option.mem_def.1 hb]
      rfl
    rw [List.append_assoc, List.cons_append, lines_line hline, lines_line hline, ih hmore,
      List.cons_append]

/-- How the lines come about that a stream in chunks is handed on as. -/
structure LinesOfWhole (chunks : List Bytes) : Prop where
  /-- They are the pieces of the whole text between its newlines. -/
  pieces : linesOfChunks chunks =
    (withoutEmptyLast (splitOn '\n' (Utf8.decodeLossy chunks.flatten))).map pieceText
  /-- Each line hangs on its own bytes alone. -/
  apart : ∀ before line after, AtLineStart before → newline ∉ line →
    chunks.flatten = before ++ (line ++ newline :: after) →
      linesOfChunks chunks = lines before ++ pieceText (Utf8.decodeLossy line) :: lines after
  /-- The last line need not be finished. -/
  unended : ∀ before line, AtLineStart before → newline ∉ line → line ≠ [] →
    chunks.flatten = before ++ line →
      linesOfChunks chunks = lines before ++ [pieceText (Utf8.decodeLossy line)]

/-- However a stream arrives, its lines are those of the whole text, and no line has any part in
another. -/
theorem lines_of_whole (chunks : List Bytes) : LinesOfWhole chunks where
  pieces := by rw [linesOfChunks_eq, lines_eq_pieces]
  apart := by
    intro before line after hbefore hline hchunks
    rw [linesOfChunks_eq, hchunks, lines_append hbefore, lines_line hline]
  unended := by
    intro before line hbefore hline hne hchunks
    rw [linesOfChunks_eq, hchunks, lines_append hbefore, lines_unended hline, if_neg hne]

/-- A character is cut off by a newline, one by a chunk and one by the end of the stream. -/
example : linesOfChunks [[0xE2, 0x82, 10, 0xE2, 0x82], [0xAC, 13, 13], [10], [], [97, 0xC3]] =
    ["\uFFFD", "€", "a\uFFFD"] := by
  decide +kernel

end ModuleRig.Text
