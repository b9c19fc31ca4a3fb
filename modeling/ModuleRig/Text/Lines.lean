import ModuleRig.Text.Cut
import ModuleRig.Text.Utf8

/-!
# Lines of a byte stream

A line is what stands up to a newline byte, or up to the end of the stream. It is decoded on its
own and loses its line ending. A reader hands the stream over in chunks of any size; `readChunks`
collects them into lines and never looks past the chunk at hand.
-/

namespace ModuleRig.Text

def newline : UInt8 := 10

/-- The raw lines of the bytes, each with its newline. Only the last may lack one. -/
def rawLines : Bytes → List Bytes
  | [] => []
  | b :: bytes =>
    if b = newline then [b] :: rawLines bytes
    else
      match rawLines bytes with
      | [] => [[b]]
      | line :: rest => (b :: line) :: rest

def isLineEnd (c : Char) : Bool :=
  c == '\n' || c == '\r'

/-- The text of a raw line, without the newline and the carriage returns before it. -/
def lineText (raw : Bytes) : String :=
  String.ofList (dropEnd isLineEnd (Utf8.decodeLossy raw))

/-- The lines of a stream as they are handed on. -/
def lines (bytes : Bytes) : List String :=
  (rawLines bytes).map lineText

/-- Takes the finished lines off the bytes held back, and keeps the unfinished rest. -/
def takeLines : Bytes → List Bytes × Bytes
  | [] => ([], [])
  | b :: bytes =>
    let (done, rest) := takeLines bytes
    if b = newline then ([b] :: done, rest)
    else
      match done with
      | [] => ([], b :: rest)
      | line :: more => ((b :: line) :: more, rest)

/-- The raw lines of a stream that arrives in chunks. `held` is the unfinished line so far. -/
def readChunks (held : Bytes) : List Bytes → List Bytes
  | [] => if held.isEmpty then [] else [held]
  | chunk :: chunks =>
    let (done, rest) := takeLines (held ++ chunk)
    done ++ readChunks rest chunks

def linesOfChunks (chunks : List Bytes) : List String :=
  (readChunks [] chunks).map lineText

end ModuleRig.Text
