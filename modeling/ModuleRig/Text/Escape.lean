/-!
# Terminal escape sequences

A sequence is the escape character, an opening bracket, digits and semicolons, and one letter that
ends it. `strip` takes the sequences out of a text. Whatever only begins like one stays.
-/

namespace ModuleRig.Text.Escape

def escapeChar : Char := '\x1b'

def isParameter (c : Char) : Bool :=
  c.isDigit || c == ';'

/-- How much of a sequence has been read. -/
inductive State where
  | outside
  | afterEscape
  /-- The parameters so far, newest first. -/
  | parameters (held : List Char)
deriving DecidableEq, Repr

/-- What has been read of a sequence that turns out not to be one. -/
def State.held : State → List Char
  | .outside => []
  | .afterEscape => [escapeChar]
  | .parameters held => escapeChar :: '[' :: held.reverse

/-- A character outside of any sequence: what stays of it, and the state after it. -/
def start (c : Char) : List Char × State :=
  if c = escapeChar then ([], .afterEscape) else ([c], .outside)

def step (state : State) (c : Char) : List Char × State :=
  match state with
  | .outside => start c
  | .afterEscape =>
    if c = '[' then ([], .parameters [])
    else (state.held ++ (start c).1, (start c).2)
  | .parameters held =>
    if isParameter c then ([], .parameters (c :: held))
    else if c.isAlpha then ([], .outside)
    else (state.held ++ (start c).1, (start c).2)

def stripFrom (state : State) : List Char → List Char
  | [] => state.held
  | c :: cs => (step state c).1 ++ stripFrom (step state c).2 cs

/-- The text without its escape sequences. -/
def strip (cs : List Char) : List Char :=
  stripFrom .outside cs

theorem strip_of_not_mem {cs : List Char} (h : escapeChar ∉ cs) : strip cs = cs := by
  unfold strip
  induction cs with
  | nil => rfl
  | cons c cs ih =>
    simp only [List.mem_cons, not_or] at h
    simp [stripFrom, step, start, Ne.symm h.1, ih h.2]

end ModuleRig.Text.Escape
