import ModuleRig.Files.Disk
import ModuleRig.Web.Basic

/-!
# The host

Everything outside the program that its answers depend on or that it changes, and the single steps
in which it does so. An `Action` is a sequence of such steps that may end with an error. What had
happened before the error stays.
-/

namespace ModuleRig

structure Output where
  stdout : Bytes
  stderr : Bytes
deriving DecidableEq, Repr

structure Host where
  files : FileTree
  web : Web
  environment : List (String × String)
  /-- Nanoseconds since the epoch. -/
  now : Int
  /-- What the clock shows at the times it is looked at again. Behind them it stands still. -/
  later : List Int
  /-- The URLs requested, oldest first. -/
  requests : List String
  /-- The arguments of the programs started, oldest first. -/
  launches : List (List String)
  /-- Why waiting for a child with the arguments fails, if it does. -/
  waitError? : List String → Option SystemError
  output : Output

abbrev Action (ε α : Type) := ExceptT ε (StateM Host) α

namespace Host

/-- A host with no files, no web and nothing in its environment. Its clock stands still. -/
def blank : Host where
  files := .empty
  web := .unreachable
  environment := []
  now := 0
  later := []
  requests := []
  launches := []
  waitError? _ := none
  output := ⟨[], []⟩

def valueOf? (h : Host) (name : String) : Option String :=
  h.environment.lookup name

/-- The host when the clock is looked at again. -/
def passed (h : Host) : Host :=
  match h.later with
  | [] => h
  | time :: later => { h with now := time, later }

/-- The pages that servers were asked for. -/
def served (h : Host) : List String :=
  h.requests.filterMap h.web.seen?

theorem passed_eq (h : Host) :
    h.passed = { h with now := h.passed.now, later := h.passed.later } := by
  unfold passed
  split <;> rfl

theorem now_passed_mem (h : Host) : h.passed.now ∈ h.now :: h.later := by
  unfold passed
  split
  · exact List.mem_cons_self
  · next time later hlater =>
    rw [hlater]
    exact List.mem_cons_of_mem _ List.mem_cons_self

@[simp] theorem files_passed (h : Host) : h.passed.files = h.files := by
  rw [passed_eq]

@[simp] theorem web_passed (h : Host) : h.passed.web = h.web := by
  rw [passed_eq]

@[simp] theorem launches_passed (h : Host) : h.passed.launches = h.launches := by
  rw [passed_eq]

end Host

namespace Action

def ask {ε α : Type} (f : Host → α) : Action ε α := do
  return f (← get)

/-- Goes on with a value or stops with an error. -/
def ofExcept {ε α : Type} (result : Except ε α) : Action ε α :=
  fun host => (result, host)

def readFiles {α : Type} (f : FileTree → Except SystemError α) : Action SystemError α :=
  fun host => (f host.files, host)

/-- Performs operations on the file tree, up to the first that fails. -/
def performOn (disk : FileTree.Disk) (operations : List FileTree.Operation) :
    Action SystemError Unit :=
  fun host =>
    let (result, files) := disk.performAll host.files operations
    (result, { host with files })

def request (url : String) : Action Web.Problem (Option Bytes) :=
  fun host =>
    (host.web.content? url, { host with requests := host.requests ++ [url] })

def mapError {ε δ α : Type} (f : ε → δ) (action : Action ε α) : Action δ α :=
  fun host =>
    let (result, host) := action host
    (result.mapError f, host)

end Action

end ModuleRig
