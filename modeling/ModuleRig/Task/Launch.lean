import ModuleRig.Host

/-!
# Starting programs

A program that is named by a path with a slash is that file. Any other name is looked for in the
directories of the search path, in order. Directories without it are passed over, and so are files
that may not be started. If none is left, such a file is the reason, else the last directory is.
-/

namespace ModuleRig

namespace Host

/-- The search goes on behind a directory that fails so. -/
def isPassedOver (kind : SystemError.Kind) : Bool :=
  kind = .notFound || kind = .notADirectory || kind = .permissionDenied

/-- The reason after one more directory: a file that may not be started stays the reason. -/
def laterReason (earlier later : SystemError.Kind) : SystemError.Kind :=
  if earlier = .permissionDenied then earlier else later

/-- Looks for a program in directories, given the reason so far. -/
def search (files : FileTree) (name : String) (reason : SystemError.Kind) :
    List String → Except SystemError.Kind Program
  | [] => .error reason
  | dir :: dirs =>
    match files.programAt (Path.child ⟨dir⟩ name) with
    | .ok program => .ok program
    | .error kind =>
      if isPassedOver kind then search files name (laterReason reason kind) dirs else .error kind

/-- A directory that is too long for any path stands for the working directory. The last one just
ends the search. -/
def shortened : List String → List String
  | [] => []
  | dir :: dirs =>
    if FileTree.byteLength dir ≤ FileTree.pathLimit then dir :: shortened dirs
    else if dirs.isEmpty then []
    else "" :: shortened dirs

/-- The directories of the search path. An empty one is the working directory. -/
def searchPath (h : Host) : List String :=
  match h.valueOf? "PATH" with
  | none => ["/bin", "/usr/bin"]
  | some dirs => shortened (Text.splitText ':' dirs)

def program? (h : Host) (name : Path) : Except SystemError.Kind Program :=
  if name.chars.isEmpty then .error .notFound
  else if name.chars.contains '/' then h.files.programAt name
  else if FileTree.byteLength name.spelling > FileTree.nameLimit then .error .invalidFilename
  else search h.files name.spelling .notFound h.searchPath

/-- No argument of a program may hold a zero byte. -/
def holdsZero (name : Path) (arguments : List String) : Bool :=
  name.chars.contains '\x00' || arguments.any fun a => a.toList.contains '\x00'

/-- The greatest length of one argument of a program, in bytes. -/
def argumentLimit : Nat := 131071

/-- The program that a name or path starts with the arguments. -/
def programFor? (h : Host) (name : Path) (arguments : List String) :
    Except SystemError.Kind Program := do
  let program ← h.program? name
  if arguments.any fun a => FileTree.byteLength a > argumentLimit then throw .argumentTooLong
  else return program

end Host

def SystemError.zeroByte : SystemError :=
  ⟨.invalidInput, "nul byte found in provided data"⟩

namespace Action

/-- Starts a program. What its child leaves is settled then. -/
def launch (name : Path) (arguments : List String) : Action SystemError ChildRun :=
  fun host =>
    if Host.holdsZero name arguments then (.error .zeroByte, host)
    else
      match host.programFor? name arguments with
      | .error kind => (.error (.ofKind kind), host)
      | .ok program =>
        (.ok (program arguments), { host with launches := host.launches ++ [arguments] })

/-- Waits for the end of a child that was started with the arguments. -/
def await (arguments : List String) : Action SystemError Unit :=
  fun host =>
    match host.waitError? arguments with
    | some e => (.error e, host)
    | none => (.ok (), host)

/-- Lets a child write to the outputs of the process. -/
def relay {ε : Type} (stdout stderr : Bytes) : Action ε Unit :=
  fun host =>
    (.ok (), { host with output := ⟨host.output.stdout ++ stdout, host.output.stderr ++ stderr⟩ })

end Action

end ModuleRig
