import ModuleRig.Program
import Std.Time.DateTime.Timestamp

/-!
# The process

The thin layer between the program and the real host. It takes a picture of the working directory,
runs the program on it, carries changed files back and writes the output. It opens no connections
and starts no other programs: on this host the web is out of reach, and no file has a program.
-/

namespace ModuleRig.Process

/-- What stands at an entry of a directory and below it. -/
partial def picture (dir : Location) (entry : IO.FS.DirEntry) : IO (List (Location × Node)) := do
  let l := dir ++ [entry.fileName]
  if ← entry.path.isDir then
    let below ← (← entry.path.readDir).toList.mapM (picture l)
    return (l, .directory) :: below.flatten
  else
    return [(l, .file (← IO.FS.readBinFile entry.path).toList .plain)]

def wayTo : Location → List Location
  | [] => []
  | name :: rest => [name] :: (wayTo rest).map (name :: ·)

def variableOf (name : String) : IO (List (String × String)) := do
  return ((← IO.getEnv name).map fun value => (name, value)).toList

def host : IO Host := do
  let dir ← IO.currentDir
  let here := (Text.splitText '/' dir.toString).filter (!·.isEmpty)
  let below ← (← dir.readDir).toList.mapM (picture here)
  let now ← Std.Time.Timestamp.now
  return {
    files := ⟨below.flatten ++ (wayTo here).map fun l => (l, .directory), here⟩
    web := .unreachable
    environment := (← variableOf "JAVA_HOME") ++ (← variableOf "PATH")
    now := now.toNanosecondsSinceUnixEpoch.val
    later := []
    requests := []
    launches := []
    waitError? _ := none
    output := ⟨[], []⟩ }

def spell (l : Location) : String :=
  "/" ++ String.intercalate "/" l

def carry (l : Location) (old new : Option Node) : IO Unit :=
  match old, new with
  | none, some .directory => IO.FS.createDirAll (spell l)
  | some (.file before _), some (.file after _) =>
    if before = after then return () else IO.FS.writeBinFile (spell l) ⟨after.toArray⟩
  | _, some (.file after _) => IO.FS.writeBinFile (spell l) ⟨after.toArray⟩
  | _, _ => return ()

/-- Carries the changes of the file tree to the host, directories before what they hold. -/
def carryAll (old new : FileTree) : IO Unit := do
  let places := (new.entries.map Prod.fst).eraseDups.mergeSort fun a b => a.length ≤ b.length
  for l in places do
    carry l (old.node? l) (new.node? l)

def write (stream : IO.FS.Stream) (bytes : Bytes) : IO Unit := do
  stream.write ⟨bytes.toArray⟩
  stream.flush

def answerUsage (error : UsageError) : IO Unit :=
  match error with
  | .version => IO.print Program.versionText
  | .help => IO.println "usage: regex-harness [OPTIONS] <test|runBenchmarks|run>"
  | _ => IO.eprintln "usage: regex-harness [OPTIONS] <test|runBenchmarks|run>"

end ModuleRig.Process

open ModuleRig in
def main (arguments : List String) : IO UInt32 := do
  let before ← Process.host
  let (ending, after) := Program.start arguments before
  match ending with
  | .usage error =>
    Process.answerUsage error
    return error.exitCode.toUInt32
  | .finished code =>
    Process.carryAll before.files after.files
    Process.write (← IO.getStdout) after.output.stdout
    Process.write (← IO.getStderr) after.output.stderr
    return code.toUInt32
