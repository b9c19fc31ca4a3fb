import ModuleRig.Failure
import ModuleRig.Path

/-!
# Classpaths

A list of paths in which no path stands twice. Paths are compared by their components, and the
first spelling stays. As an argument the paths are joined by colons, so no path may hold one.
-/

namespace ModuleRig

structure Classpath where
  entries : List Path
deriving DecidableEq, Repr

namespace Classpath

def empty : Classpath := ⟨[]⟩

def holds (cp : Classpath) (p : Path) : Bool :=
  cp.entries.any p.same

/-- Adds a path at the end, unless an equal one is held. -/
def push (cp : Classpath) (p : Path) : Classpath :=
  if cp.holds p then cp else ⟨cp.entries ++ [p]⟩

def pushAll (cp : Classpath) (ps : List Path) : Classpath :=
  ps.foldl push cp

def isEmpty (cp : Classpath) : Bool :=
  cp.entries.isEmpty

def separator : Char := ':'

/-- The reason why a path with a colon is refused. -/
def separatorReason : String :=
  "classpath entry cannot be joined: path segment contains separator `:`"

def argument (cp : Classpath) : Except Failure String :=
  if cp.entries.any fun p => p.chars.contains separator then
    .error (.configuration separatorReason)
  else .ok (String.ofList (Text.joinWith separator (cp.entries.map Path.chars)))

def lengths (cp : Classpath) : List Path → List Nat
  | [] => []
  | p :: ps => (cp.push p).entries.length :: (cp.push p).lengths ps

end Classpath

end ModuleRig
