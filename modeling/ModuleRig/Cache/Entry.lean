import ModuleRig.Files.Disk
import ModuleRig.Json.Decode
import ModuleRig.Repository.Resolution

/-!
# Remembered resolutions

An entry is an artifact and the second at which its resolution began. It can be used as long as its
file still has the digest it had then, and as long as it is young enough. Ages are whole seconds, and
the lengths of time that they are compared with are exact to the nanosecond.
-/

namespace ModuleRig

/-- A length of time. -/
structure Duration where
  nanoseconds : Nat
deriving DecidableEq, Repr

namespace Duration

def ofSeconds (seconds : Nat) : Duration := ⟨seconds * 1000000000⟩

@[simp] theorem nanoseconds_ofSeconds (seconds : Nat) :
    (ofSeconds seconds).nanoseconds = seconds * 1000000000 := rfl

/-- The whole seconds. -/
def seconds (d : Duration) : Nat := d.nanoseconds / 1000000000

def isShorter (d e : Duration) : Bool := d.nanoseconds < e.nanoseconds

end Duration

/-- The whole seconds since the epoch. Times before it count as zero. -/
def epochSeconds (nanoseconds : Int) : Nat :=
  (nanoseconds / 1000000000).toNat

structure CacheEntry where
  artifact : Artifact
  /-- Whole seconds since the epoch. -/
  resolvedAt : Nat
deriving DecidableEq, Repr

namespace CacheEntry

def ofTime (artifact : Artifact) (time : Int) : CacheEntry :=
  ⟨artifact, epochSeconds time⟩

/-- The age in whole seconds. An entry from the future has the age zero. -/
def age (entry : CacheEntry) (now : Int) : Nat :=
  epochSeconds now - entry.resolvedAt

/-- The entry is younger than the window. -/
def isFresh (entry : CacheEntry) (now : Int) (window : Duration) : Bool :=
  (Duration.ofSeconds (entry.age now)).isShorter window

/-- The file of the artifact is there and has the recorded digest. -/
def isIntactOn (disk : FileTree.Disk) (entry : CacheEntry) (files : FileTree) : Bool :=
  match disk.digest files entry.artifact.path with
  | .ok digest => digest == entry.artifact.sha256
  | .error _ => false

def isIntact (entry : CacheEntry) (files : FileTree) : Bool :=
  entry.isIntactOn .reliable files

def toJson (entry : CacheEntry) : Json :=
  .ofFields [("artifact", entry.artifact.toJson), ("resolved_at", .ofNat entry.resolvedAt)]

def artifact? (j : Json) : Option Artifact :=
  match Json.record? ["coordinate", "version", "path", "repository", "sha256"] j with
  | some [coordinate, version, path, repository, sha256] => do
    let coordinate ← Json.required? Json.text? coordinate
    let version ← Json.required? Json.text? version
    let path ← Json.required? Json.text? path
    let repository ← Json.required? Json.text? repository
    let sha256 ← Json.required? Json.text? sha256
    return ⟨coordinate, version, ⟨path⟩, repository, sha256⟩
  | _ => none

def ofJson? (j : Json) : Option CacheEntry :=
  match Json.record? ["artifact", "resolved_at"] j with
  | some [artifact, resolvedAt] => do
    let artifact ← Json.required? artifact? artifact
    let resolvedAt ← Json.required? Json.word64? resolvedAt
    return ⟨artifact, resolvedAt⟩
  | _ => none

end CacheEntry

end ModuleRig
