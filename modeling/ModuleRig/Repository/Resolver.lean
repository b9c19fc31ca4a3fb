import ModuleRig.Repository.Basic
import ModuleRig.Repository.Resolution

/-!
# Resolving over repositories

Resolution has two passes. The first settles the version: an exact one is taken as it is, any other
is the newest that some repository lists. The second asks the repositories in their order for the
jar, and the first that has it supplies it, wherever the version was listed.
-/

namespace ModuleRig

/-- The repositories in the order in which they are asked, and where downloads are kept. -/
structure Repositories where
  declared : List Repository
  cacheDir : Path
deriving DecidableEq, Repr

namespace Repositories

def names (rs : Repositories) : List String :=
  rs.declared.map Repository.name

def listedOn (disk : FileTree.Disk) (c : Coordinate) :
    List Repository → Action ResolveError (List String)
  | [] => return []
  | r :: rest => do
    let versions ← r.versionsOn disk c
    return versions ++ (← listedOn disk c rest)

/-- The version of a coordinate. -/
def settleOn (disk : FileTree.Disk) (rs : Repositories) (c : Coordinate) :
    Action ResolveError String :=
  match c.selector with
  | .exact version => return version
  | selector => do
    match selector.select? (← listedOn disk c rs.declared) with
    | some version => return version
    | none => throw (.noMatchingVersion c.text rs.names)

/-- The first repository with the jar, and the path of it. -/
def supplierOn (disk : FileTree.Disk) (c : Coordinate) (version : String) (cacheDir : Path) :
    List Repository → Action ResolveError (Option (Repository × Path))
  | [] => return none
  | r :: rest => do
    match ← r.fetchOn disk c version cacheDir with
    | some path => return some (r, path)
    | none => supplierOn disk c version cacheDir rest

/-- Resolves a coordinate. The digest is taken of the file as it is then, and a file that was just
downloaded is no exception. -/
def resolveOn (disk : FileTree.Disk) (rs : Repositories) (c : Coordinate) :
    Action ResolveError Artifact := do
  let version ← rs.settleOn disk c
  match ← supplierOn disk c version rs.cacheDir rs.declared with
  | none => throw (.notFound (c.text ++ " (" ++ version ++ ")") rs.names)
  | some (repository, path) =>
    let sha256 ← (Action.readFiles fun files => disk.digest files path).mapError ResolveError.system
    return ⟨c.text, version, path, repository.name, sha256⟩

/-! ## On a disk that never fails -/

def listed (c : Coordinate) (repositories : List Repository) :
    Action ResolveError (List String) :=
  listedOn .reliable c repositories

def settle (rs : Repositories) (c : Coordinate) : Action ResolveError String :=
  rs.settleOn .reliable c

def supplier (c : Coordinate) (version : String) (cacheDir : Path)
    (repositories : List Repository) : Action ResolveError (Option (Repository × Path)) :=
  supplierOn .reliable c version cacheDir repositories

def resolve (rs : Repositories) (c : Coordinate) : Action ResolveError Artifact :=
  rs.resolveOn .reliable c

end Repositories

end ModuleRig
