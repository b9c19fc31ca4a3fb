import ModuleRig.Host
import ModuleRig.Repository.Metadata
import ModuleRig.Repository.Resolution

/-!
# Repositories

A repository is a directory or a web address. Both have the same layout: a directory per group
part, one for the name and one for each version. `versions` lists what a repository has, and
`fetch` gives the path of a jar, which for a web address is first downloaded below the cache
directory. The new jar is moved onto its name only when it is whole. Each is written for any disk,
and has a second name for the disk that never fails.
-/

namespace ModuleRig

structure RepositorySettings where
  name : String
  url : String
deriving DecidableEq, Repr

inductive Repository where
  | directory (name : String) (root : Path)
  | web (name : String) (address : String)
deriving DecidableEq, Repr

namespace Repository

def isWebAddress (cs : List Char) : Bool :=
  "http://".toList.isPrefixOf cs || "https://".toList.isPrefixOf cs

/-- Web addresses lose the slashes at their end. All else is a path, taken from the base, with an
optional `file://` in front. -/
def ofSettings (settings : RepositorySettings) (base : Path) : Repository :=
  let url := Text.trim settings.url.toList
  if isWebAddress url then
    .web settings.name (String.ofList (Text.dropEnd (· == '/') url))
  else
    let path := (Text.after? "file://".toList url).getD url
    .directory settings.name (Path.anchoredAt ⟨String.ofList path⟩ base)

def name : Repository → String
  | .directory name _ => name
  | .web name _ => name

def metadataUrl (address : String) (c : Coordinate) : String :=
  address ++ "/" ++ c.artifactDir ++ "/maven-metadata.xml"

def versionUrl (address : String) (c : Coordinate) (version : String) : String :=
  address ++ "/" ++ c.artifactDir ++ "/" ++ version

def jarPath (root : Path) (c : Coordinate) (version : String) : Path :=
  ((root.child c.artifactDir).child version).child (c.jarName version)

def page (url : String) : Action ResolveError (Option Bytes) :=
  (Action.request url).mapError (.web url)

def textPage (url : String) : Action ResolveError (Option String) := do
  return (← page url).map Text.Utf8.textLossy

/-- The versions in a directory, sorted. A directory that is missing has none, and a version counts
only with its jar. -/
def directoryVersionsOn (disk : FileTree.Disk) (files : FileTree) (root : Path) (c : Coordinate) :
    Except ResolveError (List String) :=
  match disk.list files (root.child c.artifactDir) with
  | .error e => if e.kind = .notFound then .ok [] else .error (.system e)
  | .ok names =>
    let present := names.filter fun v => disk.isFile files (jarPath root c v)
    .ok (present.mergeSort fun v w => decide (v ≤ w))

def versionsOn (disk : FileTree.Disk) (r : Repository) (c : Coordinate) :
    Action ResolveError (List String) :=
  match r with
  | .directory _ root => fun host => (directoryVersionsOn disk host.files root c, host)
  | .web _ address => do
    match ← textPage (metadataUrl address c) with
    | none => return []
    | some document => return Metadata.versions document

/-- The version in the name of the jar file. For a snapshot its own metadata may name another. -/
def fileVersion (address : String) (c : Coordinate) (version : String) :
    Action ResolveError String := do
  if Version.isSnapshot version then
    let document ← textPage (versionUrl address c version ++ "/maven-metadata.xml")
    return (document.bind Metadata.snapshotJarVersion?).getD version
  else return version

/-- Where the jars of web repositories are kept. -/
def downloadDir (cacheDir : Path) (c : Coordinate) (version : String) : Path :=
  ((cacheDir.child "artifacts").child c.artifactDir).child version

def downloadPath (cacheDir : Path) (c : Coordinate) (version : String) : Path :=
  (downloadDir cacheDir c version).child (c.jarName version)

/-- The operations that store a downloaded jar, which is safe before it gets its name. -/
def storeOperations (cacheDir : Path) (c : Coordinate) (version : String) (content : Bytes) :
    List FileTree.Operation :=
  let target := downloadPath cacheDir c version
  FileTree.replacement (downloadDir cacheDir c version) (target.withExtension "jar.part") target
    content true

/-- The path of a version's jar, if the repository has it. -/
def fetchOn (disk : FileTree.Disk) (r : Repository) (c : Coordinate) (version : String)
    (cacheDir : Path) : Action ResolveError (Option Path) :=
  match r with
  | .directory _ root =>
    let jar := jarPath root c version
    Action.ask fun host => if disk.isFile host.files jar then some jar else none
  | .web _ address => do
    let fileVersion ← fileVersion address c version
    match ← page (versionUrl address c version ++ "/" ++ c.jarName fileVersion) with
    | none => return none
    | some content =>
      (Action.performOn disk (storeOperations cacheDir c version content)).mapError .system
      return some (downloadPath cacheDir c version)

/-! ## On a disk that never fails -/

def directoryVersions (files : FileTree) (root : Path) (c : Coordinate) :
    Except ResolveError (List String) :=
  directoryVersionsOn .reliable files root c

def versions (r : Repository) (c : Coordinate) : Action ResolveError (List String) :=
  r.versionsOn .reliable c

def fetch (r : Repository) (c : Coordinate) (version : String) (cacheDir : Path) :
    Action ResolveError (Option Path) :=
  r.fetchOn .reliable c version cacheDir

end Repository

end ModuleRig
