import ModuleRig.Coordinate
import ModuleRig.Json.Basic
import ModuleRig.Path
import ModuleRig.SystemError
import ModuleRig.Web.Basic

/-!
# What a resolution comes to

An artifact, or an error.
-/

namespace ModuleRig

/-- What a coordinate was resolved to. -/
structure Artifact where
  /-- The text of the coordinate. -/
  coordinate : String
  version : String
  /-- The jar. -/
  path : Path
  /-- The name of the repository that supplied it. -/
  repository : String
  /-- The digest of the jar when it was resolved. -/
  sha256 : String
deriving DecidableEq, Repr

/-- The fields in the order in which an index file shows them. -/
def Artifact.toJson (a : Artifact) : Json :=
  .ofFields [("coordinate", .ofText a.coordinate), ("version", .ofText a.version),
    ("path", .ofText a.path.spelling), ("repository", .ofText a.repository),
    ("sha256", .ofText a.sha256)]

inductive ResolveError where
  | invalidCoordinate (text reason : String)
  /-- No version fits the selector. The names of all repositories are told. -/
  | noMatchingVersion (coordinate : String) (searched : List String)
  /-- A version was chosen, but no repository has its jar. -/
  | notFound (coordinate : String) (searched : List String)
  | offline (key : String)
  | web (url : String) (problem : Web.Problem)
  | system (cause : SystemError)
deriving DecidableEq, Repr

namespace ResolveError

def searchedText (searched : List String) : String :=
  String.intercalate ", " searched

def message : ResolveError → String
  | .invalidCoordinate text reason => "invalid coordinate '" ++ text ++ "': " ++ reason
  | .noMatchingVersion coordinate searched =>
    "no version of " ++ coordinate ++ " found in " ++ searchedText searched
  | .notFound coordinate searched => coordinate ++ " not found in " ++ searchedText searched
  | .offline key => "offline and no cached resolution for " ++ key
  | .web url problem => "HTTP error fetching " ++ url ++ ": " ++ problem.reason
  | .system cause => "IO error: " ++ cause.text

end ResolveError

/-- Reads a coordinate, and tells the whole text when it is not one. -/
def Coordinate.parse? (text : String) : Except ResolveError Coordinate :=
  (Coordinate.parse text).mapError fun problem => .invalidCoordinate text problem.message

end ModuleRig
