import ModuleRig.Settings.Decode

/-!
# Loading the settings of a project

A file that is named must be there. Otherwise the one in the project directory counts if there is
one, and the default settings if there is none.
-/

namespace ModuleRig

inductive SettingsError where
  | unreadable (path : Path) (cause : SystemError)
  | malformed (path : Path)
deriving DecidableEq, Repr

namespace SettingsError

def message : SettingsError → String
  | .unreadable path _ => "Failed to read config file: " ++ path.spelling
  | .malformed path => "Failed to parse " ++ path.spelling

/-- The message followed by the error behind it. Where a malformed file goes wrong is not told. -/
def fullMessage : SettingsError → String
  | .unreadable path cause => (SettingsError.unreadable path cause).message ++ ": " ++ cause.text
  | .malformed path => (SettingsError.malformed path).message ++ ": TOML parse error"

end SettingsError

namespace Settings

/-- The name of the settings file in a project directory. -/
def fileName : String := "harness.toml"

def ofFile (files : FileTree) (path : Path) : Except SettingsError Settings :=
  match files.readText path with
  | .error cause => .error (.unreadable path cause)
  | .ok text =>
    match read? text with
    | none => .error (.malformed path)
    | some s => .ok s

/-- The settings as they are written, or the default ones. -/
def find (files : FileTree) (projectDir : Path) (named : Option Path) :
    Except SettingsError Settings :=
  match named with
  | some path => ofFile files path
  | none =>
    let path := projectDir.child fileName
    if files.isFile path then ofFile files path else .ok default

def load (files : FileTree) (projectDir : Path) (named : Option Path) :
    Except SettingsError Settings := do
  return (← find files projectDir named).anchored projectDir

end Settings

end ModuleRig
