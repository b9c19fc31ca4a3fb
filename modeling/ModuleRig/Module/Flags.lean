import ModuleRig.Module.Grant

/-!
# Launcher flags

The flags with which a module is run, tested and benchmarked. They are made once from the settings
and checked against the module whenever a task takes them.
-/

namespace ModuleRig

structure ExecutionSettings where
  /-- Grant the module native access. -/
  enableNativeAccess : Bool
  /-- Further launcher arguments. -/
  jvmArgs : List String
deriving DecidableEq, Repr

namespace ExecutionSettings

def default : ExecutionSettings := ⟨true, []⟩

/-- The argument that grants the module native access, when the settings ask for it. -/
def grantArguments (settings : ExecutionSettings) (module : ModuleName) : List String :=
  if settings.enableNativeAccess then [module.grant.argument] else []

end ExecutionSettings

structure Flags where
  module : ModuleName
  arguments : List String
deriving DecidableEq, Repr

namespace Flags

/-- Adds an argument at the end, unless it is there already. -/
def addNew (held : List String) (argument : String) : List String :=
  if held.contains argument then held else held ++ [argument]

/-- The flags of a module under the settings. The grant comes first, and each argument once. -/
def ofSettings (module : ModuleName) (settings : ExecutionSettings) : Except Failure Flags := do
  checkGrants module settings.jvmArgs
  return ⟨module, settings.jvmArgs.foldl addNew (settings.grantArguments module)⟩

/-- Some flag grants the module native access. -/
def grantsNativeAccess (flags : Flags) : Bool :=
  (flags.arguments.filterMap Grant.parse?).any (·.namesExactly flags.module)

def verifyFor (flags : Flags) (module : ModuleName) : Except Failure Unit :=
  if flags.module = module then checkGrants module flags.arguments
  else .error (.moduleMismatch module.text flags.module.text)

end Flags

end ModuleRig
