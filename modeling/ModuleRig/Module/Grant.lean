import ModuleRig.Failure
import ModuleRig.Module.Name
import ModuleRig.Text.Cut

/-!
# Native-access grants

A launcher argument may grant modules access to native code. The module that is run may be granted
it, and no other: `checkGrants` looks through a list of arguments for a grant of any other shape.
-/

namespace ModuleRig

/-- The modules an argument grants native access, in order. -/
structure Grant where
  modules : List String
deriving DecidableEq, Repr

namespace Grant

/-- The option of the launcher. A list of modules follows it behind an equals sign. -/
def option : String := "--enable-native-access"

/-- The module names in a list with commas. Blanks around a name and empty names do not count. -/
def moduleList (cs : List Char) : List String :=
  (((Text.splitOn ',' cs).map Text.trim).filter (!·.isEmpty)).map String.ofList

/-- The grant an argument makes, if it is one. -/
def parse? (argument : String) : Option Grant :=
  (Text.after? (option.toList ++ ['=']) argument.toList).map fun value => ⟨moduleList value⟩

def modulesText (grant : Grant) : String :=
  String.intercalate "," grant.modules

def argument (grant : Grant) : String :=
  option ++ "=" ++ grant.modulesText

/-- The grant is to this module and to no other. -/
def namesExactly (grant : Grant) (module : ModuleName) : Bool :=
  grant.modules == [module.text]

end Grant

def ModuleName.grant (module : ModuleName) : Grant :=
  ⟨[module.text]⟩

/-- Refuses the first grant that is not to the module alone. -/
def checkGrants (module : ModuleName) : List String → Except Failure Unit
  | [] => .ok ()
  | argument :: rest =>
    match Grant.parse? argument with
    | none => checkGrants module rest
    | some grant =>
      if grant.namesExactly module then checkGrants module rest
      else .error (.moduleMismatch module.text grant.modulesText)

end ModuleRig
