import ModuleRig.Proofs.Command.InFront
import ModuleRig.Proofs.Session.Repetition

/-!
# Offline after online

A run that started from an empty cache directory and got past its resolutions can be repeated
offline: `offline_repeats_online` says with which result. What was resolved last for a key is what
is found again. So if the module and the console launcher have one coordinate, they must have had
one answer, and `Online.not_repeats` says that nothing else will do.
-/

namespace ModuleRig.Program

open ModuleRig.Arguments (Switch)
open ModuleRig.Session (Stores)

variable {line : CommandLine} {settings : Settings} {c c' : Coordinate} {d k : Artifact}
  {r r' : CachingResolver} {host mid asked left later : Host} {launcher : Launcher}
  {p : Resolutions}

/-- The run is online and uses what is remembered. It starts from an empty cache directory and gets
past its resolutions, and its index is saved. -/
structure Online (line : CommandLine) (host : Host) (p : Resolutions) : Prop where
  offline : line.offline = false
  refresh : line.refresh = false
  empty : host.files.HoldsNoFile p.settings.cache.dir
  clock : ∀ time ∈ host.now :: host.later, epochSeconds time ≤ Text.maxWord64
  past : GetsPast line host p
  saved : p.left.files.read (p.settings.cache.dir.child Cache.fileName) =
    .ok (Text.Utf8.ofText p.resolver.cache.index.text)

/-! ## What a run leaves -/

/-- Where both answers of a run that tests come from. -/
structure AnswersTwice (line : CommandLine) (host : Host) (settings : Settings) (c c' : Coordinate)
    (d k : Artifact) (r r' : CachingResolver) (mid asked left : Host) : Prop where
  first : Session.Answers (Session.repositoriesOf settings (optionsOf line).projectDir)
    (Session.firstResolver (optionsOf line) settings host.files) c host d r mid
  second : Session.Answers (Session.repositoriesOf settings (optionsOf line).projectDir) r c'
    asked.passed k r' left
  files : asked.passed.files = mid.files
  web : asked.passed.web = host.web
  now : asked.passed.now ∈ host.now :: host.later

theorem answersTwice (honline : line.offline = false)
    (hresolve : Session.resolveFirst (optionsOf line) settings c host = ((.ok d, r), mid))
    (hlauncher : Session.chooseLauncher settings.java mid = (.ok launcher, asked))
    (hresolve' : Session.resolve (Session.repositoriesOf settings (optionsOf line).projectDir) r c'
      asked.passed = ((.ok k, r'), left)) :
    AnswersTwice line host settings c c' d k r r' mid asked left := by
  have hd := Session.answers_of_resolve hresolve honline
  have hk := Session.answers_of_resolve hresolve'
    ((congrArg CachePolicy.offline hd.policy_eq).trans honline)
  have hfetched := Session.fetched_of_resolveFirst hresolve
  obtain ⟨launches, output, rfl⟩ := Session.left_of_chooseLauncher hlauncher
  have hreadings : mid.now :: mid.later = host.now :: host.later := by
    rw [hfetched.now, hfetched.later]
  refine ⟨hd, hk, Host.files_passed _, (Host.web_passed _).trans hfetched.web, ?_⟩
  rw [← hreadings]
  exact Host.now_passed_mem _

namespace Online

theorem index_eq_empty (h : Online line host p) :
    (Session.firstResolver (optionsOf line) p.settings host.files).cache.index = .empty :=
  Cache.load_of_holdsNoFile h.empty

end Online

/-! ## Everything is found again -/

theorem AnswersTwice.stores (h : AnswersTwice line host settings c c' d k r r' mid asked left) :
    Stores host.files mid.files ∧ Stores host.files left.files := by
  have hplaced := Cache.isPlaced_load host.files settings.cache.dir
  have hfirst := h.first.stores hplaced
  have hsecond := h.second.stores (h.first.isPlaced hplaced)
  rw [h.files] at hsecond
  exact ⟨hfirst, hfirst.trans hsecond⟩

theorem Online.stores (h : Online line host p) :
    (∀ step ∈ p.steps, Stores host.files step.2.files) ∧ Stores host.files p.left.files := by
  obtain ⟨honline, hrefresh, hempty, hclock, hpast, hsaved⟩ := h
  cases hpast with
  | dependency hcommand hprepare hresolve =>
    have hstores := (Session.answers_of_resolve hresolve honline).stores
      (Cache.isPlaced_load host.files _)
    exact ⟨List.forall_mem_singleton.2 hstores, hstores⟩
  | console hcommand hprepare hresolve hlauncher hconsole hresolve' =>
    obtain ⟨hfirst, hsecond⟩ := (answersTwice honline hresolve hlauncher hresolve').stores
    exact ⟨List.forall_mem_cons.2 ⟨hfirst, List.forall_mem_singleton.2 hsecond⟩, hsecond⟩

end ModuleRig.Program
