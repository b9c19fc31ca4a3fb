import ModuleRig.Proofs.Cache.IndexText
import ModuleRig.Proofs.Cache.Saving

/-!
# Starting again makes no difference

A resolver that goes on from call to call keeps its index in memory and in its file. As long as
every save succeeds and nothing else touches the file, both are the same index at every step, so a
resolver that is thrown away can be made again from the file. `restart_is_transparent` says that
nobody can tell from the answers, nor from what is asked behind the cache.
-/

namespace ModuleRig

theorem Cache.load_of_save {cache : Cache} {dir : Path} {host : Host}
    (hfile : cache.file? = some (dir.child fileName)) (hfits : cache.index.Fits)
    (hsaved : (cache.save host).1 = .ok ()) : load (cache.save host).2.files dir = cache := by
  have hindex := readIndex_of_text (read_of_save hfile hsaved)
  rw [if_pos hfits] at hindex
  simp only [load, hindex, ← hfile]

namespace CachingResolver

/-! ## Runs with restarts -/

/-- What happens on the host since the call before, and then the next call. -/
structure Step where
  meanwhile : Host → Host
  coordinate : Coordinate
  backing : Backing

def Step.call (step : Step) (host : Host) : Call :=
  ⟨step.coordinate, step.meanwhile host, step.backing⟩

/-- What can be seen of a step. -/
structure Observation where
  answer : Except ResolveError Artifact
  /-- What was asked behind the cache, if anything was. -/
  consultation? : Option Consultation
  left : Host

/-- The resolver, or the one that is made in its place from what the directory holds. -/
def renewed (restart : Bool) (dir : Path) (host : Host) (r : CachingResolver) : CachingResolver :=
  if restart then start r.policy (.load host.files dir) else r

/-- What can be seen of a run. The flag of a step says that the resolver is made again before it. -/
def observe (dir : Path) (r : CachingResolver) (host : Host) :
    List (Bool × Step) → List Observation
  | [] => []
  | (restart, step) :: steps =>
    let call := step.call host
    let r := renewed restart dir call.host r
    ⟨call.answer r, call.consultation? r, call.left r⟩ ::
      observe dir (call.next r) (call.left r) steps

/-- Nothing touches the index file but a save, which succeeds, and the clock has 64 bits. -/
structure Step.Undisturbed (step : Step) (dir : Path) (r : CachingResolver) (host : Host) :
    Prop where
  between : Cache.SameFile dir host.files (step.call host).host.files
  clock : epochSeconds (step.call host).host.now ≤ Text.maxWord64
  upstream : (step.call host).consultation? r ≠ none →
    Cache.SameFile dir (step.call host).host.files (step.call host).upstream.2.files
  saved : (step.call host).consultation? r ≠ none → ∀ a, (step.call host).upstream.1 = .ok a →
    (((step.call host).next r).cache.save (step.call host).upstream.2).1 = .ok ()

/-- The run of a resolver that is never made again is undisturbed at every step. -/
def Undisturbed (dir : Path) (r : CachingResolver) (host : Host) : List Step → Prop
  | [] => True
  | step :: steps =>
    step.Undisturbed dir r host ∧
      Undisturbed dir ((step.call host).next r) ((step.call host).left r) steps

/-! ## Resolvers that do the same -/

/-- The two differ at most in what they have counted. -/
structure Agree (r r' : CachingResolver) : Prop where
  policy : r'.policy = r.policy
  cache : r'.cache = r.cache

variable {r r' : CachingResolver}

theorem Agree.after_call (h : Agree r r') (call : Call) :
    call.answer r' = call.answer r ∧ call.consultation? r' = call.consultation? r ∧
      call.left r' = call.left r ∧ Agree (call.next r) (call.next r') := by
  by_cases hreuse : call.Reusable r.policy (r.cache.get? call.key)
  · obtain ⟨entry, hentry, hpermits⟩ := hreuse
    obtain ⟨hanswer, hnext, hleft⟩ := Call.reuses hentry hpermits
    rw [← h.cache] at hentry
    rw [← h.policy] at hpermits
    obtain ⟨hanswer', hnext', hleft'⟩ := Call.reuses hentry hpermits
    rw [consultation?_eq_none hnext, consultation?_eq_none hnext', hanswer, hanswer', hleft,
      hleft', hnext, hnext']
    exact ⟨rfl, rfl, rfl, h⟩
  · have hreuse' : ¬ call.Reusable r'.policy (r'.cache.get? call.key) := by
      rw [h.policy, h.cache]
      exact hreuse
    cases hoffline : r.policy.offline with
    | true =>
      have hoffline' : r'.policy.offline = true := by rw [h.policy, hoffline]
      obtain ⟨hanswer, hnext, hleft⟩ := Call.refuses hreuse hoffline
      obtain ⟨hanswer', hnext', hleft'⟩ := Call.refuses hreuse' hoffline'
      rw [consultation?_eq_none hnext, consultation?_eq_none hnext', hanswer, hanswer', hleft,
        hleft', hnext, hnext']
      exact ⟨rfl, rfl, rfl, h⟩
    | false =>
      have honline' : r'.policy.offline = false := by rw [h.policy, hoffline]
      obtain ⟨hpolicy, hasked, hanswer, hok, herror⟩ := Call.consults hreuse hoffline
      obtain ⟨hpolicy', hasked', hanswer', hok', herror'⟩ := Call.consults hreuse' honline'
      rw [consultation?_eq_some hasked, consultation?_eq_some hasked', hanswer, hanswer']
      have hsame : (call.next r').cache = (call.next r).cache ∧ call.left r' = call.left r := by
        cases hup : call.upstream.1 with
        | error e =>
          rw [(herror e hup).1, (herror e hup).2, (herror' e hup).1, (herror' e hup).2]
          exact ⟨h.cache, rfl⟩
        | ok a =>
          rw [(hok a hup).2, (hok' a hup).2, (hok a hup).1, (hok' a hup).1, h.cache]
          exact ⟨rfl, rfl⟩
      refine ⟨rfl, rfl, hsame.2, ?_, hsame.1⟩
      rw [hpolicy, hpolicy', h.policy]

/-! ## The index in memory and in its file -/

/-- The cache is the one that would be loaded. -/
structure Synchronized (dir : Path) (r : CachingResolver) (host : Host) : Prop where
  loaded : r.cache = .load host.files dir
  fits : r.cache.index.Fits

theorem synchronized_start (policy : CachePolicy) (dir : Path) (host : Host) :
    Synchronized dir (start policy (.load host.files dir)) host where
  loaded := rfl
  fits := Cache.fits_readIndex host.files (dir.child Cache.fileName)

theorem Synchronized.congr {dir : Path} {host host' : Host} (h : Synchronized dir r host)
    (hsame : Cache.SameFile dir host.files host'.files) : Synchronized dir r host' where
  loaded := h.loaded.trans hsame.load_eq.symm
  fits := h.fits

theorem synchronized_of_save {dir : Path} {host : Host}
    (hfile : r.cache.file? = some (dir.child Cache.fileName)) (hfits : r.cache.index.Fits)
    (hsaved : (r.cache.save host).1 = .ok ()) : Synchronized dir r (r.cache.save host).2 where
  loaded := (Cache.load_of_save hfile hfits hsaved).symm
  fits := hfits

theorem consultation?_ne_none {call : Call} (h : (call.next r).consulted = r.consulted + 1) :
    call.consultation? r ≠ none := by
  rw [consultation?_eq_some h]
  exact Option.some_ne_none _

theorem Synchronized.next {dir : Path} {host : Host} {step : Step} (h : Synchronized dir r host)
    (hstep : step.Undisturbed dir r host) :
    Synchronized dir ((step.call host).next r) ((step.call host).left r) := by
  have hbefore := h.congr hstep.between
  obtain ⟨-, hclock, hupstream, hsaved⟩ := hstep
  generalize step.call host = call at hbefore hclock hupstream hsaved ⊢
  cases call.ends r with
  | reused entry hentry hpermits hanswer hnext hleft => rwa [hnext, hleft]
  | refused hanswer hnext hleft => rwa [hnext, hleft]
  | failed e honline hup hanswer hasked hcache hleft =>
    have hafter := hbefore.congr (hupstream (consultation?_ne_none hasked))
    rw [hleft]
    exact ⟨hcache.trans hafter.loaded, hcache ▸ hafter.fits⟩
  | remembered a honline hup hanswer hasked hcache hleft =>
    rw [hleft]
    refine synchronized_of_save ?_ ?_ (hsaved (consultation?_ne_none hasked) a hup)
    · rw [file?_next, h.loaded]
      rfl
    · have hentry : (CacheEntry.ofTime a call.host.now).Fits := hclock
      rw [hcache]
      exact h.fits.insert hentry call.key

/-! ## Whole runs -/

theorem observe_of_agree {dir : Path} {host : Host} {steps : List (Bool × Step)}
    (hagree : Agree r r') (hsync : Synchronized dir r host)
    (h : Undisturbed dir r host (steps.map Prod.snd)) :
    observe dir r' host steps = observe dir r host (steps.map fun step => (false, step.2)) := by
  induction steps generalizing r r' host with
  | nil => rfl
  | cons flagged steps ih =>
    obtain ⟨restart, step⟩ := flagged
    obtain ⟨hstep, hrest⟩ := h
    have hrenewed : Agree r (renewed restart dir (step.call host).host r') := by
      unfold renewed
      split
      · refine ⟨hagree.policy, ?_⟩
        exact hstep.between.load_eq.trans hsync.loaded.symm
      · exact hagree
    obtain ⟨hanswer, hconsultation, hleft, hnext⟩ := hrenewed.after_call (step.call host)
    have hmore := ih hnext (hsync.next hstep) hrest
    rw [List.map_cons, observe, observe]
    dsimp only
    rw [hanswer, hconsultation, hleft, hmore]
    rfl

/-- A resolver that is made again before any of the steps of a run shows the same at every step as
one that goes on. -/
theorem restart_is_transparent (policy : CachePolicy) (dir : Path) (host : Host)
    (steps : List (Bool × Step))
    (h : Undisturbed dir (start policy (.load host.files dir)) host (steps.map Prod.snd)) :
    observe dir (start policy (.load host.files dir)) host steps =
      observe dir (start policy (.load host.files dir)) host
        (steps.map fun step => (false, step.2)) :=
  observe_of_agree ⟨rfl, rfl⟩ (synchronized_start policy dir host) h

/-- A jar, and a step that asks for it at a time. -/
def keptJar : Artifact :=
  ⟨"a:b:+", "1", ⟨"/b-1.jar"⟩, "r", Digest.ofBytes [1, 2, 3]⟩

def keptStep (now : Int) : Step :=
  ⟨fun host => { host with now }, ⟨"a", "b", .latest, false⟩, fun _ host => (.ok keptJar, host)⟩

def keptHost : Host :=
  { Host.blank with files := FileTree.empty.put ["b-1.jar"] (.file [1, 2, 3] .plain) }

def keptStart : CachingResolver :=
  start .default (.load keptHost.files ⟨"/c"⟩)

/-- Three steps, the last of them a day after the others, with two new starts. -/
def keptSteps : List (Bool × Step) :=
  [(false, keptStep 1000000000), (true, keptStep 2000000000), (true, keptStep 90000000000000)]

/-- The new start before the second step is not seen: nothing is asked behind the cache. -/
theorem restart_is_transparent_over_a_day :
    Undisturbed ⟨"/c"⟩ keptStart keptHost (keptSteps.map Prod.snd) ∧
    (observe ⟨"/c"⟩ keptStart keptHost keptSteps).map (·.answer) =
      [.ok keptJar, .ok keptJar, .ok keptJar] ∧
    (observe ⟨"/c"⟩ keptStart keptHost keptSteps).map (·.consultation?.isSome) =
      [true, false, true] := by
  have hundisturbed : Undisturbed ⟨"/c"⟩ keptStart keptHost (keptSteps.map Prod.snd) := by
    refine ⟨?_, ?_, ?_, trivial⟩
    all_goals exact ⟨rfl, by decide, fun _ => rfl, fun _ a _ => by decide +kernel⟩
  have hsame : observe ⟨"/c"⟩ keptStart keptHost keptSteps = _ :=
    restart_is_transparent .default ⟨"/c"⟩ keptHost keptSteps hundisturbed
  refine ⟨hundisturbed, ?_, ?_⟩
  all_goals rw [hsame]; decide +kernel

end CachingResolver

end ModuleRig
