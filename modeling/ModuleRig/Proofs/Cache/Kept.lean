import Mathlib.Data.List.Induction
import ModuleRig.Proofs.Cache.History

/-!
# Answers that are kept

Once a coordinate is resolved, its answer is used again while its file stays as it was, if the
coordinate has no window. `keepsLast_iff` and `keepsSettled_iff` say that these are the only
coordinates of which this is true: with a window, a run can wait until the answer is too old.
-/

namespace ModuleRig

namespace CachingResolver

/-! ## The last answer -/

/-- The good answer that the call gives, if it is about this key. -/
def Call.answerFor? (call : Call) (r : CachingResolver) (key : String) : Option Artifact :=
  if call.key = key then (call.answer r).toOption else none

/-- The last good answer of a run for a key, or what was known of it before. -/
def lastAnswer? (known? : Option Artifact) (r : CachingResolver) (key : String) :
    List Call → Option Artifact
  | [] => known?
  | call :: calls => lastAnswer? ((call.answerFor? r key).or known?) (call.next r) key calls

/-- What is on record for a key. -/
def known? (r : CachingResolver) (key : String) : Option Artifact :=
  (r.cache.get? key).map CacheEntry.artifact

theorem Call.answerFor?_of_ok {call : Call} {r : CachingResolver} {a : Artifact}
    (h : call.answer r = .ok a) : call.answerFor? r call.key = some a := by
  rw [answerFor?, if_pos rfl, h]
  rfl

theorem Call.answerFor?_of_error {call : Call} {r : CachingResolver} {e : ResolveError}
    (h : call.answer r = .error e) : call.answerFor? r call.key = none := by
  rw [answerFor?, if_pos rfl, h]
  rfl

theorem Call.answerFor?_of_ne {call : Call} {key : String} (r : CachingResolver)
    (h : call.key ≠ key) : call.answerFor? r key = none :=
  if_neg h

theorem known?_next (call : Call) (r : CachingResolver) (key : String) :
    (call.next r).known? key = (call.answerFor? r key).or (r.known? key) := by
  unfold known?
  by_cases hkey : call.key = key
  · subst hkey
    rcases call.ends r with ⟨entry, hentry, -, hanswer, hnext, -⟩ | ⟨hanswer, hnext, -⟩ |
      ⟨e, -, -, hanswer, -, hcache, -⟩ | ⟨a, -, -, hanswer, -, hcache, -⟩
    · rw [hnext, Call.answerFor?_of_ok hanswer, hentry]
      rfl
    · rw [hnext, Call.answerFor?_of_error hanswer, Option.none_or]
    · rw [hcache, Call.answerFor?_of_error hanswer, Option.none_or]
    · have hinsert : (call.next r).cache.get? call.key = some (.ofTime a call.host.now) := by
        rw [hcache]
        exact CacheIndex.get?_insert_self _ _ _
      rw [hinsert, Call.answerFor?_of_ok hanswer]
      rfl
  · rw [get?_next_ne (Ne.symm hkey), Call.answerFor?_of_ne r hkey, Option.none_or]

theorem known?_after (r : CachingResolver) (key : String) (calls : List Call) :
    (after r calls).known? key = lastAnswer? (r.known? key) r key calls := by
  induction calls generalizing r with
  | nil => rfl
  | cons call calls ih =>
    rw [lastAnswer?, ← known?_next]
    exact ih (call.next r)

theorem lastAnswer?_concat (known? : Option Artifact) (r : CachingResolver) (key : String)
    (calls : List Call) (call : Call) :
    lastAnswer? known? r key (calls ++ [call]) =
      (call.answerFor? (after r calls) key).or (lastAnswer? known? r key calls) := by
  induction calls generalizing known? r with
  | nil => rfl
  | cons first calls ih => exact ih _ (first.next r)

/-! ## Using an answer again -/

/-- The artifact's file is there as it was when the call begins. -/
def Call.FindsIntact (call : Call) (a : Artifact) : Prop :=
  call.host.files.digest a.path = .ok a.sha256

/-- The call gives this answer of its own accord. Nothing behind the cache is asked. -/
structure Call.Reuses (call : Call) (r : CachingResolver) (a : Artifact) : Prop where
  answer : call.answer r = .ok a
  quiet : call.consultation? r = none
  resolver : call.next r = r
  host : call.left r = call.host

theorem reuses_of_known? {call : Call} {r : CachingResolver} {a : Artifact}
    (hrefresh : r.policy.refresh = false)
    (hage : r.policy.offline = true ∨ r.policy.windowFor call.coordinate = none)
    (hknown : r.known? call.key = some a) (hintact : call.FindsIntact a) : call.Reuses r a := by
  obtain ⟨entry, hentry, rfl⟩ := Option.map_eq_some_iff.1 hknown
  have hpermits : r.policy.Permits call.coordinate call.host entry := by
    refine ⟨hrefresh, hintact, ?_⟩
    rw [← or_assoc]
    exact .inl hage
  obtain ⟨hanswer, hnext, hleft⟩ := Call.reuses hentry hpermits
  exact ⟨hanswer, consultation?_eq_none hnext, hnext, hleft⟩

end CachingResolver

namespace CachePolicy

open CachingResolver

/-- In every run the last good answer for the coordinate's key is the next one too, at whatever time
the coordinate is asked for, while its file is intact. -/
def KeepsLast (policy : CachePolicy) (c : Coordinate) : Prop :=
  ∀ (cache : Cache) (past : List Call) (call : Call) (a : Artifact), call.coordinate = c →
    lastAnswer? ((start policy cache).known? c.cacheKey) (start policy cache) c.cacheKey past =
      some a →
    call.FindsIntact a → call.Reuses (after (start policy cache) past) a

/-- In every run the coordinate keeps the answer it once got, as long as the calls for its key are
calls for itself and find the file intact. -/
def KeepsSettled (policy : CachePolicy) (c : Coordinate) : Prop :=
  ∀ (cache : Cache) (past : List Call) (first : Call) (between : List Call) (later : Call)
    (a : Artifact), first.coordinate = c → first.answer (after (start policy cache) past) = .ok a →
    (∀ call ∈ between, call.key = c.cacheKey → call.coordinate = c ∧ call.FindsIntact a) →
    later.coordinate = c → later.FindsIntact a →
    later.Reuses (after (start policy cache) (past ++ first :: between)) a

variable {policy : CachePolicy} {c : Coordinate}

theorem KeepsLast.keepsSettled (h : policy.KeepsLast c) : policy.KeepsSettled c := by
  rintro cache past first between later a rfl hfirst hbetween hlater hintact
  refine h cache _ later a hlater ?_ hintact
  -- The calls in between are added one by one behind the first.
  induction between using List.reverseRecOn with
  | nil =>
    rw [lastAnswer?_concat, ← Call.key, Call.answerFor?_of_ok hfirst]
    rfl
  | append_singleton between call ih =>
    have hlast := ih fun other hother => hbetween other (List.mem_append_left _ hother)
    rw [← List.cons_append, ← List.append_assoc, lastAnswer?_concat, hlast]
    by_cases hkey : call.key = first.coordinate.cacheKey
    · obtain ⟨hcoordinate, hfinds⟩ := hbetween call (by simp) hkey
      have hanswer := (h cache _ call a hcoordinate hlast hfinds).answer
      rw [← hkey, Call.answerFor?_of_ok hanswer]
      rfl
    · rw [Call.answerFor?_of_ne _ hkey]
      rfl

theorem keepsLast_of_no_window (hrefresh : policy.refresh = false)
    (hage : policy.offline = true ∨ policy.windowFor c = none) : policy.KeepsLast c := by
  rintro cache past call a rfl hlast hintact
  have hpolicy : (after (start policy cache) past).policy = policy := policy_after _ _
  rw [← known?_after] at hlast
  refine reuses_of_known? ?_ ?_ hlast hintact
  · rw [hpolicy, hrefresh]
  · rw [hpolicy]
    exact hage

/-! ## Waiting until an answer is too old -/

def jarFiles : FileTree := Host.blank.files.put ["b.jar"] (.file [1, 2, 3] .plain)

def jarOf (c : Coordinate) : Artifact :=
  ⟨c.text, "1", ⟨"/b.jar"⟩, "r", Digest.ofBytes [1, 2, 3]⟩

/-- A call for the coordinate. What stands behind the cache knows one jar, whose file is there. -/
def jarCall (c : Coordinate) (now : Int) : Call :=
  ⟨c, { Host.blank with files := jarFiles, now }, fun _ host => (.ok (jarOf c), host)⟩

theorem digest_jarFiles : jarFiles.digest ⟨"/b.jar"⟩ = .ok (Digest.ofBytes [1, 2, 3]) := by
  decide +kernel

theorem findsIntact_jarCall (c : Coordinate) (now : Int) : (jarCall c now).FindsIntact (jarOf c) :=
  digest_jarFiles

theorem first_jarCall (honline : policy.offline = false) (c : Coordinate) (now : Int) :
    (jarCall c now).answer (start policy .inMemory) = .ok (jarOf c) ∧
      ((jarCall c now).next (start policy .inMemory)).cache.get? c.cacheKey =
        some (.ofTime (jarOf c) now) := by
  have hnone : ¬ (jarCall c now).Reusable (start policy .inMemory).policy
      ((start policy .inMemory).cache.get? (jarCall c now).key) := by
    rintro ⟨entry, hentry, -⟩
    cases hentry
  obtain ⟨-, -, hanswer, hok, -⟩ := Call.consults hnone honline
  refine ⟨hanswer, ?_⟩
  rw [(hok (jarOf c) rfl).1]
  exact CacheIndex.get?_insert_self _ _ _

/-- The time at which an answer of time zero is too old for the window, and more than that. -/
def outlasting (window : Duration) : Int :=
  window.nanoseconds * 1000000000

theorem not_lt_of_outlasting (a : Artifact) (window : Duration) :
    ¬ (Duration.ofSeconds (epochSeconds (outlasting window) -
        (CacheEntry.ofTime a 0).resolvedAt)).nanoseconds < window.nanoseconds := by
  have hstart : (CacheEntry.ofTime a 0).resolvedAt = 0 := rfl
  rw [hstart, Duration.nanoseconds_ofSeconds]
  unfold epochSeconds outlasting
  omega

theorem not_keepsSettled_of_window {window : Duration} (honline : policy.offline = false)
    (hwindow : policy.windowFor c = some window) : ¬ policy.KeepsSettled c := by
  intro hkeeps
  obtain ⟨hfirst, hrecord⟩ := first_jarCall honline c 0
  have hlater := hkeeps .inMemory [] (jarCall c 0) [] (jarCall c (outlasting window)) (jarOf c) rfl
    hfirst (by simp) rfl (findsIntact_jarCall c _)
  obtain ⟨entry, hentry, -, -, hage⟩ := reusable_of_quiet hlater.answer hlater.quiet
  have hpolicy : (after (start policy .inMemory) ([] ++ [jarCall c 0])).policy = policy :=
    policy_after _ _
  obtain rfl := Option.some.inj (hrecord.symm.trans hentry)
  rw [hpolicy] at hage
  rcases hage with hoffline | hnone | ⟨window', hsome, hlt⟩
  · rw [honline] at hoffline
    contradiction
  · have := hwindow.symm.trans hnone
    contradiction
  · obtain rfl := Option.some.inj (hwindow.symm.trans hsome)
    exact not_lt_of_outlasting _ window hlt

theorem window_cases (h : ¬ (policy.offline = true ∨ policy.windowFor c = none)) :
    policy.offline = false ∧ ∃ window, policy.windowFor c = some window := by
  rw [not_or, Bool.not_eq_true] at h
  exact ⟨h.1, Option.ne_none_iff_exists'.1 h.2⟩

theorem keepsSettled_iff (hrefresh : policy.refresh = false) :
    policy.KeepsSettled c ↔ policy.offline = true ∨ policy.windowFor c = none := by
  constructor
  · intro hkeeps
    by_contra h
    obtain ⟨honline, window, hwindow⟩ := window_cases h
    exact not_keepsSettled_of_window honline hwindow hkeeps
  · intro h
    exact (keepsLast_of_no_window hrefresh h).keepsSettled

theorem keepsLast_iff (hrefresh : policy.refresh = false) :
    policy.KeepsLast c ↔ policy.offline = true ∨ policy.windowFor c = none :=
  ⟨fun h => (keepsSettled_iff hrefresh).1 h.keepsSettled, keepsLast_of_no_window hrefresh⟩

end CachePolicy

end ModuleRig
