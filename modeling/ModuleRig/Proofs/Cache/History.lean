import ModuleRig.Cache.Resolver

/-!
# What a caching resolver has seen decides what it answers

A run is a list of calls. `remembered?` tells from the answers that came from behind the cache what
is on record for a key, without a look at the index. `resolve_follows_history` says that each call
of a run goes by that record.
-/

namespace ModuleRig

namespace CachePolicy

/-- The entry may be used again: nothing asks for a new one, its file is as it was, and it is young
enough or its age does not count. -/
def Permits (policy : CachePolicy) (c : Coordinate) (host : Host) (entry : CacheEntry) : Prop :=
  policy.refresh = false ∧
  host.files.digest entry.artifact.path = .ok entry.artifact.sha256 ∧
  (policy.offline = true ∨ policy.windowFor c = none ∨ ∃ window, policy.windowFor c = some window ∧
    (Duration.ofSeconds (epochSeconds host.now - entry.resolvedAt)).nanoseconds <
      window.nanoseconds)

end CachePolicy

theorem CacheEntry.isIntact_iff (entry : CacheEntry) (files : FileTree) :
    entry.isIntact files = true ↔ files.digest entry.artifact.path = .ok entry.artifact.sha256 := by
  unfold isIntact isIntactOn
  rw [FileTree.Disk.digest_reliable]
  cases files.digest entry.artifact.path with
  | ok digest => rw [beq_iff_eq, Except.ok.injEq]
  | error e => simp

theorem CachePolicy.allowsReuse_iff (policy : CachePolicy) (c : Coordinate) (entry : CacheEntry)
    (now : Int) :
    policy.allowsReuse c entry now = true ↔
      policy.offline = true ∨ policy.windowFor c = none ∨ ∃ window,
        policy.windowFor c = some window ∧
          (Duration.ofSeconds (epochSeconds now - entry.resolvedAt)).nanoseconds <
            window.nanoseconds := by
  unfold CachePolicy.allowsReuse
  rw [Bool.or_eq_true]
  refine or_congr_right ?_
  cases policy.windowFor c with
  | none => simp
  | some window =>
    simp only [Option.some.injEq, reduceCtorEq, false_or, exists_eq_left']
    exact decide_eq_true_iff

namespace CachingResolver

/-! ## One call -/

theorem reusable?_eq (r : CachingResolver) (c : Coordinate) (host : Host) :
    r.reusable? c host =
      if r.policy.refresh then none
      else
        match r.cache.get? c.cacheKey with
        | none => none
        | some entry =>
          if entry.isIntact host.files && r.policy.allowsReuse c entry host.now then
            some entry.artifact
          else none :=
  rfl

theorem reusable?_eq_some_iff (r : CachingResolver) (c : Coordinate) (host : Host) (a : Artifact) :
    r.reusable? c host = some a ↔
      ∃ entry, r.cache.get? c.cacheKey = some entry ∧ r.policy.Permits c host entry ∧
        entry.artifact = a := by
  rw [reusable?_eq]
  unfold CachePolicy.Permits
  cases hrefresh : r.policy.refresh with
  | true => simp
  | false =>
    cases hentry : r.cache.get? c.cacheKey with
    | none => simp
    | some entry =>
      simp only [Bool.false_eq_true, if_false, Option.some.injEq, exists_eq_left', true_and,
        ← CacheEntry.isIntact_iff, ← CachePolicy.allowsReuse_iff, ← Bool.and_eq_true,
        Option.ite_none_right_eq_some]

theorem resolve_eq (r : CachingResolver) (backing : Backing) (c : Coordinate) (host : Host) :
    r.resolve backing c host =
      match r.reusable? c host with
      | some artifact => ((.ok artifact, r), host)
      | none =>
        if r.policy.offline then ((.error (.offline c.cacheKey), r), host)
        else r.consult backing c host :=
  rfl

theorem resolve_of_permits {r : CachingResolver} {c : Coordinate} {host : Host} {entry : CacheEntry}
    (backing : Backing) (hentry : r.cache.get? c.cacheKey = some entry)
    (hpermits : r.policy.Permits c host entry) :
    r.resolve backing c host = ((.ok entry.artifact, r), host) := by
  have := (reusable?_eq_some_iff r c host entry.artifact).2 ⟨entry, hentry, hpermits, rfl⟩
  rw [resolve_eq, this]

theorem reusable?_eq_none {r : CachingResolver} {c : Coordinate} {host : Host}
    (hnone : ¬ ∃ entry, r.cache.get? c.cacheKey = some entry ∧ r.policy.Permits c host entry) :
    r.reusable? c host = none := by
  rw [Option.eq_none_iff_forall_ne_some]
  intro a ha
  obtain ⟨entry, hentry, hpermits, -⟩ := (reusable?_eq_some_iff r c host a).1 ha
  exact hnone ⟨entry, hentry, hpermits⟩

theorem consult_of_error {r : CachingResolver} {backing : Backing} {c : Coordinate}
    {host left : Host} {e : ResolveError} (h : backing c host = (.error e, left)) :
    r.consult backing c host = ((.error e, { r with consulted := r.consulted + 1 }), left) := by
  rw [consult, consultOn, h]

theorem consult_of_ok {r : CachingResolver} {backing : Backing} {c : Coordinate}
    {host left : Host} {a : Artifact} (h : backing c host = (.ok a, left)) :
    r.consult backing c host =
      ((.ok a, { r with
          cache := r.cache.insert c.cacheKey (.ofTime a host.now), consulted := r.consulted + 1 }),
        ((r.cache.insert c.cacheKey (.ofTime a host.now)).save left).2) := by
  rw [consult, consultOn, h]
  rfl

/-! ## Runs -/

/-- One call of `resolve`: what is asked, the host that the call finds, and what stands behind the
cache at that time. Nothing ties the host to the one that the call before left, so the clock, the
files and the web may change in any way in between. -/
structure Call where
  coordinate : Coordinate
  host : Host
  backing : Backing

namespace Call

def run (call : Call) (r : CachingResolver) :
    (Except ResolveError Artifact × CachingResolver) × Host :=
  r.resolve call.backing call.coordinate call.host

def key (call : Call) : String := call.coordinate.cacheKey

def answer (call : Call) (r : CachingResolver) : Except ResolveError Artifact := (call.run r).1.1

/-- The resolver that the call leaves. -/
def next (call : Call) (r : CachingResolver) : CachingResolver := (call.run r).1.2

/-- The host that the call leaves. -/
def left (call : Call) (r : CachingResolver) : Host := (call.run r).2

/-- What stands behind the cache would answer, and the host it would leave. -/
def upstream (call : Call) : Except ResolveError Artifact × Host :=
  call.backing call.coordinate call.host

end Call

/-- The resolver after some calls. -/
def after (r : CachingResolver) (calls : List Call) : CachingResolver :=
  calls.foldl (fun r call => call.next r) r

/-- An answer that came from behind the cache. -/
structure Consultation where
  key : String
  /-- When the call began that asked for it. -/
  time : Int
  answer : Except ResolveError Artifact

/-- The answer from behind the cache in a call, if it asked for one. -/
def Call.consultation? (call : Call) (r : CachingResolver) : Option Consultation :=
  if (call.next r).consulted = r.consulted then none
  else some ⟨call.key, call.host.now, call.upstream.1⟩

/-- All answers from behind the cache in a run, oldest first. -/
def consultations (r : CachingResolver) : List Call → List Consultation
  | [] => []
  | call :: calls => (call.consultation? r).toList ++ consultations (call.next r) calls

/-- What an answer puts on record for a key: a good one for this key, with its time. -/
def Consultation.record? (key : String) (consultation : Consultation) : Option CacheEntry :=
  match consultation.answer with
  | .ok artifact =>
    if consultation.key = key then some (.ofTime artifact consultation.time) else none
  | .error _ => none

theorem record?_ok (key k : String) (time : Int) (a : Artifact) :
    Consultation.record? key ⟨k, time, .ok a⟩ = if k = key then some (.ofTime a time) else none :=
  rfl

theorem record?_error (key k : String) (time : Int) (e : ResolveError) :
    Consultation.record? key ⟨k, time, .error e⟩ = none :=
  rfl

/-- What is on record for a key: the last good answer, or what there was at the start. -/
def remembered? (start : CacheIndex) (log : List Consultation) (key : String) : Option CacheEntry :=
  (log.reverse.findSome? (Consultation.record? key)).or (start.get? key)

/-! ## One call of a run -/

/-- The record can be used again for the call. -/
def Call.Reusable (call : Call) (policy : CachePolicy) (known? : Option CacheEntry) : Prop :=
  ∃ entry, known? = some entry ∧ policy.Permits call.coordinate call.host entry

theorem Call.reuses {call : Call} {r : CachingResolver} {entry : CacheEntry}
    (hentry : r.cache.get? call.key = some entry)
    (hpermits : r.policy.Permits call.coordinate call.host entry) :
    call.answer r = .ok entry.artifact ∧ call.next r = r ∧ call.left r = call.host := by
  have hrun : call.run r = ((.ok entry.artifact, r), call.host) :=
    resolve_of_permits call.backing hentry hpermits
  rw [Call.answer, Call.next, Call.left, hrun]
  exact ⟨rfl, rfl, rfl⟩

theorem Call.refuses {call : Call} {r : CachingResolver}
    (hnone : ¬ call.Reusable r.policy (r.cache.get? call.key))
    (hoffline : r.policy.offline = true) :
    call.answer r = .error (.offline call.key) ∧ call.next r = r ∧ call.left r = call.host := by
  have hrun : call.run r = ((.error (.offline call.key), r), call.host) := by
    rw [Call.run, resolve_eq, reusable?_eq_none hnone]
    simp only [hoffline, if_true, Call.key]
  rw [Call.answer, Call.next, Call.left, hrun]
  exact ⟨rfl, rfl, rfl⟩

theorem Call.consults {call : Call} {r : CachingResolver}
    (hnone : ¬ call.Reusable r.policy (r.cache.get? call.key))
    (honline : r.policy.offline = false) :
    (call.next r).policy = r.policy ∧ (call.next r).consulted = r.consulted + 1 ∧
    call.answer r = call.upstream.1 ∧
    (∀ a, call.upstream.1 = .ok a →
      (call.next r).cache = r.cache.insert call.key (.ofTime a call.host.now) ∧
      call.left r = ((call.next r).cache.save call.upstream.2).2) ∧
    ∀ e, call.upstream.1 = .error e →
      (call.next r).cache = r.cache ∧ call.left r = call.upstream.2 := by
  have hrun : call.run r = r.consult call.backing call.coordinate call.host := by
    rw [Call.run, resolve_eq, reusable?_eq_none hnone]
    simp only [honline, Bool.false_eq_true, if_false]
  rcases hup : call.upstream with ⟨answer, left⟩
  rw [Call.answer, Call.next, Call.left, hrun]
  cases answer with
  | error e =>
    rw [consult_of_error hup]
    refine ⟨rfl, rfl, rfl, ?_, fun _ _ => ⟨rfl, rfl⟩⟩
    intro _ h
    contradiction
  | ok a =>
    rw [consult_of_ok hup]
    refine ⟨rfl, rfl, rfl, ?_, ?_⟩
    · rintro _ ⟨⟩
      exact ⟨rfl, rfl⟩
    · intro _ h
      contradiction

/-- The ways in which a call can end. -/
inductive Call.Ends (call : Call) (r : CachingResolver) : Prop where
  | reused (entry : CacheEntry) (hentry : r.cache.get? call.key = some entry)
    (hpermits : r.policy.Permits call.coordinate call.host entry)
    (hanswer : call.answer r = .ok entry.artifact) (hnext : call.next r = r)
    (hleft : call.left r = call.host) : call.Ends r
  | refused (hanswer : call.answer r = .error (.offline call.key)) (hnext : call.next r = r)
    (hleft : call.left r = call.host) : call.Ends r
  | failed (e : ResolveError) (honline : r.policy.offline = false)
    (hup : call.upstream.1 = .error e) (hanswer : call.answer r = .error e)
    (hasked : (call.next r).consulted = r.consulted + 1)
    (hcache : (call.next r).cache = r.cache) (hleft : call.left r = call.upstream.2) : call.Ends r
  | remembered (a : Artifact) (honline : r.policy.offline = false)
    (hup : call.upstream.1 = .ok a) (hanswer : call.answer r = .ok a)
    (hasked : (call.next r).consulted = r.consulted + 1)
    (hcache : (call.next r).cache = r.cache.insert call.key (.ofTime a call.host.now))
    (hleft : call.left r = ((call.next r).cache.save call.upstream.2).2) : call.Ends r

theorem Call.ends (call : Call) (r : CachingResolver) : call.Ends r := by
  by_cases h : call.Reusable r.policy (r.cache.get? call.key)
  · obtain ⟨entry, hentry, hpermits⟩ := h
    obtain ⟨hanswer, hnext, hleft⟩ := Call.reuses hentry hpermits
    exact .reused entry hentry hpermits hanswer hnext hleft
  · cases hoffline : r.policy.offline with
    | true =>
      obtain ⟨hanswer, hnext, hleft⟩ := Call.refuses h hoffline
      exact .refused hanswer hnext hleft
    | false =>
      obtain ⟨-, hasked, hanswer, hok, herror⟩ := Call.consults h hoffline
      cases hup : call.upstream.1 with
      | error e =>
        obtain ⟨hcache, hleft⟩ := herror e hup
        exact .failed e hoffline hup (hanswer.trans hup) hasked hcache hleft
      | ok a =>
        obtain ⟨hcache, hleft⟩ := hok a hup
        exact .remembered a hoffline hup (hanswer.trans hup) hasked hcache hleft

theorem policy_next (call : Call) (r : CachingResolver) : (call.next r).policy = r.policy := by
  by_cases h : call.Reusable r.policy (r.cache.get? call.key)
  · obtain ⟨entry, hentry, hpermits⟩ := h
    rw [(Call.reuses hentry hpermits).2.1]
  · cases hoffline : r.policy.offline with
    | true => rw [(Call.refuses h hoffline).2.1]
    | false => exact (Call.consults h hoffline).1

theorem consultation?_eq_none {call : Call} {r : CachingResolver} (h : call.next r = r) :
    call.consultation? r = none := by
  rw [Call.consultation?, h, if_pos rfl]

theorem consultation?_eq_some {call : Call} {r : CachingResolver}
    (h : (call.next r).consulted = r.consulted + 1) :
    call.consultation? r = some ⟨call.key, call.host.now, call.upstream.1⟩ := by
  rw [Call.consultation?, h, if_neg (Nat.succ_ne_self _)]

theorem get?_next (call : Call) (r : CachingResolver) (key : String) :
    (call.next r).cache.get? key =
      ((call.consultation? r).bind (Consultation.record? key)).or (r.cache.get? key) := by
  by_cases h : call.Reusable r.policy (r.cache.get? call.key)
  · obtain ⟨entry, hentry, hpermits⟩ := h
    have hnext := (Call.reuses hentry hpermits).2.1
    rw [consultation?_eq_none hnext, hnext]
    rfl
  cases hoffline : r.policy.offline with
  | true =>
    have hnext := (Call.refuses h hoffline).2.1
    rw [consultation?_eq_none hnext, hnext]
    rfl
  | false =>
    obtain ⟨-, hasked, -, hok, herror⟩ := Call.consults h hoffline
    rw [consultation?_eq_some hasked, Option.bind_some]
    cases hup : call.upstream.1 with
    | error e =>
      rw [(herror e hup).1, record?_error]
      rfl
    | ok a =>
      rw [(hok a hup).1, record?_ok]
      by_cases hkey : call.key = key
      · subst hkey
        rw [if_pos rfl]
        exact CacheIndex.get?_insert_self _ _ _
      · rw [if_neg hkey]
        exact CacheIndex.get?_insert_ne _ _ (Ne.symm hkey)

/-! ## A whole run -/

theorem policy_after (r : CachingResolver) (calls : List Call) :
    (after r calls).policy = r.policy := by
  induction calls generalizing r with
  | nil => rfl
  | cons call calls ih => exact (ih (call.next r)).trans (policy_next call r)

theorem remembered?_append (start : CacheIndex) (log new : List Consultation) (key : String) :
    remembered? start (log ++ new) key =
      (new.reverse.findSome? (Consultation.record? key)).or (remembered? start log key) := by
  simp only [remembered?, List.reverse_append, List.findSome?_append, Option.or_assoc]

theorem get?_after (r : CachingResolver) (calls : List Call) (key : String) :
    (after r calls).cache.get? key = remembered? r.cache.index (consultations r calls) key := by
  induction calls generalizing r with
  | nil => rfl
  | cons call calls ih =>
    have hstep : (call.next r).cache.get? key =
        remembered? r.cache.index (call.consultation? r).toList key := by
      rw [get?_next]
      cases call.consultation? r <;> simp [remembered?, Cache.get?]
    calc (after r (call :: calls)).cache.get? key
        = ((consultations (call.next r) calls).reverse.findSome?
            (Consultation.record? key)).or ((call.next r).cache.get? key) := ih (call.next r)
      _ = remembered? r.cache.index (consultations r (call :: calls)) key := by
          rw [hstep, consultations, remembered?_append]

/-! ## Where a record comes from -/

theorem exists_call_of_mem_consultations {r : CachingResolver} {calls : List Call}
    {u : Consultation} (h : u ∈ consultations r calls) :
    ∃ call ∈ calls, u = ⟨call.key, call.host.now, call.upstream.1⟩ := by
  induction calls generalizing r with
  | nil => simp [consultations] at h
  | cons call calls ih =>
    rw [consultations, List.mem_append] at h
    rcases h with h | h
    · refine ⟨call, List.mem_cons_self, ?_⟩
      rw [Option.mem_toList, Call.consultation?] at h
      split at h
      · contradiction
      · exact (Option.some.inj h).symm
    · obtain ⟨later, hlater, rfl⟩ := ih h
      exact ⟨later, List.mem_cons_of_mem call hlater, rfl⟩

theorem exists_of_record? {key : String} {u : Consultation} {entry : CacheEntry}
    (h : Consultation.record? key u = some entry) :
    u.key = key ∧ u.answer = .ok entry.artifact ∧ entry.resolvedAt = epochSeconds u.time := by
  obtain ⟨k, time, answer⟩ := u
  cases answer with
  | error e => contradiction
  | ok a =>
    rw [record?_ok, Option.ite_none_right_eq_some] at h
    obtain ⟨rfl, ⟨⟩⟩ := h
    exact ⟨rfl, rfl, rfl⟩

theorem exists_of_remembered?_empty {log : List Consultation} {key : String} {entry : CacheEntry}
    (h : remembered? .empty log key = some entry) :
    ∃ u ∈ log, u.key = key ∧ u.answer = .ok entry.artifact ∧
      entry.resolvedAt = epochSeconds u.time := by
  have hnone : CacheIndex.empty.get? key = none := rfl
  rw [remembered?, hnone, Option.or_none] at h
  obtain ⟨u, hmem, hrecord⟩ := List.exists_of_findSome?_eq_some h
  exact ⟨u, List.mem_reverse.1 hmem, exists_of_record? hrecord⟩

/-! ## The rule of a run -/

/-- What a call does when this is on record for its key. -/
structure Call.FollowsRecord (call : Call) (policy : CachePolicy) (r : CachingResolver)
    (known? : Option CacheEntry) : Prop where
  /-- The record is the answer, and nothing else is asked, exactly when it may be used again. -/
  reuses_iff : (∃ entry, known? = some entry ∧ call.answer r = .ok entry.artifact ∧
      call.consultation? r = none) ↔ call.Reusable policy known?
  /-- Using it again changes nothing, in the resolver or on the host. -/
  reuse : call.Reusable policy known? → call.next r = r ∧ call.left r = call.host
  refuse : ¬ call.Reusable policy known? → policy.offline = true →
    call.answer r = .error (.offline call.key) ∧ call.next r = r ∧ call.left r = call.host
  consult : ¬ call.Reusable policy known? → policy.offline = false →
    (call.next r).consulted = r.consulted + 1 ∧ call.answer r = call.upstream.1 ∧
    (∀ a, call.upstream.1 = .ok a →
      (call.next r).cache.get? call.key = some ⟨a, epochSeconds call.host.now⟩ ∧
      call.left r = ((call.next r).cache.save call.upstream.2).2) ∧
    ∀ e, call.upstream.1 = .error e →
      (call.next r).cache = r.cache ∧ call.left r = call.upstream.2
  others : ∀ key, key ≠ call.key → (call.next r).cache.get? key = r.cache.get? key

theorem get?_next_ne {call : Call} {r : CachingResolver} {key : String} (h : key ≠ call.key) :
    (call.next r).cache.get? key = r.cache.get? key := by
  rw [get?_next, Call.consultation?]
  split
  · rfl
  · rw [Option.bind_some]
    cases call.upstream.1 with
    | error e => rfl
    | ok a =>
      rw [record?_ok, if_neg (Ne.symm h)]
      rfl

theorem reusable_of_quiet {call : Call} {r : CachingResolver} {a : Artifact}
    (hanswer : call.answer r = .ok a) (hquiet : call.consultation? r = none) :
    call.Reusable r.policy (r.cache.get? call.key) := by
  refine Classical.byContradiction fun h => ?_
  cases hoffline : r.policy.offline with
  | true =>
    rw [(Call.refuses h hoffline).1] at hanswer
    contradiction
  | false =>
    rw [consultation?_eq_some (Call.consults h hoffline).2.1] at hquiet
    contradiction

theorem followsRecord (call : Call) (r : CachingResolver) :
    call.FollowsRecord r.policy r (r.cache.get? call.key) where
  reuses_iff := by
    constructor
    · rintro ⟨entry, -, hanswer, hquiet⟩
      exact reusable_of_quiet hanswer hquiet
    · rintro ⟨entry, hentry, hpermits⟩
      obtain ⟨hanswer, hnext, -⟩ := Call.reuses hentry hpermits
      exact ⟨entry, hentry, hanswer, consultation?_eq_none hnext⟩
  reuse := by
    rintro ⟨entry, hentry, hpermits⟩
    exact (Call.reuses hentry hpermits).2
  refuse := Call.refuses
  consult := by
    intro hnone honline
    obtain ⟨-, hasked, hanswer, hok, herror⟩ := Call.consults hnone honline
    refine ⟨hasked, hanswer, ?_, herror⟩
    intro a ha
    refine ⟨?_, (hok a ha).2⟩
    rw [(hok a ha).1]
    exact CacheIndex.get?_insert_self _ _ _
  others := fun _ => get?_next_ne

/-- Every call of every run goes by the last good answer for its key. -/
theorem resolve_follows_history (policy : CachePolicy) (cache : Cache) (past : List Call)
    (call : Call) :
    call.FollowsRecord policy (after (start policy cache) past)
      (remembered? cache.index (consultations (start policy cache) past) call.key) := by
  have h := followsRecord call (after (start policy cache) past)
  rwa [policy_after, get?_after] at h

end CachingResolver

end ModuleRig
