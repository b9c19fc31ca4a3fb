import Mathlib.Control.Monad.Basic
import ModuleRig.Proofs.Cache.History

/-!
# How old an answer can be

Times are cut to whole seconds, once when a resolution is put on record and once when it is looked
at again. `answer_is_fresh` says that the window holds all the same for the exact times: no answer
is as old as its window.
-/

namespace ModuleRig

theorem sub_lt_of_epochSeconds {began now : Int} {seconds : Nat} (hepoch : 0 ≤ began)
    (hage : epochSeconds now - epochSeconds began < seconds) :
    now - began < (Duration.ofSeconds seconds).nanoseconds := by
  unfold epochSeconds at hage
  rw [Duration.nanoseconds_ofSeconds]
  omega

namespace CachingResolver

/-- The artifact came from behind the cache in this call, or in an earlier one for the same key
that began less than the window ago. -/
def AnsweredWithin (window : Duration) (r : CachingResolver) (past : List Call) (call : Call)
    (a : Artifact) : Prop :=
  call.consultation? (after r past) = some ⟨call.key, call.host.now, .ok a⟩ ∨
  ∃ earlier ∈ consultations r past, earlier.key = call.key ∧ earlier.answer = .ok a ∧
    earlier.time ≤ call.host.now ∧ call.host.now - earlier.time < window.nanoseconds

theorem answeredWithin_of_windowFor {policy : CachePolicy} {cache : Cache} {past : List Call}
    {call : Call} {a : Artifact} {seconds : Nat} (honline : policy.offline = false)
    (hempty : cache.index = .empty)
    (hclock : ∀ earlier ∈ past, 0 ≤ earlier.host.now ∧ earlier.host.now ≤ call.host.now)
    (hwindow : policy.windowFor call.coordinate = some (.ofSeconds seconds))
    (hanswer : call.answer (after (start policy cache) past) = .ok a) :
    AnsweredWithin (.ofSeconds seconds) (start policy cache) past call a := by
  have hrule := followsRecord call (after (start policy cache) past)
  rw [policy_after, get?_after] at hrule
  have hstart : (start policy cache).cache.index = .empty := hempty
  rw [hstart] at hrule
  by_cases hreuse : call.Reusable policy
      (remembered? .empty (consultations (start policy cache) past) call.key)
  · -- The answer is on record, so an earlier call of this run has asked for it.
    right
    obtain ⟨entry, hentry, hok, -⟩ := hrule.reuses_iff.2 hreuse
    obtain ⟨entry', hentry', -, -, hage⟩ := hreuse
    obtain rfl : entry = entry' := Option.some.inj (hentry.symm.trans hentry')
    obtain rfl : entry.artifact = a := Except.ok.inj (hok.symm.trans hanswer)
    obtain ⟨u, hu, hkey, hup, hat⟩ := exists_of_remembered?_empty hentry
    obtain ⟨earlier, hearlier, rfl⟩ := exists_call_of_mem_consultations hu
    obtain ⟨hepoch, hle⟩ := hclock earlier hearlier
    refine ⟨_, hu, hkey, hup, hle, sub_lt_of_epochSeconds hepoch ?_⟩
    rcases hage with hoffline | hnone | ⟨window, hsome, hlt⟩
    · rw [honline] at hoffline
      contradiction
    · rw [hwindow] at hnone
      contradiction
    · obtain rfl := Option.some.inj (hwindow.symm.trans hsome)
      rw [hat] at hlt
      rw [Duration.nanoseconds_ofSeconds, Duration.nanoseconds_ofSeconds] at hlt
      omega
  · left
    obtain ⟨hasked, hup, -⟩ := hrule.consult hreuse honline
    rw [consultation?_eq_some hasked, ← hup, hanswer]

/-- No answer of an online resolver is as old as its window, counted in exact times. -/
theorem answer_is_fresh (policy : CachePolicy) (cache : Cache) (past : List Call) (call : Call)
    (a : Artifact) (changing dynamic : Nat)
    (honline : policy.offline = false)
    (hchanging : policy.changingWindow = .ofSeconds changing)
    (hdynamic : policy.dynamicWindow = .ofSeconds dynamic)
    (hempty : cache.index = .empty)
    (hclock : (past ++ [call]).Pairwise fun earlier later => earlier.host.now ≤ later.host.now)
    (hepoch : ∀ c ∈ past ++ [call], 0 ≤ c.host.now)
    (hanswer : call.answer (after (start policy cache) past) = .ok a) :
    (call.coordinate.changing = true →
      AnsweredWithin policy.changingWindow (start policy cache) past call a) ∧
    (call.coordinate.changing = false → call.coordinate.selector.isDynamic = true →
      AnsweredWithin policy.dynamicWindow (start policy cache) past call a) := by
  have hbefore : ∀ earlier ∈ past,
      0 ≤ earlier.host.now ∧ earlier.host.now ≤ call.host.now := by
    intro earlier hearlier
    rw [List.pairwise_append] at hclock
    exact ⟨hepoch earlier (List.mem_append_left _ hearlier),
      hclock.2.2 earlier hearlier call List.mem_cons_self⟩
  constructor
  · intro hc
    rw [hchanging]
    refine answeredWithin_of_windowFor honline hempty hbefore ?_ hanswer
    rw [CachePolicy.windowFor, if_pos hc, hchanging]
  · intro hc hd
    rw [hdynamic]
    refine answeredWithin_of_windowFor honline hempty hbefore ?_ hanswer
    rw [CachePolicy.windowFor, hc, if_neg Bool.false_ne_true, if_pos hd, hdynamic]

/-- A jar and the two calls that ask for it, 1.8 seconds apart. The window is two seconds. -/
def sampleJar : Artifact :=
  ⟨"a:b:+", "1", ⟨"/b-1.jar"⟩, "r", Digest.ofBytes [1, 2, 3]⟩

def sampleCall (now : Int) : Call :=
  ⟨⟨"a", "b", .latest, true⟩,
    { Host.blank with files := Host.blank.files.put ["b-1.jar"] (.file [1, 2, 3] .plain), now },
    fun _ host => (.ok sampleJar, host)⟩

def samplePolicy : CachePolicy := ⟨.ofSeconds 2, .ofSeconds 2, false, false⟩

theorem answer_is_fresh_when_reused :
    (sampleCall 2900000000).answer (after (start samplePolicy .inMemory) [sampleCall 1100000000]) =
      .ok sampleJar ∧
    AnsweredWithin (.ofSeconds 2) (start samplePolicy .inMemory) [sampleCall 1100000000]
      (sampleCall 2900000000) sampleJar := by
  have hanswer : (sampleCall 2900000000).answer
      (after (start samplePolicy .inMemory) [sampleCall 1100000000]) = .ok sampleJar := by
    decide +kernel
  refine ⟨hanswer, ?_⟩
  exact (answer_is_fresh samplePolicy .inMemory [sampleCall 1100000000] (sampleCall 2900000000)
    sampleJar 2 2 rfl rfl rfl rfl (by decide) (by decide) hanswer).1 rfl

end CachingResolver

end ModuleRig
