import ModuleRig.Proofs.Cache.Saving
import ModuleRig.Proofs.Coordinate.Key

/-!
# Answers are what they say

An answer may be fresh from a repository, or have been remembered many calls ago under the text of
another coordinate. `answer_is_valid` says that either way its file is there with its digest, and
that its version is one that was asked for.
-/

namespace ModuleRig

/-- Nothing is remembered yet: the cache has no file, or there was none to load. -/
inductive Cache.IsNew : Cache → Prop where
  | inMemory : IsNew .inMemory
  | load (files : FileTree) (dir : Path)
    (hnone : ∀ content, files.read (dir.child fileName) ≠ .ok content) : IsNew (.load files dir)

namespace Cache

theorem IsNew.index {cache : Cache} (h : cache.IsNew) : cache.index = .empty := by
  cases h with
  | inMemory => rfl
  | load files dir hnone =>
    cases hread : files.read (dir.child fileName) with
    | error e => exact readIndex_of_error hread
    | ok content => exact absurd hread (hnone content)

theorem IsNew.isPlaced {cache : Cache} (h : cache.IsNew) : cache.IsPlaced := by
  cases h with
  | inMemory => exact isPlaced_inMemory
  | load files dir hnone => exact isPlaced_load files dir

end Cache

namespace CachingResolver

/-- The call is about a coordinate that was read, and repositories stand behind the cache. They
may be others in every call, and so may all that they hold. -/
structure Call.AsksRepositories (call : Call) : Prop where
  read : call.coordinate.IsRead
  backing : ∃ rs : Repositories, call.backing = rs.resolve

/-- The file of the answer is there with its digest, and the answer is about the coordinate and a
version that it accepts. -/
structure Call.ValidAnswer (call : Call) (r : CachingResolver) (a : Artifact) : Prop where
  digest : (call.left r).files.digest a.path = .ok a.sha256
  coordinate : a.coordinate = call.coordinate.text
  version : call.coordinate.selector.accepts a.version = true

variable {call : Call} {a : Artifact}

theorem Call.AsksRepositories.truthful (h : call.AsksRepositories) (hup : call.upstream.1 = .ok a) :
    ∃ rs : Repositories, rs.Truthful call.coordinate call.host a ∧
      call.upstream.2.files.digest a.path = .ok a.sha256 := by
  obtain ⟨rs, hrs⟩ := h.backing
  unfold Call.upstream at hup ⊢
  rw [hrs] at hup ⊢
  have htruthful := Repositories.truthful_of_resolve hup
  exact ⟨rs, htruthful, htruthful.digest⟩

theorem exists_call_of_get?_after {policy : CachePolicy} {cache : Cache} {calls : List Call}
    {key : String} {entry : CacheEntry} (hempty : cache.index = .empty)
    (h : (after (start policy cache) calls).cache.get? key = some entry) :
    ∃ call ∈ calls, call.key = key ∧ call.upstream.1 = .ok entry.artifact := by
  have hstart : (start policy cache).cache.index = .empty := hempty
  rw [get?_after, hstart] at h
  obtain ⟨u, hu, hkey, hanswer, -⟩ := exists_of_remembered?_empty h
  obtain ⟨call, hcall, rfl⟩ := exists_call_of_mem_consultations hu
  exact ⟨call, hcall, hkey, hanswer⟩

/-- An entry fits every coordinate with its key, since the key tells the selector. -/
theorem Call.AsksRepositories.fits {earlier : Call} (hearlier : earlier.AsksRepositories)
    (h : call.AsksRepositories) (hkey : earlier.key = call.key)
    (hup : earlier.upstream.1 = .ok a) :
    a.coordinate = call.coordinate.text ∧ call.coordinate.selector.accepts a.version = true := by
  obtain ⟨rs, htruthful, -⟩ := hearlier.truthful hup
  have htext : earlier.coordinate.text = call.coordinate.text := hkey
  have hsame := hearlier.read.eq_of_text_eq h.read htext
  refine ⟨htruthful.coordinate.trans htext, ?_⟩
  have haccepts := htruthful.settled.accepts
  rw [hsame] at haccepts
  exact haccepts

/-- Every answer of a run that began with nothing remembered is what it says. -/
theorem answer_is_valid (policy : CachePolicy) (cache : Cache) (past : List Call) (call : Call)
    (a : Artifact) (hnew : cache.IsNew) (hcalls : ∀ c ∈ past ++ [call], c.AsksRepositories)
    (hanswer : call.answer (after (start policy cache) past) = .ok a) :
    call.ValidAnswer (after (start policy cache) past) a := by
  have hcall := hcalls call (List.mem_append_right past List.mem_cons_self)
  have hplaced : (after (start policy cache) past).cache.IsPlaced :=
    isPlaced_after (r := start policy cache) hnew.isPlaced past
  have hremembered : ∀ key entry,
      (after (start policy cache) past).cache.get? key = some entry →
      ∃ earlier ∈ past, earlier.key = key ∧ earlier.upstream.1 = .ok entry.artifact :=
    fun key entry => exists_call_of_get?_after hnew.index
  generalize after (start policy cache) past = r at hanswer hplaced hremembered ⊢
  cases call.ends r with
  | reused entry hentry hpermits hok hnext hleft =>
    obtain rfl : entry.artifact = a := Except.ok.inj (hok.symm.trans hanswer)
    obtain ⟨earlier, hearlier, hkey, hup⟩ := hremembered _ _ hentry
    have hfits := (hcalls earlier (List.mem_append_left _ hearlier)).fits hcall hkey hup
    refine ⟨?_, hfits.1, hfits.2⟩
    rw [hleft]
    exact hpermits.2.1
  | refused herror hnext hleft =>
    rw [herror] at hanswer
    contradiction
  | failed e honline hup herror hasked hcache hleft =>
    rw [herror] at hanswer
    contradiction
  | remembered a' honline hup hok hasked hcache hleft =>
    obtain rfl : a' = a := Except.ok.inj (hok.symm.trans hanswer)
    obtain ⟨rs, htruthful, hdigest⟩ := hcall.truthful hup
    refine ⟨?_, htruthful.coordinate, htruthful.settled.accepts⟩
    -- The digest was taken before the index was saved, and a save changes no jar.
    have hnext : (call.next r).cache.IsPlaced := by
      unfold Cache.IsPlaced
      rw [file?_next]
      exact hplaced
    rw [hleft]
    exact Cache.digest_save hnext htruthful.path hdigest

/-- Two calls for a jar in a directory. The second takes the coordinate for changing. -/
def directoryCall (changing : Bool) : Call :=
  ⟨⟨"a", "b", .exact "1", changing⟩,
    { Host.blank with
      files := ⟨[(["d"], .directory), (["d", "a"], .directory), (["d", "a", "b"], .directory),
        (["d", "a", "b", "1"], .directory),
        (["d", "a", "b", "1", "b-1.jar"], .file [2] .plain)], []⟩ },
    Repositories.resolve ⟨[.directory "d" ⟨"/d"⟩], ⟨"/c"⟩⟩⟩

def directoryJar : Artifact :=
  ⟨"a:b:1", "1", ⟨"/d/a/b/1/b-1.jar"⟩, "d", Digest.ofBytes [2]⟩

theorem asksRepositories_directoryCall (changing : Bool) :
    (directoryCall changing).AsksRepositories where
  read := ⟨"a:b:1", ⟨"a", "b", .exact "1", false⟩, changing, by decide +kernel, rfl⟩
  backing := ⟨_, rfl⟩

theorem answer_is_valid_in_directory :
    Cache.IsNew (.load FileTree.empty ⟨"/c"⟩) ∧
    (∀ c ∈ [directoryCall false] ++ [directoryCall true], c.AsksRepositories) ∧
    (directoryCall true).consultation?
      (after (start .default (.load FileTree.empty ⟨"/c"⟩)) [directoryCall false]) = none ∧
    (directoryCall true).ValidAnswer
      (after (start .default (.load FileTree.empty ⟨"/c"⟩)) [directoryCall false])
      directoryJar := by
  have hnew : Cache.IsNew (.load FileTree.empty ⟨"/c"⟩) := by
    refine .load _ _ fun content h => ?_
    have hnone : (FileTree.empty.read ((⟨"/c"⟩ : Path).child Cache.fileName)).toOption = none := by
      decide +kernel
    rw [h] at hnone
    contradiction
  have hcalls : ∀ c ∈ [directoryCall false] ++ [directoryCall true], c.AsksRepositories := by
    intro c hc
    simp only [List.cons_append, List.nil_append, List.mem_cons, List.not_mem_nil, or_false] at hc
    rcases hc with rfl | rfl
    · exact asksRepositories_directoryCall false
    · exact asksRepositories_directoryCall true
  have hanswer : (directoryCall true).answer
      (after (start .default (.load FileTree.empty ⟨"/c"⟩)) [directoryCall false]) =
        .ok directoryJar := by
    decide +kernel
  have hquiet : ((directoryCall true).consultation?
      (after (start .default (.load FileTree.empty ⟨"/c"⟩)) [directoryCall false])).isNone := by
    decide +kernel
  exact ⟨hnew, hcalls, Option.isNone_iff_eq_none.1 hquiet,
    answer_is_valid .default _ [directoryCall false] (directoryCall true) directoryJar hnew hcalls
      hanswer⟩

end CachingResolver

end ModuleRig
