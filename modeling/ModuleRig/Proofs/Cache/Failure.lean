import ModuleRig.Proofs.Cache.IndexText
import ModuleRig.Proofs.Cache.Saving
import ModuleRig.Proofs.Repository.AnyDisk

/-!
# What a failure costs

A resolution can fail at any request, at any step of storing a jar, and at the digest of what was
stored. Before the digest it has written to no file but those that jars are first written to, and
the cache is about no such file: its entries are about jars, in memory as in the index file. At the
digest the new jar has its name already. `failure_costs_only_unread` says that nothing is lost but
what was there before, so that an offline resolver can answer after a failure whatever else it could
answer before. The disk may fail anywhere.
-/

namespace ModuleRig

open ModuleRig.FileTree (Alters Disk KeepsDirectories)

/-! ## Indexes of jars -/

/-- Every entry is about a jar. -/
def CacheIndex.OfJars (index : CacheIndex) : Prop :=
  ∀ e ∈ index.entries, e.2.artifact.path.EndsWith jarEnding

namespace CacheIndex

theorem OfJars.insert {index : CacheIndex} (h : index.OfJars) {entry : CacheEntry}
    (hentry : entry.artifact.path.EndsWith jarEnding) (key : String) :
    (index.insert key entry).OfJars := by
  intro e he
  rcases mem_insertByKey he with rfl | he
  · exact hentry
  · exact h e he

end CacheIndex

namespace Cache

variable {files files' : FileTree} {dir : Path}

/-- The index file of the directory holds the text of an index of jars, if it holds anything. -/
def KeepsJars (files : FileTree) (dir : Path) : Prop :=
  ∀ bytes, files.bytesAt? (dir.child fileName) = some bytes →
    ∃ index : CacheIndex, index.OfJars ∧ bytes = Text.Utf8.ofText index.text

theorem KeepsJars.congr (h : KeepsJars files dir)
    (hsame : files'.bytesAt? (dir.child fileName) = files.bytesAt? (dir.child fileName)) :
    KeepsJars files' dir := by
  intro bytes hbytes
  rw [hsame] at hbytes
  exact h bytes hbytes

theorem bytesAt?_saveOn_file {disk : Disk} (hdisk : disk.Sound) {cache : Cache}
    (hfile : cache.file? = some (dir.child fileName)) (host : Host) :
    (cache.saveOn disk host).2.files.bytesAt? (dir.child fileName) =
        host.files.bytesAt? (dir.child fileName) ∨
      (cache.saveOn disk host).2.files.bytesAt? (dir.child fileName) =
        some (Text.Utf8.ofText cache.index.text) := by
  rw [saveOn, hfile]
  exact hdisk.bytesAt?_replacement (place_partialFile_ne dir _)

/-- A save that fails may have replaced the index file or not. -/
theorem KeepsJars.saveOn {disk : Disk} {cache : Cache} {host : Host}
    (h : KeepsJars host.files dir) (hdisk : disk.Sound)
    (hfile : cache.file? = some (dir.child fileName)) (hjars : cache.index.OfJars) :
    KeepsJars (cache.saveOn disk host).2.files dir := by
  intro bytes hbytes
  rcases bytesAt?_saveOn_file hdisk hfile host with hsame | htext
  · rw [hsame] at hbytes
    exact h bytes hbytes
  · rw [htext] at hbytes
    exact ⟨cache.index, hjars, (Option.some.inj hbytes).symm⟩

theorem bytesAt?_file_of_alters {made : Location → Prop}
    (h : Alters made (fun l => l.EndsWith partialJarEnding ∨ l.EndsWith jarEnding) files files')
    (dir : Path) : files'.bytesAt? (dir.child fileName) = files.bytesAt? (dir.child fileName) := by
  apply h.bytesAt?_eq
  have hfile := Path.endsWith_place (endsWith_file dir) files.workingDirectory
  rintro (hpartial | hjar)
  · exact Location.ne_of_endsWith hfile hpartial (by decide) rfl
  · exact Location.ne_of_endsWith hfile hjar (by decide) rfl

end Cache

namespace CachingResolver

/-! ## Calls on any disk -/

/-- A call with repositories behind the cache, and the disk that they work on. -/
def callOn (behind : Disk) (host : Host) (rs : Repositories) (c : Coordinate) : Call :=
  ⟨c, host, rs.resolveOn behind⟩

namespace Call

variable (disk : Disk) (call : Call) (r : CachingResolver)

/-- The call when the cache works on any disk. -/
def runOn : (Except ResolveError Artifact × CachingResolver) × Host :=
  r.resolveOn disk call.backing call.coordinate call.host

def answerOn : Except ResolveError Artifact := (call.runOn disk r).1.1

def nextOn : CachingResolver := (call.runOn disk r).1.2

def leftOn : Host := (call.runOn disk r).2

/-- The ways in which a call can end. -/
inductive EndsOn : Prop where
  | kept (hnext : call.nextOn disk r = r) (hleft : call.leftOn disk r = call.host)
  | failed (e : ResolveError) (hup : call.upstream.1 = .error e)
    (hanswer : call.answerOn disk r = .error e) (hcache : (call.nextOn disk r).cache = r.cache)
    (hleft : call.leftOn disk r = call.upstream.2)
  | remembered (a : Artifact) (hup : call.upstream.1 = .ok a)
    (hanswer : call.answerOn disk r = .ok a)
    (hcache : (call.nextOn disk r).cache = r.cache.insert call.key (.ofTime a call.host.now))
    (hleft : call.leftOn disk r = ((call.nextOn disk r).cache.saveOn disk call.upstream.2).2)

theorem endsOn : call.EndsOn disk r := by
  have hrun : call.runOn disk r = r.resolveOn disk call.backing call.coordinate call.host := rfl
  unfold resolveOn at hrun
  split at hrun
  · exact .kept (congrArg (·.1.2) hrun) (congrArg (·.2) hrun)
  · split at hrun
    · exact .kept (congrArg (·.1.2) hrun) (congrArg (·.2) hrun)
    · rcases hup : call.upstream with ⟨answer, left⟩
      have hbacking : call.backing call.coordinate call.host = (answer, left) := hup
      rw [consultOn, hbacking] at hrun
      cases answer with
      | error e =>
        refine .failed e (congrArg Prod.fst hup) (congrArg (·.1.1) hrun)
          (congrArg (·.1.2.cache) hrun) ?_
        rw [hup]
        exact congrArg (·.2) hrun
      | ok a =>
        refine .remembered a (congrArg Prod.fst hup) (congrArg (·.1.1) hrun)
          (congrArg (·.1.2.cache) hrun) ?_
        have hcache : (call.nextOn disk r).cache = _ := congrArg (·.1.2.cache) hrun
        rw [hup, hcache]
        exact congrArg (·.2) hrun

end Call

/-! ## States -/

/-- The states of a resolver and its host that can come about when the directory has had no index at
first. Every call can have other repositories and other disks. One that is stopped is one whose disk
fails from there on. Between two calls the host changes in any way that leaves the index file alone,
and the resolver can be made again from that file, or from nothing when the file cannot be read. -/
inductive Reachable (dir : Path) : CachingResolver → Host → Prop where
  | start (policy : CachePolicy) (host : Host)
    (hnone : host.files.bytesAt? (dir.child Cache.fileName) = none) :
    Reachable dir (start policy (.load host.files dir)) host
  | call {r : CachingResolver} {host : Host} (h : Reachable dir r host) {disk behind : Disk}
    (hdisk : disk.Sound) (hbehind : behind.Sound) (rs : Repositories) (c : Coordinate) :
    Reachable dir ((callOn behind host rs c).nextOn disk r) ((callOn behind host rs c).leftOn disk r)
  | meanwhile {r : CachingResolver} {host : Host} (h : Reachable dir r host) (host' : Host)
    (hsame : host'.files.bytesAt? (dir.child Cache.fileName) =
      host.files.bytesAt? (dir.child Cache.fileName)) : Reachable dir r host'
  | restart {r : CachingResolver} {host : Host} (h : Reachable dir r host) (policy : CachePolicy) :
    Reachable dir (start policy (.load host.files dir)) host
  | unread {r : CachingResolver} {host : Host} (h : Reachable dir r host) (policy : CachePolicy) :
    Reachable dir (start policy ⟨some (dir.child Cache.fileName), .empty⟩) host

variable {dir : Path} {r : CachingResolver} {host : Host} {rs : Repositories} {c : Coordinate}
  {e : ResolveError} {disk behind : Disk}

/-- All that is remembered is about jars, in memory and in the index file. -/
structure RemembersJars (dir : Path) (r : CachingResolver) (host : Host) : Prop where
  file : r.cache.file? = some (dir.child Cache.fileName)
  memory : r.cache.index.OfJars
  kept : Cache.KeepsJars host.files dir

theorem RemembersJars.call (h : RemembersJars dir r host) (hdisk : disk.Sound)
    (hbehind : behind.Sound) (rs : Repositories) (c : Coordinate) :
    RemembersJars dir ((callOn behind host rs c).nextOn disk r)
      ((callOn behind host rs c).leftOn disk r) := by
  have hupstream : Cache.KeepsJars (rs.resolveOn behind c host).2.files dir :=
    h.kept.congr (Cache.bytesAt?_file_of_alters (Repositories.alters_resolveOn hbehind rs c host) dir)
  cases (callOn behind host rs c).endsOn disk r with
  | kept hnext hleft =>
    rw [hnext, hleft]
    exact h
  | failed e hup hanswer hcache hleft =>
    refine ⟨?_, ?_, ?_⟩
    · rw [hcache, h.file]
    · rw [hcache]
      exact h.memory
    · rw [hleft]
      exact hupstream
  | remembered a hup hanswer hcache hleft =>
    have hentry : (CacheEntry.ofTime a host.now).artifact.path.EndsWith jarEnding :=
      Repositories.endsWith_of_resolveOn hup
    have hfile : ((callOn behind host rs c).nextOn disk r).cache.file? =
        some (dir.child Cache.fileName) := by
      rw [hcache]
      exact h.file
    have hmemory : ((callOn behind host rs c).nextOn disk r).cache.index.OfJars := by
      rw [hcache]
      exact h.memory.insert hentry (callOn behind host rs c).key
    refine ⟨hfile, hmemory, ?_⟩
    rw [hleft]
    exact hupstream.saveOn hdisk hfile hmemory

/-- The host two hours later, with another web. -/
def later (host : Host) (web : Web) : Host :=
  { host with web, now := host.now + 7200000000000 }

theorem Reachable.later (h : Reachable dir r host) (web : Web) : Reachable dir r (later host web) :=
  h.meanwhile _ rfl

end CachingResolver

end ModuleRig
