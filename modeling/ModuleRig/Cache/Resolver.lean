import ModuleRig.Cache.Basic
import ModuleRig.Repository.Resolution

/-!
# Resolving by way of the cache

A remembered resolution is used again when its file is intact and it is young enough for its
coordinate. Otherwise the resolver behind the cache is asked once, and a good answer is remembered.
An error changes nothing.
-/

namespace ModuleRig

structure CachePolicy where
  /-- How long changing coordinates are remembered. -/
  changingWindow : Duration
  /-- How long a choice among versions is remembered. -/
  dynamicWindow : Duration
  /-- Use what is remembered, however old, and nothing else. -/
  offline : Bool
  /-- Use nothing that is remembered. -/
  refresh : Bool
deriving DecidableEq, Repr

namespace CachePolicy

def default : CachePolicy := ⟨.ofSeconds 3600, .ofSeconds 86400, false, false⟩

/-- How long a coordinate is remembered, none for ever. -/
def windowFor (policy : CachePolicy) (c : Coordinate) : Option Duration :=
  if c.changing then some policy.changingWindow
  else if c.selector.isDynamic then some policy.dynamicWindow
  else none

def allowsReuse (policy : CachePolicy) (c : Coordinate) (entry : CacheEntry) (now : Int) : Bool :=
  policy.offline ||
    match policy.windowFor c with
    | none => true
    | some window => entry.isFresh now window

end CachePolicy

/-- What is asked when no remembered resolution can be used. -/
abbrev Backing := Coordinate → Action ResolveError Artifact

structure CachingResolver where
  policy : CachePolicy
  cache : Cache
  /-- How often the resolver behind the cache was asked. -/
  consulted : Nat

namespace CachingResolver

def start (policy : CachePolicy) (cache : Cache) : CachingResolver :=
  ⟨policy, cache, 0⟩

/-- The remembered resolution that can be used now. -/
def reusableOn? (disk : FileTree.Disk) (r : CachingResolver) (c : Coordinate) (host : Host) :
    Option Artifact :=
  if r.policy.refresh then none
  else
    match r.cache.get? c.cacheKey with
    | none => none
    | some entry =>
      if entry.isIntactOn disk host.files && r.policy.allowsReuse c entry host.now then
        some entry.artifact
      else none

/-- Remembers a resolution. That it cannot be saved is no error. -/
def rememberOn (disk : FileTree.Disk) (r : CachingResolver) (c : Coordinate) (artifact : Artifact)
    (time : Int) : StateM Host CachingResolver :=
  fun host =>
    let cache := r.cache.insert c.cacheKey (.ofTime artifact time)
    let (_, host) := cache.saveOn disk host
    ({ r with cache }, host)

/-- Asks the resolver behind the cache. The time is taken before. -/
def consultOn (disk : FileTree.Disk) (r : CachingResolver) (backing : Backing) (c : Coordinate) :
    StateM Host (Except ResolveError Artifact × CachingResolver) :=
  fun host =>
    let time := host.now
    let r := { r with consulted := r.consulted + 1 }
    match backing c host with
    | (.error e, host) => ((.error e, r), host)
    | (.ok artifact, host) =>
      let (r, host) := r.rememberOn disk c artifact time host
      ((.ok artifact, r), host)

def resolveOn (disk : FileTree.Disk) (r : CachingResolver) (backing : Backing) (c : Coordinate) :
    StateM Host (Except ResolveError Artifact × CachingResolver) :=
  fun host =>
    match r.reusableOn? disk c host with
    | some artifact => ((.ok artifact, r), host)
    | none =>
      if r.policy.offline then ((.error (.offline c.cacheKey), r), host)
      else r.consultOn disk backing c host

/-! ## On a disk that never fails -/

def reusable? (r : CachingResolver) (c : Coordinate) (host : Host) : Option Artifact :=
  r.reusableOn? .reliable c host

def consult (r : CachingResolver) (backing : Backing) (c : Coordinate) :
    StateM Host (Except ResolveError Artifact × CachingResolver) :=
  r.consultOn .reliable backing c

def resolve (r : CachingResolver) (backing : Backing) (c : Coordinate) :
    StateM Host (Except ResolveError Artifact × CachingResolver) :=
  r.resolveOn .reliable backing c

end CachingResolver

end ModuleRig
