import HnsDaneEngine.Data.Keyed
import HnsDaneEngine.Primitives.Checked
import HnsDaneEngine.Primitives.Hash
import Mathlib.Data.List.MinMax

/-!
# The bounded secure cache

The positive and negative cache of the browser resolver: a bounded store of
values bound to the authority generation that produced them, with a TTL and a
least-recently-used eviction order kept by an access sequence.

Every operation takes the cache by mutable reference and may fail half way, so it
returns its result together with the cache it leaves behind.
-/

namespace HnsDaneEngine.Cache

open Data
open Primitives (Hash u64Max checkedAdd saturatingAdd)

universe u

/-- Why a call fails. -/
inductive CacheError
  | invalidLimits
  | invalidGeneration
  | valueLimit
  | ttlLimit
  | timeOverflow
  | sequenceExhausted
  | internalInvariant

/-- Bounds for one cache instance.  The byte bound is a `usize`, so a sum that
overflows exceeds it. -/
structure CacheLimits where
  maxEntries : Nat
  maxTotalValueBytes : Nat
  maxTotalValueBytes_le : maxTotalValueBytes ≤ u64Max
  maxValueBytes : Nat
  maxPositiveTtl : Nat
  maxNegativeTtl : Nat

namespace CacheLimits

def default : CacheLimits where
  maxEntries := 4096
  maxTotalValueBytes := 16 * 1024 * 1024
  maxTotalValueBytes_le := by decide
  maxValueBytes := 256 * 1024
  maxPositiveTtl := 86400
  maxNegativeTtl := 3600

def validate (limits : CacheLimits) : Except CacheError CacheLimits :=
  if limits.maxEntries = 0 ∨ limits.maxTotalValueBytes = 0 ∨ limits.maxValueBytes = 0 ∨
      limits.maxTotalValueBytes < limits.maxValueBytes ∨ limits.maxPositiveTtl = 0 ∨
      limits.maxNegativeTtl = 0 then
    .error .invalidLimits
  else
    .ok limits

end CacheLimits

/-- Exact authority state under which an entry was produced. -/
structure CacheGeneration where
  runtimeGeneration : Nat
  policyGeneration : Nat
  chainHeight : Nat
  treeRoot : Hash
  deriving DecidableEq

def CacheGeneration.validate (generation : CacheGeneration) : Except CacheError CacheGeneration :=
  if generation.runtimeGeneration = 0 ∨ generation.policyGeneration = 0 then
    .error .invalidGeneration
  else
    .ok generation

/-- What an answer denies. -/
inductive NegativeKind
  | nameError
  | noData
  | hnsNameAbsent

/-- An answer or a denial. -/
inductive CacheDisposition
  | positive
  | negative (kind : NegativeKind)

/-- Metadata checked when admitting one cache value. -/
structure CacheAdmission where
  valueBytes : Nat
  disposition : CacheDisposition
  generation : CacheGeneration
  now : Nat
  ttlSeconds : Nat

/-- Opaque per-session query key. -/
structure CacheKey where
  digest : Hash
  deriving DecidableEq

/-- The counts of a cache. -/
structure CacheStats where
  entries : Nat
  valueBytes : Nat
  hits : Nat
  misses : Nat
  evictions : Nat
  expirations : Nat
  staleRemovals : Nat

/-- A value with its accounts. -/
structure Entry (Value : Type u) where
  value : Value
  valueBytes : Nat
  disposition : CacheDisposition
  generation : CacheGeneration
  expiresAt : Nat
  lastAccess : Nat

/-- The entries stand in some iteration order of the hash map; nothing below
depends on which. -/
structure SecureCache (Value : Type u) where
  limits : CacheLimits
  entries : Store CacheKey (Entry Value)
  sequence : Nat
  stats : CacheStats

namespace SecureCache

variable {Value : Type u}

def new (limits : CacheLimits) : Except CacheError (SecureCache Value) :=
  match limits.validate with
  | .error error => .error error
  | .ok limits =>
    .ok { limits, entries := ∅, sequence := 0, stats := ⟨0, 0, 0, 0, 0, 0, 0⟩ }

def removeInternal (cache : SecureCache Value) (key : CacheKey) :
    Option (Entry Value) × SecureCache Value :=
  match cache.entries.lookup key with
  | none => (none, cache)
  | some entry =>
    let entries := cache.entries.erase key
    (some entry, { cache with
      entries
      stats := { cache.stats with
        valueBytes := cache.stats.valueBytes - entry.valueBytes
        entries := Store.size entries } })

/-- Removal of one key that the expiry sweep collected. -/
def expireKey (cache : SecureCache Value) (key : CacheKey) : SecureCache Value :=
  let (removed, cache) := cache.removeInternal key
  if removed.isSome then
    { cache with
      stats := { cache.stats with expirations := saturatingAdd cache.stats.expirations 1 } }
  else
    cache

def removeExpired (cache : SecureCache Value) (now : Nat) : SecureCache Value :=
  let expired := cache.entries.entries.filterMap fun ⟨key, entry⟩ =>
    if entry.expiresAt ≤ now then some key else none
  expired.foldl expireKey cache

def evictLru (cache : SecureCache Value) : Option (SecureCache Value) :=
  match cache.entries.entries.argmin fun entry => entry.2.lastAccess with
  | none => none
  | some oldest =>
    match cache.removeInternal oldest.1 with
    | (none, _) => none
    | (some _, cache) =>
      some { cache with
        stats := { cache.stats with
          evictions := saturatingAdd cache.stats.evictions 1 } }

def nextSequence (cache : SecureCache Value) : Except CacheError (SecureCache Value) :=
  match checkedAdd cache.sequence 1 with
  | none => .error .sequenceExhausted
  | some sequence => .ok { cache with sequence }

/-- Condition of the eviction loop: no room for one more value. -/
def isFull (cache : SecureCache Value) (valueBytes : Nat) : Bool :=
  cache.limits.maxEntries ≤ Store.size cache.entries ||
    (checkedAdd cache.stats.valueBytes valueBytes).all fun bytes =>
      cache.limits.maxTotalValueBytes < bytes

/-- The eviction loop.  Every turn removes an entry, so the number of resident
entries bounds the number of turns. -/
def makeRoom (valueBytes : Nat) :
    Nat → SecureCache Value → Except CacheError Unit × SecureCache Value
  | 0, cache =>
    if cache.isFull valueBytes then (.error .valueLimit, cache) else (.ok (), cache)
  | turns + 1, cache =>
    if cache.isFull valueBytes then
      match cache.evictLru with
      | none => (.error .valueLimit, cache)
      | some cache => makeRoom valueBytes turns cache
    else
      (.ok (), cache)

def maximumTtl (limits : CacheLimits) : CacheDisposition → Nat
  | .positive => limits.maxPositiveTtl
  | .negative _ => limits.maxNegativeTtl

/-- The checks that an insertion makes before it touches the cache; they yield the
expiry time. -/
def checkAdmission (limits : CacheLimits) (admission : CacheAdmission) :
    Except CacheError Nat := do
  let _ ← admission.generation.validate
  if admission.valueBytes = 0 ∨ limits.maxValueBytes < admission.valueBytes ∨
      limits.maxTotalValueBytes < admission.valueBytes then
    .error .valueLimit
  else if admission.ttlSeconds = 0 ∨
      maximumTtl limits admission.disposition < admission.ttlSeconds then
    .error .ttlLimit
  else
    match checkedAdd admission.now admission.ttlSeconds with
    | none => .error .timeOverflow
    | some expiresAt => .ok expiresAt

/-- Store a value for which room has been made. -/
def place (cache : SecureCache Value) (key : CacheKey) (value : Value)
    (admission : CacheAdmission) (expiresAt : Nat) (sequence : Nat) :
    Except CacheError Unit × SecureCache Value :=
  match checkedAdd cache.stats.valueBytes admission.valueBytes with
  | none => (.error .valueLimit, cache)
  | some valueBytes =>
    let entries := cache.entries.insert key
      { value
        valueBytes := admission.valueBytes
        disposition := admission.disposition
        generation := admission.generation
        expiresAt
        lastAccess := sequence }
    (.ok (), { cache with
      entries
      stats := { cache.stats with valueBytes, entries := Store.size entries } })

/-- Insert one positive or authenticated-negative result. -/
def insert (cache : SecureCache Value) (key : CacheKey) (value : Value)
    (admission : CacheAdmission) : Except CacheError Unit × SecureCache Value :=
  match checkAdmission cache.limits admission with
  | .error error => (.error error, cache)
  | .ok expiresAt =>
    match cache.nextSequence with
    | .error error => (.error error, cache)
    | .ok cache =>
      let sequence := cache.sequence
      let cache := cache.removeExpired admission.now
      let cache := (cache.removeInternal key).2
      match makeRoom admission.valueBytes (Store.size cache.entries) cache with
      | (.error error, cache) => (.error error, cache)
      | (.ok (), cache) => cache.place key value admission expiresAt sequence

def miss (cache : SecureCache Value) : SecureCache Value :=
  { cache with stats := { cache.stats with misses := saturatingAdd cache.stats.misses 1 } }

/-- Read one current entry and update its position in the eviction order. -/
def get (cache : SecureCache Value) (key : CacheKey) (generation : CacheGeneration) (now : Nat) :
    Except CacheError (Option (Value × CacheDisposition)) × SecureCache Value :=
  match generation.validate with
  | .error error => (.error error, cache)
  | .ok generation =>
    match cache.entries.lookup key with
    | none => (.ok none, cache.miss)
    | some entry =>
      if entry.generation ≠ generation then
        let cache := (cache.removeInternal key).2
        (.ok none, miss { cache with
          stats := { cache.stats with
            staleRemovals := saturatingAdd cache.stats.staleRemovals 1 } })
      else if entry.expiresAt ≤ now then
        let cache := (cache.removeInternal key).2
        (.ok none, miss { cache with
          stats := { cache.stats with
            expirations := saturatingAdd cache.stats.expirations 1 } })
      else
        match cache.nextSequence with
        | .error error => (.error error, cache)
        | .ok cache =>
          (.ok (some (entry.value, entry.disposition)),
            { cache with
              entries := cache.entries.insert key
                { entry with lastAccess := cache.sequence }
              stats := { cache.stats with
                hits := saturatingAdd cache.stats.hits 1 } })

def remove (cache : SecureCache Value) (key : CacheKey) : Bool × SecureCache Value :=
  let (removed, cache) := cache.removeInternal key
  (removed.isSome, cache)

def clear (cache : SecureCache Value) : SecureCache Value :=
  { cache with
    entries := ∅
    stats := { cache.stats with entries := 0, valueBytes := 0 } }

end SecureCache

end HnsDaneEngine.Cache
