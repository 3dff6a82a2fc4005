import HnsDaneEngine.Cache.Run
import HnsDaneEngine.Data.Ranked

/-!
# What an insertion removes

The access marks order the resident entries strictly, so that the entry that an
eviction removes does not depend on the iteration order of the map.  An insertion
removes the expired entries and the entry of its key, then the shortest front of
the remaining order that makes room; an insertion that fails changes no entry.
-/

namespace HnsDaneEngine.Cache

open Data
open Primitives (Hash u64Max checkedAdd saturatingAdd)

universe u

/-- A resident entry with its key. -/
abbrev Resident (Value : Type u) : Type u :=
  Sigma fun _ : CacheKey => Entry Value

/-- The access mark of a resident entry. -/
def Resident.mark {Value : Type u} (resident : Resident Value) : Nat :=
  resident.2.lastAccess

/-- Beside these entries there is room for one more value. -/
def HasRoom {Value : Type u} (limits : CacheLimits) (valueBytes : Nat)
    (residents : List (Resident Value)) : Prop :=
  residents.length < limits.maxEntries ∧
    (residents.map fun resident => resident.2.valueBytes).sum + valueBytes ≤
      limits.maxTotalValueBytes

namespace SecureCache

variable {Value : Type u} {cache : SecureCache Value} {order : List (Resident Value)}

theorem expireKey_entries (key : CacheKey) :
    (cache.expireKey key).entries = cache.entries.erase key := by
  rw [← removeInternal_entries, expireKey]
  dsimp only
  split <;> rfl

theorem lookup_foldl_expireKey (keys : List CacheKey) (cache : SecureCache Value) (key : CacheKey) :
    (keys.foldl expireKey cache).entries.lookup key =
      if key ∈ keys then none else cache.entries.lookup key := by
  induction keys generalizing cache with
  | nil => simp
  | cons first keys ih =>
    rw [List.foldl_cons, ih, expireKey_entries]
    by_cases same : key = first
    · subst same
      simp
    · simp [AList.lookup_erase_ne same, same]

/-- The sweep keeps exactly the entries that have not expired. -/
theorem lookup_removeExpired {now : Nat} {key : CacheKey} {entry : Entry Value} :
    (cache.removeExpired now).entries.lookup key = some entry ↔
      cache.entries.lookup key = some entry ∧ now < entry.expiresAt := by
  have swept : key ∈ (cache.entries.entries.filterMap fun resident =>
      if resident.2.expiresAt ≤ now then some resident.1 else none) ↔
      ∃ expired, cache.entries.lookup key = some expired ∧ expired.expiresAt ≤ now := by
    rw [List.mem_filterMap]
    constructor
    · rintro ⟨⟨other, expired⟩, resident, chosen⟩
      by_cases late : expired.expiresAt ≤ now
      · rw [if_pos late] at chosen
        obtain rfl := Option.some.inj chosen
        exact ⟨expired, AList.mem_lookup_iff.mpr resident, late⟩
      · rw [if_neg late] at chosen
        cases chosen
    · rintro ⟨expired, found, late⟩
      exact ⟨⟨key, expired⟩, AList.mem_lookup_iff.mp found, if_pos late⟩
  rw [removeExpired, lookup_foldl_expireKey]
  by_cases gone : key ∈ (cache.entries.entries.filterMap fun resident =>
      if resident.2.expiresAt ≤ now then some resident.1 else none)
  · rw [if_pos gone]
    rcases swept.mp gone with ⟨expired, found, late⟩
    constructor
    · intro impossible
      cases impossible
    · rintro ⟨resident, current⟩
      rw [found] at resident
      obtain rfl := Option.some.inj resident
      omega
  · rw [if_neg gone]
    constructor
    · intro found
      refine ⟨found, ?_⟩
      by_contra late
      exact gone (swept.mpr ⟨entry, found, Nat.not_lt.mp late⟩)
    · exact And.left

/-- The condition of the loop, read off the entries. -/
theorem isFull_eq_false_iff (accounted : cache.Accounted)
    (ranked : Ranked Resident.mark cache.entries order) (valueBytes : Nat) :
    cache.isFull valueBytes = false ↔ HasRoom cache.limits valueBytes order := by
  have length_eq := ranked.length_eq
  have sum_eq := ranked.sum_eq Entry.valueBytes
  constructor
  · intro room
    rcases isFull_eq_false room with ⟨fewer, -, fits⟩
    rw [HasRoom, length_eq, sum_eq, ← accounted.valueBytes_eq]
    exact ⟨fewer, fits⟩
  · rintro ⟨fewer, fits⟩
    rw [sum_eq, ← accounted.valueBytes_eq] at fits
    rw [length_eq] at fewer
    have small := fits.trans cache.limits.maxTotalValueBytes_le
    simp [isFull, checkedAdd, small, fewer, fits]

/-- An eviction removes the least recently used entry. -/
theorem evictLru_of_ranked {oldest : Resident Value} {rest : List (Resident Value)}
    (ranked : Ranked Resident.mark cache.entries (oldest :: rest)) :
    ∃ after, cache.evictLru = some after ∧ after.entries = cache.entries.erase oldest.1 := by
  have found : cache.entries.lookup oldest.1 = some oldest.2 :=
    ranked.mem_iff.mp List.mem_cons_self
  have least : cache.entries.entries.argmin (fun entry => entry.2.lastAccess) = some oldest :=
    ranked.argmin_eq
  rw [evictLru, least]
  simp only [removeInternal, found]
  exact ⟨_, rfl, rfl⟩

/-- The loop evicts the shortest front of the order that makes room, and does not
fail where an empty cache has room. -/
theorem makeRoom_of_ranked {valueBytes turns : Nat} (accounted : cache.Accounted)
    (ranked : Ranked Resident.mark cache.entries order) (enough : order.length ≤ turns)
    (possible : HasRoom cache.limits valueBytes ([] : List (Resident Value))) :
    ∃ evicted after, makeRoom valueBytes turns cache = (.ok (), after) ∧
      Ranked Resident.mark after.entries (order.drop evicted) ∧
      HasRoom cache.limits valueBytes (order.drop evicted) ∧
      ∀ fewer < evicted, ¬ HasRoom cache.limits valueBytes (order.drop fewer) := by
  induction turns generalizing cache order with
  | zero =>
    obtain rfl := List.eq_nil_of_length_eq_zero (Nat.le_zero.mp enough)
    have room := (isFull_eq_false_iff accounted ranked valueBytes).mpr possible
    exact ⟨0, cache, by simp [makeRoom, room], ranked, possible, by simp⟩
  | succ turns ih =>
    cases room : cache.isFull valueBytes with
    | false =>
      have holds := (isFull_eq_false_iff accounted ranked valueBytes).mp room
      exact ⟨0, cache, by simp [makeRoom, room], ranked, holds, by simp⟩
    | true =>
      have full : ¬ HasRoom cache.limits valueBytes order := by
        simp [← isFull_eq_false_iff accounted ranked, room]
      cases order with
      | nil => exact absurd possible full
      | cons oldest rest =>
        rcases evictLru_of_ranked ranked with ⟨next, evicted_eq, entries_eq⟩
        have shrinks := (evictLru_eq_some evicted_eq).1
        have limits_eq := shrinks.limits_eq
        have rankedRest : Ranked Resident.mark next.entries rest := by
          rw [entries_eq]
          exact ranked.erase
        rw [← limits_eq] at possible
        rcases ih (shrinks.accounted accounted) rankedRest (Nat.le_of_succ_le_succ enough)
          possible with ⟨evicted, after, after_eq, rankedAfter, roomAfter, minimal⟩
        rw [limits_eq] at roomAfter minimal
        refine ⟨evicted + 1, after, ?_, rankedAfter, roomAfter, ?_⟩
        · simp [makeRoom, room, evicted_eq, after_eq]
        · intro fewer before
          cases fewer with
          | zero => exact full
          | succ fewer => exact minimal fewer (Nat.lt_of_succ_lt_succ before)

variable {admission : CacheAdmission}

theorem checkAdmission_fits {limits : CacheLimits} {expiresAt : Nat}
    (admitted : checkAdmission limits admission = .ok expiresAt) :
    admission.valueBytes ≤ limits.maxTotalValueBytes := by
  rcases Control.of_bind_ok admitted with ⟨-, -, checked⟩
  rw [Control.guard_eq_ok_iff] at checked
  have bounds := checked.1
  omega

theorem new_maxEntries {limits : CacheLimits} (created : new limits = .ok cache) :
    limits.maxEntries ≠ 0 := by
  intro zero
  simp [new, CacheLimits.validate, zero] at created

/-- The cache after the entries that need no eviction are gone. -/
def sweptFor (cache : SecureCache Value) (key : CacheKey) (now : Nat) : SecureCache Value :=
  ((removeExpired { cache with sequence := cache.sequence + 1 } now).removeInternal key).2

theorem shrinks_sweptFor (cache : SecureCache Value) (key : CacheKey) (now : Nat) :
    Shrinks { cache with sequence := cache.sequence + 1 } (cache.sweptFor key now) :=
  (shrinks_removeExpired _ now).trans (shrinks_removeInternal _ key)

theorem lookup_sweptFor {key other : CacheKey} {now : Nat} {entry : Entry Value} :
    (cache.sweptFor key now).entries.lookup other = some entry ↔
      cache.entries.lookup other = some entry ∧ now < entry.expiresAt ∧ other ≠ key := by
  rw [sweptFor, removeInternal_entries]
  by_cases same : other = key
  · subst same
    simp
  · rw [AList.lookup_erase_ne same, lookup_removeExpired]
    simp [same]

/-- An insertion that is admitted places the value after the shortest eviction. -/
theorem insert_of_admitted (key : CacheKey) (value : Value) {expiresAt : Nat}
    (accounted : cache.Accounted) (entriesAllowed : cache.limits.maxEntries ≠ 0)
    (admitted : checkAdmission cache.limits admission = .ok expiresAt)
    (numbered : cache.sequence < u64Max) :
    ∃ (order : List (Resident Value)) (evicted : Nat) (room : SecureCache Value),
      Ranked Resident.mark (cache.sweptFor key admission.now).entries order ∧
      Ranked Resident.mark room.entries (order.drop evicted) ∧
      HasRoom cache.limits admission.valueBytes (order.drop evicted) ∧
      (∀ fewer < evicted, ¬ HasRoom cache.limits admission.valueBytes (order.drop fewer)) ∧
      room.isFull admission.valueBytes = false ∧
      cache.insert key value admission =
        room.place key value admission expiresAt (cache.sequence + 1) := by
  have advanced : cache.nextSequence = .ok { cache with sequence := cache.sequence + 1 } := by
    have within : cache.sequence + 1 ≤ u64Max := numbered
    simp [nextSequence, checkedAdd, within]
  have shrinks := cache.shrinks_sweptFor key admission.now
  have sweptAccounted := shrinks.accounted accounted.advance.1
  have limits_eq : (cache.sweptFor key admission.now).limits = cache.limits := shrinks.limits_eq
  rcases Ranked.exists_of_distinct sweptAccounted.lastAccess_ne with ⟨order, ranked⟩
  have possible : HasRoom (cache.sweptFor key admission.now).limits admission.valueBytes
      ([] : List (Resident Value)) := by
    rw [limits_eq]
    exact ⟨Nat.pos_of_ne_zero entriesAllowed, by simpa using checkAdmission_fits admitted⟩
  rcases makeRoom_of_ranked sweptAccounted ranked (Nat.le_of_eq ranked.length_eq) possible with
    ⟨evicted, room, room_eq, rankedRoom, hasRoom, minimal⟩
  have spec := makeRoom_spec admission.valueBytes
    (Store.size (cache.sweptFor key admission.now).entries) (cache.sweptFor key admission.now)
  rw [room_eq] at spec
  rw [limits_eq] at hasRoom minimal
  refine ⟨order, evicted, room, ranked, rankedRoom, hasRoom, minimal, spec.2 rfl, ?_⟩
  simp only [sweptFor] at room_eq
  simp only [insert, admitted, advanced, room_eq]

/-- An insertion that is not admitted, or that gets no access mark, leaves the cache. -/
theorem insert_of_refused (key : CacheKey) (value : Value)
    (refused : (∀ expiresAt, checkAdmission cache.limits admission ≠ .ok expiresAt) ∨
      u64Max ≤ cache.sequence) :
    ∃ error, cache.insert key value admission = (.error error, cache) := by
  cases admitted : checkAdmission cache.limits admission with
  | error error => exact ⟨error, by simp [insert, admitted]⟩
  | ok expiresAt =>
    rcases refused with refused | last
    · exact absurd admitted (refused expiresAt)
    · have exhausted : ¬ cache.sequence + 1 ≤ u64Max := by omega
      exact ⟨.sequenceExhausted, by simp [insert, admitted, nextSequence, checkedAdd, exhausted]⟩

/-- For every insertion into a reachable cache: a failure leaves the entries as they
were, and only a refused admission or an exhausted sequence fails.  A success leaves
the new entry; the entries that have not expired and are not of its key have one order
of use, of which the shortest front that makes room is evicted, and nothing else is
removed or changed. -/
theorem insert_spec (limits : CacheLimits) (start : SecureCache Value)
    (created : new limits = .ok start) (operations : List (Operation Value)) (key : CacheKey)
    (value : Value) (admission : CacheAdmission) :
    let before := start.run operations
    let result := (before.insert key value admission).1
    let after := (before.insert key value admission).2
    (∀ error, result = .error error → after.entries = before.entries) ∧
      (result = .ok () ↔
        (∃ expiresAt, checkAdmission limits admission = .ok expiresAt) ∧
          before.sequence < u64Max) ∧
      (result = .ok () →
        after.entries.lookup key =
            some (admittedEntry value admission (admission.now + admission.ttlSeconds)
              (before.sequence + 1)) ∧
          ∃ (order : List (Resident Value)) (evicted : Nat),
            (order.Pairwise fun older newer => older.2.lastAccess < newer.2.lastAccess) ∧
            (∀ other entry, ⟨other, entry⟩ ∈ order ↔
              before.entries.lookup other = some entry ∧ admission.now < entry.expiresAt ∧
                other ≠ key) ∧
            (∀ other, other ≠ key → ∀ entry,
              after.entries.lookup other = some entry ↔ ⟨other, entry⟩ ∈ order.drop evicted) ∧
            (∀ other entry, before.entries.lookup other = some entry →
              after.entries.lookup other ≠ some entry →
              entry.expiresAt ≤ admission.now ∨ other = key ∨
                ⟨other, entry⟩ ∈ order.take evicted) ∧
            HasRoom limits admission.valueBytes (order.drop evicted) ∧
            ∀ fewer < evicted, ¬ HasRoom limits admission.valueBytes (order.drop fewer)) := by
  intro before result after
  have sound := Sound.run created operations
  have limits_eq : before.limits = limits := sound.limits_eq
  have entriesAllowed : before.limits.maxEntries ≠ 0 := by
    rw [limits_eq]
    exact new_maxEntries created
  by_cases accepted : (∃ expiresAt, checkAdmission limits admission = .ok expiresAt) ∧
      before.sequence < u64Max
  · rcases accepted with ⟨⟨expiresAt, admitted⟩, numbered⟩
    rw [← limits_eq] at admitted
    rcases insert_of_admitted key value sound.accounted entriesAllowed admitted numbered with
      ⟨order, evicted, room, ranked, rankedRoom, hasRoom, minimal, fits, insert_eq⟩
    have placed := @place_of_room _ room key value admission expiresAt (before.sequence + 1) fits
    have result_eq : result = .ok () := by
      change (before.insert key value admission).1 = _
      rw [insert_eq, placed]
    have entries_eq : after.entries = room.entries.insert key
        (admittedEntry value admission expiresAt (before.sequence + 1)) := by
      change (before.insert key value admission).2.entries = _
      rw [insert_eq, placed]
    have others (other : CacheKey) (differs : other ≠ key) (entry : Entry Value) :
        after.entries.lookup other = some entry ↔ ⟨other, entry⟩ ∈ order.drop evicted := by
      rw [entries_eq, AList.lookup_insert_ne differs]
      exact rankedRoom.mem_iff.symm
    have members (other : CacheKey) (entry : Entry Value) : ⟨other, entry⟩ ∈ order ↔
        before.entries.lookup other = some entry ∧ admission.now < entry.expiresAt ∧
          other ≠ key := by
      rw [ranked.mem_iff, lookup_sweptFor]
    refine ⟨?_, ?_, ?_⟩
    · intro error failed
      rw [result_eq] at failed
      cases failed
    · rw [limits_eq] at admitted
      exact iff_of_true result_eq ⟨⟨expiresAt, admitted⟩, numbered⟩
    intro _
    constructor
    · rw [entries_eq, AList.lookup_insert, checkAdmission_eq_ok admitted]
    · refine ⟨order, evicted, ranked.ascending, members, others, ?_, limits_eq ▸ hasRoom,
        limits_eq ▸ minimal⟩
      intro other entry resident removed
      by_cases late : entry.expiresAt ≤ admission.now
      · exact .inl late
      by_cases same : other = key
      · exact .inr (.inl same)
      right
      right
      have listed := (members other entry).mpr ⟨resident, Nat.not_le.mp late, same⟩
      rw [← List.take_append_drop evicted order, List.mem_append] at listed
      rcases listed with front | kept
      · exact front
      · exact absurd ((others other same entry).mpr kept) removed
  · have refused : (∀ expiresAt, checkAdmission before.limits admission ≠ .ok expiresAt) ∨
        u64Max ≤ before.sequence := by
      rw [not_and_or, not_exists, Nat.not_lt] at accepted
      rwa [limits_eq]
    rcases insert_of_refused key value refused with ⟨error, insert_eq⟩
    have result_eq : result = .error error := by
      change (before.insert key value admission).1 = _
      rw [insert_eq]
    have after_eq : after = before := by
      change (before.insert key value admission).2 = _
      rw [insert_eq]
    refine ⟨?_, ?_, ?_⟩
    · intro _ _
      rw [after_eq]
    · rw [result_eq]
      exact iff_of_false (by simp) accepted
    · intro succeeded
      rw [result_eq] at succeeded
      cases succeeded


/-- A cache with room for one entry. -/
def singleCache : SecureCache Nat :=
  { defaultCache with limits := { CacheLimits.default with maxEntries := 1 } }

def oneKey : CacheKey :=
  ⟨⟨List.replicate 32 1, rfl⟩⟩

/-- The entry of one key makes room for another key. -/
theorem insert_spec_evicts :
    ((singleCache.run sampleOperations).insert oneKey 8
        ⟨4, .positive, firstGeneration, 12, 5⟩).1 = .ok () ∧
      ∃ (order : List (Resident Nat)) (evicted : Nat),
        HasRoom singleCache.limits 4 (order.drop evicted) ∧
          ∀ fewer < evicted, ¬ HasRoom singleCache.limits 4 (order.drop fewer) := by
  have spec := insert_spec singleCache.limits singleCache rfl sampleOperations oneKey 8
    ⟨4, .positive, firstGeneration, 12, 5⟩
  have succeeded := spec.2.1.mpr ⟨⟨17, rfl⟩, by decide⟩
  rcases spec.2.2 succeeded with ⟨-, order, evicted, -, -, -, -, room, minimal⟩
  exact ⟨succeeded, order, evicted, room, minimal⟩

end SecureCache

end HnsDaneEngine.Cache
