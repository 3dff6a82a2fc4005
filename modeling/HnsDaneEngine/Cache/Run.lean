import HnsDaneEngine.Cache.Invariant
import HnsDaneEngine.Control.Except

/-!
# Runs of the secure cache

Sequences of operations on a new cache.  Along every run the accounts stay exact
and within their bounds, and a read answers only from the latest insertion of its
key.
-/

namespace HnsDaneEngine.Cache

open Data
open Primitives (Hash u64Max checkedAdd saturatingAdd)

universe u

/-- One call on a cache. -/
inductive Operation (Value : Type u)
  | insert (key : CacheKey) (value : Value) (admission : CacheAdmission)
  | get (key : CacheKey) (generation : CacheGeneration) (now : Nat)
  | remove (key : CacheKey)
  | clear

namespace SecureCache

variable {Value : Type u}

/-- The cache that one call leaves behind, whatever the call returns. -/
def apply (cache : SecureCache Value) : Operation Value → SecureCache Value
  | .insert key value admission => (cache.insert key value admission).2
  | .get key generation now => (cache.get key generation now).2
  | .remove key => (cache.remove key).2
  | .clear => cache.clear

def run (cache : SecureCache Value) (operations : List (Operation Value)) : SecureCache Value :=
  operations.foldl apply cache

theorem run_append (cache : SecureCache Value) (earlier later : List (Operation Value)) :
    cache.run (earlier ++ later) = (cache.run earlier).run later :=
  List.foldl_append

theorem run_concat (cache : SecureCache Value) (operations : List (Operation Value))
    (operation : Operation Value) :
    cache.run (operations ++ [operation]) = (cache.run operations).apply operation := by
  rw [run_append]
  rfl

/-- The insertion of `key` that succeeds last in a run. -/
def LatestInsert (cache : SecureCache Value) (operations : List (Operation Value))
    (key : CacheKey) (value : Value) (admission : CacheAdmission) : Prop :=
  ∃ earlier later, operations = earlier ++ .insert key value admission :: later ∧
    ((cache.run earlier).insert key value admission).1 = .ok () ∧
    ∀ middle otherValue otherAdmission rest,
      later = middle ++ .insert key otherValue otherAdmission :: rest →
      ((cache.run (earlier ++ .insert key value admission :: middle)).insert key otherValue
        otherAdmission).1 ≠ .ok ()

variable {key : CacheKey} {value : Value}

/-- Every later call on another key, of another kind or with an error keeps the
latest insertion. -/
theorem LatestInsert.concat {cache : SecureCache Value} {operations : List (Operation Value)}
    {admission : CacheAdmission} (latest : LatestInsert cache operations key value admission)
    (operation : Operation Value) (unsuccessful : ∀ otherValue otherAdmission,
      operation = .insert key otherValue otherAdmission →
      ((cache.run operations).insert key otherValue otherAdmission).1 ≠ .ok ()) :
    LatestInsert cache (operations ++ [operation]) key value admission := by
  obtain ⟨earlier, later, rfl, inserted, last⟩ := latest
  refine ⟨earlier, later ++ [operation], by simp, inserted, ?_⟩
  intro middle otherValue otherAdmission rest later_eq
  rcases List.eq_nil_or_concat rest with rfl | ⟨rest, final, rfl⟩
  · obtain ⟨rfl, operation_eq⟩ := List.append_inj' later_eq rfl
    exact unsuccessful otherValue otherAdmission (List.singleton_inj.mp operation_eq)
  · rw [List.concat_eq_append, ← List.cons_append, ← List.append_assoc] at later_eq
    obtain ⟨later_eq, -⟩ := List.append_inj' later_eq rfl
    exact last middle otherValue otherAdmission rest later_eq

variable {cache : SecureCache Value} {operations : List (Operation Value)}
  {admission : CacheAdmission} {earlier : Entry Value} {limits : CacheLimits}
  {operation : Operation Value}

theorem LatestInsert.of_insert
    (inserted : ((cache.run operations).insert key value admission).1 = .ok ()) :
    LatestInsert cache (operations ++ [.insert key value admission]) key value admission :=
  ⟨operations, [], rfl, inserted, by simp⟩

/-- An entry carries the data of the admission under which it was inserted. -/
structure Records (entry : Entry Value) (admission : CacheAdmission) : Prop where
  valueBytes_eq : entry.valueBytes = admission.valueBytes
  disposition_eq : entry.disposition = admission.disposition
  generation_eq : entry.generation = admission.generation
  expiresAt_eq : entry.expiresAt = admission.now + admission.ttlSeconds

theorem SameContent.records {later : Entry Value} (same : SameContent earlier later)
    (records : Records earlier admission) :
    Records later admission := by
  rw [same]
  exact ⟨records.valueBytes_eq, records.disposition_eq, records.generation_eq, records.expiresAt_eq⟩

theorem SameContent.value_eq {later : Entry Value} (same : SameContent earlier later) :
    later.value = earlier.value := by
  rw [same]

theorem checkAdmission_eq_ok {expiresAt : Nat}
    (admitted : checkAdmission limits admission = .ok expiresAt) :
    expiresAt = admission.now + admission.ttlSeconds := by
  unfold checkAdmission checkedAdd at admitted
  obtain ⟨-, -, admitted⟩ := Control.of_bind_ok admitted
  obtain ⟨-, admitted⟩ := Control.of_guard_ok admitted
  obtain ⟨-, admitted⟩ := Control.of_guard_ok admitted
  split_ifs at admitted
  exact (Except.ok.inj admitted).symm

/-- Every resident entry stems from the latest insertion of its key. -/
def Sourced (cache : SecureCache Value) (operations : List (Operation Value)) : Prop :=
  ∀ key entry, (cache.run operations).entries.lookup key = some entry →
    ∃ admission, LatestInsert cache operations key entry.value admission ∧ Records entry admission

/-- A step that only retains entries keeps their sources, unless it inserts. -/
theorem Sourced.retain (sourced : Sourced cache operations)
    (retains : Retains (cache.run operations) ((cache.run operations).apply operation))
    (unsuccessful : ∀ key value admission, operation = .insert key value admission →
      ((cache.run operations).insert key value admission).1 ≠ .ok ()) :
    Sourced cache (operations ++ [operation]) := by
  intro key entry found
  rw [run_concat] at found
  obtain ⟨earlier, earlierFound, same⟩ := retains.lookup_eq key entry found
  obtain ⟨admission, latest, records⟩ := sourced key earlier earlierFound
  refine ⟨admission, ?_, same.records records⟩
  rw [same.value_eq]
  exact latest.concat operation (unsuccessful key)

/-- A successful insertion becomes the source of its own entry and of no other. -/
theorem Sourced.insert {expiresAt sequence : Nat} {room : SecureCache Value}
    (sourced : Sourced cache operations)
    (admitted : checkAdmission (cache.run operations).limits admission = .ok expiresAt)
    (lookup_eq : ∀ other entry, room.entries.lookup other = some entry →
      (cache.run operations).entries.lookup other = some entry)
    (fits : room.isFull admission.valueBytes = false)
    (insert_eq : (cache.run operations).insert key value admission =
      room.place key value admission expiresAt sequence) :
    Sourced cache (operations ++ [.insert key value admission]) := by
  rw [place_of_room fits] at insert_eq
  intro other entry found
  rw [run_concat, apply, insert_eq] at found
  change (AList.insert _ _ room.entries).lookup other = _ at found
  by_cases same : other = key
  · subst same
    rw [AList.lookup_insert] at found
    obtain rfl := Option.some.inj found
    exact ⟨admission, LatestInsert.of_insert (by rw [insert_eq]),
      ⟨rfl, rfl, rfl, checkAdmission_eq_ok admitted⟩⟩
  · rw [AList.lookup_insert_ne same] at found
    obtain ⟨source, latest, records⟩ := sourced other entry (lookup_eq other entry found)
    refine ⟨source, latest.concat _ ?_, records⟩
    intro otherValue otherAdmission operation_eq
    cases operation_eq
    exact absurd rfl same

/-- What every call preserves. -/
structure Sound (limits : CacheLimits) (cache : SecureCache Value)
    (operations : List (Operation Value)) : Prop where
  limits_eq : (cache.run operations).limits = limits
  accounted : (cache.run operations).Accounted
  sourced : Sourced cache operations

theorem Sound.retain (sound : Sound limits cache operations)
    (retains : Retains (cache.run operations) ((cache.run operations).apply operation))
    (unsuccessful : ∀ key value admission, operation = .insert key value admission →
      ((cache.run operations).insert key value admission).1 ≠ .ok ()) :
    Sound limits cache (operations ++ [operation]) where
  limits_eq := by
    rw [run_concat, retains.limits_eq, sound.limits_eq]
  accounted := by
    rw [run_concat]
    exact retains.accounted sound.accounted
  sourced := sound.sourced.retain retains unsuccessful

theorem Sound.insert (sound : Sound limits cache operations) (key : CacheKey) (value : Value)
    (admission : CacheAdmission) :
    Sound limits cache (operations ++ [.insert key value admission]) := by
  rcases insert_cases (cache.run operations) key value admission with
    ⟨error, after, insert_eq, retains⟩ |
    ⟨expiresAt, room, admitted, shrinks, absent, fits, insert_eq⟩
  · apply sound.retain
    · rw [apply, insert_eq]
      exact retains
    · intro otherKey otherValue otherAdmission operation_eq
      cases operation_eq
      rw [insert_eq]
      exact nofun
  · constructor
    · rw [run_concat, apply, insert_eq, place_of_room fits]
      exact shrinks.limits_eq.trans sound.limits_eq
    · rw [run_concat, apply, insert_eq]
      exact sound.accounted.place shrinks absent fits
    · exact sound.sourced.insert admitted shrinks.lookup_eq fits insert_eq

theorem Sound.step (sound : Sound limits cache operations) (operation : Operation Value) :
    Sound limits cache (operations ++ [operation]) := by
  cases operation with
  | insert key value admission => exact sound.insert key value admission
  | get key generation now =>
    exact sound.retain (get_spec (cache.run operations) key generation now).1 (by simp)
  | remove key => exact sound.retain (shrinks_remove (cache.run operations) key).retains (by simp)
  | clear => exact sound.retain (shrinks_clear (cache.run operations)).retains (by simp)

theorem new_eq_ok (created : new limits = .ok cache) :
    cache = { limits, entries := ∅, sequence := 0, stats := ⟨0, 0, 0, 0, 0, 0, 0⟩ } := by
  unfold new CacheLimits.validate at created
  split_ifs at created
  exact (Except.ok.inj created).symm

theorem Sound.new (created : new limits = .ok cache) : Sound limits cache [] := by
  obtain rfl := new_eq_ok created
  constructor
  · rfl
  · constructor
    · rfl
    · rfl
    · exact Nat.zero_le _
    · exact Nat.zero_le _
    · exact List.Pairwise.nil
    · simp [run]
  · intro key entry found
    change (∅ : Store CacheKey (Entry Value)).lookup key = _ at found
    rw [AList.lookup_empty] at found
    cases found

theorem Sound.run (created : SecureCache.new limits = .ok cache)
    (operations : List (Operation Value)) :
    Sound limits cache operations := by
  induction operations using List.reverseRecOn with
  | nil => exact Sound.new created
  | append_singleton operations operation ih => exact ih.step operation

/-- Along every run of a cache made with valid limits the accounts are those of the
resident entries and stay within the limits, the access marks are distinct and not
ahead of the sequence, and a read returns only the value that the latest insertion
of its key stored under the same generation and that has not expired. -/
theorem run_invariant (limits : CacheLimits) (cache : SecureCache Value)
    (created : SecureCache.new limits = .ok cache) (operations : List (Operation Value)) :
    (cache.run operations).stats.entries = Store.size (cache.run operations).entries ∧
      (cache.run operations).stats.valueBytes =
        Store.total Entry.valueBytes (cache.run operations).entries ∧
      (cache.run operations).stats.entries ≤ limits.maxEntries ∧
      (cache.run operations).stats.valueBytes ≤ limits.maxTotalValueBytes ∧
      (cache.run operations).entries.entries.Pairwise (fun older newer =>
        older.2.lastAccess ≠ newer.2.lastAccess) ∧
      (∀ entry ∈ (cache.run operations).entries.entries,
        entry.2.lastAccess ≤ (cache.run operations).sequence) ∧
      ∀ key generation now value disposition,
        ((cache.run operations).get key generation now).1 = .ok (some (value, disposition)) →
        ∃ admission, LatestInsert cache operations key value admission ∧
          admission.generation = generation ∧ admission.disposition = disposition ∧
          now < admission.now + admission.ttlSeconds := by
  have sound := Sound.run created operations
  have limits_eq := sound.limits_eq
  have accounted := sound.accounted
  refine ⟨accounted.entries_eq, accounted.valueBytes_eq, ?_, ?_, accounted.lastAccess_ne,
    accounted.lastAccess_le, ?_⟩
  · rw [accounted.entries_eq, ← limits_eq]
    exact accounted.entries_le
  · rw [← limits_eq]
    exact accounted.valueBytes_le
  · intro key generation now value disposition returned
    obtain ⟨entry, found, rfl, rfl, rfl, current⟩ :=
      (get_spec (cache.run operations) key generation now).2 value disposition returned
    obtain ⟨admission, latest, records⟩ := sound.sourced key entry found
    refine ⟨admission, latest, records.generation_eq.symm, records.disposition_eq.symm, ?_⟩
    rw [← records.expiresAt_eq]
    exact current

/-- A cache under the default limits. -/
def defaultCache : SecureCache Value where
  limits := CacheLimits.default
  entries := ∅
  sequence := 0
  stats := ⟨0, 0, 0, 0, 0, 0, 0⟩

def zeroKey : CacheKey :=
  ⟨Hash.zero⟩

def firstGeneration : CacheGeneration :=
  ⟨1, 1, 0, Hash.zero⟩

/-- A removal of an absent key, then an insertion at time 10 for five seconds. -/
def sampleOperations : List (Operation Nat) :=
  [.remove zeroKey, .insert zeroKey 7 ⟨4, .positive, firstGeneration, 10, 5⟩]

theorem run_invariant_default :
    SecureCache.new CacheLimits.default = .ok (defaultCache : SecureCache Nat) ∧
      ((defaultCache.run sampleOperations).get zeroKey firstGeneration 14).1 =
        .ok (some (7, .positive)) ∧
      ∃ admission, LatestInsert defaultCache sampleOperations zeroKey 7 admission ∧
        admission.generation = firstGeneration ∧ admission.disposition = .positive ∧
        14 < admission.now + admission.ttlSeconds :=
  have reads := (run_invariant CacheLimits.default defaultCache rfl sampleOperations).2.2.2.2.2.2
  ⟨rfl, rfl, reads zeroKey firstGeneration 14 7 .positive rfl⟩

end SecureCache

end HnsDaneEngine.Cache
