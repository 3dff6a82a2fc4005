import HnsDaneEngine.Cache.SecureCache

/-!
# Representation invariant of the secure cache

Removals only shrink the store and keep its accounts; insertion and reading then
restore the bounds and the access order, so the invariant holds along every run.
-/

namespace HnsDaneEngine.Cache

open Data
open Primitives (u64Max checkedAdd saturatingAdd)

universe u

variable {stats : CacheStats}

namespace SecureCache

variable {Value : Type u} {cache first second third : SecureCache Value} {key : CacheKey}

/-- The counters agree with the resident entries, the bounds hold and the access
marks are distinct and not ahead of the sequence. -/
structure Accounted (cache : SecureCache Value) : Prop where
  entries_eq : cache.stats.entries = Store.size cache.entries
  valueBytes_eq : cache.stats.valueBytes = Store.total Entry.valueBytes cache.entries
  entries_le : Store.size cache.entries ≤ cache.limits.maxEntries
  valueBytes_le : cache.stats.valueBytes ≤ cache.limits.maxTotalValueBytes
  lastAccess_ne : cache.entries.entries.Pairwise fun older newer =>
    older.2.lastAccess ≠ newer.2.lastAccess
  lastAccess_le : ∀ entry ∈ cache.entries.entries, entry.2.lastAccess ≤ cache.sequence

/-- The second cache is the first one with some entries removed. -/
structure Shrinks (first second : SecureCache Value) : Prop where
  limits_eq : second.limits = first.limits
  sequence_eq : second.sequence = first.sequence
  lookup_eq : ∀ key entry, second.entries.lookup key = some entry →
    first.entries.lookup key = some entry
  accounted : first.Accounted → second.Accounted

namespace Shrinks

theorem refl (cache : SecureCache Value) : Shrinks cache cache :=
  ⟨rfl, rfl, fun _ _ found => found, fun accounted => accounted⟩

theorem trans (left : Shrinks first second) (right : Shrinks second third) :
    Shrinks first third where
  limits_eq := right.limits_eq.trans left.limits_eq
  sequence_eq := right.sequence_eq.trans left.sequence_eq
  lookup_eq key entry found := left.lookup_eq key entry (right.lookup_eq key entry found)
  accounted accounted := right.accounted (left.accounted accounted)

/-- Counters other than the two accounts do not matter. -/
theorem withStats (shrinks : Shrinks first second)
    (entries_eq : stats.entries = second.stats.entries)
    (valueBytes_eq : stats.valueBytes = second.stats.valueBytes) :
    Shrinks first { second with stats } where
  limits_eq := shrinks.limits_eq
  sequence_eq := shrinks.sequence_eq
  lookup_eq := shrinks.lookup_eq
  accounted accounted := by
    have kept := shrinks.accounted accounted
    constructor
    · exact entries_eq.trans kept.entries_eq
    · exact valueBytes_eq.trans kept.valueBytes_eq
    · exact kept.entries_le
    · exact valueBytes_eq.trans_le kept.valueBytes_le
    · exact kept.lastAccess_ne
    · exact kept.lastAccess_le

theorem miss (shrinks : Shrinks first second) : Shrinks first second.miss := by
  unfold SecureCache.miss
  exact shrinks.withStats rfl rfl

end Shrinks

theorem removeInternal_of_absent (absent : cache.entries.lookup key = none) :
    cache.removeInternal key = (none, cache) := by
  simp [removeInternal, absent]

theorem removeInternal_fst : (cache.removeInternal key).1 = cache.entries.lookup key := by
  unfold removeInternal
  cases cache.entries.lookup key <;> rfl

theorem removeInternal_entries :
    (cache.removeInternal key).2.entries = cache.entries.erase key := by
  unfold removeInternal
  cases found : cache.entries.lookup key with
  | none => exact (Store.erase_of_absent found).symm
  | some entry => rfl

variable {entry : Entry Value}

/-- Removing one key subtracts exactly what it was accounted for. -/
theorem shrinks_removeInternal (cache : SecureCache Value) (key : CacheKey) :
    Shrinks cache (cache.removeInternal key).2 := by
  cases found : cache.entries.lookup key with
  | none =>
    rw [removeInternal_of_absent found]
    exact Shrinks.refl cache
  | some entry =>
    have size_eq := Store.size_of_lookup found
    have total_eq := Store.total_of_lookup Entry.valueBytes found
    simp only [removeInternal, found]
    constructor
    · rfl
    · rfl
    · intro other otherEntry otherFound
      exact (Store.lookup_of_lookup_erase otherFound).1
    · intro accounted
      have bytes_eq : cache.stats.valueBytes - entry.valueBytes =
          Store.total Entry.valueBytes (cache.entries.erase key) := by
        rw [accounted.valueBytes_eq, total_eq, Nat.add_sub_cancel_left]
      have entries_le := accounted.entries_le
      have valueBytes_le := accounted.valueBytes_le
      constructor
      · rfl
      · exact bytes_eq
      · dsimp only
        omega
      · dsimp only
        omega
      · exact Store.pairwise_erase key accounted.lastAccess_ne
      · intro other otherMem
        exact accounted.lastAccess_le other (Store.mem_entries_of_mem_erase otherMem)

theorem shrinks_expireKey (cache : SecureCache Value) (key : CacheKey) :
    Shrinks cache (cache.expireKey key) := by
  unfold expireKey
  split
  next removed after removed_eq =>
    have shrinks := shrinks_removeInternal cache key
    rw [removed_eq] at shrinks
    split
    · exact shrinks.withStats rfl rfl
    · exact shrinks

theorem shrinks_foldl_expireKey (keys : List CacheKey) (cache : SecureCache Value) :
    Shrinks cache (keys.foldl expireKey cache) := by
  induction keys generalizing cache with
  | nil => exact Shrinks.refl cache
  | cons key keys ih => exact (shrinks_expireKey cache key).trans (ih _)

theorem shrinks_removeExpired (cache : SecureCache Value) (now : Nat) :
    Shrinks cache (cache.removeExpired now) :=
  shrinks_foldl_expireKey _ cache

/-- An eviction removes the key of one resident entry. -/
theorem evictLru_eq_some (evicted : cache.evictLru = some second) :
    Shrinks cache second ∧ Store.size cache.entries = Store.size second.entries + 1 := by
  unfold evictLru at evicted
  split at evicted
  · cases evicted
  next oldest oldest_eq =>
    split at evicted
    · cases evicted
    next entry after removed_eq =>
      have shrinks := shrinks_removeInternal cache oldest.1
      have found : (cache.removeInternal oldest.1).1 = cache.entries.lookup oldest.1 :=
        removeInternal_fst
      have entries_eq : (cache.removeInternal oldest.1).2.entries = cache.entries.erase oldest.1 :=
        removeInternal_entries
      rw [removed_eq] at shrinks found entries_eq
      obtain rfl := Option.some.inj evicted
      constructor
      · exact shrinks.withStats rfl rfl
      · change _ = Store.size after.entries + 1
        rw [entries_eq]
        exact Store.size_of_lookup found.symm

/-- Entries that differ at most in their access mark. -/
def SameContent (earlier later : Entry Value) : Prop :=
  later = { earlier with lastAccess := later.lastAccess }

/-- The second cache holds nothing that the first one did not hold, up to access
marks, and keeps its accounts. -/
structure Retains (first second : SecureCache Value) : Prop where
  limits_eq : second.limits = first.limits
  lookup_eq : ∀ key entry, second.entries.lookup key = some entry →
    ∃ earlier, first.entries.lookup key = some earlier ∧ SameContent earlier entry
  accounted : first.Accounted → second.Accounted

theorem Shrinks.retains (shrinks : Shrinks first second) : Retains first second where
  limits_eq := shrinks.limits_eq
  lookup_eq key entry found := ⟨entry, shrinks.lookup_eq key entry found, rfl⟩
  accounted := shrinks.accounted

theorem Retains.trans (left : Retains first second) (right : Retains second third) :
    Retains first third where
  limits_eq := right.limits_eq.trans left.limits_eq
  lookup_eq key entry found := by
    obtain ⟨middle, middleFound, middle_eq⟩ := right.lookup_eq key entry found
    obtain ⟨earlier, earlierFound, earlier_eq⟩ := left.lookup_eq key middle middleFound
    refine ⟨earlier, earlierFound, ?_⟩
    rw [SameContent, middle_eq, earlier_eq]
  accounted accounted := right.accounted (left.accounted accounted)

theorem nextSequence_eq_ok (advanced : cache.nextSequence = .ok second) :
    second = { cache with sequence := cache.sequence + 1 } := by
  unfold nextSequence checkedAdd at advanced
  split_ifs at advanced
  exact (Except.ok.inj advanced).symm

/-- Advancing the sequence leaves every access mark strictly behind it. -/
theorem Accounted.advance (accounted : cache.Accounted) :
    Accounted { cache with sequence := cache.sequence + 1 } ∧
      ∀ entry ∈ cache.entries.entries, entry.2.lastAccess < cache.sequence + 1 := by
  constructor
  · constructor
    · exact accounted.entries_eq
    · exact accounted.valueBytes_eq
    · exact accounted.entries_le
    · exact accounted.valueBytes_le
    · exact accounted.lastAccess_ne
    · intro entry entryMem
      exact Nat.le_succ_of_le (accounted.lastAccess_le entry entryMem)
  · intro entry entryMem
    exact Nat.lt_succ_of_le (accounted.lastAccess_le entry entryMem)

theorem retains_advance (cache : SecureCache Value) :
    Retains cache { cache with sequence := cache.sequence + 1 } where
  limits_eq := rfl
  lookup_eq _ entry found := ⟨entry, found, rfl⟩
  accounted accounted := accounted.advance.1

theorem isFull_eq_false {valueBytes : Nat} (room : cache.isFull valueBytes = false) :
    Store.size cache.entries < cache.limits.maxEntries ∧
      checkedAdd cache.stats.valueBytes valueBytes = some (cache.stats.valueBytes + valueBytes) ∧
      cache.stats.valueBytes + valueBytes ≤ cache.limits.maxTotalValueBytes := by
  unfold isFull checkedAdd at *
  split_ifs at room ⊢ with fits
  · simpa using room
  · simp at room

/-- The eviction loop only removes entries, and ends with room for the value. -/
theorem makeRoom_spec (valueBytes turns : Nat) (cache : SecureCache Value) :
    Shrinks cache (makeRoom valueBytes turns cache).2 ∧
      ((makeRoom valueBytes turns cache).1 = .ok () →
        (makeRoom valueBytes turns cache).2.isFull valueBytes = false) := by
  induction turns generalizing cache with
  | zero =>
    by_cases full : cache.isFull valueBytes
    · simp [makeRoom, full, Shrinks.refl]
    · simp [makeRoom, full, Shrinks.refl]
  | succ turns ih =>
    by_cases full : cache.isFull valueBytes
    · cases evicted : cache.evictLru with
      | none => simp [makeRoom, full, evicted, Shrinks.refl]
      | some after =>
        have shrinks := (evictLru_eq_some evicted).1
        simp only [makeRoom, full, evicted, if_true]
        exact ⟨shrinks.trans (ih after).1, (ih after).2⟩
    · simp [makeRoom, full, Shrinks.refl]

/-- One turn for each entry is enough: the bound on the turns is never what ends the
eviction loop. -/
theorem makeRoom_of_enough {valueBytes turns : Nat} (enough : Store.size cache.entries ≤ turns) :
    makeRoom valueBytes (turns + 1) cache = makeRoom valueBytes turns cache := by
  induction turns generalizing cache with
  | zero =>
    cases evicted : cache.evictLru with
    | none => simp [makeRoom, evicted]
    | some after =>
      -- an empty cache has nothing to evict
      have size_eq := (evictLru_eq_some evicted).2
      omega
  | succ turns ih =>
    rw [makeRoom, makeRoom]
    cases evicted : cache.evictLru with
    | none => rfl
    | some after =>
      have size_eq := (evictLru_eq_some evicted).2
      have rest_eq := @ih after (by omega)
      simp only [rest_eq]

/-- The entry that a successful insertion leaves behind. -/
def admittedEntry (value : Value) (admission : CacheAdmission) (expiresAt sequence : Nat) :
    Entry Value where
  value := value
  valueBytes := admission.valueBytes
  disposition := admission.disposition
  generation := admission.generation
  expiresAt := expiresAt
  lastAccess := sequence

theorem place_of_room {value : Value} {admission : CacheAdmission} {expiresAt sequence : Nat}
    (room : cache.isFull admission.valueBytes = false) :
    cache.place key value admission expiresAt sequence =
      (.ok (), { cache with
        entries := cache.entries.insert key (admittedEntry value admission expiresAt sequence)
        stats := { cache.stats with
          valueBytes := cache.stats.valueBytes + admission.valueBytes
          entries := Store.size
            (cache.entries.insert key (admittedEntry value admission expiresAt sequence)) } }) := by
  simp only [place, (isFull_eq_false room).2.1, admittedEntry]

/-- What an insertion can do: fail with nothing added, or place the value in a
cache that has room and no longer holds the key. -/
theorem insert_cases (cache : SecureCache Value) (key : CacheKey) (value : Value)
    (admission : CacheAdmission) :
    (∃ error after, cache.insert key value admission = (.error error, after) ∧
        Retains cache after) ∨
      ∃ expiresAt room, checkAdmission cache.limits admission = .ok expiresAt ∧
        Shrinks { cache with sequence := cache.sequence + 1 } room ∧
        room.entries.lookup key = none ∧
        room.isFull admission.valueBytes = false ∧
        cache.insert key value admission =
          room.place key value admission expiresAt (cache.sequence + 1) := by
  cases admitted : checkAdmission cache.limits admission with
  | error error =>
    left
    exact ⟨error, cache, by simp [insert, admitted], (Shrinks.refl cache).retains⟩
  | ok expiresAt =>
    cases advanced : cache.nextSequence with
    | error error =>
      left
      exact ⟨error, cache, by simp [insert, admitted, advanced], (Shrinks.refl cache).retains⟩
    | ok next =>
      obtain rfl := nextSequence_eq_ok advanced
      have removed := (shrinks_removeExpired
        { cache with sequence := cache.sequence + 1 } admission.now).trans
          (shrinks_removeInternal _ key)
      have absent : ((removeExpired { cache with sequence := cache.sequence + 1 }
          admission.now).removeInternal key).2.entries.lookup key = none := by
        rw [removeInternal_entries, AList.lookup_erase]
      simp only [insert, admitted, advanced]
      generalize ((removeExpired { cache with sequence := cache.sequence + 1 }
          admission.now).removeInternal key).2 = pruned at removed absent ⊢
      have spec := makeRoom_spec admission.valueBytes (Store.size pruned.entries) pruned
      generalize makeRoom admission.valueBytes (Store.size pruned.entries) pruned =
        outcome at spec ⊢
      rcases outcome with ⟨error | ⟨⟨⟩⟩, room⟩
      · left
        exact ⟨error, room, rfl, (retains_advance cache).trans (removed.trans spec.1).retains⟩
      · right
        refine ⟨expiresAt, room, rfl, removed.trans spec.1, ?_, spec.2 rfl, rfl⟩
        cases found : room.entries.lookup key with
        | none => rfl
        | some entry => simpa [absent] using spec.1.lookup_eq key entry found

/-- Placing a value keeps the accounts and both bounds. -/
theorem Accounted.place {room : SecureCache Value} (accounted : cache.Accounted)
    (shrinks : Shrinks { cache with sequence := cache.sequence + 1 } room)
    (absent : room.entries.lookup key = none) {value : Value} {admission : CacheAdmission}
    (fits : room.isFull admission.valueBytes = false) {expiresAt : Nat} :
    Accounted (room.place key value admission expiresAt (cache.sequence + 1)).2 := by
  have kept := shrinks.accounted accounted.advance.1
  have fresh : ∀ entry ∈ room.entries.entries, entry.2.lastAccess < cache.sequence + 1 := by
    intro entry entryMem
    have found : room.entries.lookup entry.1 = some entry.2 := AList.mem_lookup_iff.mpr entryMem
    exact accounted.advance.2 entry
      (AList.mem_lookup_iff.mp (shrinks.lookup_eq entry.1 entry.2 found))
  obtain ⟨size_lt, -, bytes_le⟩ := isFull_eq_false fits
  have sequence_eq : room.sequence = cache.sequence + 1 := shrinks.sequence_eq
  rw [place_of_room fits]
  constructor
  · rfl
  · change room.stats.valueBytes + admission.valueBytes = Store.total _ (AList.insert _ _ _)
    rw [Store.total_insert, Store.erase_of_absent absent, kept.valueBytes_eq, Nat.add_comm]
    rfl
  · change Store.size (AList.insert _ _ _) ≤ room.limits.maxEntries
    rw [Store.size_insert, Store.erase_of_absent absent]
    exact size_lt
  · exact bytes_le
  · change (AList.insert _ _ room.entries).entries.Pairwise _
    rw [Store.entries_insert_eq, Store.erase_of_absent absent, List.pairwise_cons]
    exact ⟨fun entry entryMem => (fresh entry entryMem).ne', kept.lastAccess_ne⟩
  · change ∀ entry ∈ (AList.insert _ _ room.entries).entries, _ ≤ room.sequence
    rw [Store.entries_insert_eq, Store.erase_of_absent absent, List.forall_mem_cons]
    exact ⟨sequence_eq.ge, kept.lastAccess_le⟩

/-- Renewing the access mark of a resident entry changes no account. -/
theorem Accounted.touch (accounted : cache.Accounted)
    (found : cache.entries.lookup key = some entry)
    (entries_eq : stats.entries = cache.stats.entries)
    (valueBytes_eq : stats.valueBytes = cache.stats.valueBytes) : Accounted
      { cache with
        entries := cache.entries.insert key { entry with lastAccess := cache.sequence + 1 }
        sequence := cache.sequence + 1
        stats } := by
  have size_eq := Store.size_of_lookup found
  have total_eq := Store.total_of_lookup Entry.valueBytes found
  constructor
  · change stats.entries = Store.size (AList.insert _ _ _)
    rw [Store.size_insert, ← size_eq, entries_eq, accounted.entries_eq]
  · change stats.valueBytes = Store.total _ (AList.insert _ _ _)
    rw [Store.total_insert, valueBytes_eq, accounted.valueBytes_eq, total_eq]
  · change Store.size (AList.insert _ _ _) ≤ _
    rw [Store.size_insert, ← size_eq]
    exact accounted.entries_le
  · exact valueBytes_eq.trans_le accounted.valueBytes_le
  · change (AList.insert _ _ cache.entries).entries.Pairwise _
    rw [Store.entries_insert_eq, List.pairwise_cons]
    constructor
    · intro other otherMem
      exact (accounted.advance.2 other (Store.mem_entries_of_mem_erase otherMem)).ne'
    · exact Store.pairwise_erase key accounted.lastAccess_ne
  · change ∀ other ∈ (AList.insert _ _ cache.entries).entries, _ ≤ cache.sequence + 1
    rw [Store.entries_insert_eq, List.forall_mem_cons]
    constructor
    · exact le_rfl
    · intro other otherMem
      exact (accounted.advance.2 other (Store.mem_entries_of_mem_erase otherMem)).le

theorem retains_touch (found : cache.entries.lookup key = some entry)
    (entries_eq : stats.entries = cache.stats.entries)
    (valueBytes_eq : stats.valueBytes = cache.stats.valueBytes) : Retains cache
      { cache with
        entries := cache.entries.insert key { entry with lastAccess := cache.sequence + 1 }
        sequence := cache.sequence + 1
        stats } where
  limits_eq := rfl
  lookup_eq other otherEntry otherFound := by
    change (AList.insert _ _ cache.entries).lookup other = _ at otherFound
    by_cases same : other = key
    · subst same
      rw [AList.lookup_insert] at otherFound
      obtain rfl := Option.some.inj otherFound
      exact ⟨entry, found, rfl⟩
    · rw [AList.lookup_insert_ne same] at otherFound
      exact ⟨otherEntry, otherFound, rfl⟩
  accounted accounted := accounted.touch found entries_eq valueBytes_eq

/-- A read keeps what is stored, and returns a value only from a resident entry of
the requested generation that has not expired. -/
theorem get_spec (cache : SecureCache Value) (key : CacheKey) (generation : CacheGeneration)
    (now : Nat) :
    Retains cache (cache.get key generation now).2 ∧ ∀ value disposition,
        (cache.get key generation now).1 = .ok (some (value, disposition)) →
        ∃ entry, cache.entries.lookup key = some entry ∧ entry.value = value ∧
          entry.disposition = disposition ∧ entry.generation = generation ∧
          now < entry.expiresAt := by
  have unchanged := Shrinks.refl cache
  have removed := shrinks_removeInternal cache key
  unfold get
  split
  · exact ⟨unchanged.retains, by simp⟩
  next valid valid_eq =>
    have generation_eq : valid = generation := by
      unfold CacheGeneration.validate at valid_eq
      split_ifs at valid_eq
      exact (Except.ok.inj valid_eq).symm
    subst generation_eq
    split
    · exact ⟨unchanged.miss.retains, by simp⟩
    next entry found =>
      split_ifs with mismatched expired
      · refine ⟨Shrinks.retains (Shrinks.miss ?_), by simp⟩
        exact removed.withStats rfl rfl
      · refine ⟨Shrinks.retains (Shrinks.miss ?_), by simp⟩
        exact removed.withStats rfl rfl
      split
      · exact ⟨unchanged.retains, by simp⟩
      next advanced advanced_eq =>
        obtain rfl := nextSequence_eq_ok advanced_eq
        constructor
        · exact retains_touch found rfl rfl
        · intro value disposition result_eq
          simp only [Except.ok.injEq, Option.some.injEq, Prod.mk.injEq] at result_eq
          exact ⟨entry, found, result_eq.1, result_eq.2, by simpa using mismatched,
            by simpa using expired⟩

theorem shrinks_remove (cache : SecureCache Value) (key : CacheKey) :
    Shrinks cache (cache.remove key).2 :=
  shrinks_removeInternal cache key

theorem shrinks_clear (cache : SecureCache Value) : Shrinks cache cache.clear where
  limits_eq := rfl
  sequence_eq := rfl
  lookup_eq key entry found := by
    change (∅ : Store CacheKey (Entry Value)).lookup key = _ at found
    rw [AList.lookup_empty] at found
    cases found
  accounted _ := by
    constructor
    · rfl
    · rfl
    · exact Nat.zero_le _
    · exact Nat.zero_le _
    · exact List.Pairwise.nil
    · simp [clear]

end SecureCache

end HnsDaneEngine.Cache
