import HnsDaneEngine.Cache.SecureCache
import HnsDaneEngine.Control.Run
import HnsDaneEngine.Data.Recency

/-!
# The expiring least-recently-used store

A map of entries with an expiry time beside a queue of their keys.  Every operation
works on both.  The queue lists the resident keys in the order of their last use, and
a key is evicted only after as many other keys have been used since as the store may
hold.
-/

namespace HnsDaneEngine.Cache

open Control Data

universe u v

/-- A value with its expiry. -/
structure TimedEntry (Value : Type v) where
  value : Value
  expiresAt : Nat

/-- The entries stand in some iteration order of the hash map.  Instants are
numbers; the clock is read by the caller of each operation. -/
structure ExpiringLru (Key : Type u) (Value : Type v) where
  maxEntries : Nat
  entries : Store Key (TimedEntry Value)
  order : List Key

namespace ExpiringLru

variable {Key : Type u} {Value : Type v}

/-- The bound is a `NonZeroUsize`. -/
def new (maxEntries : Nat) : ExpiringLru Key Value :=
  ⟨maxEntries, ∅, []⟩

def clear (lru : ExpiringLru Key Value) : ExpiringLru Key Value :=
  { lru with entries := ∅, order := [] }

variable [DecidableEq Key]

def pruneExpired (lru : ExpiringLru Key Value) (now : Nat) : ExpiringLru Key Value :=
  let entries := lru.entries.retain (now < ·.expiresAt)
  { lru with entries, order := lru.order.filter fun key => (entries.lookup key).isSome }

def promote (lru : ExpiringLru Key Value) (key : Key) : ExpiringLru Key Value :=
  { lru with order := lru.order.filter (· ≠ key) }

/-- The loop of `evict_over_limit`, on the queue that it consumes. -/
def evict (maxEntries : Nat) :
    List Key → Store Key (TimedEntry Value) → List Key × Store Key (TimedEntry Value)
  | [], entries => ([], entries)
  | key :: order, entries =>
    if maxEntries < entries.size then evict maxEntries order (entries.erase key)
    else (key :: order, entries)

def evictOverLimit (lru : ExpiringLru Key Value) : ExpiringLru Key Value :=
  let (order, entries) := evict lru.maxEntries lru.order lru.entries
  { lru with entries, order }

/-- `Instant::checked_add`, with the last instant of the platform. -/
def addTtl (lastInstant now ttl : Nat) : Option Nat :=
  if now + ttl ≤ lastInstant then some (now + ttl) else none

/-- The lifetime starts when the clock is read first; the clock is read again for
the pruning. -/
def insert (lru : ExpiringLru Key Value) (lastInstant : Nat) (key : Key) (value : Value)
    (ttl now pruneNow : Nat) : Except CacheError Unit × ExpiringLru Key Value :=
  if ttl = 0 then (.error .ttlLimit, lru)
  else
    match addTtl lastInstant now ttl with
    | none => (.error .timeOverflow, lru)
    | some expiresAt =>
      let lru := (lru.pruneExpired pruneNow).promote key
      let lru := { lru with
        order := lru.order ++ [key]
        entries := lru.entries.insert key ⟨value, expiresAt⟩ }
      (.ok (), lru.evictOverLimit)

/-- Return a live entry and promote it to most recently used. -/
def get (lru : ExpiringLru Key Value) (key : Key) (now : Nat) :
    Option Value × ExpiringLru Key Value :=
  let lru := lru.pruneExpired now
  match lru.entries.lookup key with
  | none => (none, lru)
  | some entry =>
    let lru := lru.promote key
    (some entry.value, { lru with order := lru.order ++ [key] })

def len (lru : ExpiringLru Key Value) (now : Nat) : Nat × ExpiringLru Key Value :=
  let lru := lru.pruneExpired now
  (lru.entries.size, lru)

/-- One call, with the instants at which it reads the clock. -/
inductive Call (Key : Type u) (Value : Type v)
  | insert (key : Key) (value : Value) (ttl now pruneNow : Nat)
  | get (key : Key) (now : Nat)
  | len (now : Nat)
  | clear

variable (lastInstant : Nat)

/-- The store that a call leaves. -/
def apply (lru : ExpiringLru Key Value) : Call Key Value → ExpiringLru Key Value
  | .insert key value ttl now pruneNow => (lru.insert lastInstant key value ttl now pruneNow).2
  | .get key now => (lru.get key now).2
  | .len now => (lru.len now).2
  | .clear => lru.clear

/-- The key that a call inserts or reads. -/
def uses (lru : ExpiringLru Key Value) : Call Key Value → List Key
  | .insert key value ttl now pruneNow =>
    match (lru.insert lastInstant key value ttl now pruneNow).1 with
    | .ok () => [key]
    | .error _ => []
  | .get key now => if (lru.get key now).1.isSome then [key] else []
  | .len _ => []
  | .clear => []

section

variable {lastInstant} {lru : ExpiringLru Key Value} {log order : List Key} {key : Key}
  {entries : Store Key (TimedEntry Value)}

/-- The queue is the order of use of the resident keys, all of which were used. -/
structure Queued (log : List Key) (lru : ExpiringLru Key Value) : Prop where
  used : ∀ key, (lru.entries.lookup key).isSome → key ∈ log
  order_eq : lru.order = (Recency.order log).filter fun key => (lru.entries.lookup key).isSome

theorem Queued.nodup (queued : Queued log lru) : lru.order.Nodup := by
  rw [queued.order_eq]
  exact (Recency.nodup_order log).filter _

theorem Queued.mem_iff (queued : Queued log lru) :
    key ∈ lru.order ↔ (lru.entries.lookup key).isSome := by
  rw [queued.order_eq, List.mem_filter, Recency.mem_order]
  exact ⟨And.right, fun resident => ⟨queued.used key resident, resident⟩⟩

/-- A queue without duplicates of the resident keys is a permutation of the keys. -/
theorem perm_keys (nodup : order.Nodup)
    (mem_iff : ∀ key, key ∈ order ↔ (entries.lookup key).isSome) : order.Perm entries.keys := by
  rw [List.perm_ext_iff_of_nodup nodup entries.keys_nodup]
  intro key
  rw [mem_iff, AList.lookup_isSome, AList.mem_keys]

theorem length_eq_size (nodup : order.Nodup)
    (mem_iff : ∀ key, key ∈ order ↔ (entries.lookup key).isSome) :
    order.length = entries.size := by
  rw [(perm_keys nodup mem_iff).length_eq]
  exact List.length_map _

theorem lookup_retain_iff {chosen : TimedEntry Value → Bool} {entry : TimedEntry Value} :
    (entries.retain chosen).lookup key = some entry ↔
      entries.lookup key = some entry ∧ chosen entry := by
  constructor
  · exact Store.lookup_of_lookup_retain
  · rintro ⟨found, holds⟩
    exact AList.mem_lookup_iff.mpr (List.mem_filter.mpr ⟨AList.mem_lookup_iff.mp found, holds⟩)

/-- Pruning keeps exactly the live entries. -/
theorem lookup_pruneExpired {now : Nat} {entry : TimedEntry Value} :
    (lru.pruneExpired now).entries.lookup key = some entry ↔
      lru.entries.lookup key = some entry ∧ now < entry.expiresAt := by
  rw [pruneExpired, lookup_retain_iff, decide_eq_true_eq]

theorem Queued.pruneExpired (queued : Queued log lru) (now : Nat) :
    Queued log (lru.pruneExpired now) := by
  have kept (key : Key) (resident : ((lru.pruneExpired now).entries.lookup key).isSome) :
      (lru.entries.lookup key).isSome := by
    rcases Option.isSome_iff_exists.mp resident with ⟨entry, found⟩
    rw [(lookup_pruneExpired.mp found).1]
    rfl
  constructor
  · intro key resident
    exact queued.used key (kept key resident)
  · change lru.order.filter (fun key => ((lru.pruneExpired now).entries.lookup key).isSome) = _
    rw [queued.order_eq, List.filter_filter]
    apply List.filter_congr
    intro key _
    cases resident : ((lru.pruneExpired now).entries.lookup key).isSome with
    | false => rfl
    | true => rw [kept key resident]; rfl

/-- A use of a key that is then resident moves it to the end of the queue. -/
theorem Queued.use (queued : Queued log lru)
    (resident_iff : ∀ other, (entries.lookup other).isSome ↔
      (lru.entries.lookup other).isSome ∨ other = key) :
    Queued (log ++ [key]) { lru.promote key with
      entries, order := (lru.promote key).order ++ [key] } := by
  constructor
  · intro other resident
    rcases (resident_iff other).mp resident with before | rfl
    · exact List.mem_append_left _ (queued.used other before)
    · exact List.mem_append_right _ (List.mem_singleton_self other)
  · change lru.order.filter (· ≠ key) ++ [key] =
      (Recency.order (log ++ [key])).filter fun other => (entries.lookup other).isSome
    have resident : (entries.lookup key).isSome := (resident_iff key).mpr (.inr rfl)
    rw [Recency.order_concat, List.filter_append, queued.order_eq, List.filter_filter,
      List.filter_filter, List.filter_singleton, resident]
    congr 1
    apply List.filter_congr
    intro other _
    by_cases same : other = key
    · simp [same]
    · have others := resident_iff other
      simp only [same, or_false] at others
      simp [same, Bool.eq_iff_iff.mpr others]

/-- A front of the queue is evicted; if it is not empty, as many keys stay as the store
may hold. -/
theorem evict_spec (maxEntries : Nat) (nodup : order.Nodup)
    (mem_iff : ∀ key, key ∈ order ↔ (entries.lookup key).isSome) :
    ∃ front, order = front ++ (evict maxEntries order entries).1 ∧
      (∀ key, (evict maxEntries order entries).2.lookup key =
        if key ∈ front then none else entries.lookup key) ∧
      (evict maxEntries order entries).2.size ≤ maxEntries ∧
      (front ≠ [] → maxEntries ≤ (evict maxEntries order entries).1.length) := by
  induction order generalizing entries with
  | nil =>
    have size_eq := length_eq_size nodup mem_iff
    exact ⟨[], rfl, by simp [evict], by simp [evict, ← size_eq], by simp⟩
  | cons first order ih =>
    have size_eq := length_eq_size nodup mem_iff
    rw [List.length_cons] at size_eq
    rw [List.nodup_cons] at nodup
    rcases nodup with ⟨absent, nodup⟩
    rw [evict]
    by_cases exceeds : maxEntries < entries.size
    · have others (key : Key) : key ∈ order ↔ ((entries.erase first).lookup key).isSome := by
        by_cases same : key = first
        · subst same
          simp [absent]
        · rw [AList.lookup_erase_ne same, ← mem_iff]
          simp [same]
      rcases ih nodup others with ⟨front, order_eq, lookup_eq, bounded, full⟩
      rw [if_pos exceeds]
      refine ⟨first :: front, congrArg (first :: ·) order_eq, ?_, bounded, ?_⟩
      · intro key
        rw [lookup_eq]
        by_cases same : key = first
        · subst same
          simp
        · simp [AList.lookup_erase_ne same, same]
      · intro _
        cases front with
        | nil =>
          rw [← List.nil_append (evict maxEntries order (entries.erase first)).1, ← order_eq]
          omega
        | cons second front => exact full (List.cons_ne_nil second front)
    · rw [if_neg exceeds]
      exact ⟨[], rfl, by simp, Nat.not_lt.mp exceeds, by simp⟩

theorem Queued.evictOverLimit (queued : Queued log lru) :
    Queued log lru.evictOverLimit ∧ lru.evictOverLimit.entries.size ≤ lru.maxEntries ∧
      ∀ key, (lru.entries.lookup key).isSome → lru.evictOverLimit.entries.lookup key = none →
        ∃ earlier later, log = earlier ++ key :: later ∧ key ∉ later ∧
          lru.maxEntries ≤ (Recency.order later).length := by
  rcases evict_spec lru.maxEntries queued.nodup (fun _ => queued.mem_iff) with
    ⟨front, order_eq, lookup_eq, bounded, full⟩
  have nodup := queued.nodup
  have stays (key : Key) : (lru.evictOverLimit.entries.lookup key).isSome ↔
      key ∉ front ∧ (lru.entries.lookup key).isSome := by
    change ((evict lru.maxEntries lru.order lru.entries).2.lookup key).isSome ↔ _
    rw [lookup_eq]
    by_cases evicted : key ∈ front
    · simp [evicted]
    · simp [evicted]
  refine ⟨⟨?_, ?_⟩, bounded, ?_⟩
  · intro key resident
    exact queued.used key ((stays key).mp resident).2
  · change (evict lru.maxEntries lru.order lru.entries).1 = _
    generalize (evict lru.maxEntries lru.order lru.entries).1 = rest at order_eq full
    rw [order_eq, List.nodup_append] at nodup
    have rest_eq : rest = lru.order.filter (· ∉ front) := by
      rw [order_eq, List.filter_append, List.filter_eq_nil_iff.mpr (by simp), List.nil_append,
        List.filter_eq_self.mpr]
      intro key inRest
      rw [decide_eq_true_eq]
      intro inFront
      exact nodup.2.2 key inFront key inRest rfl
    rw [rest_eq, queued.order_eq, List.filter_filter]
    apply List.filter_congr
    intro key _
    rw [Bool.eq_iff_iff, stays]
    simp
  · intro key resident gone
    have evicted : key ∈ front := by
      by_contra kept
      have still := (stays key).mpr ⟨kept, resident⟩
      rw [gone] at still
      cases still
    generalize (evict lru.maxEntries lru.order lru.entries).1 = rest at order_eq full
    have sublist : List.Sublist (key :: rest) (Recency.order log) := by
      have inOrder : List.Sublist (key :: rest) lru.order := by
        rw [order_eq]
        exact (List.singleton_sublist.mpr evicted).append (List.Sublist.refl rest)
      rw [queued.order_eq] at inOrder
      exact inOrder.trans List.filter_sublist
    rcases Recency.used_later sublist with ⟨earlier, later, log_eq, last, rest_le⟩
    exact ⟨earlier, later, log_eq, last,
      (full (List.ne_nil_of_mem evicted)).trans rest_le.length_le⟩

end

section

variable {lastInstant} {lru : ExpiringLru Key Value} {log : List Key} {key : Key} {value : Value}
  {now : Nat}

/-- The store just after an entry is put in, before the eviction. -/
def placed (lru : ExpiringLru Key Value) (key : Key) (value : Value) (expiresAt pruneNow : Nat) :
    ExpiringLru Key Value :=
  { (lru.pruneExpired pruneNow).promote key with
    order := ((lru.pruneExpired pruneNow).promote key).order ++ [key]
    entries := (lru.pruneExpired pruneNow).entries.insert key ⟨value, expiresAt⟩ }

/-- An insertion fails and changes nothing, or it puts its entry in and evicts. -/
theorem insert_cases (lru : ExpiringLru Key Value) (key : Key) (value : Value)
    (ttl now pruneNow : Nat) :
    (∃ error, lru.insert lastInstant key value ttl now pruneNow = (.error error, lru)) ∨
      lru.insert lastInstant key value ttl now pruneNow =
        (.ok (), (lru.placed key value (now + ttl) pruneNow).evictOverLimit) := by
  rw [insert]
  by_cases zero : ttl = 0
  · left
    exact ⟨.ttlLimit, if_pos zero⟩
  rw [if_neg zero, addTtl]
  by_cases late : now + ttl ≤ lastInstant
  · right
    rw [if_pos late]
    rfl
  · left
    rw [if_neg late]
    exact ⟨.timeOverflow, rfl⟩

theorem Queued.placed (queued : Queued log lru) (key : Key) (value : Value)
    (expiresAt pruneNow : Nat) :
    Queued (log ++ [key]) (lru.placed key value expiresAt pruneNow) := by
  apply (queued.pruneExpired pruneNow).use
  intro other
  by_cases same : other = key
  · subst same
    simp
  · rw [AList.lookup_insert_ne same]
    simp [same]

/-- A read prunes, and a hit is a use of its key. -/
theorem get_cases (lru : ExpiringLru Key Value) (key : Key) (now : Nat) :
    lru.get key now = (none, lru.pruneExpired now) ∨
      ∃ entry, lru.entries.lookup key = some entry ∧ now < entry.expiresAt ∧
        lru.get key now = (some entry.value, { (lru.pruneExpired now).promote key with
          order := ((lru.pruneExpired now).promote key).order ++ [key] }) := by
  rw [get]
  dsimp only
  cases found : (lru.pruneExpired now).entries.lookup key with
  | none => exact .inl rfl
  | some entry =>
    rcases lookup_pruneExpired.mp found with ⟨resident, live⟩
    exact .inr ⟨entry, resident, live, rfl⟩

theorem Queued.get (queued : Queued log lru) {entry : TimedEntry Value}
    (found : lru.entries.lookup key = some entry) (live : now < entry.expiresAt) :
    Queued (log ++ [key]) { (lru.pruneExpired now).promote key with
      order := ((lru.pruneExpired now).promote key).order ++ [key] } := by
  apply (queued.pruneExpired now).use
  intro other
  have resident : ((lru.pruneExpired now).entries.lookup key).isSome := by
    rw [lookup_pruneExpired.mpr ⟨found, live⟩]
    rfl
  constructor
  · exact .inl
  · rintro (there | rfl)
    · exact there
    · exact resident

/-- Every call keeps the queue in step with the map, and its bound. -/
theorem Queued.apply (queued : Queued log lru) (bounded : lru.entries.size ≤ lru.maxEntries)
    (call : Call Key Value) :
    Queued (log ++ uses lastInstant lru call) (apply lastInstant lru call) ∧
      (apply lastInstant lru call).entries.size ≤ lru.maxEntries ∧
      (apply lastInstant lru call).maxEntries = lru.maxEntries := by
  have pruned (now : Nat) : (lru.pruneExpired now).entries.size ≤ lru.maxEntries :=
    (Store.size_retain_le _ _).trans bounded
  cases call with
  | insert key value ttl now pruneNow =>
    rw [uses, ExpiringLru.apply]
    rcases insert_cases lru key value ttl now pruneNow with ⟨error, failed⟩ | done
    · rw [failed, List.append_nil]
      exact ⟨queued, bounded, rfl⟩
    · rw [done]
      have evicted := (queued.placed key value (now + ttl) pruneNow).evictOverLimit
      exact ⟨evicted.1, evicted.2.1, rfl⟩
  | get key now =>
    rw [uses, ExpiringLru.apply]
    rcases get_cases lru key now with missed | ⟨entry, found, live, hit⟩
    · rw [missed]
      simp only [Option.isSome_none, Bool.false_eq_true, if_false, List.append_nil]
      exact ⟨queued.pruneExpired now, pruned now, rfl⟩
    · rw [hit]
      exact ⟨queued.get found live, pruned now, rfl⟩
  | len now =>
    rw [uses, List.append_nil]
    exact ⟨queued.pruneExpired now, pruned now, rfl⟩
  | clear =>
    rw [uses, List.append_nil]
    refine ⟨⟨?_, ?_⟩, Nat.zero_le _, rfl⟩
    · intro key resident
      cases resident
    · exact (List.filter_eq_nil_iff.mpr (by simp [ExpiringLru.apply, clear])).symm

/-- The instant at which a call prunes. -/
def Call.instant : Call Key Value → Nat
  | .insert _ _ _ _ pruneNow => pruneNow
  | .get _ now => now
  | .len now => now
  | .clear => 0

/-- A live entry leaves by a call that clears, or by an eviction after as many uses of
other keys as the store may hold. -/
theorem Queued.evicted (queued : Queued log lru) {call : Call Key Value}
    {entry : TimedEntry Value} (found : lru.entries.lookup key = some entry)
    (live : call.instant < entry.expiresAt)
    (gone : (ExpiringLru.apply lastInstant lru call).entries.lookup key = none)
    (notCleared : call ≠ .clear) :
    ∃ earlier later, log ++ uses lastInstant lru call = earlier ++ key :: later ∧
      key ∉ later ∧ lru.maxEntries ≤ (Recency.order later).length := by
  have kept : (lru.pruneExpired call.instant).entries.lookup key = some entry :=
    lookup_pruneExpired.mpr ⟨found, live⟩
  cases call with
  | insert other value ttl now pruneNow =>
    rw [uses]
    rw [ExpiringLru.apply] at gone
    rcases insert_cases lru other value ttl now pruneNow with ⟨error, failed⟩ | done
    · rw [failed] at gone
      rw [found] at gone
      cases gone
    rw [done] at gone ⊢
    have evicted := (queued.placed other value (now + ttl) pruneNow).evictOverLimit
    apply evicted.2.2 key _ gone
    change (((lru.pruneExpired pruneNow).entries.insert other _).lookup key).isSome
    by_cases same : key = other
    · subst same
      simp
    · rw [AList.lookup_insert_ne same]
      exact Option.isSome_of_eq_some kept
  | get other now =>
    rw [ExpiringLru.apply] at gone
    have unchanged : (lru.get other now).2.entries = (lru.pruneExpired now).entries := by
      rcases get_cases lru other now with missed | ⟨_, -, -, hit⟩
      · rw [missed]
      · rw [hit]
        rfl
    rw [unchanged] at gone
    exact absurd (kept.symm.trans gone) (Option.some_ne_none entry)
  | len now => exact absurd (kept.symm.trans gone) (Option.some_ne_none entry)
  | clear => exact absurd rfl notCleared

end

section

/-- The entry that a call inserts, with its key. -/
def insertions (lru : ExpiringLru Key Value) :
    Call Key Value → List (Key × TimedEntry Value)
  | .insert key value ttl now pruneNow =>
    match (lru.insert lastInstant key value ttl now pruneNow).1 with
    | .ok () => [(key, ⟨value, now + ttl⟩)]
    | .error _ => []
  | _ => []

/-- The entry inserted last for a key. -/
def latest (key : Key) (inserted : List (Key × TimedEntry Value)) : Option (TimedEntry Value) :=
  ((inserted.filter (·.1 = key)).getLast?).map Prod.snd

variable {lastInstant} {lru : ExpiringLru Key Value} {key : Key}

variable {entry : TimedEntry Value}

theorem lookup_of_lookup_evict {maxEntries : Nat} {order : List Key}
    {entries : Store Key (TimedEntry Value)}
    (found : (evict maxEntries order entries).2.lookup key = some entry) :
    entries.lookup key = some entry := by
  induction order generalizing entries with
  | nil => exact found
  | cons first order ih =>
    rw [evict] at found
    by_cases exceeds : maxEntries < entries.size
    · rw [if_pos exceeds] at found
      exact (Store.lookup_of_lookup_erase (ih found)).1
    · rw [if_neg exceeds] at found
      exact found

/-- What is resident after a call was resident before, or the call inserted it. -/
theorem lookup_apply {call : Call Key Value}
    (found : (apply lastInstant lru call).entries.lookup key = some entry) :
    (lru.entries.lookup key = some entry ∧
        ∀ inserted ∈ insertions lastInstant lru call, inserted.1 ≠ key) ∨
      insertions lastInstant lru call = [(key, entry)] := by
  cases call with
  | insert other value ttl now pruneNow =>
    rw [apply] at found
    rw [insertions]
    rcases insert_cases lru other value ttl now pruneNow with ⟨error, failed⟩ | done
    · rw [failed] at found ⊢
      exact .inl ⟨found, by simp⟩
    rw [done] at found ⊢
    have before := lookup_of_lookup_evict found
    change ((lru.pruneExpired pruneNow).entries.insert other _).lookup key = _ at before
    by_cases same : key = other
    · subst same
      rw [AList.lookup_insert] at before
      right
      rw [← Option.some.inj before]
    rw [AList.lookup_insert_ne same] at before
    left
    refine ⟨(lookup_pruneExpired.mp before).1, ?_⟩
    intro inserted insertedMem
    rw [List.mem_singleton.mp insertedMem]
    exact Ne.symm same
  | get other now =>
    left
    rw [apply] at found
    refine ⟨?_, by simp [insertions]⟩
    rcases get_cases lru other now with missed | ⟨_, -, -, hit⟩
    · rw [missed] at found
      exact (lookup_pruneExpired.mp found).1
    · rw [hit] at found
      exact (lookup_pruneExpired.mp found).1
  | len now =>
    left
    exact ⟨(lookup_pruneExpired.mp found).1, by simp [insertions]⟩
  | clear => cases found

theorem latest_append (earlier later : List (Key × TimedEntry Value)) :
    latest key (earlier ++ later) = (latest key later).or (latest key earlier) := by
  rw [latest, latest, latest, List.filter_append, List.getLast?_append]
  cases (later.filter (·.1 = key)).getLast? <;> simp

/-- The store after some calls on an empty one. -/
def after (lastInstant maxEntries : Nat) (calls : List (Call Key Value)) : ExpiringLru Key Value :=
  runFrom (apply lastInstant) (new maxEntries) calls

/-- The keys that the calls inserted or read. -/
def used (lastInstant maxEntries : Nat) (calls : List (Call Key Value)) : List Key :=
  logFrom (apply lastInstant) (uses lastInstant) (new maxEntries) calls

/-- The entries that the calls inserted. -/
def inserted (lastInstant maxEntries : Nat) (calls : List (Call Key Value)) :
    List (Key × TimedEntry Value) :=
  logFrom (apply lastInstant) (insertions lastInstant) (new maxEntries) calls

theorem queued_after (lastInstant maxEntries : Nat) (calls : List (Call Key Value)) :
    Queued (used lastInstant maxEntries calls) (after lastInstant maxEntries calls) ∧
      (after lastInstant maxEntries calls).entries.size ≤ maxEntries ∧
      (after lastInstant maxEntries calls).maxEntries = maxEntries := by
  have start : Queued [] (new maxEntries : ExpiringLru Key Value) := by
    constructor
    · intro key resident
      cases resident
    · rfl
  apply @logFrom_invariant _ _ (apply lastInstant) _ (uses lastInstant)
    fun log lru => Queued log lru ∧ lru.entries.size ≤ maxEntries ∧ lru.maxEntries = maxEntries
  · exact ⟨start, Nat.zero_le _, rfl⟩
  · rintro log lru call ⟨queued, bounded, rfl⟩
    exact queued.apply bounded call

/-- A resident entry is the one inserted last for its key. -/
theorem latest_of_lookup (lastInstant maxEntries : Nat) (calls : List (Call Key Value))
    (found : (after lastInstant maxEntries calls).entries.lookup key = some entry) :
    latest key (inserted lastInstant maxEntries calls) = some entry := by
  have preserved (log : List (Key × TimedEntry Value)) (lru : ExpiringLru Key Value)
      (call : Call Key Value)
      (ih : ∀ key entry, lru.entries.lookup key = some entry → latest key log = some entry) :
      ∀ key entry, (apply lastInstant lru call).entries.lookup key = some entry →
        latest key (log ++ insertions lastInstant lru call) = some entry := by
    intro key entry found
    rw [latest_append]
    rcases lookup_apply found with ⟨before, others⟩ | inserted_eq
    · have none_eq : latest key (insertions lastInstant lru call) = none := by
        rw [latest, List.filter_eq_nil_iff.mpr (by simpa using others)]
        rfl
      rw [none_eq, ih key entry before]
      rfl
    · rw [inserted_eq]
      simp [latest]
  have sourced := @logFrom_invariant _ _ (apply lastInstant) _ (insertions lastInstant)
    (fun log lru => ∀ key entry, lru.entries.lookup key = some entry →
      latest key log = some entry) (new maxEntries) (fun key entry absent => by cases absent)
    preserved calls
  exact sourced key entry found

/-- After every run of calls the queue is the order of last use of the resident keys,
each once, and the bound holds; a read returns only the entry inserted last for its
key, before that entry expires; and a live entry leaves a store, other than by a call
that clears, only when as many other keys as the store may hold were used since its
last use. -/
theorem after_spec (lastInstant maxEntries : Nat) (calls : List (Call Key Value)) :
    let lru := after lastInstant maxEntries calls
    let log := used lastInstant maxEntries calls
    lru.order = (Recency.order log).filter (fun key => (lru.entries.lookup key).isSome) ∧
      lru.order.Nodup ∧ lru.order.Perm lru.entries.keys ∧ lru.entries.size ≤ maxEntries ∧
      (∀ key now value, (lru.get key now).1 = some value →
        ∃ entry, latest key (inserted lastInstant maxEntries calls) = some entry ∧
          entry.value = value ∧ now < entry.expiresAt) ∧
      ∀ (call : Call Key Value) key entry, lru.entries.lookup key = some entry →
        call.instant < entry.expiresAt →
        (apply lastInstant lru call).entries.lookup key = none → call ≠ .clear →
        ∃ earlier later, log ++ uses lastInstant lru call = earlier ++ key :: later ∧
          key ∉ later ∧ maxEntries ≤ (Recency.order later).length := by
  intro lru log
  rcases queued_after lastInstant maxEntries calls with ⟨queued, bounded, maxEntries_eq⟩
  refine ⟨queued.order_eq, queued.nodup, perm_keys queued.nodup (fun _ => queued.mem_iff), bounded,
    ?_, ?_⟩
  · intro key now value returned
    rcases get_cases lru key now with missed | ⟨entry, found, live, hit⟩
    · rw [missed] at returned
      cases returned
    · rw [hit] at returned
      exact ⟨entry, latest_of_lookup lastInstant maxEntries calls found,
        Option.some.inj returned, live⟩
  · intro call key entry found live gone notCleared
    rcases queued.evicted found live gone notCleared with ⟨earlier, later, log_eq, last, many⟩
    rw [maxEntries_eq] at many
    exact ⟨earlier, later, log_eq, last, many⟩

/-- A call that clears removes a live entry at once, without a use of another key. -/
theorem clear_removes_live :
    ¬ ∀ (calls : List (Call Nat Nat)) (call : Call Nat Nat) (key : Nat) (entry : TimedEntry Nat),
      (after 100 1 calls).entries.lookup key = some entry → call.instant < entry.expiresAt →
      (apply 100 (after 100 1 calls) call).entries.lookup key = none →
      ∃ earlier later,
        used 100 1 calls ++ uses 100 (after 100 1 calls) call = earlier ++ key :: later ∧
          key ∉ later ∧ 1 ≤ (Recency.order later).length := by
  intro always
  rcases always [.insert 5 7 60 10 10] .clear 5 ⟨7, 70⟩ rfl (by decide) rfl with
    ⟨earlier, later, log_eq, -, many⟩
  have log_singleton : [5] = earlier ++ 5 :: later := log_eq
  have lengths := congrArg List.length log_singleton
  rw [List.length_singleton, List.length_append, List.length_cons] at lengths
  obtain rfl := List.eq_nil_of_length_eq_zero (show later.length = 0 by omega)
  cases many

end

end ExpiringLru

end HnsDaneEngine.Cache
