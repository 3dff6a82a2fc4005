import HnsDaneEngine.LoopbackProxy.Window

/-!
# The reported time of a retry

A request that was turned away is told when to come back.  For the total and the window of
one host that is when their first request expires, and then the limit has room again.  A host
stops being tracked only when its last request expires, so the time reported when too many
hosts are tracked, which looks at first requests, can be too early.
-/

namespace HnsDaneEngine.LoopbackProxy.RequestRateLimiter

open Data (Store)
open Data.SlidingWindow

variable {limiter : RequestRateLimiter} {now later : Nat} {state swept next : RateLimitState}
  {host : Octets} {log : List (UInt64 × Nat)}

/-! ## Promises of an answer -/

/-- The answer to the same request made again, when nothing was admitted in between:
before the reported time it is turned away, and exactly then this limit lets it through. -/
def RetryLaw (limiter : RequestRateLimiter) (host : Octets) (now : Nat)
    (next : RateLimitState) (scope : RateLimitScope) (after : Nat) : Prop :=
  ∀ quiet later, limiter.Chronological ((host, now) :: quiet ++ [(host, later)]) →
    limiter.admitted next quiet = [] →
    (later < now + after →
        (limiter.check host later (limiter.after next quiet)).1.isAllowed = false) ∧
      (later = now + after → ∀ other wait, (limiter.check host later (limiter.after next quiet)).1 =
          .limited other wait → other ≠ scope)

/-- A request of a host that the window still covers. -/
def Retains (limiter : RequestRateLimiter) (state : RateLimitState) (now : Nat) (key : UInt64)
    (request : Nat) : Prop :=
  request ∈ state.requestsOf key ∧ limiter.expired now request = false

/-- The request is turned away because too many other hosts are tracked. -/
structure HostCapReached (limiter : RequestRateLimiter) (host : Octets) (now : Nat)
    (state : RateLimitState) : Prop where
  global_lt : (state.global.filter fun request => !limiter.expired now request).length <
    limiter.config.globalRequests
  untracked : ∀ request, ¬ limiter.Retains state now (limiter.hostKey host) request
  tracked_le : limiter.config.maxTrackedHosts ≤ (state.hosts.entries.filter fun entry =>
    entry.2.any fun request => !limiter.expired now request).length

/-- Some host has no covered request later than any covered request. -/
def FirstHostLeaves (limiter : RequestRateLimiter) (now : Nat) (state : RateLimitState) : Prop :=
  ∃ key first, limiter.Retains state now key first ∧
    ∀ request, limiter.Retains state now key request →
      ∀ other second, limiter.Retains state now other second → request ≤ second

/-- No covered request expires before the end of the clock. -/
def BeyondClock (limiter : RequestRateLimiter) (now : Nat) (state : RateLimitState) : Prop :=
  ∀ key request, limiter.Retains state now key request → limiter.expiry request = none

/-! ## First requests -/

/-- The first of some requests expires at the reported time. -/
theorem expired_iff_retryAfter_le {first : Nat} (rest : List Nat) (first_le : first ≤ now)
    (covered : now < first + limiter.config.window) (later_le : later ≤ limiter.instantMax) :
    limiter.expired later first = true ↔ now + limiter.retryAfter now (first :: rest) ≤ later := by
  rw [expired, retryAfter, List.head?_cons, Option.bind_some, expiry]
  by_cases fits : first + limiter.config.window ≤ limiter.instantMax
  · rw [if_pos fits, Option.any_some, Option.map_some, Option.getD_some,
      Nat.add_sub_cancel' covered.le, decide_eq_true_eq]
  · have beyond : ¬ now + limiter.config.window ≤ later := by omega
    rw [if_neg fits, Option.any_none, Option.map_none, Option.getD_none]
    simp [beyond]

/-- A full queue has room from the reported time on. -/
theorem le_length_expire_iff {requests : List Nat} {limit : Nat} (limit_pos : 0 < limit)
    (full : limit ≤ requests.length) (length_le : requests.length ≤ limit)
    (covers : ∀ request ∈ requests, request ≤ now ∧ now < request + limiter.config.window)
    (later_le : later ≤ limiter.instantMax) :
    limit ≤ (limiter.expire later requests).length ↔
      later < now + limiter.retryAfter now requests := by
  cases requests with
  | nil => exact absurd (limit_pos.trans_le full) (Nat.lt_irrefl 0)
  | cons first rest =>
    rcases covers first List.mem_cons_self with ⟨first_le, covered⟩
    have head_iff := expired_iff_retryAfter_le rest first_le covered later_le
    rw [← Nat.not_le, ← head_iff, expire]
    cases gone : limiter.expired later first with
    | true =>
      have shorter : (rest.dropWhile (limiter.expired later)).length ≤ rest.length :=
        (List.dropWhile_sublist _).length_le
      have room : (rest.dropWhile (limiter.expired later)).length < limit :=
        (Nat.lt_succ_of_le shorter).trans_le length_le
      rw [List.dropWhile_cons_of_pos gone]
      simp [Nat.not_le.mpr room]
    | false =>
      rw [List.dropWhile_cons_of_neg (by simp [gone])]
      simpa using full

/-! ## Covered requests -/

namespace Follows

section

variable (follows : Follows limiter log now swept)

include follows

theorem covers_global :
    ∀ request ∈ swept.global, request ≤ now ∧ now < request + limiter.config.window := by
  intro request mem
  rw [follows.global_eq, List.mem_filter] at mem
  exact ⟨follows.past request mem.1, of_decide_eq_true mem.2⟩

theorem covers_host {key : UInt64} :
    ∀ request ∈ swept.requestsOf key, request ≤ now ∧ now < request + limiter.config.window := by
  intro request mem
  rw [follows.hosts_eq, List.mem_filter] at mem
  exact ⟨follows.past request ((instantsOf_sublist key log).subset mem.1), of_decide_eq_true mem.2⟩

theorem queue_sorted (key : UInt64) : (swept.requestsOf key).Pairwise (· ≤ ·) := by
  rw [follows.hosts_eq]
  exact (follows.sorted_of key).filter _

theorem untracked_iff (key : UInt64) :
    swept.hosts.lookup key = none ↔ swept.requestsOf key = [] := by
  rw [RateLimitState.requestsOf]
  cases found : swept.hosts.lookup key with
  | none => simp
  | some requests => simpa using follows.nonempty key requests found

/-- The kept requests are the covered ones. -/
theorem mem_requestsOf_expireAll (later_le : later ≤ limiter.instantMax) (key : UInt64)
    (request : Nat) :
    request ∈ (limiter.expireAll later swept).requestsOf key ↔
      limiter.Retains swept later key request := by
  rw [requestsOf_expireAll, expire_of_sorted later_le (follows.queue_sorted key),
    List.mem_filter, Retains, expired_eq later_le, Bool.not_eq_false']

end

end Follows

/-- Hosts are lost when every request of theirs expires. -/
theorem size_expireAll_lt_iff :
    (limiter.expireAll later swept).hosts.size < swept.hosts.size ↔
      ∃ key requests, swept.hosts.lookup key = some requests ∧
        ∀ request ∈ requests, limiter.expired later request = true := by
  have size_le := List.length_filter_le
    (fun entry : Sigma fun _ : UInt64 => List Nat => !(limiter.expire later entry.2).isEmpty)
    swept.hosts.entries
  rw [expireAll, Store.size_retain_mapValues, Store.size, Nat.lt_iff_le_and_ne]
  rw [and_iff_right size_le, Ne, List.length_filter_eq_length_iff]
  constructor
  · intro lost
    by_contra none
    refine lost fun entry mem => ?_
    rw [Bool.not_eq_true', List.isEmpty_eq_false_iff, expire, Ne, List.dropWhile_eq_nil_iff]
    intro allExpired
    exact none ⟨entry.1, entry.2, Store.lookup_eq_some_iff.mpr mem, allExpired⟩
  · rintro ⟨key, requests, found, allExpired⟩ kept
    have stays := kept ⟨key, requests⟩ (Store.lookup_eq_some_iff.mp found)
    rw [Bool.not_eq_true', List.isEmpty_eq_false_iff, expire, Ne,
      List.dropWhile_eq_nil_iff] at stays
    exact stays allExpired

/-! ## The time reported for too many hosts -/

variable {request : Nat} {scope : RateLimitScope} {answered : RateLimitState}

theorem expiry_eq_some_iff {expires : Nat} :
    limiter.expiry request = some expires ↔
      expires ≤ limiter.instantMax ∧ request + limiter.config.window = expires := by
  rw [expiry]
  by_cases fits : request + limiter.config.window ≤ limiter.instantMax
  · rw [if_pos fits, Option.some.injEq]
    constructor
    · rintro rfl
      exact ⟨fits, rfl⟩
    · rintro ⟨-, same⟩
      exact same
  · rw [if_neg fits]
    constructor
    · rintro ⟨⟩
    · rintro ⟨expires_le, rfl⟩
      exact absurd expires_le fits

theorem expiry_eq_none_iff :
    limiter.expiry request = none ↔ limiter.instantMax < request + limiter.config.window := by
  rw [expiry]
  by_cases fits : request + limiter.config.window ≤ limiter.instantMax
  · simp [if_pos fits, Nat.not_lt.mpr fits]
  · simp [if_neg fits, Nat.lt_of_not_le fits]

/-- The time until a first request of some host expires. -/
theorem mem_waits_iff {wait : Nat} {hosts : Store UInt64 (List Nat)} :
    wait ∈ (((hosts.entries.filterMap fun entry => entry.2.head?).filterMap limiter.expiry).map
        fun expires => expires - now) ↔
      ∃ key first rest expires, hosts.lookup key = some (first :: rest) ∧
        limiter.expiry first = some expires ∧ expires - now = wait := by
  simp only [List.mem_map, List.mem_filterMap]
  constructor
  · rintro ⟨expires, ⟨first, ⟨⟨key, requests⟩, mem, head_eq⟩, expiry_eq⟩, same⟩
    cases requests with
    | nil => cases head_eq
    | cons head rest =>
      cases head_eq
      exact ⟨key, first, rest, expires, Store.lookup_eq_some_iff.mpr mem, expiry_eq, same⟩
  · rintro ⟨key, first, rest, expires, found, expiry_eq, same⟩
    exact ⟨expires, ⟨first, ⟨⟨key, first :: rest⟩, Store.lookup_eq_some_iff.mp found, rfl⟩,
      expiry_eq⟩, same⟩

/-- The first request of a queue is the earliest. -/
theorem Follows.first_of_mem (follows : Follows limiter log now swept) {key : UInt64}
    (mem : request ∈ swept.requestsOf key) :
    ∃ first rest, swept.hosts.lookup key = some (first :: rest) ∧
      first ∈ swept.requestsOf key ∧ first ≤ request := by
  have sorted := follows.queue_sorted key
  have queue_eq : ∀ requests, swept.hosts.lookup key = some requests →
      swept.requestsOf key = requests := by
    intro requests found
    rw [RateLimitState.requestsOf, found, Option.getD_some]
  cases found : swept.hosts.lookup key with
  | none =>
    rw [(follows.untracked_iff key).mp found] at mem
    cases mem
  | some requests =>
    rw [queue_eq requests found] at mem sorted ⊢
    cases requests with
    | nil => cases mem
    | cons first rest =>
      refine ⟨first, rest, rfl, List.mem_cons_self, ?_⟩
      rcases List.mem_cons.mp mem with rfl | later
      · exact Nat.le_refl _
      · exact (List.pairwise_cons.mp sorted).1 request later

/-- The reported time is when the earliest of all kept requests expires; it is past the
end of the clock when none does. -/
theorem hostRetryAfter_cases (follows : Follows limiter log now swept)
    (tracked : 0 < swept.hosts.size) :
    (∃ key first, first ∈ swept.requestsOf key ∧
        limiter.expiry first = some (now + limiter.hostRetryAfter now swept.hosts) ∧
        ∀ other request, request ∈ swept.requestsOf other → first ≤ request) ∨
      (limiter.instantMax < now + limiter.hostRetryAfter now swept.hosts ∧
        ∀ key request, request ∈ swept.requestsOf key → limiter.expiry request = none) := by
  have mem_of_lookup : ∀ {key first rest}, swept.hosts.lookup key = some (first :: rest) →
      first ∈ swept.requestsOf key := by
    intro key first rest found
    rw [RateLimitState.requestsOf, found, Option.getD_some]
    exact List.mem_cons_self
  rw [hostRetryAfter]
  cases minimum : (((swept.hosts.entries.filterMap fun entry => entry.2.head?).filterMap
      limiter.expiry).map fun expires => expires - now).min? with
  | none =>
    rw [List.min?_eq_none_iff] at minimum
    have never : ∀ key request, request ∈ swept.requestsOf key → limiter.expiry request = none := by
      intro key request mem
      rcases follows.first_of_mem mem with ⟨first, rest, found, -, first_le⟩
      have first_never : limiter.expiry first = none := by
        rw [Option.eq_none_iff_forall_ne_some]
        intro expires expiry_eq
        have listed := (@mem_waits_iff limiter now _ _).mpr
          ⟨key, first, rest, expires, found, expiry_eq, rfl⟩
        rw [minimum] at listed
        cases listed
      rw [expiry_eq_none_iff] at first_never ⊢
      exact first_never.trans_le (Nat.add_le_add_right first_le _)
    rcases List.exists_mem_of_length_pos tracked with ⟨⟨key, requests⟩, mem⟩
    have found : swept.hosts.lookup key = some requests := Store.lookup_eq_some_iff.mpr mem
    refine .inr ⟨?_, never⟩
    rcases List.exists_mem_of_ne_nil _ (follows.nonempty key requests found) with
      ⟨request, requestMem⟩
    have kept : request ∈ swept.requestsOf key := by
      rw [RateLimitState.requestsOf, found, Option.getD_some]
      exact requestMem
    have past := (follows.covers_host request kept).1
    exact (expiry_eq_none_iff.mp (never key request kept)).trans_le (Nat.add_le_add_right past _)
  | some wait =>
    rw [List.min?_eq_some_iff] at minimum
    rcases mem_waits_iff.mp minimum.1 with ⟨key, first, rest, expires, found, expiry_eq, rfl⟩
    have kept := mem_of_lookup found
    have covered := (follows.covers_host first kept).2
    rw [(expiry_eq_some_iff.mp expiry_eq).2] at covered
    refine .inl ⟨key, first, kept, ?_, ?_⟩
    · rw [Option.getD_some, Nat.add_sub_cancel' covered.le]
      exact expiry_eq
    intro other request mem
    rcases follows.first_of_mem mem with ⟨front, others, otherFound, frontMem, front_le⟩
    refine Nat.le_trans ?_ front_le
    cases frontExpiry : limiter.expiry front with
    | none =>
      have beyond := expiry_eq_none_iff.mp frontExpiry
      have fits := expiry_eq_some_iff.mp expiry_eq
      omega
    | some second =>
      have wait_le := minimum.2 _ (mem_waits_iff.mpr
        ⟨other, front, others, second, otherFound, frontExpiry, rfl⟩)
      have fits := expiry_eq_some_iff.mp expiry_eq
      have frontFits := expiry_eq_some_iff.mp frontExpiry
      omega

/-! ## The law of retries -/

/-- Nothing happens to the queues between an answer and the retry, and the retry is
answered from them. -/
theorem retryLaw_iff {after : Nat} :
    limiter.RetryLaw host now swept scope after ↔
      ∀ later, now ≤ later → later ≤ limiter.instantMax →
        (later < now + after → (limiter.check host later swept).1.isAllowed = false) ∧
          (later = now + after →
            ∀ other wait, (limiter.check host later swept).1 = .limited other wait →
              other ≠ scope) := by
  constructor
  · intro law later now_le later_le
    refine law [] later ⟨?_, ?_⟩ rfl
    · simpa using now_le
    intro request mem
    simp only [List.cons_append, List.nil_append, List.mem_cons, List.not_mem_nil, or_false]
      at mem
    rcases mem with rfl | rfl
    · exact now_le.trans later_le
    · exact later_le
  · intro answers quiet later chronological nothing
    have ordered := chronological.ordered
    rw [List.map_append, List.pairwise_append] at ordered
    have instants_le : ∀ instant ∈ ((host, now) :: quiet).map Prod.snd, instant ≤ later :=
      fun instant mem => ordered.2.2 instant mem later List.mem_cons_self
    have quiet_le : ∀ instant ∈ quiet.map Prod.snd, instant ≤ later :=
      fun instant mem => instants_le instant (List.mem_cons_of_mem _ mem)
    rw [check_congr (expireAll_after_of_admitted_nil nothing quiet_le)]
    exact answers later (instants_le now List.mem_cons_self)
      (chronological.instants_le (host, later) (by simp))

theorem isAllowed_eq_false_of
    (refuses : ¬ ∃ next, Admits limiter host later (limiter.expireAll later answered) next) :
    (limiter.check host later answered).1.isAllowed = false := by
  rcases check_cases limiter host later answered with ⟨next, -, admits⟩ | ⟨_, _, answer, -⟩
  · exact absurd ⟨next, admits⟩ refuses
  · rw [answer]
    rfl

theorem limits_of_decision {wait : Nat}
    (decision : (limiter.check host later answered).1 = .limited scope wait) :
    Limits limiter host later (limiter.expireAll later answered) scope wait :=
  (limits_of_check (Prod.ext decision rfl)).2

/-- The time reported for the total is exact. -/
theorem retryLaw_global (follows : Follows limiter log now swept)
    (full : limiter.config.globalRequests ≤ swept.global.length) :
    limiter.RetryLaw host now swept .global (limiter.retryAfter now swept.global) := by
  have limit_pos := (RateLimitConfig.pos_of_validate limiter.validated).1
  rw [retryLaw_iff]
  intro later now_le later_le
  have full_iff : limiter.config.globalRequests ≤ (limiter.expireAll later swept).global.length ↔
      later < now + limiter.retryAfter now swept.global :=
    le_length_expire_iff limit_pos full follows.global_le follows.covers_global later_le
  constructor
  · intro early
    refine isAllowed_eq_false_of ?_
    rintro ⟨next, admits⟩
    exact absurd (full_iff.mpr early) (Nat.not_le.mpr admits.global_lt)
  · intro exactly other wait decision
    cases limits_of_decision decision with
    | global stillFull => exact absurd (full_iff.mp stillFull) (Nat.not_lt.mpr exactly.ge)
    | host => exact RateLimitScope.noConfusion
    | tracked => exact RateLimitScope.noConfusion

/-- So is the time reported for a tracked host. -/
theorem retryLaw_host (follows : Follows limiter log now swept) {requests : List Nat}
    (found : swept.hosts.lookup (limiter.hostKey host) = some requests)
    (full : limiter.config.perHostRequests ≤ requests.length) :
    limiter.RetryLaw host now swept .host (limiter.retryAfter now requests) := by
  have limit_pos := (RateLimitConfig.pos_of_validate limiter.validated).2.1
  have queue_eq : swept.requestsOf (limiter.hostKey host) = requests := by
    rw [RateLimitState.requestsOf, found, Option.getD_some]
  rw [retryLaw_iff]
  intro later now_le later_le
  have full_iff : limiter.config.perHostRequests ≤
        ((limiter.expireAll later swept).requestsOf (limiter.hostKey host)).length ↔
      later < now + limiter.retryAfter now requests := by
    rw [requestsOf_expireAll, queue_eq]
    refine le_length_expire_iff limit_pos full ?_ ?_ later_le
    · rw [← queue_eq]
      exact follows.host_le _
    · rw [← queue_eq]
      exact follows.covers_host
  constructor
  · intro early
    refine isAllowed_eq_false_of ?_
    rintro ⟨next, admits⟩
    exact absurd (full_iff.mpr early) (Nat.not_le.mpr admits.host_lt)
  · intro exactly other wait decision
    have room := mt full_iff.mp (Nat.not_lt.mpr exactly.ge)
    cases limits_of_decision decision with
    | global => exact RateLimitScope.noConfusion
    | host _ stillFound stillFull =>
      rw [RateLimitState.requestsOf, stillFound, Option.getD_some] at room
      exact absurd stillFull room
    | tracked _ absent stillFull =>
      -- the host was tracked before, so its place is free
      have gone : ∀ request ∈ requests, limiter.expired later request = true := by
        have queue := ((follows.expireAll now_le later_le).untracked_iff _).mp absent
        rw [requestsOf_expireAll, queue_eq, expire, List.dropWhile_eq_nil_iff] at queue
        exact queue
      have size_lt := size_expireAll_lt_iff.mpr ⟨_, requests, found, gone⟩
      exact absurd (stillFull.trans_lt size_lt) (Nat.not_lt.mpr follows.size_le)

/-! ### Too many hosts -/

theorem expired_iff_le (later_le : later ≤ limiter.instantMax) :
    limiter.expired later request = true ↔ request + limiter.config.window ≤ later := by
  rw [expired_eq later_le, live, Bool.not_eq_true', decide_eq_false_iff_not, Nat.not_lt]

/-- While no host is lost the request is turned away. -/
theorem refused_of_no_host_lost (absent : swept.hosts.lookup (limiter.hostKey host) = none)
    (full : limiter.config.maxTrackedHosts ≤ swept.hosts.size)
    (kept : ¬ (limiter.expireAll later swept).hosts.size < swept.hosts.size) :
    ¬ ∃ next, Admits limiter host later (limiter.expireAll later swept) next := by
  rintro ⟨next, admits⟩
  have stillAbsent : (limiter.expireAll later swept).hosts.lookup (limiter.hostKey host) =
      none := by
    rw [lookup_expireAll, absent]
    rfl
  exact kept ((admits.size_lt stillAbsent).trans_le full)

theorem no_host_lost (follows : Follows limiter log now swept)
    (none_expired : ∀ key, ∀ request ∈ swept.requestsOf key,
      limiter.expired later request = false) :
    ¬ (limiter.expireAll later swept).hosts.size < swept.hosts.size := by
  rw [size_expireAll_lt_iff]
  rintro ⟨key, requests, found, allExpired⟩
  rcases List.exists_mem_of_ne_nil _ (follows.nonempty key requests found) with
    ⟨request, requestMem⟩
  have mem : request ∈ swept.requestsOf key := by
    rw [RateLimitState.requestsOf, found, Option.getD_some]
    exact requestMem
  have kept := none_expired key request mem
  rw [allExpired request requestMem] at kept
  cases kept

/-- A host is lost when the earliest request expires exactly when one of the hosts has no
later request. -/
theorem host_lost_iff (follows : Follows limiter log now swept)
    (kept : ∀ key request, request ∈ swept.requestsOf key ↔
      limiter.Retains state now key request)
    (later_le : later ≤ limiter.instantMax) {key : UInt64} {first : Nat}
    (first_mem : first ∈ swept.requestsOf key) (leaves : first + limiter.config.window = later)
    (least : ∀ other request, request ∈ swept.requestsOf other → first ≤ request) :
    (limiter.expireAll later swept).hosts.size < swept.hosts.size ↔
      limiter.FirstHostLeaves now state := by
  rw [size_expireAll_lt_iff]
  constructor
  · rintro ⟨lost, requests, found, allExpired⟩
    have queue_eq : swept.requestsOf lost = requests := by
      rw [RateLimitState.requestsOf, found, Option.getD_some]
    rcases List.exists_mem_of_ne_nil _ (follows.nonempty lost requests found) with
      ⟨request, requestMem⟩
    refine ⟨lost, request, ?_, ?_⟩
    · rw [← kept, queue_eq]
      exact requestMem
    intro own ownKept other second secondKept
    rw [← kept, queue_eq] at ownKept
    rw [← kept] at secondKept
    have own_le := (expired_iff_le later_le).mp (allExpired own ownKept)
    rw [← leaves] at own_le
    exact (Nat.le_of_add_le_add_right own_le).trans (least other second secondKept)
  · rintro ⟨lost, request, requestKept, earliest⟩
    rw [← kept] at requestKept
    rcases follows.first_of_mem requestKept with ⟨front, rest, found, -, -⟩
    refine ⟨lost, front :: rest, found, ?_⟩
    intro own ownMem
    have ownKept : own ∈ swept.requestsOf lost := by
      rw [RateLimitState.requestsOf, found, Option.getD_some]
      exact ownMem
    rw [expired_iff_le later_le, ← leaves]
    exact Nat.add_le_add_right
      (earliest own ((kept lost own).mp ownKept) key first ((kept key first).mp first_mem)) _

/-- The time reported for too many hosts is exact when a host is lost at it. -/
theorem retryLaw_tracked_iff (follows : Follows limiter log now swept)
    (kept : ∀ key request, request ∈ swept.requestsOf key ↔
      limiter.Retains state now key request)
    (room : swept.global.length < limiter.config.globalRequests)
    (absent : swept.hosts.lookup (limiter.hostKey host) = none)
    (full : limiter.config.maxTrackedHosts ≤ swept.hosts.size) :
    limiter.RetryLaw host now swept .host (limiter.hostRetryAfter now swept.hosts) ↔
      limiter.FirstHostLeaves now state ∨ limiter.BeyondClock now state := by
  have tracked_pos := (RateLimitConfig.pos_of_validate limiter.validated).2.2.2
  rw [retryLaw_iff]
  rcases hostRetryAfter_cases follows (tracked_pos.trans_le full) with
    ⟨key, first, first_mem, expiry_eq, least⟩ | ⟨beyond, never⟩
  · rcases expiry_eq_some_iff.mp expiry_eq with ⟨exactly_le, leaves⟩
    have lost_iff := host_lost_iff follows kept exactly_le first_mem leaves least
    constructor
    · intro answers
      have answer := (answers _ (Nat.le_add_right _ _) exactly_le).2 rfl
      refine .inl (lost_iff.mp ?_)
      by_contra noneLost
      rcases check_cases limiter host (now + limiter.hostRetryAfter now swept.hosts) swept with
        ⟨next, -, admits⟩ | ⟨scope, wait, decision, limits⟩
      · exact refused_of_no_host_lost absent full noneLost ⟨next, admits⟩
      have scope_ne := answer scope wait (congrArg Prod.fst decision)
      cases limits with
      | global stillFull =>
        have shorter : (limiter.expire (now + limiter.hostRetryAfter now swept.hosts)
            swept.global).length ≤ swept.global.length :=
          (List.dropWhile_sublist _).length_le
        exact absurd (stillFull.trans shorter) (Nat.not_le.mpr room)
      | host => exact scope_ne rfl
      | tracked => exact scope_ne rfl
    · rintro (firstLeaves | beyondClock) later now_le later_le
      · constructor
        · intro early
          refine isAllowed_eq_false_of (refused_of_no_host_lost absent full ?_)
          refine no_host_lost follows fun other request mem => ?_
          rw [Bool.eq_false_iff, Ne, expired_iff_le later_le, Nat.not_le]
          rw [← leaves] at early
          exact early.trans_le (Nat.add_le_add_right (least other request mem) _)
        · rintro rfl other wait decision
          cases limits_of_decision decision with
          | global => exact RateLimitScope.noConfusion
          | host _ stillFound _ =>
            rw [lookup_expireAll, absent] at stillFound
            cases stillFound
          | tracked _ _ stillFull =>
            exact absurd (stillFull.trans_lt (lost_iff.mpr firstLeaves))
              (Nat.not_lt.mpr follows.size_le)
      · rw [beyondClock key first ((kept key first).mp first_mem)] at expiry_eq
        cases expiry_eq
  · constructor
    · intro _
      exact .inr fun key request retained => never key request ((kept key request).mpr retained)
    · intro _ later now_le later_le
      constructor
      · intro _
        refine isAllowed_eq_false_of (refused_of_no_host_lost absent full ?_)
        refine no_host_lost follows fun other request mem => ?_
        rw [expired, never other request mem]
        rfl
      · intro exactly
        exact absurd later_le (Nat.not_le.mpr (exactly ▸ beyond))

theorem size_expireAll_eq :
    (limiter.expireAll now state).hosts.size =
      (state.hosts.entries.filter fun entry =>
        entry.2.any fun request => !limiter.expired now request).length := by
  rw [expireAll, Store.size_retain_mapValues]
  congr 2
  funext entry
  rw [expire, Bool.eq_iff_iff, Bool.not_eq_true', List.isEmpty_eq_false_iff, Ne,
    List.dropWhile_eq_nil_iff]
  simp

/-- The cap on hosts is what turns a request away exactly when it is reached. -/
theorem hostCapReached_iff {latest : Nat} (follows : Follows limiter log latest state)
    (latest_le : latest ≤ now) (now_le : now ≤ limiter.instantMax) :
    limiter.HostCapReached host now state ↔
      (limiter.expireAll now state).global.length < limiter.config.globalRequests ∧
        (limiter.expireAll now state).hosts.lookup (limiter.hostKey host) = none ∧
        limiter.config.maxTrackedHosts ≤ (limiter.expireAll now state).hosts.size := by
  have swept := follows.expireAll latest_le now_le
  have global_eq : (limiter.expireAll now state).global =
      state.global.filter fun request => !limiter.expired now request := by
    change limiter.expire now state.global = _
    rw [follows.global_eq, expire_of_sorted now_le (follows.sorted.filter _)]
    refine List.filter_congr fun request _ => ?_
    rw [expired_eq now_le, Bool.not_not]
  rw [swept.untracked_iff, List.eq_nil_iff_forall_not_mem, global_eq, size_expireAll_eq]
  simp only [follows.mem_requestsOf_expireAll now_le]
  constructor
  · intro reached
    exact ⟨reached.global_lt, reached.untracked, reached.tracked_le⟩
  · rintro ⟨global_lt, untracked, tracked_le⟩
    exact ⟨global_lt, untracked, tracked_le⟩

/-- The reported time is exact unless it is reported for too many hosts. -/
theorem retryLaw_iff_of_limits {latest : Nat} (follows : Follows limiter log latest state)
    (latest_le : latest ≤ now) (now_le : now ≤ limiter.instantMax) {after : Nat}
    (limits : Limits limiter host now (limiter.expireAll now state) scope after) :
    limiter.RetryLaw host now (limiter.expireAll now state) scope after ↔
      (limiter.HostCapReached host now state →
        limiter.FirstHostLeaves now state ∨ limiter.BeyondClock now state) := by
  have swept := follows.expireAll latest_le now_le
  rw [hostCapReached_iff follows latest_le now_le]
  cases limits with
  | global full =>
    refine iff_of_true (retryLaw_global swept full) ?_
    rintro ⟨room, -⟩
    exact absurd full (Nat.not_le.mpr room)
  | host room found full =>
    refine iff_of_true (retryLaw_host swept found full) ?_
    rintro ⟨-, absent, -⟩
    rw [found] at absent
    cases absent
  | tracked room absent full =>
    rw [retryLaw_tracked_iff swept (follows.mem_requestsOf_expireAll now_le) room absent full]
    exact ⟨fun leaves _ => leaves, fun leaves => leaves ⟨room, absent, full⟩⟩

/-- In every history no window is over a limit and no more hosts are tracked than allowed; an
answer that turns a request away changes no later answer, and the time it reports is exact if
and only if, where too many hosts are tracked, a host is lost at the first expiry. -/
theorem windows_are_exact (limiter : RequestRateLimiter) (checks : Checks)
    (chronological : limiter.Chronological checks) :
    (∀ start, (((limiter.admitted .initial checks).map Prod.snd).filter
        (within limiter.config.window start)).length ≤ limiter.config.globalRequests) ∧
    (∀ key start, ((instantsOf key (limiter.admitted .initial checks)).filter
        (within limiter.config.window start)).length ≤ limiter.config.perHostRequests) ∧
    (limiter.after .initial checks).hosts.size ≤ limiter.config.maxTrackedHosts ∧
    ∀ host now scope after next, limiter.Chronological (checks ++ [(host, now)]) →
      limiter.check host now (limiter.after .initial checks) = (.limited scope after, next) →
        (next.global <:+ (limiter.after .initial checks).global ∧
          (∀ key, next.requestsOf key <:+ (limiter.after .initial checks).requestsOf key) ∧
          ∀ other later, now ≤ later → limiter.check other later next =
            limiter.check other later (limiter.after .initial checks)) ∧
        (limiter.RetryLaw host now next scope after ↔
          (limiter.HostCapReached host now (limiter.after .initial checks) →
            limiter.FirstHostLeaves now (limiter.after .initial checks) ∨
              limiter.BeyondClock now (limiter.after .initial checks))) := by
  have run : ∀ bound, (∀ instant ∈ checks.map Prod.snd, instant ≤ bound) →
      bound ≤ limiter.instantMax → ∃ latest, latest ≤ bound ∧
        Follows limiter (limiter.admitted .initial checks) latest
          (limiter.after .initial checks) := by
    intro bound instants_le bound_le
    refine follows_after (initial_follows limiter) chronological.ordered ⟨Nat.zero_le _, ?_⟩
      bound_le
    exact fun instant mem => ⟨Nat.zero_le _, instants_le instant mem⟩
  rcases run limiter.instantMax
      (fun instant mem => by
        rcases List.mem_map.mp mem with ⟨request, requestMem, rfl⟩
        exact chronological.instants_le request requestMem)
      (Nat.le_refl _) with ⟨latest, -, follows⟩
  refine ⟨follows.global_windows, follows.host_windows, follows.size_le, ?_⟩
  intro host now scope after next extended answer
  have ordered := extended.ordered
  rw [List.map_append, List.pairwise_append] at ordered
  have now_le := extended.instants_le (host, now) (by simp)
  rcases run now (fun instant mem => ordered.2.2 instant mem now List.mem_cons_self) now_le with
    ⟨before, before_le, followsBefore⟩
  rcases limits_of_check answer with ⟨rfl, limits⟩
  refine ⟨⟨List.dropWhile_suffix _, ?_, ?_⟩,
    retryLaw_iff_of_limits followsBefore before_le now_le limits⟩
  · intro key
    rw [requestsOf_expireAll]
    exact List.dropWhile_suffix _
  · intro other later later_ge
    exact check_congr (expireAll_expireAll later_ge _)

end HnsDaneEngine.LoopbackProxy.RequestRateLimiter

namespace HnsDaneEngine.LoopbackProxy.ExampleLimiter

open RequestRateLimiter

/-- Two requests of a host and one host in ten seconds. -/
def limiter : RequestRateLimiter where
  config :=
    { globalRequests := 4
      perHostRequests := 2
      window := 10000000000
      maxTrackedHosts := 1 }
  hostHasher := fun octets => octets.foldl (fun hash octet => hash * 31 + octet.toUInt64) 0
  instantMax := 2 ^ 63
  validated := rfl

/-- The octets of "one". -/
def one : Octets :=
  [111, 110, 101]

/-- The octets of "two". -/
def two : Octets :=
  [116, 119, 111]

/-- Two requests of one host, a second apart. -/
def checks : Checks :=
  [(one, 0), (one, 1000000000)]

/-- After one request of a host, another host is turned away by the cap and told to come back
when that request expires. -/
theorem retry_of_other_host :
    limiter.HostCapReached two 2000000000 (limiter.after .initial [(one, 0)]) ∧
      limiter.RetryLaw two 2000000000
        (limiter.check two 2000000000 (limiter.after .initial [(one, 0)])).2 .host 8000000000 := by
  have tracked : (limiter.after .initial [(one, 0)]).requestsOf (limiter.hostKey one) = [0] := by
    rfl
  have other : (limiter.after .initial [(one, 0)]).requestsOf (limiter.hostKey two) = [] := by
    rfl
  have answer : (limiter.check two 2000000000 (limiter.after .initial [(one, 0)])).1 =
      .limited .host 8000000000 := by
    rfl
  have exact := (windows_are_exact limiter [(one, 0)] ⟨by decide, by decide⟩).2.2.2 two 2000000000
    .host 8000000000 (limiter.check two 2000000000 (limiter.after .initial [(one, 0)])).2
    ⟨by decide, by decide⟩ (Prod.ext answer rfl)
  constructor
  · refine ⟨by decide, ?_, by decide⟩
    rintro request ⟨requestMem, -⟩
    rw [other] at requestMem
    cases requestMem
  · refine exact.2.mpr fun _ => .inl ⟨limiter.hostKey one, 0, ⟨by decide, by decide⟩, ?_⟩
    rintro request ⟨requestMem, -⟩ _ second _
    rw [tracked, List.mem_singleton] at requestMem
    rw [requestMem]
    exact Nat.zero_le second

/-- Another host is told to come back in eight seconds, when the tracked one still has its
second request. -/
theorem retry_too_early : ¬ ∀ (limiter : RequestRateLimiter) (checks : Checks)
    (host : Octets) (now : Nat) (scope : RateLimitScope) (after : Nat)
    (next : RateLimitState), limiter.Chronological (checks ++ [(host, now)]) →
      limiter.check host now (limiter.after .initial checks) = (.limited scope after, next) →
        limiter.RetryLaw host now next scope after := by
  intro law
  have answer : (limiter.check two 2000000000 (limiter.after .initial checks)).1 =
      .limited .host 8000000000 := by
    rfl
  have promise := law limiter checks two 2000000000 .host 8000000000
    (limiter.check two 2000000000 (limiter.after .initial checks)).2 ⟨by decide, by decide⟩
    (Prod.ext answer rfl)
  have second : (limiter.check two 10000000000
      (limiter.check two 2000000000 (limiter.after .initial checks)).2).1 =
        .limited .host 1000000000 := by
    rfl
  exact (promise [] 10000000000 ⟨by decide, by decide⟩ rfl).2 rfl .host 1000000000 second rfl

end HnsDaneEngine.LoopbackProxy.ExampleLimiter
