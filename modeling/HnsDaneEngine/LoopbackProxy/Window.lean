import HnsDaneEngine.Data.SlidingWindow
import HnsDaneEngine.LoopbackProxy.RateLimit

/-!
# The sliding windows of request admission

The queues of the limiter are those requests of the whole history that a window still
covers.  Hence no window holds more than its limit, and an answer that admits nothing
changes no later answer.
-/

namespace HnsDaneEngine.LoopbackProxy

open Data (Store)
open Data.SlidingWindow

/-- What validation establishes. -/
theorem RateLimitConfig.pos_of_validate {config checked : RateLimitConfig}
    (valid : config.validate = .ok checked) :
    0 < config.globalRequests ∧ 0 < config.perHostRequests ∧ 0 < config.window ∧
      0 < config.maxTrackedHosts := by
  rw [validate] at valid
  by_cases noGlobal : config.globalRequests = 0
  · rw [if_pos noGlobal] at valid
    cases valid
  by_cases noHost : config.perHostRequests = 0
  · rw [if_neg noGlobal, if_pos noHost] at valid
    cases valid
  by_cases noWindow : config.window = 0
  · rw [if_neg noGlobal, if_neg noHost, if_pos noWindow] at valid
    cases valid
  · by_cases noTracked : config.maxTrackedHosts = 0
    · rw [if_neg noGlobal, if_neg noHost, if_neg noWindow, if_pos noTracked] at valid
      cases valid
    · exact ⟨Nat.pos_of_ne_zero noGlobal, Nat.pos_of_ne_zero noHost,
        Nat.pos_of_ne_zero noWindow, Nat.pos_of_ne_zero noTracked⟩

/-- Requests kept for a host; none for a host that is not tracked. -/
def RateLimitState.requestsOf (state : RateLimitState) (key : UInt64) : List Nat :=
  (state.hosts.lookup key).getD []

namespace RequestRateLimiter

variable {limiter : RequestRateLimiter} {now later : Nat} {state next : RateLimitState}
  {host : Octets}

theorem expired_eq (now_le : now ≤ limiter.instantMax) (request : Nat) :
    limiter.expired now request = !live limiter.config.window now request := by
  rw [expired, expiry]
  by_cases fits : request + limiter.config.window ≤ limiter.instantMax
  · rw [if_pos fits, Option.any_some, live, ← decide_not]
    exact decide_eq_decide.mpr Nat.not_lt.symm
  · have covered : now < request + limiter.config.window := by omega
    rw [if_neg fits]
    simp [live, covered]

theorem expired_mono (now_le : now ≤ later) {request : Nat}
    (isExpired : limiter.expired now request) : limiter.expired later request := by
  simp only [expired, Option.any_eq_true, decide_eq_true_eq] at isExpired ⊢
  rcases isExpired with ⟨expires, expiry_eq, expires_le⟩
  exact ⟨expires, expiry_eq, expires_le.trans now_le⟩

theorem expire_expire (now_le : now ≤ later) (requests : List Nat) :
    limiter.expire later (limiter.expire now requests) = limiter.expire later requests :=
  dropWhile_dropWhile (fun _ isExpired => expired_mono now_le isExpired) requests

/-- Expiring the queues twice is expiring them at the later instant. -/
theorem expireAll_expireAll (now_le : now ≤ later) (state : RateLimitState) :
    limiter.expireAll later (limiter.expireAll now state) = limiter.expireAll later state := by
  have stays : ∀ requests, (!(limiter.expire later (limiter.expire now requests)).isEmpty) = true →
      (!(limiter.expire now requests).isEmpty) = true := by
    intro requests nonempty
    cases queue : limiter.expire now requests with
    | nil =>
      rw [queue] at nonempty
      cases nonempty
    | cons first rest => rfl
  have hosts_eq := @Store.retain_mapValues_retain _ _ (limiter.expire now) (limiter.expire later)
    (fun requests => !requests.isEmpty) (fun requests => !requests.isEmpty) stays state.hosts
  rw [expireAll, expireAll, expireAll, RateLimitState.mk.injEq]
  constructor
  · exact expire_expire now_le state.global
  · rw [hosts_eq]
    simp only [expire_expire now_le]

theorem expire_of_sorted (now_le : now ≤ limiter.instantMax) {requests : List Nat}
    (sorted : requests.Pairwise (· ≤ ·)) :
    limiter.expire now requests = requests.filter (live limiter.config.window now) := by
  rw [expire, ← dropWhile_not_live sorted]
  congr 1
  funext request
  exact expired_eq now_le request

theorem lookup_expireAll (key : UInt64) :
    (limiter.expireAll now state).hosts.lookup key =
      ((state.hosts.lookup key).map (limiter.expire now)).filter
        fun requests => !requests.isEmpty := by
  rw [expireAll, Store.lookup_retain, Store.lookup_mapValues]

theorem requestsOf_expireAll (key : UInt64) :
    (limiter.expireAll now state).requestsOf key = limiter.expire now (state.requestsOf key) := by
  rw [RateLimitState.requestsOf, RateLimitState.requestsOf, lookup_expireAll]
  cases state.hosts.lookup key with
  | none => rfl
  | some requests =>
    rw [Option.map_some, Option.getD_some]
    cases queue : limiter.expire now requests with
    | nil => rfl
    | cons first rest => rfl

theorem nonempty_of_lookup_expireAll {key : UInt64} {requests : List Nat}
    (found : (limiter.expireAll now state).hosts.lookup key = some requests) :
    requests ≠ [] := by
  rw [lookup_expireAll, Option.filter_eq_some_iff] at found
  rintro rfl
  cases found.2

/-- When a request is turned away, by which limit and for how long, given the queues
without expired requests. -/
inductive Limits (limiter : RequestRateLimiter) (host : Octets) (now : Nat)
    (swept : RateLimitState) : RateLimitScope → Nat → Prop
  | global (full : limiter.config.globalRequests ≤ swept.global.length) :
      Limits limiter host now swept .global (limiter.retryAfter now swept.global)
  | host {requests : List Nat} (room : swept.global.length < limiter.config.globalRequests)
      (found : swept.hosts.lookup (limiter.hostKey host) = some requests)
      (full : limiter.config.perHostRequests ≤ requests.length) :
      Limits limiter host now swept .host (limiter.retryAfter now requests)
  | tracked (room : swept.global.length < limiter.config.globalRequests)
      (absent : swept.hosts.lookup (limiter.hostKey host) = none)
      (full : limiter.config.maxTrackedHosts ≤ swept.hosts.size) :
      Limits limiter host now swept .host (limiter.hostRetryAfter now swept.hosts)

/-- What admitting a request does to the queues without expired requests. -/
structure Admits (limiter : RequestRateLimiter) (host : Octets) (now : Nat)
    (swept next : RateLimitState) : Prop where
  global_lt : swept.global.length < limiter.config.globalRequests
  global_eq : next.global = swept.global ++ [now]
  host_lt : (swept.requestsOf (limiter.hostKey host)).length < limiter.config.perHostRequests
  lookup_eq : next.hosts.lookup (limiter.hostKey host) =
    some (swept.requestsOf (limiter.hostKey host) ++ [now])
  lookup_ne : ∀ key, key ≠ limiter.hostKey host → next.hosts.lookup key = swept.hosts.lookup key
  size_lt : swept.hosts.lookup (limiter.hostKey host) = none →
    swept.hosts.size < limiter.config.maxTrackedHosts
  size_le : swept.hosts.size ≤ limiter.config.maxTrackedHosts →
    next.hosts.size ≤ limiter.config.maxTrackedHosts

/-- Either a request is admitted, or the queues only lose expired requests. -/
theorem check_cases (limiter : RequestRateLimiter) (host : Octets) (now : Nat)
    (state : RateLimitState) :
    (∃ next, limiter.check host now state = (.allowed, next) ∧
        Admits limiter host now (limiter.expireAll now state) next) ∨
      ∃ scope after, limiter.check host now state =
          (.limited scope after, limiter.expireAll now state) ∧
        Limits limiter host now (limiter.expireAll now state) scope after := by
  have host_pos := (RateLimitConfig.pos_of_validate limiter.validated).2.1
  simp only [check]
  generalize limiter.expireAll now state = swept
  by_cases globalFull : limiter.config.globalRequests ≤ swept.global.length
  · rw [if_pos globalFull]
    exact .inr ⟨_, _, rfl, .global globalFull⟩
  have room : swept.global.length < limiter.config.globalRequests := Nat.lt_of_not_le globalFull
  rw [if_neg globalFull]
  cases found : swept.hosts.lookup (limiter.hostKey host) with
  | some requests =>
    have requests_eq : swept.requestsOf (limiter.hostKey host) = requests := by
      rw [RateLimitState.requestsOf, found, Option.getD_some]
    simp only [record, found]
    by_cases hostFull : limiter.config.perHostRequests ≤ requests.length
    · rw [if_pos hostFull]
      exact .inr ⟨_, _, rfl, .host room found hostFull⟩
    rw [if_neg hostFull]
    refine .inl ⟨_, rfl, room, rfl, ?_, ?_, ?_, ?_, ?_⟩
    · rw [requests_eq]
      exact Nat.lt_of_not_le hostFull
    · rw [requests_eq]
      exact AList.lookup_insert swept.hosts
    · intro key key_ne
      exact AList.lookup_insert_ne key_ne
    · intro absent
      rw [found] at absent
      cases absent
    · intro size_le
      have size_eq := Store.size_of_lookup found
      rw [Store.size_insert, ← size_eq]
      exact size_le
  | none =>
    have requests_eq : swept.requestsOf (limiter.hostKey host) = [] := by
      rw [RateLimitState.requestsOf, found, Option.getD_none]
    simp only [record, AList.lookup_insert]
    by_cases trackedFull : limiter.config.maxTrackedHosts ≤ swept.hosts.size
    · rw [if_pos trackedFull]
      exact .inr ⟨_, _, rfl, .tracked room found trackedFull⟩
    rw [if_neg trackedFull]
    refine .inl ⟨_, rfl, room, rfl, ?_, ?_, ?_, ?_, ?_⟩
    · rw [requests_eq]
      exact host_pos
    · rw [requests_eq]
      exact AList.lookup_insert _
    · intro key key_ne
      exact (AList.lookup_insert_ne key_ne).trans (AList.lookup_insert_ne key_ne)
    · intro _
      exact Nat.lt_of_not_le trackedFull
    · intro _
      rw [AList.insert_insert, Store.size_insert, Store.erase_of_absent found]
      exact Nat.succ_le_of_lt (Nat.lt_of_not_le trackedFull)

/-- An answer depends on the unexpired requests only. -/
theorem check_congr {other : RateLimitState}
    (same : limiter.expireAll now state = limiter.expireAll now other) :
    limiter.check host now state = limiter.check host now other := by
  simp only [check, same]

theorem limits_of_check {scope : RateLimitScope} {after : Nat}
    (answer : limiter.check host now state = (.limited scope after, next)) :
    next = limiter.expireAll now state ∧
      Limits limiter host now (limiter.expireAll now state) scope after := by
  rcases check_cases limiter host now state with ⟨_, allowed, -⟩ | ⟨_, _, limited, limits⟩
  · rw [allowed] at answer
    cases answer
  · rw [limited] at answer
    cases answer
    exact ⟨rfl, limits⟩

/-- Instants of the admitted requests of a host. -/
def instantsOf (key : UInt64) (log : List (UInt64 × Nat)) : List Nat :=
  (log.filter fun entry => entry.1 == key).map Prod.snd

theorem instantsOf_concat_self (key : UInt64) (log : List (UInt64 × Nat)) (now : Nat) :
    instantsOf key (log ++ [(key, now)]) = instantsOf key log ++ [now] := by
  simp [instantsOf, List.filter_append]

theorem instantsOf_concat_ne {key other : UInt64} (key_ne : other ≠ key)
    (log : List (UInt64 × Nat)) (now : Nat) :
    instantsOf key (log ++ [(other, now)]) = instantsOf key log := by
  simp [instantsOf, List.filter_append, key_ne]

theorem instantsOf_sublist (key : UInt64) (log : List (UInt64 × Nat)) :
    (instantsOf key log).Sublist (log.map Prod.snd) :=
  List.filter_sublist.map Prod.snd

/-- The queues are the requests of the log that the window ending at the latest instant
covers, and no window of the log is over a limit. -/
structure Follows (limiter : RequestRateLimiter) (log : List (UInt64 × Nat)) (latest : Nat)
    (state : RateLimitState) : Prop where
  global_eq : state.global = (log.map Prod.snd).filter (live limiter.config.window latest)
  hosts_eq : ∀ key, state.requestsOf key =
    (instantsOf key log).filter (live limiter.config.window latest)
  nonempty : ∀ key requests, state.hosts.lookup key = some requests → requests ≠ []
  sorted : (log.map Prod.snd).Pairwise (· ≤ ·)
  past : ∀ instant ∈ log.map Prod.snd, instant ≤ latest
  global_le : state.global.length ≤ limiter.config.globalRequests
  host_le : ∀ key, (state.requestsOf key).length ≤ limiter.config.perHostRequests
  size_le : state.hosts.size ≤ limiter.config.maxTrackedHosts
  global_windows : ∀ start, ((log.map Prod.snd).filter
    (within limiter.config.window start)).length ≤ limiter.config.globalRequests
  host_windows : ∀ key start, ((instantsOf key log).filter
    (within limiter.config.window start)).length ≤ limiter.config.perHostRequests

theorem initial_follows (limiter : RequestRateLimiter) :
    Follows limiter [] 0 RateLimitState.initial where
  global_eq := rfl
  hosts_eq _ := rfl
  nonempty _ _ found := by cases found
  sorted := List.Pairwise.nil
  past _ mem := by cases mem
  global_le := Nat.zero_le _
  host_le _ := Nat.zero_le _
  size_le := Nat.zero_le _
  global_windows _ := Nat.zero_le _
  host_windows _ _ := Nat.zero_le _

namespace Follows

variable {log : List (UInt64 × Nat)} {latest : Nat}

theorem sorted_of (follows : Follows limiter log latest state) (key : UInt64) :
    (instantsOf key log).Pairwise (· ≤ ·) :=
  follows.sorted.sublist (instantsOf_sublist key log)

theorem expireAll (follows : Follows limiter log latest state) (latest_le : latest ≤ now)
    (now_le : now ≤ limiter.instantMax) :
    Follows limiter log now (limiter.expireAll now state) where
  global_eq := by
    change limiter.expire now state.global = _
    rw [follows.global_eq, expire_of_sorted now_le (follows.sorted.filter _),
      filter_live_filter_live latest_le]
  hosts_eq key := by
    rw [requestsOf_expireAll, follows.hosts_eq,
      expire_of_sorted now_le ((follows.sorted_of key).filter _),
      filter_live_filter_live latest_le]
  nonempty _ _ found := nonempty_of_lookup_expireAll found
  sorted := follows.sorted
  past instant mem := (follows.past instant mem).trans latest_le
  global_le := (List.dropWhile_sublist _).length_le.trans follows.global_le
  host_le key := by
    rw [requestsOf_expireAll]
    exact (List.dropWhile_sublist _).length_le.trans (follows.host_le key)
  size_le := by
    have mapped_le := Store.size_retain_le (fun requests : List Nat => !requests.isEmpty)
      (state.hosts.mapValues (limiter.expire now))
    have mapped_size : (state.hosts.mapValues (limiter.expire now)).size = state.hosts.size :=
      List.length_map _
    exact (mapped_le.trans mapped_size.le).trans follows.size_le
  global_windows := follows.global_windows
  host_windows := follows.host_windows

/-- An admitted request is appended to the log and to its queues. -/
theorem appended (follows : Follows limiter log now state)
    (admits : Admits limiter host now state next) :
    Follows limiter (log ++ [(limiter.hostKey host, now)]) now next := by
  have window_pos := (RateLimitConfig.pos_of_validate limiter.validated).2.2.1
  have covered : live limiter.config.window now now = true := by
    simp only [live, decide_eq_true_eq]
    exact Nat.lt_add_of_pos_right window_pos
  have instants_eq : (log ++ [(limiter.hostKey host, now)]).map Prod.snd =
      log.map Prod.snd ++ [now] := by
    rw [List.map_append, List.map_cons, List.map_nil]
  have own_eq : next.requestsOf (limiter.hostKey host) =
      state.requestsOf (limiter.hostKey host) ++ [now] := by
    rw [RateLimitState.requestsOf, admits.lookup_eq, Option.getD_some]
  have other_eq : ∀ key, key ≠ limiter.hostKey host →
      next.requestsOf key = state.requestsOf key := by
    intro key key_ne
    rw [RateLimitState.requestsOf, admits.lookup_ne key key_ne, RateLimitState.requestsOf]
  constructor
  · rw [admits.global_eq, follows.global_eq, instants_eq, List.filter_append,
      List.filter_cons_of_pos covered, List.filter_nil]
  · intro key
    by_cases same : key = limiter.hostKey host
    · subst same
      rw [own_eq, follows.hosts_eq, instantsOf_concat_self, List.filter_append,
        List.filter_cons_of_pos covered, List.filter_nil]
    · rw [other_eq key same, instantsOf_concat_ne (Ne.symm same), follows.hosts_eq]
  · intro key requests found
    by_cases same : key = limiter.hostKey host
    · subst same
      rw [admits.lookup_eq] at found
      cases found
      exact List.append_ne_nil_of_right_ne_nil _ (List.cons_ne_nil now [])
    · rw [admits.lookup_ne key same] at found
      exact follows.nonempty key requests found
  · rw [instants_eq, List.pairwise_append]
    refine ⟨follows.sorted, List.pairwise_singleton _ _, ?_⟩
    intro instant mem other otherMem
    rw [List.mem_singleton.mp otherMem]
    exact follows.past instant mem
  · rw [instants_eq]
    intro instant mem
    rcases List.mem_append.mp mem with before | last
    · exact follows.past instant before
    · exact (List.mem_singleton.mp last).le
  · rw [admits.global_eq, List.length_append]
    exact Nat.succ_le_of_lt admits.global_lt
  · intro key
    by_cases same : key = limiter.hostKey host
    · subst same
      rw [own_eq, List.length_append]
      exact Nat.succ_le_of_lt admits.host_lt
    · rw [other_eq key same]
      exact follows.host_le key
  · exact admits.size_le follows.size_le
  · intro start
    rw [instants_eq]
    refine length_within_concat follows.global_windows ?_ start
    rw [← follows.global_eq]
    exact admits.global_lt
  · intro key start
    by_cases same : key = limiter.hostKey host
    · subst same
      rw [instantsOf_concat_self]
      refine length_within_concat (follows.host_windows _) ?_ start
      rw [← follows.hosts_eq]
      exact admits.host_lt
    · rw [instantsOf_concat_ne (Ne.symm same)]
      exact follows.host_windows key start

end Follows

/-- After calls in order of time the queues follow the log extended by what was admitted. -/
theorem follows_after {log : List (UInt64 × Nat)} {latest bound : Nat} {checks : Checks}
    (follows : Follows limiter log latest state) (ordered : (checks.map Prod.snd).Pairwise (· ≤ ·))
    (latest_le : latest ≤ bound ∧ ∀ instant ∈ checks.map Prod.snd, latest ≤ instant ∧
      instant ≤ bound) (bound_le : bound ≤ limiter.instantMax) :
    ∃ last, last ≤ bound ∧
      Follows limiter (log ++ limiter.admitted state checks) last (limiter.after state checks) := by
  induction checks generalizing log latest state with
  | nil =>
    refine ⟨latest, latest_le.1, ?_⟩
    rw [admitted, List.append_nil]
    exact follows
  | cons request checks ih =>
    rw [List.map_cons, List.pairwise_cons] at ordered
    have now_bounds := latest_le.2 request.2 (List.mem_cons_self)
    have swept := follows.expireAll now_bounds.1 (now_bounds.2.trans bound_le)
    have rest_bounds : request.2 ≤ bound ∧ ∀ instant ∈ checks.map Prod.snd,
        request.2 ≤ instant ∧ instant ≤ bound :=
      ⟨now_bounds.2, fun instant mem =>
        ⟨ordered.1 instant mem, (latest_le.2 instant (List.mem_cons_of_mem _ mem)).2⟩⟩
    rw [after, List.foldl_cons, ← after]
    rcases check_cases limiter request.1 request.2 state with
      ⟨next, answer, admits⟩ | ⟨scope, after, answer, limits⟩
    · rcases ih (swept.appended admits) ordered.2 rest_bounds with ⟨last, last_le, final⟩
      refine ⟨last, last_le, ?_⟩
      simp only [admitted, answer, RateLimitDecision.isAllowed, if_true]
      rw [List.append_assoc, List.singleton_append] at final
      exact final
    · rcases ih swept ordered.2 rest_bounds with ⟨last, last_le, final⟩
      refine ⟨last, last_le, ?_⟩
      simp only [admitted, answer, RateLimitDecision.isAllowed, Bool.false_eq_true, if_false]
      exact final

/-- Calls that admit nothing leave the queues as they are, up to expired requests. -/
theorem expireAll_after_of_admitted_nil {quiet : Checks}
    (nothing : limiter.admitted state quiet = [])
    (quiet_le : ∀ instant ∈ quiet.map Prod.snd, instant ≤ later) :
    limiter.expireAll later (limiter.after state quiet) = limiter.expireAll later state := by
  induction quiet generalizing state with
  | nil => rfl
  | cons request quiet ih =>
    rw [after, List.foldl_cons, ← after]
    rcases check_cases limiter request.1 request.2 state with
      ⟨next, answer, admits⟩ | ⟨scope, after, answer, limits⟩
    · simp only [admitted, answer, RateLimitDecision.isAllowed, if_true] at nothing
      cases nothing
    · simp only [admitted, answer, RateLimitDecision.isAllowed, Bool.false_eq_true, if_false]
        at nothing
      rw [answer, ih nothing fun instant mem => quiet_le instant (List.mem_cons_of_mem _ mem),
        expireAll_expireAll (quiet_le request.2 List.mem_cons_self)]

end RequestRateLimiter

end HnsDaneEngine.LoopbackProxy
