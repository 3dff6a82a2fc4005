import HnsDaneEngine.Data.Keyed
import HnsDaneEngine.NamespaceResolution.Query

/-!
# Request admission of the loopback listener

Instants and durations are nanoseconds.  An instant of the platform's monotonic clock is
at most a largest one, past which an addition fails.  Hosts are kept by a keyed hash of
their lower-case octets, which is a parameter.
-/

namespace HnsDaneEngine.LoopbackProxy

open Data (Store)
open NamespaceResolution (toAsciiLowercase)

def defaultGlobalRequestsPerWindow : Nat := 2048

def defaultHostRequestsPerWindow : Nat := 1024

def defaultMaxTrackedHosts : Nat := 256

/-- Ten seconds. -/
def defaultRateWindow : Nat := 10000000000

/-- Request limits of a proxy generation. -/
structure RateLimitConfig where
  globalRequests : Nat
  perHostRequests : Nat
  window : Nat
  maxTrackedHosts : Nat

def RateLimitConfig.default : RateLimitConfig where
  globalRequests := defaultGlobalRequestsPerWindow
  perHostRequests := defaultHostRequestsPerWindow
  window := defaultRateWindow
  maxTrackedHosts := defaultMaxTrackedHosts

/-- Why limits are refused. -/
inductive RateLimitConfigError
  | zeroGlobalLimit
  | zeroHostLimit
  | zeroWindow
  | zeroTrackedHosts
  | hostLimitExceedsGlobal
  | exceedsMaximum

def RateLimitConfig.validate (config : RateLimitConfig) :
    Except RateLimitConfigError RateLimitConfig :=
  if config.globalRequests = 0 then .error .zeroGlobalLimit
  else if config.perHostRequests = 0 then .error .zeroHostLimit
  else if config.window = 0 then .error .zeroWindow
  else if config.maxTrackedHosts = 0 then .error .zeroTrackedHosts
  else if config.globalRequests < config.perHostRequests then .error .hostLimitExceedsGlobal
  else if defaultGlobalRequestsPerWindow < config.globalRequests ∨
      defaultHostRequestsPerWindow < config.perHostRequests ∨
      defaultRateWindow < config.window ∨ defaultMaxTrackedHosts < config.maxTrackedHosts then
    .error .exceedsMaximum
  else .ok config

/-- Every bound that the defaults themselves set is met by them. -/
theorem RateLimitConfig.default_validate :
    RateLimitConfig.default.validate = .ok RateLimitConfig.default :=
  rfl

/-- Which limit is met. -/
inductive RateLimitScope
  | global
  | host

/-- Whether a request may pass. -/
inductive RateLimitDecision
  | allowed
  | limited (scope : RateLimitScope) (retryAfter : Nat)

def RateLimitDecision.isAllowed : RateLimitDecision → Bool
  | .allowed => true
  | .limited _ _ => false

/-- Instants of the admitted requests, oldest first, in total and for each host. -/
structure RateLimitState where
  global : List Nat
  hosts : Store UInt64 (List Nat)

def RateLimitState.initial : RateLimitState where
  global := []
  hosts := ∅

/-- A limiter with a configuration that passed validation. -/
structure RequestRateLimiter where
  config : RateLimitConfig
  hostHasher : Octets → UInt64
  instantMax : Nat
  validated : config.validate = .ok config

variable {config checked : RateLimitConfig}

theorem RateLimitConfig.eq_of_validate (valid : config.validate = .ok checked) :
    checked = config := by
  rw [validate] at valid
  repeat' split at valid
  all_goals first | cases valid; rfl | cases valid

theorem RateLimitConfig.validate_of_validate (valid : config.validate = .ok checked) :
    checked.validate = .ok checked := by
  cases eq_of_validate valid
  exact valid

namespace RequestRateLimiter

def new (hostHasher : Octets → UInt64) (instantMax : Nat) (config : RateLimitConfig) :
    Except RateLimitConfigError RequestRateLimiter :=
  match valid : config.validate with
  | .ok checked =>
    .ok
      { config := checked
        hostHasher := hostHasher
        instantMax := instantMax
        validated := RateLimitConfig.validate_of_validate valid }
  | .error error => .error error

variable (limiter : RequestRateLimiter)

def hostKey (canonicalHost : Octets) : UInt64 :=
  limiter.hostHasher (canonicalHost.map toAsciiLowercase)

/-- When a request leaves the window, if the clock can say so. -/
def expiry (request : Nat) : Option Nat :=
  if request + limiter.config.window ≤ limiter.instantMax then
    some (request + limiter.config.window)
  else none

def expired (now request : Nat) : Bool :=
  (limiter.expiry request).any fun expires => expires ≤ now

def expire (now : Nat) (requests : List Nat) : List Nat :=
  requests.dropWhile (limiter.expired now)

def retryAfter (now : Nat) (requests : List Nat) : Nat :=
  ((requests.head?.bind limiter.expiry).map fun expires => expires - now).getD
    limiter.config.window

/-- When the first request of some host leaves the window. -/
def hostRetryAfter (now : Nat) (hosts : Store UInt64 (List Nat)) : Nat :=
  (((hosts.entries.filterMap fun entry => entry.2.head?).filterMap limiter.expiry).map
    fun expires => expires - now).min?.getD limiter.config.window

/-- All queues without their expired requests, and without the hosts that have no other. -/
def expireAll (now : Nat) (state : RateLimitState) : RateLimitState where
  global := limiter.expire now state.global
  hosts := (state.hosts.mapValues (limiter.expire now)).retain fun requests => !requests.isEmpty

/-- Append to both queues; a host that is not tracked has no queue. -/
def record (key : UInt64) (now : Nat) (state : RateLimitState) : RateLimitState where
  global := state.global ++ [now]
  hosts :=
    match state.hosts.lookup key with
    | some requests => state.hosts.insert key (requests ++ [now])
    | none => state.hosts

/-- Admit and record one request, or report the limiting window. -/
def check (canonicalHost : Octets) (now : Nat) (state : RateLimitState) :
    RateLimitDecision × RateLimitState :=
  let hostKey := limiter.hostKey canonicalHost
  let state := limiter.expireAll now state
  if limiter.config.globalRequests ≤ state.global.length then
    (.limited .global (limiter.retryAfter now state.global), state)
  else
    match state.hosts.lookup hostKey with
    | some requests =>
      if limiter.config.perHostRequests ≤ requests.length then
        (.limited .host (limiter.retryAfter now requests), state)
      else (.allowed, record hostKey now state)
    | none =>
      if limiter.config.maxTrackedHosts ≤ state.hosts.size then
        (.limited .host (limiter.hostRetryAfter now state.hosts), state)
      else
        (.allowed, record hostKey now { state with hosts := state.hosts.insert hostKey [] })

/-- Calls of `check`, each with its host and instant. -/
abbrev Checks : Type :=
  List (Octets × Nat)

/-- The state after calls. -/
def after (state : RateLimitState) (checks : Checks) : RateLimitState :=
  checks.foldl (fun state request => (limiter.check request.1 request.2 state).2) state

/-- The admitted requests of a sequence of calls, by host key and instant. -/
def admitted (state : RateLimitState) : Checks → List (UInt64 × Nat)
  | [] => []
  | request :: checks =>
    let next := limiter.check request.1 request.2 state
    if next.1.isAllowed then
      (limiter.hostKey request.1, request.2) :: admitted next.2 checks
    else admitted next.2 checks

/-- Calls at nondecreasing instants of the clock. -/
structure Chronological (checks : Checks) : Prop where
  ordered : (checks.map Prod.snd).Pairwise (· ≤ ·)
  instants_le : ∀ request ∈ checks, request.2 ≤ limiter.instantMax

end RequestRateLimiter

end HnsDaneEngine.LoopbackProxy
