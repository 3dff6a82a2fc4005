import HnsDaneEngine.Transport.Gateway

/-!
# Fallback after a terminal failure

A failure that permits no fallback ends the resolution, so that no other path can
replace the evidence that failed.  The deadline is tested before the failure is
looked at: a completion after the deadline counts as a timeout, and a timeout
permits fallback.
-/

namespace HnsDaneEngine.Transport

open Control Policy Primitives

/-- The calls of a gateway. -/
inductive Call
  | nextAttempt (currentPolicy : PolicySnapshot) (now : Nat)
  | complete (currentPolicy : PolicySnapshot) (attempt : GatewayAttempt)
      (outcome : AttemptOutcome) (now : Nat)
  | revoke

/-- What a call returns. -/
inductive Reply
  | refused (error : GatewayError)
  | attempt (attempt : GatewayAttempt)
  | step (step : GatewayStep)
  | revoked
  deriving DecidableEq

namespace Gateway

def reply (gateway : Gateway) : Call → Reply
  | .nextAttempt currentPolicy now =>
    match (gateway.nextAttempt currentPolicy now).1 with
    | .error error => .refused error
    | .ok attempt => .attempt attempt
  | .complete currentPolicy attempt outcome now =>
    match (gateway.complete currentPolicy attempt outcome now).1 with
    | .error error => .refused error
    | .ok step => .step step
  | .revoke => .revoked

/-- The gateway that a call leaves behind, whatever it returns. -/
def apply (gateway : Gateway) : Call → Gateway
  | .nextAttempt currentPolicy now => (gateway.nextAttempt currentPolicy now).2
  | .complete currentPolicy attempt outcome now =>
    (gateway.complete currentPolicy attempt outcome now).2
  | .revoke => gateway.revoke

/-- The policy that a caller passes is still the gateway's own. -/
def IsCurrent (gateway : Gateway) (policy : PolicySnapshot) : Prop :=
  policy.generation = gateway.policy.generation ∧ policy.config = gateway.policy.config

variable {policy : PolicySnapshot} {gateway : Gateway}

theorem ensureCurrentPolicy_of_current (current : gateway.IsCurrent policy) :
    gateway.ensureCurrentPolicy policy = (.ok (), gateway) := by
  simp [ensureCurrentPolicy, current.1, current.2]

theorem ensureCurrentPolicy_of_stale (stale : ¬ gateway.IsCurrent policy) :
    gateway.ensureCurrentPolicy policy = (.error .stalePolicy, gateway.revoke) := by
  have changed : policy.generation ≠ gateway.policy.generation ∨
      policy.config ≠ gateway.policy.config := by
    by_contra unchanged
    push Not at unchanged
    exact stale unchanged
  rw [ensureCurrentPolicy, if_pos changed]

/-- Where an attempt is not issued, the gateway is unchanged or revoked. -/
theorem nextAttempt_cases (gateway : Gateway) (policy : PolicySnapshot) (now : Nat) :
    (∃ error, (gateway.nextAttempt policy now).1 = .error error ∧
      ((gateway.nextAttempt policy now).2 = gateway ∨
        (gateway.nextAttempt policy now).2 = gateway.revoke)) ∨
    ∃ transport deadline, gateway.terminal = false ∧ gateway.active = none ∧
      gateway.plan[gateway.nextCandidate]? = some transport ∧
      ∃ attempt, (gateway.nextAttempt policy now).1 = .ok attempt ∧
        attempt.transport = transport ∧ attempt.deadline = deadline ∧
        (gateway.nextAttempt policy now).2 =
          { gateway with
            nextCandidate := gateway.nextCandidate + 1
            sequence := gateway.sequence + 1
            odohAttempted := gateway.odohAttempted || transport = .handshakeP2pOdoh
            active := some attempt } := by
  by_cases current : gateway.IsCurrent policy
  · unfold nextAttempt
    rw [ensureCurrentPolicy_of_current current]
    dsimp only
    split
    next => exact .inl ⟨_, rfl, .inl rfl⟩
    next running =>
      split
      next => exact .inl ⟨_, rfl, .inl rfl⟩
      next idle =>
        split
        next => exact .inl ⟨_, rfl, .inl rfl⟩
        next transport candidate_eq =>
          split
          next => exact .inl ⟨_, rfl, .inl rfl⟩
          next sequence advanced =>
            split
            next => exact .inl ⟨_, rfl, .inl rfl⟩
            next deadline deadline_eq =>
              obtain ⟨rfl, -⟩ := checkedAdd_eq_some_iff.mp advanced
              exact .inr ⟨transport, deadline, by simpa using running, by simpa using idle,
                candidate_eq, _, rfl, rfl, rfl, rfl⟩
  · unfold nextAttempt
    rw [ensureCurrentPolicy_of_stale current]
    exact .inl ⟨_, rfl, .inr rfl⟩

/-- A completion whose policy and token match goes on to the deadline. -/
theorem complete_of_current {attempt : GatewayAttempt} (current : gateway.IsCurrent policy)
    (active_eq : gateway.active = some attempt) (failure : TransportFailure) (now : Nat) :
    gateway.complete policy attempt (.failure failure) now =
      Gateway.retryOrUnavailable { gateway with active := none }
        (if attempt.deadline < now then .timeout else failure) attempt.transport := by
  simp only [complete, ensureCurrentPolicy_of_current current, active_eq, ne_eq, not_true_eq_false,
    if_false]
  split
  next => rfl
  next => rfl

theorem retryOrUnavailable_cases (gateway : Gateway) (failure : TransportFailure)
    (transport : ResolutionTransport) :
    (gateway.retryOrUnavailable failure transport = (.ok .retryAvailable, gateway) ∧
      gateway.nextCandidate < gateway.plan.length) ∨
    (gateway.retryOrUnavailable failure transport).1 ≠ .ok .retryAvailable ∧
      (gateway.retryOrUnavailable failure transport).2 = { gateway with terminal := true } := by
  unfold retryOrUnavailable
  split
  next => exact .inr ⟨by simp, rfl⟩
  next =>
    split
    next remaining => exact .inl ⟨rfl, remaining⟩
    next => exact .inr ⟨by simp, rfl⟩

/-- A completion that is not refused clears the attempt, and it ends the resolution
unless it leaves another candidate. -/
theorem complete_cases (gateway : Gateway) (policy : PolicySnapshot) (attempt : GatewayAttempt)
    (outcome : AttemptOutcome) (now : Nat) :
    (∃ error, (gateway.complete policy attempt outcome now).1 = .error error ∧
      ((gateway.complete policy attempt outcome now).2 = gateway ∨
        (gateway.complete policy attempt outcome now).2 = gateway.revoke)) ∨
    gateway.active = some attempt ∧
      ((gateway.complete policy attempt outcome now =
          (.ok .retryAvailable, { gateway with active := none }) ∧
        gateway.nextCandidate < gateway.plan.length) ∨
      (gateway.complete policy attempt outcome now).2 =
        { gateway with active := none, terminal := true }) := by
  by_cases current : gateway.IsCurrent policy
  · unfold complete
    rw [ensureCurrentPolicy_of_current current]
    dsimp only
    split
    next => exact .inl ⟨_, rfl, .inl rfl⟩
    next active active_eq =>
      split
      next => exact .inl ⟨_, rfl, .inl rfl⟩
      next same =>
        obtain rfl := not_ne_iff.mp same
        refine .inr ⟨active_eq, ?_⟩
        split
        next =>
          rcases retryOrUnavailable_cases { gateway with active := none } .timeout active.transport
            with retried | ⟨-, ended⟩
          · exact .inl retried
          · exact .inr ended
        next =>
          cases outcome with
          | failure failure =>
            rcases retryOrUnavailable_cases { gateway with active := none } failure
              active.transport with retried | ⟨-, ended⟩
            · exact .inl retried
            · exact .inr ended
          | response bytes identities =>
            refine .inr ?_
            dsimp only
            split
            next => rfl
            next => rfl
  · unfold complete
    rw [ensureCurrentPolicy_of_stale current]
    exact .inl ⟨_, rfl, .inr rfl⟩

/-- What holds of a gateway at every point of a run. -/
structure Sound (gateway : Gateway) : Prop where
  plan_eq : gateway.plan = transportPlan gateway.policy.config
  sequence_eq : gateway.sequence = gateway.nextCandidate
  nextCandidate_le : gateway.nextCandidate ≤ gateway.plan.length
  timeout_le : gateway.limits.attemptTimeoutSeconds ≤ 300
  running : gateway.active.isSome → gateway.terminal = false

theorem Sound.new {instances : Nat} {limits : GatewayLimits}
    (created : (new instances policy limits).1 = .ok gateway) : gateway.Sound := by
  unfold Gateway.new GatewayLimits.validate at created
  split_ifs at created with invalid
  dsimp only at created
  split at created
  next => cases created
  next next_eq =>
    obtain rfl := Except.ok.inj created
    constructor
    · rfl
    · rfl
    · exact Nat.zero_le _
    · simp only [not_or] at invalid
      exact Nat.le_of_not_lt invalid.2.1
    · simp

theorem Sound.revoke (sound : gateway.Sound) : gateway.revoke.Sound where
  plan_eq := sound.plan_eq
  sequence_eq := sound.sequence_eq
  nextCandidate_le := sound.nextCandidate_le
  timeout_le := sound.timeout_le
  running active := by simp [Gateway.revoke] at active

theorem Sound.settle (sound : gateway.Sound) (terminal : Bool) :
    Sound { gateway with active := none, terminal } where
  plan_eq := sound.plan_eq
  sequence_eq := sound.sequence_eq
  nextCandidate_le := sound.nextCandidate_le
  timeout_le := sound.timeout_le
  running active := by simp at active

/-- Every call keeps a gateway sound. -/
theorem Sound.apply (sound : gateway.Sound) (call : Call) : (gateway.apply call).Sound := by
  cases call with
  | revoke => exact sound.revoke
  | nextAttempt policy now =>
    change (gateway.nextAttempt policy now).2.Sound
    rcases nextAttempt_cases gateway policy now with
      ⟨error, -, same | revoked⟩ | ⟨transport, deadline, running, -, candidate_eq, attempt, -, -,
        -, issued⟩
    · rwa [same]
    · rw [revoked]
      exact sound.revoke
    · rw [issued]
      constructor
      · exact sound.plan_eq
      · exact congrArg (· + 1) sound.sequence_eq
      · exact (List.getElem?_eq_some_iff.mp candidate_eq).1
      · exact sound.timeout_le
      · exact fun _ => running
  | complete policy attempt outcome now =>
    change (gateway.complete policy attempt outcome now).2.Sound
    rcases complete_cases gateway policy attempt outcome now with
      ⟨error, -, same | revoked⟩ | ⟨-, ⟨retried, -⟩ | ended⟩
    · rwa [same]
    · rw [revoked]
      exact sound.revoke
    · rw [retried]
      exact sound.settle gateway.terminal
    · rw [ended]
      exact sound.settle true

/-- A gateway whose resolution is over. -/
def Ended (gateway : Gateway) : Prop :=
  gateway.terminal = true ∧ gateway.active = none

/-- After the end every call is refused or revokes, and the end stays. -/
theorem Ended.apply (ended : gateway.Ended) (call : Call) :
    (gateway.apply call).Ended ∧
      ((∃ error, gateway.reply call = .refused error) ∨ gateway.reply call = .revoked) := by
  cases call with
  | revoke => exact ⟨⟨rfl, rfl⟩, .inr rfl⟩
  | nextAttempt policy now =>
    rcases nextAttempt_cases gateway policy now with
      ⟨error, refused, after⟩ | ⟨transport, deadline, running, -⟩
    · refine ⟨?_, .inl ⟨error, by simp [reply, refused]⟩⟩
      change (gateway.nextAttempt policy now).2.Ended
      rcases after with same | revoked
      · rwa [same]
      · rw [revoked]
        exact ⟨rfl, rfl⟩
    · rw [ended.1] at running
      cases running
  | complete policy attempt outcome now =>
    rcases complete_cases gateway policy attempt outcome now with
      ⟨error, refused, after⟩ | ⟨active_eq, -⟩
    · refine ⟨?_, .inl ⟨error, by simp [reply, refused]⟩⟩
      change (gateway.complete policy attempt outcome now).2.Ended
      rcases after with same | revoked
      · rwa [same]
      · rw [revoked]
        exact ⟨rfl, rfl⟩
    · rw [ended.2] at active_eq
      cases active_eq

end Gateway

/-- A failure that must not be followed by another path. -/
def IsTerminalFailure (failure : TransportFailure) (transport : ResolutionTransport) : Prop :=
  failure = .malformed ∨ failure = .authenticationFailed ∨ failure = .cancelled ∨
    failure = .truncated ∧ transport ≠ .directAuthoritativeUdp

theorem isTerminalFailure_iff (failure : TransportFailure) (transport : ResolutionTransport) :
    IsTerminalFailure failure transport ↔ failure.permitsFallbackFrom transport = false := by
  unfold IsTerminalFailure TransportFailure.permitsFallbackFrom
  cases failure <;> cases transport <;> simp

/-- From here on no attempt is issued and no selection is returned. -/
def FailsClosed (gateway : Gateway) : Prop :=
  ∀ later call, (∀ attempt, (runFrom Gateway.apply gateway later).reply call ≠ .attempt attempt) ∧
      ∀ selection, (runFrom Gateway.apply gateway later).reply call ≠ .step (.selected selection)

theorem Gateway.Ended.failsClosed {gateway : Gateway} (ended : gateway.Ended) :
    FailsClosed gateway := by
  intro later call
  have preserved : ∀ (gateway : Gateway) (call : Call), gateway.Ended →
      (gateway.apply call).Ended :=
    fun _ call ended => (ended.apply call).1
  have stays : (runFrom Gateway.apply gateway later).Ended :=
    runFrom_invariant preserved ended later
  rcases (stays.apply call).2 with ⟨error, refused⟩ | revoked
  · simp [refused]
  · simp [revoked]

/-- A gateway that is idle before its last candidate issues another attempt. -/
theorem Gateway.Sound.not_failsClosed {gateway : Gateway} (sound : gateway.Sound)
    (running : gateway.terminal = false) (idle : gateway.active = none)
    (remaining : gateway.nextCandidate < gateway.plan.length) : ¬ FailsClosed gateway := by
  intro closed
  have short : gateway.plan.length ≤ 6 := by
    rw [sound.plan_eq]
    exact length_transportPlan_le _
  have current : gateway.IsCurrent gateway.policy := ⟨rfl, rfl⟩
  have sequence_eq : checkedAdd gateway.sequence 1 = some (gateway.sequence + 1) := by
    rw [checkedAdd_eq_some_iff, sound.sequence_eq]
    exact ⟨rfl, by rw [u64Max]; omega⟩
  have deadline_eq : checkedAdd 0 gateway.limits.attemptTimeoutSeconds =
      some (0 + gateway.limits.attemptTimeoutSeconds) := by
    have bound := sound.timeout_le
    rw [checkedAdd_eq_some_iff]
    exact ⟨rfl, by rw [u64Max]; omega⟩
  apply (closed [] (.nextAttempt gateway.policy 0)).1
  simp only [runFrom_nil, Gateway.reply, Gateway.nextAttempt,
    Gateway.ensureCurrentPolicy_of_current current, running, idle,
    List.getElem?_eq_getElem remaining, sequence_eq, deadline_eq]
  rfl

/-- Completing the active attempt with a terminal failure fails closed exactly when the
completion is on time or no candidate is left. -/
theorem failsClosed_complete_iff {instances : Nat} {policy : PolicySnapshot}
    {limits : GatewayLimits} {start : Gateway}
    (created : (Gateway.new instances policy limits).1 = .ok start) (calls : List Call)
    {current : PolicySnapshot} {attempt : GatewayAttempt} {failure : TransportFailure}
    (isCurrent : (runFrom Gateway.apply start calls).IsCurrent current)
    (active_eq : (runFrom Gateway.apply start calls).active = some attempt)
    (isTerminal : IsTerminalFailure failure attempt.transport) (now : Nat) :
    (∀ selection, (runFrom Gateway.apply start calls).reply
        (.complete current attempt (.failure failure) now) ≠ .step (.selected selection)) ∧
      (FailsClosed ((runFrom Gateway.apply start calls).apply
          (.complete current attempt (.failure failure) now)) ↔
        now ≤ attempt.deadline ∨
          (runFrom Gateway.apply start calls).plan.length ≤
            (runFrom Gateway.apply start calls).nextCandidate) := by
  have preserved : ∀ (gateway : Gateway) (call : Call), gateway.Sound →
      (gateway.apply call).Sound :=
    fun _ call sound => sound.apply call
  have sound : (runFrom Gateway.apply start calls).Sound :=
    runFrom_invariant preserved (Gateway.Sound.new created) calls
  generalize runFrom Gateway.apply start calls = gateway at *
  have running : gateway.terminal = false := sound.running (by simp [active_eq])
  rw [isTerminalFailure_iff] at isTerminal
  simp only [Gateway.apply, Gateway.reply, Gateway.complete_of_current isCurrent active_eq]
  by_cases late : attempt.deadline < now
  · by_cases remaining : gateway.nextCandidate < gateway.plan.length
    · have retried : Gateway.retryOrUnavailable { gateway with active := none } .timeout
          attempt.transport = (.ok .retryAvailable, { gateway with active := none }) := by
        simp [Gateway.retryOrUnavailable, TransportFailure.permitsFallbackFrom, remaining]
      have reopened : ¬ FailsClosed { gateway with active := none } :=
        Gateway.Sound.not_failsClosed (sound.settle gateway.terminal) running rfl remaining
      rw [if_pos late, retried]
      refine ⟨by simp, fun closed => absurd closed reopened, ?_⟩
      rintro (onTime | exhausted)
      · omega
      · omega
    · have ended : Gateway.retryOrUnavailable { gateway with active := none } .timeout
          attempt.transport =
            (.ok .unavailable, { gateway with active := none, terminal := true }) := by
        simp [Gateway.retryOrUnavailable, TransportFailure.permitsFallbackFrom, remaining]
      rw [if_pos late, ended]
      exact ⟨by simp, fun _ => .inr (Nat.not_lt.mp remaining),
        fun _ => Gateway.Ended.failsClosed ⟨rfl, rfl⟩⟩
  · have ended : Gateway.retryOrUnavailable { gateway with active := none } failure
        attempt.transport = (.error (.terminalTransportFailure failure),
          { gateway with active := none, terminal := true }) := by
      simp [Gateway.retryOrUnavailable, isTerminal]
    rw [if_neg late, ended]
    exact ⟨by simp, fun _ => .inl (Nat.not_lt.mp late),
      fun _ => Gateway.Ended.failsClosed ⟨rfl, rfl⟩⟩

/-! A first attempt over direct UDP at time 100, whose deadline is 110. -/

namespace ExampleResolution

def gateway : Gateway where
  instanceId := 1
  limits := .default
  policy := .default
  plan := transportPlan .default
  nextCandidate := 0
  sequence := 0
  active := none
  terminal := false
  odohAttempted := false

def attempt : GatewayAttempt where
  instanceId := 1
  policyGeneration := 1
  sequence := 1
  candidateIndex := 0
  transport := .directAuthoritativeUdp
  deadline := 110

def calls : List Call :=
  [.nextAttempt .default 100]

def completion (now : Nat) : Call :=
  .complete .default attempt (.failure .malformed) now

theorem failsClosed_on_time :
    FailsClosed ((runFrom Gateway.apply gateway calls).apply (completion 110)) := by
  have created : (Gateway.new 1 .default .default).1 = .ok gateway := by decide
  have active_eq : (runFrom Gateway.apply gateway calls).active = some attempt := by decide
  have closed_iff := (failsClosed_complete_iff created calls ⟨rfl, rfl⟩ active_eq
    (.inl rfl : IsTerminalFailure .malformed attempt.transport) 110).2
  exact closed_iff.mpr (.inl (Nat.le_refl 110))

/-- A malformed response that is reported a second after the deadline lets the gateway
go on to direct TCP. -/
theorem not_failsClosed_late :
    (Gateway.new 1 .default .default).1 = .ok gateway ∧
      (runFrom Gateway.apply gateway calls).active = some attempt ∧
      ¬ FailsClosed ((runFrom Gateway.apply gateway calls).apply (completion 111)) := by
  refine ⟨by decide, by decide, fun closed => ?_⟩
  apply (closed [] (.nextAttempt .default 111)).1
    { attempt with
      sequence := 2, candidateIndex := 1, transport := .directAuthoritativeTcp, deadline := 121 }
  decide

end ExampleResolution

end HnsDaneEngine.Transport
