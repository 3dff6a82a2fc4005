import HnsDaneEngine.Engine.Provider

/-!
# One call on the engine

Every call on the engine as a value, and what the calls on its runtime can do.
-/

namespace HnsDaneEngine.Engine

open Browser.Runtime Control NamespaceResolution Policy Primitives
open Transport (GatewaySelection)

variable (crypto : LocalCrypto)

/-- A call.  Binding an ICANN decision is two of them. -/
inductive Call
  | advanceAuthorityState (next : AuthorityState)
  | updatePolicy (expectedPolicyGeneration : Nat) (next : PolicyConfig)
  | admitResolution (transport : ResolutionTransport) (query : Wire.Query)
  | admitGatewaySelection (selection : GatewaySelection) (query : Wire.Query)
      (limits : Wire.ParseLimits)
  | parseResponse (attempt : ResolutionAttempt) (response : Octets) (limits : Wire.ParseLimits)
  | completeResolutionWithLocalDane (attempt : ResolutionAttempt) (response : ParsedResponse)
      (prerequisites : LocalDanePrerequisites) (certificateDer : Octets) (limits : DaneLimits)
      (context : CompletionContext)
  | completeResolutionWithValidatedTlsa (attempt : ResolutionAttempt) (response : ParsedResponse)
      (input : ValidatedDaneInput) (context : CompletionContext)
  | authorizeBrowserBridge (completion : DaneCompletion) (now : Nat)
  | bindUnauthenticatedOriginContext (decision : NamespaceDecision) (now : Nat)
  | beginIcannBinding (decision : NamespaceDecision) (now : Nat)
  | finishIcannBinding (decision : NamespaceDecision) (request : IcannOriginAuthenticationRequest)
      (authentication? : Option IcannOriginAuthentication) (now : Nat)
  | bindHnsOriginContext (decision : NamespaceDecision) (completion : DaneCompletion) (now : Nat)
  | authorizeProviderInjection (decision : NamespaceDecision)
      (context : AuthenticatedOriginContext) (now : Nat)
  | revalidateProviderAuthority (decision : NamespaceDecision)
      (authority : ProviderAuthorityContext) (now : Nat)
  | providerAuthorityIsCurrent (authority : ProviderAuthorityContext) (now : Nat)

/-- What a call returns. -/
inductive Reply
  | snapshot (snapshot : EngineSnapshot)
  | policy (change : PolicyTransition)
  | attempt (attempt : ResolutionAttempt)
  | gateway (resolution : GatewayResolution)
  | response (response : ParsedResponse)
  | completion (completion : DaneCompletion)
  | bridge (authorization : BrowserBridgeAuthorization)
  | context (context : AuthenticatedOriginContext)
  | request (request : IcannOriginAuthenticationRequest)
  | outcome (outcome : ProviderAuthorityOutcome)
  | current (isCurrent : Bool)

/-- The value of a call, as a reply. -/
def replying {α : Type} (wrap : α → Reply) (call : EngineM α) : EngineM Reply := do
  let value ← call
  return wrap value

def perform : Call → EngineM Reply
  | .advanceAuthorityState next => replying .snapshot (advanceAuthorityState next)
  | .updatePolicy expected next => replying .policy (updatePolicy expected next)
  | .admitResolution transport query => replying .attempt (admitResolution transport query)
  | .admitGatewaySelection selection query limits =>
    replying .gateway (admitGatewaySelection selection query limits)
  | .parseResponse attempt response limits =>
    replying .response (parseResponse attempt response limits)
  | .completeResolutionWithLocalDane attempt response prerequisites certificate limits context =>
    replying .completion (completeResolutionWithLocalDane crypto attempt response prerequisites
      certificate limits context)
  | .completeResolutionWithValidatedTlsa attempt response input context =>
    replying .completion (completeResolutionWithValidatedTlsa crypto attempt response input context)
  | .authorizeBrowserBridge completion now =>
    replying .bridge (authorizeBrowserBridge completion now)
  | .bindUnauthenticatedOriginContext decision now =>
    replying .context (bindUnauthenticatedOriginContext crypto decision now)
  | .beginIcannBinding decision now => replying .request (beginIcannBinding crypto decision now)
  | .finishIcannBinding decision request authentication? now =>
    replying .context (finishIcannBinding crypto decision request authentication? now)
  | .bindHnsOriginContext decision completion now =>
    replying .context (bindHnsOriginContext crypto decision completion now)
  | .authorizeProviderInjection decision context now =>
    replying .outcome (authorizeProviderInjection crypto decision context now)
  | .revalidateProviderAuthority decision authority now =>
    replying .outcome (revalidateProviderAuthority crypto decision authority now)
  | .providerAuthorityIsCurrent authority now =>
    replying .current (providerAuthorityIsCurrent authority now)

/-- The state that a call leaves behind, whatever it returns. -/
def apply (state : EngineState) (call : Call) : EngineState :=
  (perform crypto call state).2

/-- What a call returns. -/
def reply (state : EngineState) (call : Call) : Except EngineError Reply :=
  (perform crypto call state).1

/-- A reply is the value of the call. -/
theorem replying_eq_ok_iff {α : Type} {wrap : α → Reply} {call : EngineM α} {state : EngineState}
    {value : Reply} :
    (replying wrap call state).1 = .ok value ↔
      ∃ returned, (call state).1 = .ok returned ∧ wrap returned = value := by
  unfold replying
  rcases call_eq : call state with ⟨result, final⟩
  cases result with
  | error error =>
    rw [Effect.bind_error call_eq]
    simp
  | ok returned =>
    rw [Effect.bind_ok call_eq]
    simp [pure, Effect.pure]

theorem snd_replying {α : Type} {wrap : α → Reply} {call : EngineM α} (state : EngineState) :
    (replying wrap call state).2 = (call state).2 :=
  Effect.snd_bind_of_same (fun _ _ => rfl) state

theorem checkedAdd_eq_none_iff {first second : Nat} :
    checkedAdd first second = none ↔ u64Max < first + second := by
  rw [checkedAdd, ite_eq_right_iff]
  simp

section

variable {α : Type} {call : BrowserRuntime → Except RuntimeError α × BrowserRuntime}
  {state : EngineState}

theorem onRuntime_ok {value : α} {runtime : BrowserRuntime}
    (called : call state.runtime = (.ok value, runtime)) :
    onRuntime call state = (.ok value, { state with runtime }) := by
  rw [onRuntime, called]
  rfl

theorem onRuntime_error {error : RuntimeError}
    (called : call state.runtime = (.error error, state.runtime)) :
    onRuntime call state = (.error (mapRuntimeError error), state) := by
  rw [onRuntime, called]
  rfl

end

/-- A transition is refused and changes nothing, or it is a valid one that advances the
event sequence.  A valid one is refused only without room for the event. -/
theorem transition_cases (next : AuthorityState) (state : EngineState) :
    (∃ error, transition next state = (.error error, state) ∧
        (validAuthorityTransition state.runtime.authorityState next = true →
          u64Max < state.runtime.eventSequence + 1)) ∨
      state.runtime.eventSequence + 1 ≤ u64Max ∧
        validAuthorityTransition state.runtime.authorityState next = true ∧
        ∃ snapshot, transition next state = (.ok snapshot,
          { state with
            runtime :=
              { state.runtime with
                eventSequence := state.runtime.eventSequence + 1
                invalidationSequence :=
                  if invalidatesWork next then state.runtime.eventSequence + 1
                  else state.runtime.invalidationSequence
                authorityState := next } }) := by
  by_cases valid : validAuthorityTransition state.runtime.authorityState next = true
  · cases advanced : checkedAdd state.runtime.eventSequence 1 with
    | none =>
      have called : state.runtime.transition next = (.error .counterExhausted, state.runtime) := by
        simp [BrowserRuntime.transition, valid, advanced]
      exact .inl ⟨_, onRuntime_error called, fun _ => checkedAdd_eq_none_iff.mp advanced⟩
    | some eventSequence =>
      rcases checkedAdd_eq_some_iff.mp advanced with ⟨rfl, fits⟩
      have called := show state.runtime.transition next = (.ok _, _) by
        rw [BrowserRuntime.transition, valid, advanced]
        rfl
      exact .inr ⟨fits, valid, _, onRuntime_ok called⟩
  · have called : state.runtime.transition next =
        (.error .invalidAuthorityTransition, state.runtime) := by
      simp [BrowserRuntime.transition, valid]
    exact .inl ⟨_, onRuntime_error called, fun isValid => absurd isValid valid⟩

/-- An event is refused and changes nothing, or it advances the event sequence of a state
that admits work.  There it is refused only without room for the event. -/
theorem admitEvent_cases (state : EngineState) :
    (∃ error, admitEvent state = (.error error, state) ∧
        (authorityAdmitsWork state.runtime.authorityState = true →
          u64Max < state.runtime.eventSequence + 1)) ∨
      state.runtime.eventSequence + 1 ≤ u64Max ∧
        authorityAdmitsWork state.runtime.authorityState = true ∧
        admitEvent state =
          (.ok ⟨state.runtime.session, state.runtime.generation, state.runtime.eventSequence + 1⟩,
            { state with
              runtime :=
                { state.runtime with eventSequence := state.runtime.eventSequence + 1 } }) := by
  by_cases stopped : state.runtime.authorityState = .stopped
  · have called : state.runtime.admitEvent = (.error .stopped, state.runtime) := by
      simp [BrowserRuntime.admitEvent, stopped]
    refine .inl ⟨_, onRuntime_error called, fun ready => ?_⟩
    rw [stopped] at ready
    cases ready
  by_cases ready : authorityAdmitsWork state.runtime.authorityState = true
  · cases advanced : checkedAdd state.runtime.eventSequence 1 with
    | none =>
      have called : state.runtime.admitEvent = (.error .counterExhausted, state.runtime) := by
        simp [BrowserRuntime.admitEvent, stopped, ready, advanced]
      exact .inl ⟨_, onRuntime_error called, fun _ => checkedAdd_eq_none_iff.mp advanced⟩
    | some eventSequence =>
      rcases checkedAdd_eq_some_iff.mp advanced with ⟨rfl, fits⟩
      have called := show state.runtime.admitEvent = (.ok _, _) by
        simp only [BrowserRuntime.admitEvent, stopped, ready, advanced]
        rfl
      exact .inr ⟨fits, ready, onRuntime_ok called⟩
  · have called : state.runtime.admitEvent = (.error .authorityNotReady, state.runtime) := by
      simp [BrowserRuntime.admitEvent, stopped, ready]
    exact .inl ⟨_, onRuntime_error called, fun isReady => absurd isReady ready⟩

end HnsDaneEngine.Engine
