import HnsDaneEngine.Engine.Calls

/-!
# What every call does to the state

A call is composed of a few elementary changes.  A preorder that contains these holds
between the states before and after every call.
-/

namespace HnsDaneEngine.Engine

open Browser.Runtime Control NamespaceResolution Policy

/-- A preorder that contains every elementary change of the state. -/
structure ContainsSteps (relation : EngineState → EngineState → Prop) : Prop where
  refl : ∀ state, relation state state
  trans : ∀ {first second third}, relation first second → relation second third →
    relation first third
  admitEvent : admitEvent.Steps relation
  transition : ∀ next, (transition next).Steps relation
  policyChanged : policyChanged.Steps relation
  evidence : ∀ provenance evidence, (setEvidence provenance evidence).Steps relation
  policy : ∀ policy,
    (Effect.modify fun state => { state with policy } : EngineM Unit).Steps relation

namespace ContainsSteps

variable {relation : EngineState → EngineState → Prop} (contains : ContainsSteps relation)
include contains

theorem same {α : Type} {call : EngineM α}
    (same : ∀ state, (call state).2 = state := by intros; rfl) : call.Steps relation :=
  Effect.Steps.of_same contains.refl same

theorem bind {α β : Type} {first : EngineM α} {next : α → EngineM β}
    (firstSteps : first.Steps relation) (nextSteps : ∀ value, (next value).Steps relation) :
    (first >>= next : EngineM β).Steps relation :=
  @Effect.Steps.bind _ _ _ _ _ _ relation contains.trans firstSteps nextSteps

/-- A part that only reads, in front of a call. -/
theorem after {α β : Type} {first : EngineM α} {next : α → EngineM β}
    (nextSteps : ∀ value, (next value).Steps relation)
    (same : ∀ state, (first state).2 = state := by intros; rfl) :
    (first >>= next : EngineM β).Steps relation :=
  contains.bind (contains.same same) nextSteps

theorem guard {α : Type} {condition : Prop} [Decidable condition] {error : EngineError}
    {call : EngineM α} (steps : call.Steps relation) :
    (if condition then Effect.throw error else call : EngineM α).Steps relation :=
  .ite contains.same steps

/-- A part in front of a value that is read off. -/
theorem before {α β : Type} {first : EngineM α} {next : α → EngineM β}
    (firstSteps : first.Steps relation)
    (same : ∀ value state, (next value state).2 = state := by intros; rfl) :
    (first >>= next : EngineM β).Steps relation :=
  contains.bind firstSteps fun value => contains.same (same value)

theorem forgetEvidence (next : AuthorityState) : (forgetEvidence next).Steps relation := by
  cases next with
  | degraded => exact contains.evidence _ _
  | revoked => exact contains.evidence _ _
  | stopped => exact contains.evidence _ _
  | _ => exact contains.same

theorem transitionOrAdmit (start next : AuthorityState) :
    (transitionOrAdmit start next).Steps relation :=
  contains.after fun _ => .ite (contains.before (contains.transition next))
    (contains.before contains.admitEvent)

theorem readyBridge : readyBridge.Steps relation :=
  contains.after fun _ => .ite (contains.before (contains.transition _)) contains.same

theorem updatePolicy (expected : Nat) (next : PolicyConfig) :
    (updatePolicy expected next).Steps relation :=
  contains.after fun _ => contains.after fun _ => contains.after fun replaced =>
    contains.bind (contains.policy replaced.2) fun _ =>
      .ite (contains.bind contains.policyChanged fun _ =>
        contains.before (contains.evidence _ _)) contains.same

theorem completeResolution (attempt : ResolutionAttempt) (response : ParsedResponse)
    (evidence : ValidationEvidence) (context : CompletionContext) :
    (completeResolution attempt response evidence context).Steps relation :=
  contains.after fun _ => contains.after fun _ => contains.after fun _ => contains.guard <|
    contains.bind (contains.transitionOrAdmit _ _) fun _ => contains.after fun _ =>
    contains.after fun _ => contains.before (contains.evidence _ _)

theorem perform (crypto : LocalCrypto) (call : Call) : (perform crypto call).Steps relation := by
  cases call with
  | advanceAuthorityState next =>
    exact contains.before (contains.bind (contains.transition next) fun _ =>
      contains.before (contains.forgetEvidence next))
  | updatePolicy expected next =>
    exact contains.before (contains.updatePolicy expected next)
  | admitResolution transport query =>
    exact contains.before (contains.after fun _ => contains.guard <| contains.after fun _ =>
      contains.before contains.admitEvent)
  | admitGatewaySelection selection query limits =>
    exact contains.before (contains.after fun _ => contains.after fun _ =>
      contains.after fun _ => contains.after fun _ => contains.guard <| contains.guard <|
        contains.after fun _ =>
      contains.before contains.admitEvent)
  | parseResponse attempt response limits =>
    exact contains.before (contains.after fun _ => contains.after fun _ =>
      contains.after fun _ => contains.after fun _ => contains.same)
  | completeResolutionWithLocalDane attempt response prerequisites certificate limits context =>
    exact contains.before (contains.guard <| contains.guard <| contains.guard <|
      contains.guard <| contains.after fun _ => contains.before (contains.completeResolution _ _ _ _))
  | completeResolutionWithValidatedTlsa attempt response input context =>
    exact contains.before (contains.after fun _ => contains.after fun _ =>
      contains.after fun _ => contains.guard <| contains.before (contains.completeResolution _ _ _ _))
  | authorizeBrowserBridge completion now =>
    exact contains.before (contains.after fun _ => contains.after fun _ => contains.guard <|
      contains.guard <| contains.bind (contains.transitionOrAdmit _ _) fun _ => contains.same)
  | bindUnauthenticatedOriginContext decision now =>
    exact contains.before contains.same
  | beginIcannBinding decision now =>
    exact contains.before (contains.after fun _ => contains.after fun _ => contains.guard <|
      contains.before contains.admitEvent)
  | finishIcannBinding decision request authentication? now =>
    exact contains.before (contains.after fun _ => contains.after fun _ => contains.guard <|
      contains.before contains.admitEvent)
  | bindHnsOriginContext decision completion now =>
    exact contains.before (contains.after fun _ => contains.guard <| contains.after fun _ =>
      contains.guard <| contains.guard <| contains.bind contains.readyBridge fun _ =>
      contains.before contains.admitEvent)
  | authorizeProviderInjection decision context now =>
    exact contains.before contains.same
  | revalidateProviderAuthority decision authority now =>
    exact contains.before contains.same
  | providerAuthorityIsCurrent authority now =>
    exact contains.before contains.same

end ContainsSteps

end HnsDaneEngine.Engine
