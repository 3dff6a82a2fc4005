import HnsDaneEngine.Engine.Failure
import HnsDaneEngine.Engine.Steps

/-!
# Grants and security epochs

An authority descends from a context that a binding minted in the same run.  As long
as the engine accepts it, nothing has invalidated work since that binding; and its
lifetime lies within everything that it was granted on.
-/

namespace HnsDaneEngine.Engine

open Browser.Runtime Control NamespaceResolution Policy Primitives

variable {crypto : LocalCrypto} {start state : EngineState}

/-! ## Events and invalidations -/

/-- The session stays, events are only added, and an invalidation moves past every
earlier event. -/
structure Forward (before after : EngineState) : Prop where
  session_eq : after.runtime.session = before.runtime.session
  sequence_le : before.runtime.eventSequence ≤ after.runtime.eventSequence
  invalidation : after.runtime.invalidationSequence = before.runtime.invalidationSequence ∨
    before.runtime.eventSequence ≤ after.runtime.invalidationSequence

namespace Forward

theorem refl (state : EngineState) : Forward state state :=
  ⟨rfl, Nat.le_refl _, .inl rfl⟩

theorem trans {first second third : EngineState} (earlier : Forward first second)
    (later : Forward second third) : Forward first third where
  session_eq := later.session_eq.trans earlier.session_eq
  sequence_le := earlier.sequence_le.trans later.sequence_le
  invalidation := by
    rcases later.invalidation with same | passed
    · rw [same]
      exact earlier.invalidation
    · exact .inr (earlier.sequence_le.trans passed)

/-- An event that has been overtaken stays so. -/
theorem overtaken {before after : EngineState} (forward : Forward before after) {sequence : Nat}
    (sequence_le : sequence ≤ before.runtime.eventSequence)
    (past : sequence ≤ before.runtime.invalidationSequence) :
    sequence ≤ after.runtime.invalidationSequence := by
  rcases forward.invalidation with same | passed
  · rw [same]
    exact past
  · exact sequence_le.trans passed

theorem admitEvent : Engine.admitEvent.Steps Forward := by
  intro state
  rcases admitEvent_cases state with ⟨error, refused, -⟩ | ⟨-, -, returned⟩
  · rw [refused]
    exact refl state
  · rw [returned]
    exact ⟨rfl, Nat.le_succ _, .inl rfl⟩

theorem transition (next : AuthorityState) : (Engine.transition next).Steps Forward := by
  intro state
  rcases transition_cases next state with ⟨error, refused, -⟩ | ⟨-, -, snapshot, returned⟩
  · rw [refused]
    exact refl state
  · rw [returned]
    refine ⟨rfl, Nat.le_succ _, ?_⟩
    by_cases invalid : invalidatesWork next = true
    · exact .inr (by simp [invalid])
    · exact .inl (by simp [invalid])

theorem policyChanged : Engine.policyChanged.Steps Forward := by
  intro state
  cases room : state.runtime.ensurePolicyChangeCapacity with
  | error error =>
    have called : state.runtime.policyChanged = (.error error, state.runtime) := by
      rw [BrowserRuntime.policyChanged, room]
    have refused : Engine.policyChanged state = (.error (mapRuntimeError error), state) :=
      onRuntime_error called
    rw [refused]
    exact refl state
  | ok =>
    rcases policyChanged_eq_ok room with
      ⟨snapshot, runtime, returned, invalidation_eq, sequence_eq, session_eq⟩
    rw [returned]
    refine ⟨session_eq, ?_, .inr ?_⟩
    · exact sequence_eq ▸ Nat.le_succ _
    · exact invalidation_eq ▸ Nat.le_succ _

theorem containsSteps : ContainsSteps Forward where
  refl := refl
  trans := trans
  admitEvent := admitEvent
  transition := transition
  policyChanged := policyChanged
  evidence := fun _ _ _ => ⟨rfl, Nat.le_refl _, .inl rfl⟩
  policy := fun _ _ => ⟨rfl, Nat.le_refl _, .inl rfl⟩

theorem apply (crypto : LocalCrypto) (state : EngineState) (call : Call) :
    Forward state (apply crypto state call) :=
  containsSteps.perform crypto call state

theorem run (crypto : LocalCrypto) (state : EngineState) (calls : List Call) :
    Forward state (run crypto state calls) := by
  have preserved : ∀ middle call, Forward state middle →
      Forward state (Engine.apply crypto middle call) :=
    fun middle call forward => forward.trans (apply crypto middle call)
  exact runFrom_invariant preserved (refl state) calls

end Forward

/-- A change of the policy, or a transition into Degraded, Revoked or Stopped, that
succeeds. -/
inductive Invalidates (state : EngineState) : Call → Prop
  | policy {expected : Nat} {next : PolicyConfig} {change : PolicyTransition}
      (returned : (updatePolicy expected next state).1 = .ok change)
      (changed : change.changed = true) : Invalidates state (.updatePolicy expected next)
  | authority {next : AuthorityState} {snapshot : EngineSnapshot}
      (returned : (advanceAuthorityState next state).1 = .ok snapshot)
      (invalid : invalidatesWork next = true) : Invalidates state (.advanceAuthorityState next)

theorem snd_advanceAuthorityState_runtime (next : AuthorityState) (state : EngineState) :
    (advanceAuthorityState next state).2.runtime = (transition next state).2.runtime := by
  unfold advanceAuthorityState
  rcases moved : transition next state with ⟨result, middle⟩
  cases result with
  | error error => rw [Effect.bind_error moved]
  | ok snapshot =>
    rw [Effect.bind_ok moved]
    cases next <;> rfl

/-- An invalidation overtakes every event before it. -/
theorem Invalidates.overtakes {call : Call} (invalidates : Invalidates state call) :
    state.runtime.eventSequence ≤ (apply crypto state call).runtime.invalidationSequence := by
  cases invalidates with
  | @policy expected next change returned changed =>
    rw [apply, perform, snd_replying]
    rcases updatePolicy_cases expected next state with
      ⟨error, refused⟩ | ⟨other, unchanged, same⟩ |
        ⟨other, runtime, policy, -, replaced, invalidation_eq, -⟩
    · rw [refused] at returned
      cases returned
    · rw [same] at returned
      cases returned
      rw [unchanged] at changed
      cases changed
    · rw [replaced]
      exact invalidation_eq ▸ Nat.le_succ _
  | @authority next snapshot returned invalid =>
    rw [apply, perform, snd_replying, snd_advanceAuthorityState_runtime]
    rcases transition_cases next state with ⟨error, refused, -⟩ | ⟨-, -, moving, moved⟩
    · have failed : advanceAuthorityState next state = (.error error, state) :=
        Effect.bind_error refused
      rw [failed] at returned
      cases returned
    · rw [moved]
      simp [invalid]

/-! ## Minted contexts -/

/-- The time is within the lifetime of a context. -/
def AuthenticatedOriginContext.Lives (context : AuthenticatedOriginContext) (time : Nat) : Prop :=
  context.validFrom ≤ time ∧ time < context.validUntil

/-- The time is within the validity of a completion. -/
def DaneCompletion.ValidAt (completion : DaneCompletion) (time : Nat) : Prop :=
  ∃ validFrom validUntil, completion.bridgeValidFrom = some validFrom ∧
    completion.bridgeValidUntil = some validUntil ∧ validFrom ≤ time ∧ time ≤ validUntil

/-- A call that binds a decision in a context. -/
inductive Mints (crypto : LocalCrypto) (state : EngineState) :
    Call → NamespaceDecision → AuthenticatedOriginContext → Prop
  | hns {decision : NamespaceDecision} {completion : DaneCompletion} {now : Nat}
      {context : AuthenticatedOriginContext}
      (returned : (bindHnsOriginContext crypto decision completion now state).1 = .ok context) :
      Mints crypto state (.bindHnsOriginContext decision completion now) decision context
  | icann {decision : NamespaceDecision} {request : IcannOriginAuthenticationRequest}
      {authentication? : Option IcannOriginAuthentication} {now : Nat}
      {context : AuthenticatedOriginContext}
      (returned : (finishIcannBinding crypto decision request authentication? now state).1 =
        .ok context) :
      Mints crypto state (.finishIcannBinding decision request authentication? now) decision context

/-- What a binding vouches for at a time: an HNS binding that the completion is valid and
the decision has not expired, an ICANN binding that the decision is fresh. -/
def Vouches : Call → Nat → Prop
  | .bindHnsOriginContext decision completion _, time =>
    completion.ValidAt time ∧ time < decision.expiresAtUnix
  | .finishIcannBinding decision _ _ _, time => decision.isFreshAt time = true
  | _, _ => False

/-- What a minted context carries. -/
structure MintedBy (crypto : LocalCrypto) (state : EngineState) (call : Call)
    (decision : NamespaceDecision) (context : AuthenticatedOriginContext) : Prop where
  fingerprint_eq : context.decisionFingerprint = crypto.decisionFingerprint decision
  stamped : ∃ stamp, context.admissionStamp = some stamp ∧
    stamp.eventSequence = (apply crypto state call).runtime.eventSequence
  vouched : ∀ time, context.Lives time → Vouches call time

variable {decision : NamespaceDecision} {now : Nat} {context : AuthenticatedOriginContext}
  {call : Call} {calls : List Call} {authority : ProviderAuthorityContext}

theorem finishIcannBinding_eq_ok {request : IcannOriginAuthenticationRequest}
    {authentication? : Option IcannOriginAuthentication} {final : EngineState}
    (bound : finishIcannBinding crypto decision request authentication? now state =
      (.ok context, final)) :
    decision.isFreshAt now = true ∧ ∃ stamp status, Stamps state stamp final ∧
      context = stampOriginContext crypto final decision status now decision.expiresAtUnix
        (some stamp) := by
  rcases Effect.of_bind_ok bound with ⟨status, first, checked, rest⟩
  have first_eq : state = first := congrArg Prod.snd checked
  subst first_eq
  rw [Effect.get_bind] at rest
  by_cases wrong : networkMatches state.network decision.hnsNetwork = false ∨
      state.policy.snapshot.generation ≠ request.policyGeneration ∨
      state.runtime.admits request.runtimeStamp = false ∨ decision.isFreshAt now = false
  · rw [if_pos wrong] at rest
    cases rest
  · rw [if_neg wrong] at rest
    rcases Effect.of_bind_ok rest with ⟨stamp, middle, admitted, returned⟩
    cases returned
    rw [not_or, not_or, not_or] at wrong
    exact ⟨(Bool.not_eq_false _).mp wrong.2.2.2, stamp, status, admitEvent_stamps admitted, rfl⟩

/-- Minted contexts carry the stamp of the last event of their binding. -/
theorem Mints.mintedBy (mints : Mints crypto state call decision context) :
    MintedBy crypto state call decision context := by
  cases mints with
  | @hns decision completion now context returned =>
    have bound : bindHnsOriginContext crypto decision completion now state =
        (.ok context, (bindHnsOriginContext crypto decision completion now state).2) :=
      Prod.ext returned rfl
    have after_eq := @snd_replying _ Reply.context
      (bindHnsOriginContext crypto decision completion now) state
    generalize (bindHnsOriginContext crypto decision completion now state).2 = final
      at bound after_eq
    rcases bindHnsOriginContext_cases crypto decision completion now state with
      ⟨error, refused, -⟩ | ⟨binding, bindable, runs⟩
    · rw [refused] at bound
      cases bound
    rw [runs] at bound
    rcases @bindRuntime_cases crypto state decision binding with
      ⟨error, refused, -⟩ | ⟨-, error, middle, refused, -⟩ | ⟨stamp, middle, stamps, minted, -⟩
    · rw [refused] at bound
      cases bound
    · rw [refused] at bound
      cases bound
    rw [minted] at bound
    cases bound
    refine ⟨rfl, ⟨stamp, rfl, ?_⟩, ?_⟩
    · rw [apply, perform, after_eq]
      exact stamps.stamp_sequence_eq
    rintro time ⟨validFrom_le, lt_validUntil⟩
    change time < min _ _ at lt_validUntil
    have lt_validity := (Nat.lt_min.mp lt_validUntil).2.trans_le (Nat.min_le_left _ _)
    exact ⟨⟨binding.validFrom, binding.validUntil, bindable.validFrom_eq,
      bindable.validUntil_eq, validFrom_le, Nat.le_of_lt_succ lt_validity⟩,
      (Nat.lt_min.mp lt_validUntil).1⟩
  | @icann decision request authentication? now context returned =>
    have bound : finishIcannBinding crypto decision request authentication? now state =
        (.ok context, (finishIcannBinding crypto decision request authentication? now state).2) :=
      Prod.ext returned rfl
    have after_eq := @snd_replying _ Reply.context
      (finishIcannBinding crypto decision request authentication? now) state
    generalize (finishIcannBinding crypto decision request authentication? now state).2 = final
      at bound after_eq
    rcases finishIcannBinding_eq_ok bound with ⟨fresh, stamp, status, stamps, rfl⟩
    refine ⟨rfl, ⟨stamp, rfl, ?_⟩, ?_⟩
    · rw [apply, perform, after_eq]
      exact stamps.stamp_sequence_eq
    · rintro time ⟨now_le, lt_expires⟩
      rcases NamespaceOutcome.isFreshAt_iff.mp fresh with ⟨firstSeen, secondSeen, -⟩
      exact NamespaceOutcome.isFreshAt_iff.mpr
        ⟨firstSeen.trans now_le, secondSeen.trans now_le, lt_expires⟩

/-! ## Where authorities come from -/

/-- The engine grants an authority: it authorizes or renews it, or finds it current. -/
inductive Grants (crypto : LocalCrypto) (state : EngineState) :
    Call → ProviderAuthorityContext → Nat → Prop
  | authorized {decision : NamespaceDecision} {context : AuthenticatedOriginContext} {now : Nat}
      {authority : ProviderAuthorityContext}
      (returned : (authorizeProviderInjection crypto decision context now state).1 =
        .ok (.authorized authority)) :
      Grants crypto state (.authorizeProviderInjection decision context now) authority now
  | renewed {decision : NamespaceDecision} {previous authority : ProviderAuthorityContext}
      {now : Nat}
      (returned : (revalidateProviderAuthority crypto decision previous now state).1 =
        .ok (.authorized authority)) :
      Grants crypto state (.revalidateProviderAuthority decision previous now) authority now
  | current {authority : ProviderAuthorityContext} {now : Nat}
      (returned : (providerAuthorityIsCurrent authority now state).1 = .ok true) :
      Grants crypto state (.providerAuthorityIsCurrent authority now) authority now

/-- One of the calls returned the value. -/
def Returned (crypto : LocalCrypto) (start : EngineState) (calls : List Call) (value : Reply) :
    Prop :=
  ∃ earlier call later, calls = earlier ++ call :: later ∧
    reply crypto (run crypto start earlier) call = .ok value

/-- A context or an authority is presented only if the engine returned it earlier, or if it
belongs to another runtime session. -/
def Presented (crypto : LocalCrypto) (start : EngineState) (calls : List Call) : Call → Prop
  | .authorizeProviderInjection _ context _ =>
    Returned crypto start calls (.context context) ∨
      context.runtimeSession ≠ start.runtime.session.bytes
  | .revalidateProviderAuthority _ authority _ =>
    Returned crypto start calls (.outcome (.authorized authority)) ∨
      authority.runtimeSession ≠ start.runtime.session.bytes
  | .providerAuthorityIsCurrent authority _ =>
    Returned crypto start calls (.outcome (.authorized authority)) ∨
      authority.runtimeSession ≠ start.runtime.session.bytes
  | _ => True

/-- A run in which every call presents only what it may. -/
inductive WellPresented (crypto : LocalCrypto) (start : EngineState) : List Call → Prop
  | nil : WellPresented crypto start []
  | concat {calls : List Call} {call : Call} (earlier : WellPresented crypto start calls)
      (presented : Presented crypto start calls call) : WellPresented crypto start (calls ++ [call])

theorem WellPresented.of_concat (presented : WellPresented crypto start (calls ++ [call])) :
    WellPresented crypto start calls ∧ Presented crypto start calls call := by
  generalize all_eq : calls ++ [call] = all at presented
  cases presented with
  | nil => simp at all_eq
  | concat earlier presented =>
    rcases List.append_inj' all_eq rfl with ⟨rfl, call_eq⟩
    obtain rfl := List.singleton_inj.mp call_eq
    exact ⟨earlier, presented⟩

/-- Calls that present nothing. -/
theorem WellPresented.append (earlier : WellPresented crypto start calls) (further : List Call)
    (quiet : ∀ call ∈ further, ∀ past, Presented crypto start past call) :
    WellPresented crypto start (calls ++ further) := by
  induction further generalizing calls with
  | nil =>
    rw [List.append_nil]
    exact earlier
  | cons call further ih =>
    rw [List.forall_mem_cons] at quiet
    have extended := ih (earlier.concat (quiet.1 calls)) quiet.2
    rwa [List.append_assoc] at extended

/-- The authority was authorized from the context by a call of the run, and renewed by
others; with the decisions that these calls were made for. -/
inductive Descends (crypto : LocalCrypto) (start : EngineState) (calls : List Call)
    (context : AuthenticatedOriginContext) :
    List NamespaceDecision → ProviderAuthorityContext → Prop
  | authorized {earlier later : List Call} {decision : NamespaceDecision} {now : Nat}
      {authority : ProviderAuthorityContext}
      (calls_eq : calls = earlier ++ .authorizeProviderInjection decision context now :: later)
      (returned : (authorizeProviderInjection crypto decision context now
        (run crypto start earlier)).1 = .ok (.authorized authority)) :
      Descends crypto start calls context [decision] authority
  | renewed {used : List NamespaceDecision} {previous authority : ProviderAuthorityContext}
      {earlier later : List Call} {decision : NamespaceDecision} {now : Nat}
      (descends : Descends crypto start calls context used previous)
      (calls_eq : calls = earlier ++ .revalidateProviderAuthority decision previous now :: later)
      (returned : (revalidateProviderAuthority crypto decision previous now
        (run crypto start earlier)).1 = .ok (.authorized authority)) :
      Descends crypto start calls context (decision :: used) authority

namespace Descends

variable {used : List NamespaceDecision}

theorem mono (descends : Descends crypto start calls context used authority)
    (further : List Call) : Descends crypto start (calls ++ further) context used authority := by
  induction descends with
  | @authorized earlier later decision now authority calls_eq returned =>
    refine @Descends.authorized _ _ _ _ earlier (later ++ further) decision now authority ?_ returned
    rw [calls_eq, List.append_assoc, List.cons_append]
  | @renewed used previous authority earlier later decision now descends calls_eq returned ih =>
    refine @Descends.renewed _ _ _ _ used previous authority earlier (later ++ further) decision now
      ih ?_ returned
    rw [calls_eq, List.append_assoc, List.cons_append]

/-- What the authority has kept of the context, and what its lifetime lies within. -/
structure Keeps (crypto : LocalCrypto) (context : AuthenticatedOriginContext)
    (used : List NamespaceDecision) (authority : ProviderAuthorityContext) : Prop where
  stamp_eq : authority.originContext.admissionStamp = context.admissionStamp
  fingerprint_eq : authority.decisionFingerprint = context.decisionFingerprint
  used_eq : ∀ decision ∈ used, crypto.decisionFingerprint decision = context.decisionFingerprint
  lives : ∀ time, authority.originContext.Lives time → context.Lives time
  fresh : ∀ decision ∈ used, ∀ time, authority.originContext.Lives time →
    decision.isFreshAt time = true

end Descends

/-- Narrowing leaves a part of the lifetime. -/
theorem AuthenticatedOriginContext.Lives.of_narrow {time : Nat}
    (lives : (context.narrow decision now).Lives time) :
    context.Lives time :=
  ⟨(Nat.le_max_left _ _).trans lives.1, lives.2.trans_le (Nat.min_le_left _ _)⟩

/-- Within the lifetime of an authority that agrees with a decision, the decision is
fresh. -/
theorem AgreesWith.fresh_of_lives (agrees : AgreesWith crypto decision authority) {time : Nat}
    (lives : authority.originContext.Lives time) : decision.isFreshAt time = true :=
  NamespaceOutcome.isFreshAt_iff.mpr ⟨agrees.observed.1.trans lives.1,
    agrees.observed.2.trans lives.1, lives.2.trans_le agrees.expires⟩

theorem Descends.keeps {used : List NamespaceDecision}
    (descends : Descends crypto start calls context used authority) :
    Descends.Keeps crypto context used authority := by
  induction descends with
  | authorized calls_eq returned =>
    rcases authorize_eq_authorized_iff.mp returned with
      ⟨⟨authenticates, -, fresh, -⟩, context_eq, names⟩
    have agrees := AgreesWith.of_narrow authenticates fresh context_eq names
    refine ⟨?_, ?_, ?_, ?_, ?_⟩
    · rw [context_eq]
      rfl
    · rw [ProviderAuthorityContext.decisionFingerprint, context_eq]
      rfl
    · rintro decision member
      rw [List.mem_singleton.mp member]
      exact authenticates.fingerprint_eq.symm
    · intro time lives
      rw [context_eq] at lives
      exact lives.of_narrow
    · rintro decision member time lives
      rw [List.mem_singleton.mp member]
      exact agrees.fresh_of_lives lives
  | renewed descends calls_eq returned ih =>
    rcases revalidate_eq_authorized_iff.mp returned with
      ⟨⟨⟨authenticates, -, fresh, -⟩, -⟩, context_eq, names⟩
    have agrees := AgreesWith.of_narrow authenticates fresh context_eq names
    refine ⟨?_, ?_, ?_, ?_, ?_⟩
    · rw [context_eq]
      exact ih.stamp_eq
    · rw [ProviderAuthorityContext.decisionFingerprint, context_eq]
      exact ih.fingerprint_eq
    · rintro decision member
      rcases List.mem_cons.mp member with rfl | member
      · exact authenticates.fingerprint_eq.symm.trans ih.fingerprint_eq
      · exact ih.used_eq decision member
    · intro time lives
      rw [context_eq] at lives
      exact ih.lives time lives.of_narrow
    · rintro decision member time lives
      rcases List.mem_cons.mp member with rfl | member
      · exact agrees.fresh_of_lives lives
      · rw [context_eq] at lives
        exact ih.fresh decision member time lives.of_narrow

/-- Only bindings return a context, and only two of them an authenticated one. -/
theorem mints_of_reply (replied : reply crypto state call = .ok (.context context))
    (authenticated : context.status ≠ .unauthenticated) :
    ∃ decision, Mints crypto state call decision context := by
  unfold reply at replied
  cases call with
  | bindUnauthenticatedOriginContext decision now =>
    rcases replying_eq_ok_iff.mp replied with ⟨returned, bound, wrapped⟩
    cases wrapped
    cases bound
    exact absurd rfl authenticated
  | finishIcannBinding decision request authentication? now =>
    rcases replying_eq_ok_iff.mp replied with ⟨returned, bound, wrapped⟩
    cases wrapped
    exact ⟨decision, .icann bound⟩
  | bindHnsOriginContext decision completion now =>
    rcases replying_eq_ok_iff.mp replied with ⟨returned, bound, wrapped⟩
    cases wrapped
    exact ⟨decision, .hns bound⟩
  | _ =>
    rcases replying_eq_ok_iff.mp replied with ⟨returned, -, wrapped⟩
    cases wrapped

/-- An authority is returned by a call that grants it. -/
theorem grants_of_reply
    (replied : reply crypto state call = .ok (.outcome (.authorized authority))) :
    ∃ now, Grants crypto state call authority now := by
  unfold reply at replied
  cases call with
  | authorizeProviderInjection decision context now =>
    rcases replying_eq_ok_iff.mp replied with ⟨returned, granted, wrapped⟩
    cases wrapped
    exact ⟨now, .authorized granted⟩
  | revalidateProviderAuthority decision previous now =>
    rcases replying_eq_ok_iff.mp replied with ⟨returned, granted, wrapped⟩
    cases wrapped
    exact ⟨now, .renewed granted⟩
  | _ =>
    rcases replying_eq_ok_iff.mp replied with ⟨returned, -, wrapped⟩
    cases wrapped

/-- The context that a granted authority descends from was minted by a call of the past. -/
def HasOrigin (crypto : LocalCrypto) (start : EngineState) (past calls : List Call)
    (authority : ProviderAuthorityContext) : Prop :=
  ∃ earlier mint later bound context used, past = earlier ++ mint :: later ∧
    Mints crypto (run crypto start earlier) mint bound context ∧
    Descends crypto start calls context used authority

theorem HasOrigin.mono {past : List Call} (origin : HasOrigin crypto start past calls authority)
    (recent further : List Call) :
    HasOrigin crypto start (past ++ recent) (calls ++ further) authority := by
  rcases origin with ⟨earlier, mint, later, bound, context, used, rfl, mints, descends⟩
  refine ⟨earlier, mint, later ++ recent, bound, context, used, ?_, mints, descends.mono further⟩
  rw [List.append_assoc, List.cons_append]

theorem session_run (calls : List Call) :
    (run crypto start calls).runtime.session = start.runtime.session :=
  (Forward.run crypto start calls).session_eq

/-- What the engine accepts belongs to its own session. -/
theorem Accepts.own_session (accepts : Accepts (run crypto start calls) context now) :
    context.runtimeSession = start.runtime.session.bytes := by
  rw [accepts.session_eq, session_run]

/-- What a granting call accepts is the context of the granted authority, or one it was
narrowed from. -/
theorem Grants.accepts (grants : Grants crypto state call authority now) :
    ∃ context, Accepts state context now ∧
      authority.originContext.admissionStamp = context.admissionStamp ∧
      authority.originContext.Lives now := by
  cases grants with
  | @authorized decision context now authority returned =>
    rcases authorize_eq_authorized_iff.mp returned with ⟨⟨-, accepts, fresh, -⟩, context_eq, -⟩
    refine ⟨context, accepts, by rw [context_eq]; rfl, ?_⟩
    rw [context_eq]
    exact ⟨Nat.max_le.mpr ⟨accepts.validFrom_le, Nat.le_refl _⟩,
      Nat.lt_min.mpr ⟨accepts.lt_validUntil, (NamespaceOutcome.isFreshAt_iff.mp fresh).2.2⟩⟩
  | @renewed decision previous authority now returned =>
    rcases revalidate_eq_authorized_iff.mp returned with
      ⟨⟨⟨-, accepts, fresh, -⟩, -⟩, context_eq, -⟩
    refine ⟨previous.originContext, accepts, by rw [context_eq]; rfl, ?_⟩
    rw [context_eq]
    exact ⟨Nat.max_le.mpr ⟨accepts.validFrom_le, Nat.le_refl _⟩,
      Nat.lt_min.mpr ⟨accepts.lt_validUntil, (NamespaceOutcome.isFreshAt_iff.mp fresh).2.2⟩⟩
  | current returned =>
    rw [fst_providerAuthorityIsCurrent, Except.ok.injEq, isCurrentInState_iff] at returned
    exact ⟨_, returned.2.1, rfl, returned.2.1.validFrom_le, returned.2.1.lt_validUntil⟩

/-- One call: if all authorities returned so far have their origin in the past, so has the
one that the call grants. -/
theorem Grants.hasOrigin (grants : Grants crypto (run crypto start calls) call authority now)
    (presented : Presented crypto start calls call)
    (returnedOrigin : ∀ previous, Returned crypto start calls (.outcome (.authorized previous)) →
        HasOrigin crypto start calls calls previous) :
    HasOrigin crypto start calls (calls ++ [call]) authority := by
  cases grants with
  | @authorized decision context now authority returned =>
    rcases authorize_eq_authorized_iff.mp returned with ⟨⟨authenticates, accepts, -⟩, -⟩
    rcases presented with ⟨earlier, mint, later, calls_eq, replied⟩ | foreign
    · rcases mints_of_reply replied authenticates.authenticated with ⟨bound, mints⟩
      exact ⟨earlier, mint, later, bound, context, [decision], calls_eq, mints,
        .authorized rfl returned⟩
    · exact absurd accepts.own_session foreign
  | @renewed decision previous authority now returned =>
    rcases revalidate_eq_authorized_iff.mp returned with ⟨⟨⟨-, accepts, -⟩, -⟩, -⟩
    rcases presented with earlier | foreign
    · have origin := (returnedOrigin previous earlier).mono []
        [.revalidateProviderAuthority decision previous now]
      rw [List.append_nil] at origin
      rcases origin with ⟨earlier, mint, later, bound, context, used, calls_eq, mints, descends⟩
      exact ⟨earlier, mint, later, bound, context, decision :: used, calls_eq, mints,
        .renewed descends rfl returned⟩
    · exact absurd accepts.own_session foreign
  | current returned =>
    rw [fst_providerAuthorityIsCurrent, Except.ok.injEq, isCurrentInState_iff] at returned
    rcases presented with earlier | foreign
    · have origin := (returnedOrigin authority earlier).mono []
        [.providerAuthorityIsCurrent authority now]
      rwa [List.append_nil] at origin
    · exact absurd returned.2.1.own_session foreign

/-- Every authority that a run returns has its origin in the run. -/
theorem WellPresented.hasOrigin (presented : WellPresented crypto start calls) :
    ∀ authority, Returned crypto start calls (.outcome (.authorized authority)) →
      HasOrigin crypto start calls calls authority := by
  induction presented with
  | nil =>
    rintro authority ⟨earlier, call, later, calls_eq, -⟩
    simp at calls_eq
  | @concat calls call earlier presented ih =>
    rintro authority ⟨front, granting, later, calls_eq, replied⟩
    rcases List.eq_nil_or_concat later with rfl | ⟨later, last, rfl⟩
    · rcases List.append_inj' calls_eq rfl with ⟨rfl, call_eq⟩
      obtain rfl := List.singleton_inj.mp call_eq
      rcases grants_of_reply replied with ⟨now, grants⟩
      have origin := (grants.hasOrigin presented ih).mono [call] []
      rwa [List.append_nil] at origin
    · rw [List.concat_eq_append, ← List.cons_append, ← List.append_assoc] at calls_eq
      rcases List.append_inj' calls_eq rfl with ⟨rfl, -⟩
      exact (ih authority ⟨front, granting, later, rfl, replied⟩).mono [call] [call]

/-- While the engine accepts a stamp, nothing has invalidated work since the stamp's event. -/
theorem not_invalidates_of_accepts {earlier later : List Call} {mint : Call}
    {bound : NamespaceDecision} {minted : AuthenticatedOriginContext}
    (mints : Mints crypto (run crypto start earlier) mint bound minted)
    (stamp_eq : context.admissionStamp = minted.admissionStamp)
    (accepts : Accepts (run crypto start (earlier ++ mint :: later)) context now) :
    ∀ middle other rest, later = middle ++ other :: rest →
      ¬Invalidates (run crypto start (earlier ++ mint :: middle)) other := by
  rintro middle other rest rfl invalidates
  rcases mints.mintedBy.stamped with ⟨stamp, stamp_held, sequence_eq⟩
  have isAdmitted := accepts.isAdmitted
  rw [authenticatedContextIsAdmitted, stamp_eq, stamp_held, Option.any_some] at isAdmitted
  have admits := (Bool.and_eq_true_iff.mp isAdmitted).2
  simp only [BrowserRuntime.admits, Bool.and_eq_true, decide_eq_true_eq] at admits
  have newer := admits.1.2
  -- The stamp's event is not later than the state before the invalidation.
  have minted_eq : run crypto start (earlier ++ mint :: middle) =
      run crypto (apply crypto (run crypto start earlier) mint) middle := by
    rw [run, runFrom_append, runFrom_cons]
    rfl
  have reached := (Forward.run crypto (apply crypto (run crypto start earlier) mint)
    middle).sequence_le
  rw [← minted_eq, ← sequence_eq] at reached
  have overtaken := @Invalidates.overtakes crypto _ _ invalidates
  have grown := (Forward.apply crypto (run crypto start (earlier ++ mint :: middle)) other).sequence_le
  have final_eq : run crypto start (earlier ++ mint :: (middle ++ other :: rest)) =
      run crypto (apply crypto (run crypto start (earlier ++ mint :: middle)) other) rest := by
    rw [← List.cons_append, ← List.append_assoc, run, runFrom_append, runFrom_cons]
    rfl
  have past := (Forward.run crypto _ rest).overtaken (reached.trans grown) (reached.trans overtaken)
  rw [← final_eq] at past
  exact Nat.not_lt.mpr past newer

/-- The lifetime of a granted authority is part of the one that the call was given. -/
def Shrinks : Call → ProviderAuthorityContext → Prop
  | .authorizeProviderInjection _ context _, authority =>
    ∀ time, authority.originContext.Lives time → context.Lives time
  | .revalidateProviderAuthority _ previous _, authority =>
    ∀ time, authority.originContext.Lives time → previous.originContext.Lives time
  | _, _ => True

theorem Grants.shrinks (grants : Grants crypto state call authority now) :
    Shrinks call authority := by
  cases grants with
  | authorized returned =>
    intro time lives
    rw [(authorize_eq_authorized_iff.mp returned).2.1] at lives
    exact lives.of_narrow
  | renewed returned =>
    intro time lives
    rw [(revalidate_eq_authorized_iff.mp returned).2.1] at lives
    exact lives.of_narrow
  | current returned => exact trivial

/-- Grants die with their security epoch.  Whenever the engine grants an authority, the
context it descends from was minted earlier in the run by binding a decision with the
same fingerprint; nothing has invalidated work since; it is granted within its lifetime,
which only shrinks; and throughout its lifetime all decisions that it was authorized or
renewed for are fresh and the binding vouches for it: the completion of an HNS binding is
valid and its decision has not expired, and the decision of an ICANN binding is fresh. -/
theorem grants_die_with_epoch (crypto : LocalCrypto) (session : RuntimeSessionId)
    (network : Network) (policy : PolicySnapshot) (calls : List Call) (call : Call)
    (authority : ProviderAuthorityContext) (now : Nat)
    (presented : WellPresented crypto (.new session network policy) (calls ++ [call]))
    (grants : Grants crypto (run crypto (.new session network policy) calls) call authority now) :
    authority.originContext.Lives now ∧ Shrinks call authority ∧
    ∃ earlier mint later bound context used, calls = earlier ++ mint :: later ∧
      Mints crypto (run crypto (.new session network policy) earlier) mint bound context ∧
      crypto.decisionFingerprint bound = authority.decisionFingerprint ∧
      (∀ middle other rest, later = middle ++ other :: rest →
        ¬Invalidates (run crypto (.new session network policy) (earlier ++ mint :: middle)) other) ∧
      Descends crypto (.new session network policy) (calls ++ [call]) context used authority ∧
      (∀ decision ∈ used,
        crypto.decisionFingerprint decision = authority.decisionFingerprint) ∧
      ∀ time, authority.originContext.Lives time → context.Lives time ∧ Vouches mint time ∧
        ∀ decision ∈ used, decision.isFreshAt time = true := by
  rcases grants.accepts with ⟨accepted, accepts, stamp_eq, lives⟩
  refine ⟨lives, grants.shrinks, ?_⟩
  rcases presented.of_concat with ⟨earlierPresented, lastPresented⟩
  rcases grants.hasOrigin lastPresented earlierPresented.hasOrigin with
    ⟨earlier, mint, later, bound, context, used, rfl, mints, descends⟩
  have minted := mints.mintedBy
  have keeps := descends.keeps
  refine ⟨earlier, mint, later, bound, context, used, rfl, mints, ?_, ?_, descends, ?_, ?_⟩
  · exact minted.fingerprint_eq.symm.trans keeps.fingerprint_eq.symm
  · exact not_invalidates_of_accepts mints (stamp_eq.symm.trans keeps.stamp_eq) accepts
  · exact fun decision member => (keeps.used_eq decision member).trans keeps.fingerprint_eq.symm
  · intro time isLive
    have contextLives := keeps.lives time isLive
    exact ⟨contextLives, minted.vouched time contextLives,
      fun decision member => keeps.fresh decision member time isLive⟩

/-! ## Two decisions with one fingerprint -/

namespace ExampleOrigin

theorem late_nonempty : 40 < 60 := by decide

/-- The decision was made again later. -/
def lateLifetime : Freshness := ⟨40, 60, late_nonempty⟩

/-- The completed resolution is bound to the later decision. -/
def binding : Call :=
  .bindHnsOriginContext (secureDecision lateLifetime) completion 45

def bindingCalls : List Call :=
  resolving ++ [completing] ++ [binding]

/-- The context is authorized for the earlier decision, at an earlier time. -/
def authorizing : Call :=
  .authorizeProviderInjection (secureDecision lifetime) boundContext 30
where
  boundContext : AuthenticatedOriginContext :=
    stampOriginContext acceptingCrypto (verifiedState 10) (secureDecision lateLifetime)
      .hnsDaneVerified 20 60 (some ⟨session, 1, 10⟩)

def boundAuthority : ProviderAuthorityContext where
  originContext := authorizing.boundContext.narrow (secureDecision lifetime) 30
  selectedNamespace := .hns
  hnsNetwork := .mainnet
  servicePort := 443
  tlsPolicy := .dane

theorem binding_returns :
    reply acceptingCrypto (run acceptingCrypto freshState (resolving ++ [completing])) binding =
      .ok (.context authorizing.boundContext) := by
  rw [run_completing]
  rfl

theorem binding_presented :
    WellPresented acceptingCrypto freshState (bindingCalls ++ [authorizing]) := by
  refine .concat ?_ (.inl ⟨resolving ++ [completing], binding, [], rfl, binding_returns⟩)
  exact WellPresented.append .nil bindingCalls
    (by simp [bindingCalls, resolving, completing, binding, Presented])

theorem boundAuthority_granted :
    Grants acceptingCrypto (run acceptingCrypto freshState bindingCalls) authorizing boundAuthority
      30 := by
  refine .authorized ?_
  decide +kernel

/-- The context of the run, with the claimed consequences. -/
theorem grants_die_with_epoch_bound :
    boundAuthority.originContext.Lives 30 ∧ Shrinks authorizing boundAuthority ∧
    ∃ earlier mint later bound context used, bindingCalls = earlier ++ mint :: later ∧
      Mints acceptingCrypto (run acceptingCrypto freshState earlier) mint bound context ∧
      acceptingCrypto.decisionFingerprint bound = boundAuthority.decisionFingerprint ∧
      (∀ middle other rest, later = middle ++ other :: rest →
        ¬Invalidates (run acceptingCrypto freshState (earlier ++ mint :: middle)) other) ∧
      Descends acceptingCrypto freshState (bindingCalls ++ [authorizing]) context used
        boundAuthority ∧
      (∀ decision ∈ used,
        acceptingCrypto.decisionFingerprint decision = boundAuthority.decisionFingerprint) ∧
      ∀ time, boundAuthority.originContext.Lives time → context.Lives time ∧ Vouches mint time ∧
        ∀ decision ∈ used, decision.isFreshAt time = true :=
  grants_die_with_epoch acceptingCrypto session .mainnet .default bindingCalls authorizing
    boundAuthority 30 binding_presented boundAuthority_granted

/-- The authority is granted while the decision that was bound is not fresh. -/
theorem granted_before_bound_decision :
    decided lifetime 30 = .ok (secureDecision lifetime) ∧
      decided lateLifetime 45 = .ok (secureDecision lateLifetime) ∧
      WellPresented acceptingCrypto freshState (bindingCalls ++ [authorizing]) ∧
      Grants acceptingCrypto (run acceptingCrypto freshState bindingCalls) authorizing
        boundAuthority 30 ∧
      ¬∃ earlier mint later bound context, bindingCalls = earlier ++ mint :: later ∧
        Mints acceptingCrypto (run acceptingCrypto freshState earlier) mint bound context ∧
        ∀ time, boundAuthority.originContext.Lives time → bound.isFreshAt time = true := by
  refine ⟨rfl, rfl, binding_presented, boundAuthority_granted, ?_⟩
  rintro ⟨earlier, mint, later, bound, context, calls_eq, mints, fresh⟩
  have member : mint ∈ bindingCalls := by
    rw [calls_eq]
    exact List.mem_append_right _ List.mem_cons_self
  have bound_eq : bound = secureDecision lateLifetime := by
    cases mints with
    | hns =>
      simp only [bindingCalls, resolving, completing, binding, List.mem_append, List.mem_cons,
        List.not_mem_nil, reduceCtorEq, or_false, false_or, Call.bindHnsOriginContext.injEq]
        at member
      exact member.1
    | icann => simp [bindingCalls, resolving, completing, binding] at member
  have freshThen := fresh 30 ⟨by decide, by decide⟩
  rw [bound_eq] at freshThen
  revert freshThen
  decide

end ExampleOrigin

end HnsDaneEngine.Engine
