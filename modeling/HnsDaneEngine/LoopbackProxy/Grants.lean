import HnsDaneEngine.LoopbackProxy.Registry

/-!
# Tunnel grants

Every grant comes from one authenticated request and one publication, within the
lifetimes of both, and no change of the registry lets it pass again.
-/

namespace HnsDaneEngine.LoopbackProxy

open Control
open Data (Store)
open Engine

namespace ProxySession

/-- The clock value of a call. -/
def callTime : Call → Option Nat
  | .admitConnect _ _ _ now => some now
  | .publishAuthority _ _ _ now => some now
  | .replaceAuthority _ _ _ _ now => some now
  | .revokeAuthority _ _ => none
  | .authorizeConnect _ _ _ _ now => some now
  | .revalidateTunnelGrant _ _ _ now => some now
  | .cancel _ => none

theorem ClockLe.refl (session : ProxySession) : session.ClockLe session :=
  (Waits.refl session).clock

theorem ClockLe.trans {first second third : ProxySession} (earlier : first.ClockLe second)
    (later : second.ClockLe third) : first.ClockLe third := by
  intro last held
  rcases earlier last held with ⟨middle, middle_eq, last_le⟩
  rcases later middle middle_eq with ⟨now, now_eq, middle_le⟩
  exact ⟨now, now_eq, last_le.trans middle_le⟩

variable {session next : ProxySession} {call : Call} {reply : Reply} {sequence instanceId : Nat}
  {config : ProxyConfig} {calls : List Call}

theorem Step.clockLe (step : session.Step call reply next) : session.ClockLe next := by
  cases step with
  | failed waits => exact waits.clock
  | reclaimed waits => exact waits.clock
  | admitted waits => exact waits.clock
  | published waits => exact waits.clock
  | replaced waits => exact waits.clock
  | revoked => exact ClockLe.refl session
  | granted waits => exact waits.clock
  | revalidated waits => exact waits.clock
  | cancelled => exact ClockLe.refl session

/-- A call that succeeds has its clock value accepted. -/
theorem Step.clock_eq (step : session.Step call reply next)
    (succeeded : ∀ error, reply ≠ .failed error) {now : Nat} (time_eq : callTime call = some now) :
    next.lastObservedTime = some now := by
  cases step with
  | failed => exact absurd rfl (succeeded _)
  | reclaimed => exact absurd rfl (succeeded _)
  | admitted waits clock => cases time_eq; exact clock
  | published waits clock => cases time_eq; exact clock
  | replaced waits clock => cases time_eq; exact clock
  | revoked => cases time_eq
  | granted waits clock => cases time_eq; exact clock
  | revalidated waits clock => cases time_eq; exact clock
  | cancelled => cases time_eq

theorem run_clockLe (instanceId : Nat) (config : ProxyConfig) (earlier later : List Call) :
    (run instanceId config earlier).ClockLe (run instanceId config (earlier ++ later)) := by
  have split_eq : run instanceId config (earlier ++ later) =
      runFrom apply (run instanceId config earlier) later := runFrom_append apply _ earlier later
  rw [split_eq]
  exact runFrom_invariant (fun session call before => before.trans (apply_step session call).clockLe)
    (ClockLe.refl _) later

/-- The token was returned for an authenticated request from a loopback client. -/
structure AdmittedIn (instanceId : Nat) (config : ProxyConfig) (calls : List Call)
    (pending : PendingConnect) : Prop where
  request : ∃ earlier engine client requestHead later,
    calls = earlier ++ .admitConnect engine client requestHead pending.admittedAt :: later ∧
      (run instanceId config earlier).reply
        (.admitConnect engine client requestHead pending.admittedAt) = .admitted pending ∧
      isLoopback client.ip = true ∧
      ∃ parsed, parseConnectHead requestHead config.limits = .ok parsed ∧
        config.authorization.verifyHeaderValues parsed.authorization = true ∧
        config.scope.authorize parsed.host.asStr = .ok pending.host ∧
        parsed.port = pending.port

theorem AdmittedIn.concat
    {pending : PendingConnect} (admitted : AdmittedIn instanceId config calls pending)
    (call : Call) : AdmittedIn instanceId config (calls ++ [call]) pending := by
  rcases admitted.request with ⟨earlier, engine, client, requestHead, later, rfl, facts⟩
  exact ⟨earlier, engine, client, requestHead, later ++ [call], by simp, facts⟩

/-- A record is pending after a call if it was before, or if the call admitted it. -/
theorem Step.pending_of (step : session.Step call reply next) {record : PendingRecord}
    (held : next.pending.lookup sequence = some record) :
    session.pending.lookup sequence = some record ∨
      ∃ engine client requestHead now pending retained,
        call = .admitConnect engine client requestHead now ∧ reply = .admitted pending ∧
          session.Waits retained ∧ isLoopback client.ip = true ∧
          retained.Authenticates requestHead now pending ∧ sequence = pending.sequence ∧
          record = pending.record := by
  cases step with
  | failed waits => exact .inl (waits.pending held)
  | reclaimed waits => exact .inl (waits.pending held)
  | @admitted engine client requestHead now pending retained waits clock loopback authenticates =>
    change (retained.pending.insert pending.sequence pending.record).lookup _ = _ at held
    by_cases same : sequence = pending.sequence
    · subst same
      rw [AList.lookup_insert] at held
      exact .inr ⟨engine, client, requestHead, now, pending, retained, rfl, rfl, waits, loopback,
        authenticates, rfl, (Option.some.inj held).symm⟩
    · rw [AList.lookup_insert_ne same] at held
      exact .inl (waits.pending held)
  | published waits => exact .inl (waits.pending held)
  | replaced waits => exact .inl (waits.pending held)
  | revoked => exact .inl held
  | granted waits => exact .inl (waits.pending held)
  | revalidated waits => exact .inl (waits.pending held)
  | @cancelled pending other resident =>
    exact .inl ((Waits.erasePending session pending.sequence).pending held)

/-- The token of a resident record. -/
def tokenOf (instanceId sequence : Nat) (record : PendingRecord) : PendingConnect :=
  ⟨instanceId, sequence, record.host, record.port, record.admittedAt, record.expiresAt⟩

/-- Every pending record belongs to a request of the run. -/
theorem run_admitted (instanceId : Nat) (config : ProxyConfig) (calls : List Call) :
    ∀ sequence record, (run instanceId config calls).pending.lookup sequence = some record →
      AdmittedIn instanceId config calls (tokenOf instanceId sequence record) := by
  refine @runFrom_history _ _ apply (fun past (session : ProxySession) => ∀ sequence record,
    session.pending.lookup sequence = some record →
      AdmittedIn instanceId config past (tokenOf instanceId sequence record))
    (opened instanceId config) ?_ ?_ calls
  · intro sequence record held
    cases held
  intro past call before sequence record held
  have identity := run_identity instanceId config past
  have step := apply_step (run instanceId config past) call
  rcases step.pending_of held with resident | ⟨engine, client, requestHead, now, pending, retained,
    call_eq, reply_eq, waits, loopback, authenticates, rfl, rfl⟩
  · exact (before sequence record resident).concat call
  have token_eq : tokenOf instanceId pending.sequence pending.record = pending := by
    rw [← identity.1, ← waits.instanceId_eq, ← authenticates.instanceId_eq]
    rfl
  rw [token_eq]
  rcases authenticates.authenticated with ⟨parsed, facts⟩
  rw [waits.config_eq, identity.2] at facts
  refine ⟨past, engine, client, requestHead, [], ?_, ?_, loopback, parsed, facts⟩
  · rw [authenticates.admittedAt_eq, call_eq]
  · rw [authenticates.admittedAt_eq, ← call_eq]
    exact reply_eq

/-- The request has left the session and cannot come back. -/
structure Spent (session : ProxySession) (sequence : Nat) : Prop where
  sequence_le : sequence ≤ session.sequence
  gone : session.pending.lookup sequence = none

theorem Spent.of_waits (spent : session.Spent sequence) (waits : session.Waits next) :
    next.Spent sequence := by
  refine ⟨spent.sequence_le.trans waits.sequence_eq.ge, ?_⟩
  cases held : next.pending.lookup sequence with
  | none => rfl
  | some record =>
    have resident := waits.pending held
    rw [spent.gone] at resident
    cases resident

theorem Step.spent (step : session.Step call reply next) (spent : session.Spent sequence) :
    next.Spent sequence := by
  cases step with
  | failed waits => exact spent.of_waits waits
  | reclaimed waits => exact ⟨(spent.of_waits waits).1, (spent.of_waits waits).2⟩
  | @admitted engine client requestHead now pending retained waits clock loopback authenticates =>
    have before := spent.of_waits waits
    have older : sequence < pending.sequence := by
      rw [authenticates.sequence_eq]
      exact Nat.lt_succ_of_le before.sequence_le
    exact ⟨older.le, (AList.lookup_insert_ne older.ne).trans before.gone⟩
  | published waits => exact ⟨(spent.of_waits waits).1, (spent.of_waits waits).2⟩
  | replaced waits => exact ⟨(spent.of_waits waits).1, (spent.of_waits waits).2⟩
  | revoked => exact ⟨spent.1, spent.2⟩
  | granted waits => exact spent.of_waits waits
  | revalidated waits => exact spent.of_waits waits
  | @cancelled pending record held => exact spent.of_waits (Waits.erasePending session _)

variable {grant : TunnelGrant}

/-- A grant for a request is the last thing that happens to it. -/
theorem Step.granted_of (step : session.Step call (.granted grant) next) :
    ∃ engine pending admission expected now observed publication,
      call = .authorizeConnect engine pending admission expected now ∧
        pending.instanceId = session.instanceId ∧
        session.pending.lookup pending.sequence = some pending.record ∧
        next.pending.lookup pending.sequence = none ∧ session.Waits observed ∧
        observed.Grants engine pending admission now publication grant := by
  cases step with
  | @granted engine pending admission expected now observed publication grant waits clock own held
      consumed grants =>
      exact ⟨engine, pending, admission, expected, now, next, publication, rfl, own, held, consumed,
        waits, grants⟩

/-- No later grant is for a request that is spent. -/
theorem Spent.not_granted (spent : session.Spent sequence) (later : List Call)
    (granted : (runFrom apply session later).reply call = .granted grant) :
    grant.connectSequence ≠ sequence := by
  have still : (runFrom apply session later).Spent sequence :=
    runFrom_invariant (fun session call spent => (apply_step session call).spent spent) spent later
  have step := apply_step (runFrom apply session later) call
  rw [granted] at step
  rcases step.granted_of with ⟨engine, pending, admission, expected, now, observed, publication, -,
    -, held, -, -, grants⟩
  rintro rfl
  have sequence_eq : grant.connectSequence = pending.sequence := by rw [grants.grant_eq]; rfl
  rw [← sequence_eq, still.gone] at held
  cases held

theorem Step.registryGeneration_le (step : session.Step call reply next) :
    session.registryGeneration ≤ next.registryGeneration := by
  rw [step.registryGeneration_eq]
  split
  · exact Nat.le_succ _
  · exact Nat.le_refl _

/-- A change of the registry leaves every earlier generation behind. -/
theorem registryGeneration_lt_of_change (session : ProxySession) (middle : List Call)
    (change : Call)
    (rest : List Call)
    (changes : ChangesRegistry change ((runFrom apply session middle).reply change) = true) :
    session.registryGeneration <
      (runFrom apply session (middle ++ change :: rest)).registryGeneration := by
  have grows : ∀ (start : ProxySession) (calls : List Call),
      start.registryGeneration ≤ (runFrom apply start calls).registryGeneration := by
    intro start calls
    induction calls generalizing start with
    | nil => exact Nat.le_refl _
    | cons call calls ih => exact (apply_step start call).registryGeneration_le.trans (ih _)
  have changed := (apply_step (runFrom apply session middle) change).registryGeneration_eq
  rw [if_pos changes] at changed
  rw [runFrom_append, runFrom_cons]
  calc
    session.registryGeneration ≤ (runFrom apply session middle).registryGeneration :=
      grows session middle
    _ < ((runFrom apply session middle).apply change).registryGeneration := by
      rw [changed]
      exact Nat.lt_succ_self _
    _ ≤ _ := grows _ rest

/-- Where a grant that the call returns comes from. -/
structure ComesFrom (instanceId : Nat) (config : ProxyConfig) (calls : List Call)
    (engine : EngineView) (pending : PendingConnect) (now : Nat) (grant : TunnelGrant)
    (publication : PublicationRecord) : Prop where
  admitted : AdmittedIn instanceId config calls pending
  host_eq : grant.logicalOrigin.host = pending.host.asStr
  port_eq : grant.logicalOrigin.port = pending.port
  connectSequence_eq : grant.connectSequence = pending.sequence
  issuedAt_eq : grant.issuedAt = now
  inTime : pending.admittedAt ≤ now ∧ now < pending.expiresAt
  resident : (run instanceId config calls).publications.lookup grant.logicalOrigin =
    some publication
  origin_eq : publication.authority.logicalOrigin = grant.logicalOrigin
  current : publicationIsCurrent engine 0 publication now = .ok true
  expires_le_limit : grant.expiresAt ≤ now + config.limits.maximumGrantLifetimeSeconds
  expires_le_publication : grant.expiresAt ≤ publication.publicationValidUntil
  expires_le_authority : grant.expiresAt ≤ publication.authority.validUntil

theorem comesFrom_of_granted (granted : (run instanceId config calls).reply call = .granted grant) :
    ∃ engine pending admission expected now publication,
      call = .authorizeConnect engine pending admission expected now ∧
        ComesFrom instanceId config calls engine pending now grant publication := by
  have step := apply_step (run instanceId config calls) call
  have identity := run_identity instanceId config calls
  have disciplined := run_disciplined instanceId config calls
  rw [granted] at step
  rcases step.granted_of with ⟨engine, pending, admission, expected, now, observed, publication,
    call_eq, own, held, -, waits, grants⟩
  have origin_eq : grant.logicalOrigin = admission.logicalOrigin := by rw [grants.grant_eq]; rfl
  have resident := (grants.validates.of_waits waits).resident
  have token_eq : tokenOf instanceId pending.sequence pending.record = pending := by
    rw [← identity.1, ← own]
    rfl
  have limit_le := grants.expires_le_limit
  rw [waits.config_eq, identity.2] at limit_le
  refine ⟨engine, pending, admission, expected, now, publication, call_eq, ?_, ?_, ?_, ?_, ?_,
    grants.inTime, ?_, ?_, grants.current, limit_le, grants.expires_le_publication, ?_⟩
  · rw [← token_eq]
    exact run_admitted instanceId config calls pending.sequence pending.record held
  · rw [origin_eq, grants.host_eq]
  · rw [origin_eq, grants.port_eq]
  · rw [grants.grant_eq]
    rfl
  · rw [grants.grant_eq]
    rfl
  · rw [origin_eq]
    exact resident
  · rw [origin_eq]
    exact disciplined.origins_eq resident
  · exact grants.expires_le_publication.trans (disciplined.lifetimes_le resident)

/-- A later grant is never for the request of this one. -/
theorem not_granted_again (granted : (run instanceId config calls).reply call = .granted grant)
    (later : List Call) {other : Call} {second : TunnelGrant}
    (again : (run instanceId config (calls ++ call :: later)).reply other = .granted second) :
    second.connectSequence ≠ grant.connectSequence := by
  have step := apply_step (run instanceId config calls) call
  rw [granted] at step
  have kept := step
  rcases step.granted_of with ⟨engine, pending, admission, expected, now, observed, publication, -,
    -, held, gone, waits, grants⟩
  have sequence_eq : grant.connectSequence = pending.sequence := by rw [grants.grant_eq]; rfl
  have sequence_le := (run_disciplined instanceId config calls).sequences_le held
  have spent : ((run instanceId config calls).apply call).Spent pending.sequence := by
    cases kept with
    | granted waits => exact ⟨sequence_le.trans waits.sequence_eq.ge, gone⟩
  have split_eq : run instanceId config (calls ++ call :: later) =
      runFrom apply ((run instanceId config calls).apply call) later :=
    (runFrom_append apply _ calls (call :: later)).trans (runFrom_cons apply _ call later)
  rw [split_eq] at again
  rw [sequence_eq]
  exact spent.not_granted later again

theorem not_granted_after_cancel {pending : PendingConnect}
    (cancelled : (run instanceId config calls).reply (.cancel pending) = .cancelled)
    (later : List Call) {other : Call}
    (granted : (run instanceId config (calls ++ .cancel pending :: later)).reply other =
      .granted grant) : grant.connectSequence ≠ pending.sequence := by
  have step := apply_step (run instanceId config calls) (.cancel pending)
  rw [cancelled] at step
  have spent : ((run instanceId config calls).apply (.cancel pending)).Spent pending.sequence := by
    generalize (run instanceId config calls).apply (.cancel pending) = next at step
    cases step with
    | cancelled held =>
      exact ⟨(run_disciplined instanceId config calls).sequences_le held, AList.lookup_erase _ _⟩
  have split_eq : run instanceId config (calls ++ .cancel pending :: later) =
      runFrom apply ((run instanceId config calls).apply (.cancel pending)) later :=
    (runFrom_append apply _ calls (.cancel pending :: later)).trans (runFrom_cons apply _ _ later)
  rw [split_eq] at granted
  exact spent.not_granted later granted

/-- A grant that passes again is inside its window, and the registry has not changed
since it was issued. -/
theorem window_of_revalidated {engine : EngineView} {expected now : Nat}
    (revalidated : (run instanceId config calls).reply
      (.revalidateTunnelGrant engine grant expected now) = .revalidated) :
    grant.issuedAt ≤ now ∧ now < grant.expiresAt ∧
      ∀ earlier issue middle change rest, calls = earlier ++ issue :: (middle ++ change :: rest) →
        (run instanceId config earlier).reply issue = .granted grant →
        ChangesRegistry change ((run instanceId config (earlier ++ issue :: middle)).reply change) =
          false := by
  have step := apply_step (run instanceId config calls)
    (.revalidateTunnelGrant engine grant expected now)
  rw [revalidated] at step
  have revalidates : (run instanceId config calls).Revalidates grant now := by
    generalize (run instanceId config calls).apply _ = next at step
    cases step with
    | revalidated waits clock revalidates => exact revalidates
  refine ⟨revalidates.inTime.1, revalidates.inTime.2, ?_⟩
  rintro earlier issue middle change rest rfl granted
  rw [← Bool.not_eq_true]
  intro changes
  have split_eq : ∀ later, run instanceId config (earlier ++ issue :: later) =
      runFrom apply ((run instanceId config earlier).apply issue) later := fun later =>
    (runFrom_append apply _ earlier (issue :: later)).trans (runFrom_cons apply _ issue later)
  rw [split_eq] at changes
  have later := registryGeneration_lt_of_change _ middle change rest changes
  rw [← split_eq, ← revalidates.generation_eq] at later
  have issueStep := apply_step (run instanceId config earlier) issue
  rw [granted] at issueStep
  have issued_eq : grant.registryGeneration =
      ((run instanceId config earlier).apply issue).registryGeneration := by
    generalize (run instanceId config earlier).apply issue = next at issueStep
    cases issueStep with
    | granted waits clock own held consumed grants => rw [grants.grant_eq]; rfl
  rw [issued_eq] at later
  exact Nat.lt_irrefl _ later

/-- The grants of a session.  Along every run the accepted clock values never decrease.
A grant comes from one authenticated request of the run, before its expiry, and from a
publication that is current, within the lifetimes of both; its request is never granted
again, and a cancelled one never is.  A grant passes again only in its window and only
while the registry has not changed. -/
theorem tunnel_grants (instanceId : Nat) (config : ProxyConfig) (calls : List Call) :
    (∀ earlier later, calls = earlier ++ later →
      (run instanceId config earlier).ClockLe (run instanceId config calls)) ∧
    ∀ call,
      (∀ now, callTime call = some now →
        (∀ error, (run instanceId config calls).reply call ≠ .failed error) →
        ((run instanceId config calls).apply call).lastObservedTime = some now) ∧
      (∀ grant, (run instanceId config calls).reply call = .granted grant →
        (∃ engine pending admission expected now publication,
          call = .authorizeConnect engine pending admission expected now ∧
            ComesFrom instanceId config calls engine pending now grant publication) ∧
        ∀ later other second,
          (run instanceId config (calls ++ call :: later)).reply other = .granted second →
          second.connectSequence ≠ grant.connectSequence) ∧
      (∀ pending, call = .cancel pending →
        (run instanceId config calls).reply call = .cancelled →
        ∀ later other grant,
          (run instanceId config (calls ++ call :: later)).reply other = .granted grant →
          grant.connectSequence ≠ pending.sequence) ∧
      ∀ engine grant expected now, call = .revalidateTunnelGrant engine grant expected now →
        (run instanceId config calls).reply call = .revalidated →
        grant.issuedAt ≤ now ∧ now < grant.expiresAt ∧
          ∀ earlier issue middle change rest,
            calls = earlier ++ issue :: (middle ++ change :: rest) →
            (run instanceId config earlier).reply issue = .granted grant →
            ChangesRegistry change
              ((run instanceId config (earlier ++ issue :: middle)).reply change) = false := by
  constructor
  · rintro earlier later rfl
    exact run_clockLe instanceId config earlier later
  · intro call
    refine ⟨?_, ?_, ?_, ?_⟩
    · intro now time_eq succeeded
      exact (apply_step _ call).clock_eq succeeded time_eq
    · intro grant granted
      exact ⟨comesFrom_of_granted granted,
        fun later other second again => not_granted_again granted later again⟩
    · rintro pending rfl cancelled later other grant granted
      exact not_granted_after_cancel cancelled later granted
    · rintro engine grant expected now rfl revalidated
      exact window_of_revalidated revalidated

end ProxySession

namespace ExampleProxy

open ProxySession

def requestHead : Octets :=
  ascii "CONNECT www.a:443 HTTP/1.1\r\nHost: www.a:443\r\nProxy-Authorization: Basic " ++
    config.authorization.expectedToken ++ ascii "\r\n\r\n"

theorem host_normalized : isNormalized (ascii "www.a") = true := by decide

def connect : PendingConnect := ⟨1, 1, ⟨ascii "www.a", host_normalized⟩, 443, 11, 26⟩

def requests : List Call :=
  [publish, .admitConnect engine endpointAddress requestHead 11]

def authorize : Call := .authorizeConnect engine connect admission 2 12

def grant : TunnelGrant :=
  (opened 1 config).tunnelGrant authority.logicalOrigin record 1 12 42

/-- The request is granted, and the grant passes until a change of the registry. -/
theorem tunnel_grants_example :
    (run 1 config requests).reply authorize = .granted { grant with registryGeneration := 2 } ∧
      ∃ pending publication,
        ComesFrom 1 config requests engine pending 12 { grant with registryGeneration := 2 }
          publication := by
  have granted : (run 1 config requests).reply authorize =
      .granted { grant with registryGeneration := 2 } := by
    decide +kernel
  rcases (tunnel_grants 1 config requests).2 authorize with ⟨-, grants, -⟩
  rcases (grants _ granted).1 with ⟨engine, pending, admission, expected, now, publication,
    call_eq, comesFrom⟩
  cases call_eq
  exact ⟨granted, connect, publication, comesFrom⟩

end ExampleProxy

end HnsDaneEngine.LoopbackProxy
