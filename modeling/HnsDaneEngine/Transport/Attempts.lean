import HnsDaneEngine.Transport.Fallback
import Mathlib.Data.List.Nodup
import Mathlib.Data.List.Pairwise

/-!
# Attempts and selection of a gateway run

The log of a run records the attempts issued, the attempts completed with what
they selected, and the revocations.  What a gateway may do next is determined by
this log: which attempt is outstanding, which candidates are used up, and whether
ODoH has been tried.
-/

namespace HnsDaneEngine.Transport

open Control Policy Primitives

/-- What a run shows of its attempts. -/
inductive AttemptEvent
  | issued (attempt : GatewayAttempt)
  | completed (attempt : GatewayAttempt) (selection : Option GatewaySelection)
  | revoked

namespace AttemptEvent

def issued? : AttemptEvent → Option GatewayAttempt
  | .issued attempt => some attempt
  | .completed _ _ => none
  | .revoked => none

def selected? : AttemptEvent → Option GatewaySelection
  | .issued _ => none
  | .completed _ selection => selection
  | .revoked => none

/-- The outstanding attempts after an event. -/
def settle (outstanding : List GatewayAttempt) : AttemptEvent → List GatewayAttempt
  | .issued attempt => attempt :: outstanding
  | .completed attempt _ => outstanding.erase attempt
  | .revoked => []

end AttemptEvent

/-- The attempts issued in a log, the earliest first. -/
def issuedAttempts (log : List AttemptEvent) : List GatewayAttempt :=
  log.filterMap AttemptEvent.issued?

def selections (log : List AttemptEvent) : List GatewaySelection :=
  log.filterMap AttemptEvent.selected?

/-- The attempts that are issued and neither completed nor revoked. -/
def outstandingAttempts (log : List AttemptEvent) : List GatewayAttempt :=
  log.foldl AttemptEvent.settle []

def issueEvents : Except GatewayError GatewayAttempt → List AttemptEvent
  | .ok attempt => [.issued attempt]
  | .error .stalePolicy => [.revoked]
  | .error _ => []

/-- A completion is recorded when it reached the active attempt. -/
def completionEvents (attempt : GatewayAttempt) :
    Except GatewayError GatewayStep → List AttemptEvent
  | .error .stalePolicy => [.revoked]
  | .error .noActiveAttempt => []
  | .error .attemptMismatch => []
  | .error _ => [.completed attempt none]
  | .ok (.selected selection) => [.completed attempt (some selection)]
  | .ok .retryAvailable => [.completed attempt none]
  | .ok .unavailable => [.completed attempt none]

/-! ## Admitted responses -/

/-- The intermediaries on a path through a transport. -/
def Topology (identities : GatewayIdentities) : ResolutionTransport → Prop
  | .handshakeP2pOdoh =>
    ∃ proxy target, identities = ⟨none, some proxy, some target⟩ ∧ proxy ≠ target
  | .handshakeP2pDnsRelay => ∃ peer, identities = ⟨some peer, none, none⟩
  | .directAuthoritativeUdp | .directAuthoritativeTcp | .authenticatedAuthoritativeDoh
  | .userConfiguredRecursiveHnsDoh => identities = ⟨none, none, none⟩
  | .unavailable | .validatingIcannDoh | .localHnsProof => False

namespace Gateway

variable {identities : GatewayIdentities} {transport : ResolutionTransport}
  {gateway after : Gateway} {attempt : GatewayAttempt} {policy : PolicySnapshot} {counter : Nat}
  {limits : GatewayLimits}

theorem topology_of_validateTopology (valid : validateTopology identities transport = .ok ()) :
    Topology identities transport := by
  rcases identities with ⟨peer, proxy, target⟩
  cases transport with
  | handshakeP2pOdoh =>
    cases proxy with
    | none => simp [validateTopology] at valid
    | some proxy =>
      cases target with
      | none => simp [validateTopology] at valid
      | some target =>
        cases peer with
        | some peer => simp [validateTopology] at valid
        | none =>
          refine ⟨proxy, target, rfl, ?_⟩
          rintro rfl
          simp [validateTopology] at valid
  | handshakeP2pDnsRelay =>
    cases peer with
    | none => simp [validateTopology] at valid
    | some peer =>
      cases proxy with
      | some proxy => simp [validateTopology] at valid
      | none =>
        cases target with
        | some target => simp [validateTopology] at valid
        | none => exact ⟨peer, rfl⟩
  | directAuthoritativeUdp | directAuthoritativeTcp | authenticatedAuthoritativeDoh
  | userConfiguredRecursiveHnsDoh =>
    simpa [validateTopology, Topology, GatewayIdentities.default] using valid
  | unavailable | validatingIcannDoh | localHnsProof => simp [validateTopology] at valid

/-- Identities that an attempt over a transport may report. -/
structure AdmitsIdentities (limits : GatewayLimits) (transport : ResolutionTransport)
    (identities : GatewayIdentities) : Prop where
  topology : Topology identities transport
  present : ∀ identity ∈ presentIdentities identities,
    identity ≠ [] ∧ identity.length ≤ limits.maximumIdentityBytes

theorem admitsIdentities_of_validateResponse {bytes : Octets}
    (valid : gateway.validateResponse bytes identities transport = .ok ()) :
    AdmitsIdentities gateway.limits transport identities := by
  unfold validateResponse at valid
  split at valid
  next => cases valid
  next =>
    split at valid
    next => cases valid
    next bounded =>
      constructor
      · exact topology_of_validateTopology valid
      · intro identity present
        simp only [List.any_eq_true, Bool.or_eq_true, List.isEmpty_iff, decide_eq_true_eq,
          not_exists, not_and, not_or] at bounded
        exact ⟨(bounded identity present).1, Nat.le_of_not_lt (bounded identity present).2⟩

/-- A refused response settles its attempt. -/
theorem completionEvents_of_invalid {bytes : Octets} {error : GatewayError}
    (invalid : gateway.validateResponse bytes identities transport = .error error)
    (attempt : GatewayAttempt) :
    completionEvents attempt (.error error) = [.completed attempt none] := by
  unfold validateResponse at invalid
  split at invalid
  next =>
    cases invalid
    rfl
  next =>
    split at invalid
    next =>
      cases invalid
      rfl
    next =>
      unfold validateTopology at invalid
      cases transport <;> simp only at invalid <;> (repeat' split at invalid) <;>
        cases invalid <;> rfl

/-! ## Steps -/

def events (gateway : Gateway) : Call → List AttemptEvent
  | .nextAttempt policy now => issueEvents (gateway.nextAttempt policy now).1
  | .complete policy attempt outcome now =>
    completionEvents attempt (gateway.complete policy attempt outcome now).1
  | .revoke => [.revoked]

/-- The next attempt of a gateway. -/
def issue (gateway : Gateway) (transport : ResolutionTransport) (deadline : Nat) :
    GatewayAttempt where
  instanceId := gateway.instanceId
  policyGeneration := gateway.policy.generation
  sequence := gateway.sequence + 1
  candidateIndex := gateway.nextCandidate
  transport
  deadline

/-- What the completion of an attempt selects. -/
structure Selects (gateway : Gateway) (attempt : GatewayAttempt) (selection : GatewaySelection) :
    Prop where
  generation_eq : selection.policyGeneration = gateway.policy.generation
  transport_eq : selection.transport = attempt.transport
  identities : AdmitsIdentities gateway.limits attempt.transport selection.identities
  fallback_iff : selection.directRelayFallback = true ↔
    gateway.odohAttempted = true ∧ attempt.transport = .handshakeP2pDnsRelay

/-- What one call can do to a gateway. -/
inductive Step (gateway : Gateway) : List AttemptEvent → Gateway → Prop
  | unchanged : Step gateway [] gateway
  | revoked : Step gateway [.revoked] gateway.revoke
  | issued {transport : ResolutionTransport} (deadline : Nat)
      (running : gateway.terminal = false) (idle : gateway.active = none)
      (candidate_eq : gateway.plan[gateway.nextCandidate]? = some transport) :
      Step gateway [.issued (gateway.issue transport deadline)]
        { gateway with
          nextCandidate := gateway.nextCandidate + 1
          sequence := gateway.sequence + 1
          odohAttempted := gateway.odohAttempted || transport = .handshakeP2pOdoh
          active := some (gateway.issue transport deadline) }
  | failed {attempt : GatewayAttempt} (terminal : Bool)
      (active_eq : gateway.active = some attempt) :
      Step gateway [.completed attempt none] { gateway with active := none, terminal }
  | selected {attempt : GatewayAttempt} {selection : GatewaySelection}
      (active_eq : gateway.active = some attempt) (selects : gateway.Selects attempt selection) :
      Step gateway [.completed attempt (some selection)]
        { gateway with active := none, terminal := true }

theorem step_nextAttempt (gateway : Gateway) (policy : PolicySnapshot) (now : Nat) :
    gateway.Step (gateway.events (.nextAttempt policy now))
      (gateway.apply (.nextAttempt policy now)) := by
  simp only [events, Gateway.apply]
  by_cases current : gateway.IsCurrent policy
  · unfold nextAttempt
    rw [ensureCurrentPolicy_of_current current]
    dsimp only
    split
    next => exact .unchanged
    next running =>
      split
      next => exact .unchanged
      next idle =>
        split
        next => exact .unchanged
        next transport candidate_eq =>
          split
          next => exact .unchanged
          next sequence advanced =>
            split
            next => exact .unchanged
            next deadline deadline_eq =>
              rcases checkedAdd_eq_some_iff.mp advanced with ⟨rfl, -⟩
              exact .issued deadline (by simpa using running) (by simpa using idle) candidate_eq
  · unfold nextAttempt
    rw [ensureCurrentPolicy_of_stale current]
    exact .revoked

/-- A failed completion settles its attempt, and the resolution goes on or ends. -/
theorem step_retryOrUnavailable (active_eq : gateway.active = some attempt)
    (failure : TransportFailure) (transport : ResolutionTransport) :
    gateway.Step
      (completionEvents attempt
        (Gateway.retryOrUnavailable { gateway with active := none } failure transport).1)
      (Gateway.retryOrUnavailable { gateway with active := none } failure transport).2 := by
  unfold retryOrUnavailable
  split
  next => exact .failed true active_eq
  next =>
    split
    next => exact .failed gateway.terminal active_eq
    next => exact .failed true active_eq

theorem step_complete (gateway : Gateway) (policy : PolicySnapshot) (attempt : GatewayAttempt)
    (outcome : AttemptOutcome) (now : Nat) :
    gateway.Step (gateway.events (.complete policy attempt outcome now))
      (gateway.apply (.complete policy attempt outcome now)) := by
  simp only [events, Gateway.apply]
  by_cases current : gateway.IsCurrent policy
  · unfold complete
    rw [ensureCurrentPolicy_of_current current]
    dsimp only
    split
    next => exact .unchanged
    next active active_eq =>
      split
      next => exact .unchanged
      next same =>
        rcases not_ne_iff.mp same with rfl
        split
        next => exact step_retryOrUnavailable active_eq .timeout active.transport
        next =>
          cases outcome with
          | failure failure => exact step_retryOrUnavailable active_eq failure active.transport
          | response bytes identities =>
            dsimp only
            split
            next error invalid =>
              rw [completionEvents_of_invalid invalid]
              exact .failed true active_eq
            next valid =>
              apply Step.selected active_eq
              constructor
              · rfl
              · rfl
              · exact admitsIdentities_of_validateResponse valid
              · simp [and_comm]
  · unfold complete
    rw [ensureCurrentPolicy_of_stale current]
    exact .revoked

theorem step_apply (gateway : Gateway) (call : Call) :
    gateway.Step (gateway.events call) (gateway.apply call) := by
  cases call with
  | nextAttempt policy now => exact gateway.step_nextAttempt policy now
  | complete policy attempt outcome now => exact gateway.step_complete policy attempt outcome now
  | revoke => exact .revoked

/-! ## Runs -/

/-- The log of a run. -/
def log (gateway : Gateway) (calls : List Call) : List AttemptEvent :=
  logFrom Gateway.apply Gateway.events gateway calls

/-- What the log says of the gateway that a run leaves. -/
structure Disciplined (start : Gateway) (log : List AttemptEvent) (gateway : Gateway) : Prop where
  instanceId_eq : gateway.instanceId = start.instanceId
  limits_eq : gateway.limits = start.limits
  policy_eq : gateway.policy = start.policy
  plan_eq : gateway.plan = start.plan
  sequence_eq : gateway.sequence = gateway.nextCandidate
  nextCandidate_le : gateway.nextCandidate ≤ gateway.plan.length
  running : gateway.active.isSome → gateway.terminal = false
  transports_eq : (issuedAttempts log).map (·.transport) = start.plan.take gateway.nextCandidate
  sequences_eq : (issuedAttempts log).map (·.sequence) = List.range' 1 gateway.nextCandidate
  instanceIds_eq : ∀ attempt ∈ issuedAttempts log, attempt.instanceId = start.instanceId
  outstanding_eq : outstandingAttempts log = gateway.active.toList
  active_eq : ∀ attempt, gateway.active = some attempt →
    (issuedAttempts log).getLast? = some attempt
  odoh_iff : gateway.odohAttempted = true ↔
    ∃ attempt ∈ issuedAttempts log, attempt.transport = .handshakeP2pOdoh
  selections_eq : selections log = [] ∨ (selections log).length = 1 ∧ gateway.Ended

/-- A gateway on which nothing has been tried. -/
structure Fresh (gateway : Gateway) : Prop where
  nextCandidate_eq : gateway.nextCandidate = 0
  sequence_eq : gateway.sequence = 0
  active_eq : gateway.active = none
  terminal_eq : gateway.terminal = false
  odohAttempted_eq : gateway.odohAttempted = false

variable {start : Gateway}

theorem Fresh.disciplined (fresh : start.Fresh) : Disciplined start [] start where
  instanceId_eq := rfl
  limits_eq := rfl
  policy_eq := rfl
  plan_eq := rfl
  sequence_eq := by rw [fresh.sequence_eq, fresh.nextCandidate_eq]
  nextCandidate_le := by simp [fresh.nextCandidate_eq]
  running active := fresh.terminal_eq
  transports_eq := by simp [fresh.nextCandidate_eq, issuedAttempts]
  sequences_eq := by simp [fresh.nextCandidate_eq, issuedAttempts]
  instanceIds_eq := by simp [issuedAttempts]
  outstanding_eq := by simp [fresh.active_eq, outstandingAttempts]
  active_eq := by simp [fresh.active_eq]
  odoh_iff := by simp [fresh.odohAttempted_eq, issuedAttempts]
  selections_eq := .inl rfl

@[simp]
theorem issuedAttempts_append (earlier later : List AttemptEvent) :
    issuedAttempts (earlier ++ later) = issuedAttempts earlier ++ issuedAttempts later :=
  List.filterMap_append

@[simp]
theorem selections_append (earlier later : List AttemptEvent) :
    selections (earlier ++ later) = selections earlier ++ selections later :=
  List.filterMap_append

@[simp]
theorem outstandingAttempts_concat (log : List AttemptEvent) (event : AttemptEvent) :
    outstandingAttempts (log ++ [event]) = event.settle (outstandingAttempts log) := by
  simp [outstandingAttempts]

variable {log : List AttemptEvent}

section

variable (disciplined : Disciplined start log gateway)

include disciplined

/-- An event that issues nothing and leaves no attempt outstanding. -/
theorem Disciplined.settle {event : AttemptEvent} {terminal : Bool} (quiet : event.issued? = none)
    (emptied : event.settle gateway.active.toList = [])
    (selections_eq : selections (log ++ [event]) = [] ∨
      (selections (log ++ [event])).length = 1 ∧ terminal = true) :
    Disciplined start (log ++ [event]) { gateway with active := none, terminal } := by
  have issued_eq : issuedAttempts (log ++ [event]) = issuedAttempts log := by
    simp [issuedAttempts, quiet]
  constructor
  · exact disciplined.instanceId_eq
  · exact disciplined.limits_eq
  · exact disciplined.policy_eq
  · exact disciplined.plan_eq
  · exact disciplined.sequence_eq
  · exact disciplined.nextCandidate_le
  · simp
  · rw [issued_eq]
    exact disciplined.transports_eq
  · rw [issued_eq]
    exact disciplined.sequences_eq
  · rw [issued_eq]
    exact disciplined.instanceIds_eq
  · rw [outstandingAttempts_concat, disciplined.outstanding_eq, emptied]
    rfl
  · simp
  · rw [issued_eq]
    exact disciplined.odoh_iff
  · exact selections_eq.imp_right fun ended => ⟨ended.1, ended.2, rfl⟩

/-- While an attempt is active nothing has been selected. -/
theorem Disciplined.selections_of_active (active_eq : gateway.active = some attempt) :
    selections log = [] := by
  rcases disciplined.selections_eq with none_selected | ⟨-, ended⟩
  · exact none_selected
  · rw [ended.2] at active_eq
    cases active_eq

theorem Disciplined.selections_of_running (running : gateway.terminal = false) :
    selections log = [] := by
  rcases disciplined.selections_eq with none_selected | ⟨-, ended⟩
  · exact none_selected
  · rw [ended.1] at running
    cases running

theorem Disciplined.issue (deadline : Nat) (running : gateway.terminal = false)
    (idle : gateway.active = none)
    (candidate_eq : gateway.plan[gateway.nextCandidate]? = some transport) :
    Disciplined start (log ++ [.issued (gateway.issue transport deadline)])
      { gateway with
        nextCandidate := gateway.nextCandidate + 1
        sequence := gateway.sequence + 1
        odohAttempted := gateway.odohAttempted || transport = .handshakeP2pOdoh
        active := some (gateway.issue transport deadline) } := by
  have issued_eq : issuedAttempts (log ++ [.issued (gateway.issue transport deadline)]) =
      issuedAttempts log ++ [gateway.issue transport deadline] := by
    simp [issuedAttempts, AttemptEvent.issued?]
  constructor
  · exact disciplined.instanceId_eq
  · exact disciplined.limits_eq
  · exact disciplined.policy_eq
  · exact disciplined.plan_eq
  · exact congrArg (· + 1) disciplined.sequence_eq
  · exact (List.getElem?_eq_some_iff.mp candidate_eq).1
  · exact fun _ => running
  · rw [issued_eq, List.map_append, disciplined.transports_eq]
    rw [disciplined.plan_eq] at candidate_eq
    rw [List.take_add_one, candidate_eq]
    rfl
  · rw [issued_eq, List.map_append, disciplined.sequences_eq, List.range'_concat]
    simp [Gateway.issue, disciplined.sequence_eq, Nat.add_comm]
  · rw [issued_eq]
    intro attempt issued
    rcases List.mem_append.mp issued with earlier | last
    · exact disciplined.instanceIds_eq attempt earlier
    · rw [List.mem_singleton.mp last]
      exact disciplined.instanceId_eq
  · rw [outstandingAttempts_concat, disciplined.outstanding_eq, idle]
    rfl
  · rw [issued_eq]
    intro attempt active_eq
    exact List.getLast?_concat.trans active_eq
  · rw [issued_eq]
    simp only [Bool.or_eq_true, decide_eq_true_eq, disciplined.odoh_iff, List.mem_append,
      List.mem_singleton, or_and_right, exists_or, exists_eq_left]
    rfl
  · left
    rw [selections_append, disciplined.selections_of_running running]
    rfl

end

variable {events : List AttemptEvent}

/-- Every step keeps the log and the gateway together. -/
theorem Disciplined.step (disciplined : Disciplined start log gateway)
    (step : gateway.Step events after) : Disciplined start (log ++ events) after := by
  cases step with
  | unchanged => simpa using disciplined
  | revoked =>
    apply disciplined.settle rfl rfl
    rw [selections_append]
    exact disciplined.selections_eq.imp (fun empty => by rw [empty]; rfl)
      fun ended => ⟨by rw [List.length_append, ended.1]; rfl, rfl⟩
  | issued deadline running idle candidate_eq =>
    exact disciplined.issue deadline running idle candidate_eq
  | failed terminal active_eq =>
    apply disciplined.settle rfl
    · simp [active_eq, AttemptEvent.settle]
    · left
      rw [selections_append, disciplined.selections_of_active active_eq]
      rfl
  | selected active_eq selects =>
    apply disciplined.settle rfl
    · simp [active_eq, AttemptEvent.settle]
    · right
      rw [selections_append, disciplined.selections_of_active active_eq]
      exact ⟨rfl, rfl⟩

theorem Fresh.disciplined_run (fresh : start.Fresh) (calls : List Call) :
    Disciplined start (start.log calls) (runFrom Gateway.apply start calls) := by
  have preserved : ∀ (log : List AttemptEvent) (gateway : Gateway) (call : Call),
      Disciplined start log gateway →
        Disciplined start (log ++ gateway.events call) (gateway.apply call) :=
    fun _ gateway call disciplined => disciplined.step (gateway.step_apply call)
  exact logFrom_invariant fresh.disciplined preserved calls

/-- A selection is made by completing the active attempt. -/
theorem Step.of_selection (step : gateway.Step events after) {selection : GatewaySelection}
    (selected : .completed attempt (some selection) ∈ events) :
    gateway.active = some attempt ∧ gateway.Selects attempt selection ∧ after.Ended := by
  cases step with
  | unchanged => simp at selected
  | revoked => simp at selected
  | issued deadline running idle candidate_eq => simp at selected
  | failed terminal active_eq => simp at selected
  | selected active_eq selects =>
    simp only [List.mem_singleton, AttemptEvent.completed.injEq, Option.some.injEq] at selected
    rcases selected with ⟨rfl, rfl⟩
    exact ⟨active_eq, selects, rfl, rfl⟩

/-- After the end a gateway can only be revoked. -/
theorem Step.of_ended (step : gateway.Step events after) (ended : gateway.Ended) :
    ∀ event ∈ events, event = .revoked := by
  cases step with
  | unchanged => simp
  | revoked => simp
  | issued deadline running idle candidate_eq =>
    rw [ended.1] at running
    cases running
  | failed terminal active_eq =>
    rw [ended.2] at active_eq
    cases active_eq
  | selected active_eq selects =>
    rw [ended.2] at active_eq
    cases active_eq

theorem Ended.log_revoked (ended : gateway.Ended) (calls : List Call) :
    ∀ event ∈ gateway.log calls, event = .revoked := by
  induction calls generalizing gateway with
  | nil => simp [log]
  | cons call calls ih =>
    intro event logged
    rw [log, logFrom_cons, List.mem_append] at logged
    rcases logged with first | rest
    · exact (gateway.step_apply call).of_ended ended event first
    · exact ih (ended.apply call).1 event rest

/-- A token that is not the active one completes nothing. -/
theorem complete_inactive (current : gateway.IsCurrent policy) {token : GatewayAttempt}
    (inactive : gateway.active ≠ some token) (outcome : AttemptOutcome) (now : Nat) :
    (∃ error, gateway.reply (.complete policy token outcome now) = .refused error) ∧
      gateway.apply (.complete policy token outcome now) = gateway := by
  simp only [reply, Gateway.apply, complete, ensureCurrentPolicy_of_current current]
  cases active_eq : gateway.active with
  | none => simp
  | some active =>
    have mismatch : active ≠ token := by
      rintro rfl
      exact inactive active_eq
    simp [mismatch]

/-! ## Gateways of one process -/

/-- The gateways that a process creates one after the other, from its counter on. -/
def create (counter : Nat) : List (PolicySnapshot × GatewayLimits) → List Gateway
  | [] => []
  | (policy, limits) :: requests =>
    match Gateway.new counter policy limits with
    | (.error _, counter) => create counter requests
    | (.ok gateway, counter) => gateway :: create counter requests

theorem new_eq_ok {next : Nat} (created : Gateway.new counter policy limits = (.ok gateway, next)) :
    next = counter + 1 ∧ gateway.instanceId = counter ∧ gateway.Fresh ∧
      gateway.plan = transportPlan gateway.policy.config := by
  unfold Gateway.new at created
  split at created
  next => cases created
  next =>
    split at created
    next => cases created
    next advanced =>
      cases created
      exact ⟨(checkedAdd_eq_some_iff.mp advanced).1, rfl, ⟨rfl, rfl, rfl, rfl, rfl⟩, rfl⟩

theorem new_eq_error {next : Nat} {error : GatewayError}
    (refused : Gateway.new counter policy limits = (.error error, next)) :
    next = counter := by
  unfold Gateway.new at refused
  split at refused
  next =>
    cases refused
    rfl
  next =>
    split at refused
    next =>
      cases refused
      rfl
    next => cases refused

variable {requests : List (PolicySnapshot × GatewayLimits)}

theorem fresh_of_mem_create (created : gateway ∈ create counter requests) :
    counter ≤ gateway.instanceId ∧ gateway.Fresh ∧
      gateway.plan = transportPlan gateway.policy.config := by
  induction requests generalizing counter with
  | nil => simp [create] at created
  | cons request requests ih =>
    rw [create] at created
    split at created
    next error next new_eq =>
      rcases new_eq_error new_eq with rfl
      exact ih created
    next first next new_eq =>
      rcases new_eq_ok new_eq with ⟨rfl, first_id, first_fresh, first_plan⟩
      rcases List.mem_cons.mp created with rfl | later
      · exact ⟨Nat.le_of_eq first_id.symm, first_fresh, first_plan⟩
      · have after := ih later
        exact ⟨Nat.le_of_succ_le after.1, after.2⟩

/-- No two gateways of a process share an instance identifier. -/
theorem create_pairwise (counter : Nat) (requests : List (PolicySnapshot × GatewayLimits)) :
    (create counter requests).Pairwise fun first second =>
      first.instanceId < second.instanceId := by
  induction requests generalizing counter with
  | nil => exact .nil
  | cons request requests ih =>
    rw [create]
    split
    next error next new_eq => exact ih next
    next first next new_eq =>
      rcases new_eq_ok new_eq with ⟨rfl, first_id, -⟩
      apply List.Pairwise.cons
      · intro second later
        rw [first_id]
        exact (fresh_of_mem_create later).1
      · exact ih _

theorem instanceId_ne_of_mem_create {first second : Gateway}
    (first_created : first ∈ create counter requests)
    (second_created : second ∈ create counter requests) (different : first ≠ second) :
    first.instanceId ≠ second.instanceId := by
  have apart : (create counter requests).Pairwise fun first second =>
      first.instanceId ≠ second.instanceId :=
    (create_pairwise counter requests).imp Nat.ne_of_lt
  have symmetric : Std.Symm fun first second : Gateway => first.instanceId ≠ second.instanceId :=
    ⟨fun _ _ => Ne.symm⟩
  exact apart.forall first_created second_created different

/-- A token of another gateway of the process, or of an attempt of this gateway that a
later one has followed or that is settled. -/
def IsStaleToken (gateways : List Gateway) (start : Gateway) (calls : List Call)
    (token : GatewayAttempt) : Prop :=
  (∃ other ∈ gateways, other ≠ start ∧ ∃ others, token ∈ issuedAttempts (other.log others)) ∨
    token ∈ (issuedAttempts (start.log calls)).dropLast ∨
      token ∈ issuedAttempts (start.log calls) ∧ token ∉ outstandingAttempts (start.log calls)

theorem IsStaleToken.active_ne (created : start ∈ create counter requests) {calls : List Call}
    {token : GatewayAttempt} (stale : IsStaleToken (create counter requests) start calls token) :
    (runFrom Gateway.apply start calls).active ≠ some token := by
  have disciplined := (fresh_of_mem_create created).2.1.disciplined_run calls
  intro active_eq
  have last_eq := disciplined.active_eq token active_eq
  rcases stale with ⟨other, other_created, different, others, issued⟩ | earlier | ⟨-, settled⟩
  · -- both gateways put their own identifier in the token
    have own := disciplined.instanceIds_eq token (List.mem_of_getLast? last_eq)
    have foreign := ((fresh_of_mem_create other_created).2.1.disciplined_run others).instanceIds_eq
      token issued
    exact instanceId_ne_of_mem_create other_created created different (foreign.symm.trans own)
  · -- the sequence numbers of a run are all different
    have sequences : ((issuedAttempts (start.log calls)).map (·.sequence)).Nodup := by
      rw [disciplined.sequences_eq]
      exact List.nodup_range'
    have distinct : (issuedAttempts (start.log calls)).Nodup := List.Nodup.of_map _ sequences
    rw [← List.dropLast_append_getLast? token last_eq] at distinct
    exact (List.nodup_append.mp distinct).2.2 token earlier token (List.mem_singleton_self token) rfl
  · apply settled
    rw [disciplined.outstanding_eq, active_eq]
    exact List.mem_singleton_self token

end Gateway

/-- What the selection of a run owes to the log before it. -/
structure IsSelectionOf (start : Gateway) (log : List AttemptEvent) (attempt : GatewayAttempt)
    (selection : GatewaySelection) : Prop where
  outstanding : attempt ∈ outstandingAttempts log
  issued : attempt ∈ issuedAttempts log
  transport_eq : selection.transport = attempt.transport
  identities : Gateway.AdmitsIdentities start.limits selection.transport selection.identities
  fallback_iff : selection.directRelayFallback = true ↔
    (∃ odoh ∈ issuedAttempts log, odoh.transport = .handshakeP2pOdoh) ∧
      selection.transport = .handshakeP2pDnsRelay

/-- Attempts follow the plan one at a time; a selection completes an outstanding attempt and
nothing but revocations follows it; a stale token changes nothing under the policy of the
gateway, and every other policy revokes the gateway, whatever the token. -/
theorem attempts_disciplined {counter : Nat} {requests : List (PolicySnapshot × GatewayLimits)}
    {start : Gateway} (created : start ∈ Gateway.create counter requests) (calls : List Call) :
    (issuedAttempts (start.log calls)).map (·.transport) <+: transportPlan start.policy.config ∧
    ((issuedAttempts (start.log calls)).map (·.transport)).Nodup ∧
    (outstandingAttempts (start.log calls)).length ≤ 1 ∧
    (selections (start.log calls)).length ≤ 1 ∧
    (∀ call attempt selection,
      .completed attempt (some selection) ∈ (runFrom Gateway.apply start calls).events call →
        IsSelectionOf start (start.log calls) attempt selection ∧
          ∀ later, ∀ event ∈ ((runFrom Gateway.apply start calls).apply call).log later,
            event = .revoked) ∧
    ∀ policy token outcome now,
      ((runFrom Gateway.apply start calls).IsCurrent policy →
        Gateway.IsStaleToken (Gateway.create counter requests) start calls token →
          (∃ error, (runFrom Gateway.apply start calls).reply
              (.complete policy token outcome now) = .refused error) ∧
            (runFrom Gateway.apply start calls).apply (.complete policy token outcome now) =
              runFrom Gateway.apply start calls) ∧
      (¬ (runFrom Gateway.apply start calls).IsCurrent policy →
        (runFrom Gateway.apply start calls).apply (.complete policy token outcome now) =
          (runFrom Gateway.apply start calls).revoke) := by
  rcases Gateway.fresh_of_mem_create created with ⟨-, fresh, plan_eq⟩
  have disciplined := fresh.disciplined_run calls
  have followed : (issuedAttempts (start.log calls)).map (·.transport) <+:
      transportPlan start.policy.config := by
    rw [disciplined.transports_eq, plan_eq]
    exact List.take_prefix _ _
  refine ⟨followed, (transportPlan_nodup _).sublist followed.sublist, ?_, ?_, ?_, ?_⟩
  · rw [disciplined.outstanding_eq]
    exact Option.length_toList_le
  · rcases disciplined.selections_eq with none_selected | ⟨one, -⟩
    · simp [none_selected]
    · exact Nat.le_of_eq one
  · intro call attempt selection selected
    rcases (Gateway.step_apply _ call).of_selection selected with ⟨active_eq, selects, ended⟩
    constructor
    · constructor
      · rw [disciplined.outstanding_eq, active_eq]
        exact List.mem_singleton_self attempt
      · exact List.mem_of_getLast? (disciplined.active_eq attempt active_eq)
      · exact selects.transport_eq
      · rw [selects.transport_eq, ← disciplined.limits_eq]
        exact selects.identities
      · rw [selects.fallback_iff, disciplined.odoh_iff, selects.transport_eq]
    · exact fun later => ended.log_revoked later
  · intro policy token outcome now
    constructor
    · intro current stale
      exact Gateway.complete_inactive current (stale.active_ne created) outcome now
    · intro changed
      rw [Gateway.apply, Gateway.complete, Gateway.ensureCurrentPolicy_of_stale changed]

/-! Two gateways of one process; the second one issues the token. -/

namespace ExampleAttempts

def requests : List (PolicySnapshot × GatewayLimits) :=
  [(.default, .default), (.default, .default)]

def start : Gateway :=
  ExampleResolution.gateway

def other : Gateway :=
  { start with instanceId := 2 }

def token : GatewayAttempt :=
  { ExampleResolution.attempt with instanceId := 2 }

def changedPolicy : PolicySnapshot :=
  { PolicySnapshot.default with generation := 2, generation_ne := Nat.succ_ne_zero 1 }

/-- The attempt at a candidate of the default plan. -/
def attemptAt (candidate : Nat) (transport : ResolutionTransport) : GatewayAttempt :=
  { ExampleResolution.attempt with
    sequence := candidate + 1, candidateIndex := candidate, transport }

/-- Every transport before the relay times out. -/
def fallbackCalls : List Call :=
  ((transportPlan .default).take 4).zipIdx.flatMap (fun (transport, candidate) =>
    [.nextAttempt .default 100,
      .complete .default (attemptAt candidate transport) (.failure .timeout) 105]) ++
    [.nextAttempt .default 100]

def selection : GatewaySelection :=
  ⟨1, .handshakeP2pDnsRelay, [1], ⟨some [7], none, none⟩, true⟩

/-- The relay answers. -/
def relayed : Call :=
  .complete .default (attemptAt 4 .handshakeP2pDnsRelay)
    (.response selection.response selection.identities) 105

/-- The relay is selected as a fallback, and the token of the UDP attempt is refused. -/
theorem attempts_disciplined_fallback :
    ((issuedAttempts (start.log fallbackCalls)).map (·.transport)).Nodup ∧
      IsSelectionOf start (start.log fallbackCalls) (attemptAt 4 .handshakeP2pDnsRelay)
        selection ∧
      selection.directRelayFallback = true ∧
      ∃ error, (runFrom Gateway.apply start fallbackCalls).reply
        (.complete .default (attemptAt 0 .directAuthoritativeUdp) (.failure .timeout) 105) =
          .refused error := by
  have created : start ∈ Gateway.create 1 requests := by decide
  have selected : (runFrom Gateway.apply start fallbackCalls).events relayed =
      [.completed (attemptAt 4 .handshakeP2pDnsRelay) (some selection)] := by
    rfl
  rcases attempts_disciplined created fallbackCalls with ⟨-, nodup, -, -, owes, stale⟩
  have owed := owes relayed (attemptAt 4 .handshakeP2pDnsRelay) selection
    (by rw [selected]; exact List.mem_singleton_self _)
  have earlier : attemptAt 0 .directAuthoritativeUdp ∈
      (issuedAttempts (start.log fallbackCalls)).dropLast := by
    decide
  have refused := (stale .default (attemptAt 0 .directAuthoritativeUdp) (.failure .timeout) 105).1
    ⟨rfl, rfl⟩ (.inr (.inl earlier))
  exact ⟨nodup, owed.1, rfl, refused.1⟩

/-- Under a changed policy even the token of another gateway revokes. -/
theorem revoked_by_foreign_token :
    Gateway.create 1 requests = [start, other] ∧
      token ∈ issuedAttempts (other.log ExampleResolution.calls) ∧
      start.apply (.complete changedPolicy token (.failure .timeout) 100) ≠ start := by
  decide

end ExampleAttempts

end HnsDaneEngine.Transport
