import HnsDaneEngine.LoopbackProxy.Session

/-!
# What one call of a proxy session can do

Every call either fails, and then only lets the clock go on, drops requests or reclaims
records that are not current, or it makes exactly one change.
-/

namespace HnsDaneEngine.LoopbackProxy

open Control
open Data (Store)
open Engine
open NamespaceResolution (SocketAddr)
open Primitives (checkedAdd checkedAdd_eq_some_iff)

/-- The calls of a session. -/
inductive Call
  | admitConnect (engine : EngineView) (client : SocketAddr) (requestHead : Octets) (now : Nat)
  | publishAuthority (engine : EngineView) (expectedRegistryGeneration : Nat)
      (authority : ProviderAuthorityContext) (now : Nat)
  | replaceAuthority (engine : EngineView) (expectedRegistryGeneration : Nat)
      (admission : PublishedAdmission) (authority : ProviderAuthorityContext) (now : Nat)
  | revokeAuthority (expectedRegistryGeneration : Nat) (admission : PublishedAdmission)
  | authorizeConnect (engine : EngineView) (pending : PendingConnect)
      (admission : PublishedAdmission) (expectedRegistryGeneration now : Nat)
  | revalidateTunnelGrant (engine : EngineView) (grant : TunnelGrant)
      (expectedRegistryGeneration now : Nat)
  | cancel (pending : PendingConnect)

/-- What a call returns. -/
inductive Reply
  | failed (error : ProxyError)
  | admitted (pending : PendingConnect)
  | published (admission : PublishedAdmission)
  | revoked (registryGeneration : Nat)
  | granted (grant : TunnelGrant)
  | revalidated
  | cancelled
  deriving DecidableEq

/-- The reply to a call that returns a value or an error. -/
def Reply.of {α : Type} (accept : α → Reply) : Except ProxyError α → Reply
  | .ok value => accept value
  | .error error => .failed error

namespace ProxySession

def reply (session : ProxySession) : Call → Reply
  | .admitConnect engine client requestHead now =>
    .of .admitted (session.admitConnect engine client requestHead now).1
  | .publishAuthority engine expected authority now =>
    .of .published (session.publishAuthority engine expected authority now).1
  | .replaceAuthority engine expected admission authority now =>
    .of .published (session.replaceAuthority engine expected admission authority now).1
  | .revokeAuthority expected admission =>
    .of .revoked (session.revokeAuthority expected admission).1
  | .authorizeConnect engine pending admission expected now =>
    .of .granted (session.authorizeConnect engine pending admission expected now).1
  | .revalidateTunnelGrant engine grant expected now =>
    .of (fun _ => .revalidated) (session.revalidateTunnelGrant engine grant expected now).1
  | .cancel pending => .of (fun _ => .cancelled) (session.cancel pending).1

/-- The session that a call leaves behind, whatever it returns. -/
def apply (session : ProxySession) : Call → ProxySession
  | .admitConnect engine client requestHead now =>
    (session.admitConnect engine client requestHead now).2
  | .publishAuthority engine expected authority now =>
    (session.publishAuthority engine expected authority now).2
  | .replaceAuthority engine expected admission authority now =>
    (session.replaceAuthority engine expected admission authority now).2
  | .revokeAuthority expected admission => (session.revokeAuthority expected admission).2
  | .authorizeConnect engine pending admission expected now =>
    (session.authorizeConnect engine pending admission expected now).2
  | .revalidateTunnelGrant engine grant expected now =>
    (session.revalidateTunnelGrant engine grant expected now).2
  | .cancel pending => (session.cancel pending).2

/-- A session after a sequence of calls. -/
def run (instanceId : Nat) (config : ProxyConfig) (calls : List Call) : ProxySession :=
  runFrom apply (opened instanceId config) calls

/-! ## Waiting -/

/-- The clock of the second session is that of the first or has gone on. -/
def ClockLe (before after : ProxySession) : Prop :=
  ∀ last, before.lastObservedTime = some last →
    ∃ now, after.lastObservedTime = some now ∧ last ≤ now

/-- Only the clock may have gone on, and requests may have been dropped. -/
structure Waits (before after : ProxySession) : Prop where
  instanceId_eq : after.instanceId = before.instanceId
  config_eq : after.config = before.config
  clock : before.ClockLe after
  sequence_eq : after.sequence = before.sequence
  pending : ∀ {sequence record}, after.pending.lookup sequence = some record →
    before.pending.lookup sequence = some record
  pending_le : after.pending.size ≤ before.pending.size
  registryGeneration_eq : after.registryGeneration = before.registryGeneration
  publicationSequence_eq : after.publicationSequence = before.publicationSequence
  publications_eq : after.publications = before.publications

namespace Waits

theorem refl (session : ProxySession) : session.Waits session :=
  ⟨rfl, rfl, fun last held => ⟨last, held, Nat.le_refl last⟩, rfl, id, Nat.le_refl _, rfl, rfl, rfl⟩

theorem trans {first second third : ProxySession} (earlier : first.Waits second)
    (later : second.Waits third) : first.Waits third where
  instanceId_eq := later.instanceId_eq.trans earlier.instanceId_eq
  config_eq := later.config_eq.trans earlier.config_eq
  clock := by
    intro last held
    rcases earlier.clock last held with ⟨middle, middle_eq, last_le⟩
    rcases later.clock middle middle_eq with ⟨now, now_eq, middle_le⟩
    exact ⟨now, now_eq, last_le.trans middle_le⟩
  sequence_eq := later.sequence_eq.trans earlier.sequence_eq
  pending held := earlier.pending (later.pending held)
  pending_le := later.pending_le.trans earlier.pending_le
  registryGeneration_eq := later.registryGeneration_eq.trans earlier.registryGeneration_eq
  publicationSequence_eq := later.publicationSequence_eq.trans earlier.publicationSequence_eq
  publications_eq := later.publications_eq.trans earlier.publications_eq

theorem retainPending (session : ProxySession) (now : Nat) :
    session.Waits (session.retainPending now) :=
  { refl session with
    pending := fun held => (Store.lookup_of_lookup_retain held).1
    pending_le := Store.size_retain_le _ _ }

theorem erasePending (session : ProxySession) (sequence : Nat) :
    session.Waits { session with pending := session.pending.erase sequence } :=
  { refl session with
    pending := fun held => (Store.lookup_of_lookup_erase held).1
    pending_le := Store.size_erase_le sequence session.pending }

end Waits

variable {session observed : ProxySession} {now : Nat} {admission : PublishedAdmission}
  {record : PublicationRecord} {pending : PendingConnect} {engine : EngineView}
  {logicalOrigin : LogicalOrigin}

theorem observeTime_eq_ok (accepted : session.observeTime now = .ok observed) :
    observed = { session with lastObservedTime := some now } ∧
      ∀ last, session.lastObservedTime = some last → last ≤ now := by
  rw [observeTime, guard_eq_ok_iff] at accepted
  rcases accepted with ⟨notBefore, observed_eq⟩
  constructor
  · exact (Except.ok.inj observed_eq).symm
  · intro last held
    simpa [held] using notBefore

theorem Waits.observeTime (accepted : session.observeTime now = .ok observed) :
    session.Waits observed := by
  rcases observeTime_eq_ok accepted with ⟨rfl, notBefore⟩
  exact { refl session with clock := fun last held => ⟨now, rfl, notBefore last held⟩ }

/-- What checks that end with the clock leave. -/
theorem Waits.of_begun {α : Type} {first : Except ProxyError α}
    (begun : first >>= (fun _ => session.observeTime now) = .ok observed) :
    session.Waits observed ∧ observed.lastObservedTime = some now := by
  rcases of_bind_ok begun with ⟨value, -, accepted⟩
  constructor
  · exact Waits.observeTime accepted
  · rw [(observeTime_eq_ok accepted).1]

/-! ## Parts of the calls -/

theorem ensureRegistryGeneration_eq_ok {expected : Nat}
    (current : session.ensureRegistryGeneration expected = .ok ()) :
    expected = session.registryGeneration := by
  rw [ensureRegistryGeneration, guard_eq_ok_iff] at current
  exact not_not.mp current.1

theorem nextRegistryGeneration_eq_ok {next : Nat}
    (advanced : session.nextRegistryGeneration = .ok next) :
    next = session.registryGeneration + 1 := by
  rw [nextRegistryGeneration] at advanced
  split at advanced
  · next sum fits =>
      rw [← Except.ok.inj advanced]
      exact (checkedAdd_eq_some_iff.mp fits).1
  · cases advanced

/-- The admission belongs to this session and names the resident record. -/
structure Validates (session : ProxySession) (admission : PublishedAdmission)
    (record : PublicationRecord) : Prop where
  instanceId_eq : admission.instanceId = session.instanceId
  resident : session.publications.lookup admission.logicalOrigin = some record
  publicationId_eq : record.publicationId = admission.publicationId
  generation_eq : record.publicationGeneration = admission.publicationGeneration

theorem validateAdmission_eq_ok (validated : session.validateAdmission admission = .ok record) :
    session.Validates admission record := by
  rw [validateAdmission, guard_eq_ok_iff] at validated
  rcases validated with ⟨own, validated⟩
  cases resident : session.publications.lookup admission.logicalOrigin with
  | none => rw [resident] at validated; cases validated
  | some held =>
    rw [resident] at validated
    change (if _ then _ else _) = _ at validated
    rw [guard_eq_ok_iff] at validated
    rcases validated with ⟨same, record_eq⟩
    cases record_eq
    simp only [not_or, not_not] at own same
    exact ⟨own.1, resident, same.1, same.2.1⟩

/-- Facts about a request that passed every check. -/
structure Authenticates (session : ProxySession) (requestHead : Octets) (now : Nat)
    (pending : PendingConnect) : Prop where
  instanceId_eq : pending.instanceId = session.instanceId
  sequence_eq : pending.sequence = session.sequence + 1
  pending_lt : session.pending.size < session.config.limits.maximumPending
  admittedAt_eq : pending.admittedAt = now
  expiresAt_eq : pending.expiresAt = now + session.config.limits.maximumPendingLifetimeSeconds
  authenticated : ∃ parsed, parseConnectHead requestHead session.config.limits = .ok parsed ∧
      session.config.authorization.verifyHeaderValues parsed.authorization = true ∧
      session.config.scope.authorize parsed.host.asStr = .ok pending.host ∧
      parsed.port = pending.port

theorem prepareConnect_eq_ok {requestHead : Octets}
    (prepared : session.prepareConnect requestHead now = .ok pending) :
    session.Authenticates requestHead now pending := by
  rw [prepareConnect, guard_eq_ok_iff] at prepared
  rcases prepared with ⟨room, prepared⟩
  rcases of_bind_ok prepared with ⟨parsed, parsed_eq, prepared⟩
  rcases of_bind_ok prepared with ⟨host, host_eq, prepared⟩
  rw [guard_eq_ok_iff, Bool.not_eq_true', Bool.not_eq_false] at prepared
  rcases prepared with ⟨verified, prepared⟩
  cases sequence_eq : checkedAdd session.sequence 1 with
  | none => rw [sequence_eq] at prepared; cases prepared
  | some sequence =>
    rw [sequence_eq] at prepared
    cases expiry_eq : checkedAdd now session.config.limits.maximumPendingLifetimeSeconds with
    | none => simp only [expiry_eq] at prepared; cases prepared
    | some expiresAt =>
      simp only [expiry_eq] at prepared
      cases prepared
      exact ⟨rfl, (checkedAdd_eq_some_iff.mp sequence_eq).1, Nat.not_le.mp room, rfl,
        (checkedAdd_eq_some_iff.mp expiry_eq).1, parsed, parsed_eq, verified, host_eq, rfl⟩

/-- The record was made for an authority that the engine called current. -/
structure Binds (session : ProxySession) (engine : EngineView)
    (authority : ProviderAuthorityContext) (publicationId publicationGeneration now : Nat)
    (logicalOrigin : LogicalOrigin) (record : PublicationRecord) : Prop where
  origin_eq : logicalOrigin = authority.logicalOrigin
  current : engine.providerAuthorityIsCurrent 0 authority now = .ok true
  record_eq : ∃ publicationValidUntil ≤ authority.validUntil,
    record = session.publicationRecord authority publicationId publicationGeneration now
      publicationValidUntil

theorem bindAuthority_eq_ok {authority : ProviderAuthorityContext}
    {publicationId publicationGeneration : Nat}
    (bound : session.bindAuthority engine authority publicationId publicationGeneration now =
      .ok (logicalOrigin, record)) :
    session.Binds engine authority publicationId publicationGeneration now logicalOrigin record := by
  rw [bindAuthority] at bound
  rcases of_bind_ok bound with ⟨snapshot, -, bound⟩
  rcases of_bind_ok bound with ⟨host, -, bound⟩
  rw [guard_eq_ok_iff, guard_eq_ok_iff, guard_eq_ok_iff] at bound
  rcases bound with ⟨-, -, -, bound⟩
  rcases of_bind_ok bound with ⟨current, answered, bound⟩
  rw [guard_eq_ok_iff, Bool.not_eq_true', Bool.not_eq_false] at bound
  rcases bound with ⟨rfl, bound⟩
  cases deadline_eq : checkedAdd now session.config.limits.maximumPublicationLifetimeSeconds with
  | none => simp only [deadline_eq] at bound; cases bound
  | some deadline =>
    simp only [deadline_eq, guard_eq_ok_iff] at bound
    cases bound.2
    exact ⟨rfl, mapError_eq_ok_iff.mp answered, _, Nat.min_le_left _ _, rfl⟩

/-! ## The scan before a publication -/

/-- The engine does not call the record current when the scan, from its first question on, asks
about it at its place. -/
def IsStale (engine : EngineView) (now first : Nat)
    (entries : List (Sigma fun _ : LogicalOrigin => PublicationRecord)) (origin : LogicalOrigin)
    (record : PublicationRecord) : Prop :=
  ∃ index, entries[index]? = some ⟨origin, record⟩ ∧
    publicationIsCurrent engine (first + index) record now = .ok false

/-- The scan divides the records into stale and current ones. -/
structure Divides (engine : EngineView) (now first : Nat)
    (entries : List (Sigma fun _ : LogicalOrigin => PublicationRecord)) (scan : Scan) : Prop where
  stale : ∀ origin ∈ scan.reclaimable, ∃ record, IsStale engine now first entries origin record
  current : (entries.filter fun entry => !scan.reclaimable.contains entry.1).length =
    scan.currentPublications

theorem scanPublications_divides {entries : List (Sigma fun _ : LogicalOrigin => PublicationRecord)}
    {read : Nat} {scan : Scan} (distinct : entries.NodupKeys)
    (scanned : scanPublications engine logicalOrigin now read entries = .ok scan) :
    Divides engine now read entries scan := by
  induction entries generalizing read scan with
  | nil =>
    cases scanned
    constructor
    · rintro origin ⟨⟩
    · rfl
  | cons entry entries ih =>
    rcases entry with ⟨origin, existing⟩
    rw [scanPublications] at scanned
    rcases of_bind_ok scanned with ⟨current, answered, scanned⟩
    rcases of_bind_ok scanned with ⟨rest, rest_eq, scanned⟩
    rw [List.nodupKeys_cons] at distinct
    have divides := ih distinct.2 rest_eq
    have fresh : origin ∉ rest.reclaimable := by
      intro held
      rcases divides.stale origin held with ⟨record, index, found, -⟩
      have inKeys : origin ∈ entries.keys := List.mem_keys_of_mem (List.mem_of_getElem? found)
      exact distinct.1 inKeys
    have later : ∀ other ∈ rest.reclaimable,
        ∃ record, IsStale engine now read (⟨origin, existing⟩ :: entries) other record := by
      intro other held
      rcases divides.stale other held with ⟨record, index, found, stale⟩
      rw [Nat.add_right_comm] at stale
      exact ⟨record, index + 1, found, stale⟩
    cases current with
    | true =>
      cases scanned
      constructor
      · exact later
      · rw [List.filter_cons_of_pos (by simpa using fresh), List.length_cons, divides.current]
    | false =>
      cases scanned
      constructor
      · intro other held
        rcases List.mem_cons.mp held with rfl | held
        · exact ⟨existing, 0, rfl, answered⟩
        · exact later other held
      · rw [List.filter_cons_of_neg (by simp), ← divides.current]
        congr 1
        apply List.filter_congr
        intro other mem
        have other_ne : other.1 ≠ origin := by
          rintro rfl
          have inKeys : other.1 ∈ entries.keys := List.mem_keys_of_mem mem
          exact distinct.1 inKeys
        simp [other_ne]

/-! ## Grants -/

/-- The grant was issued for the request under a current publication. -/
structure Grants (session : ProxySession) (engine : EngineView) (pending : PendingConnect)
    (admission : PublishedAdmission) (now : Nat) (publication : PublicationRecord)
    (grant : TunnelGrant) : Prop where
  inTime : pending.admittedAt ≤ now ∧ now < pending.expiresAt
  validates : session.Validates admission publication
  host_eq : admission.logicalOrigin.host = pending.host.asStr
  port_eq : admission.logicalOrigin.port = pending.port
  current : publicationIsCurrent engine 0 publication now = .ok true
  grant_eq : grant = session.tunnelGrant admission.logicalOrigin publication pending.sequence now
    grant.expiresAt
  expires_gt : now < grant.expiresAt
  expires_le_publication : grant.expiresAt ≤ publication.publicationValidUntil
  expires_le_limit : grant.expiresAt ≤ now + session.config.limits.maximumGrantLifetimeSeconds

theorem issueGrant_eq_ok {expected : Nat} {grant : TunnelGrant}
    (issued : session.issueGrant engine pending.sequence pending.record admission expected now =
      .ok grant) :
    ∃ publication, session.Grants engine pending admission now publication grant := by
  rw [issueGrant, guard_eq_ok_iff] at issued
  rcases issued with ⟨inTime, issued⟩
  rcases of_bind_ok issued with ⟨⟨⟩, -, issued⟩
  rcases of_bind_ok issued with ⟨snapshot, -, issued⟩
  rcases of_bind_ok issued with ⟨publication, validated, issued⟩
  rw [guard_eq_ok_iff] at issued
  rcases issued with ⟨same, issued⟩
  rcases of_bind_ok issued with ⟨current, answered, issued⟩
  rw [guard_eq_ok_iff, Bool.not_eq_true', Bool.not_eq_false] at issued
  rcases issued with ⟨rfl, issued⟩
  simp only [not_or, not_not, Nat.not_lt, Nat.not_le] at inTime same
  cases deadline_eq : checkedAdd now session.config.limits.maximumGrantLifetimeSeconds with
  | none => simp only [deadline_eq] at issued; cases issued
  | some deadline =>
    simp only [deadline_eq, guard_eq_ok_iff] at issued
    rcases issued with ⟨later, grant_eq⟩
    cases grant_eq
    refine ⟨publication, inTime, validateAdmission_eq_ok validated, same.2.1, same.2.2, answered,
      rfl, Nat.not_le.mp later, Nat.min_le_left _ _, ?_⟩
    rw [← (checkedAdd_eq_some_iff.mp deadline_eq).1]
    exact Nat.min_le_right _ _

/-- The grant passes every check at a time. -/
structure Revalidates (session : ProxySession) (grant : TunnelGrant) (now : Nat) : Prop where
  generation_eq : grant.registryGeneration = session.registryGeneration
  inTime : grant.issuedAt ≤ now ∧ now < grant.expiresAt

theorem checkGrant_eq_ok {grant : TunnelGrant}
    (checked : session.checkGrant engine grant session.registryGeneration now = .ok ()) :
    session.Revalidates grant now := by
  rw [checkGrant, guard_eq_ok_iff, guard_eq_ok_iff, Bool.not_eq_true', Bool.not_eq_false] at checked
  rcases checked with ⟨own, inTime, -⟩
  simp only [grantIsOwn, Bool.and_eq_true, beq_iff_eq, and_assoc] at own
  simp only [not_or, Nat.not_lt, Nat.not_le] at inTime
  exact ⟨own.1, inTime⟩

theorem checkPending_eq_ok {record : PendingRecord}
    (checked : session.checkPending pending = .ok record) :
    record = pending.record ∧ pending.instanceId = session.instanceId ∧
      session.pending.lookup pending.sequence = some pending.record := by
  rw [checkPending, guard_eq_ok_iff] at checked
  rcases checked with ⟨own, checked⟩
  cases held : session.pending.lookup pending.sequence with
  | none => rw [held] at checked; cases checked
  | some other =>
    simp only [held, guard_eq_ok_iff] at checked
    rcases checked with ⟨same, other_eq⟩
    cases other_eq
    rw [not_not.mp same]
    exact ⟨rfl, not_not.mp own, rfl⟩

/-! ## Steps -/

/-- Everything that one call can do. -/
inductive Step (session : ProxySession) : Call → Reply → ProxySession → Prop
  | failed {call : Call} {error : ProxyError} {next : ProxySession} (waits : session.Waits next) :
      Step session call (.failed error) next
  | reclaimed {engine : EngineView} {expected : Nat} {authority : ProviderAuthorityContext}
      {now : Nat} {error : ProxyError} {observed : ProxySession} {scan : Scan}
      (waits : session.Waits observed)
      (divides : Divides engine now 1 session.publications.entries scan) :
      Step session (.publishAuthority engine expected authority now) (.failed error)
        (observed.reclaim scan.reclaimable)
  | admitted {engine : EngineView} {client : SocketAddr} {requestHead : Octets} {now : Nat}
      {pending : PendingConnect} {retained : ProxySession} (waits : session.Waits retained)
      (clock : retained.lastObservedTime = some now) (loopback : isLoopback client.ip = true)
      (authenticates : retained.Authenticates requestHead now pending) :
      Step session (.admitConnect engine client requestHead now) (.admitted pending)
        { retained with
          pending := retained.pending.insert pending.sequence pending.record
          sequence := pending.sequence }
  | published {engine : EngineView} {expected : Nat} {authority : ProviderAuthorityContext}
      {now : Nat} {observed : ProxySession} {scan : Scan} {logicalOrigin : LogicalOrigin}
      {record : PublicationRecord} (waits : session.Waits observed)
      (clock : observed.lastObservedTime = some now)
      (divides : Divides engine now 1 session.publications.entries scan)
      (room : scan.currentPublications < session.config.limits.maximumPublications)
      (binds : observed.Binds engine authority (session.publicationSequence + 1)
        (session.registryGeneration + 1) now logicalOrigin record) :
      Step session (.publishAuthority engine expected authority now)
        (.published (session.admissionFor logicalOrigin record.publicationId
          record.publicationGeneration))
        { observed.reclaim scan.reclaimable with
          publications := (observed.reclaim scan.reclaimable).publications.insert logicalOrigin record
          publicationSequence := record.publicationId
          registryGeneration := record.publicationGeneration }
  | replaced {engine : EngineView} {expected : Nat} {admission : PublishedAdmission}
      {authority : ProviderAuthorityContext} {now : Nat} {observed : ProxySession}
      {former record : PublicationRecord} (waits : session.Waits observed)
      (clock : observed.lastObservedTime = some now) (validates : session.Validates admission former)
      (binds : observed.Binds engine authority former.publicationId
        (session.registryGeneration + 1) now admission.logicalOrigin record) :
      Step session (.replaceAuthority engine expected admission authority now)
        (.published (session.admissionFor admission.logicalOrigin record.publicationId
          record.publicationGeneration))
        { observed with
          publications := observed.publications.insert admission.logicalOrigin record
          registryGeneration := record.publicationGeneration }
  | revoked {expected : Nat} {admission : PublishedAdmission} {record : PublicationRecord}
      (validates : session.Validates admission record) :
      Step session (.revokeAuthority expected admission)
        (.revoked (session.registryGeneration + 1))
        { session with
          publications := session.publications.erase admission.logicalOrigin
          registryGeneration := session.registryGeneration + 1 }
  | granted {engine : EngineView} {pending : PendingConnect} {admission : PublishedAdmission}
      {expected now : Nat} {observed : ProxySession} {publication : PublicationRecord}
      {grant : TunnelGrant} (waits : session.Waits observed)
      (clock : observed.lastObservedTime = some now)
      (own : pending.instanceId = session.instanceId)
      (held : session.pending.lookup pending.sequence = some pending.record)
      (consumed : observed.pending.lookup pending.sequence = none)
      (grants : observed.Grants engine pending admission now publication grant) :
      Step session (.authorizeConnect engine pending admission expected now) (.granted grant)
        observed
  | revalidated {engine : EngineView} {grant : TunnelGrant} {expected now : Nat}
      {observed : ProxySession} (waits : session.Waits observed)
      (clock : observed.lastObservedTime = some now)
      (revalidates : session.Revalidates grant now) :
      Step session (.revalidateTunnelGrant engine grant expected now) .revalidated observed
  | cancelled {pending : PendingConnect} {record : PendingRecord}
      (held : session.pending.lookup pending.sequence = some record) :
      Step session (.cancel pending) .cancelled
        { session with pending := session.pending.erase pending.sequence }

theorem Validates.of_waits (waits : session.Waits observed)
    (validates : observed.Validates admission record) : session.Validates admission record where
  instanceId_eq := validates.instanceId_eq.trans waits.instanceId_eq
  resident := waits.publications_eq ▸ validates.resident
  publicationId_eq := validates.publicationId_eq
  generation_eq := validates.generation_eq

section

variable (session)

theorem admitConnect_step (engine : EngineView) (client : SocketAddr) (requestHead : Octets)
    (now : Nat) :
    session.Step (.admitConnect engine client requestHead now)
      (session.reply (.admitConnect engine client requestHead now))
      (session.apply (.admitConnect engine client requestHead now)) := by
  rw [reply, apply, admitConnect]
  cases begun : session.readyEngine engine false >>= fun _ => session.observeTime now with
  | error error => exact .failed (Waits.refl session)
  | ok observed =>
    rcases Waits.of_begun begun with ⟨waits, clock⟩
    cases loopback : isLoopback client.ip with
    | false => exact .failed waits
    | true =>
      have retains := waits.trans (Waits.retainPending observed now)
      simp only [Bool.not_true, Bool.false_eq_true, if_false]
      cases prepared : (observed.retainPending now).prepareConnect requestHead now with
      | error error => exact .failed retains
      | ok pending =>
        exact .admitted retains clock loopback (prepareConnect_eq_ok prepared)

theorem publishAuthority_step (engine : EngineView) (expected : Nat)
    (authority : ProviderAuthorityContext) (now : Nat) :
    session.Step (.publishAuthority engine expected authority now)
      (session.reply (.publishAuthority engine expected authority now))
      (session.apply (.publishAuthority engine expected authority now)) := by
  rw [reply, apply, publishAuthority]
  cases begun : session.ensureRegistryGeneration expected >>= fun _ => session.observeTime now with
  | error error => exact .failed (Waits.refl session)
  | ok observed =>
    rcases Waits.of_begun begun with ⟨waits, clock⟩
    dsimp only
    cases prepared : observed.preparePublication engine authority now with
    | error error => exact .failed waits
    | ok publication =>
      rcases publication with ⟨logicalOrigin, record, scan⟩
      rw [preparePublication] at prepared
      rcases of_bind_ok prepared with ⟨nextGeneration, next_eq, prepared⟩
      cases id_eq : checkedAdd observed.publicationSequence 1 with
      | none => simp only [id_eq] at prepared; cases prepared
      | some publicationId =>
        simp only [id_eq] at prepared
        rcases of_bind_ok prepared with ⟨⟨origin, bound⟩, bound_eq, prepared⟩
        rcases of_bind_ok prepared with ⟨found, scanned, returned⟩
        cases returned
        have divides := scanPublications_divides observed.publications.nodupKeys scanned
        rw [waits.publications_eq] at divides
        have binds := bindAuthority_eq_ok bound_eq
        rw [(checkedAdd_eq_some_iff.mp id_eq).1, nextRegistryGeneration_eq_ok next_eq,
          waits.publicationSequence_eq, waits.registryGeneration_eq] at binds
        dsimp only
        by_cases duplicate : scan.duplicate = true
        · rw [if_pos duplicate]
          exact .reclaimed waits divides
        rw [if_neg duplicate]
        by_cases full : session.config.limits.maximumPublications ≤ scan.currentPublications
        · rw [if_pos full]
          exact .reclaimed waits divides
        · rw [if_neg full]
          exact .published waits clock divides (Nat.not_le.mp full) binds

theorem replaceAuthority_step (engine : EngineView) (expected : Nat)
    (admission : PublishedAdmission) (authority : ProviderAuthorityContext) (now : Nat) :
    session.Step (.replaceAuthority engine expected admission authority now)
      (session.reply (.replaceAuthority engine expected admission authority now))
      (session.apply (.replaceAuthority engine expected admission authority now)) := by
  rw [reply, apply, replaceAuthority]
  cases begun : session.ensureRegistryGeneration expected >>= fun _ => session.observeTime now with
  | error error => exact .failed (Waits.refl session)
  | ok observed =>
    rcases Waits.of_begun begun with ⟨waits, clock⟩
    dsimp only
    cases prepared : observed.prepareReplacement engine admission authority now with
    | error error => exact .failed waits
    | ok record =>
      rw [prepareReplacement] at prepared
      rcases of_bind_ok prepared with ⟨former, validated, prepared⟩
      rcases of_bind_ok prepared with ⟨nextGeneration, next_eq, prepared⟩
      rcases of_bind_ok prepared with ⟨⟨origin, bound⟩, bound_eq, prepared⟩
      rw [guard_eq_ok_iff] at prepared
      rcases prepared with ⟨same, returned⟩
      cases returned
      have binds := bindAuthority_eq_ok bound_eq
      rw [not_not.mp same, nextRegistryGeneration_eq_ok next_eq,
        waits.registryGeneration_eq] at binds
      have validates := (validateAdmission_eq_ok validated).of_waits waits
      exact .replaced waits clock validates binds

theorem revokeAuthority_step (expected : Nat) (admission : PublishedAdmission) :
    session.Step (.revokeAuthority expected admission)
      (session.reply (.revokeAuthority expected admission))
      (session.apply (.revokeAuthority expected admission)) := by
  rw [reply, apply, revokeAuthority]
  cases prepared : session.prepareRevocation expected admission with
  | error error => exact .failed (Waits.refl session)
  | ok nextGeneration =>
    rw [prepareRevocation] at prepared
    rcases of_bind_ok prepared with ⟨⟨⟩, -, prepared⟩
    rcases of_bind_ok prepared with ⟨record, validated, next_eq⟩
    rw [nextRegistryGeneration_eq_ok next_eq]
    exact .revoked (validateAdmission_eq_ok validated)

theorem authorizeConnect_step (engine : EngineView) (pending : PendingConnect)
    (admission : PublishedAdmission) (expected now : Nat) :
    session.Step (.authorizeConnect engine pending admission expected now)
      (session.reply (.authorizeConnect engine pending admission expected now))
      (session.apply (.authorizeConnect engine pending admission expected now)) := by
  rw [reply, apply, authorizeConnect]
  cases checked : session.checkPending pending with
  | error error => exact .failed (Waits.refl session)
  | ok record =>
    rcases checkPending_eq_ok checked with ⟨rfl, own, held⟩
    have consumes := Waits.erasePending session pending.sequence
    dsimp only
    cases accepted : observeTime
      { session with pending := session.pending.erase pending.sequence } now with
    | error error => exact .failed consumes
    | ok observed =>
      have waits := consumes.trans (Waits.observeTime accepted)
      rcases observeTime_eq_ok accepted with ⟨observed_eq, -⟩
      dsimp only
      cases issued : observed.issueGrant engine pending.sequence pending.record admission expected
        now with
      | error error => exact .failed waits
      | ok grant =>
        rcases issueGrant_eq_ok issued with ⟨publication, grants⟩
        refine .granted waits ?_ own held ?_ grants
        · rw [observed_eq]
        · rw [observed_eq]
          exact AList.lookup_erase _ _

theorem revalidateTunnelGrant_step (engine : EngineView) (grant : TunnelGrant)
    (expected now : Nat) :
    session.Step (.revalidateTunnelGrant engine grant expected now)
      (session.reply (.revalidateTunnelGrant engine grant expected now))
      (session.apply (.revalidateTunnelGrant engine grant expected now)) := by
  rw [reply, apply, revalidateTunnelGrant]
  cases begun : session.ensureRegistryGeneration expected >>= fun _ => session.observeTime now with
  | error error => exact .failed (Waits.refl session)
  | ok observed =>
    rcases of_bind_ok begun with ⟨⟨⟩, current, -⟩
    rcases Waits.of_begun begun with ⟨waits, clock⟩
    dsimp only
    cases checked : observed.checkGrant engine grant expected now with
    | error error => exact .failed waits
    | ok value =>
      rw [ensureRegistryGeneration_eq_ok current, ← waits.registryGeneration_eq] at checked
      have revalidates := checkGrant_eq_ok checked
      have generation_eq := revalidates.generation_eq.trans waits.registryGeneration_eq
      exact .revalidated waits clock ⟨generation_eq, revalidates.inTime⟩

theorem cancel_step (pending : PendingConnect) :
    session.Step (.cancel pending) (session.reply (.cancel pending))
      (session.apply (.cancel pending)) := by
  rw [reply, apply, cancel]
  split
  · exact .failed (Waits.refl session)
  · cases held : session.pending.lookup pending.sequence with
    | none => exact .failed (Waits.refl session)
    | some record => exact .cancelled held

theorem apply_step (call : Call) : session.Step call (session.reply call) (session.apply call) := by
  cases call with
  | admitConnect engine client requestHead now =>
    exact admitConnect_step session engine client requestHead now
  | publishAuthority engine expected authority now =>
    exact publishAuthority_step session engine expected authority now
  | replaceAuthority engine expected admission authority now =>
    exact replaceAuthority_step session engine expected admission authority now
  | revokeAuthority expected admission => exact revokeAuthority_step session expected admission
  | authorizeConnect engine pending admission expected now =>
    exact authorizeConnect_step session engine pending admission expected now
  | revalidateTunnelGrant engine grant expected now =>
    exact revalidateTunnelGrant_step session engine grant expected now
  | cancel pending => exact cancel_step session pending

end

/-- No call changes what a session is. -/
theorem Step.identity {next : ProxySession} {call : Call} {reply : Reply}
    (step : session.Step call reply next) :
    next.instanceId = session.instanceId ∧ next.config = session.config := by
  cases step with
  | failed waits => exact ⟨waits.instanceId_eq, waits.config_eq⟩
  | reclaimed waits => exact ⟨waits.instanceId_eq, waits.config_eq⟩
  | admitted waits => exact ⟨waits.instanceId_eq, waits.config_eq⟩
  | published waits => exact ⟨waits.instanceId_eq, waits.config_eq⟩
  | replaced waits => exact ⟨waits.instanceId_eq, waits.config_eq⟩
  | revoked => exact ⟨rfl, rfl⟩
  | granted waits => exact ⟨waits.instanceId_eq, waits.config_eq⟩
  | revalidated waits => exact ⟨waits.instanceId_eq, waits.config_eq⟩
  | cancelled => exact ⟨rfl, rfl⟩

theorem run_identity (instanceId : Nat) (config : ProxyConfig) (calls : List Call) :
    (run instanceId config calls).instanceId = instanceId ∧
      (run instanceId config calls).config = config := by
  have preserved : ∀ (session : ProxySession) (call : Call),
      session.instanceId = instanceId ∧ session.config = config →
        (session.apply call).instanceId = instanceId ∧ (session.apply call).config = config := by
    intro session call same
    have identity := (apply_step session call).identity
    exact ⟨identity.1.trans same.1, identity.2.trans same.2⟩
  exact runFrom_invariant preserved ⟨rfl, rfl⟩ calls

end ProxySession

end HnsDaneEngine.LoopbackProxy
