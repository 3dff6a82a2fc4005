import HnsDaneEngine.LoopbackProxy.Step

/-!
# The publication registry

The registry and the pending requests stay within their limits, every change of the
registry advances its generation by one, and no failed call takes a current record away.
-/

namespace HnsDaneEngine.LoopbackProxy

open Control
open Data (Store)
open Engine

namespace ProxySession

/-- What every reachable session satisfies. -/
structure Disciplined (session : ProxySession) : Prop where
  publications_le : session.publications.size ≤ session.config.limits.maximumPublications
  pending_le : session.pending.size ≤ session.config.limits.maximumPending
  ids_le : ∀ {origin record}, session.publications.lookup origin = some record →
    record.publicationId ≤ session.publicationSequence
  ids_distinct : ∀ {origin other record second}, session.publications.lookup origin = some record →
    session.publications.lookup other = some second →
    record.publicationId = second.publicationId → origin = other
  generations_le : ∀ {origin record}, session.publications.lookup origin = some record →
    record.publicationGeneration ≤ session.registryGeneration
  lifetimes_le : ∀ {origin record}, session.publications.lookup origin = some record →
    record.publicationValidUntil ≤ record.authority.validUntil
  origins_eq : ∀ {origin record}, session.publications.lookup origin = some record →
    record.authority.logicalOrigin = origin
  sequences_le : ∀ {sequence record}, session.pending.lookup sequence = some record →
    sequence ≤ session.sequence

theorem opened_disciplined (instanceId : Nat) (config : ProxyConfig) :
    (opened instanceId config).Disciplined where
  publications_le := Nat.zero_le _
  pending_le := Nat.zero_le _
  ids_le held := by cases held
  ids_distinct held := by cases held
  generations_le held := by cases held
  lifetimes_le held := by cases held
  origins_eq held := by cases held
  sequences_le held := by cases held

namespace Disciplined

variable {session : ProxySession}

theorem of_waits (disciplined : session.Disciplined) {next : ProxySession}
    (waits : session.Waits next) : next.Disciplined := by
  constructor
  · rw [waits.publications_eq, waits.config_eq]
    exact disciplined.publications_le
  · rw [waits.config_eq]
    exact waits.pending_le.trans disciplined.pending_le
  · rw [waits.publications_eq, waits.publicationSequence_eq]
    exact disciplined.ids_le
  · rw [waits.publications_eq]
    exact disciplined.ids_distinct
  · rw [waits.publications_eq, waits.registryGeneration_eq]
    exact disciplined.generations_le
  · rw [waits.publications_eq]
    exact disciplined.lifetimes_le
  · rw [waits.publications_eq]
    exact disciplined.origins_eq
  · intro sequence record held
    rw [waits.sequence_eq]
    exact disciplined.sequences_le (waits.pending held)

/-- Fewer records under the same or a later generation. -/
theorem of_fewer (disciplined : session.Disciplined)
    {publications : Store LogicalOrigin PublicationRecord} {generation : Nat}
    (fewer : ∀ {origin record}, publications.lookup origin = some record →
      session.publications.lookup origin = some record)
    (size_le : publications.size ≤ session.publications.size)
    (generation_le : session.registryGeneration ≤ generation) :
    Disciplined
      { session with publications := publications, registryGeneration := generation } where
  publications_le := size_le.trans disciplined.publications_le
  pending_le := disciplined.pending_le
  ids_le held := disciplined.ids_le (fewer held)
  ids_distinct held second := disciplined.ids_distinct (fewer held) (fewer second)
  generations_le held := (disciplined.generations_le (fewer held)).trans generation_le
  lifetimes_le held := disciplined.lifetimes_le (fewer held)
  origins_eq held := disciplined.origins_eq (fewer held)
  sequences_le := disciplined.sequences_le

/-- One record under a new generation. -/
theorem insert (disciplined : session.Disciplined) {origin : LogicalOrigin}
    {record : PublicationRecord} {publicationSequence : Nat}
    (room : Store.size (session.publications.erase origin) <
      session.config.limits.maximumPublications)
    (fresh : ∀ other held, other ≠ origin → session.publications.lookup other = some held →
      held.publicationId ≠ record.publicationId)
    (sequence_le : session.publicationSequence ≤ publicationSequence)
    (id_le : record.publicationId ≤ publicationSequence)
    (generation_le : session.registryGeneration ≤ record.publicationGeneration)
    (lifetime_le : record.publicationValidUntil ≤ record.authority.validUntil)
    (origin_eq : record.authority.logicalOrigin = origin) :
    Disciplined
      { session with
        publications := session.publications.insert origin record
        publicationSequence := publicationSequence
        registryGeneration := record.publicationGeneration } := by
  have cases_of : ∀ {other held},
      (session.publications.insert origin record).lookup other = some held →
        other = origin ∧ held = record ∨
          other ≠ origin ∧ session.publications.lookup other = some held := by
    intro other held found
    by_cases same : other = origin
    · subst same
      rw [AList.lookup_insert] at found
      exact .inl ⟨rfl, (Option.some.inj found).symm⟩
    · rw [AList.lookup_insert_ne same] at found
      exact .inr ⟨same, found⟩
  constructor
  · change Store.size (session.publications.insert origin record) ≤ _
    rw [Store.size_insert]
    exact room
  · exact disciplined.pending_le
  · intro other held found
    rcases cases_of found with ⟨-, rfl⟩ | ⟨-, resident⟩
    · exact id_le
    · exact (disciplined.ids_le resident).trans sequence_le
  · intro first second held other found otherFound same
    rcases cases_of found with ⟨rfl, rfl⟩ | ⟨first_ne, resident⟩
    · rcases cases_of otherFound with ⟨rfl, rfl⟩ | ⟨second_ne, otherResident⟩
      · rfl
      · exact absurd same.symm (fresh second other second_ne otherResident)
    · rcases cases_of otherFound with ⟨rfl, rfl⟩ | ⟨second_ne, otherResident⟩
      · exact absurd same (fresh first held first_ne resident)
      · exact disciplined.ids_distinct resident otherResident same
  · intro other held found
    rcases cases_of found with ⟨-, rfl⟩ | ⟨-, resident⟩
    · exact Nat.le_refl _
    · exact (disciplined.generations_le resident).trans generation_le
  · intro other held found
    rcases cases_of found with ⟨-, rfl⟩ | ⟨-, resident⟩
    · exact lifetime_le
    · exact disciplined.lifetimes_le resident
  · intro other held found
    rcases cases_of found with ⟨rfl, rfl⟩ | ⟨-, resident⟩
    · exact origin_eq
    · exact disciplined.origins_eq resident
  · exact disciplined.sequences_le

end Disciplined

variable {session next : ProxySession} {origin : LogicalOrigin} {call : Call} {reply : Reply}
  {record : PublicationRecord}

theorem lookup_reclaim {reclaimable : List LogicalOrigin}
    (held : (session.reclaim reclaimable).publications.lookup origin = some record) :
    session.publications.lookup origin = some record ∧ origin ∉ reclaimable := by
  rw [reclaim, Store.lookup_keep] at held
  by_cases reclaimed : origin ∈ reclaimable
  · simp [reclaimed] at held
  · simp only [List.contains_eq_mem, reclaimed, decide_false, Bool.not_false, if_true] at held
    exact ⟨held, reclaimed⟩

theorem Disciplined.reclaim (disciplined : session.Disciplined) (reclaimable : List LogicalOrigin) :
    (session.reclaim reclaimable).Disciplined :=
  disciplined.of_fewer (fun held => (lookup_reclaim held).1) (Store.size_keep_le _ _)
    (Nat.le_refl _)

theorem Step.disciplined (step : session.Step call reply next) (disciplined : session.Disciplined) :
    next.Disciplined := by
  cases step with
  | failed waits => exact disciplined.of_waits waits
  | reclaimed waits divides => exact (disciplined.of_waits waits).reclaim _
  | @admitted engine client requestHead now pending retained waits clock loopback authenticates =>
    have before := disciplined.of_waits waits
    have absent : Store.size (retained.pending.erase pending.sequence) ≤ retained.pending.size :=
      Store.size_erase_le _ _
    refine ⟨before.publications_le, ?_, before.ids_le, before.ids_distinct,
      before.generations_le, before.lifetimes_le, before.origins_eq, ?_⟩
    · change Store.size (retained.pending.insert pending.sequence pending.record) ≤ _
      rw [Store.size_insert]
      exact absent.trans_lt authenticates.pending_lt
    intro sequence record held
    by_cases same : sequence = pending.sequence
    · exact same.le
    have resident : retained.pending.lookup sequence = some record := by
      rw [← AList.lookup_insert_ne same]
      exact held
    have sequence_le := before.sequences_le resident
    rw [authenticates.sequence_eq]
    exact Nat.le_succ_of_le sequence_le
  | @published engine expected authority now observed scan logicalOrigin record waits clock divides
      room binds =>
      have before := (disciplined.of_waits waits).reclaim scan.reclaimable
      rcases binds.record_eq with ⟨validUntil, lifetime_le, rfl⟩
      refine before.insert ?_ ?_ ?_ (Nat.le_refl _) ?_ lifetime_le binds.origin_eq.symm
      · have kept : (observed.reclaim scan.reclaimable).publications.size =
            scan.currentPublications := by
          rw [← divides.current, ← waits.publications_eq]
          rfl
        change _ < observed.config.limits.maximumPublications
        rw [waits.config_eq]
        exact (Store.size_erase_le _ _).trans_lt (kept ▸ room)
      · intro other held _ resident
        have id_le := before.ids_le resident
        change held.publicationId ≤ observed.publicationSequence at id_le
        rw [waits.publicationSequence_eq] at id_le
        exact (Nat.lt_succ_of_le id_le).ne
      · change observed.publicationSequence ≤ session.publicationSequence + 1
        rw [waits.publicationSequence_eq]
        exact Nat.le_succ _
      · change observed.registryGeneration ≤ session.registryGeneration + 1
        rw [waits.registryGeneration_eq]
        exact Nat.le_succ _
  | @replaced engine expected admission authority now observed former record waits clock validates
      binds =>
      have before := disciplined.of_waits waits
      have resident : observed.publications.lookup admission.logicalOrigin = some former :=
        waits.publications_eq ▸ validates.resident
      have id_le : former.publicationId ≤ observed.publicationSequence := before.ids_le resident
      rcases binds.record_eq with ⟨validUntil, lifetime_le, rfl⟩
      refine before.insert ?_ ?_ (Nat.le_refl _) id_le ?_ lifetime_le binds.origin_eq.symm
      · have counted := Store.size_of_lookup resident
        have bounded := before.publications_le
        rw [counted] at bounded
        exact bounded
      · intro other held other_ne otherResident same
        exact other_ne (before.ids_distinct otherResident resident same)
      · change observed.registryGeneration ≤ session.registryGeneration + 1
        rw [waits.registryGeneration_eq]
        exact Nat.le_succ _
  | revoked validates =>
    exact disciplined.of_fewer (fun held => (Store.lookup_of_lookup_erase held).1)
      (Store.size_erase_le _ _) (Nat.le_succ _)
  | granted waits => exact disciplined.of_waits waits
  | revalidated waits => exact disciplined.of_waits waits
  | @cancelled pending record held => exact disciplined.of_waits (Waits.erasePending session _)

/-- Every reachable session is within its limits. -/
theorem run_disciplined (instanceId : Nat) (config : ProxyConfig) (calls : List Call) :
    (run instanceId config calls).Disciplined :=
  runFrom_invariant (fun session call disciplined => (apply_step session call).disciplined disciplined)
    (opened_disciplined instanceId config) calls

/-- Publish, replace and revoke change the registry when they succeed. -/
def ChangesRegistry (call : Call) (reply : Reply) : Bool :=
  match call, reply with
  | _, .failed _ => false
  | .publishAuthority _ _ _ _, _ => true
  | .replaceAuthority _ _ _ _ _, _ => true
  | .revokeAuthority _ _, _ => true
  | _, _ => false

/-- The call asked the engine about the record of the origin, which was not current.  The first
question of a publication is about the new authority, the others are about the records. -/
def FoundStale (session : ProxySession) (call : Call) (origin : LogicalOrigin)
    (record : PublicationRecord) : Prop :=
  match call with
  | .publishAuthority engine _ _ now =>
    IsStale engine now 1 session.publications.entries origin record
  | _ => False

/-- The admission under which a call works. -/
def usedAdmission : Call → Option PublishedAdmission
  | .replaceAuthority _ _ admission _ _ => some admission
  | .revokeAuthority _ admission => some admission
  | .authorizeConnect _ _ admission _ _ => some admission
  | _ => none

theorem Step.registryGeneration_eq (step : session.Step call reply next) :
    next.registryGeneration =
      if ChangesRegistry call reply then session.registryGeneration + 1
      else session.registryGeneration := by
  cases step with
  | failed waits =>
    cases call <;> exact waits.registryGeneration_eq
  | reclaimed waits => exact waits.registryGeneration_eq
  | admitted waits => exact waits.registryGeneration_eq
  | published waits clock divides room binds =>
    rcases binds.record_eq with ⟨validUntil, -, rfl⟩
    rfl
  | replaced waits clock validates binds =>
    rcases binds.record_eq with ⟨validUntil, -, rfl⟩
    rfl
  | revoked => rfl
  | granted waits => exact waits.registryGeneration_eq
  | revalidated waits => exact waits.registryGeneration_eq
  | cancelled => rfl

/-- A failed call adds no record and takes only stale ones away. -/
theorem Step.failed_registry {error : ProxyError} (step : session.Step call (.failed error) next)
    (origin : LogicalOrigin) (record : PublicationRecord) :
    (session.publications.lookup origin = some record →
      next.publications.lookup origin = some record ∨ session.FoundStale call origin record) ∧
      (next.publications.lookup origin = some record →
        session.publications.lookup origin = some record) := by
  cases step with
  | failed waits =>
    rw [waits.publications_eq]
    exact ⟨.inl, id⟩
  | @reclaimed engine expected authority now error observed scan waits divides =>
    constructor
    · intro held
      by_cases reclaimed : origin ∈ scan.reclaimable
      · rcases divides.stale origin reclaimed with ⟨other, stale⟩
        have other_eq : session.publications.lookup origin = some other := by
          rcases stale with ⟨index, found, -⟩
          exact AList.mem_lookup_iff.mpr (List.mem_of_getElem? found)
        rw [held] at other_eq
        cases other_eq
        exact .inr stale
      · left
        rw [reclaim, Store.lookup_keep, waits.publications_eq]
        simpa [reclaimed] using held
    · intro held
      rw [← waits.publications_eq]
      exact (lookup_reclaim held).1

variable {admission : PublishedAdmission}

/-- A call that works under an admission finds the record that it names. -/
theorem Step.validates (step : session.Step call reply next)
    (used : usedAdmission call = some admission) (succeeded : ∀ error, reply ≠ .failed error) :
    ∃ record, session.Validates admission record := by
  cases step with
  | failed => exact absurd rfl (succeeded _)
  | reclaimed => exact absurd rfl (succeeded _)
  | replaced waits clock validates =>
    cases used
    exact ⟨_, validates⟩
  | revoked validates =>
    cases used
    exact ⟨_, validates⟩
  | granted waits clock own held consumed grants =>
    cases used
    exact ⟨_, grants.validates.of_waits waits⟩
  | _ => cases used

/-- Under its origin and generation there can be no other record any more. -/
structure Owns (session : ProxySession) (origin : LogicalOrigin) (record : PublicationRecord) :
    Prop where
  generation_le : record.publicationGeneration ≤ session.registryGeneration
  unique : ∀ other, session.publications.lookup origin = some other →
    other.publicationGeneration = record.publicationGeneration → other = record

theorem Owns.of_fewer (owns : session.Owns origin record)
    (generation_le : session.registryGeneration ≤ next.registryGeneration)
    (fewer : ∀ other, next.publications.lookup origin = some other →
      session.publications.lookup origin = some other) : next.Owns origin record :=
  ⟨owns.generation_le.trans generation_le, fun other held => owns.unique other (fewer other held)⟩

/-- A later record has a later generation. -/
theorem Owns.of_insert {inserted : PublicationRecord} (owns : session.Owns origin record)
    (later : inserted.publicationGeneration = session.registryGeneration + 1)
    (generation_eq : next.registryGeneration = inserted.publicationGeneration)
    (fewer : ∀ other, next.publications.lookup origin = some other →
      other = inserted ∨ session.publications.lookup origin = some other) :
    next.Owns origin record := by
  constructor
  · rw [generation_eq, later]
    exact Nat.le_succ_of_le owns.generation_le
  · intro other held same
    rcases fewer other held with rfl | resident
    · have older := owns.generation_le
      rw [← same, later] at older
      exact absurd older (Nat.not_succ_le_self _)
    · exact owns.unique other resident same

theorem Step.owns (step : session.Step call reply next) (owns : session.Owns origin record) :
    next.Owns origin record := by
  have lookup_insert : ∀ {publications : Store LogicalOrigin PublicationRecord} {added inserted other},
      (publications.insert added inserted).lookup origin = some other →
        other = inserted ∨ publications.lookup origin = some other := by
    intro publications added inserted other found
    by_cases same : origin = added
    · subst same
      rw [AList.lookup_insert] at found
      exact .inl (Option.some.inj found).symm
    · rw [AList.lookup_insert_ne same] at found
      exact .inr found
  have of_waits : ∀ {next}, session.Waits next → next.Owns origin record := by
    intro next waits
    refine owns.of_fewer waits.registryGeneration_eq.ge fun other held => ?_
    rw [← waits.publications_eq]
    exact held
  cases step with
  | failed waits => exact of_waits waits
  | reclaimed waits divides =>
    exact (of_waits waits).of_fewer (Nat.le_refl _) fun other held => (lookup_reclaim held).1
  | admitted waits =>
    exact (of_waits waits).of_fewer (Nat.le_refl _) fun other held => held
  | published waits clock divides room binds =>
    rcases binds.record_eq with ⟨validUntil, -, rfl⟩
    refine owns.of_insert rfl rfl fun other held => ?_
    rcases lookup_insert held with inserted | resident
    · exact .inl inserted
    · rw [← waits.publications_eq]
      exact .inr (lookup_reclaim resident).1
  | replaced waits clock validates binds =>
    rcases binds.record_eq with ⟨validUntil, -, rfl⟩
    refine owns.of_insert rfl rfl fun other held => ?_
    rw [← waits.publications_eq]
    exact lookup_insert held
  | revoked validates =>
    exact owns.of_fewer (Nat.le_succ _) fun other held => (Store.lookup_of_lookup_erase held).1
  | granted waits => exact of_waits waits
  | revalidated waits => exact of_waits waits
  | cancelled => exact owns.of_fewer (Nat.le_refl _) fun other held => held

/-- The call after `earlier` returns the admission for the record. -/
structure Issues (instanceId : Nat) (config : ProxyConfig) (earlier : List Call) (issue : Call)
    (admission : PublishedAdmission) (record : PublicationRecord) : Prop where
  reply_eq : (run instanceId config earlier).reply issue = .published admission
  resident : (run instanceId config (earlier ++ [issue])).publications.lookup
    admission.logicalOrigin = some record

theorem Step.published_generation (step : session.Step call (.published admission) next) :
    ∀ record, next.publications.lookup admission.logicalOrigin = some record →
      record.publicationGeneration = admission.publicationGeneration ∧
        record.publicationGeneration = next.registryGeneration := by
  intro record held
  cases step with
  | published waits clock divides room binds =>
    rw [admissionFor, AList.lookup_insert] at held
    cases held
    exact ⟨rfl, rfl⟩
  | replaced waits clock validates binds =>
    rw [admissionFor, AList.lookup_insert] at held
    cases held
    exact ⟨rfl, rfl⟩

/-- As long as an admission validates, the record that it was issued for is resident. -/
theorem Issues.resident_of_validates {instanceId : Nat} {config : ProxyConfig}
    {earlier : List Call} {issue : Call}
    (issued : Issues instanceId config earlier issue admission record) (later : List Call)
    {found : PublicationRecord}
    (validates : (run instanceId config (earlier ++ issue :: later)).Validates admission found) :
    found = record := by
  have issue_eq : run instanceId config (earlier ++ [issue]) =
      (run instanceId config earlier).apply issue :=
    runFrom_concat apply _ earlier issue
  have step := apply_step (run instanceId config earlier) issue
  rw [issued.reply_eq, ← issue_eq] at step
  rcases step.published_generation record issued.resident with ⟨generation_eq, registry_eq⟩
  have start : (run instanceId config (earlier ++ [issue])).Owns admission.logicalOrigin record := by
    refine ⟨registry_eq.le, fun other held _ => ?_⟩
    rw [issued.resident] at held
    exact (Option.some.inj held).symm
  have owns : (run instanceId config (earlier ++ issue :: later)).Owns admission.logicalOrigin
      record := by
    have split_eq : run instanceId config (earlier ++ issue :: later) =
        runFrom apply (run instanceId config (earlier ++ [issue])) later := by
      rw [← List.singleton_append, ← List.append_assoc]
      exact runFrom_append apply _ (earlier ++ [issue]) later
    rw [split_eq]
    exact runFrom_invariant (fun session call owns => (apply_step session call).owns owns) start later
  exact owns.unique found validates.resident (validates.generation_eq.trans generation_eq.symm)

/-- The registry of a session.  At every point of every run the limits hold and the
identifiers are distinct; the generation counts the changes; a failed call adds no
record and removes only records that were not current; and a call that works under an
admission finds the very record that the admission was issued for, under its
generation. -/
theorem publication_registry (instanceId : Nat) (config : ProxyConfig) (calls : List Call) :
    let session := run instanceId config calls
    (session.publications.size ≤ config.limits.maximumPublications ∧
      session.pending.size ≤ config.limits.maximumPending ∧
      ∀ origin other record second, session.publications.lookup origin = some record →
        session.publications.lookup other = some second →
        record.publicationId = second.publicationId → origin = other) ∧
    ∀ call,
      (session.apply call).registryGeneration =
          (if ChangesRegistry call (session.reply call) then session.registryGeneration + 1
            else session.registryGeneration) ∧
      (∀ error, session.reply call = .failed error → ∀ origin record,
        (session.publications.lookup origin = some record →
          (session.apply call).publications.lookup origin = some record ∨
            session.FoundStale call origin record) ∧
        ((session.apply call).publications.lookup origin = some record →
          session.publications.lookup origin = some record)) ∧
      ∀ admission, usedAdmission call = some admission →
        (∀ error, session.reply call ≠ .failed error) →
        ∃ record, session.Validates admission record ∧
          ∀ earlier issue later issuedFor, calls = earlier ++ issue :: later →
            Issues instanceId config earlier issue admission issuedFor → record = issuedFor := by
  have disciplined := run_disciplined instanceId config calls
  have publications_le := disciplined.publications_le
  have pending_le := disciplined.pending_le
  rw [(run_identity instanceId config calls).2] at publications_le pending_le
  refine ⟨⟨publications_le, pending_le,
    fun origin other record second => disciplined.ids_distinct⟩, fun call => ?_⟩
  have step := apply_step (run instanceId config calls) call
  refine ⟨step.registryGeneration_eq, ?_, ?_⟩
  · intro error failed origin record
    rw [failed] at step
    exact step.failed_registry origin record
  · intro admission used succeeded
    rcases step.validates used succeeded with ⟨record, validates⟩
    refine ⟨record, validates, ?_⟩
    rintro earlier issue later issuedFor rfl issued
    exact issued.resident_of_validates later validates

end ProxySession

/-! A proxy for the name `a` that publishes `https://www.a/`. -/

namespace ExampleProxy

open Browser.Runtime (AuthorityState RuntimeStamp)
open Policy (PolicySnapshot)
open ProxySession

def process : Octets := List.replicate 16 1

theorem process_ne : process ≠ List.replicate 16 0 := by decide

theorem root_normalized : isNormalized (ascii "a") = true := by decide

def endpointAddress : NamespaceResolution.SocketAddr := .v4 ⟨127, 0, 0, 1⟩ 8080

theorem endpoint_loopback : isLoopback endpointAddress.ip = true := by decide

theorem endpoint_port : endpointAddress.port ≠ 0 := by decide

theorem one_ne : 1 ≠ 0 := Nat.one_ne_zero

def config : ProxyConfig where
  endpoint := ⟨endpointAddress, endpoint_loopback, endpoint_port⟩
  instanceIdentity := ⟨process, 1, 1, process_ne, one_ne, one_ne⟩
  runtimeSession := process
  runtimeGeneration := 1
  scope := ⟨⟨ascii "a", root_normalized⟩⟩
  authorization := .fromCapability process (List.replicate 32 2)
  limits := .default
  session_ne := process_ne
  generation_ne := one_ne
  limits_valid := ProxyLimits.default_valid

/-- An engine that stays active and calls every authority current. -/
def engine : EngineView where
  snapshot := .ok ⟨3, process, 1, 9, .mainnet, .active, .default⟩
  providerAuthorityIsCurrent _ _ _ := .ok true

def authority : ProviderAuthorityContext where
  originContext :=
    { logicalOrigin := ⟨.https, ascii "www.a", 443⟩
      selectedNamespace := some .hns
      status := .hnsDaneVerified
      runtimeSession := process
      runtimeGeneration := 1
      policyGeneration := 1
      eventSequence := 9
      admissionStamp := none
      decisionFingerprint := []
      validFrom := 0
      validUntil := 1000 }
  selectedNamespace := .hns
  hnsNetwork := .mainnet
  servicePort := 443
  tlsPolicy := .dane

def publish : Call := .publishAuthority engine 1 authority 10

def admission : PublishedAdmission :=
  (opened 1 config).admissionFor authority.logicalOrigin 1 2

def record : PublicationRecord :=
  (opened 1 config).publicationRecord authority 1 2 10 310

theorem publish_issues : Issues 1 config [] publish admission record :=
  ⟨rfl, rfl⟩

/-- The revocation under the admission finds the record that was published. -/
theorem publication_registry_revoked :
    ∃ found, (run 1 config [publish]).Validates admission found ∧ found = record := by
  have succeeded : (run 1 config [publish]).reply (.revokeAuthority 2 admission) = .revoked 3 := by
    rfl
  rcases (publication_registry 1 config [publish]).2 (.revokeAuthority 2 admission) with
    ⟨-, -, authorises⟩
  have notFailed : ∀ error,
      (run 1 config [publish]).reply (.revokeAuthority 2 admission) ≠ .failed error := by
    intro error failed
    rw [succeeded] at failed
    cases failed
  rcases authorises admission rfl notFailed with ⟨found, validates, issued⟩
  exact ⟨found, validates, issued [] publish [] record rfl publish_issues⟩

end ExampleProxy

end HnsDaneEngine.LoopbackProxy
