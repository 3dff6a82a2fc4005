import HnsDaneEngine.Encoding.Delimited
import HnsDaneEngine.NamespaceResolution.Decision

/-!
# What a decision fingerprint hashes

The fields of a decision are written one after another, each so that it shows its own
end.  The writer of a plan leaves out what a refreshed proof may change, and of a
socket address it also leaves out the flow label and the scope.
-/

namespace HnsDaneEngine.NamespaceResolution

open Browser (IpAddr Ipv4Addr Ipv6Addr)
open Codec Delimited

namespace FingerprintInput

def u16 (value : UInt16) : Octets :=
  (leOctets 2 value.toNat).reverse

def u32 (value : UInt32) : Octets :=
  (leOctets 4 value.toNat).reverse

def u64 (value : Nat) : Octets :=
  (leOctets 8 value).reverse

def bytes (value : Octets) : Octets :=
  u64 value.length ++ value

def string (host : CanonicalHost) : Octets :=
  bytes host.asStr

/-- The number of items, and the items. -/
def items {α : Type} (write : α → Octets) (values : List α) : Octets :=
  u64 values.length ++ values.flatMap write

def optionNamespace (value? : Option Namespace) : Octets :=
  [value?.elim 0 Namespace.tag]

def optionSelectionReason (value? : Option SelectionReason) : Octets :=
  [value?.elim 0 SelectionReason.tag]

def query (query : OriginQuery) : Octets :=
  string query.host ++ [query.scheme.tag] ++ u16 query.originPort.val ++
    [query.supportedProtocols.flags]

def provenanceAuthority : EvidenceProvenance → Octets
  | .hns network _ _ => [1, network.tag]
  | .icannDoh _ => [2]

def absence (absence : ValidatedAbsence) : Octets :=
  [absence.namespace.tag] ++ provenanceAuthority absence.provenance ++ query absence.query ++
    [absence.kind.tag]

def aliasStep (step : AliasStep) : Octets :=
  [step.kind.tag] ++ string step.owner ++ string step.target

def ipAddr : IpAddr → Octets
  | .v4 address => 4 :: bytes address.octets
  | .v6 address => 6 :: bytes address.octets

def socketAddr (endpoint : SocketAddr) : Octets :=
  ipAddr endpoint.ip ++ u16 endpoint.port

def parameter (parameter : ServiceParameter) : Octets :=
  u16 parameter.key ++ bytes parameter.value

def service (service : ServiceBinding) : Octets :=
  writeOption 0 1 u16 service.priority ++ string service.serviceTarget ++
    items u16 service.mandatoryKeys ++ items bytes service.advertisedAlpn ++
    [service.selectedProtocol.tag] ++ u16 service.effectivePort.val ++ [service.transport.tag] ++
    items ipAddr service.connectionHints ++ writeOption 0 1 bytes service.echConfig ++
    items parameter service.parameters

def plan (plan : ValidatedOriginPlan) : Octets :=
  [plan.namespace.tag] ++ provenanceAuthority plan.provenance ++ query plan.query ++
    items aliasStep plan.aliasPath ++ string plan.terminalTarget ++
    items aliasStep plan.endpointAliasPath ++ string plan.endpointTarget ++
    items socketAddr plan.endpoints ++ service plan.service ++ [plan.tlsPolicy.tag] ++
    items (fun record => bytes record.rdata) plan.tlsaRecords

end FingerprintInput

/-- `hns-namespace-decision-v1`. -/
def decisionDomain : Octets :=
  [104, 110, 115, 45, 110, 97, 109, 101, 115, 112, 97, 99, 101, 45, 100, 101, 99, 105, 115, 105,
    111, 110, 45, 118, 49]

def comparisonSchemaVersion : UInt16 := 1

open FingerprintInput in
/-- The plans and absences of an outcome. -/
def outcomeInput : NamespaceOutcome → Octets
  | .hnsOnly hns icannAbsence _ => plan hns ++ absence icannAbsence
  | .icannOnly icann hnsAbsence _ => plan icann ++ absence hnsAbsence
  | .bothConvergent _ _ hns icann => plan hns ++ plan icann
  | .bothDivergent _ _ hns icann differences => plan hns ++ plan icann ++ u32 differences.bits
  | .neither hns icann => absence hns ++ absence icann

open FingerprintInput in
/-- Everything before the plans and absences. -/
def decisionHeader (decision : NamespaceDecision) : Octets :=
  query decision.query ++ u64 decision.policy.revision.toNat ++
    optionNamespace decision.policy.explicitPin ++ optionNamespace decision.policy.stickyBinding ++
    [decision.policy.defaultPrecedence.tag] ++ [decision.outcome.kind.tag] ++
    optionNamespace decision.outcome.selectedNamespace ++
    optionSelectionReason decision.outcome.selectionReason

open FingerprintInput in
/-- The octets that `decision_fingerprint` hashes. -/
def decisionInput (decision : NamespaceDecision) : Octets :=
  bytes decisionDomain ++ u16 comparisonSchemaVersion ++
    (decisionHeader decision ++ outcomeInput decision.outcome)

/-- Every value. -/
def Whole {α : Type} : α → Prop := fun _ => True

namespace FingerprintInput

theorem delimits_u16 : Delimits Whole u16 fun value => value :=
  (Delimits.number UInt16.toNat fun value _ => value.toNat_lt).of_key
    fun _ _ _ _ => UInt16.toNat_inj.symm

theorem delimits_u32 : Delimits Whole u32 fun value => value :=
  (Delimits.number UInt32.toNat fun value _ => value.toNat_lt).of_key
    fun _ _ _ _ => UInt32.toNat_inj.symm

theorem delimits_bytes :
    Delimits (fun value : Octets => value.length < 256 ^ 8) bytes fun value => value :=
  Delimits.counted fun _ fits => fits

theorem delimits_string : Delimits Whole string fun host => host :=
  (delimits_bytes.comap CanonicalHost.asStr fun host _ => host.length_le.trans_lt (by decide)).of_key
    fun _ _ _ _ => CanonicalHost.ext_iff

theorem delimits_items {α : Type} {domain : α → Prop} {write : α → Octets}
    (delimits : Delimits domain write fun value => value) :
    Delimits (fun values : List α => values.length < 256 ^ 8 ∧ ∀ value ∈ values, domain value)
      (items write) fun values => values :=
  (Delimits.list delimits (fun _ fits => fits.1) fun _ fits => fits.2).of_key
    fun first second _ _ => by rw [List.map_id', List.map_id']

/-- A tag that is never zero, or zero for none. -/
theorem delimits_optionTag {α : Type} {tag : α → UInt8}
    (injective : ∀ first second, tag first = tag second ↔ first = second)
    (nonzero : ∀ value, tag value ≠ 0) :
    Delimits Whole (fun value? : Option α => [value?.elim 0 tag]) fun value? => value? :=
  Delimits.octet fun first second => by
    cases first with
    | none =>
      cases second with
      | none => simp
      | some other => simp [(nonzero other).symm]
    | some value =>
      cases second with
      | none => simp [nonzero value]
      | some other => simp [injective]

/-- What a query shows: everything but whether its port is explicit. -/
def queryKey (query : OriginQuery) :
    ((CanonicalHost × OriginScheme) × NonZeroU16) × ProtocolCapabilities :=
  (((query.host, query.scheme), query.originPort), query.supportedProtocols)

theorem delimits_query : Delimits Whole query queryKey :=
  (((delimits_string.comap OriginQuery.host fun _ _ => trivial).append
    (Delimits.octet fun _ _ => OriginScheme.tag_inj _ _)).append
    ((delimits_u16.comap (fun query : OriginQuery => query.originPort.val) fun _ _ => trivial).of_key
      fun _ _ _ _ => Subtype.ext_iff)).append
    (Delimits.octet fun _ _ => ProtocolCapabilities.flags_inj)

theorem delimits_provenanceAuthority :
    Delimits Whole provenanceAuthority EvidenceProvenance.hnsNetwork := by
  have optional : Delimits Whole
      (fun provenance : EvidenceProvenance =>
        writeOption 2 1 (fun network : HnsNetwork => [network.tag]) provenance.hnsNetwork)
      fun provenance => provenance.hnsNetwork.map fun network => network :=
    ((Delimits.octet fun _ _ => HnsNetwork.tag_inj _ _).option (by decide)).comap
      EvidenceProvenance.hnsNetwork
      fun _ _ _ _ => trivial
  have same : (fun provenance : EvidenceProvenance =>
      writeOption 2 1 (fun network : HnsNetwork => [network.tag]) provenance.hnsNetwork) =
      provenanceAuthority := by
    funext provenance
    cases provenance <;> rfl
  rw [same] at optional
  exact optional.of_key fun first second _ _ => by rw [Option.map_id', Option.map_id']

/-- What an absence shows. -/
def absenceKey (absence : ValidatedAbsence) :
    ((Namespace × Option HnsNetwork) ×
      (((CanonicalHost × OriginScheme) × NonZeroU16) × ProtocolCapabilities)) × AbsenceKind :=
  (((absence.namespace, absence.provenance.hnsNetwork), queryKey absence.query), absence.kind)

theorem delimits_absence : Delimits Whole absence absenceKey :=
  (((Delimits.octet fun _ _ => Namespace.tag_inj _ _).append
    (delimits_provenanceAuthority.comap ValidatedAbsence.provenance fun _ _ => trivial)).append
    (delimits_query.comap ValidatedAbsence.query fun _ _ => trivial)).append
    (Delimits.octet fun _ _ => AbsenceKind.tag_inj _ _)

theorem delimits_aliasStep : Delimits Whole aliasStep fun step => step := by
  have fields : Delimits Whole aliasStep fun step => ((step.kind, step.owner), step.target) :=
    ((Delimits.octet fun _ _ => AliasKind.tag_inj _ _).append
      (delimits_string.comap AliasStep.owner fun _ _ => trivial)).append
      (delimits_string.comap AliasStep.target fun _ _ => trivial)
  refine fields.of_key fun first second _ _ => ?_
  rw [AliasStep.ext_iff, Prod.mk.injEq, Prod.mk.injEq, and_assoc]

theorem delimits_ipAddr : Delimits Whole ipAddr fun address => address := by
  intro first second firstRest secondRest _ _
  cases first with
  | v4 address =>
    cases second with
    | v4 other =>
      have octets := delimits_bytes address.octets other.octets firstRest secondRest
        (by simp) (by simp)
      simpa [ipAddr, Browser.Ipv4Addr.octets_inj] using octets
    | v6 other => simp [ipAddr]
  | v6 address =>
    cases second with
    | v4 other => simp [ipAddr]
    | v6 other =>
      have octets := delimits_bytes address.octets other.octets firstRest secondRest
        (by simp) (by simp)
      simpa [ipAddr, Browser.Ipv6Addr.octets_inj] using octets

/-- What a socket address shows: neither its flow label nor its scope. -/
def socketKey (endpoint : SocketAddr) : IpAddr × UInt16 :=
  (endpoint.ip, endpoint.port)

theorem delimits_socketAddr : Delimits Whole socketAddr socketKey :=
  (delimits_ipAddr.comap SocketAddr.ip fun _ _ => trivial).append
    (delimits_u16.comap SocketAddr.port fun _ _ => trivial)

theorem delimits_parameter : Delimits Whole parameter fun parameter => parameter := by
  have fields : Delimits Whole parameter fun parameter => (parameter.key, parameter.value) :=
    (delimits_u16.comap ServiceParameter.key fun _ _ => trivial).append
      (delimits_bytes.comap ServiceParameter.value fun parameter _ =>
        parameter.length_le.trans_lt (by decide))
  refine fields.of_key fun first second _ _ => ?_
  rw [ServiceParameter.ext_iff, Prod.mk.injEq]

/-- The number of items of a bounded list fits its field. -/
theorem lt_of_le_bound {length bound : Nat} (le : length ≤ bound) (small : bound < 256 ^ 8) :
    length < 256 ^ 8 :=
  le.trans_lt small

/-- A service binding shows all its fields. -/
theorem delimits_service : Delimits Whole service fun service => service := by
  have priority : Delimits Whole
      (fun service : ServiceBinding => writeOption 0 1 u16 service.priority)
      fun service => service.priority :=
    ((delimits_u16.option (by decide)).comap (fun service : ServiceBinding => service.priority)
      fun _ _ _ _ => trivial).of_key fun _ _ _ _ => by rw [Option.map_id', Option.map_id']
  have ech : Delimits Whole
      (fun service : ServiceBinding => writeOption 0 1 bytes service.echConfig)
      fun service => service.echConfig :=
    ((delimits_bytes.option (by decide)).comap (fun service : ServiceBinding => service.echConfig)
      fun service _ value held =>
        lt_of_le_bound (service.bounded.2.2.2.2.2 value held).2 (by decide)).of_key
      fun _ _ _ _ => by rw [Option.map_id', Option.map_id']
  have keys : Delimits Whole (fun service : ServiceBinding => items u16 service.mandatoryKeys)
      fun service => service.mandatoryKeys :=
    (delimits_items delimits_u16).comap (fun service : ServiceBinding => service.mandatoryKeys)
      fun service _ => ⟨lt_of_le_bound service.bounded.2.1 (by decide), fun _ _ => trivial⟩
  have alpn : Delimits Whole (fun service : ServiceBinding => items bytes service.advertisedAlpn)
      fun service => service.advertisedAlpn :=
    (delimits_items delimits_bytes).comap (fun service : ServiceBinding => service.advertisedAlpn)
      fun service _ => ⟨lt_of_le_bound service.bounded.1 (by decide), fun identifier listed =>
        lt_of_le_bound (service.bounded.2.2.2.2.1 identifier listed).2 (by decide)⟩
  have hints : Delimits Whole
      (fun service : ServiceBinding => items ipAddr service.connectionHints)
      fun service => service.connectionHints :=
    (delimits_items delimits_ipAddr).comap (fun service : ServiceBinding => service.connectionHints)
      fun service _ => ⟨lt_of_le_bound service.bounded.2.2.1 (by decide), fun _ _ => trivial⟩
  have parameters : Delimits Whole
      (fun service : ServiceBinding => items parameter service.parameters)
      fun service => service.parameters :=
    (delimits_items delimits_parameter).comap (fun service : ServiceBinding => service.parameters)
      fun service _ => ⟨lt_of_le_bound service.bounded.2.2.2.1 (by decide), fun _ _ => trivial⟩
  have target : Delimits Whole (fun service : ServiceBinding => string service.serviceTarget)
      fun service => service.serviceTarget :=
    delimits_string.comap (fun service : ServiceBinding => service.serviceTarget)
      fun _ _ => trivial
  have port : Delimits Whole (fun service : ServiceBinding => u16 service.effectivePort.val)
      fun service => service.effectivePort :=
    (delimits_u16.comap (fun service : ServiceBinding => service.effectivePort.val)
      fun _ _ => trivial).of_key fun _ _ _ _ => Subtype.ext_iff
  have protocol : Delimits Whole (fun service : ServiceBinding => [service.selectedProtocol.tag])
      fun service => service.selectedProtocol :=
    Delimits.octet fun _ _ => ApplicationProtocol.tag_inj _ _
  have transport : Delimits Whole (fun service : ServiceBinding => [service.transport.tag])
      fun service => service.transport :=
    Delimits.octet fun _ _ => ServiceTransport.tag_inj _ _
  have fields := ((((((((priority.append target).append keys).append alpn).append
    protocol).append port).append transport).append hints).append ech).append parameters
  refine Delimits.of_key fields fun first second _ _ => ?_
  rcases first with ⟨⟨⟩, _⟩
  rcases second with ⟨⟨⟩, _⟩
  simp only [ServiceBinding.mk.injEq, ServiceBindingInput.mk.injEq, Prod.mk.injEq, and_assoc]

/-- What a plan shows. -/
structure PlanKey where
  root : Namespace
  network : Option HnsNetwork
  query : ((CanonicalHost × OriginScheme) × NonZeroU16) × ProtocolCapabilities
  aliasPath : List AliasStep
  terminalTarget : CanonicalHost
  endpointAliasPath : List AliasStep
  endpointTarget : CanonicalHost
  endpoints : List (IpAddr × UInt16)
  service : ServiceBinding
  tlsPolicy : TlsTrustPolicy
  tlsaRecords : List CanonicalTlsa

def planKey (plan : ValidatedOriginPlan) : PlanKey where
  root := plan.namespace
  network := plan.provenance.hnsNetwork
  query := queryKey plan.query
  aliasPath := plan.aliasPath
  terminalTarget := plan.terminalTarget
  endpointAliasPath := plan.endpointAliasPath
  endpointTarget := plan.endpointTarget
  endpoints := plan.endpoints.map socketKey
  service := plan.service
  tlsPolicy := plan.tlsPolicy
  tlsaRecords := plan.tlsaRecords

theorem delimits_plan : Delimits Whole plan planKey := by
  have aliases : Delimits Whole (fun plan : ValidatedOriginPlan => items aliasStep plan.aliasPath)
      fun plan => plan.aliasPath :=
    (delimits_items delimits_aliasStep).comap (fun plan : ValidatedOriginPlan => plan.aliasPath)
      fun plan _ => ⟨lt_of_le_bound plan.aliasPath_le (by decide), fun _ _ => trivial⟩
  have endpointAliases : Delimits Whole
      (fun plan : ValidatedOriginPlan => items aliasStep plan.endpointAliasPath)
      fun plan => plan.endpointAliasPath :=
    (delimits_items delimits_aliasStep).comap
      (fun plan : ValidatedOriginPlan => plan.endpointAliasPath)
      fun plan _ => ⟨lt_of_le_bound plan.endpointAliasPath_le (by decide), fun _ _ => trivial⟩
  have endpoints : Delimits Whole
      (fun plan : ValidatedOriginPlan => items socketAddr plan.endpoints)
      fun plan => plan.endpoints.map socketKey :=
    Delimits.list delimits_socketAddr
      (fun plan _ => lt_of_le_bound plan.endpoints_le (by decide)) fun _ _ _ _ => trivial
  have record : Delimits Whole (fun record : CanonicalTlsa => bytes record.rdata)
      fun record => record :=
    (delimits_bytes.comap CanonicalTlsa.rdata fun record _ =>
      lt_of_le_bound record.length_le (by decide)).of_key fun _ _ _ _ => CanonicalTlsa.ext_iff
  have records : Delimits Whole
      (fun plan : ValidatedOriginPlan => items (fun record => bytes record.rdata) plan.tlsaRecords)
      fun plan => plan.tlsaRecords :=
    (delimits_items record).comap (fun plan : ValidatedOriginPlan => plan.tlsaRecords)
      fun plan _ => ⟨lt_of_le_bound plan.tlsaRecords_le (by decide), fun _ _ => trivial⟩
  have authority : Delimits Whole
      (fun plan : ValidatedOriginPlan => provenanceAuthority plan.provenance)
      fun plan => plan.provenance.hnsNetwork :=
    delimits_provenanceAuthority.comap (fun plan : ValidatedOriginPlan => plan.provenance)
      fun _ _ => trivial
  have origin : Delimits Whole (fun plan : ValidatedOriginPlan => query plan.query)
      fun plan => queryKey plan.query :=
    delimits_query.comap (fun plan : ValidatedOriginPlan => plan.query) fun _ _ => trivial
  have terminal : Delimits Whole (fun plan : ValidatedOriginPlan => string plan.terminalTarget)
      fun plan => plan.terminalTarget :=
    delimits_string.comap (fun plan : ValidatedOriginPlan => plan.terminalTarget) fun _ _ => trivial
  have final : Delimits Whole (fun plan : ValidatedOriginPlan => string plan.endpointTarget)
      fun plan => plan.endpointTarget :=
    delimits_string.comap (fun plan : ValidatedOriginPlan => plan.endpointTarget) fun _ _ => trivial
  have binding : Delimits Whole (fun plan : ValidatedOriginPlan => service plan.service)
      fun plan => plan.service :=
    delimits_service.comap (fun plan : ValidatedOriginPlan => plan.service) fun _ _ => trivial
  have root : Delimits Whole (fun plan : ValidatedOriginPlan => [plan.namespace.tag])
      fun plan => plan.namespace :=
    Delimits.octet fun _ _ => Namespace.tag_inj _ _
  have tls : Delimits Whole (fun plan : ValidatedOriginPlan => [plan.tlsPolicy.tag])
      fun plan => plan.tlsPolicy :=
    Delimits.octet fun _ _ => TlsTrustPolicy.tag_inj _ _
  have fields := (((((((((root.append authority).append origin).append aliases).append
    terminal).append endpointAliases).append final).append endpoints).append binding).append
    tls).append records
  refine Delimits.of_key fields fun first second _ _ => ?_
  simp only [planKey, PlanKey.mk.injEq, Prod.mk.injEq, and_assoc]

end FingerprintInput

end HnsDaneEngine.NamespaceResolution
