import HnsDaneEngine.NamespaceResolution.Service

/-!
# Origin plans and authenticated absences

What one root says about an origin: a complete plan for connecting to it, or its
absence, each with the evidence for it.  Plans of two roots are compared in what
matters to a connection and to trust.
-/

namespace HnsDaneEngine.NamespaceResolution

open Browser (IpAddr Ipv4Addr Ipv6Addr)

/-- The records of an alias. -/
inductive AliasKind
  | cname
  | https
  deriving DecidableEq

def AliasKind.tag : AliasKind → UInt8
  | .cname => 1
  | .https => 2

theorem AliasKind.tag_inj (first second : AliasKind) : first.tag = second.tag ↔ first = second := by
  cases first <;> cases second <;> decide

/-- An alias edge that is no loop. -/
@[ext]
structure AliasStep where
  kind : AliasKind
  owner : CanonicalHost
  target : CanonicalHost
  owner_ne : owner ≠ target
  deriving DecidableEq

namespace AliasStep

end AliasStep

/-- A socket address.  One of version 6 also has a flow label and a scope. -/
inductive SocketAddr
  | v4 (ip : Ipv4Addr) (port : UInt16)
  | v6 (ip : Ipv6Addr) (port : UInt16) (flowinfo scopeId : UInt32)
  deriving DecidableEq

namespace SocketAddr

def ip : SocketAddr → IpAddr
  | .v4 ip _ => .v4 ip
  | .v6 ip _ _ _ => .v6 ip

def port : SocketAddr → UInt16
  | .v4 _ port => port
  | .v6 _ port _ _ => port

/-- The order of socket addresses: by address, port, flow label and scope. -/
def sortKey : SocketAddr → List Nat
  | .v4 ip port => ipSortKey (.v4 ip) ++ [port.toNat]
  | .v6 ip port flowinfo scopeId =>
    ipSortKey (.v6 ip) ++ [port.toNat, flowinfo.toNat, scopeId.toNat]

end SocketAddr

/-- What TLS rests on. -/
inductive TlsTrustPolicy
  | cleartext
  | dane
  | webPkiAuthenticatedAbsence
  | webPkiInsecureDelegation
  | statelessDane
  deriving DecidableEq

def TlsTrustPolicy.tag : TlsTrustPolicy → UInt8
  | .cleartext => 1
  | .dane => 2
  | .webPkiAuthenticatedAbsence => 3
  | .webPkiInsecureDelegation => 4
  | .statelessDane => 5

theorem TlsTrustPolicy.tag_inj (first second : TlsTrustPolicy) :
    first.tag = second.tag ↔ first = second := by
  cases first <;> cases second <;> decide

/-- The record data of a supported TLSA record. -/
@[ext]
structure CanonicalTlsa where
  rdata : Octets
  length_le : rdata.length ≤ maxParameterBytes

namespace CanonicalTlsa

instance instDecidableEq : DecidableEq CanonicalTlsa := fun first second =>
  decidable_of_iff (first.rdata = second.rdata) CanonicalTlsa.ext_iff.symm

end CanonicalTlsa

/-- Whether a chain is signed. -/
inductive IcannChainState
  | secure
  | provenInsecure
  deriving DecidableEq

/-- Where the evidence comes from. -/
inductive EvidenceProvenance
  | hns (network : HnsNetwork) (treeRoot : Octets) (height : UInt32)
  | icannDoh (chainState : IcannChainState)
  deriving DecidableEq

namespace EvidenceProvenance

/-- `validate_for`: evidence of the root itself. -/
def isFor : EvidenceProvenance → Namespace → Bool
  | .hns _ _ _, .hns => true
  | .icannDoh _, .icann => true
  | _, _ => false

def hnsNetwork : EvidenceProvenance → Option HnsNetwork
  | .hns network _ _ => some network
  | .icannDoh _ => none

end EvidenceProvenance

/-- A nonempty interval; the expiry is exclusive. -/
structure Freshness where
  observedAtUnix : Nat
  expiresAtUnix : Nat
  nonempty : observedAtUnix < expiresAtUnix
  deriving DecidableEq

namespace Freshness

def isFreshAt (freshness : Freshness) (now : Nat) : Bool :=
  freshness.observedAtUnix ≤ now && now < freshness.expiresAtUnix

end Freshness

/-- A plan before its checks. -/
structure OriginPlanInput where
  «namespace» : Namespace
  query : OriginQuery
  aliasPath : List AliasStep
  terminalTarget : CanonicalHost
  endpointAliasPath : List AliasStep
  endpointTarget : CanonicalHost
  endpoints : List SocketAddr
  service : ServiceBinding
  tlsPolicy : TlsTrustPolicy
  tlsaRecords : List CanonicalTlsa
  provenance : EvidenceProvenance
  freshness : Freshness
  deriving DecidableEq

/-- The edges lead from the expected owner to the terminal target, without visiting a
host twice. -/
def aliasPathAgrees (expectedOwner : CanonicalHost) (seen : List CanonicalHost) :
    List AliasStep → CanonicalHost → Bool
  | [], terminalTarget => expectedOwner == terminalTarget
  | step :: steps, terminalTarget =>
    step.owner == expectedOwner && !seen.contains step.target &&
      aliasPathAgrees step.target (seen ++ [step.target]) steps terminalTarget

/-- `validate_alias_path`. -/
def validateAliasPath (originHost : CanonicalHost) (aliases : List AliasStep)
    (terminalTarget : CanonicalHost) : Bool :=
  aliasPathAgrees originHost [originHost] aliases terminalTarget

/-- No target has been seen before. -/
def targetsAreNew (seen : List CanonicalHost) : List AliasStep → Bool
  | [] => true
  | step :: steps =>
    !seen.contains step.target && targetsAreNew (seen ++ [step.target]) steps

variable (input : OriginPlanInput)

namespace OriginPlanInput

def Bounded : Prop :=
  input.aliasPath.length ≤ maxAliasSteps ∧ input.endpointAliasPath.length ≤ maxAliasSteps ∧
    input.endpoints ≠ [] ∧ input.endpoints.length ≤ maxEndpoints ∧
    input.tlsaRecords.length ≤ maxTlsaRecords

instance decidableBounded (input : OriginPlanInput) : Decidable input.Bounded :=
  inferInstanceAs (Decidable (_ ∧ _))

/-- `validate_plan_aliases`. -/
def aliasesAgree : Bool :=
  let seen := input.query.host :: input.aliasPath.map AliasStep.target
  let target := input.service.serviceTarget
  validateAliasPath input.query.host input.aliasPath input.terminalTarget &&
    input.endpointAliasPath.all (·.kind == .cname) &&
    validateAliasPath target input.endpointAliasPath input.endpointTarget &&
    !(target != input.terminalTarget && seen.contains target) &&
    targetsAreNew (if seen.contains target then seen else seen ++ [target]) input.endpointAliasPath

/-- `validate_plan_endpoints_and_service`. -/
def endpointsAndServiceAgree : Bool :=
  let service := input.service
  let usesTls := input.query.scheme.usesTls
  let endpointMismatch :=
    input.endpoints.any (·.port != service.effectivePort.val) ||
      service.connectionHints.any fun hint => !input.endpoints.any (·.ip == hint)
  let queryMismatch :=
    !input.query.supportedProtocols.supports service.selectedProtocol ||
      (!usesTls && (service.priority.isSome || service.selectedProtocol != .http11 ||
        service.transport != .tcp)) ||
      (usesTls && input.tlsPolicy == .cleartext) ||
      (!usesTls && input.tlsPolicy != .cleartext) ||
      (service.priority.isNone && (service.serviceTarget != input.terminalTarget ||
        service.effectivePort != input.query.originPort)) ||
      (service.priority.isSome && !hasServiceParameter service.parameters 3 &&
        service.effectivePort != input.query.originPort)
  !endpointMismatch && !queryMismatch

/-- `validate_plan_tls`. -/
def validateTls : Except ValidationError Unit :=
  let invalidRecords :=
    match input.tlsPolicy with
    | .dane => input.tlsaRecords.isEmpty
    | _ => !input.tlsaRecords.isEmpty
  if invalidRecords || (input.namespace == .hns &&
      (input.tlsPolicy == .webPkiAuthenticatedAbsence ||
        input.tlsPolicy == .webPkiInsecureDelegation)) then .error .invalidPlan
  else
    match input.provenance, input.tlsPolicy with
    | .icannDoh .secure, .dane => .ok ()
    | .icannDoh .secure, .webPkiAuthenticatedAbsence => .ok ()
    | .icannDoh .provenInsecure, .webPkiInsecureDelegation => .ok ()
    | .hns _ _ _, .dane => .ok ()
    | .hns _ _ _, .statelessDane => .ok ()
    | _, .cleartext => .ok ()
    | _, _ => .error .invalidEvidence

def normalized : OriginPlanInput :=
  { input with
    endpoints := dedup (sortByKey SocketAddr.sortKey input.endpoints)
    tlsaRecords := dedup (sortByKey (fun record => record.rdata.map UInt8.toNat) input.tlsaRecords) }

theorem Bounded.normalized {input : OriginPlanInput} (bounded : input.Bounded) :
    input.normalized.aliasPath.length ≤ maxAliasSteps ∧
      input.normalized.endpointAliasPath.length ≤ maxAliasSteps ∧
      input.normalized.endpoints.length ≤ maxEndpoints ∧
      input.normalized.tlsaRecords.length ≤ maxTlsaRecords := by
  rcases bounded with ⟨aliases, endpointAliases, -, endpoints, records⟩
  have endpoints_le := (length_dedup_le (sortByKey SocketAddr.sortKey input.endpoints)).trans_eq
    (length_sortByKey SocketAddr.sortKey input.endpoints)
  have records_le := (length_dedup_le
    (sortByKey (fun record : CanonicalTlsa => record.rdata.map UInt8.toNat) input.tlsaRecords)).trans_eq
    (length_sortByKey _ input.tlsaRecords)
  exact ⟨aliases, endpointAliases, endpoints_le.trans endpoints, records_le.trans records⟩

end OriginPlanInput

/-- A complete plan of one root, with the evidence of that root. -/
structure ValidatedOriginPlan extends OriginPlanInput where
  isFor : provenance.isFor «namespace» = true
  aliasPath_le : aliasPath.length ≤ maxAliasSteps
  endpointAliasPath_le : endpointAliasPath.length ≤ maxAliasSteps
  endpoints_le : endpoints.length ≤ maxEndpoints
  tlsaRecords_le : tlsaRecords.length ≤ maxTlsaRecords
  deriving DecidableEq

/-- Differences between two plans, one bit for each field. -/
@[ext]
structure DivergenceMask where
  bits : UInt32

namespace DivergenceMask

def none : DivergenceMask := ⟨0⟩

def isEmpty (mask : DivergenceMask) : Bool :=
  mask.bits == 0

def contains (mask other : DivergenceMask) : Bool :=
  mask.bits &&& other.bits == other.bits

def setIf (mask : DivergenceMask) (bit : UInt32) (condition : Bool) : DivergenceMask :=
  if condition then ⟨mask.bits ||| bit⟩ else mask

/-- The bit of the field with a number. -/
def differenceBit (field : UInt32) : UInt32 :=
  1 <<< field

/-- Only the complete origin query differs. -/
def originQuery : DivergenceMask := ⟨differenceBit 0⟩

end DivergenceMask

namespace ValidatedOriginPlan

open DivergenceMask (differenceBit)

def new (input : OriginPlanInput) : Except ValidationError ValidatedOriginPlan :=
  if isFor : input.provenance.isFor input.namespace = true then
    if bounded : input.Bounded then
      if !input.aliasesAgree then .error .invalidPlan
      else if !input.normalized.endpointsAndServiceAgree then .error .invalidPlan
      else do
        input.normalized.validateTls
        return ⟨input.normalized, isFor, bounded.normalized.1, bounded.normalized.2.1,
          bounded.normalized.2.2.1, bounded.normalized.2.2.2⟩
    else .error .boundExceeded
  else .error .invalidEvidence

/-- Connection and trust differences from another plan. -/
def differences (plan other : ValidatedOriginPlan) : DivergenceMask :=
  DivergenceMask.none
    |>.setIf (differenceBit 0) (plan.query != other.query)
    |>.setIf (differenceBit 1) (plan.aliasPath != other.aliasPath)
    |>.setIf (differenceBit 2) (plan.terminalTarget != other.terminalTarget)
    |>.setIf (differenceBit 3) (plan.endpoints != other.endpoints)
    |>.setIf (differenceBit 4) (plan.service.priority != other.service.priority)
    |>.setIf (differenceBit 5) (plan.service.serviceTarget != other.service.serviceTarget)
    |>.setIf (differenceBit 6) (plan.endpointAliasPath != other.endpointAliasPath)
    |>.setIf (differenceBit 7) (plan.endpointTarget != other.endpointTarget)
    |>.setIf (differenceBit 8) (plan.service.mandatoryKeys != other.service.mandatoryKeys)
    |>.setIf (differenceBit 9) (plan.service.advertisedAlpn != other.service.advertisedAlpn)
    |>.setIf (differenceBit 10) (plan.service.selectedProtocol != other.service.selectedProtocol)
    |>.setIf (differenceBit 11) (plan.service.effectivePort != other.service.effectivePort)
    |>.setIf (differenceBit 12) (plan.service.transport != other.service.transport)
    |>.setIf (differenceBit 13) (plan.service.connectionHints != other.service.connectionHints)
    |>.setIf (differenceBit 14) (plan.service.echConfig != other.service.echConfig)
    |>.setIf (differenceBit 15) (plan.service.parameters != other.service.parameters)
    |>.setIf (differenceBit 16) (plan.tlsPolicy != other.tlsPolicy)
    |>.setIf (differenceBit 17) (plan.tlsaRecords != other.tlsaRecords)

end ValidatedOriginPlan

/-- How an absence is proved. -/
inductive AbsenceKind
  | hnsCurrentUrkelNonInclusion
  | dnssecAuthenticatedNxDomain
  | dnssecAuthenticatedNoUsableEndpoint
  | icannInsecureNxDomain
  | icannInsecureNoUsableEndpoint
  deriving DecidableEq

def AbsenceKind.tag : AbsenceKind → UInt8
  | .hnsCurrentUrkelNonInclusion => 1
  | .dnssecAuthenticatedNxDomain => 2
  | .dnssecAuthenticatedNoUsableEndpoint => 3
  | .icannInsecureNxDomain => 4
  | .icannInsecureNoUsableEndpoint => 5

theorem AbsenceKind.tag_inj (first second : AbsenceKind) :
    first.tag = second.tag ↔ first = second := by
  cases first <;> cases second <;> decide

/-- The kinds of absence that the evidence of a root can show. -/
def absenceAgrees : Namespace → AbsenceKind → EvidenceProvenance → Bool
  | .hns, .hnsCurrentUrkelNonInclusion, .hns _ _ _ => true
  | .hns, .dnssecAuthenticatedNxDomain, .hns _ _ _ => true
  | .hns, .dnssecAuthenticatedNoUsableEndpoint, .hns _ _ _ => true
  | .icann, .dnssecAuthenticatedNxDomain, .icannDoh .secure => true
  | .icann, .dnssecAuthenticatedNoUsableEndpoint, .icannDoh .secure => true
  | .icann, .icannInsecureNxDomain, .icannDoh .provenInsecure => true
  | .icann, .icannInsecureNoUsableEndpoint, .icannDoh .provenInsecure => true
  | _, _, _ => false

/-- An absence with its evidence. -/
structure ValidatedAbsence where
  «namespace» : Namespace
  query : OriginQuery
  kind : AbsenceKind
  provenance : EvidenceProvenance
  freshness : Freshness
  agrees : absenceAgrees «namespace» kind provenance = true

namespace ValidatedAbsence

/-- An absence has the evidence of its own root. -/
theorem isFor (absence : ValidatedAbsence) : absence.provenance.isFor absence.namespace = true := by
  rcases absence with ⟨root, query, kind, provenance, freshness, agrees⟩
  revert agrees
  cases root <;> cases kind <;> cases provenance <;> simp [absenceAgrees, EvidenceProvenance.isFor]

end ValidatedAbsence

end HnsDaneEngine.NamespaceResolution
