import HnsDaneEngine.Browser.Resolver.Doh

/-!
# Delegated resolution

A delegation is resolved at its nameservers in turn and at its endpoints for DNS
over HTTPS.  A pass over one server asks for the target and the keys, and then
takes the first branch that applies: name error, referral to a signed child, an
answer or a denial signed by a child, no data, or a chain of aliases.  A failed
pass is noted in the run.
-/

namespace HnsDaneEngine.Browser.Resolver

open Browser.Dnssec Control Wire

/-- A requested name and type. -/
structure ResolutionRequest where
  qname : List Char
  qtype : UInt16

def dnsNameIsSubdomainOrEqual (name parent : DnsName) : Bool :=
  parent.labels.isSuffixOf name.labels

/-- `max_by_key` with the number of labels: the last of the longest names. -/
def longestName (names : List DnsName) : Option DnsName :=
  names.foldl (fun longest name =>
    if longest.all fun longest => longest.labels.length ≤ name.labels.length then some name
    else longest) none

/-- A signed delegation to a child zone. -/
structure ChildReferral where
  owner : DnsName
  dsRrset : List ResourceRecord
  dsRrsigRrset : List ResourceRecord
  servers : List SocketAddr

/-- The signed delegation of a response to a child zone at or above the name. -/
def childReferral (response : DnsMessage) (parentOwner requestName : DnsName) :
    Option ChildReferral :=
  let owners := (recordsOfType response.authorities .ns).map ResourceRecord.name
  match longestName (owners.filter fun owner => owner ≠ parentOwner ∧
      dnsNameIsSubdomainOrEqual owner parentOwner ∧
      dnsNameIsSubdomainOrEqual requestName owner) with
  | none => none
  | some owner =>
    let nsRrset := recordsFor response.authorities owner .ns
    let dsRrset := recordsFor response.authorities owner .ds
    let dsRrsigRrset := recordsFor response.authorities owner .rrsig
    if nsRrset.isEmpty ∨ dsRrset.isEmpty ∨ dsRrsigRrset.isEmpty then none
    else
      some ⟨owner, dsRrset, dsRrsigRrset, referralNameserverAddresses nsRrset response.additionals⟩

/-- A signer strictly below the delegation and at or above the name. -/
def isChildSigner (delegation : HnsDelegation) (requestName signer : DnsName) : Bool :=
  signer ≠ delegation.owner && dnsNameIsSubdomainOrEqual signer delegation.owner &&
    dnsNameIsSubdomainOrEqual requestName signer

/-- The signature loop of `inline_child_answer_signer`, which a malformed
signature ends. -/
def answerSignerFrom (delegation : HnsDelegation) (requestName : DnsName)
    (recordType : RecordType) : List ResourceRecord → Option DnsName
  | [] => none
  | record :: rest =>
    match RrsigRecord.fromRecord record with
    | .error _ => none
    | .ok rrsig =>
      if rrsig.typeCovered = recordType ∧
          isChildSigner delegation requestName rrsig.signerName then some rrsig.signerName
      else answerSignerFrom delegation requestName recordType rest

def inlineChildAnswerSigner (delegation : HnsDelegation) (requestName : DnsName)
    (rrset rrsigRrset : List ResourceRecord) (recordType : RecordType) : Option DnsName :=
  match rrset with
  | [] => none
  | first :: _ =>
    answerSignerFrom delegation requestName recordType <| rrsigRrset.filter fun record =>
      record.name = first.name ∧ record.class_ = first.class_ ∧ record.recordType = .rrsig

def inlineChildDenialSigner (delegation : HnsDelegation) (requestName : DnsName)
    (proofRecords : List ResourceRecord) : Option DnsName :=
  longestName <| (recordsOfType proofRecords .rrsig).filterMap fun record =>
    match RrsigRecord.fromRecord record with
    | .error _ => none
    | .ok rrsig =>
      if (rrsig.typeCovered = .nsec ∨ rrsig.typeCovered = .nsec3) ∧
          isChildSigner delegation requestName rrsig.signerName then some rrsig.signerName
      else none

def cnameTarget (cnameRrset : List ResourceRecord) : Except ResolverError DnsName :=
  match cnameRrset with
  | [record] =>
    if record.recordType ≠ .cname then .error .dnssecFailed
    else
      match recordNameRdata record with
      | some name => .ok name
      | none => .error .dnssecFailed
  | _ => .error .dnssecFailed

/-- A verdict of the verifier that has to be positive. -/
def requireSecure (verdict : Except ResolverError Bool) : Except ResolverError Unit :=
  match verdict with
  | .error error => .error error
  | .ok false => .error .dnssecFailed
  | .ok true => .ok ()

def maxCnameChainLen : Nat := 8

/-- What the answers of a parent zone and of a child zone are checked with. -/
structure AnswerRules (σ : Type) where
  requestName : DnsName
  qtype : RecordType
  zoneOwner : DnsName
  validateRrset : PositiveRrset → Except ResolverError Bool
  query : DnsName → Run σ DnsMessage
  nameError : DnsName → DnsMessage → List ResourceRecord → Except ResolverError ResolutionAnswer
  noData : DnsName → DnsMessage → List ResourceRecord → Except ResolverError ResolutionAnswer

/-- `validate_secure_rrset` and `validate_secure_child_rrset`. -/
def AnswerRules.validateSecureRrset {σ : Type} (rules : AnswerRules σ) (owner : DnsName)
    (rrset : List ResourceRecord) (response : DnsMessage) : Except ResolverError Unit :=
  let rrsigRrset := recordsFor response.answers owner .rrsig
  if rrsigRrset.isEmpty then .error .dnssecFailed
  else requireSecure (rules.validateRrset ⟨rrset, rrsigRrset⟩)

/-- The loop of `resolve_secure_answer_records` and of
`resolve_secure_child_answer_records`, with the number of rounds left. -/
def followAnswers {σ : Type} (rules : AnswerRules σ) :
    Nat → DnsMessage → DnsName → List ResourceRecord → Run σ ResolutionAnswer
  | 0, _, _, _ => .throw .dnssecFailed
  | rounds + 1, response, owner, cnameRecords =>
    let targetRrset := recordsFor response.answers owner rules.qtype
    let cnameRrset :=
      if rules.qtype = .cname then [] else recordsFor response.answers owner .cname
    if !targetRrset.isEmpty ∧ !cnameRrset.isEmpty then .throw .dnssecFailed
    else if !targetRrset.isEmpty then do
      Effect.ofExcept (rules.validateSecureRrset owner targetRrset response)
      return ⟨rules.requestName, cnameRecords ++ targetRrset, true⟩
    else if !cnameRrset.isEmpty then do
      Effect.ofExcept (rules.validateSecureRrset owner cnameRrset response)
      let nextOwner ← Effect.ofExcept (cnameTarget cnameRrset)
      if !dnsNameIsSubdomainOrEqual nextOwner rules.zoneOwner then .throw .dnssecFailed
      else followAnswers rules rounds response nextOwner (cnameRecords ++ cnameRrset)
    else if owner ≠ rules.requestName ∧
        response.questions.head?.map DnsQuestion.name ≠ some owner then do
      let response ← rules.query owner
      followAnswers rules rounds response owner cnameRecords
    else if response.header.flags.rcode = dnsRcodeNxdomain then
      .ofExcept (rules.nameError owner response cnameRecords)
    else .ofExcept (rules.noData owner response cnameRecords)

section

variable {σ α : Type}

def note (attempt : Attempt) : Run σ PUnit :=
  Effect.modify fun state => { state with attempts := state.attempts ++ [attempt] }

/-- A pass whose failure is noted. -/
def noted (attempt : ResolverError → Attempt) (action : Run σ α) : Run σ α := do
  match ← action.outcome with
  | .ok value => return value
  | .error error => do
    note (attempt error)
    .throw error

/-- Discovery at one server, which counts by its whole attempt over UDP and TCP. -/
def inDiscovery (action : Run σ α) : Run σ α :=
  fun state =>
    let (result, next) := action { state with attempts := [] }
    let children := next.attempts.filter Attempt.isChildren
    let attempts := match result with
      | .ok _ => children
      | .error error => children ++ [Attempt.server error]
    (result, { next with attempts := state.attempts ++ attempts.map .discovery })

end

section

variable {σ : Type} (transport : DnsTransport σ) (verifier : DelegatedDnssecVerifier)

/-- A referral under its parent. -/
structure ChildReferralResolutionInput where
  parentDelegation : HnsDelegation
  referral : ChildReferral
  requestName : DnsName
  qtype : RecordType
  parentDsRrset : List ResourceRecord
  parentDnskeyRrset : List ResourceRecord
  parentDnskeyRrsigRrset : List ResourceRecord

def ChildReferralResolutionInput.parent (input : ChildReferralResolutionInput) : DnskeyMaterial :=
  ⟨input.parentDelegation.owner, input.parentDsRrset, input.parentDnskeyRrset,
    input.parentDnskeyRrsigRrset⟩

def ChildReferralResolutionInput.material (input : ChildReferralResolutionInput)
    (childDnskeyRrset childDnskeyRrsigRrset : List ResourceRecord) : ChildDnskeyMaterial :=
  ⟨input.parent, ⟨input.referral.owner, input.referral.dsRrset, childDnskeyRrset,
    childDnskeyRrsigRrset⟩, input.referral.dsRrsigRrset⟩

/-- The denial records for one name: its NSEC records and all NSEC3 records. -/
def noDataQuery (response : DnsMessage) (requestName : DnsName) (qtype : RecordType) :
    NoDataQuery :=
  let proofRecords := combinedResponseRecords response
  { queryName := requestName
    queryType := qtype
    nsecRrset := recordsFor proofRecords requestName .nsec
    nsecRrsigRrset := recordsOfType proofRecords .rrsig
    nsec3Rrset := recordsOfType proofRecords .nsec3
    nsec3RrsigRrset := recordsOfType proofRecords .rrsig }

def resolveSecureChildNoData (material : ChildDnskeyMaterial) (qtype : RecordType)
    (requestName : DnsName) (response : DnsMessage) (prefixRecords : List ResourceRecord) :
    Except ResolverError ResolutionAnswer := do
  requireSecure (verifier.validateChildNoData material (noDataQuery response requestName qtype))
  return ⟨requestName, prefixRecords, true⟩

def resolveSecureChildNameError (material : ChildDnskeyMaterial) (requestName : DnsName)
    (response : DnsMessage) (prefixRecords : List ResourceRecord) :
    Except ResolverError ResolutionAnswer :=
  if material.child.dnskeyRrset.isEmpty ∨ material.child.dnskeyRrsigRrset.isEmpty then
    .error .dnssecFailed
  else do
    let candidates ← closestEncloserCandidates requestName material.child.dnskeyOwner
    tryCandidates
      (fun closestEncloser => verifier.validateChildNameError material
        ⟨denialRecords response, requestName, closestEncloser⟩)
      ⟨requestName, prefixRecords, true⟩ candidates

def resolveSecureChildAnswerRecords (server : SocketAddr) (input : ChildReferralResolutionInput)
    (material : ChildDnskeyMaterial) (initialResponse : DnsMessage) : Run σ ResolutionAnswer :=
  followAnswers {
    requestName := input.requestName
    qtype := input.qtype
    zoneOwner := input.referral.owner
    validateRrset := verifier.validateChildPositiveRrset material
    query := fun owner => dnsQuery transport server owner input.qtype
    nameError := resolveSecureChildNameError verifier material
    noData := resolveSecureChildNoData verifier material input.qtype }
    (maxCnameChainLen + 1) initialResponse input.requestName []

def resolveSecureChildFromServer (server : SocketAddr) (input : ChildReferralResolutionInput) :
    Run σ ResolutionAnswer := do
  let dnskeyResponse ← dnsQuery transport server input.referral.owner .dnskey
  let childDnskeyRrset := recordsFor dnskeyResponse.answers input.referral.owner .dnskey
  let childDnskeyRrsigRrset := recordsFor dnskeyResponse.answers input.referral.owner .rrsig
  if childDnskeyRrset.isEmpty ∨ childDnskeyRrsigRrset.isEmpty then .throw .dnssecFailed
  else do
    let targetResponse ← dnsQuery transport server input.requestName input.qtype
    resolveSecureChildAnswerRecords transport verifier server input
      (input.material childDnskeyRrset childDnskeyRrsigRrset) targetResponse

/-- The server loop of `resolve_secure_child_referral`, with the errors so far;
the source keeps the last one only. -/
def tryChildServers (input : ChildReferralResolutionInput) :
    List ResolverError → List SocketAddr → Run σ ResolutionAnswer
  | errors, [] => do
    note (.children errors)
    .throw (errors.getLast?.getD .noNameserverAddress)
  | errors, server :: rest => do
    match ← (resolveSecureChildFromServer transport verifier server input).outcome with
    | .ok answer => do
      note (.children errors)
      return answer
    | .error error => tryChildServers input (errors ++ [error]) rest

def resolveSecureChildReferral (input : ChildReferralResolutionInput) : Run σ ResolutionAnswer :=
  if input.parentDnskeyRrset.isEmpty ∨ input.parentDnskeyRrsigRrset.isEmpty ∨
      input.referral.dsRrset.isEmpty ∨ input.referral.dsRrsigRrset.isEmpty then
    .throw .dnssecFailed
  else if input.referral.servers.isEmpty then .throw .noNameserverAddress
  else if transport.isRecursiveRelay then
    match input.referral.servers.find? fun server =>
        (validateDnsServer transport.endpointPolicy server).isOk with
    | none => .throw .noNameserverAddress
    | some server => tryChildServers transport verifier input [] [server]
  else tryChildServers transport verifier input [] input.referral.servers

/-- The signed sets of a child zone. -/
structure InlineChildDnssecMaterial where
  childDsRrset : List ResourceRecord
  childDsRrsigRrset : List ResourceRecord
  childDnskeyRrset : List ResourceRecord
  childDnskeyRrsigRrset : List ResourceRecord

def fetchInlineChildDnssecMaterial (server : SocketAddr) (childOwner : DnsName) :
    Run σ InlineChildDnssecMaterial := do
  let dsResponse ← dnsQuery transport server childOwner .ds
  let dnskeyResponse ← dnsQuery transport server childOwner .dnskey
  let material : InlineChildDnssecMaterial := {
    childDsRrset := recordsFor dsResponse.answers childOwner .ds
    childDsRrsigRrset := recordsFor dsResponse.answers childOwner .rrsig
    childDnskeyRrset := recordsFor dnskeyResponse.answers childOwner .dnskey
    childDnskeyRrsigRrset := recordsFor dnskeyResponse.answers childOwner .rrsig }
  if material.childDsRrset.isEmpty ∨ material.childDsRrsigRrset.isEmpty ∨
      material.childDnskeyRrset.isEmpty ∨ material.childDnskeyRrsigRrset.isEmpty then
    .throw .dnssecFailed
  else return material

def InlineChildDnssecMaterial.under (material : InlineChildDnssecMaterial)
    (parent : DnskeyMaterial) (childOwner : DnsName) : ChildDnskeyMaterial :=
  ⟨parent, ⟨childOwner, material.childDsRrset, material.childDnskeyRrset,
    material.childDnskeyRrsigRrset⟩, material.childDsRrsigRrset⟩

def resolveSecureInlineChildAnswer (parent : DnskeyMaterial) (childOwner : DnsName)
    (server : SocketAddr) (requestName : DnsName)
    (targetRrset targetRrsigRrset : List ResourceRecord) :
    Run σ ResolutionAnswer :=
  if parent.dnskeyRrset.isEmpty ∨ parent.dnskeyRrsigRrset.isEmpty ∨ targetRrset.isEmpty ∨
      targetRrsigRrset.isEmpty then .throw .dnssecFailed
  else do
    let material ← fetchInlineChildDnssecMaterial transport server childOwner
    Effect.ofExcept (requireSecure (verifier.validateChildPositiveRrset
      (material.under parent childOwner) ⟨targetRrset, targetRrsigRrset⟩))
    return ⟨requestName, targetRrset, true⟩

def resolveSecureInlineChildNoData (parent : DnskeyMaterial) (childOwner : DnsName)
    (server : SocketAddr) (requestName : DnsName) (qtype : RecordType) (response : DnsMessage)
    (prefixRecords : List ResourceRecord) : Run σ ResolutionAnswer :=
  if parent.dnskeyRrset.isEmpty ∨ parent.dnskeyRrsigRrset.isEmpty then .throw .dnssecFailed
  else do
    let material ← fetchInlineChildDnssecMaterial transport server childOwner
    Effect.ofExcept (requireSecure (verifier.validateChildNoData (material.under parent childOwner)
      (noDataQuery response requestName qtype)))
    return ⟨requestName, prefixRecords, true⟩

/-- What is asked of a delegation. -/
structure DelegatedQuestion where
  delegation : HnsDelegation
  requestName : DnsName
  qtype : RecordType
  dsRrset : List ResourceRecord

def resolveSecureAnswerRecords (target : DnsQueryTarget) (question : DelegatedQuestion)
    (dnskeyRrset dnskeyRrsigRrset : List ResourceRecord) (initialResponse : DnsMessage) :
    Run σ ResolutionAnswer :=
  followAnswers {
    requestName := question.requestName
    qtype := question.qtype
    zoneOwner := question.delegation.owner
    validateRrset := verifier.validatePositiveRrset ⟨question.delegation.owner, question.dsRrset,
      dnskeyRrset, dnskeyRrsigRrset⟩
    query := fun owner => dnsQueryTarget transport target owner question.qtype
    nameError := fun owner response prefixRecords => resolveSecureNameError verifier
      ⟨question.delegation, owner, question.dsRrset, dnskeyRrset, dnskeyRrsigRrset, response,
        prefixRecords⟩
    noData := fun owner response prefixRecords => resolveSecureNoData verifier
      ⟨question.delegation, owner, question.qtype, question.dsRrset, dnskeyRrset,
        dnskeyRrsigRrset, response, prefixRecords⟩ }
    (maxCnameChainLen + 1) initialResponse question.requestName []

/-- The branches after both responses of a pass have arrived. -/
def resolveFromResponses (server : SocketAddr) (target : DnsQueryTarget)
    (question : DelegatedQuestion) (targetResponse dnskeyResponse : DnsMessage) :
    Run σ ResolutionAnswer :=
  let ⟨delegation, requestName, qtype, dsRrset⟩ := question
  let targetRrset := recordsFor targetResponse.answers requestName qtype
  let targetRrsigRrset := recordsFor targetResponse.answers requestName .rrsig
  let dnskeyRrset := recordsFor dnskeyResponse.answers delegation.owner .dnskey
  let dnskeyRrsigRrset := recordsFor dnskeyResponse.answers delegation.owner .rrsig
  let parent : DnskeyMaterial := ⟨delegation.owner, dsRrset, dnskeyRrset, dnskeyRrsigRrset⟩
  if targetResponse.header.flags.rcode = dnsRcodeNxdomain then
    .ofExcept (resolveSecureNameError verifier ⟨delegation, requestName, dsRrset, dnskeyRrset,
      dnskeyRrsigRrset, targetResponse, []⟩)
  else
    match childReferral targetResponse delegation.owner requestName with
    | some referral =>
      resolveSecureChildReferral transport verifier ⟨delegation, referral, requestName, qtype,
        dsRrset, dnskeyRrset, dnskeyRrsigRrset⟩
    | none =>
      match inlineChildAnswerSigner delegation requestName targetRrset targetRrsigRrset qtype with
      | some childOwner =>
        resolveSecureInlineChildAnswer transport verifier parent childOwner server requestName
          targetRrset targetRrsigRrset
      | none =>
        if targetRrset.isEmpty ∧
            (recordsFor targetResponse.answers requestName .cname).isEmpty then
          match inlineChildDenialSigner delegation requestName
              (combinedResponseRecords targetResponse) with
          | some childOwner =>
            resolveSecureInlineChildNoData transport verifier parent childOwner server
              requestName qtype targetResponse []
          | none =>
            .ofExcept (resolveSecureNoData verifier ⟨delegation, requestName, qtype, dsRrset,
              dnskeyRrset, dnskeyRrsigRrset, targetResponse, []⟩)
        else if dnskeyRrset.isEmpty ∨ dnskeyRrsigRrset.isEmpty then .throw .dnssecFailed
        else
          resolveSecureAnswerRecords transport verifier target question dnskeyRrset
            dnskeyRrsigRrset targetResponse

/-- The common body of `resolve_delegated_from_server_target` and
`resolve_delegated_from_doh_endpoint`; `dns_query_doh` is the query at an
endpoint. -/
def resolveFromTarget (server : SocketAddr) (target : DnsQueryTarget)
    (question : DelegatedQuestion) : Run σ ResolutionAnswer := do
  let targetResponse ← dnsQueryTarget transport target question.requestName question.qtype
  if question.dsRrset.isEmpty then
    return ⟨question.requestName,
      recordsFor targetResponse.answers question.requestName question.qtype, false⟩
  else do
    let dnskeyResponse ← dnsQueryTarget transport target question.delegation.owner .dnskey
    resolveFromResponses transport verifier server target question targetResponse dnskeyResponse

def resolveDelegatedFromServerTarget (server : SocketAddr) (target : DnsQueryTarget)
    (question : DelegatedQuestion) : Run σ ResolutionAnswer :=
  resolveFromTarget transport verifier server target question

def resolveDelegatedFromDohEndpoint (endpoint : AuthoritativeDohEndpoint)
    (question : DelegatedQuestion) : Run σ ResolutionAnswer :=
  resolveFromTarget transport verifier ⟨endpoint.connectAddr, endpoint.port⟩ (.doh endpoint)
    question

/-- A failed validation is repeated over TCP, unless port 53 is intercepted. -/
def resolveDelegatedFromServer (server : SocketAddr) (question : DelegatedQuestion) :
    Run σ ResolutionAnswer := do
  match ← (noted .server (resolveDelegatedFromServerTarget transport verifier server
      (.server server) question)).outcome with
  | .ok answer => return answer
  | .error .dnssecFailed => do
    if (← interception transport.probeDnsInterception) = .detected then
      .throw .port53InterceptionDetected
    else
      match ← (noted .server (resolveDelegatedFromServerTarget transport verifier server
          (.serverTcp server) question)).outcome with
      | .ok answer => return answer
      | .error error => .throw (strongestResolutionError .dnssecFailed error)
  | .error error => .throw error

/-- The endpoints that the TXT records of the delegation declare. -/
def declaredEndpoints (templates : List AuthoritativeDohTemplate)
    (addressMap : List (DnsName × IpAddr)) : List AuthoritativeDohEndpoint :=
  (templates.flatMap fun template =>
    (addressMap.filter fun (ns, _) => ns = template.ns).map fun (_, address) =>
      template.endpoint address).foldl pushNew []

/-- The endpoints of the SVCB records of one nameserver. -/
def serviceEndpoints (ns : DnsName) (address : IpAddr) (endpoints : List AuthoritativeDohEndpoint)
    (records : List ResourceRecord) : Except ResolverError (List AuthoritativeDohEndpoint) :=
  records.foldlM (fun endpoints record => do
    match ← authoritativeDohTemplateFromSvcb ns record with
    | none => return endpoints
    | some template => return pushNew endpoints (template.endpoint address)) endpoints

/-- The nameserver loop of `authoritative_doh_endpoints`, which passes over
failed resolutions. -/
def discoverEndpoints (delegation : HnsDelegation) (dsRrset : List ResourceRecord) :
    List AuthoritativeDohEndpoint → List (DnsName × IpAddr) → Run σ (List AuthoritativeDohEndpoint)
  | endpoints, [] => pure endpoints
  | endpoints, (ns, address) :: rest => do
    let serviceName ← Effect.ofExcept (dnsServiceBindingName ns)
    match ← (inDiscovery (resolveDelegatedFromServer transport verifier ⟨address, 53⟩
        ⟨delegation, serviceName, .svcb, dsRrset⟩)).outcome with
    | .error _ => discoverEndpoints delegation dsRrset endpoints rest
    | .ok response =>
      if !response.secure then discoverEndpoints delegation dsRrset endpoints rest
      else do
        let endpoints ← Effect.ofExcept (serviceEndpoints ns address endpoints
          (recordsFor response.records serviceName .svcb))
        discoverEndpoints delegation dsRrset endpoints rest

def authoritativeDohEndpoints (delegation : HnsDelegation) :
    Run σ (List AuthoritativeDohEndpoint) := do
  let addressMap := nameserverIpAddresses delegation
  let templates ← Effect.ofExcept (authoritativeDohTemplatesFromHns delegation)
  let endpoints := declaredEndpoints templates addressMap
  if !endpoints.isEmpty then return endpoints
  else
    let dsRrset := recordsFor delegation.records delegation.owner .ds
    if dsRrset.isEmpty then return endpoints
    else discoverEndpoints transport verifier delegation dsRrset endpoints addressMap

end

/-- A resolver with its transport. -/
structure AuthoritativeDnssecResolver (σ : Type) where
  transport : DnsTransport σ
  verifier : DelegatedDnssecVerifier
  authoritativeDohEnabled : Bool
  preferAuthoritativeDoh : Bool

/-- State of a loop over servers or endpoints. -/
inductive Progress
  | answered (answer : ResolutionAnswer)
  | failed (lastError : Option ResolverError)

namespace AuthoritativeDnssecResolver

variable {σ : Type} (resolver : AuthoritativeDnssecResolver σ)

/-- `AuthoritativeDnssecResolver::authoritative_doh_endpoints`, with its cache. -/
def cachedDohEndpoints (delegation : HnsDelegation) : Run σ (List AuthoritativeDohEndpoint) := do
  let cacheKey := authoritativeDohCacheKey delegation
  match (← Effect.get).endpointCache cacheKey with
  | some cached => return cached
  | none => do
    let endpoints ←
      authoritativeDohEndpoints resolver.transport resolver.verifier delegation
    Effect.modify fun state => { state with
      endpointCache := fun key =>
        if key = cacheKey then some endpoints else state.endpointCache key }
    return endpoints

/-- The endpoint loop of `resolve_delegated`. -/
def tryDohEndpoints (question : DelegatedQuestion) :
    Option ResolverError → List AuthoritativeDohEndpoint → Run σ Progress
  | lastError, [] => pure (.failed lastError)
  | lastError, endpoint :: rest => do
    match ← (noted .doh (resolveDelegatedFromDohEndpoint resolver.transport resolver.verifier
        endpoint question)).outcome with
    | .ok answer => return .answered answer
    | .error error => tryDohEndpoints question (retainStrongestResolutionError lastError error) rest

def tryAuthoritativeDoh (question : DelegatedQuestion) (lastError : Option ResolverError) :
    Run σ Progress := do
  match ← (resolver.cachedDohEndpoints question.delegation).outcome with
  | .ok endpoints => resolver.tryDohEndpoints question lastError endpoints
  | .error error => return .failed (retainStrongestResolutionError lastError error)

/-- The server loop of `resolve_delegated`, which ends when port 53 is
intercepted. -/
def tryServers (question : DelegatedQuestion) :
    Option ResolverError → List SocketAddr → Run σ Progress
  | lastError, [] => pure (.failed lastError)
  | lastError, server :: rest => do
    match ← (resolveDelegatedFromServer resolver.transport resolver.verifier server
        question).outcome with
    | .ok answer => return .answered answer
    | .error .port53InterceptionDetected =>
      return .failed (retainStrongestResolutionError lastError .port53InterceptionDetected)
    | .error error => tryServers question (retainStrongestResolutionError lastError error) rest

/-- The endpoints, when they are to be tried. -/
def dohPhase (wanted : Bool) (question : DelegatedQuestion) (lastError : Option ResolverError) :
    Run σ Progress :=
  if wanted then resolver.tryAuthoritativeDoh question lastError else pure (.failed lastError)

/-- The servers, unless port 53 is known to be intercepted. -/
def serverPhase (question : DelegatedQuestion) (servers : List SocketAddr)
    (lastError : Option ResolverError) : Run σ Progress := do
  if (← interception resolver.transport.dnsInterceptionStatus) = .detected then
    return .failed (some .port53InterceptionDetected)
  else resolver.tryServers question lastError servers

/-- Without a recursive relay: the servers, and the endpoints unless they were
tried before. -/
def resolveAtServers (question : DelegatedQuestion) (servers : List SocketAddr)
    (lastError : Option ResolverError) : Run σ ResolutionAnswer := do
  match ← resolver.serverPhase question servers lastError with
  | .answered answer => return answer
  | .failed lastError => do
    match ← resolver.dohPhase
        (resolver.authoritativeDohEnabled && !resolver.preferAuthoritativeDoh) question
        lastError with
    | .answered answer => return answer
    | .failed lastError => do
      let _ ← interception resolver.transport.probeDnsInterception
      .throw (lastError.getD .noNameserverAddress)

/-- With a recursive relay: one pass over the first server that the policy
allows. -/
def resolveAtRelay (question : DelegatedQuestion) (servers : List SocketAddr) :
    Run σ ResolutionAnswer :=
  match servers.find? fun server =>
      (validateDnsServer resolver.transport.endpointPolicy server).isOk with
  | none => .throw .noNameserverAddress
  | some server =>
    noted .server (resolveDelegatedFromServerTarget resolver.transport resolver.verifier server
      (.server server) question)

/-- The part of `resolve_delegated` after the request has been read. -/
def resolveQuestion (question : DelegatedQuestion) (servers : List SocketAddr) :
    Run σ ResolutionAnswer := do
  match ← resolver.dohPhase (resolver.authoritativeDohEnabled && resolver.preferAuthoritativeDoh)
      question none with
  | .answered answer => return answer
  | .failed lastError =>
    if resolver.transport.isRecursiveRelay then resolver.resolveAtRelay question servers
    else resolver.resolveAtServers question servers lastError

def resolveDelegated (request : ResolutionRequest) (delegation : HnsDelegation) :
    Run σ ResolutionAnswer :=
  if request.qtype = 65535 then .throw .unsupportedBackend
  else
    match DnsName.fromAscii request.qname with
    | .error _ => .throw .unsupportedBackend
    | .ok requestName =>
      let servers := nameserverAddresses delegation
      if servers.isEmpty then .throw .noNameserverAddress
      else
        resolver.resolveQuestion ⟨delegation, requestName, .fromCode request.qtype,
          recordsFor delegation.records delegation.owner .ds⟩ servers

end AuthoritativeDnssecResolver

end HnsDaneEngine.Browser.Resolver
