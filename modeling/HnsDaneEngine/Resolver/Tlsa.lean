import HnsDaneEngine.Dnssec.Keys
import HnsDaneEngine.Primitives.Hash
import HnsDaneEngine.Resolver.Service

/-!
# Locally validated TLSA resolution

The state machine that follows DNSSEC-verified CNAME edges from a service owner to
a terminal TLSA RRset.  One response may carry several hops; the machine commits
each verified edge when it takes it, and the trust authority with the first
response whose answers it reads.
-/

namespace HnsDaneEngine.Resolver

open Dnssec Wire
open Primitives (Hash)

def httpsPort : UInt16 := 443

inductive ResolverError
  | wire (error : Wire.Error)
  | dnssec (error : DnssecError)
  | invalidServiceName
  | wrongQuery
  | unsuccessfulResponse
  | missingTlsa
  | cnameCoexistsWithData
  | cnameLoop
  | cnameLimit
  | malformedAnswer
  | limit
  | alreadyComplete
  | missingHnsDs
  | invalidHnsZone
  | anchorTimeMismatch
  | hnsZoneMismatch
  | authorityChanged

inductive Network
  | mainnet
  | testnet
  | regtest
  | simnet
  deriving DecidableEq

/-- Metadata of the exact header that authenticated a resource. -/
structure HnsAnchor where
  network : Network
  height : Nat
  blockHash : Hash
  treeRoot : Hash
  chainwork : Nat
  validatedAt : Nat
  validUntil : Nat
  deriving DecidableEq

/-- HNS authority lineage retained by a validated TLSA result. -/
structure HnsAuthorityEvidence where
  anchor : HnsAnchor
  zone : Name
  validationTime : UInt32
  expiresAtUnix : Nat
  deriving DecidableEq

structure HnsDnssecAuthority where
  evidence : HnsAuthorityEvidence
  keys : AuthenticatedDnskeys

/-- The bounds of a resolution. -/
structure ResolverLimits where
  maxCnameHops : Nat
  maxTlsaRecords : Nat
  dnssec : DnssecLimits
  deriving DecidableEq

def ResolverLimits.default : ResolverLimits where
  maxCnameHops := 16
  maxTlsaRecords := 64
  dnssec := DnssecLimits.default

/-- One DNSSEC-verified CNAME edge. -/
structure VerifiedCname where
  owner : Name
  target : Name
  rrset : VerifiedRrset
  deriving DecidableEq

/-- Locally DNSSEC-validated TLSA result. -/
structure ValidatedTlsa where
  requestedOwner : Name
  terminalOwner : Name
  baseDomain : Name
  baseDomainAscii : Octets
  records : List Tlsa
  cnameChain : List VerifiedCname
  rrset : VerifiedRrset
  hnsAuthority : Option HnsAuthorityEvidence
  validatedAtUnix : Nat
  expiresAtUnix : Nat

def ValidatedTlsa.isFreshAt (result : ValidatedTlsa) (now : Nat) : Bool :=
  result.validatedAtUnix ≤ now && now < result.expiresAtUnix

/-- Result of admitting one correlated DNS response. -/
inductive ResolutionStep
  | followCname (target : Name)
  | complete (result : ValidatedTlsa)

/-- What a resolution is bound to. -/
inductive AuthorityBinding
  | unset
  | generic
  | hns (evidence : HnsAuthorityEvidence)
  deriving DecidableEq

/-- Mutable bounded CNAME/TLSA resolution.  The visited owners are a set; they
stand in the order of their insertion. -/
structure TlsaResolution where
  requestedOwner : Name
  currentOwner : Name
  baseDomain : Name
  baseDomainAscii : Octets
  visited : List Name
  cnameChain : List VerifiedCname
  completed : Bool
  limits : ResolverLimits
  authorityBinding : AuthorityBinding
  deriving DecidableEq

namespace TlsaResolution

/-- Begin a TLSA lookup for one explicit service. -/
def forService (baseDomain : Name) (port : UInt16) (transport : ServiceTransport)
    (limits : ResolverLimits) : Except ResolverError TlsaResolution :=
  match asciiHost baseDomain with
  | none => .error .invalidServiceName
  | some baseDomainAscii =>
    match deriveOwner baseDomainAscii port transport with
    | .error _ => .error .invalidServiceName
    | .ok resolverName =>
      match nameFromAscii resolverName with
      | .error _ => .error .invalidServiceName
      | .ok requestedOwner =>
        .ok {
          requestedOwner
          currentOwner := requestedOwner
          baseDomain
          baseDomainAscii
          visited := [requestedOwner]
          cnameChain := []
          completed := false
          limits
          authorityBinding := .unset }

end TlsaResolution

def matchingRecords (message : Message) (owner : Name) (recordType : RecordType) :
    List ResourceRecord :=
  message.answers.filter fun record =>
    record.name = owner && record.recordType = recordType && record.class_ = classIn

def coversType (recordType : RecordType) : Rdata → Bool
  | .rrsig signature => signature.typeCovered = recordType
  | _ => false

def matchingSignatures (message : Message) (owner : Name) (recordType : RecordType) :
    List ResourceRecord :=
  (message.answers ++ message.authorities).filter fun record =>
    record.name = owner && record.recordType = .rrsig && record.class_ = classIn &&
      coversType recordType record.rdata

def hasOwnerData (message : Message) (owner : Name) : Bool :=
  message.answers.any fun record => record.name = owner && record.class_ = classIn

def validatedTlsaExpiry (cnameChain : List VerifiedCname) (terminal : VerifiedRrset)
    (hnsAuthority : Option HnsAuthorityEvidence) : Nat :=
  ((cnameChain.map fun edge => edge.rrset.expiresAtUnix) ++ [terminal.expiresAtUnix] ++
    hnsAuthority.toList.map HnsAuthorityEvidence.expiresAtUnix).min?.getD terminal.expiresAtUnix

def retainedHnsAuthority : AuthorityBinding → Option HnsAuthorityEvidence
  | .hns evidence => some evidence
  | .unset | .generic => none

variable (resolution : TlsaResolution)

section

variable (openssl : OpenSsl)

/-- The loop over the keysets, with the last error. -/
def tryKeysets (owner : Name) (records signatures : List ResourceRecord)
    (validationTime : UInt32) (limits : DnssecLimits) :
    DnssecError → List AuthenticatedDnskeys → Except ResolverError VerifiedRrset
  | lastError, [] => .error (.dnssec lastError)
  | lastError, keyset :: rest =>
    if !isSuffix owner keyset.zone then
      tryKeysets owner records signatures validationTime limits lastError rest
    else
      match verifyRrsetWithKeys openssl keyset records signatures validationTime limits with
      | .ok verified => .ok verified
      | .error error => tryKeysets owner records signatures validationTime limits error rest

def verifyWithAnyKeyset (keysets : List AuthenticatedDnskeys)
    (records signatures : List ResourceRecord) (validationTime : UInt32)
    (limits : DnssecLimits) : Except ResolverError VerifiedRrset :=
  match records with
  | [] => .error .malformedAnswer
  | first :: _ =>
    tryKeysets openssl first.name records signatures validationTime limits .missingKey keysets

/-- The TLSA data of all records. -/
def tlsaData : List ResourceRecord → Except ResolverError (List Tlsa)
  | [] => .ok []
  | record :: rest =>
    match record.rdata with
    | .tlsa tlsa =>
      match tlsaData rest with
      | .ok tail => .ok (tlsa :: tail)
      | .error error => .error error
    | _ => .error .malformedAnswer

/-- One turn of the answer loop at the current owner. -/
inductive Hop
  | complete (result : ValidatedTlsa)
  | cname (edge : VerifiedCname)

namespace TlsaResolution

/-- The turn when the current owner has TLSA records. -/
def terminalHop (message : Message) (keysets : List AuthenticatedDnskeys) (validationTime : UInt32)
    (tlsaRecords : List ResourceRecord) : Except ResolverError Hop :=
  if resolution.limits.maxTlsaRecords < tlsaRecords.length then .error .limit
  else
    match verifyWithAnyKeyset openssl keysets tlsaRecords
        (matchingSignatures message resolution.currentOwner .tlsa) validationTime
        resolution.limits.dnssec with
    | .error error => .error error
    | .ok verified =>
      match tlsaData tlsaRecords with
      | .error error => .error error
      | .ok records =>
        let hnsAuthority := retainedHnsAuthority resolution.authorityBinding
        .ok (.complete {
          requestedOwner := resolution.requestedOwner
          terminalOwner := resolution.currentOwner
          baseDomain := resolution.baseDomain
          baseDomainAscii := resolution.baseDomainAscii
          records
          cnameChain := resolution.cnameChain
          rrset := verified
          hnsAuthority
          validatedAtUnix := validationTime.toNat
          expiresAtUnix :=
            validatedTlsaExpiry resolution.cnameChain verified hnsAuthority })

/-- The turn when the current owner has no TLSA records. -/
def aliasHop (message : Message) (keysets : List AuthenticatedDnskeys) (validationTime : UInt32)
    (cnameRecords : List ResourceRecord) : Except ResolverError Hop :=
  match cnameRecords with
  | [] => .error .missingTlsa
  | _ :: _ :: _ => .error .malformedAnswer
  | [record] =>
    if resolution.limits.maxCnameHops ≤ resolution.cnameChain.length then .error .cnameLimit
    else
      match verifyWithAnyKeyset openssl keysets [record]
          (matchingSignatures message resolution.currentOwner .cname) validationTime
          resolution.limits.dnssec with
      | .error error => .error error
      | .ok verified =>
        match record.rdata with
        | .cname target =>
          if target ∈ resolution.visited then .error .cnameLoop
          else .ok (.cname ⟨resolution.currentOwner, target, verified⟩)
        | _ => .error .malformedAnswer

def answerHop (message : Message) (keysets : List AuthenticatedDnskeys) (validationTime : UInt32) :
    Except ResolverError Hop :=
  let tlsaRecords := matchingRecords message resolution.currentOwner .tlsa
  let cnameRecords := matchingRecords message resolution.currentOwner .cname
  if !tlsaRecords.isEmpty && !cnameRecords.isEmpty then .error .cnameCoexistsWithData
  else if !tlsaRecords.isEmpty then
    resolution.terminalHop openssl message keysets validationTime tlsaRecords
  else resolution.aliasHop openssl message keysets validationTime cnameRecords

/-- Commit one verified edge. -/
def follow (edge : VerifiedCname) : TlsaResolution :=
  { resolution with
    visited := resolution.visited ++ [edge.target]
    cnameChain := resolution.cnameChain ++ [edge]
    currentOwner := edge.target }

/-- The answer loop.  An edge is only taken below the hop limit, so the hops that
remain bound the number of turns; see `answerLoop_eq`. -/
def answerLoopFrom (message : Message) (keysets : List AuthenticatedDnskeys)
    (validationTime : UInt32) :
    Nat → TlsaResolution → Except ResolverError ResolutionStep × TlsaResolution
  | 0, resolution => (.error .cnameLimit, resolution)
  | turns + 1, resolution =>
    match resolution.answerHop openssl message keysets validationTime with
    | .error error => (.error error, resolution)
    | .ok (.complete result) =>
      (.ok (.complete result), { resolution with completed := true })
    | .ok (.cname edge) =>
      let resolution := resolution.follow edge
      if !hasOwnerData message resolution.currentOwner then
        (.ok (.followCname resolution.currentOwner), resolution)
      else answerLoopFrom message keysets validationTime turns resolution

def answerLoop (message : Message) (keysets : List AuthenticatedDnskeys) (validationTime : UInt32) :
    Except ResolverError ResolutionStep × TlsaResolution :=
  answerLoopFrom openssl message keysets validationTime
    (resolution.limits.maxCnameHops - resolution.cnameChain.length + 1) resolution

/-- The checks before any answer is read. -/
def checkResponse (query : Query) (message : Message) : Except ResolverError Unit :=
  if resolution.completed then .error .alreadyComplete
  else if query.question.name ≠ resolution.currentOwner ∨ query.question.recordType ≠ .tlsa ∨
      query.question.class_ ≠ classIn then
    .error .wrongQuery
  else
    match query.correlate message with
    | .error error => .error (.wire error)
    | .ok () =>
      if message.header.flags.rcode ≠ 0 then .error .unsuccessfulResponse else .ok ()

def acceptResponseInner (query : Query) (message : Message)
    (keysets : List AuthenticatedDnskeys) (validationTime : UInt32)
    (authorityBinding : AuthorityBinding) :
    Except ResolverError ResolutionStep × TlsaResolution :=
  match resolution.checkResponse query message with
  | .error error => (.error error, resolution)
  | .ok () =>
    if resolution.authorityBinding = .unset then
      { resolution with authorityBinding }.answerLoop openssl message keysets validationTime
    else if resolution.authorityBinding = authorityBinding then
      resolution.answerLoop openssl message keysets validationTime
    else (.error .authorityChanged, resolution)

/-- Validate and consume one exactly correlated response. -/
def acceptResponse (query : Query) (message : Message)
    (keysets : List AuthenticatedDnskeys) (validationTime : UInt32) :
    Except ResolverError ResolutionStep × TlsaResolution :=
  resolution.acceptResponseInner openssl query message keysets validationTime .generic

/-- Validate a response using only an on-chain HNS DS-authenticated keyset. -/
def acceptHnsResponse (query : Query) (message : Message)
    (authority : HnsDnssecAuthority) : Except ResolverError ResolutionStep × TlsaResolution :=
  if !isSuffix resolution.baseDomain authority.evidence.zone then
    (.error .hnsZoneMismatch, resolution)
  else
    resolution.acceptResponseInner openssl query message [authority.keys]
      authority.evidence.validationTime (.hns authority.evidence)

end TlsaResolution

end

end HnsDaneEngine.Resolver
