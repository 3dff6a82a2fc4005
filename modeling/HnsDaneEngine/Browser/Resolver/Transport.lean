import HnsDaneEngine.Browser.Network
import HnsDaneEngine.Browser.Resolver.Verifier
import HnsDaneEngine.Control.Effect

/-!
# Queries of the browser resolver

A transport exchanges octets over UDP, TCP and DNS over HTTPS.  Its behaviour is
any function of its own state, so that every sequence of outcomes is a transport.
A query goes over UDP first and over TCP when the answer is lost, malformed or
truncated; of two errors the stronger one is reported.
-/

namespace HnsDaneEngine.Browser.Resolver

open Control Wire

/-- Only availability failures may be replaced by other errors. -/
def resolutionErrorPriority : ResolverError → Nat
  | .dnsTransport _ => 0
  | .port53InterceptionDetected => 1
  | _ => 2

def retainStrongestResolutionError (current : Option ResolverError) (candidate : ResolverError) :
    Option ResolverError :=
  if current.all fun error =>
      resolutionErrorPriority error ≤ resolutionErrorPriority candidate then some candidate
  else current

def strongestResolutionError (first second : ResolverError) : ResolverError :=
  (retainStrongestResolutionError (some first) second).getD first

/-- The endpoints that may be asked. -/
structure DnsEndpointPolicy where
  allowNonPublicAddresses : Bool
  allowUnsafeDohPorts : Bool

def DnsEndpointPolicy.strict : DnsEndpointPolicy :=
  ⟨false, false⟩

/-- The usage of a TLSA record. -/
inductive TlsaUsage
  | pkixTa
  | pkixEe
  | daneTa
  | daneEe
  deriving DecidableEq

/-- What a TLSA record selects. -/
inductive TlsaSelector
  | fullCertificate
  | subjectPublicKeyInfo
  deriving DecidableEq

/-- How a TLSA record matches. -/
inductive TlsaMatching
  | exact
  | sha256
  | sha512
  deriving DecidableEq

/-- The data of a TLSA record. -/
structure TlsaRecord where
  usage : TlsaUsage
  selector : TlsaSelector
  matching : TlsaMatching
  associationData : Octets
  deriving DecidableEq

/-- What TLS rests on. -/
inductive AuthoritativeDohTlsAuthentication
  | webPki
  | hnsProofTlsa (records : List TlsaRecord)
  deriving DecidableEq

/-- An endpoint for DNS over HTTPS. -/
structure AuthoritativeDohEndpoint where
  ns : DnsName
  host : List Char
  connectAddr : IpAddr
  port : UInt16
  pathAndQuery : List Char
  tlsAuthentication : AuthoritativeDohTlsAuthentication
  deriving DecidableEq

/-- Where a query goes. -/
inductive DnsQueryTarget
  | server (server : SocketAddr)
  | serverTcp (server : SocketAddr)
  | doh (endpoint : AuthoritativeDohEndpoint)

/-- What a probe has found. -/
inductive DnsInterceptionStatus
  | notTested
  | notDetected
  | detected
  | inconclusive
  deriving DecidableEq

/-- A server must be public unless the policy says otherwise. -/
def validateDnsServer (policy : DnsEndpointPolicy) (server : SocketAddr) :
    Except ResolverError Unit :=
  if policy.allowNonPublicAddresses || isPubliclyRoutable server.ip then .ok ()
  else .error .nonPublicDnsEndpoint

def validateDohEndpoint (policy : DnsEndpointPolicy) (endpoint : AuthoritativeDohEndpoint) :
    Except ResolverError Unit := do
  validateDnsServer policy ⟨endpoint.connectAddr, endpoint.port⟩
  if policy.allowUnsafeDohPorts || !isBrowserBlockedPort endpoint.port then .ok ()
  else .error (.unsafeAuthoritativeDohPort endpoint.port)

/-- `DnsTransport` with a state of its own. -/
structure DnsTransport (σ : Type) where
  endpointPolicy : DnsEndpointPolicy
  isRecursiveRelay : Bool
  exchangeUdp : SocketAddr → Octets → σ → Except ResolverError Octets × σ
  exchangeTcp : SocketAddr → Octets → σ → Except ResolverError Octets × σ
  exchangeDoh : AuthoritativeDohEndpoint → Octets → σ → Except ResolverError Octets × σ
  probeDnsInterception : σ → DnsInterceptionStatus × σ
  dnsInterceptionStatus : σ → DnsInterceptionStatus × σ

/-- An attempt of a resolution that ended with an error. -/
inductive Attempt
  /-- One pass over a nameserver of the delegation. -/
  | server (error : ResolverError)
  /-- One pass over an endpoint for DNS over HTTPS. -/
  | doh (error : ResolverError)
  /-- The child nameservers of a followed referral that were asked in vain, in
  order. -/
  | children (errors : List ResolverError)
  /-- An attempt made while looking for endpoints: a server over UDP and then TCP, or the child
  nameservers asked for it. -/
  | discovery (attempt : Attempt)
  deriving DecidableEq

def Attempt.isChildren : Attempt → Bool
  | .children _ => true
  | _ => false

/-- What endpoints are cached for: the owner of a delegation, its nameserver
addresses and its records. -/
abbrev EndpointCacheKey : Type :=
  DnsName × Finset (DnsName × IpAddr) × Finset ResourceRecord

/-- State of a resolution.  The attempts are a record of the run that no
function of the source looks at. -/
structure RunState (σ : Type) where
  transport : σ
  dnsQueryId : UInt16
  endpointCache : EndpointCacheKey → Option (List AuthoritativeDohEndpoint)
  attempts : List Attempt

/-- A resolution starts with no attempts. -/
def RunState.start {σ : Type} (transport : σ) (dnsQueryId : UInt16)
    (endpointCache : EndpointCacheKey → Option (List AuthoritativeDohEndpoint)) : RunState σ :=
  ⟨transport, dnsQueryId, endpointCache, []⟩

abbrev Run (σ α : Type) : Type :=
  Effect (RunState σ) ResolverError α

section

variable {σ : Type} (transport : DnsTransport σ)

/-- An exchange of the transport. -/
def exchange {α : Type} (action : σ → Except ResolverError α × σ) : Run σ α :=
  fun state => ((action state.transport).1, { state with transport := (action state.transport).2 })

/-- A question to the transport about interception. -/
def interception (action : σ → DnsInterceptionStatus × σ) : Run σ DnsInterceptionStatus :=
  exchange fun state => (.ok (action state).1, (action state).2)

def nextDnsQueryId : Run σ UInt16 :=
  fun state => (.ok (state.dnsQueryId + 1), { state with dnsQueryId := state.dnsQueryId + 1 })

def dnsClassIn : UInt16 := 1

def dnsOptRecordType : UInt16 := 41

def dnssecDoFlag : UInt32 := 0x8000

def defaultDnsUdpPayload : Nat := 1232

def dnsRcodeNoerror : UInt8 := 0

def dnsRcodeNxdomain : UInt8 := 3

/-- One question with EDNS and the DO bit. -/
def buildDnsQuery (id : UInt16) (qname : DnsName) (qtype : RecordType) :
    Except ResolverError Octets :=
  let message : DnsMessage := {
    header := ⟨id, ⟨0⟩, 1, 0, 0, 1⟩
    questions := [⟨qname, qtype, dnsClassIn⟩]
    answers := []
    authorities := []
    additionals := [⟨.root, .unknown dnsOptRecordType, UInt16.ofNat defaultDnsUdpPayload,
      dnssecDoFlag, []⟩] }
  match message.encode defaultDnsUdpPayload with
  | .ok query => .ok query
  | .error _ => .error .invalidDnsResponse

def parseDnsResponse (id : UInt16) (qname : DnsName) (qtype : RecordType)
    (response : Octets) : Except ResolverError DnsMessage :=
  match DnsMessage.parse response with
  | .error _ => .error .invalidDnsResponse
  | .ok message =>
    if message.header.id ≠ id ∨ !message.header.flags.isResponse ∨
        message.header.flags.opcode ≠ 0 ∨ message.questions ≠ [⟨qname, qtype, dnsClassIn⟩] then
      .error .invalidDnsResponse
    else if message.header.flags.rcode ≠ dnsRcodeNoerror ∧
        message.header.flags.rcode ≠ dnsRcodeNxdomain then
      .error (.dnsResponseCode message.header.flags.rcode)
    else .ok message

def dnsQueryShouldRetryTcp : ResolverError → Bool
  | .dnsTransport _ | .invalidDnsResponse => true
  | _ => false

/-- A response that has to be complete. -/
def completeResponse (id : UInt16) (qname : DnsName) (qtype : RecordType)
    (response : Octets) : Except ResolverError DnsMessage := do
  let message ← parseDnsResponse id qname qtype response
  if message.header.flags.truncated then .error .invalidDnsResponse else .ok message

def dnsQueryTcp (server : SocketAddr) (id : UInt16) (qname : DnsName) (qtype : RecordType)
    (query : Octets) : Run σ DnsMessage := do
  let response ← exchange (transport.exchangeTcp server query)
  .ofExcept (completeResponse id qname qtype response)

/-- A query to a recursive relay, which has its own retries. -/
def dnsQueryRelay (server : SocketAddr) (id : UInt16) (qname : DnsName) (qtype : RecordType)
    (query : Octets) : Run σ DnsMessage := do
  let response ← exchange (transport.exchangeUdp server query)
  .ofExcept (completeResponse id qname qtype response)

def dnsQueryHttps (endpoint : AuthoritativeDohEndpoint) (qname : DnsName) (qtype : RecordType)
    (query : Octets) : Run σ DnsMessage :=
  if query.length < 2 then .throw .invalidDnsResponse
  else do
    let response ← exchange (transport.exchangeDoh endpoint (0 :: 0 :: query.drop 2))
    .ofExcept (parseDnsResponse 0 qname qtype response)

/-- A failed exchange over UDP, which is repeated over TCP for some errors. -/
def retryTcp (server : SocketAddr) (id : UInt16) (qname : DnsName) (qtype : RecordType)
    (query : Octets) (error : ResolverError) : Run σ DnsMessage :=
  if dnsQueryShouldRetryTcp error then do
    match ← (dnsQueryTcp transport server id qname qtype query).outcome with
    | .ok response => return response
    | .error tcpError => .throw (strongestResolutionError error tcpError)
  else .throw error

def dnsQueryUdp (server : SocketAddr) (id : UInt16) (qname : DnsName) (qtype : RecordType)
    (query : Octets) : Run σ DnsMessage := do
  match ← (exchange (transport.exchangeUdp server query)).outcome with
  | .error error => retryTcp transport server id qname qtype query error
  | .ok udpResponse =>
    match parseDnsResponse id qname qtype udpResponse with
    | .error error => retryTcp transport server id qname qtype query error
    | .ok response =>
      if response.header.flags.truncated then dnsQueryTcp transport server id qname qtype query
      else return response

/-- The policy check of a target. -/
def validateTarget (policy : DnsEndpointPolicy) : DnsQueryTarget → Except ResolverError Unit
  | .server server | .serverTcp server => validateDnsServer policy server
  | .doh endpoint => validateDohEndpoint policy endpoint

def dnsQueryTarget (target : DnsQueryTarget) (qname : DnsName) (qtype : RecordType) :
    Run σ DnsMessage := do
  Effect.ofExcept (validateTarget transport.endpointPolicy target)
  let id ← nextDnsQueryId
  let query ← .ofExcept (buildDnsQuery id qname qtype)
  match target with
  | .server server =>
    if transport.isRecursiveRelay then dnsQueryRelay transport server id qname qtype query
    else dnsQueryUdp transport server id qname qtype query
  | .serverTcp server =>
    if transport.isRecursiveRelay then dnsQueryRelay transport server id qname qtype query
    else dnsQueryTcp transport server id qname qtype query
  | .doh endpoint => dnsQueryHttps transport endpoint qname qtype query

def dnsQuery (server : SocketAddr) (qname : DnsName) (qtype : RecordType) : Run σ DnsMessage :=
  dnsQueryTarget transport (.server server) qname qtype

end

end HnsDaneEngine.Browser.Resolver
