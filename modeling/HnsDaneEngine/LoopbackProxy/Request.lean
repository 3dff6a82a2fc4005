import HnsDaneEngine.Engine.Origin

/-!
# Hosts, scopes and requests of the loopback proxy

Text is modelled by its octets.  A proxy serves the hosts of one name of the Handshake
root, and listens on a numeric loopback address.
-/

namespace HnsDaneEngine.LoopbackProxy

open Browser (IpAddr)
open Engine (EngineError)
open NamespaceResolution (SocketAddr isAsciiDigit isHostLabel isIpLiteral
  hasOuterWhitespace isAsciiWhitespace toAsciiLowercase withoutRoot)

/-- Proxy configuration, request, runtime, or publication failure. -/
inductive ProxyError
  | engine (error : EngineError)
  | nonLoopbackEndpoint
  | zeroProxyPort
  | nonLoopbackClient
  | zeroRuntimeSession
  | zeroRuntimeGeneration
  | zeroProcessSession
  | zeroProcessGeneration
  | zeroListenerGeneration
  | invalidLimits
  | clockRollback
  | timeOverflow
  | invalidHost
  | scopeMustBeHnsTld
  | hostOutsideScope
  | staleRuntime
  | authorityNotReady
  | malformedRequest
  | malformedAuthority
  | authorityMismatch
  | requestBodyOrUpgrade
  | authenticationFailed
  | pendingLimit
  | pendingExpired
  | instanceSequenceExhausted
  | requestSequenceExhausted
  | publicationSequenceExhausted
  | registryGenerationExhausted
  | staleRegistryGeneration
  | publicationLimit
  | publicationAlreadyExists
  | publicationMismatch
  | pendingMismatch
  | providerAuthorityMismatch
  | providerAuthorityNotYetValid
  | providerAuthorityExpired
  deriving DecidableEq

/-- `u8::is_ascii_hexdigit`. -/
def isAsciiHexdigit (byte : UInt8) : Bool :=
  isAsciiDigit byte || (65 ≤ byte && byte ≤ 70) || (97 ≤ byte && byte ≤ 102)

/-- A part of an address in one of the forms that old parsers accept. -/
def looksNumeric (label : Octets) : Bool :=
  match label with
  | 48 :: 120 :: hex => !hex.isEmpty && hex.all isAsciiHexdigit
  | 48 :: 88 :: hex => !hex.isEmpty && hex.all isAsciiHexdigit
  | 48 :: digit :: digits => (digit :: digits).all fun octet => 48 ≤ octet && octet ≤ 55
  | label => !label.isEmpty && label.all isAsciiDigit

def looksLikeLegacyIpv4 (host : Octets) : Bool :=
  let labels := host.splitOn 46
  labels.all looksNumeric && 1 ≤ labels.length && labels.length ≤ 4

/-- Octets that no host text has: controls, white space and delimiters of a URL. -/
def isForbidden (octet : UInt8) : Bool :=
  octet < 32 || octet == 127 || isAsciiWhitespace octet || 128 ≤ octet ||
    [47, 58, 63, 35, 64, 91, 93, 92, 60, 62, 34].contains octet

/-- The checks on the lower-case text of a host. -/
def isNormalized (host : Octets) : Bool :=
  host.length ≤ 253 && (host.splitOn 46).all isHostLabel && !isIpLiteral host &&
    !looksLikeLegacyIpv4 host

/-- Strict lower-case ASCII DNS host. -/
@[ext]
structure NormalizedHost where
  asStr : Octets
  normalized : isNormalized asStr = true
  deriving DecidableEq

def NormalizedHost.parse (input : Octets) : Except ProxyError NormalizedHost :=
  if input.isEmpty || hasOuterWhitespace input || input.any isForbidden then .error .invalidHost
  else
    let text := withoutRoot input
    if text.isEmpty || text.getLast? == some 46 then .error .invalidHost
    else if normalized : isNormalized (text.map toAsciiLowercase) = true then
      .ok ⟨text.map toAsciiLowercase, normalized⟩
    else .error .invalidHost

/-- Immutable HNS TLD scope. -/
structure HostScope where
  root : NormalizedHost

namespace HostScope

/-- The root itself or a host below it. -/
def authorize (scope : HostScope) (candidate : Octets) : Except ProxyError NormalizedHost := do
  let candidate ← NormalizedHost.parse candidate
  if candidate = scope.root then .ok candidate
  else if !scope.root.asStr.isSuffixOf candidate.asStr then .error .hostOutsideScope
  else
    let front := candidate.asStr.take (candidate.asStr.length - scope.root.asStr.length)
    if front.getLast? != some 46 then .error .hostOutsideScope else .ok candidate

end HostScope

def isLoopback : IpAddr → Bool
  | .v4 address => address.a == 127
  | .v6 address => address == ⟨0, 0, 0, 0, 0, 0, 0, 1⟩

/-- Numeric loopback endpoint. -/
structure LoopbackEndpoint where
  address : SocketAddr
  loopback : isLoopback address.ip = true
  port_ne : address.port ≠ 0
  deriving DecidableEq

end HnsDaneEngine.LoopbackProxy

/-!
## Authenticated CONNECT requests

The head of a request is parsed strictly.  A request is authenticated by one header
with the token that belongs to the proxy instance.
-/

namespace HnsDaneEngine.LoopbackProxy

open NamespaceResolution (isAsciiDigit isAsciiAlphanumeric toAsciiLowercase)

/-- The octets of an ASCII text. -/
def ascii (text : String) : Octets :=
  text.toList.map fun char => UInt8.ofNat char.toNat

def eqIgnoreAsciiCase (first second : Octets) : Bool :=
  first.map toAsciiLowercase == second.map toAsciiLowercase

/-- `std::str::from_utf8` and the characters of the text. -/
def fromUtf8 (octets : Octets) : Option (List Char) :=
  (String.fromUTF8? ⟨octets.toArray⟩).map String.toList

/-- The characters of a text that is known to be valid. -/
def chars (octets : Octets) : List Char :=
  (fromUtf8 octets).getD []

/-- `char::is_control`. -/
def isControl (char : Char) : Bool :=
  char.toNat < 32 || (127 ≤ char.toNat && char.toNat ≤ 159)

/-- `char::is_whitespace`. -/
def isWhitespace (char : Char) : Bool :=
  (9 ≤ char.toNat && char.toNat ≤ 13) || (0x2000 ≤ char.toNat && char.toNat ≤ 0x200a) ||
    [0x20, 0x85, 0xa0, 0x1680, 0x2028, 0x2029, 0x202f, 0x205f, 0x3000].contains char.toNat

def isBlank (octet : UInt8) : Bool :=
  octet == 32 || octet == 9

/-- The text without what the test accepts at both ends. -/
def trimMatches {α : Type} (test : α → Bool) (text : List α) : List α :=
  ((text.dropWhile test).reverse.dropWhile test).reverse

/-- `str::split_once` at the first separator. -/
def splitOnce (separator : UInt8) (text : Octets) : Option (Octets × Octets) :=
  match text.dropWhile (· != separator) with
  | [] => none
  | _ :: after => some (text.takeWhile (· != separator), after)

/-- `str::rsplit_once` at the last separator. -/
def rsplitOnce (separator : UInt8) (text : Octets) : Option (Octets × Octets) :=
  (splitOnce separator text.reverse).map fun parts => (parts.2.reverse, parts.1.reverse)

/-- `str::split` at every line end. -/
def splitLines : Octets → List Octets
  | [] => [[]]
  | 13 :: 10 :: rest => [] :: splitLines rest
  | octet :: rest =>
    match splitLines rest with
    | [] => [[octet]]
    | line :: lines => (octet :: line) :: lines

/-- Deterministic proxy resource bounds. -/
structure ProxyLimits where
  maximumHeadBytes : Nat
  maximumHeaders : Nat
  maximumPending : Nat
  maximumPendingLifetimeSeconds : Nat
  maximumPublications : Nat
  maximumPublicationLifetimeSeconds : Nat
  maximumGrantLifetimeSeconds : Nat

namespace ProxyLimits

def default : ProxyLimits where
  maximumHeadBytes := 16384
  maximumHeaders := 64
  maximumPending := 64
  maximumPendingLifetimeSeconds := 15
  maximumPublications := 64
  maximumPublicationLifetimeSeconds := 300
  maximumGrantLifetimeSeconds := 30

def Valid (limits : ProxyLimits) : Prop :=
  (256 ≤ limits.maximumHeadBytes ∧ limits.maximumHeadBytes ≤ 65536) ∧
    (limits.maximumHeaders ≠ 0 ∧ limits.maximumHeaders ≤ 256) ∧
    (limits.maximumPending ≠ 0 ∧ limits.maximumPending ≤ 1024) ∧
    (limits.maximumPendingLifetimeSeconds ≠ 0 ∧ limits.maximumPendingLifetimeSeconds ≤ 60) ∧
    (limits.maximumPublications ≠ 0 ∧ limits.maximumPublications ≤ 1024) ∧
    (limits.maximumPublicationLifetimeSeconds ≠ 0 ∧
      limits.maximumPublicationLifetimeSeconds ≤ 3600) ∧
    limits.maximumGrantLifetimeSeconds ≠ 0 ∧
    limits.maximumGrantLifetimeSeconds ≤ limits.maximumPublicationLifetimeSeconds ∧
    limits.maximumGrantLifetimeSeconds ≤ 60

instance decidableValid (limits : ProxyLimits) : Decidable limits.Valid :=
  inferInstanceAs (Decidable (_ ∧ _))

theorem default_valid : default.Valid := by
  decide

end ProxyLimits

/-- Per-instance loopback proxy capability. -/
structure ProxyAuthorization where
  realm : Octets
  expectedToken : Octets

def hexDigit (nibble : UInt8) : UInt8 :=
  if nibble < 10 then 48 + nibble else 87 + nibble

def encodeHex (input : Octets) : Octets :=
  input.flatMap fun octet : UInt8 => [hexDigit (octet >>> 4), hexDigit (octet &&& 15)]

def base64Alphabet : Octets :=
  ascii "ABCDEFGHIJKLMNOPQRSTUVWXYZabcdefghijklmnopqrstuvwxyz0123456789+/"

def base64Character (index : Nat) : UInt8 :=
  base64Alphabet.getD index 65

/-- The four characters of up to three octets. -/
def encodeChunk (first second third : UInt8) : Octets :=
  let value := first.toNat * 65536 + second.toNat * 256 + third.toNat
  [base64Character (value / 262144), base64Character (value / 4096 % 64),
    base64Character (value / 64 % 64), base64Character (value % 64)]

def encodeBase64 : Octets → Octets
  | [] => []
  | [first] => (encodeChunk first 0 0).take 2 ++ [61, 61]
  | [first, second] => (encodeChunk first second 0).take 3 ++ [61]
  | first :: second :: third :: rest => encodeChunk first second third ++ encodeBase64 rest

/-- The token of the value of a Basic header. -/
def basicToken (value : Octets) : Option Octets :=
  if (chars value).any fun char => isControl char && char != '\t' then none
  else
    let trimmed := trimMatches isBlank value
    let scheme := trimmed.takeWhile fun octet => !isBlank octet
    let remainder := trimmed.dropWhile fun octet => !isBlank octet
    if remainder.isEmpty || !eqIgnoreAsciiCase scheme (ascii "Basic") then none
    else
      let token := remainder.dropWhile isBlank
      if token.isEmpty || (chars token).any isWhitespace then none else some token

namespace ProxyAuthorization

def fromCapability (realmNonce capability : Octets) : ProxyAuthorization where
  realm := ascii "hns-loopback-" ++ encodeHex realmNonce
  expectedToken := encodeBase64 (ascii "hns-browser" ++ [58] ++ encodeHex capability)

/-- Exactly one Basic header, with the token of this instance. -/
def verifyHeaderValues (authorization : ProxyAuthorization) : List Octets → Bool
  | [value] =>
    match basicToken value with
    | some token => token == authorization.expectedToken
    | none => false
  | _ => false

end ProxyAuthorization

/-- A parsed CONNECT request. -/
structure ParsedConnect where
  host : NormalizedHost
  port : UInt16
  authorization : List Octets

/-- The port of an authority: decimal, without leading zeros, nonzero. -/
def parsePort (text : Octets) : Option UInt16 :=
  if text.isEmpty || (1 < text.length && text.head? == some 48) || !text.all isAsciiDigit then none
  else
    let value := text.foldl (fun value digit => 10 * value + (digit.toNat - 48)) 0
    if value = 0 ∨ 65535 < value then none else some (UInt16.ofNat value)

def parseAuthority (input : Octets) : Except ProxyError (NormalizedHost × UInt16) :=
  match rsplitOnce 58 input with
  | none => .error .malformedAuthority
  | some (host, portText) =>
    if host.contains 58 then .error .malformedAuthority
    else
      match parsePort portText with
      | none => .error .malformedAuthority
      | some port => do
        let host ← NormalizedHost.parse host
        return (host, port)

/-- A line feed is always preceded by a carriage return. -/
def lineFeedsAreEscorted (input : Octets) : Bool :=
  input.head? != some 10 &&
    (input.zip input.tail).all fun pair => pair.2 != 10 || pair.1 == 13

def countLineEnds (input : Octets) : Nat :=
  ((input.zip input.tail).filter fun pair => pair == (13, 10)).length

def isFieldNameOctet (octet : UInt8) : Bool :=
  isAsciiAlphanumeric octet || (ascii "!#$%&'*+-.^_`|~").contains octet

/-- Fields that ask for a body or for another protocol. -/
def asksForBodyOrUpgrade (name value : Octets) : Bool :=
  [ascii "content-length", ascii "transfer-encoding", ascii "upgrade", ascii "expect"].any
      (eqIgnoreAsciiCase name) ||
    ([ascii "connection", ascii "proxy-connection"].any (eqIgnoreAsciiCase name) &&
      ((chars value).splitOn ',').any fun token =>
        (trimMatches isWhitespace token).map Char.toLower == "upgrade".toList)

/-- The name and the value of one header line. -/
def parseField (line : Octets) : Except ProxyError (Octets × Octets) :=
  if line.isEmpty || line.head?.any isBlank then .error .malformedRequest
  else
    match splitOnce 58 line with
    | none => .error .malformedRequest
    | some (name, rawValue) =>
      if name.isEmpty || !name.all isFieldNameOctet then .error .malformedRequest
      else
        let value := trimMatches isBlank rawValue
        if value.isEmpty || (chars value).any (fun char => isControl char && char != '\t') then
          .error .malformedRequest
        else .ok (name, value)

/-- The values of the host and of the authorization fields, in order. -/
def parseFields (room : Nat) :
    List Octets → Except ProxyError (List Octets × List Octets)
  | [] => return ([], [])
  | line :: lines =>
    match room with
    | 0 => .error .malformedRequest
    | room + 1 => do
      let (name, value) ← parseField line
      if eqIgnoreAsciiCase name (ascii "host") then do
        let (hosts, authorization) ← parseFields room lines
        return (value :: hosts, authorization)
      else if eqIgnoreAsciiCase name (ascii "proxy-authorization") then do
        let (hosts, authorization) ← parseFields room lines
        return (hosts, value :: authorization)
      else if asksForBodyOrUpgrade name value then throw .requestBodyOrUpgrade
      else parseFields room lines

/-- The target of the request line. -/
def parseRequestLine (line : Octets) : Except ProxyError Octets :=
  if line.contains 9 then .error .malformedRequest
  else
    match line.splitOn 32 with
    | [method, target, version] =>
      if method != ascii "CONNECT" || version != ascii "HTTP/1.1" || target.isEmpty then
        .error .malformedRequest
      else .ok target
    | _ => .error .malformedRequest

def parseConnectHead (input : Octets) (limits : ProxyLimits) : Except ProxyError ParsedConnect :=
  if limits.maximumHeadBytes < input.length || !(ascii "\r\n\r\n").isSuffixOf input ||
      countLineEnds input < 2 || (fromUtf8 input).isNone || !lineFeedsAreEscorted input then
    .error .malformedRequest
  else
    match splitLines (input.take (input.length - 4)) with
    | [] => .error .malformedRequest
    | requestLine :: lines => do
      let target ← parseRequestLine requestLine
      let (host, port) ← parseAuthority target
      let (hostValues, authorization) ← parseFields limits.maximumHeaders lines
      match hostValues, authorization with
      | [hostValue], [_] => do
        let (hostHeader, hostPort) ← parseAuthority hostValue
        if hostHeader ≠ host ∨ hostPort ≠ port then throw .authorityMismatch
        return ⟨host, port, authorization⟩
      | _, _ => throw .malformedRequest

end HnsDaneEngine.LoopbackProxy
