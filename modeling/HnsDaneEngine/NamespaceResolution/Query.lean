import HnsDaneEngine.Control.Except
import HnsDaneEngine.Encoding.Octets

/-!
# Origins that are resolved under both roots

The query of an origin: a canonical host, a scheme, a port and the protocols of the
browser.  Text is modelled by its octets.
-/

namespace HnsDaneEngine.NamespaceResolution

open Control

/-- Why an input is refused. -/
inductive ValidationError
  | invalidHost
  | invalidQuery
  | boundExceeded
  | invalidPlan
  | invalidEvidence
  deriving DecidableEq

/-- The two roots. -/
inductive Namespace
  | hns
  | icann
  deriving DecidableEq

def Namespace.tag : Namespace → UInt8
  | .hns => 1
  | .icann => 2

theorem Namespace.tag_inj (first second : Namespace) : first.tag = second.tag ↔ first = second := by
  cases first <;> cases second <;> decide

/-- The HNS networks. -/
inductive HnsNetwork
  | mainnet
  | testnet
  | regtest
  | simnet
  deriving DecidableEq

def HnsNetwork.tag : HnsNetwork → UInt8
  | .mainnet => 0
  | .testnet => 1
  | .regtest => 2
  | .simnet => 3

theorem HnsNetwork.tag_inj (first second : HnsNetwork) :
    first.tag = second.tag ↔ first = second := by
  cases first <;> cases second <;> decide

/-- `NonZeroU16`. -/
abbrev NonZeroU16 : Type :=
  { value : UInt16 // value ≠ 0 }

def maxHostBytes : Nat := 253

/-- `char::is_whitespace` on ASCII. -/
def isAsciiWhitespace (octet : UInt8) : Bool :=
  (9 ≤ octet && octet ≤ 13) || octet == 32

def isAsciiDigit (octet : UInt8) : Bool :=
  48 ≤ octet && octet ≤ 57

def isAsciiAlphanumeric (octet : UInt8) : Bool :=
  isAsciiDigit octet || (65 ≤ octet && octet ≤ 90) || (97 ≤ octet && octet ≤ 122)

def toAsciiLowercase (octet : UInt8) : UInt8 :=
  if 65 ≤ octet && octet ≤ 90 then octet + 32 else octet

/-- Whether trimming would shorten an ASCII text. -/
def hasOuterWhitespace (input : Octets) : Bool :=
  input.head?.any isAsciiWhitespace || input.getLast?.any isAsciiWhitespace

/-- The text without one root dot at its end. -/
def withoutRoot (input : Octets) : Octets :=
  if input.getLast? = some 46 then input.dropLast else input

/-- The decimal value of up to three digits without a leading zero, if it is below 256. -/
def decimalOctet (text : Octets) : Option Nat :=
  if text.isEmpty || 3 < text.length || !text.all isAsciiDigit ||
      (1 < text.length && text.head? == some 48) then none
  else
    let value := text.foldl (fun value digit => 10 * value + (digit.toNat - 48)) 0
    if value < 256 then some value else none

/-- `IpAddr::from_str` succeeds.  An IPv6 literal has a colon and so is no host name
in any case; what remains is an IPv4 literal in four decimal parts. -/
def isIpLiteral (text : Octets) : Bool :=
  let parts := text.splitOn 46
  parts.length == 4 && parts.all fun part => (decimalOctet part).isSome

def isHostLabel (label : Octets) : Bool :=
  !label.isEmpty && label.length ≤ 63 && label.head? != some 45 && label.getLast? != some 45 &&
    label.all fun octet => isAsciiAlphanumeric octet || octet == 45

/-- A lower-case ASCII host name without a root dot. -/
@[ext]
structure CanonicalHost where
  asStr : Octets
  length_le : asStr.length ≤ maxHostBytes
  deriving DecidableEq

def CanonicalHost.parse (input : Octets) : Except ValidationError CanonicalHost :=
  if hasOuterWhitespace input || input.isEmpty || !input.all (· < 128) then .error .invalidHost
  else
    let text := withoutRoot input
    if text.isEmpty || text.getLast? == some 46 || isIpLiteral text then .error .invalidHost
    else if fits : (text.map toAsciiLowercase).length ≤ maxHostBytes then
      if ((text.map toAsciiLowercase).splitOn 46).all isHostLabel then
        .ok ⟨text.map toAsciiLowercase, fits⟩
      else .error .invalidHost
    else .error .invalidHost

/-- The schemes of origins. -/
inductive OriginScheme
  | http
  | https
  | ws
  | wss
  deriving DecidableEq

namespace OriginScheme

def defaultPort : OriginScheme → NonZeroU16
  | .http | .ws => ⟨80, by decide⟩
  | .https | .wss => ⟨443, by decide⟩

def usesTls : OriginScheme → Bool
  | .https | .wss => true
  | .http | .ws => false

def tag : OriginScheme → UInt8
  | .http => 1
  | .https => 2
  | .ws => 3
  | .wss => 4

theorem tag_inj (first second : OriginScheme) : first.tag = second.tag ↔ first = second := by
  cases first <;> cases second <;> decide

end OriginScheme

/-- The versions of HTTP. -/
inductive ApplicationProtocol
  | http11
  | http2
  | http3
  deriving DecidableEq

def ApplicationProtocol.tag : ApplicationProtocol → UInt8
  | .http11 => 1
  | .http2 => 2
  | .http3 => 3

theorem ApplicationProtocol.tag_inj (first second : ApplicationProtocol) :
    first.tag = second.tag ↔ first = second := by
  cases first <;> cases second <;> decide

/-- The protocols of the browser, at least one of them. -/
structure ProtocolCapabilities where
  http11 : Bool
  http2 : Bool
  http3 : Bool
  nonempty : (http11 || http2 || http3) = true
  deriving DecidableEq

namespace ProtocolCapabilities

theorem http11_nonempty : (true || false || false) = true := rfl

def supports (capabilities : ProtocolCapabilities) : ApplicationProtocol → Bool
  | .http11 => capabilities.http11
  | .http2 => capabilities.http2
  | .http3 => capabilities.http3

/-- One bit for each protocol. -/
def protocolBits (http11 http2 http3 : Bool) : UInt8 :=
  http11.toUInt8 ||| (http2.toUInt8 <<< 1) ||| (http3.toUInt8 <<< 2)

theorem protocolBits_inj : ∀ {http11 http2 http3 other11 other2 other3 : Bool},
    protocolBits http11 http2 http3 = protocolBits other11 other2 other3 →
      http11 = other11 ∧ http2 = other2 ∧ http3 = other3 := by
  decide

def flags (capabilities : ProtocolCapabilities) : UInt8 :=
  protocolBits capabilities.http11 capabilities.http2 capabilities.http3

/-- The flags show every protocol. -/
theorem flags_inj {first second : ProtocolCapabilities} :
    first.flags = second.flags ↔ first = second := by
  constructor
  · intro same
    rcases first with ⟨http11, http2, http3, _⟩
    rcases second with ⟨other11, other2, other3, _⟩
    rcases protocolBits_inj same with ⟨rfl, rfl, rfl⟩
    rfl
  · rintro rfl
    rfl

end ProtocolCapabilities

/-- A query for one origin. -/
structure OriginQuery where
  host : CanonicalHost
  scheme : OriginScheme
  explicitPort : Option NonZeroU16
  supportedProtocols : ProtocolCapabilities
  deriving DecidableEq

/-- The port of the URL, before any service is selected. -/
def OriginQuery.originPort (query : OriginQuery) : NonZeroU16 :=
  query.explicitPort.getD query.scheme.defaultPort

end HnsDaneEngine.NamespaceResolution
