import HnsDaneEngine.Wire.Name

/-!
# Service owners

`TlsaOwner::derive` puts the port and transport labels in front of a host name.
Hosts are ASCII, as octets.
-/

namespace HnsDaneEngine.Resolver

open Wire

/-- TLSA service transport. -/
inductive ServiceTransport
  | tcp
  | udp
  | sctp

/-- `_tcp`, `_udp` and `_sctp`. -/
def ServiceTransport.label : ServiceTransport → Octets
  | .tcp => [0x5f, 0x74, 0x63, 0x70]
  | .udp => [0x5f, 0x75, 0x64, 0x70]
  | .sctp => [0x5f, 0x73, 0x63, 0x74, 0x70]

inductive DiscoveryError
  | invalidHost
  | invalidPort
  | nameTooLong

def dot : UInt8 := 0x2e

def maxDnsNameBytes : Nat := 253

def maxDnsLabelBytes : Nat := 63

def isAsciiDigit (byte : UInt8) : Bool :=
  0x30 ≤ byte && byte ≤ 0x39

def isAsciiAlphanumeric (byte : UInt8) : Bool :=
  isAsciiDigit byte || 0x41 ≤ byte && byte ≤ 0x5a || 0x61 ≤ byte && byte ≤ 0x7a

/-- White space that `str::trim` removes, within ASCII. -/
def isAsciiWhitespace (byte : UInt8) : Bool :=
  0x09 ≤ byte && byte ≤ 0x0d || byte = 0x20

/-- An octet of a dotted address: at most three digits without leading zero. -/
def isIpv4Octet (part : Octets) : Bool :=
  !part.isEmpty && part.length ≤ 3 && part.all isAsciiDigit &&
    (part.length = 1 || part.head? != some 0x30) &&
    part.foldl (fun value digit => value * 10 + (digit.toNat - 0x30)) 0 ≤ 255

/-- Hosts that parse as an address.  A colon never passes the label check, so only
the dotted form matters. -/
def isIpv4Literal (host : Octets) : Bool :=
  let parts := host.splitOn dot
  parts.length = 4 && parts.all isIpv4Octet

/-- A final dot is optional. -/
def stripFinalDot (host : Octets) : Octets :=
  if host.getLast? = some dot then host.dropLast else host

def isHostLabel (label : Octets) : Bool :=
  !label.isEmpty && label.length ≤ maxDnsLabelBytes && label.head? != some 0x2d &&
    label.getLast? != some 0x2d && label.all fun byte => isAsciiAlphanumeric byte || byte = 0x2d

def validateHost (host : Octets) : Except DiscoveryError Unit :=
  if host.isEmpty ∨ host.any (0x80 ≤ ·) ∨ maxDnsNameBytes < host.length ∨ isIpv4Literal host then
    .error .invalidHost
  else if (host.splitOn dot).all isHostLabel then .ok ()
  else .error .invalidHost

/-- Decimal digits of a port. -/
def decimalOctets (port : UInt16) : Octets :=
  (Nat.toDigits 10 port.toNat).map fun digit => UInt8.ofNat digit.toNat

/-- `TlsaOwner::derive`, as the resolver name `_port._transport.host`. -/
def deriveOwner (host : Octets) (port : UInt16) (transport : ServiceTransport) :
    Except DiscoveryError Octets :=
  if port = 0 then .error .invalidPort
  else if host.head?.any isAsciiWhitespace || host.getLast?.any isAsciiWhitespace then
    .error .invalidHost
  else
    let withoutRoot := stripFinalDot host
    if withoutRoot.getLast? = some dot then .error .invalidHost
    else
      let normalized := withoutRoot.map toAsciiLowercase
      match validateHost normalized with
      | .error error => .error error
      | .ok () =>
        let resolverName := 0x5f :: decimalOctets port ++ dot :: transport.label ++
          dot :: normalized
        if maxDnsNameBytes < resolverName.length then .error .nameTooLong
        else .ok resolverName

/-- `Name::from_ascii`. -/
def nameFromAscii (input : Octets) : Except Error Name :=
  let input := stripFinalDot input
  if input.isEmpty then .ok Name.root else Name.fromLabels (input.splitOn dot)

/-- The ASCII host of a name, or nothing when a label is no host label. -/
def asciiHost (name : Name) : Option Octets :=
  if name = Name.root then none
  else if name.labels.all fun label =>
      !label.isEmpty && label.length ≤ 63 && label.head?.any isAsciiAlphanumeric &&
        label.getLast?.any isAsciiAlphanumeric &&
        label.all fun byte => isAsciiAlphanumeric byte || byte = 0x2d then
    some ([dot].intercalate name.labels)
  else none

end HnsDaneEngine.Resolver
