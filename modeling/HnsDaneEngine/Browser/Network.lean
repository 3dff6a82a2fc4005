import HnsDaneEngine.Encoding.Buffer

/-!
# Network policy of the browser crates

Addresses that an untrusted Internet endpoint may have, and the ports that
browsers do not connect to.
-/

namespace HnsDaneEngine.Browser

/-- An IPv4 address. -/
structure Ipv4Addr where
  a : UInt8
  b : UInt8
  c : UInt8
  d : UInt8
  deriving DecidableEq

/-- An IPv6 address by its eight segments. -/
structure Ipv6Addr where
  s0 : UInt16
  s1 : UInt16
  s2 : UInt16
  s3 : UInt16
  s4 : UInt16
  s5 : UInt16
  s6 : UInt16
  s7 : UInt16
  deriving DecidableEq

/-- An address of either family. -/
inductive IpAddr
  | v4 (address : Ipv4Addr)
  | v6 (address : Ipv6Addr)
  deriving DecidableEq

/-- An address with a port. -/
structure SocketAddr where
  ip : IpAddr
  port : UInt16
  deriving DecidableEq

def isPublicIpv4 (address : Ipv4Addr) : Bool :=
  let ⟨a, b, c, _⟩ := address
  !(a == 0 || a == 10 || (a == 100 && 64 ≤ b && b ≤ 127) || a == 127 || (a == 169 && b == 254) ||
    (a == 172 && 16 ≤ b && b ≤ 31) || (a == 192 && b == 0 && c == 0) ||
    (a == 192 && b == 0 && c == 2) || (a == 192 && b == 88 && c == 99) || (a == 192 && b == 168) ||
    (a == 198 && 18 ≤ b && b ≤ 19) || (a == 198 && b == 51 && c == 100) ||
    (a == 203 && b == 0 && c == 113) || 224 ≤ a)

/-- The IPv4 address in the last two segments. -/
def Ipv6Addr.embeddedIpv4 (address : Ipv6Addr) : Ipv4Addr :=
  ⟨(address.s6 >>> 8).toUInt8, address.s6.toUInt8, (address.s7 >>> 8).toUInt8, address.s7.toUInt8⟩

/-- `Ipv6Addr::to_ipv4_mapped`. -/
def Ipv6Addr.toIpv4Mapped (address : Ipv6Addr) : Option Ipv4Addr :=
  if address.s0 = 0 ∧ address.s1 = 0 ∧ address.s2 = 0 ∧ address.s3 = 0 ∧ address.s4 = 0 ∧
      address.s5 = 0xffff then some address.embeddedIpv4
  else none

def isPublicIpv6 (address : Ipv6Addr) : Bool :=
  match address.toIpv4Mapped with
  | some mapped => isPublicIpv4 mapped
  | none =>
    -- The NAT64 prefix embeds the actual destination.
    if address.s0 = 0x0064 ∧ address.s1 = 0xff9b ∧ address.s2 = 0 ∧ address.s3 = 0 ∧
        address.s4 = 0 ∧ address.s5 = 0 then isPublicIpv4 address.embeddedIpv4
    else if address.s0 &&& 0xe000 ≠ 0x2000 then false
    else
      !((address.s0 == 0x2001 && address.s1 == 0x0000) ||
        (address.s0 == 0x2001 && address.s1 == 0x0002 && address.s2 == 0) ||
        (address.s0 == 0x2001 && address.s1 &&& 0xfff0 == 0x0010) ||
        (address.s0 == 0x2001 && address.s1 &&& 0xfff0 == 0x0020) ||
        (address.s0 == 0x2001 && address.s1 == 0x0db8) || address.s0 == 0x2002 ||
        address.s0 &&& 0xfff0 == 0x3ff0)

def isPubliclyRoutable : IpAddr → Bool
  | .v4 address => isPublicIpv4 address
  | .v6 address => isPublicIpv6 address

def browserBlockedPorts : List UInt16 :=
  [0, 1, 7, 9, 11, 13, 15, 17, 19, 20, 21, 22, 23, 25, 37, 42, 43, 53, 69, 77, 79, 87, 95, 101, 102,
    103, 104, 109, 110, 111, 113, 115, 117, 119, 123, 135, 137, 139, 143, 161, 179, 389, 427, 465,
    512, 513, 514, 515, 526, 530, 531, 532, 540, 548, 554, 556, 563, 587, 601, 636, 989, 990, 993,
    995, 1719, 1720, 1723, 2049, 3659, 4045, 4190, 5060, 5061, 6000, 6566, 6665, 6666, 6667, 6668,
    6669, 6679, 6697, 10080]

def isBrowserBlockedPort (port : UInt16) : Bool :=
  browserBlockedPorts.contains port

end HnsDaneEngine.Browser

/-!
## Octets of network addresses
-/

namespace HnsDaneEngine.Browser

open Buffer

def Ipv4Addr.octets (address : Ipv4Addr) : Octets :=
  [address.a, address.b, address.c, address.d]

def Ipv6Addr.octets (address : Ipv6Addr) : Octets :=
  u16Octets address.s0 ++ u16Octets address.s1 ++ u16Octets address.s2 ++ u16Octets address.s3 ++
    u16Octets address.s4 ++ u16Octets address.s5 ++ u16Octets address.s6 ++ u16Octets address.s7

/-- `Ipv6Addr::from` for an array of 16 octets. -/
def Ipv6Addr.ofOctets : Octets → Option Ipv6Addr
  | [o0, o1, o2, o3, o4, o5, o6, o7, o8, o9, o10, o11, o12, o13, o14, o15] =>
    some ⟨u16Of o0 o1, u16Of o2 o3, u16Of o4 o5, u16Of o6 o7, u16Of o8 o9, u16Of o10 o11,
      u16Of o12 o13, u16Of o14 o15⟩
  | _ => none

@[simp]
theorem Ipv4Addr.length_octets (address : Ipv4Addr) : address.octets.length = 4 :=
  rfl

@[simp]
theorem Ipv6Addr.length_octets (address : Ipv6Addr) : address.octets.length = 16 :=
  rfl

theorem Ipv4Addr.octets_inj {first second : Ipv4Addr} :
    first.octets = second.octets ↔ first = second := by
  constructor
  · intro same
    rcases first with ⟨a, b, c, d⟩
    rcases second with ⟨a', b', c', d'⟩
    simpa [octets] using same
  · rintro rfl
    rfl

theorem Ipv6Addr.ofOctets_octets (address : Ipv6Addr) :
    Ipv6Addr.ofOctets address.octets = some address := by
  simp [ofOctets, octets, u16Octets, Frame.u16, u16Of_u16Octets]

theorem Ipv6Addr.octets_inj {first second : Ipv6Addr} :
    first.octets = second.octets ↔ first = second := by
  constructor
  · intro same
    have read := congrArg Ipv6Addr.ofOctets same
    rw [ofOctets_octets, ofOctets_octets] at read
    exact Option.some.inj read
  · rintro rfl
    rfl

end HnsDaneEngine.Browser
