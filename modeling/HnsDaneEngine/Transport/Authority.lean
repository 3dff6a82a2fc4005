import HnsDaneEngine.Browser.Network
import HnsDaneEngine.Light.Resource
import HnsDaneEngine.Resolver.Tlsa

/-!
# Authoritative endpoints from committed glue

The direct transport contacts the addresses that a verified name resource commits to.
On the public networks it asks whether they are globally routable; the browser crates
ask a longer question.  The addresses that pass the first test and fail the second are
listed by their ranges.
-/

namespace HnsDaneEngine.Transport.Authority

open Browser (Ipv4Addr Ipv6Addr IpAddr SocketAddr isPublicIpv4 isPublicIpv6 isPubliclyRoutable)
open Control
open Light (HnsResourceRecord ResourceName)
open Primitives (Hash)
open Resolver (HnsAnchor Network)
open Wire (Label)

def isPrivate (address : Ipv4Addr) : Bool :=
  address.a == 10 || (address.a == 172 && 16 ≤ address.b && address.b ≤ 31) ||
    (address.a == 192 && address.b == 168)

def isDocumentation (address : Ipv4Addr) : Bool :=
  (address.a == 192 && address.b == 0 && address.c == 2) ||
    (address.a == 198 && address.b == 51 && address.c == 100) ||
    (address.a == 203 && address.b == 0 && address.c == 113)

def isGlobalV4 (address : Ipv4Addr) : Bool :=
  address != ⟨0, 0, 0, 0⟩ && !(address.a == 127) && !isPrivate address &&
    !(address.a == 169 && address.b == 254) && !(224 ≤ address.a && address.a ≤ 239) &&
    address != ⟨255, 255, 255, 255⟩ && !isDocumentation address &&
    !(address.a == 100 && (64 ≤ address.b && address.b ≤ 127)) &&
    !(address.a == 192 && address.b == 0 && address.c == 0) &&
    !(address.a == 198 && (address.b == 18 || address.b == 19)) && address.a < 240

def isUnspecifiedV6 (address : Ipv6Addr) : Bool :=
  address == ⟨0, 0, 0, 0, 0, 0, 0, 0⟩

def isLoopbackV6 (address : Ipv6Addr) : Bool :=
  address == ⟨0, 0, 0, 0, 0, 0, 0, 1⟩

def isMulticastV6 (address : Ipv6Addr) : Bool :=
  address.s0 &&& 0xff00 == 0xff00

def isGloballyRoutable : IpAddr → Bool
  | .v4 address => isGlobalV4 address
  | .v6 address =>
    match address.toIpv4Mapped with
    | some mapped => isGlobalV4 mapped
    | none =>
      !(isUnspecifiedV6 address || isLoopbackV6 address || isMulticastV6 address ||
        address.s0 &&& 0xfe00 == 0xfc00 || address.s0 &&& 0xffc0 == 0xfe80 ||
        (address.s0 == 0x2001 && address.s1 == 0x0db8))

/-- `IpAddr::is_loopback`. -/
def isLoopback : IpAddr → Bool
  | .v4 address => address.a == 127
  | .v6 address => isLoopbackV6 address

/-- `IpAddr::is_unspecified`. -/
def isUnspecified : IpAddr → Bool
  | .v4 address => address == ⟨0, 0, 0, 0⟩
  | .v6 address => isUnspecifiedV6 address

/-- `IpAddr::is_multicast`. -/
def isMulticast : IpAddr → Bool
  | .v4 address => 224 ≤ address.a && address.a ≤ 239
  | .v6 address => isMulticastV6 address

def dnsPort : UInt16 := 53

def maxAuthorityEndpoints : Nat := 64

inductive AuthorityPortPolicy
  | standardDns
  | regtestFixture (port : UInt16)

/-- The errors of `TransportError` that the derivation of endpoints can give. -/
inductive TransportError
  | invalidRegtestFixture
  | endpointLimit
  | noPermittedEndpoint

/-- What the transport reads of a verified name resource. -/
structure VerifiedHnsResource where
  anchor : HnsAnchor
  nameHash : Hash
  name : Label
  records : List HnsResourceRecord

structure AuthoritativeEndpoint where
  address : SocketAddr
  anchor : HnsAnchor
  nameHash : Hash

/-- Endpoints and their anchor. -/
structure AuthoritativeSet where
  endpoints : List AuthoritativeEndpoint
  anchor : HnsAnchor

def inBailiwick (name : ResourceName) (tld : Label) : Bool :=
  name.labels.getLast?.any (· == tld)

/-- The address in the four octets that the resource decoder reads. -/
def ipv4Of : Octets → Option IpAddr
  | [a, b, c, d] => some (.v4 ⟨a, b, c, d⟩)
  | _ => none

/-- The address in the 16 octets that the resource decoder reads. -/
def ipv6Of (octets : Octets) : Option IpAddr :=
  (Ipv6Addr.ofOctets octets).map .v6

/-- The address that a record commits to for the name. -/
def committedAddress (name : Label) : HnsResourceRecord → Option IpAddr
  | .glue4 host address => if inBailiwick host name then ipv4Of address else none
  | .glue6 host address => if inBailiwick host name then ipv6Of address else none
  | .synth4 address => ipv4Of address
  | .synth6 address => ipv6Of address
  | _ => none

def isPermitted (policy : AuthorityPortPolicy) (network : Network) (address : IpAddr) : Bool :=
  match policy with
  | .regtestFixture _ => isLoopback address
  | .standardDns =>
    if network = .mainnet ∨ network = .testnet then isGloballyRoutable address
    else !isUnspecified address && !isMulticast address

/-- The loop over the records, with the addresses so far. -/
def collectAddresses (resource : VerifiedHnsResource) (policy : AuthorityPortPolicy) :
    List IpAddr → List HnsResourceRecord → Except TransportError (List IpAddr)
  | addresses, [] => .ok addresses
  | addresses, record :: records =>
    match committedAddress resource.name record with
    | none => collectAddresses resource policy addresses records
    | some address =>
      if isPermitted policy resource.anchor.network address ∧ address ∉ addresses then
        if maxAuthorityEndpoints ≤ addresses.length then .error .endpointLimit
        else collectAddresses resource policy (addresses ++ [address]) records
      else collectAddresses resource policy addresses records

def authorityPort (resource : VerifiedHnsResource) :
    AuthorityPortPolicy → Except TransportError UInt16
  | .standardDns => .ok dnsPort
  | .regtestFixture port =>
    if resource.anchor.network ≠ .regtest ∨ port = 0 ∨ port = dnsPort then
      .error .invalidRegtestFixture
    else .ok port

/-- `AuthoritativeSet::from_verified_resource`. -/
def fromVerifiedResource (resource : VerifiedHnsResource) (policy : AuthorityPortPolicy) :
    Except TransportError AuthoritativeSet := do
  let port ← authorityPort resource policy
  let addresses ← collectAddresses resource policy [] resource.records
  if addresses.isEmpty then .error .noPermittedEndpoint
  else
    .ok ⟨addresses.map fun address => ⟨⟨address, port⟩, resource.anchor, resource.nameHash⟩,
      resource.anchor⟩

/-- IPv4 ranges that are not for public destinations. -/
def SpecialV4 (address : Ipv4Addr) : Prop :=
  address.a = 0 ∨ address.a = 10 ∨ (address.a = 100 ∧ 64 ≤ address.b ∧ address.b ≤ 127) ∨
    address.a = 127 ∨ (address.a = 169 ∧ address.b = 254) ∨
    (address.a = 172 ∧ 16 ≤ address.b ∧ address.b ≤ 31) ∨
    (address.a = 192 ∧ address.b = 0 ∧ address.c = 0) ∨
    (address.a = 192 ∧ address.b = 0 ∧ address.c = 2) ∨
    (address.a = 192 ∧ address.b = 88 ∧ address.c = 99) ∨ (address.a = 192 ∧ address.b = 168) ∨
    (address.a = 198 ∧ 18 ≤ address.b ∧ address.b ≤ 19) ∨
    (address.a = 198 ∧ address.b = 51 ∧ address.c = 100) ∨
    (address.a = 203 ∧ address.b = 0 ∧ address.c = 113) ∨ 224 ≤ address.a

/-- The rest of `0.0.0.0/8`, and `192.88.99.0/24`. -/
def OverlookedV4 (address : Ipv4Addr) : Prop :=
  (address.a = 0 ∧ address ≠ ⟨0, 0, 0, 0⟩) ∨ (address.a = 192 ∧ address.b = 88 ∧ address.c = 99)

/-- `64:ff9b::/96`, which embeds an IPv4 destination. -/
def IsNat64 (address : Ipv6Addr) : Prop :=
  address.s0 = 0x0064 ∧ address.s1 = 0xff9b ∧ address.s2 = 0 ∧ address.s3 = 0 ∧ address.s4 = 0 ∧
    address.s5 = 0

/-- `2000::/3`. -/
def IsGlobalUnicast (address : Ipv6Addr) : Prop :=
  address.s0 &&& 0xe000 = 0x2000

/-- Teredo, benchmarking, both ORCHID ranges, 6to4 and `3ff0::/12`. -/
def SpecialUnicast (address : Ipv6Addr) : Prop :=
  (address.s0 = 0x2001 ∧ (address.s1 = 0 ∨ (address.s1 = 2 ∧ address.s2 = 0) ∨
      address.s1 &&& 0xfff0 = 0x0010 ∨ address.s1 &&& 0xfff0 = 0x0020)) ∨
    address.s0 = 0x2002 ∨ address.s0 &&& 0xfff0 = 0x3ff0

/-- Outside `2000::/3`, the ranges that are excluded by name: unspecified, loopback,
multicast, `fc00::/7` and `fe80::/10`. -/
def ExcludedByName (address : Ipv6Addr) : Prop :=
  address = ⟨0, 0, 0, 0, 0, 0, 0, 0⟩ ∨ address = ⟨0, 0, 0, 0, 0, 0, 0, 1⟩ ∨
    address.s0 &&& 0xff00 = 0xff00 ∨ address.s0 &&& 0xfe00 = 0xfc00 ∨
    address.s0 &&& 0xffc0 = 0xfe80

/-- The addresses that only the browser policy refuses. -/
def Overlooked : IpAddr → Prop
  | .v4 address => OverlookedV4 address
  | .v6 address =>
    match address.toIpv4Mapped with
    | some mapped => OverlookedV4 mapped
    | none =>
      (IsNat64 address ∧ SpecialV4 address.embeddedIpv4) ∨
        (¬ IsNat64 address ∧ IsGlobalUnicast address ∧ SpecialUnicast address) ∨
        (¬ IsNat64 address ∧ ¬ IsGlobalUnicast address ∧ ¬ ExcludedByName address)

theorem isPublicIpv4_iff (address : Ipv4Addr) :
    isPublicIpv4 address = true ↔ ¬ SpecialV4 address := by
  rcases address with ⟨a, b, c, d⟩
  simp only [isPublicIpv4, SpecialV4, Bool.not_eq_true', ← Bool.not_eq_true, Bool.or_eq_true,
    Bool.and_eq_true, beq_iff_eq, decide_eq_true_eq, or_assoc, and_assoc]

/-- The transport refuses no destination outside the special ranges, and of the special
ranges it refuses all but the overlooked ones. -/
theorem isGlobalV4_iff (address : Ipv4Addr) :
    isGlobalV4 address = true ↔ ¬ SpecialV4 address ∨ OverlookedV4 address := by
  rcases address with ⟨a, b, c, d⟩
  simp only [isGlobalV4, isPrivate, isDocumentation, OverlookedV4, SpecialV4, Bool.not_eq_true',
    Bool.and_eq_true, Bool.or_eq_false_iff, Bool.and_eq_false_iff, beq_eq_false_iff_ne, bne_iff_ne,
    ne_eq, decide_eq_true_eq, decide_eq_false_iff_not, Ipv4Addr.mk.injEq, UInt8.le_iff_toNat_le,
    UInt8.lt_iff_toNat_lt, ← UInt8.toNat_inj, UInt8.reduceToNat]
  have bound := a.toNat_lt
  generalize a.toNat = a at *
  generalize b.toNat = b at *
  generalize c.toNat = c at *
  generalize d.toNat = d at *
  -- The first octet decides which of the ranges are in question.
  have kinds : a = 0 ∨ a = 10 ∨ a = 100 ∨ a = 127 ∨ a = 169 ∨ a = 172 ∨ a = 192 ∨ a = 198 ∨
      a = 203 ∨ 224 ≤ a ∨ (a < 224 ∧ a ≠ 0 ∧ a ≠ 10 ∧ a ≠ 100 ∧ a ≠ 127 ∧ a ≠ 169 ∧ a ≠ 172 ∧
        a ≠ 192 ∧ a ≠ 198 ∧ a ≠ 203) := by
    omega
  rcases kinds with rfl | rfl | rfl | rfl | rfl | rfl | rfl | rfl | rfl | high |
    ⟨low, h0, h10, h100, h127, h169, h172, h192, h198, h203⟩
  · simp
  · simp
  · simp
    omega
  · simp
  · simp
  · simp
    omega
  · simp
    omega
  · simp
    omega
  · simp
    omega
  · simp [high]
    omega
  · simp [h0, h10, h100, h127, h169, h172, h192, h198, h203]
    omega

theorem OverlookedV4.special {address : Ipv4Addr} (overlooked : OverlookedV4 address) :
    SpecialV4 address := by
  rcases overlooked with ⟨zero, -⟩ | relay
  · exact .inl zero
  · simp [SpecialV4, relay]

theorem isGlobalV4_imp_iff (address : Ipv4Addr) :
    (isGlobalV4 address = true → isPublicIpv4 address = true) ↔ ¬ OverlookedV4 address := by
  rw [isGlobalV4_iff, isPublicIpv4_iff]
  constructor
  · intro admitted overlooked
    exact admitted (.inr overlooked) overlooked.special
  · rintro seen (plain | overlooked)
    · exact plain
    · exact absurd overlooked seen

/-- A mask that keeps fewer bits. -/
theorem and_of_and {value mask part result : UInt16} (masked : value &&& mask = result)
    (fewer : mask &&& part = part) : value &&& part = result &&& part := by
  rw [← fewer, ← UInt16.and_assoc, masked, fewer]

/-- Documentation addresses, which both policies refuse. -/
def IsDocumentationV6 (address : Ipv6Addr) : Prop :=
  address.s0 = 0x2001 ∧ address.s1 = 0x0db8

variable {address : Ipv6Addr}

theorem isGloballyRoutable_v6_iff (plain : address.toIpv4Mapped = none) :
    isGloballyRoutable (.v6 address) = true ↔
      ¬ ExcludedByName address ∧ ¬ IsDocumentationV6 address := by
  simp only [isGloballyRoutable, plain, isUnspecifiedV6, isLoopbackV6, isMulticastV6,
    ExcludedByName, IsDocumentationV6, Bool.not_eq_true', ← Bool.not_eq_true, Bool.or_eq_true,
    Bool.and_eq_true, beq_iff_eq, not_or, and_assoc]

theorem isPubliclyRoutable_v6_iff (plain : address.toIpv4Mapped = none) :
    isPubliclyRoutable (.v6 address) = true ↔ (IsNat64 address ∧ ¬ SpecialV4 address.embeddedIpv4) ∨
        (¬ IsNat64 address ∧ IsGlobalUnicast address ∧ ¬ SpecialUnicast address ∧
          ¬ IsDocumentationV6 address) := by
  rw [isPubliclyRoutable, isPublicIpv6, plain]
  dsimp only
  by_cases nat64 : IsNat64 address
  · have matched := nat64
    rw [IsNat64] at matched
    rw [if_pos matched, isPublicIpv4_iff]
    simp [nat64]
  have unmatched := nat64
  rw [IsNat64] at unmatched
  rw [if_neg unmatched]
  by_cases unicast : IsGlobalUnicast address
  · have masked : ¬ address.s0 &&& 0xe000 ≠ 0x2000 := not_not.mpr unicast
    rw [if_neg masked]
    by_cases first : address.s0 = 0x2001
    · simp [nat64, unicast, SpecialUnicast, IsDocumentationV6, first, and_assoc]
      tauto
    · simp [nat64, unicast, SpecialUnicast, IsDocumentationV6, first]
  · have masked : address.s0 &&& 0xe000 ≠ 0x2000 := unicast
    rw [if_pos masked]
    simp [nat64, unicast]

/-- Nothing in `2000::/3` is excluded by name. -/
theorem not_excludedByName_of_unicast (unicast : IsGlobalUnicast address) :
    ¬ ExcludedByName address := by
  rw [IsGlobalUnicast] at unicast
  rintro (rfl | rfl | multicast | local_ | link)
  · exact absurd unicast (by decide)
  · exact absurd unicast (by decide)
  · exact absurd (unicast.symm.trans (and_of_and multicast (by decide))) (by decide)
  · exact absurd (unicast.symm.trans (and_of_and local_ (by decide))) (by decide)
  · exact absurd (unicast.symm.trans (and_of_and link (by decide))) (by decide)

/-- No address of the NAT64 range is excluded by name, or a documentation address. -/
theorem not_excludedByName_of_nat64 (nat64 : IsNat64 address) :
    ¬ ExcludedByName address ∧ ¬ IsDocumentationV6 address := by
  constructor
  · rintro (rfl | rfl | multicast | local_ | link)
    · exact absurd nat64.1 (by decide)
    · exact absurd nat64.1 (by decide)
    · rw [nat64.1] at multicast
      exact absurd multicast (by decide)
    · rw [nat64.1] at local_
      exact absurd local_ (by decide)
    · rw [nat64.1] at link
      exact absurd link (by decide)
  · rintro ⟨documentation, -⟩
    rw [nat64.1] at documentation
    exact absurd documentation (by decide)

/-- A documentation address is in none of the other special ranges. -/
theorem not_specialUnicast_of_documentation
    (documentation : IsDocumentationV6 address) : ¬ SpecialUnicast address := by
  rcases documentation with ⟨first, second⟩
  simp only [SpecialUnicast, first, second]
  simp
  decide

theorem not_documentation_of_not_unicast (outside : ¬ IsGlobalUnicast address) :
    ¬ IsDocumentationV6 address := by
  rintro ⟨first, -⟩
  rw [IsGlobalUnicast, first] at outside
  exact outside (by decide)

/-- The two policies agree on an address exactly when it is not in one of the listed
ranges. -/
theorem isGloballyRoutable_imp_iff (address : IpAddr) :
    (isGloballyRoutable address = true → isPubliclyRoutable address = true) ↔
      ¬ Overlooked address := by
  cases address with
  | v4 address => exact isGlobalV4_imp_iff address
  | v6 address =>
    cases mapped_eq : address.toIpv4Mapped with
    | some mapped =>
      simp only [isGloballyRoutable, isPubliclyRoutable, isPublicIpv6, Overlooked, mapped_eq]
      exact isGlobalV4_imp_iff mapped
    | none =>
      rw [isGloballyRoutable_v6_iff mapped_eq, isPubliclyRoutable_v6_iff mapped_eq]
      simp only [Overlooked, mapped_eq]
      by_cases nat64 : IsNat64 address
      · have admitted := not_excludedByName_of_nat64 nat64
        simp [nat64, admitted]
      by_cases unicast : IsGlobalUnicast address
      · have admitted := not_excludedByName_of_unicast unicast
        have apart := @not_specialUnicast_of_documentation address
        simp only [nat64, unicast, admitted, not_true_eq_false, not_false_eq_true,
          true_and, false_and, false_or, or_false]
        tauto
      · have elsewhere := not_documentation_of_not_unicast unicast
        simp [nat64, unicast, elsewhere]

section

variable {resource : VerifiedHnsResource} {policy : AuthorityPortPolicy}

/-- The loop adds each permitted address of the records once. -/
theorem collectAddresses_eq_ok {addresses result : List IpAddr} {records : List HnsResourceRecord}
    (collected : collectAddresses resource policy addresses records = .ok result)
    (distinct : addresses.Nodup) :
    result.Nodup ∧ ∀ address, address ∈ result ↔ address ∈ addresses ∨
      ∃ record ∈ records, committedAddress resource.name record = some address ∧
        isPermitted policy resource.anchor.network address = true := by
  induction records generalizing addresses with
  | nil =>
    obtain rfl := Except.ok.inj collected
    exact ⟨distinct, by simp⟩
  | cons record records ih =>
    rw [collectAddresses] at collected
    cases committed : committedAddress resource.name record with
    | none =>
      rw [committed] at collected
      rcases ih collected distinct with ⟨nodup, mem_iff⟩
      refine ⟨nodup, ?_⟩
      intro address
      rw [mem_iff]
      simp [committed]
    | some found =>
      rw [committed] at collected
      dsimp only at collected
      by_cases added : isPermitted policy resource.anchor.network found ∧ found ∉ addresses
      · rw [if_pos added, guard_eq_ok_iff] at collected
        have grown : (addresses ++ [found]).Nodup := by
          simpa [List.nodup_append, distinct] using fun other mem => ne_of_mem_of_not_mem mem added.2
        rcases ih collected.2 grown with ⟨nodup, mem_iff⟩
        refine ⟨nodup, ?_⟩
        intro address
        rw [mem_iff, List.mem_append, List.mem_singleton, List.exists_mem_cons_iff, committed,
          Option.some.injEq]
        constructor
        · rintro ((before | rfl) | later)
          · exact .inl before
          · exact .inr (.inl ⟨rfl, added.1⟩)
          · exact .inr (.inr later)
        · rintro (before | ⟨rfl, -⟩ | later)
          · exact .inl (.inl before)
          · exact .inl (.inr rfl)
          · exact .inr later
      · rw [if_neg added] at collected
        rcases ih collected distinct with ⟨nodup, mem_iff⟩
        refine ⟨nodup, ?_⟩
        intro address
        rw [mem_iff, List.exists_mem_cons_iff, committed, Option.some.injEq]
        constructor
        · rintro (before | later)
          · exact .inl before
          · exact .inr (.inr later)
        · rintro (before | ⟨rfl, permitted⟩ | later)
          · exact .inl before
          · rw [not_and, not_not] at added
            exact .inl (added permitted)
          · exact .inr later

/-- The endpoints are the permitted addresses of the records, each once. -/
theorem endpoints_of_resource {set : AuthoritativeSet}
    (derived : fromVerifiedResource resource policy = .ok set) :
    (set.endpoints.map (·.address.ip)).Nodup ∧
      ∀ address, address ∈ set.endpoints.map (·.address.ip) ↔
        ∃ record ∈ resource.records, committedAddress resource.name record = some address ∧
          isPermitted policy resource.anchor.network address = true := by
  rcases of_bind_ok derived with ⟨port, -, derived⟩
  rcases of_bind_ok derived with ⟨addresses, collected, derived⟩
  rw [guard_eq_ok_iff] at derived
  obtain rfl := Except.ok.inj derived.2
  have spec := collectAddresses_eq_ok collected List.nodup_nil
  simpa [List.map_map, Function.comp_def] using spec

/-- The property of the endpoints: their addresses are publicly routable and distinct,
and each comes from a record that commits to it. -/
def PublicEndpoints (resource : VerifiedHnsResource) (set : AuthoritativeSet) : Prop :=
  (∀ endpoint ∈ set.endpoints, isPubliclyRoutable endpoint.address.ip = true) ∧
    (set.endpoints.map (·.address.ip)).Nodup ∧
    ∀ endpoint ∈ set.endpoints, ∃ record ∈ resource.records,
      committedAddress resource.name record = some endpoint.address.ip

/-- On mainnet and testnet all endpoints are publicly routable exactly when no record
commits to an overlooked address; they are distinct and committed to in every case. -/
theorem publicEndpoints_iff (resource : VerifiedHnsResource) (set : AuthoritativeSet) :
    (∀ address, (isGloballyRoutable address = true → isPubliclyRoutable address = true) ↔
        ¬ Overlooked address) ∧
      (resource.anchor.network = .mainnet ∨ resource.anchor.network = .testnet →
        fromVerifiedResource resource .standardDns = .ok set →
        (PublicEndpoints resource set ↔
          ∀ record ∈ resource.records, ∀ address,
            committedAddress resource.name record = some address → ¬ Overlooked address)) := by
  refine ⟨isGloballyRoutable_imp_iff, ?_⟩
  intro network derived
  rcases endpoints_of_resource derived with ⟨distinct, mem_iff⟩
  have permitted_iff (address : IpAddr) :
      isPermitted .standardDns resource.anchor.network address = isGloballyRoutable address := by
    rw [isPermitted, if_pos network]
  simp only [permitted_iff] at mem_iff
  constructor
  · rintro ⟨public_, -, -⟩ record recordMem address committed overlooked
    have refused : ¬ isPubliclyRoutable address = true ∧ isGloballyRoutable address = true := by
      have differs := (isGloballyRoutable_imp_iff address).not.mpr (not_not.mpr overlooked)
      exact ⟨fun routable => differs fun _ => routable, by_contra fun other => differs fun holds =>
        absurd holds other⟩
    have chosen := (mem_iff address).mpr ⟨record, recordMem, committed, refused.2⟩
    rcases List.mem_map.mp chosen with ⟨endpoint, endpointMem, rfl⟩
    exact refused.1 (public_ endpoint endpointMem)
  · intro none_overlooked
    have sourced (endpoint : AuthoritativeEndpoint) (endpointMem : endpoint ∈ set.endpoints) :
        ∃ record ∈ resource.records,
          committedAddress resource.name record = some endpoint.address.ip ∧
            isGloballyRoutable endpoint.address.ip = true :=
      (mem_iff endpoint.address.ip).mp (List.mem_map_of_mem endpointMem)
    refine ⟨?_, distinct, ?_⟩
    · intro endpoint endpointMem
      rcases sourced endpoint endpointMem with ⟨record, recordMem, committed, routable⟩
      exact (isGloballyRoutable_imp_iff _).mpr
        (none_overlooked record recordMem _ committed) routable
    · intro endpoint endpointMem
      rcases sourced endpoint endpointMem with ⟨record, recordMem, committed, -⟩
      exact ⟨record, recordMem, committed⟩

end

/-- A resource on mainnet with one record. -/
def singleResource (record : HnsResourceRecord) : VerifiedHnsResource where
  anchor := ⟨.mainnet, 0, .zero, .zero, 0, 0, 0⟩
  nameHash := .zero
  name := [97]
  records := [record]

theorem publicEndpoints_iff_public :
    ∃ set, fromVerifiedResource (singleResource (.synth4 [8, 8, 8, 8])) .standardDns = .ok set ∧
      PublicEndpoints (singleResource (.synth4 [8, 8, 8, 8])) set := by
  refine ⟨_, rfl, ((publicEndpoints_iff _ _).2 (.inl rfl) rfl).mpr ?_⟩
  intro record recordMem address committed
  obtain rfl := List.mem_singleton.mp recordMem
  obtain rfl := Option.some.inj committed
  simp [Overlooked, OverlookedV4]

/-- `64:ff9b::10.0.0.1`, the private address `10.0.0.1` behind NAT64, is contacted. -/
theorem private_behind_nat64 :
    ∃ set, fromVerifiedResource
        (singleResource (.synth6 [0, 0x64, 0xff, 0x9b, 0, 0, 0, 0, 0, 0, 0, 0, 10, 0, 0, 1]))
          .standardDns = .ok set ∧
      ¬ ∀ endpoint ∈ set.endpoints, isPubliclyRoutable endpoint.address.ip = true := by
  refine ⟨_, rfl, ?_⟩
  decide

end HnsDaneEngine.Transport.Authority
