import HnsDaneEngine.Browser.Network
import HnsDaneEngine.NamespaceResolution.Query
import Mathlib.Data.List.Destutter

/-!
# Service bindings

The part of an HTTPS or SVCB record that a connection uses.  A binding is built from
an input by sorting what has no order, and only if its fields agree with its
parameters.
-/

namespace HnsDaneEngine.NamespaceResolution

open Browser (IpAddr Ipv4Addr Ipv6Addr)

def maxAliasSteps : Nat := 8

def maxEndpoints : Nat := 32

def maxAlpnIds : Nat := 16

def maxAlpnIdBytes : Nat := 255

def maxServiceParameters : Nat := 32

def maxParameterBytes : Nat := 65535

def maxTlsaRecords : Nat := 32

/-- The transport of a service. -/
inductive ServiceTransport
  | tcp
  | udp
  deriving DecidableEq

def ServiceTransport.tag : ServiceTransport → UInt8
  | .tcp => 1
  | .udp => 2

theorem ServiceTransport.tag_inj (first second : ServiceTransport) :
    first.tag = second.tag ↔ first = second := by
  cases first <;> cases second <;> decide

section

variable {α : Type}

/-- `sort_unstable` for an order given by a sort key of numbers. -/
def sortByKey (key : α → List Nat) (items : List α) : List α :=
  items.mergeSort fun first second => decide (key first ≤ key second)

/-- `Vec::dedup`: of equal neighbours the first stays. -/
def dedup [DecidableEq α] (items : List α) : List α :=
  items.destutter (· ≠ ·)

/-- Some `windows(2)` has equal parts. -/
def hasEqualNeighbours [DecidableEq α] : List α → Bool
  | first :: second :: rest => first == second || hasEqualNeighbours (second :: rest)
  | _ => false

theorem mem_sortByKey {key : α → List Nat} {items : List α} {item : α} :
    item ∈ sortByKey key items ↔ item ∈ items :=
  (List.mergeSort_perm items _).mem_iff

theorem length_sortByKey (key : α → List Nat) (items : List α) :
    (sortByKey key items).length = items.length :=
  List.length_mergeSort items

theorem length_dedup_le [DecidableEq α] (items : List α) : (dedup items).length ≤ items.length :=
  (List.destutter_sublist _ items).length_le

end

/-- The order of addresses: version 4 first, then by their parts. -/
def ipSortKey : IpAddr → List Nat
  | .v4 address => 0 :: address.octets.map UInt8.toNat
  | .v6 address => 1 :: address.octets.map UInt8.toNat

@[ext]
structure ServiceParameter where
  key : UInt16
  value : Octets
  length_le : value.length ≤ maxParameterBytes
  deriving DecidableEq

namespace ServiceParameter

def sortKey (parameter : ServiceParameter) : List Nat :=
  parameter.key.toNat :: parameter.value.map UInt8.toNat

end ServiceParameter

def hasServiceParameter (parameters : List ServiceParameter) (key : UInt16) : Bool :=
  parameters.any (·.key == key)

def serviceParameter (parameters : List ServiceParameter) (key : UInt16) : Option Octets :=
  (parameters.find? (·.key == key)).map ServiceParameter.value

/-- `http/1.1`. -/
def http11Alpn : Octets := [104, 116, 116, 112, 47, 49, 46, 49]

/-- `h2`. -/
def http2Alpn : Octets := [104, 50]

/-- `h3`. -/
def http3Alpn : Octets := [104, 51]

def selectedAlpnIsValid (selected : ApplicationProtocol) (advertised : List Octets)
    (parameters : List ServiceParameter) : Bool :=
  let noDefaultAlpn := (serviceParameter parameters 2).isSome
  if selected = .http11 && !noDefaultAlpn then true
  else
    advertised.any fun identifier =>
      match selected with
      | .http11 => identifier == http11Alpn
      | .http2 => identifier == http2Alpn
      | .http3 => identifier == http3Alpn || (http3Alpn ++ [45]).isPrefixOf identifier

/-- The identifiers of an ALPN value, each behind its length. -/
def alpnIdentifiers : Nat → Octets → Except ValidationError (List Octets)
  | _, [] => .ok []
  | 0, _ :: _ => .error .invalidPlan
  | rounds + 1, length :: rest =>
    if length = 0 ∨ rest.length < length.toNat then .error .invalidPlan
    else do
      let later ← alpnIdentifiers rounds (rest.drop length.toNat)
      return rest.take length.toNat :: later

def alpnWireMatches (wire : Octets) (advertised : List Octets) : Except ValidationError Bool :=
  if wire.isEmpty then .error .invalidPlan
  else do
    let parsed ← alpnIdentifiers wire.length wire
    return parsed == advertised

/-- One of the whole chunks of the value is the given one. -/
def hasChunk (chunk : Octets) : Nat → Octets → Bool
  | 0, _ => false
  | rounds + 1, wire =>
    if wire.length < chunk.length then false
    else wire.take chunk.length == chunk || hasChunk chunk rounds (wire.drop chunk.length)

def serviceParametersContainHint (parameters : List ServiceParameter) : IpAddr → Bool
  | .v4 address =>
    (serviceParameter parameters 4).any fun wire => hasChunk address.octets wire.length wire
  | .v6 address =>
    (serviceParameter parameters 6).any fun wire => hasChunk address.octets wire.length wire

/-- A service record before its checks. -/
structure ServiceBindingInput where
  priority : Option UInt16
  serviceTarget : CanonicalHost
  mandatoryKeys : List UInt16
  advertisedAlpn : List Octets
  selectedProtocol : ApplicationProtocol
  effectivePort : NonZeroU16
  transport : ServiceTransport
  connectionHints : List IpAddr
  echConfig : Option Octets
  parameters : List ServiceParameter
  deriving DecidableEq

variable (input : ServiceBindingInput)

namespace ServiceBindingInput

/-- The sizes that the first check of `ServiceBinding::new` admits. -/
def Bounded : Prop :=
  input.advertisedAlpn.length ≤ maxAlpnIds ∧ input.mandatoryKeys.length ≤ maxServiceParameters ∧
    input.connectionHints.length ≤ maxEndpoints ∧ input.parameters.length ≤ maxServiceParameters ∧
    (∀ identifier ∈ input.advertisedAlpn, identifier ≠ [] ∧ identifier.length ≤ maxAlpnIdBytes) ∧
    ∀ value ∈ input.echConfig, value ≠ [] ∧ value.length ≤ maxParameterBytes

instance decidableBounded (input : ServiceBindingInput) : Decidable input.Bounded :=
  inferInstanceAs (Decidable (_ ∧ _))

/-- HTTP/3 runs over UDP, the others over TCP. -/
def transportAgrees : Bool :=
  match input.selectedProtocol, input.transport with
  | .http11, .tcp | .http2, .tcp | .http3, .udp => true
  | _, _ => false

/-- A binding without priority is none: it has no fields of a record. -/
def priorityAgrees : Bool :=
  match input.priority with
  | some priority => priority != 0
  | none =>
    input.mandatoryKeys.isEmpty && input.advertisedAlpn.isEmpty &&
      input.connectionHints.isEmpty && input.echConfig.isNone && input.parameters.isEmpty

def normalized : ServiceBindingInput :=
  { input with
    mandatoryKeys := sortByKey (fun key => [key.toNat]) input.mandatoryKeys
    connectionHints := dedup (sortByKey ipSortKey input.connectionHints)
    parameters := sortByKey ServiceParameter.sortKey input.parameters }

/-- `known_service_parameters_match`. -/
def knownServiceParametersMatch : Except ValidationError Bool := do
  let alpnAgrees ←
    match serviceParameter input.parameters 1 with
    | some value => alpnWireMatches value input.advertisedAlpn
    | none => pure input.advertisedAlpn.isEmpty
  return alpnAgrees &&
    !(serviceParameter input.parameters 2).any (fun value => !value.isEmpty) &&
    !(serviceParameter input.parameters 3).any
      (fun value => value != Buffer.u16Octets input.effectivePort.val) &&
    serviceParameter input.parameters 5 == input.echConfig &&
    !((serviceParameter input.parameters 4).any fun wire => wire.isEmpty || wire.length % 4 != 0) &&
    !((serviceParameter input.parameters 6).any fun wire => wire.isEmpty || wire.length % 16 != 0) &&
    input.connectionHints.all (serviceParametersContainHint input.parameters)

theorem Bounded.normalized {input : ServiceBindingInput} (bounded : input.Bounded) :
    input.normalized.Bounded := by
  rcases bounded with ⟨alpn, keys, hints, parameters, identifiers, ech⟩
  have keys_eq := length_sortByKey (fun key : UInt16 => [key.toNat]) input.mandatoryKeys
  have parameters_eq := length_sortByKey ServiceParameter.sortKey input.parameters
  have hints_le := (length_dedup_le (sortByKey ipSortKey input.connectionHints)).trans_eq
    (length_sortByKey ipSortKey input.connectionHints)
  exact ⟨alpn, keys_eq.trans_le keys, hints_le.trans hints, parameters_eq.trans_le parameters,
    identifiers, ech⟩

end ServiceBindingInput

/-- A normalized and validated binding. -/
structure ServiceBinding extends ServiceBindingInput where
  bounded : toServiceBindingInput.Bounded
  deriving DecidableEq

namespace ServiceBinding

@[ext]
theorem ext {first second : ServiceBinding}
    (same : first.toServiceBindingInput = second.toServiceBindingInput) : first = second := by
  cases first
  cases second
  cases same
  rfl

def new (input : ServiceBindingInput) : Except ValidationError ServiceBinding :=
  if bounded : input.Bounded then
    if !input.transportAgrees || !input.priorityAgrees then .error .invalidPlan
    else if hasEqualNeighbours input.normalized.mandatoryKeys ||
        !decide input.advertisedAlpn.Nodup then .error .invalidPlan
    else if hasEqualNeighbours (input.normalized.parameters.map ServiceParameter.key) ||
        input.normalized.parameters.head?.any (·.key == 0) then .error .invalidPlan
    else if input.normalized.mandatoryKeys.any (fun key => !(1 ≤ key && key ≤ 6) ||
          !hasServiceParameter input.normalized.parameters key) ||
        !selectedAlpnIsValid input.selectedProtocol input.advertisedAlpn
          input.normalized.parameters then .error .invalidPlan
    else do
      if ← input.normalized.knownServiceParametersMatch then
        return ⟨input.normalized, bounded.normalized⟩
      else throw .invalidPlan
  else .error .boundExceeded

end ServiceBinding

end HnsDaneEngine.NamespaceResolution
