import HnsDaneEngine.Browser.Dns.Message

/-!
# Service binding data

SVCB and HTTPS data is a priority, an uncompressed target name and parameters
with increasing keys.  The loops of the parser read the rest of the data from
the front; an argument bounds their rounds by the number of octets.
-/

namespace HnsDaneEngine.Browser

open Wire

def svcbParamMandatory : UInt16 := 0

def svcbParamAlpn : UInt16 := 1

def svcbParamNoDefaultAlpn : UInt16 := 2

def svcbParamPort : UInt16 := 3

def svcbParamIpv4hint : UInt16 := 4

def svcbParamEch : UInt16 := 5

def svcbParamIpv6hint : UInt16 := 6

def svcbParamDohpath : UInt16 := 7

/-- One parameter of a service. -/
structure SvcParam where
  key : UInt16
  value : Octets

/-- The data of an SVCB record. -/
structure SvcbRecord where
  svcPriority : UInt16
  targetName : DnsName
  params : List SvcParam

/-- The loop of `parse_uncompressed_dns_name`: the labels and the octets after
the terminating root. -/
def uncompressedLabels : Nat → Octets → Except ParseError (List Label × Octets)
  | 0, _ => .error .invalidSvcb
  | _ + 1, [] => .error .invalidSvcb
  | rounds + 1, length :: rest =>
    if length &&& 0xc0 ≠ 0 then .error .invalidSvcb
    else if length = 0 then .ok ([], rest)
    else if maxDnsLabelLen < length.toNat then .error .invalidSvcb
    else if rest.length < length.toNat then .error .invalidSvcb
    else
      let labelBytes := rest.take length.toNat
      if !isValidDnsLabel labelBytes then .error .invalidSvcb
      else
        match uncompressedLabels rounds (rest.drop length.toNat) with
        | .error error => .error error
        | .ok (labels, rest) => .ok (canonicalLabel labelBytes :: labels, rest)

private theorem uncompressedLabels_wellFormed {rounds : Nat} {bytes rest : Octets}
    {labels : List Label} (accepted : uncompressedLabels rounds bytes = .ok (labels, rest)) :
    ∀ label ∈ labels, label ≠ [] ∧ label.length ≤ maxDnsLabelLen ∧
      isValidDnsLabel label = true ∧ canonicalLabel label = label := by
  induction rounds generalizing bytes labels with
  | zero => simp [uncompressedLabels] at accepted
  | succ rounds ih =>
    cases bytes with
    | nil => simp [uncompressedLabels] at accepted
    | cons length bytes =>
      simp only [uncompressedLabels] at accepted
      split at accepted
      · contradiction
      split at accepted
      · simp only [Except.ok.injEq, Prod.mk.injEq] at accepted
        simp [← accepted.1]
      rename_i nonzero
      split at accepted
      · contradiction
      rename_i short
      split at accepted
      · contradiction
      rename_i inside
      split at accepted
      · contradiction
      rename_i wellFormed
      cases tail : uncompressedLabels rounds (bytes.drop length.toNat) with
      | error error => simp [tail] at accepted
      | ok result =>
        simp only [tail, Except.ok.injEq, Prod.mk.injEq] at accepted
        obtain ⟨rfl, rfl⟩ := accepted
        have takeLength : (bytes.take length.toNat).length = length.toNat := by
          rw [List.length_take]
          omega
        have positive : length.toNat ≠ 0 := by
          rw [Ne, ← UInt8.toNat_zero, UInt8.toNat_inj]
          exact nonzero
        intro label mem
        rcases List.mem_cons.mp mem with rfl | mem
        · refine ⟨?_, ?_, canonicalLabel_isValid (by simpa using wellFormed), canonicalLabel_idem _⟩
          · rw [Ne, ← List.length_eq_zero_iff, canonicalLabel_length, takeLength]
            exact positive
          · rw [canonicalLabel_length, takeLength]
            exact Nat.le_of_not_lt short
        · exact ih tail label mem

/-- `parse_uncompressed_dns_name`, from the front of the given octets. -/
def parseUncompressedDnsName (bytes : Octets) : Except ParseError (DnsName × Octets) :=
  match accepted : uncompressedLabels (bytes.length + 1) bytes with
  | .error error => .error error
  | .ok (labels, rest) =>
    if fits : dnsWireLen labels ≤ maxDnsNameLen + 2 then
      .ok (⟨labels,
        fun label mem => (uncompressedLabels_wellFormed accepted label mem).1,
        fun label mem => (uncompressedLabels_wellFormed accepted label mem).2.1,
        fun label mem => (uncompressedLabels_wellFormed accepted label mem).2.2.1,
        fun label mem => (uncompressedLabels_wellFormed accepted label mem).2.2.2,
        dnsWireLen_eq labels ▸ fits⟩, rest)
    else .error .lengthLimit

/-- The identifiers of `parse_alpn_ids` after the check that there is one. -/
def alpnIdsFrom : Nat → Octets → Except ParseError (List Octets)
  | _, [] => .ok []
  | 0, _ :: _ => .error .invalidSvcb
  | rounds + 1, length :: rest =>
    if length = 0 then .error .invalidSvcb
    else if rest.length < length.toNat then .error .invalidSvcb
    else
      match alpnIdsFrom rounds (rest.drop length.toNat) with
      | .error error => .error error
      | .ok ids => .ok (rest.take length.toNat :: ids)

def parseAlpnIds (value : Octets) : Except ParseError (List Octets) :=
  if value.isEmpty then .error .invalidSvcb else alpnIdsFrom value.length value

/-- The keys of a `mandatory` value, two octets each. -/
def chunkKeys : Octets → List UInt16
  | high :: low :: rest => u16FromBe high low :: chunkKeys rest
  | _ => []

/-- Keys after `mandatory` itself, in increasing order. -/
def mandatoryKeysIncrease : Option UInt16 → List UInt16 → Bool
  | _, [] => true
  | previous, key :: rest =>
    key != svcbParamMandatory && previous.all (· < key) && mandatoryKeysIncrease (some key) rest

def validateSvcParamValue (key : UInt16) (value : Octets) : Except ParseError Unit :=
  let accept (condition : Bool) : Except ParseError Unit :=
    if condition then .ok () else .error .invalidSvcb
  if key = svcbParamMandatory then
    if value.isEmpty ∨ value.length % 2 ≠ 0 then .error .invalidSvcb
    else accept (mandatoryKeysIncrease none (chunkKeys value))
  else if key = svcbParamAlpn then (parseAlpnIds value).map fun _ => ()
  else if key = svcbParamNoDefaultAlpn then accept value.isEmpty
  else if key = svcbParamPort then accept (value.length == 2)
  else if key = svcbParamIpv4hint then accept (!value.isEmpty && value.length % 4 == 0)
  else if key = svcbParamIpv6hint then accept (!value.isEmpty && value.length % 16 == 0)
  else if key = svcbParamEch then .ok ()
  else .ok ()

/-- The parameter loop of `SvcbRecord::parse_rdata`. -/
def svcParamsFrom : Nat → Option UInt16 → Octets → Except ParseError (List SvcParam)
  | _, _, [] => .ok []
  | rounds + 1, previousKey, key0 :: key1 :: length0 :: length1 :: rest =>
    let key := u16FromBe key0 key1
    let length := (u16FromBe length0 length1).toNat
    if previousKey.any (key ≤ ·) then .error .invalidSvcb
    else if rest.length < length then .error .invalidSvcb
    else
      match validateSvcParamValue key (rest.take length) with
      | .error error => .error error
      | .ok () =>
        match svcParamsFrom rounds (some key) (rest.drop length) with
        | .error error => .error error
        | .ok params => .ok (⟨key, rest.take length⟩ :: params)
  | _, _, _ :: _ => .error .invalidSvcb

namespace SvcbRecord

def parseRdata (rdata : Octets) : Except ParseError SvcbRecord :=
  match rdata with
  | priority0 :: priority1 :: first :: rest =>
    match parseUncompressedDnsName (first :: rest) with
    | .error error => .error error
    | .ok (targetName, parameters) =>
      match svcParamsFrom parameters.length none parameters with
      | .error error => .error error
      | .ok params => .ok ⟨u16FromBe priority0 priority1, targetName, params⟩
  | _ => .error .invalidSvcb

def fromRecord (record : ResourceRecord) : Except ParseError SvcbRecord :=
  if record.recordType ≠ .svcb ∧ record.recordType ≠ .https then .error .invalidSvcb
  else parseRdata record.rdata

def isAliasMode (record : SvcbRecord) : Bool :=
  record.svcPriority == 0

def param (record : SvcbRecord) (key : UInt16) : Option Octets :=
  (record.params.find? fun param => param.key == key).map SvcParam.value

def alpnIds (record : SvcbRecord) : Except ParseError (List Octets) :=
  match record.param svcbParamAlpn with
  | none => .ok []
  | some value => parseAlpnIds value

def port (record : SvcbRecord) : Except ParseError (Option UInt16) :=
  match record.param svcbParamPort with
  | none => .ok none
  | some [high, low] => .ok (some (u16FromBe high low))
  | some _ => .error .invalidSvcb

end SvcbRecord

end HnsDaneEngine.Browser
