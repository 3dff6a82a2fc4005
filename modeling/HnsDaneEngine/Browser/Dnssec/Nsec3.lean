import HnsDaneEngine.Browser.Dnssec.Nsec
import HnsDaneEngine.Dnssec.Nsec3

/-!
# NSEC3 denial in the browser validator

Every step of a proof takes a list of records, checks its signature as that of
one record set and then looks for a matching or covering record in it.  The
resolver hands the same list, with all NSEC3 records of a response, to every
step.
-/

namespace HnsDaneEngine.Browser.Dnssec

open Control HnsDaneEngine.Dnssec HnsDaneEngine.Order TypeBitmap Wire

/-- The digit match of `decode_base32hex_nopad`. -/
def base32hexDigit (byte : UInt8) : Option UInt8 :=
  if 0x30 ≤ byte ∧ byte ≤ 0x39 then some (byte - 0x30)
  else if 0x61 ≤ byte ∧ byte ≤ 0x76 then some (byte - 0x61 + 10)
  else if 0x41 ≤ byte ∧ byte ≤ 0x56 then some (byte - 0x41 + 10)
  else none

/-- The loop of `decode_base32hex_nopad`.  Bits that have been written stay in
the register until they are shifted out. -/
def decodeBase32hexFrom (buffer : UInt32) (bits : Nat) : Octets → Option Octets
  | [] =>
    if 0 < bits ∧ buffer &&& ((1 <<< UInt32.ofNat bits) - 1) ≠ 0 then none else some []
  | byte :: rest =>
    match base32hexDigit byte with
    | none => none
    | some value =>
      let buffer := buffer <<< 5 ||| value.toUInt32
      if 8 ≤ bits + 5 then
        let bits := bits + 5 - 8
        let octet := (buffer >>> UInt32.ofNat bits &&& 0xff).toUInt8
        (decodeBase32hexFrom buffer bits rest).map (octet :: ·)
      else decodeBase32hexFrom buffer (bits + 5) rest

def decodeBase32hexNopad (input : Octets) : Option Octets :=
  decodeBase32hexFrom 0 0 input

def nsec3OwnerHash (owner zoneName : DnsName) : Except DnssecError Octets :=
  match owner.labels with
  | [] => .error .invalidNsec3
  | label :: rest =>
    if rest ≠ zoneName.labels then .error .invalidNsec3
    else
      match decodeBase32hexNopad label with
      | some hash => .ok hash
      | none => .error .invalidNsec3

theorem base32hexDigit_eq (byte : UInt8) :
    base32hexDigit byte = base32hexValue byte ∧
      ∀ value ∈ base32hexValue byte, value.toNat < 32 := by
  have every : ∀ code < 256, base32hexDigit (UInt8.ofNat code) = base32hexValue (UInt8.ofNat code) ∧
      (base32hexValue (UInt8.ofNat code)).all (·.toNat < 32) := by
    decide +kernel
  have found := every byte.toNat byte.toNat_lt
  rw [UInt8.ofNat_toNat] at found
  exact ⟨found.1, fun value mem => by simpa using Option.all_eq_true _ _ |>.mp found.2 value mem⟩

/-- The low bits of the register are those of the strict decoder, which clears the others. -/
theorem decodeBase32hexFrom_eq (input : Octets) {buffer accumulator : UInt32} {bits : Nat}
    (bound : bits < 8) (low : accumulator.toNat = buffer.toNat % 2 ^ bits) :
    decodeBase32hexFrom buffer bits input =
      HnsDaneEngine.Dnssec.decodeBase32hexFrom accumulator bits input := by
  induction input generalizing buffer accumulator bits with
  | nil =>
    have zero_iff : buffer &&& ((1 <<< UInt32.ofNat bits) - 1) = 0 ↔ accumulator = 0 := by
      rw [← UInt32.toNat_inj, ← UInt32.toNat_inj, Base32Hex.toNat_and_mask buffer bits bound, low]
    simp only [decodeBase32hexFrom, HnsDaneEngine.Dnssec.decodeBase32hexFrom,
      Nat.pos_iff_ne_zero, ne_eq, zero_iff]
  | cons byte input ih =>
    rw [decodeBase32hexFrom, HnsDaneEngine.Dnssec.decodeBase32hexFrom, (base32hexDigit_eq byte).1]
    cases value_eq : base32hexValue byte with
    | none => rfl
    | some value =>
      have small := (base32hexDigit_eq byte).2 value value_eq
      have buffer_eq := Base32Hex.toNat_shiftLeft_or buffer small
      have accumulator_eq := Base32Hex.toNat_shiftLeft_or accumulator small
      dsimp only
      generalize buffer <<< 5 ||| value.toUInt32 = shifted at buffer_eq ⊢
      generalize accumulator <<< 5 ||| value.toUInt32 = pending at accumulator_eq ⊢
      have pending_eq : pending.toNat = shifted.toNat % 2 ^ (bits + 5) := by
        rw [accumulator_eq, buffer_eq, low]
        interval_cases bits <;> omega
      by_cases short : bits < 3
      · rw [if_neg (by omega), if_neg (by omega)]
        exact ih (by omega) pending_eq
      have bits_eq : bits + 5 = bits - 3 + 8 := by omega
      rw [bits_eq] at pending_eq ⊢
      have cleared : (pending &&& ((1 <<< UInt32.ofNat (bits - 3)) - 1)).toNat =
          shifted.toNat % 2 ^ (bits - 3) := by
        rw [Base32Hex.toNat_and_mask _ _ (by omega), pending_eq,
          Nat.mod_mod_of_dvd _ (Nat.pow_dvd_pow 2 (Nat.le_add_right _ _))]
      have octet_eq : (shifted >>> UInt32.ofNat (bits - 3) &&& 0xff).toUInt8 =
          (pending >>> UInt32.ofNat (bits - 3)).toUInt8 := by
        rw [UInt32.toUInt8_and, ← UInt8.toNat_inj,
          Base32Hex.toNat_shiftRight_toUInt8 pending _ (by omega), pending_eq, Nat.mod_mod,
          ← Base32Hex.toNat_shiftRight_toUInt8 shifted _ (by omega)]
        exact congrArg UInt8.toNat UInt8.and_neg_one
      rw [if_pos (by omega), if_pos (by omega), Nat.add_sub_cancel, octet_eq, ih (by omega) cleared]

theorem decodeBase32hexNopad_eq (input : Octets) :
    decodeBase32hexNopad input = decodeBase32hex input :=
  decodeBase32hexFrom_eq input (by decide) rfl

/-- A record with its owner hash. -/
structure Nsec3ProofRecord where
  nsec3 : Nsec3Record
  ownerHash : Octets

/-- The two records of an encloser. -/
structure Nsec3ClosestEncloserProof where
  closest : Nsec3ProofRecord
  nextCloser : Nsec3ProofRecord

/-- A proof or why there is none. -/
inductive Nsec3ProofValidation
  | valid (proof : Nsec3ClosestEncloserProof)
  | status (status : DnssecStatus)

/-- A query and its NSEC3 record. -/
structure Nsec3NoDataValidationInput where
  signerName : DnsName
  dnskeyRrset : List ResourceRecord
  queryName : DnsName
  queryType : RecordType
  nsec3Rrset : List ResourceRecord
  nsec3RrsigRrset : List ResourceRecord
  now : Nat

/-- A name and two NSEC3 records. -/
structure Nsec3ClosestEncloserProofInput where
  signerName : DnsName
  dnskeyRrset : List ResourceRecord
  queryName : DnsName
  closestEncloser : DnsName
  closestEncloserNsec3Rrset : List ResourceRecord
  closestEncloserNsec3RrsigRrset : List ResourceRecord
  nextCloserNsec3Rrset : List ResourceRecord
  nextCloserNsec3RrsigRrset : List ResourceRecord
  now : Nat

/-- With the wildcard record. -/
structure Nsec3NameErrorValidationInput extends Nsec3ClosestEncloserProofInput where
  wildcardNsec3Rrset : List ResourceRecord
  wildcardNsec3RrsigRrset : List ResourceRecord

def nsec3CoversHash (ownerHash nextHash queryHash : Octets) : Bool :=
  if queryHash = ownerHash ∨ ownerHash.length ≠ nextHash.length ∨
      ownerHash.length ≠ queryHash.length then false
  else
    match bytesCmp ownerHash nextHash with
    | .lt => bytesCmp ownerHash queryHash = .lt && bytesCmp queryHash nextHash = .lt
    | .gt => bytesCmp ownerHash queryHash = .lt || bytesCmp queryHash nextHash = .lt
    | .eq => true

def sameNsec3Params (left right : Nsec3Record) : Bool :=
  left.hashAlgorithm == right.hashAlgorithm && left.iterations == right.iterations &&
    left.salt == right.salt

/-- A closest encloser with a DNAME, or one at a zone cut, does not decide about
names below it. -/
def closestNsec3IsAuthoritative (nsec3 : Nsec3Record) : Except DnssecError Bool := do
  if ← nsec3.hasType (.unknown 39) then return false
  else if ← nsec3.hasType .ns then return ← nsec3.hasType .soa
  else return true

/-- The ancestor one label below the closest encloser, through its text. -/
def nextCloserName (queryName closestEncloser : DnsName) : Except DnssecError DnsName :=
  if !isStrictSubdomain queryName closestEncloser then .error .nameEncoding
  else
    let start := queryName.labels.length - (closestEncloser.labels.length + 1)
    match DnsName.fromAscii (joinLabels (queryName.labels.drop start)) with
    | .ok name => .ok name
    | .error _ => .error .nameEncoding

/-- The usable records with the hashes in their owners. -/
def parseNsec3Proofs (zoneName : DnsName) :
    List ResourceRecord → Except DnssecError (List Nsec3ProofRecord)
  | [] => .ok []
  | record :: rest =>
    if record.recordType = .nsec3 then
      match Nsec3Record.fromRecord record with
      | .error error => .error error
      | .ok nsec3 =>
        if !nsec3.isUsable then parseNsec3Proofs zoneName rest
        else
          match nsec3OwnerHash record.name zoneName with
          | .error error => .error error
          | .ok ownerHash =>
            if ownerHash.length ≠ nsec3.nextHashedOwnerName.length then
              parseNsec3Proofs zoneName rest
            else
              match parseNsec3Proofs zoneName rest with
              | .error error => .error error
              | .ok proofs => .ok (⟨nsec3, ownerHash⟩ :: proofs)
    else parseNsec3Proofs zoneName rest

/-- The search of `find_nsec3_matching_proof` and `find_nsec3_covering_proof`:
the first record with the expected parameters that passes a test. -/
def findNsec3Proof (test : Nsec3ProofRecord → Except DnssecError Bool)
    (expected : Option Nsec3Record) :
    List Nsec3ProofRecord → Except DnssecError (Option Nsec3ProofRecord)
  | [] => .ok none
  | proof :: rest =>
    if expected.any fun expected => !sameNsec3Params expected proof.nsec3 then
      findNsec3Proof test expected rest
    else
      match test proof with
      | .error error => .error error
      | .ok true => .ok (some proof)
      | .ok false => findNsec3Proof test expected rest

section

variable (crypto : Crypto)

/-- The iteration loop of `nsec3_hash`. -/
def iterateSha1 (salt : Octets) : Nat → Octets → Octets
  | 0, hash => hash
  | iterations + 1, hash => iterateSha1 salt iterations (crypto.sha1 (hash ++ salt))

def nsec3Hash (name : DnsName) (hashAlgorithm : UInt8) (iterations : UInt16)
    (salt : Octets) : Except DnssecError Octets :=
  if hashAlgorithm ≠ nsec3HashSha1 then .error .unsupportedDigest
  else if nsec3MaxIterations < iterations then .error .invalidNsec3
  else
    match name.encodeWire with
    | .error _ => .error .nameEncoding
    | .ok canonicalName =>
      .ok (iterateSha1 crypto salt iterations.toNat (crypto.sha1 (canonicalName ++ salt)))

/-- A test on the hash of a name under the parameters of a record. -/
def testNameHash (test : Octets → Bool) (nsec3 : Nsec3Record) (name : DnsName) :
    Except DnssecError Bool :=
  if !nsec3.isUsable then .ok false
  else
    match nsec3Hash crypto name nsec3.hashAlgorithm nsec3.iterations nsec3.salt with
    | .error error => .error error
    | .ok hash => .ok (test hash)

def nsec3MatchesName (proof : Nsec3ProofRecord) (name : DnsName) : Except DnssecError Bool :=
  testNameHash crypto (fun hash => proof.ownerHash == hash) proof.nsec3 name

def nsec3CoversName (proof : Nsec3ProofRecord) (name : DnsName) : Except DnssecError Bool :=
  testNameHash crypto
    (nsec3CoversHash proof.ownerHash proof.nsec3.nextHashedOwnerName) proof.nsec3 name

def findNsec3MatchingProof (proofs : List Nsec3ProofRecord) (name : DnsName)
    (expected : Option Nsec3Record) : Except DnssecError (Option Nsec3ProofRecord) :=
  findNsec3Proof (nsec3MatchesName crypto · name) expected proofs

def findNsec3CoveringProof (proofs : List Nsec3ProofRecord) (name : DnsName)
    (expected : Option Nsec3Record) : Except DnssecError (Option Nsec3ProofRecord) :=
  findNsec3Proof (nsec3CoversName crypto · name) expected proofs

def validateNsec3RrsetSignature (signerName : DnsName)
    (dnskeyRrset nsec3Rrset nsec3RrsigRrset : List ResourceRecord) (now : Nat) :
    Except DnssecError DnssecStatus :=
  if nsec3Rrset.isEmpty then .ok .bogus
  else validateRrsetSignature crypto signerName dnskeyRrset nsec3Rrset nsec3RrsigRrset now

/-- The record loop of `validate_nsec3_no_data`. -/
def nsec3NoDataFrom (queryName : DnsName) (queryType : RecordType) :
    List Nsec3ProofRecord → Except DnssecError DnssecStatus
  | [] => .ok .bogus
  | proof :: rest =>
    match nsec3MatchesName crypto proof queryName with
    | .error error => .error error
    | .ok false => nsec3NoDataFrom queryName queryType rest
    | .ok true =>
      match lacksTypes proof.nsec3.hasType queryType with
      | .error error => .error error
      | .ok true => .ok .secure
      | .ok false => nsec3NoDataFrom queryName queryType rest

def validateNsec3NoData (input : Nsec3NoDataValidationInput) : Except DnssecError DnssecStatus :=
  match validateNsec3RrsetSignature crypto input.signerName input.dnskeyRrset input.nsec3Rrset
      input.nsec3RrsigRrset input.now with
  | .error error => .error error
  | .ok .secure => do
    let proofs ← parseNsec3Proofs input.signerName input.nsec3Rrset
    nsec3NoDataFrom crypto input.queryName input.queryType proofs
  | .ok status => .ok status

/-- The second half of `validate_nsec3_closest_encloser_proof`. -/
def validateNsec3NextCloser (input : Nsec3ClosestEncloserProofInput)
    (closest : Nsec3ProofRecord) : Except DnssecError Nsec3ProofValidation := do
  let nextCloserCandidate ← nextCloserName input.queryName input.closestEncloser
  match ← validateNsec3RrsetSignature crypto input.signerName input.dnskeyRrset
      input.nextCloserNsec3Rrset input.nextCloserNsec3RrsigRrset input.now with
  | .secure =>
    let nextProofs ← parseNsec3Proofs input.signerName input.nextCloserNsec3Rrset
    match ← findNsec3CoveringProof crypto nextProofs nextCloserCandidate
        (some closest.nsec3) with
    | none => return .status .bogus
    | some nextCloser => return .valid ⟨closest, nextCloser⟩
  | status => return .status status

def validateNsec3ClosestEncloserProof (input : Nsec3ClosestEncloserProofInput) :
    Except DnssecError Nsec3ProofValidation :=
  if !isStrictSubdomain input.queryName input.closestEncloser then .ok (.status .bogus)
  else do
    match ← validateNsec3RrsetSignature crypto input.signerName input.dnskeyRrset
        input.closestEncloserNsec3Rrset input.closestEncloserNsec3RrsigRrset input.now with
    | .secure =>
      let closestProofs ← parseNsec3Proofs input.signerName input.closestEncloserNsec3Rrset
      match ← findNsec3MatchingProof crypto closestProofs input.closestEncloser none with
      | none => return .status .bogus
      | some closest =>
        if !(← closestNsec3IsAuthoritative closest.nsec3) then return .status .bogus
        else validateNsec3NextCloser crypto input closest
    | status => return .status status

/-- The wildcard part of `validate_nsec3_name_error`. -/
def validateNsec3Wildcard (input : Nsec3NameErrorValidationInput)
    (closestProof : Nsec3ClosestEncloserProof) : Except DnssecError DnssecStatus := do
  let wildcardName ← wildcardChild input.closestEncloser
  match ← validateNsec3RrsetSignature crypto input.signerName input.dnskeyRrset
      input.wildcardNsec3Rrset input.wildcardNsec3RrsigRrset input.now with
  | .secure =>
    let wildcardProofs ← parseNsec3Proofs input.signerName input.wildcardNsec3Rrset
    match ← findNsec3CoveringProof crypto wildcardProofs wildcardName
        (some closestProof.closest.nsec3) with
    | none => return .bogus
    | some wildcardProof =>
      return if wildcardProof.nsec3.isOptOut then .insecureDelegation else .secure
  | status => return status

def validateNsec3NameError (input : Nsec3NameErrorValidationInput) :
    Except DnssecError DnssecStatus := do
  match ← validateNsec3ClosestEncloserProof crypto input.toNsec3ClosestEncloserProofInput with
  | .status status => return status
  | .valid closestProof =>
    if closestProof.nextCloser.nsec3.isOptOut then return .insecureDelegation
    else validateNsec3Wildcard crypto input closestProof

end

/-- The hash of a label sequence under given parameters. -/
def hashOf (crypto : Crypto) (salt : Octets) (iterations : UInt16) (labels : List Label) :
    Octets :=
  iterateSha1 crypto salt iterations.toNat (crypto.sha1 (wireOf labels ++ salt))

theorem nsec3Hash_eq {crypto : Crypto} (name : DnsName) {iterations : UInt16}
    (within : iterations ≤ nsec3MaxIterations) (salt : Octets) :
    nsec3Hash crypto name nsec3HashSha1 iterations salt =
      .ok (hashOf crypto salt iterations name.labels) := by
  rw [nsec3Hash, if_neg (by simp), if_neg (UInt16.not_lt.mpr within), name.encodeWire_eq]
  rfl

/-- The data of an NSEC3 record. -/
def nsec3Rdata (optOut : Bool) (iterations : UInt16) (salt next bitmap : Octets) :
    Octets :=
  1 :: (if optOut then 1 else 0) :: (writeU16Be iterations ++
    (UInt8.ofNat salt.length :: (salt ++ (UInt8.ofNat next.length :: (next ++ bitmap)))))

/-- The NSEC3 records of a zone: one for each listed name, with the same
parameters. -/
structure SignedChain (crypto : Crypto) (zone : Zone Label) where
  salt : Octets
  iterations : UInt16
  chain : zone.HashChain fun labels => some (hashOf crypto salt iterations labels)
  optOut : List Label → Bool
  blocks : List Label → Blocks
  salt_le : salt.length ≤ 255
  blocks_has : ∀ name ∈ chain.names, (blocks name).has = zone.types name

namespace SignedChain

variable {crypto : Crypto} {zone : Zone Label} (chain : SignedChain crypto zone)

def hash (labels : List Label) : Octets :=
  hashOf crypto chain.salt chain.iterations labels

/-- The record of a listed name, which leads to the next hash. -/
structure IsRecordOf (name : List Label) (next : Octets) (record : ResourceRecord) :
    Prop where
  type_eq : record.recordType = .nsec3
  class_eq : record.class_ = 1
  link : chain.chain.IsLink (chain.optOut name) name (chain.hash name) next
  labels_eq : record.name.labels = Base32Hex.encode (chain.hash name) :: zone.apex
  rdata_eq : record.rdata = nsec3Rdata (chain.optOut name) chain.iterations chain.salt next
    (chain.blocks name).encode

/-- An NSEC3 record of the zone. -/
def IsRecord (record : ResourceRecord) : Prop :=
  ∃ name next, chain.IsRecordOf name next record

/-- The parsed data of the record of a listed name. -/
def nsec3 (name : List Label) (next : Octets) : Nsec3Record where
  hashAlgorithm := nsec3HashSha1
  flags := if chain.optOut name then nsec3OptOutFlag else 0
  iterations := chain.iterations
  salt := chain.salt
  nextHashedOwnerName := next
  typeBitMaps := (chain.blocks name).encode

variable {chain} {name : List Label} {next : Octets} {record : ResourceRecord}

theorem isUsable_nsec3 : (chain.nsec3 name next).isUsable = true := by
  have flags : ∀ optOut : Bool,
      ((if optOut then nsec3OptOutFlag else 0) &&& ~~~nsec3OptOutFlag == 0) = true := by decide
  simp [Nsec3Record.isUsable, nsec3, flags]

theorem isOptOut_nsec3 : (chain.nsec3 name next).isOptOut = chain.optOut name := by
  have flags : ∀ optOut : Bool,
      ((if optOut then nsec3OptOutFlag else 0) &&& nsec3OptOutFlag != 0) = optOut := by decide
  simp [Nsec3Record.isOptOut, nsec3, flags]

theorem hasType_nsec3 (listed : name ∈ chain.chain.names) (recordType : RecordType) :
    (chain.nsec3 name next).hasType recordType = .ok (zone.types name recordType.code) := by
  simp [nsec3, Nsec3Record.hasType, chain.blocks_has name listed]

private theorem toNat_ofNat_length {bytes : Octets} (small : bytes.length ≤ 255) :
    (UInt8.ofNat bytes.length).toNat = bytes.length :=
  Frame.toNat_ofNat_of_lt (by omega)

/-- The data of a record is read back. -/
theorem IsRecordOf.fromRecord (isRecord : chain.IsRecordOf name next record)
    (nextLength : 0 < next.length ∧ next.length ≤ 255) :
    Nsec3Record.fromRecord record = .ok (chain.nsec3 name next) := by
  have saltLength := toNat_ofNat_length chain.salt_le
  have hashLength := toNat_ofNat_length nextLength.2
  have hashLen_ne : UInt8.ofNat next.length ≠ 0 := by
    rw [Ne, ← UInt8.toNat_inj, hashLength, UInt8.toNat_zero]
    omega
  unfold Nsec3Record.fromRecord
  rw [if_neg (not_not.mpr isRecord.type_eq), isRecord.rdata_eq]
  simp only [nsec3Rdata, writeU16Be, Frame.u16, List.cons_append, List.nil_append,
    Nsec3Record.parseRdata, saltLength, List.drop_left, List.take_left, hashLength,
    validateNsecTypeBitMaps_encode, u16FromBe_writeU16Be]
  rw [if_neg hashLen_ne, if_neg (by simp)]
  rfl

theorem length_hash (sha1Length : ∀ data, (crypto.sha1 data).length = 20)
    (labels : List Label) : (chain.hash labels).length = 20 := by
  have iterated : ∀ count value, value.length = 20 →
      (iterateSha1 crypto chain.salt count value).length = 20 := by
    intro count
    induction count with
    | zero => exact fun _ length => length
    | succ count ih => exact fun _ _ => ih _ (sha1Length _)
  exact iterated _ _ (sha1Length _)

theorem IsRecordOf.length_next (sha1Length : ∀ data, (crypto.sha1 data).length = 20)
    (isRecord : chain.IsRecordOf name next record) : next.length = 20 := by
  obtain ⟨member, _, next_eq⟩ := isRecord.link.successor.next_mem
  rw [← Option.some.inj next_eq]
  exact length_hash sha1Length member

theorem nsec3OwnerHash_of_labels {owner apex : DnsName} {hash : Octets}
    (labels_eq : owner.labels = Base32Hex.encode hash :: apex.labels) :
    nsec3OwnerHash owner apex = .ok hash := by
  simp [nsec3OwnerHash, labels_eq, decodeBase32hexNopad_eq, decodeBase32hex_encode]

/-- The record of a listed name as a proof record. -/
theorem IsRecordOf.parseNsec3Proofs_singleton {apex : DnsName}
    (sha1Length : ∀ data, (crypto.sha1 data).length = 20) (apex_eq : apex.labels = zone.apex)
    (isRecord : chain.IsRecordOf name next record) :
    parseNsec3Proofs apex [record] = .ok [⟨chain.nsec3 name next, chain.hash name⟩] := by
  have nextLength := isRecord.length_next sha1Length
  have parsed := isRecord.fromRecord (by omega)
  have hash_ok := nsec3OwnerHash_of_labels (apex_eq ▸ isRecord.labels_eq)
  have lengths : (chain.hash name).length = (chain.nsec3 name next).nextHashedOwnerName.length := by
    rw [length_hash sha1Length]
    exact nextLength.symm
  simp only [parseNsec3Proofs, if_pos isRecord.type_eq, parsed, isUsable_nsec3, hash_ok,
    Bool.not_true, Bool.false_eq_true, if_false]
  rw [if_neg (not_not.mpr lengths)]

variable {otherName : List Label} {otherNext : Octets} {other : ResourceRecord}

/-- Two records of the chain with one owner belong to one name. -/
theorem IsRecordOf.name_unique (isRecord : chain.IsRecordOf name next record)
    (otherIs : chain.IsRecordOf otherName otherNext other) (name_eq : record.name = other.name) :
    name = otherName := by
  have labels_eq := congrArg DnsName.labels name_eq
  rw [isRecord.labels_eq, otherIs.labels_eq, List.cons.injEq] at labels_eq
  have hash_eq : chain.hash name = chain.hash otherName := by
    have decoded := congrArg decodeBase32hexNopad labels_eq.1
    rwa [decodeBase32hexNopad_eq, decodeBase32hexNopad_eq, decodeBase32hex_encode,
      decodeBase32hex_encode, Option.some.injEq] at decoded
  exact chain.chain.hash_inj name isRecord.link.name_mem otherName otherIs.link.name_mem
    (chain.hash otherName) (congrArg some hash_eq) rfl

/-- Two records of the chain with one owner have the same data. -/
theorem IsRecordOf.rdata_unique (isRecord : chain.IsRecordOf name next record)
    (otherIs : chain.IsRecordOf otherName otherNext other) (name_eq : record.name = other.name) :
    record.rdata = other.rdata := by
  obtain rfl := isRecord.name_unique otherIs name_eq
  rw [isRecord.rdata_eq, otherIs.rdata_eq,
    isRecord.link.successor.next_unique otherIs.link.successor]

private theorem canonicalRdata_nsec3 {form : Octets} (type_eq : record.recordType = .nsec3)
    (form_ok : canonicalRdata record = .ok form) : record.rdata = form := by
  rw [canonicalRdata, type_eq] at form_ok
  obtain ⟨_, _, form_eq⟩ := of_bind_ok form_ok
  exact Except.ok.inj form_eq

/-- Records of the chain that have a secure status as one set are a single
record: other owners do not belong to the set, and the same data does not occur
twice. -/
theorem eq_singleton_of_secure {records rrsigRrset dnskeyRrset : List ResourceRecord}
    {signerName : DnsName} {now : Nat} (genuine : ∀ record ∈ records, chain.IsRecord record)
    (secure : validateRrsetSignature crypto signerName dnskeyRrset records rrsigRrset now =
      .ok .secure) :
    ∃ record, records = [record] := by
  have sameLength : ∀ record ∈ records, record.name.labels.length = zone.apex.length + 1 := by
    intro record mem
    obtain ⟨name, next, isRecord⟩ := genuine record mem
    rw [isRecord.labels_eq, List.length_cons]
  obtain ⟨sameName, canonical, nodup, forms⟩ := isRrset_of_secure sameLength secure
  cases records with
  | nil => simp [validateRrsetSignature] at secure
  | cons first rest =>
    cases rest with
    | nil => exact ⟨first, rfl⟩
    | cons second rest =>
      obtain ⟨firstName, firstNext, firstIs⟩ := genuine first (by simp)
      obtain ⟨secondName, secondNext, secondIs⟩ := genuine second (by simp)
      have rdata_eq := firstIs.rdata_unique secondIs (sameName first (by simp) second (by simp))
      obtain ⟨firstForm, _, first_ok, restForms, rfl⟩ := List.forall₂_cons_left_iff.mp forms
      obtain ⟨secondForm, _, second_ok, _, rfl⟩ := List.forall₂_cons_left_iff.mp restForms
      have forms_eq : firstForm = secondForm := by
        rw [← canonicalRdata_nsec3 firstIs.type_eq first_ok,
          ← canonicalRdata_nsec3 secondIs.type_eq second_ok, rdata_eq]
      simp [forms_eq] at nodup

end SignedChain

end HnsDaneEngine.Browser.Dnssec
