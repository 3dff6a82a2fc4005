import HnsDaneEngine.Dnssec.Core
import HnsDaneEngine.Encoding.Base32Hex

/-!
# NSEC3 denial in the strict validator

`verify_nsec3_denial` works on the hashes of names.  For a name error it looks
for the longest proper ancestor of the query name, not above the zone, whose
hash is the owner hash of a supplied record, and then for records without the
opt-out flag whose hash intervals contain the hash of the name one label longer
and the hash of the wildcard child of that ancestor.

The supplied records need not contain the record of the true closest encloser.
The check is sound nevertheless: unlike in the canonical order, the hash of an
empty non-terminal is a member of the chain, so that a covered name does not
exist at all, and the ancestor one label above it is the closest encloser.
-/

namespace HnsDaneEngine.Dnssec

open HnsDaneEngine.Order TypeBitmap Wire

/-! ## Owner hashes -/

/-- `u8::to_ascii_uppercase`. -/
def toAsciiUppercase (byte : UInt8) : UInt8 :=
  if 0x61 ≤ byte ∧ byte ≤ 0x7a then byte - 0x20 else byte

/-- The digit match of `decode_base32hex`. -/
def base32hexValue (byte : UInt8) : Option UInt8 :=
  let upper := toAsciiUppercase byte
  if 0x30 ≤ upper ∧ upper ≤ 0x39 then some (byte - 0x30)
  else if 0x41 ≤ upper ∧ upper ≤ 0x56 then some (upper - 0x41 + 10)
  else none

/-- The loop of `decode_base32hex`.  Fewer than eight bits are pending between
two digits, so the inner loop of the source runs at most once for each digit. -/
def decodeBase32hexFrom (accumulator : UInt32) (bits : Nat) :
    Octets → Option Octets
  | [] => if bits ≠ 0 ∧ accumulator ≠ 0 then none else some []
  | byte :: rest =>
    match base32hexValue byte with
    | none => none
    | some value =>
      let accumulator := accumulator <<< 5 ||| value.toUInt32
      let bits := bits + 5
      if 8 ≤ bits then
        let bits := bits - 8
        let octet := (accumulator >>> UInt32.ofNat bits).toUInt8
        let accumulator := accumulator &&& ((1 <<< UInt32.ofNat bits) - 1)
        (decodeBase32hexFrom accumulator bits rest).map (octet :: ·)
      else decodeBase32hexFrom accumulator bits rest

def decodeBase32hex (input : Octets) : Option Octets :=
  decodeBase32hexFrom 0 0 input

/-- The hash in the first label of a record owner directly below the zone. -/
def nsec3OwnerHash (owner zone : Name) : Option Octets :=
  match owner.labels with
  | [] => none
  | label :: rest =>
    if rest = zone.labels then
      match decodeBase32hex label with
      | some decoded => if decoded.length = 20 then some decoded else none
      | none => none
    else none

section

/- `sha1` stands for the OpenSSL digest; `none` is its error. -/
variable (sha1 : Octets → Option Octets)

/-- The digest of the concatenated parts. -/
def digestSha1Many (parts : List Octets) : Except DnssecError Octets :=
  match sha1 parts.flatten with
  | some digest => .ok digest
  | none => .error (.unsupportedDigest 1)

/-- The iteration loop of `nsec3_hash`. -/
def iterateDigest (salt : Octets) : Nat → Octets → Except DnssecError Octets
  | 0, value => .ok value
  | iterations + 1, value =>
    match digestSha1Many sha1 [value, salt] with
    | .ok next => iterateDigest salt iterations next
    | .error error => .error error

/-- The RFC 5155 hash of a wire name. -/
def nsec3Digest (salt : Octets) (iterations : UInt16) (canonicalName : Octets) :
    Except DnssecError Octets :=
  match digestSha1Many sha1 [canonicalName, salt] with
  | .error error => .error error
  | .ok value =>
    match iterateDigest sha1 salt iterations.toNat value with
    | .error error => .error error
    | .ok value => if value.length = 20 then .ok value else .error (.unsupportedDigest 1)

/-- Compute the RFC 5155 SHA-1 NSEC3 hash with bounded iterations. -/
def nsec3Hash (name : Name) (salt : Octets) (iterations : UInt16) (limits : DnssecLimits) :
    Except DnssecError Octets :=
  if limits.maxNsec3Iterations < iterations ∨ 255 < salt.length then .error .limit
  else
    match name.encode with
    | .error _ => .error .unsupportedRdata
    | .ok canonicalName => nsec3Digest sha1 salt iterations canonicalName

end

/-! ## The check -/

def validNsec3Record (record : ResourceRecord) : Option Nsec3 :=
  if record.class_ ≠ classIn ∨ record.recordType ≠ .nsec3 then none
  else
    match record.rdata with
    | .nsec3 nsec3 => some nsec3
    | _ => none

def validateNsec3 (record : Nsec3) (limits : DnssecLimits) : Except DnssecError Unit :=
  if record.hashAlgorithm ≠ 1 ∨ record.flags &&& ~~~1 ≠ 0 ∨
      limits.maxNsec3Iterations < record.iterations ∨ 255 < record.salt.length ∨
      record.nextHashedOwner.length ≠ 20 then .error .denialMismatch
  else .ok ()

/-- The owner hashes of the usable records, each with its record data. -/
def nsec3Entries (zone : Name) (limits : DnssecLimits) :
    List ResourceRecord → Except DnssecError (List (Octets × Nsec3))
  | [] => .ok []
  | record :: rest =>
    match validNsec3Record record with
    | none => nsec3Entries zone limits rest
    | some nsec3 =>
      match validateNsec3 nsec3 limits with
      | .error error => .error error
      | .ok () =>
        match nsec3OwnerHash record.name zone with
        | none => nsec3Entries zone limits rest
        | some ownerHash =>
          match nsec3Entries zone limits rest with
          | .error error => .error error
          | .ok entries => .ok ((ownerHash, nsec3) :: entries)

def hashIntervalContains (owner next candidate : Octets) : Bool :=
  if bytesCmp owner next = .lt then
    bytesCmp owner candidate = .lt && bytesCmp candidate next = .lt
  else bytesCmp owner candidate = .lt || bytesCmp candidate next = .lt

/-- The no-data loop: a record at the hash of the query name whose bitmap denies
the query type. -/
def nsec3NoData (queryHash : Octets) (qtype : RecordType) (responseIsNameError : Bool)
    (entries : List (Octets × Nsec3)) :
    Except DnssecError (Option (Octets × Nsec3)) :=
  findNoData (fun entry => entry.1 = queryHash && !responseIsNameError)
    (fun entry => entry.2.typeBitmaps) qtype entries

/-- Is a hash in the interval of a record without opt-out? -/
def nsec3Cover (entries : List (Octets × Nsec3)) (hash : Octets) : Bool :=
  entries.any fun entry =>
    entry.2.flags == 0 && hashIntervalContains entry.1 entry.2.nextHashedOwner hash

/-- Does some record disagree with the first one on the hash parameters? -/
def nsec3ParamsDiffer (first : Nsec3) (entries : List (Octets × Nsec3)) : Bool :=
  entries.any fun entry =>
    entry.2.hashAlgorithm ≠ first.hashAlgorithm || entry.2.iterations ≠ first.iterations ||
      entry.2.salt ≠ first.salt

section

variable (sha1 : Octets → Option Octets)

/-- The start of the longest proper ancestor within the zone whose hash is a
supplied owner hash. -/
def nsec3ClosestStart (zone qname : Name) (salt : Octets) (iterations : UInt16)
    (limits : DnssecLimits) (entries : List (Octets × Nsec3)) : Option Nat :=
  (List.range' 1 (qname.labels.length - zone.labels.length)).find? fun start =>
    match ancestor qname start with
    | none => false
    | some candidate =>
      match nsec3Hash sha1 candidate salt iterations limits with
      | .ok hash => entries.any fun entry => entry.1 = hash
      | .error _ => false

/-- The name-error part of `verify_nsec3_denial`. -/
def nsec3NameError (zone qname : Name) (salt : Octets) (iterations : UInt16)
    (limits : DnssecLimits) (entries : List (Octets × Nsec3)) :
    Except DnssecError Denial :=
  match nsec3ClosestStart sha1 zone qname salt iterations limits entries with
  | none => .error .denialMismatch
  | some closestStart =>
    match ancestor qname (closestStart - 1), ancestor qname closestStart with
    | some nextCloser, some closest =>
      match wildcardOf closest with
      | .error error => .error error
      | .ok wildcard =>
        match nsec3Hash sha1 nextCloser salt iterations limits with
        | .error error => .error error
        | .ok nextHash =>
          match nsec3Hash sha1 wildcard salt iterations limits with
          | .error error => .error error
          | .ok wildcardHash =>
            if nsec3Cover entries nextHash && nsec3Cover entries wildcardHash then
              .ok .nameError
            else .error .denialMismatch
    | _, _ => .error .denialMismatch

/-- The part of `verify_nsec3_denial` after the parameters of the records have
been compared: no data at the query hash, or else a name error. -/
def nsec3DenialOf (zone qname : Name) (qtype : RecordType) (responseIsNameError : Bool)
    (salt : Octets) (iterations : UInt16) (limits : DnssecLimits)
    (entries : List (Octets × Nsec3)) : Except DnssecError Denial :=
  match nsec3Hash sha1 qname salt iterations limits with
  | .error error => .error error
  | .ok queryHash =>
    match nsec3NoData queryHash qtype responseIsNameError entries with
    | .error error => .error error
    | .ok (some _) => .ok .noData
    | .ok none =>
      if !responseIsNameError then .error .denialMismatch
      else nsec3NameError sha1 zone qname salt iterations limits entries

/-- Verify an already signature-authenticated NSEC3 no-data or name-error
proof. -/
def verifyNsec3Denial (zone qname : Name) (qtype : RecordType) (records : List ResourceRecord)
    (responseIsNameError : Bool) (limits : DnssecLimits) : Except DnssecError Denial :=
  if limits.maxDenialRecords < records.length then .error .limit
  else if !isSuffix qname zone then .error .denialMismatch
  else
    match nsec3Entries zone limits records with
    | .error error => .error error
    | .ok [] => .error .denialMismatch
    | .ok (first :: others) =>
      if nsec3ParamsDiffer first.2 (first :: others) then .error .denialMismatch
      else
        nsec3DenialOf sha1 zone qname qtype responseIsNameError first.2.salt
          first.2.iterations limits (first :: others)

end

/-! ## Owner labels decode to the hash they encode -/

private theorem base32hexValue_digitChar :
    ∀ digit < 32, base32hexValue (Base32Hex.digitChar digit) = some (UInt8.ofNat digit) := by
  decide

/-- The register of the strict decoder holds exactly the pending bits. -/
theorem decodeBase32hexFrom_map_digitChar (digits : List Nat)
    (small : ∀ digit ∈ digits, digit < 32) (accumulator : UInt32) (bits : Nat)
    (bound : bits < 8) (cleared : accumulator.toNat < 2 ^ bits) :
    decodeBase32hexFrom accumulator bits (digits.map Base32Hex.digitChar) =
      (Base32Hex.decodeDigits accumulator.toNat bits digits).map (List.map UInt8.ofNat) := by
  induction digits generalizing accumulator bits with
  | nil =>
    have zero_iff : accumulator = 0 ↔ accumulator.toNat = 0 := by
      rw [← UInt32.toNat_inj]
      rfl
    simp only [decodeBase32hexFrom, List.map_nil, Base32Hex.decodeDigits, ne_eq, zero_iff]
    split <;> rfl
  | cons digit rest ih =>
    have digitSmall := small digit List.mem_cons_self
    have restSmall := fun other mem => small other (List.mem_cons_of_mem digit mem)
    have pow_le : 2 ^ bits ≤ 2 ^ 7 := Nat.pow_le_pow_right (by simp) (by omega)
    have shifted : (accumulator <<< 5 ||| (UInt8.ofNat digit).toUInt32).toNat =
        accumulator.toNat * 32 + digit := by
      have value_eq : (UInt8.ofNat digit).toNat = digit := by
        rw [UInt8.toNat_ofNat']
        omega
      rw [Base32Hex.toNat_shiftLeft_or accumulator (value_eq.trans_lt digitSmall), value_eq]
      omega
    simp only [List.map_cons, decodeBase32hexFrom, base32hexValue_digitChar digit digitSmall,
      Base32Hex.decodeDigits]
    by_cases short : bits < 3
    · rw [if_neg (by omega), if_pos short, ← shifted]
      apply ih restSmall _ _ (by omega)
      rw [shifted, Nat.pow_add]
      omega
    have octet_eq := Base32Hex.toNat_shiftRight_toUInt8
      (accumulator <<< 5 ||| (UInt8.ofNat digit).toUInt32) (bits - 3) (by omega)
    have masked := Base32Hex.toNat_and_mask
      (accumulator <<< 5 ||| (UInt8.ofNat digit).toUInt32) (bits - 3) (by omega)
    rw [if_pos (by omega), if_neg short, show bits + 5 - 8 = bits - 3 by omega,
      ih restSmall _ _ (by omega) (by rw [masked]; exact Nat.mod_lt _ (by positivity)),
      masked, shifted, Option.map_map, Option.map_map]
    congr 1
    funext octets
    simp only [Function.comp_apply, List.map_cons, List.cons.injEq, and_true]
    apply UInt8.toNat_inj.mp
    rw [octet_eq, shifted, UInt8.toNat_ofNat', Nat.pow_add, Nat.mod_mul_right_div_self]
    omega

theorem decodeBase32hex_encode (bytes : Octets) :
    decodeBase32hex (Base32Hex.encode bytes) = some bytes := by
  rw [decodeBase32hex, Base32Hex.encode, decodeBase32hexFrom_map_digitChar _
    (Base32Hex.encodeDigits_lt bytes 0 0 (by simp) (by simp)) 0 0 (by simp) (by simp)]
  simp [Base32Hex.decodeDigits_encodeDigits, Function.comp_def]

/-! ## What an accepted name error establishes -/

@[simp]
theorem hashIntervalContains_iff (owner next candidate : Octets) :
    hashIntervalContains owner next candidate = true ↔ CyclicBetween owner next candidate := by
  unfold hashIntervalContains CyclicBetween
  simp only [(bytesCmp_compares _ _).eq_lt]
  split <;> simp

/-- Some record without opt-out has the hash in its interval. -/
theorem nsec3Cover_iff (entries : List (Octets × Nsec3)) (hash : Octets) :
    nsec3Cover entries hash = true ↔ ∃ entry ∈ entries, entry.2.flags = 0 ∧
        CyclicBetween entry.1 entry.2.nextHashedOwner hash := by
  simp [nsec3Cover]

/-- A record that the entry loop keeps, with its decoded owner hash. -/
def usableNsec3 (zone : Name) (record : ResourceRecord) : Option (Octets × Nsec3) :=
  match validNsec3Record record with
  | none => none
  | some nsec3 => (nsec3OwnerHash record.name zone).map fun ownerHash => (ownerHash, nsec3)

/-- The entry loop succeeds exactly when every NSEC3 record is valid. -/
theorem nsec3Entries_eq_ok_iff (zone : Name) (limits : DnssecLimits)
    (records : List ResourceRecord) (entries : List (Octets × Nsec3)) :
    nsec3Entries zone limits records = .ok entries ↔
      (∀ record ∈ records, ∀ nsec3, validNsec3Record record = some nsec3 →
        validateNsec3 nsec3 limits = .ok ()) ∧
      entries = records.filterMap (usableNsec3 zone) := by
  induction records generalizing entries with
  | nil => simp [nsec3Entries, eq_comm]
  | cons record rest ih =>
    rw [nsec3Entries, List.forall_mem_cons, List.filterMap_cons, usableNsec3]
    cases valid : validNsec3Record record with
    | none => simpa using ih entries
    | some nsec3 =>
      cases validated : validateNsec3 nsec3 limits with
      | error error => simp [validated]
      | ok =>
        cases hashed : nsec3OwnerHash record.name zone with
        | none => simpa [validated] using ih entries
        | some ownerHash =>
          cases tail : nsec3Entries zone limits rest with
          | error error =>
            have notAll := fun all => (ih _).mpr ⟨all, rfl⟩
            simp only [tail, reduceCtorEq, imp_false] at notAll
            simp [validated, notAll]
          | ok tailEntries =>
            obtain ⟨all, rfl⟩ := (ih tailEntries).mp tail
            simp only [Except.ok.injEq, Option.some.injEq, forall_eq', validated,
              true_and, Option.map_some]
            exact ⟨fun equal => ⟨all, equal.symm⟩, fun ⟨_, equal⟩ => equal.symm⟩

section

variable (sha1 : Octets → Option Octets)

/-- The hash of a label sequence, when there is one. -/
def hashOf (salt : Octets) (iterations : UInt16) (labels : List Label) : Option Octets :=
  (nsec3Digest sha1 salt iterations (wireOf labels)).toOption

variable {sha1}

theorem nsec3Hash_eq_ok_iff (name : Name) (salt : Octets) (iterations : UInt16)
    (limits : DnssecLimits) (hash : Octets) :
    nsec3Hash sha1 name salt iterations limits = .ok hash ↔
      (iterations ≤ limits.maxNsec3Iterations ∧ salt.length ≤ 255) ∧
        hashOf sha1 salt iterations name.labels = some hash := by
  unfold nsec3Hash hashOf
  rw [name.encode_eq]
  split
  · rename_i exceeded
    rcases exceeded with exceeded | exceeded
    · simp [UInt16.not_le.mpr exceeded]
    · simp [Nat.not_le.mpr exceeded]
  · rename_i within
    rw [not_or, UInt16.not_lt, Nat.not_lt] at within
    cases digest : nsec3Digest sha1 salt iterations (wireOf name.labels) <;>
      simp [Except.toOption, within, digest]

variable {limits : DnssecLimits} {entries : List (Octets × Nsec3)}

/-- An accepted name error names an ancestor in the zone with a supplied owner
hash, over which both covers are supplied. -/
theorem nsec3NameError_eq_ok {zone qname : Name} {salt : Octets} {iterations : UInt16}
    (below : zone.labels <:+ qname.labels)
    (accepted : nsec3NameError sha1 zone qname salt iterations limits entries = .ok .nameError) :
    ∃ label encloser hash nextHash wildcardHash,
      zone.labels <:+ encloser ∧ label :: encloser <:+ qname.labels ∧
      hashOf sha1 salt iterations encloser = some hash ∧
      (∃ entry ∈ entries, entry.1 = hash) ∧
      hashOf sha1 salt iterations (label :: encloser) = some nextHash ∧
      nsec3Cover entries nextHash = true ∧
      hashOf sha1 salt iterations (star :: encloser) = some wildcardHash ∧
      nsec3Cover entries wildcardHash = true := by
  unfold nsec3NameError at accepted
  cases found : nsec3ClosestStart sha1 zone qname salt iterations limits entries with
  | none => simp [found] at accepted
  | some start =>
    have inRange := List.mem_range'_1.mp (List.mem_of_find?_eq_some found)
    have matched := List.find?_some found
    have inside : start ≤ qname.labels.length := by omega
    have above := List.drop_suffix start qname.labels
    obtain ⟨label, nextCloser⟩ := Zone.exists_nextCloser above (Zone.drop_ne_self inRange.1 inside)
    have nextCloser_eq := Zone.cons_drop_suffix inRange.1 inside nextCloser
    simp only [found, ancestor_of_le inside, wildcardOf,
      ancestor_of_le (show start - 1 ≤ qname.labels.length by omega),
      Name.fromLabels_of_valid (validLabels_star_cons nextCloser)] at accepted matched
    have inZone : zone.labels <:+ qname.labels.drop start := by
      apply List.suffix_of_suffix_length_le below above
      rw [List.length_drop]
      omega
    cases encloserHashed : nsec3Hash sha1 ⟨qname.labels.drop start, qname.valid.of_suffix above⟩
        salt iterations limits with
    | error error => simp [encloserHashed] at matched
    | ok hash =>
    cases nextHashed : nsec3Hash sha1 ⟨qname.labels.drop (start - 1),
        qname.valid.of_suffix (List.drop_suffix (start - 1) _)⟩ salt iterations limits with
    | error error => simp [nextHashed] at accepted
    | ok nextHash =>
    cases wildcardHashed : nsec3Hash sha1 ⟨star :: qname.labels.drop start,
        validLabels_star_cons nextCloser⟩ salt iterations limits with
    | error error => simp [nextHashed, wildcardHashed] at accepted
    | ok wildcardHash =>
      simp only [encloserHashed, List.any_eq_true, decide_eq_true_eq] at matched
      simp only [nextHashed, wildcardHashed] at accepted
      split at accepted
      · rename_i covered
        rw [Bool.and_eq_true] at covered
        have encloser_eq := ((nsec3Hash_eq_ok_iff _ _ _ _ _).mp encloserHashed).2
        have next_eq := ((nsec3Hash_eq_ok_iff _ _ _ _ _).mp nextHashed).2
        have wildcard_eq := ((nsec3Hash_eq_ok_iff _ _ _ _ _).mp wildcardHashed).2
        simp only [nextCloser_eq] at next_eq
        exact ⟨label, qname.labels.drop start, hash, nextHash, wildcardHash, inZone,
          nextCloser, encloser_eq, matched, next_eq, covered.1, wildcard_eq, covered.2⟩
      · contradiction

theorem nsec3ParamsDiffer_eq_false_iff (first : Nsec3) (entries : List (Octets × Nsec3)) :
    nsec3ParamsDiffer first entries = false ↔
      ∀ entry ∈ entries, entry.2.hashAlgorithm = first.hashAlgorithm ∧
        entry.2.iterations = first.iterations ∧ entry.2.salt = first.salt := by
  simp [nsec3ParamsDiffer, and_assoc]

/-- An accepted proof is inside the zone, and its records are usable, not empty
and of equal parameters. -/
theorem verifyNsec3Denial_eq_ok_iff (zone qname : Name) (qtype : RecordType)
    (records : List ResourceRecord) (responseIsNameError : Bool) (limits : DnssecLimits)
    (denial : Denial) :
    verifyNsec3Denial sha1 zone qname qtype records responseIsNameError limits = .ok denial ↔
      records.length ≤ limits.maxDenialRecords ∧ zone.labels <:+ qname.labels ∧
      ∃ first others, nsec3Entries zone limits records = .ok (first :: others) ∧
        (∀ entry ∈ first :: others, entry.2.hashAlgorithm = first.2.hashAlgorithm ∧
          entry.2.iterations = first.2.iterations ∧ entry.2.salt = first.2.salt) ∧
        nsec3DenialOf sha1 zone qname qtype responseIsNameError first.2.salt
          first.2.iterations limits (first :: others) = .ok denial := by
  unfold verifyNsec3Denial
  split
  · rename_i tooMany
    simp [Nat.not_le.mpr tooMany]
  rename_i fits
  split
  · rename_i outside
    rw [Bool.not_eq_true', ← Bool.not_eq_true, isSuffix_iff] at outside
    simp [outside]
  rename_i inside
  rw [Bool.not_eq_true', Bool.not_eq_false, isSuffix_iff] at inside
  simp only [Nat.le_of_not_lt fits, inside, true_and]
  rcases nsec3Entries zone limits records with error | _ | ⟨first, others⟩
  · simp
  · simp
  simp only [Except.ok.injEq, List.cons.injEq]
  constructor
  · intro accepted
    split at accepted
    · contradiction
    · rename_i same
      rw [Bool.not_eq_true, nsec3ParamsDiffer_eq_false_iff] at same
      exact ⟨first, others, ⟨rfl, rfl⟩, same, accepted⟩
  · rintro ⟨_, _, ⟨rfl, rfl⟩, same, accepted⟩
    rw [(nsec3ParamsDiffer_eq_false_iff _ _).mpr same]
    exact accepted

/-- In a name-error response the no-data loop matches nothing. -/
theorem nsec3DenialOf_nameError {zone qname : Name} {qtype : RecordType} {salt : Octets}
    {iterations : UInt16}
    (accepted : nsec3DenialOf sha1 zone qname qtype true salt iterations limits entries =
      .ok .nameError) :
    nsec3NameError sha1 zone qname salt iterations limits entries = .ok .nameError := by
  unfold nsec3DenialOf at accepted
  cases hashed : nsec3Hash sha1 qname salt iterations limits with
  | error error => simp [hashed] at accepted
  | ok queryHash =>
    have noMatch : nsec3NoData queryHash qtype true entries = .ok none :=
      findNoData_of_noMatch (by simp)
    simpa [hashed, noMatch] using accepted

theorem nsec3DenialOf_noData_iff (zone qname : Name) (qtype : RecordType) (salt : Octets)
    (iterations : UInt16) (limits : DnssecLimits) (entries : List (Octets × Nsec3)) :
    nsec3DenialOf sha1 zone qname qtype false salt iterations limits entries = .ok .noData ↔
      (iterations ≤ limits.maxNsec3Iterations ∧ salt.length ≤ 255) ∧
      ∃ hash, hashOf sha1 salt iterations qname.labels = some hash ∧
        ∃ entry, nsec3NoData hash qtype false entries = .ok (some entry) := by
  unfold nsec3DenialOf
  cases hashed : nsec3Hash sha1 qname salt iterations limits with
  | error error =>
    simp only [reduceCtorEq, false_iff]
    rintro ⟨within, hash, hash_eq, _⟩
    have ok_eq := (nsec3Hash_eq_ok_iff qname salt iterations limits hash).mpr ⟨within, hash_eq⟩
    rw [hashed] at ok_eq
    contradiction
  | ok queryHash =>
    obtain ⟨within, hash_eq⟩ := (nsec3Hash_eq_ok_iff _ _ _ _ _).mp hashed
    simp only [within, hash_eq, Option.some.injEq, true_and, and_self, exists_eq_left']
    generalize nsec3NoData queryHash qtype false entries = result
    rcases result with error | _ | entry <;> simp

end

/-! ## Genuine records -/

section

variable {sha1 : Octets → Option Octets} {zone : Zone Label} {salt : Octets}
  {iterations : UInt16}

/-- The NSEC3 data that the zone publishes for a listed name. -/
structure PublishesNsec3 (chain : zone.HashChain (hashOf sha1 salt iterations))
    (name : List Label) (owner : Octets) (nsec3 : Nsec3) : Prop where
  hashAlgorithm_eq : nsec3.hashAlgorithm = 1
  salt_eq : nsec3.salt = salt
  iterations_eq : nsec3.iterations = iterations
  link : ∃ optOut, nsec3.flags = (if optOut then 1 else 0) ∧
    chain.IsLink optOut name owner nsec3.nextHashedOwner
  types : ∃ blocks : Blocks, nsec3.typeBitmaps = blocks.encode ∧ blocks.has = zone.types name

/-- An NSEC3 record of the zone, at the hash of a listed name. -/
def IsNsec3Record (chain : zone.HashChain (hashOf sha1 salt iterations))
    (record : ResourceRecord) : Prop :=
  record.class_ = classIn ∧ record.recordType = .nsec3 ∧
    ∃ nsec3 name owner, record.rdata = .nsec3 nsec3 ∧
      record.name.labels = Base32Hex.encode owner :: zone.apex ∧
      PublishesNsec3 chain name owner nsec3

variable {hash : Octets}

theorem length_of_hashOf {labels : List Label}
    (hashed : hashOf sha1 salt iterations labels = some hash) : hash.length = 20 := by
  unfold hashOf nsec3Digest at hashed
  split at hashed
  · simp [Except.toOption] at hashed
  split at hashed
  · simp [Except.toOption] at hashed
  · split at hashed
    · rename_i length
      simp only [Except.toOption, Option.some.injEq] at hashed
      exact hashed ▸ length
    · simp [Except.toOption] at hashed

/-- The owner hash of a genuine record is read back from its owner name. -/
theorem nsec3OwnerHash_of_labels {owner apex : Name}
    (labels_eq : owner.labels = Base32Hex.encode hash :: apex.labels) (length : hash.length = 20) :
    nsec3OwnerHash owner apex = some hash := by
  simp [nsec3OwnerHash, labels_eq, decodeBase32hex_encode, length]

variable {chain : zone.HashChain (hashOf sha1 salt iterations)} {apex : Name}
  {records : List ResourceRecord}

/-- Genuine records are usable, with the hash that their owner name encodes. -/
theorem usableNsec3_of_genuine (apex_eq : apex.labels = zone.apex) {record : ResourceRecord}
    (genuine : IsNsec3Record chain record) :
    ∃ nsec3 name owner, validNsec3Record record = some nsec3 ∧
      usableNsec3 apex record = some (owner, nsec3) ∧
      record.name.labels = Base32Hex.encode owner :: zone.apex ∧
      PublishesNsec3 chain name owner nsec3 := by
  obtain ⟨class_eq, type_eq, nsec3, name, owner, rdata_eq, labels_eq, publishes⟩ := genuine
  obtain ⟨_, _, link⟩ := publishes.link
  have ownerHash := nsec3OwnerHash_of_labels (apex_eq ▸ labels_eq) (length_of_hashOf link.owner_eq)
  have valid : validNsec3Record record = some nsec3 := by
    simp [validNsec3Record, class_eq, type_eq, rdata_eq]
  exact ⟨nsec3, name, owner, valid, by simp [usableNsec3, valid, ownerHash], labels_eq, publishes⟩

/-- Entries of genuine records are published data. -/
theorem publishes_of_mem_entries (apex_eq : apex.labels = zone.apex)
    (genuine : ∀ record ∈ records, IsNsec3Record chain record) {entry : Octets × Nsec3}
    (mem : entry ∈ records.filterMap (usableNsec3 apex)) :
    ∃ name, PublishesNsec3 chain name entry.1 entry.2 := by
  obtain ⟨record, recordMem, usable⟩ := List.mem_filterMap.mp mem
  obtain ⟨nsec3, name, owner, _, usable_eq, _, publishes⟩ :=
    usableNsec3_of_genuine apex_eq (genuine record recordMem)
  rw [usable_eq, Option.some.injEq] at usable
  exact ⟨name, usable ▸ publishes⟩

/-- A hash in the interval of a record without opt-out is covered in the
chain. -/
theorem covered_of_nsec3Cover (apex_eq : apex.labels = zone.apex)
    (genuine : ∀ record ∈ records, IsNsec3Record chain record) {name : List Label}
    (name_eq : hashOf sha1 salt iterations name = some hash)
    (covered : nsec3Cover (records.filterMap (usableNsec3 apex)) hash = true) :
    chain.Covered name := by
  obtain ⟨entry, mem, noFlags, between⟩ := (nsec3Cover_iff _ _).mp covered
  obtain ⟨member, publishes⟩ := publishes_of_mem_entries apex_eq genuine mem
  obtain ⟨optOut, flags_eq, link⟩ := publishes.link
  cases optOut with
  | true => exact absurd (noFlags.symm.trans flags_eq) (by decide)
  | false => exact ⟨member, _, _, hash, link, name_eq, between⟩

/-- An accepted name error over genuine records denies the query name and the
wildcard at its closest encloser. -/
theorem verifyNsec3Denial_nameError_denies (zone : Zone Label) (apex : Name)
    (apex_eq : apex.labels = zone.apex) (salt : Octets) (iterations : UInt16)
    (sha1 : Octets → Option Octets)
    (chain : zone.HashChain (hashOf sha1 salt iterations)) (records : List ResourceRecord)
    (genuine : ∀ record ∈ records, IsNsec3Record chain record)
    (qname : Name) (qtype : RecordType) (limits : DnssecLimits)
    (collisionFree :
      Zone.HashChain.CollisionFree zone (hashOf sha1 salt iterations) star qname.labels)
    (accepted : verifyNsec3Denial sha1 apex qname qtype records true limits =
      .ok .nameError) :
    ¬ zone.Occurs qname.labels ∧
      ∀ encloser, zone.IsClosestEncloser qname.labels encloser →
        ¬ zone.Occurs (star :: encloser) := by
  obtain ⟨_, below, first, others, entries_ok, _, denialOf⟩ :=
    (verifyNsec3Denial_eq_ok_iff apex qname qtype records true limits _).mp accepted
  have entries_eq := ((nsec3Entries_eq_ok_iff apex limits records _).mp entries_ok).2.symm
  have nameError := nsec3DenialOf_nameError denialOf
  obtain ⟨_, firstPublishes⟩ := publishes_of_mem_entries apex_eq genuine
    (entries_eq ▸ List.mem_cons_self : first ∈ records.filterMap (usableNsec3 apex))
  rw [firstPublishes.salt_eq, firstPublishes.iterations_eq, ← entries_eq] at nameError
  obtain ⟨label, encloser, hash, nextHash, wildcardHash, inZone, nextCloser, encloser_eq,
    ⟨entry, entryMem, entry_eq⟩, next_eq, nextCovered, wildcard_eq, wildcardCovered⟩ :=
    nsec3NameError_eq_ok below nameError
  obtain ⟨name, publishes⟩ := publishes_of_mem_entries apex_eq genuine entryMem
  obtain ⟨_, _, link⟩ := publishes.link
  apply chain.denies_of_covered collisionFree (apex_eq ▸ inZone) nextCloser encloser_eq
  · exact ⟨name, link.name_mem, entry_eq ▸ link.owner_eq⟩
  · exact covered_of_nsec3Cover apex_eq genuine next_eq nextCovered
  · exact covered_of_nsec3Cover apex_eq genuine wildcard_eq wildcardCovered

end

/-! ## A zone with one delegation -/

namespace CutZone

def apexLabels : List Label :=
  [[101, 120, 97, 109, 112, 108, 101]]

/-- `example.` -/
def apex : Name :=
  ⟨apexLabels, by decide⟩

/-- `sub.example.` -/
def sub : Name :=
  ⟨[115, 117, 98] :: apex.labels, by decide⟩

/-- `a.example.` -/
def absent : Name :=
  ⟨[97] :: apex.labels, by decide⟩

/-- A zone that delegates `sub.example.` -/
def zoneWith (apexTypes subTypes : Blocks) : Zone Label where
  apex := apex.labels
  owners := {apex.labels, sub.labels}
  types name code :=
    (name == apex.labels && apexTypes.has code) || (name == sub.labels && subTypes.has code)
  apex_mem := by decide
  apex_suffix := by decide
  types_mem _ _ := Zone.mem_pair_of_types

theorem types_apex (apexTypes subTypes : Blocks) :
    (zoneWith apexTypes subTypes).types apex.labels = apexTypes.has := by
  have ne : (apex.labels == sub.labels) = false := by decide
  funext code
  simp [zoneWith, ne]

theorem types_sub (apexTypes subTypes : Blocks) :
    (zoneWith apexTypes subTypes).types sub.labels = subTypes.has := by
  have ne : (sub.labels == apex.labels) = false := by decide
  funext code
  simp [zoneWith, ne]

def apexBits : Octets :=
  [0x22, 0, 0, 0, 0, 0x02, 0x90]

/-- NS, SOA, RRSIG, DNSKEY and NSEC3PARAM. -/
def apexTypes : Blocks :=
  ⟨[⟨0, apexBits, by decide, by decide⟩], by simp⟩

/-- NS alone: an unsigned delegation. -/
def subTypes : Blocks :=
  ⟨[⟨0, [0x20], by decide, by decide⟩], by simp⟩

/-- The zone with NSEC3 records. -/
def zone : Zone Label :=
  zoneWith apexTypes subTypes

def apexHash : Octets :=
  [29, 184, 239, 167, 220, 179, 72, 189, 167, 137, 63, 202, 29, 139, 173, 253, 182, 153, 107, 1]

def subHash : Octets :=
  [14, 25, 237, 198, 46, 165, 161, 41, 172, 34, 193, 31, 80, 237, 235, 12, 92, 50, 129, 40]

def absentHash : Octets :=
  [51, 26, 81, 8, 73, 7, 236, 160, 95, 104, 174, 188, 25, 127, 172, 195, 230, 146, 110, 10]

def wildcardHash : Octets :=
  [74, 102, 168, 231, 78, 113, 158, 37, 248, 23, 60, 138, 204, 242, 198, 202, 248, 110, 228, 5]

def absentWildcardHash : Octets :=
  [127, 136, 35, 143, 106, 76, 138, 19, 165, 149, 55, 143, 135, 44, 102, 92, 207, 69, 184, 165]

/-- SHA-1 on the wire forms of the names that the proofs below hash. -/
def sha1 (input : Octets) : Option Octets :=
  List.lookup input
    [(wireOf apex.labels, apexHash), (wireOf sub.labels, subHash),
      (wireOf absent.labels, absentHash), (wireOf (star :: apex.labels), wildcardHash),
      (wireOf (star :: absent.labels), absentWildcardHash)]

theorem hashOf_apex : hashOf sha1 [] 0 apex.labels = some apexHash := by
  rfl

theorem hashOf_sub : hashOf sha1 [] 0 sub.labels = some subHash := by
  rfl

/-- All existing names are listed. -/
def chain : zone.HashChain (hashOf sha1 [] 0) where
  names := {apex.labels, sub.labels}
  existing := by
    intro name mem
    exact ⟨zone.apex_suffix name mem, Zone.occurs_of_mem mem⟩
  hash_inj := by
    intro first firstMem second secondMem value first_eq second_eq
    simp only [Finset.mem_insert, Finset.mem_singleton] at firstMem secondMem
    have ne : apexHash ≠ subHash := by decide
    rcases firstMem with rfl | rfl <;> rcases secondMem with rfl | rfl <;>
      simp_all [hashOf_apex, hashOf_sub]

theorem mem_hashes_iff (hash : Octets) :
    hash ∈ chain.hashes ↔ hash = apexHash ∨ hash = subHash := by
  simp [Zone.HashChain.hashes, chain, hashOf_apex, hashOf_sub, eq_comm]

/-- The record of the apex, which closes the cycle. -/
def apexNsec3 : ResourceRecord where
  name := ⟨Base32Hex.encode apexHash :: apex.labels, by decide +kernel⟩
  recordType := .nsec3
  class_ := classIn
  ttl := 300
  rdata := .nsec3 ⟨1, 0, 0, [], subHash, apexTypes.encode⟩

/-- The record of the delegation. -/
def subNsec3 : ResourceRecord where
  name := ⟨Base32Hex.encode subHash :: apex.labels, by decide +kernel⟩
  recordType := .nsec3
  class_ := classIn
  ttl := 300
  rdata := .nsec3 ⟨1, 0, 0, [], apexHash, subTypes.encode⟩

variable {name : List Label}

/-- Names between the apex and a name one label below it. -/
theorem eq_of_between {label : Label} (below : apex.labels <:+ name)
    (above : name <:+ label :: apex.labels) : name = apex.labels ∨ name = label :: apex.labels := by
  rcases List.suffix_cons_iff.mp above with equal | suffix
  · exact .inr equal
  · exact .inl (suffix.eq_of_length_le below.length_le)

theorem all_listed (below : zone.apex <:+ name) (occurs : zone.Occurs name) :
    name = apex.labels ∨ name = sub.labels := by
  obtain ⟨owner, mem, suffix⟩ := occurs
  simp only [zone, zoneWith, Finset.mem_insert, Finset.mem_singleton] at mem
  rcases mem with rfl | rfl
  · exact .inl (suffix.eq_of_length_le below.length_le)
  · exact eq_of_between below suffix

theorem isLink_apex : chain.IsLink false apex.labels apexHash subHash where
  name_mem := by decide
  owner_eq := hashOf_apex
  successor := by
    refine ⟨(mem_hashes_iff _).mpr (.inl rfl), (mem_hashes_iff _).mpr (.inr rfl), .inr ?_⟩
    simp only [mem_hashes_iff, forall_eq_or_imp, forall_eq]
    decide
  flagged := by
    intro _ other below occurs unlisted
    exact absurd (by simpa [chain] using all_listed below occurs) unlisted

theorem isLink_sub : chain.IsLink false sub.labels subHash apexHash where
  name_mem := by decide
  owner_eq := hashOf_sub
  successor := by
    refine ⟨(mem_hashes_iff _).mpr (.inr rfl), (mem_hashes_iff _).mpr (.inl rfl), .inl ?_⟩
    simp only [mem_hashes_iff, forall_eq_or_imp, forall_eq]
    decide
  flagged := by
    intro _ other below occurs unlisted
    exact absurd (by simpa [chain] using all_listed below occurs) unlisted

theorem isNsec3Record_apexNsec3 : IsNsec3Record chain apexNsec3 :=
  ⟨rfl, rfl, _, _, _, rfl, rfl, rfl, rfl, rfl, ⟨false, rfl, isLink_apex⟩, apexTypes, rfl,
    (types_apex _ _).symm⟩

theorem isNsec3Record_subNsec3 : IsNsec3Record chain subNsec3 :=
  ⟨rfl, rfl, _, _, _, rfl, rfl, rfl, rfl, rfl, ⟨false, rfl, isLink_sub⟩, subTypes, rfl,
    (types_sub _ _).symm⟩

theorem genuine : ∀ record ∈ [subNsec3, apexNsec3], IsNsec3Record chain record := by
  simp [isNsec3Record_apexNsec3, isNsec3Record_subNsec3]

/-- The names that a name error for `a.example.` depends on. -/
theorem mem_of_relevant (relevant : Zone.HashChain.Relevant zone star absent.labels name) :
    name ∈ [apex.labels, sub.labels, absent.labels, star :: apex.labels,
      star :: absent.labels] := by
  obtain ⟨below, occurs | above | ⟨parent, above, rfl⟩⟩ := relevant
  · rcases all_listed below occurs with rfl | rfl <;> simp
  · rcases eq_of_between below above with rfl | rfl <;> simp [absent]
  · rcases List.suffix_cons_iff.mp below with equal | parentBelow
    · exact absurd (List.cons.inj equal).1 (by decide)
    · rcases eq_of_between parentBelow above with rfl | rfl <;> simp [absent]

theorem collisionFree :
    Zone.HashChain.CollisionFree zone (hashOf sha1 [] 0) star absent.labels := by
  have distinct : ∀ first ∈ [apex.labels, sub.labels, absent.labels, star :: apex.labels,
      star :: absent.labels], ∀ second ∈ [apex.labels, sub.labels, absent.labels,
      star :: apex.labels, star :: absent.labels],
      hashOf sha1 [] 0 first = hashOf sha1 [] 0 second → first = second := by
    decide
  intro first second value firstRelevant secondRelevant first_eq second_eq
  exact distinct first (mem_of_relevant firstRelevant) second (mem_of_relevant secondRelevant)
    (first_eq.trans second_eq.symm)

end CutZone

open CutZone in
theorem verifyNsec3Denial_nameError_denies_absent :
    verifyNsec3Denial sha1 apex absent .a [subNsec3, apexNsec3] true .default = .ok .nameError ∧
      ¬ zone.Occurs absent.labels ∧
      ∀ encloser, zone.IsClosestEncloser absent.labels encloser →
        ¬ zone.Occurs (star :: encloser) := by
  have accepted : verifyNsec3Denial sha1 apex absent .a [subNsec3, apexNsec3] true .default =
      .ok .nameError := by
    rfl
  exact ⟨accepted, verifyNsec3Denial_nameError_denies zone apex rfl [] 0 sha1 chain _ genuine
    absent .a .default collisionFree accepted⟩

end HnsDaneEngine.Dnssec
