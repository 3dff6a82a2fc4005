import HnsDaneEngine.Dnssec.Nsec3

/-!
# Owner hashes and the names they come from

The label of an owner hash is its encoding without padding, but the decoder only asks the
bits that remain to be zero, however many they are.  A digit of zero bits behind the encoding
of 20 octets leaves five of them, so the label determines the hash and the hash with the
length of the label determines the label.
-/

namespace HnsDaneEngine.Dnssec

open Wire

/-- A lower-case character with a value is the character of that digit. -/
theorem exists_digitChar_of_value {byte value : UInt8} (lower : toAsciiLowercase byte = byte)
    (value_eq : base32hexValue byte = some value) :
    ∃ digit < 32, byte = Base32Hex.digitChar digit := by
  have every : ∀ code < 256, toAsciiLowercase (UInt8.ofNat code) = UInt8.ofNat code →
      (base32hexValue (UInt8.ofNat code)).isSome →
        ∃ digit < 32, UInt8.ofNat code = Base32Hex.digitChar digit := by
    decide +kernel
  have found := every byte.toNat byte.toNat_lt
  rw [UInt8.ofNat_toNat] at found
  exact found lower (by rw [value_eq, Option.isSome_some])

/-- A lower-case label that is decoded consists of digits. -/
theorem exists_digits_of_decoded {label octets : Octets} {accumulator : UInt32} {bits : Nat}
    (canonical : canonicalLabel label = label)
    (decoded : decodeBase32hexFrom accumulator bits label = some octets) :
    ∃ digits : List Nat, (∀ digit ∈ digits, digit < 32) ∧ label = digits.map Base32Hex.digitChar := by
  induction label generalizing accumulator bits octets with
  | nil => exact ⟨[], by simp, rfl⟩
  | cons byte label ih =>
    rw [canonicalLabel, List.map_cons, List.cons.injEq] at canonical
    rw [decodeBase32hexFrom] at decoded
    cases value_eq : base32hexValue byte with
    | none =>
      rw [value_eq] at decoded
      cases decoded
    | some value =>
      rw [value_eq] at decoded
      rcases exists_digitChar_of_value canonical.1 value_eq with ⟨digit, digit_lt, rfl⟩
      have later : ∃ digits : List Nat, (∀ digit ∈ digits, digit < 32) ∧
          label = digits.map Base32Hex.digitChar := by
        dsimp only at decoded
        split at decoded
        · rcases Option.map_eq_some_iff.mp decoded with ⟨rest, rest_eq, -⟩
          exact ih canonical.2 rest_eq
        · exact ih canonical.2 decoded
      rcases later with ⟨digits, small, rfl⟩
      exact ⟨digit :: digits, List.forall_mem_cons.mpr ⟨digit_lt, small⟩, rfl⟩

/-- Lower-case labels of one length that decode to the same octets are the same. -/
theorem decodeBase32hex_inj {first second octets : Octets}
    (canonical : canonicalLabel first = first) (otherCanonical : canonicalLabel second = second)
    (length_eq : first.length = second.length) (decoded : decodeBase32hex first = some octets)
    (otherDecoded : decodeBase32hex second = some octets) : first = second := by
  rcases exists_digits_of_decoded canonical decoded with ⟨digits, small, rfl⟩
  rcases exists_digits_of_decoded otherCanonical otherDecoded with ⟨others, othersSmall, rfl⟩
  rw [decodeBase32hex, decodeBase32hexFrom_map_digitChar _ small 0 0 (by decide) (by decide)]
    at decoded
  rw [decodeBase32hex, decodeBase32hexFrom_map_digitChar _ othersSmall 0 0 (by decide) (by decide)]
    at otherDecoded
  rw [List.length_map, List.length_map] at length_eq
  rw [(Base32Hex.decodeDigits_inj (by decide) (by decide) (by decide) small othersSmall length_eq
    decoded otherDecoded).2]

theorem nsec3OwnerHash_eq_some {owner zone : Name} {hash : Octets}
    (hash_eq : nsec3OwnerHash owner zone = some hash) :
    ∃ label, owner.labels = label :: zone.labels ∧ decodeBase32hex label = some hash := by
  unfold nsec3OwnerHash at hash_eq
  split at hash_eq
  next => cases hash_eq
  next label rest labels_eq =>
    split at hash_eq
    next rest_eq =>
      cases decoded : decodeBase32hex label with
      | none =>
        rw [decoded] at hash_eq
        cases hash_eq
      | some octets =>
        rw [decoded] at hash_eq
        dsimp only at hash_eq
        split at hash_eq
        next =>
          cases hash_eq
          exact ⟨label, rest_eq ▸ labels_eq, decoded⟩
        next => cases hash_eq
    next => cases hash_eq

/-- The first label of an owner. -/
def hashLabel (owner : Name) : Label :=
  owner.labels.headD []

/-- Two owners with one hash are the same name exactly when their labels have one length, and
every hash is decoded from its encoding. -/
theorem nsec3OwnerHash_injective_iff (first second zone : Name) (hash : Octets)
    (hash_eq : nsec3OwnerHash first zone = some hash)
    (otherHash_eq : nsec3OwnerHash second zone = some hash) :
    (first = second ↔ (hashLabel first).length = (hashLabel second).length) ∧
      ∀ digest : Octets, digest.length = 20 →
        decodeBase32hex (Base32Hex.encode digest) = some digest := by
  constructor
  · rcases nsec3OwnerHash_eq_some hash_eq with ⟨label, labels_eq, decoded⟩
    rcases nsec3OwnerHash_eq_some otherHash_eq with ⟨other, otherLabels_eq, otherDecoded⟩
    constructor
    · rintro rfl
      rfl
    · intro length_eq
      rw [hashLabel, hashLabel, labels_eq, otherLabels_eq] at length_eq
      have canonical := first.valid.canonical label (by rw [labels_eq]; exact List.mem_cons_self)
      have otherCanonical := second.valid.canonical other
        (by rw [otherLabels_eq]; exact List.mem_cons_self)
      have label_eq := decodeBase32hex_inj canonical otherCanonical length_eq decoded otherDecoded
      have same : first.labels = second.labels := by rw [labels_eq, otherLabels_eq, label_eq]
      cases first
      cases second
      cases same
      rfl
  · exact fun digest _ => decodeBase32hex_encode digest

namespace ExampleOwners

def zoneLabels : List Label :=
  [[101, 120, 97, 109, 112, 108, 101]]

def zone : Name :=
  ⟨zoneLabels, by decide⟩

/-- The hash of `example.` in RFC 5155. -/
def hash : Octets :=
  [0x06, 0x53, 0x68, 0xab, 0xee, 0xd7, 0xec, 0x6e, 0x9f, 0xeb, 0xa9, 0x6b, 0x8c, 0x8b, 0xc3, 0xe8,
    0xb7, 0x91, 0xf7, 0x16]

def owner : Name :=
  ⟨Base32Hex.encode hash :: zoneLabels, by decide +kernel⟩

/-- One more character, for five zero bits. -/
def longOwner : Name :=
  ⟨(Base32Hex.encode hash ++ [0x30]) :: zoneLabels, by decide +kernel⟩

theorem owner_hash : nsec3OwnerHash owner zone = some hash := by
  rfl

theorem longOwner_hash : nsec3OwnerHash longOwner zone = some hash := by
  decide +kernel

/-- Different owners have one hash. -/
theorem owners_share_hash :
    ¬ ∀ first second zone : Name, ∀ hash : Octets, nsec3OwnerHash first zone = some hash →
      nsec3OwnerHash second zone = some hash → first = second := by
  intro injective
  have same := injective owner longOwner zone hash owner_hash longOwner_hash
  exact absurd same (by decide)

theorem nsec3OwnerHash_injective_iff_long :
    owner ≠ longOwner ∧ (hashLabel owner).length = 32 ∧ (hashLabel longOwner).length = 33 := by
  have differ : (hashLabel owner).length ≠ (hashLabel longOwner).length := by decide
  have exact_iff := (nsec3OwnerHash_injective_iff owner longOwner zone hash owner_hash
    longOwner_hash).1
  refine ⟨fun same => differ (exact_iff.mp same), ?_, ?_⟩
  · rfl
  · rfl

end ExampleOwners

end HnsDaneEngine.Dnssec
