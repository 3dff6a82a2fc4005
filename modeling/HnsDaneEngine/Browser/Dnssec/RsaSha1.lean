import HnsDaneEngine.Browser.Dnssec.Revocation
import Mathlib.Data.Nat.Digits.Lemmas

/-!
# RSA signatures over SHA-1 digests

The signature is a number below the modulus, and its power has exactly one
encoding in as many octets as the modulus has.  The verifier looks at the parts
of that block one after the other; together they are the block that the data
determine, with no octet left open.
-/

namespace HnsDaneEngine.Browser.Dnssec

open Control Wire

@[simp]
theorem natFromBytesBe_append_singleton (bytes : Octets) (byte : UInt8) :
    natFromBytesBe (bytes ++ [byte]) = natFromBytesBe bytes * 256 + byte.toNat := by
  simp [natFromBytesBe]

theorem natFromBytesBe_lt (bytes : Octets) : natFromBytesBe bytes < 256 ^ bytes.length := by
  induction bytes using List.reverseRecOn with
  | nil => decide
  | append_singleton bytes byte ih =>
    have small := byte.toNat_lt
    rw [natFromBytesBe_append_singleton, List.length_append, List.length_singleton, pow_succ]
    omega

theorem bytesBe_natFromBytesBe (bytes : Octets) :
    bytesBe bytes.length (natFromBytesBe bytes) = bytes := by
  induction bytes using List.reverseRecOn with
  | nil => rfl
  | append_singleton bytes byte ih =>
    have small := byte.toNat_lt
    have quotient : (natFromBytesBe bytes * 256 + byte.toNat) / 256 = natFromBytesBe bytes := by
      omega
    have remainder : (natFromBytesBe bytes * 256 + byte.toNat) % 256 = byte.toNat := by
      omega
    rw [natFromBytesBe_append_singleton, List.length_append, List.length_singleton, bytesBe,
      quotient, remainder, ih, UInt8.ofNat_toNat]

variable {count value length : Nat} {exponent modulus publicKey : Octets}

theorem natFromBytesBe_bytesBe (fits : value < 256 ^ count) :
    natFromBytesBe (bytesBe count value) = value := by
  induction count generalizing value with
  | zero =>
    have : value = 0 := by simpa using fits
    rw [this]
    rfl
  | succ count ih =>
    have quotient : value / 256 < 256 ^ count := by
      rw [pow_succ] at fits
      omega
    have remainder : (UInt8.ofNat (value % 256)).toNat = value % 256 := by
      rw [UInt8.toNat_ofNat']
      omega
    rw [bytesBe, natFromBytesBe_append_singleton, ih quotient, remainder]
    omega

/-- The octets of a number are the only ones of their length that stand for it. -/
theorem eq_bytesBe_iff {bytes : Octets} (length_eq : bytes.length = count)
    (fits : value < 256 ^ count) : bytes = bytesBe count value ↔ natFromBytesBe bytes = value := by
  constructor
  · rintro rfl
    exact natFromBytesBe_bytesBe fits
  · rintro rfl
    rw [← length_eq, bytesBe_natFromBytesBe]

/-- `BigUint::to_bytes_be`: the digits without leading zeros, and one octet for zero. -/
def toBytesBe (value : Nat) : Octets :=
  if value = 0 then [0] else ((Nat.digits 256 value).map UInt8.ofNat).reverse

/-- The digits of a number at the end of a block of zeros, if they fit. -/
def leftPadded (length value : Nat) : Option Octets :=
  let bytes := toBytesBe value
  if length < bytes.length then none
  else some (List.replicate (length - bytes.length) 0 ++ bytes)

theorem natFromBytesBe_replicate_zero_append (count : Nat) (bytes : Octets) :
    natFromBytesBe (List.replicate count 0 ++ bytes) = natFromBytesBe bytes := by
  induction count with
  | zero => rfl
  | succ count ih =>
    rw [← ih]
    rfl

theorem natFromBytesBe_toBytesBe (value : Nat) : natFromBytesBe (toBytesBe value) = value := by
  unfold toBytesBe
  split
  next zero =>
    rw [zero]
    rfl
  · have digitsOf : ∀ digits : List Nat, (∀ digit ∈ digits, digit < 256) →
        natFromBytesBe (digits.map UInt8.ofNat).reverse = Nat.ofDigits 256 digits := by
      intro digits small
      induction digits with
      | nil => rfl
      | cons digit rest ih =>
        rw [List.forall_mem_cons] at small
        rw [List.map_cons, List.reverse_cons, natFromBytesBe_append_singleton, ih small.2,
          Nat.ofDigits_cons, UInt8.toNat_ofNat', Nat.mod_eq_of_lt small.1]
        omega
    rw [digitsOf _ (fun digit digitMem => Nat.digits_lt_base (by decide) digitMem),
      Nat.ofDigits_digits]

theorem length_toBytesBe_le (positive : 0 < length) (fits : value < 256 ^ length) :
    (toBytesBe value).length ≤ length := by
  unfold toBytesBe
  split
  · exact positive
  · rw [List.length_reverse, List.length_map]
    exact (Nat.digits_length_le_iff (by decide) value).mpr fits

/-- A number that fits is padded to its octets. -/
theorem leftPadded_eq (positive : 0 < length) (fits : value < 256 ^ length) :
    leftPadded length value = some (bytesBe length value) := by
  have short := length_toBytesBe_le positive fits
  have length_eq : (List.replicate (length - (toBytesBe value).length) (0 : UInt8) ++
      toBytesBe value).length = length := by
    rw [List.length_append, List.length_replicate]
    omega
  unfold leftPadded
  rw [if_neg (Nat.not_lt.mpr short), Option.some.injEq, eq_bytesBe_iff length_eq fits,
    natFromBytesBe_replicate_zero_append, natFromBytesBe_toBytesBe]

/-- The encoding method of the first version: a digest info at the end of a
block, behind padding octets without a gap. -/
def emsaPkcs1V15 (length : Nat) (digestInfo : Octets) : Octets :=
  [0, 1] ++ List.replicate (length - digestInfo.length - 3) 0xff ++ [0] ++ digestInfo

variable {block : Octets}

/-- A block with room splits at its two leading octets and at the separator. -/
theorem exists_parts (room : count + 3 ≤ block.length) :
    ∃ first second padding separator rest,
      block = first :: second :: (padding ++ separator :: rest) ∧
        padding.length = block.length - count - 3 ∧ rest.length = count := by
  rcases block with _ | ⟨first, _ | ⟨second, tail⟩⟩
  · simp at room
  · simp at room
  simp only [List.length_cons] at room ⊢
  have split := List.take_append_drop (tail.length - count - 1) tail
  rcases dropped : tail.drop (tail.length - count - 1) with _ | ⟨separator, rest⟩
  · have length_eq := congrArg List.length dropped
    simp only [List.length_drop, List.length_nil] at length_eq
    omega
  have length_eq := congrArg List.length dropped
  simp only [List.length_drop, List.length_cons] at length_eq
  rw [dropped] at split
  refine ⟨first, second, tail.take (tail.length - count - 1), separator, rest, ?_, ?_, ?_⟩
  · rw [split]
  · rw [List.length_take]
    omega
  · omega

/-- The parts that the verifier looks at are the whole block. -/
theorem parts_iff_eq_emsaPkcs1V15 {digestInfo : Octets}
    (room : digestInfo.length + 3 ≤ block.length) :
    (block[0]? = some 0 ∧ block[1]? = some 1) ∧
        ((block.drop 2).take (block.length - digestInfo.length - 1 - 2)).all (· == 0xff) = true ∧
        block[block.length - digestInfo.length - 1]? = some 0 ∧
        block.drop (block.length - digestInfo.length - 1 + 1) = digestInfo ↔
      block = emsaPkcs1V15 block.length digestInfo := by
  rcases exists_parts room with
    ⟨first, second, padding, separator, rest, block_eq, padding_len, rest_len⟩
  have separatorAt : block.length - digestInfo.length - 1 = padding.length + 2 := by
    omega
  have separator_eq : block[padding.length + 2]? = some separator := by
    simp [block_eq]
  have rest_eq : block.drop (padding.length + 2 + 1) = rest := by
    simp [block_eq, List.drop_append]
  have padding_eq : (block.drop 2).take (padding.length + 2 - 2) = padding := by
    simp [block_eq]
  have first_eq : block[0]? = some first := by
    simp [block_eq]
  have second_eq : block[1]? = some second := by
    simp [block_eq]
  rw [separatorAt, separator_eq, rest_eq, padding_eq, first_eq, second_eq, emsaPkcs1V15,
    ← padding_len, block_eq]
  simp only [Option.some.injEq, List.all_eq_true, beq_iff_eq, List.cons_append, List.nil_append,
    List.append_assoc, List.cons.injEq]
  constructor
  · rintro ⟨⟨rfl, rfl⟩, padded, rfl, rfl⟩
    rw [List.eq_replicate_iff.mpr ⟨rfl, padded⟩, List.length_replicate]
    exact ⟨rfl, rfl, rfl⟩
  · rintro ⟨first_zero, second_one, tail_eq⟩
    rcases List.append_inj tail_eq (List.length_replicate).symm with ⟨padded, after_eq⟩
    rcases List.cons.inj after_eq with ⟨separator_zero, digest_eq⟩
    exact ⟨⟨first_zero, second_one⟩, (List.eq_replicate_iff.mp padded).2, separator_zero, digest_eq⟩

/-- A short element of the distinguished encoding rules. -/
def derElement (tag : UInt8) (value : Octets) : Octets :=
  tag :: UInt8.ofNat value.length :: value

/-- A digest with the object identifier of SHA-1 and the parameter NULL. -/
def sha1DigestInfo (digest : Octets) : Octets :=
  derElement 0x30 (derElement 0x30 (derElement 0x06 [0x2b, 0x0e, 0x03, 0x02, 0x1a] ++
    derElement 0x05 []) ++ derElement 0x04 digest)

theorem rsaSha1DigestInfo_eq {crypto : Crypto} {data : Octets}
    (length_eq : (crypto.sha1 data).length = 20) :
    rsaSha1DigestInfo crypto data = sha1DigestInfo (crypto.sha1 data) := by
  simp [rsaSha1DigestInfo, sha1DigestInfo, derElement, sha1DigestInfoPrefix, length_eq]

/-- RSASSA-PKCS1-v1_5 with the SHA-1 digest info of the data, for a key of the
given octets. -/
structure RsaSha1Valid (crypto : Crypto) (exponent modulus data signature : Octets) :
    Prop where
  length_eq : signature.length = modulus.length
  modulus_ne_zero : natFromBytesBe modulus ≠ 0
  exponent_ne_zero : natFromBytesBe exponent ≠ 0
  representative_lt : natFromBytesBe signature < natFromBytesBe modulus
  room : 11 + (rsaSha1DigestInfo crypto data).length ≤ modulus.length
  block_eq : bytesBe modulus.length
      (natFromBytesBe signature ^ natFromBytesBe exponent % natFromBytesBe modulus) =
    emsaPkcs1V15 modulus.length (rsaSha1DigestInfo crypto data)

theorem natFromBytesBe_nil : natFromBytesBe [] = 0 :=
  rfl

/-- The comparison of the recovered block. -/
theorem verifyBlock_iff {digestInfo : Octets} (length_eq : block.length = length) :
    (if block.length < 3 + rsaPkcs1MinPaddingLen + digestInfo.length ∨
        block[0]? ≠ some 0 ∨ block[1]? ≠ some 1 then false
      else
        let separator := block.length - digestInfo.length - 1
        2 + rsaPkcs1MinPaddingLen ≤ separator &&
          ((block.drop 2).take (separator - 2)).all (· == 0xff) &&
          block[separator]? == some 0 && block.drop (separator + 1) == digestInfo) = true ↔
      11 + digestInfo.length ≤ length ∧ block = emsaPkcs1V15 length digestInfo := by
  unfold rsaPkcs1MinPaddingLen
  subst length_eq
  by_cases room : 11 + digestInfo.length ≤ block.length
  · have separator_le : 2 + 8 ≤ block.length - digestInfo.length - 1 := by
      omega
    have parts := @parts_iff_eq_emsaPkcs1V15 block digestInfo (by omega)
    have notShort : ¬ block.length < 3 + 8 + digestInfo.length := by
      omega
    rw [← parts]
    split
    next refused =>
      constructor
      · intro verified
        cases verified
      · rintro ⟨-, ⟨first_eq, second_eq⟩, -⟩
        rcases refused with short | first_ne | second_ne
        · exact absurd short notShort
        · exact absurd first_eq first_ne
        · exact absurd second_eq second_ne
    next admitted =>
      rw [not_or, not_or, not_not, not_not] at admitted
      simp only [Bool.and_eq_true, decide_eq_true_eq, beq_iff_eq, separator_le, room, true_and,
        admitted.2.1, admitted.2.2, and_assoc]
  · have short : block.length < 3 + 8 + digestInfo.length := by
      omega
    simp only [short, true_or, if_true, room, false_and, Bool.false_eq_true]

theorem verifyRsaSha1Pkcs1V15_iff {crypto : Crypto} {data signature : Octets} :
    verifyRsaSha1Pkcs1V15 crypto exponent modulus data signature = true ↔
      RsaSha1Valid crypto exponent modulus data signature := by
  unfold verifyRsaSha1Pkcs1V15
  split
  next refused =>
    simp only [Bool.or_eq_true, List.isEmpty_iff, bne_iff_ne] at refused
    constructor
    · intro verified
      cases verified
    · intro valid
      rcases refused with (rfl | rfl) | lengths
      · exact absurd natFromBytesBe_nil valid.exponent_ne_zero
      · exact absurd natFromBytesBe_nil valid.modulus_ne_zero
      · exact absurd valid.length_eq lengths
  next admitted =>
    simp only [Bool.or_eq_true, List.isEmpty_iff, bne_iff_ne, not_or, not_not] at admitted
    dsimp only
    split
    next refused =>
      constructor
      · intro verified
        cases verified
      · intro valid
        rcases refused with zero | zero | large
        · exact absurd zero valid.modulus_ne_zero
        · exact absurd zero valid.exponent_ne_zero
        · exact absurd valid.representative_lt (Nat.not_lt.mpr large)
    next numbers =>
      rw [not_or, not_or, Nat.not_le] at numbers
      rcases numbers with ⟨modulus_ne, exponent_ne, representative_lt⟩
      have valid_iff : RsaSha1Valid crypto exponent modulus data signature ↔
          11 + (rsaSha1DigestInfo crypto data).length ≤ modulus.length ∧
            bytesBe modulus.length (natFromBytesBe signature ^ natFromBytesBe exponent %
                natFromBytesBe modulus) =
              emsaPkcs1V15 modulus.length (rsaSha1DigestInfo crypto data) := by
        constructor
        · intro valid
          exact ⟨valid.room, valid.block_eq⟩
        · rintro ⟨room, block_eq⟩
          exact ⟨admitted.2, modulus_ne, exponent_ne, representative_lt, room, block_eq⟩
      rw [valid_iff]
      exact verifyBlock_iff (length_bytesBe _ _)

/-- The octets of a public key: the length of the exponent in one octet or, after
a zero octet, in two, then exponent and modulus. -/
inductive IsRsaPublicKey (exponent modulus publicKey : Octets) : Prop
  | short {length : UInt8} (length_eq : exponent.length = length.toNat) (nonzero : length ≠ 0)
      (nonempty : modulus ≠ []) (octets_eq : publicKey = length :: (exponent ++ modulus))
  | long {high low : UInt8} (length_eq : exponent.length = (u16FromBe high low).toNat)
      (exponent_nonempty : exponent ≠ []) (nonempty : modulus ≠ [])
      (octets_eq : publicKey = 0 :: high :: low :: (exponent ++ modulus))

/-- The form that RFC 3110 prescribes for the length of the exponent. -/
def encodeRsaPublicKey (exponent modulus : Octets) : Octets :=
  if exponent.length ≤ 255 then UInt8.ofNat exponent.length :: (exponent ++ modulus)
  else 0 :: (writeU16Be (UInt16.ofNat exponent.length) ++ (exponent ++ modulus))

/-- The cut behind an exponent of a known length. -/
theorem split_eq_ok_iff {rest : Octets} :
    (if length = 0 then (.error .invalidDnskey : Except DnssecError (Octets × Octets))
      else if rest.length ≤ length then .error .invalidDnskey
      else .ok (rest.take length, rest.drop length)) = .ok (exponent, modulus) ↔
      length ≠ 0 ∧ rest = exponent ++ modulus ∧ exponent.length = length ∧ modulus ≠ [] := by
  rw [guard_eq_ok_iff, guard_eq_ok_iff]
  constructor
  · rintro ⟨nonzero, long, split_eq⟩
    rcases Prod.mk.inj (Except.ok.inj split_eq) with ⟨rfl, rfl⟩
    refine ⟨nonzero, (List.take_append_drop length rest).symm, ?_, ?_⟩
    · rw [List.length_take]
      omega
    · rw [← List.length_pos_iff, List.length_drop]
      omega
  · rintro ⟨nonzero, rfl, rfl, nonempty⟩
    have positive := List.length_pos_iff.mpr nonempty
    refine ⟨nonzero, ?_, ?_⟩
    · rw [List.length_append]
      omega
    · rw [List.take_left, List.drop_left]

theorem parseRsaPublicKey_eq_ok_iff :
    parseRsaPublicKey publicKey = .ok (exponent, modulus) ↔
      IsRsaPublicKey exponent modulus publicKey := by
  unfold parseRsaPublicKey
  dsimp only
  constructor
  · intro parsed
    split at parsed
    · cases parsed
    next length rest =>
      by_cases zero : length = 0
      · rw [if_pos zero] at parsed
        split at parsed
        next high low rest =>
          rcases split_eq_ok_iff.mp parsed with ⟨nonzero, rfl, length_eq, nonempty⟩
          refine .long length_eq ?_ nonempty (by rw [zero])
          rw [← List.length_pos_iff]
          omega
        · cases parsed
      · rw [if_neg zero] at parsed
        rcases split_eq_ok_iff.mp parsed with ⟨-, rfl, length_eq, nonempty⟩
        exact .short length_eq zero nonempty rfl
  · intro encoded
    cases encoded with
    | @short length length_eq nonzero nonempty octets_eq =>
      have toNat_ne : length.toNat ≠ 0 := by
        rw [ne_eq, ← UInt8.toNat_inj] at nonzero
        exact nonzero
      rw [octets_eq]
      dsimp only
      rw [if_neg nonzero, split_eq_ok_iff]
      exact ⟨toNat_ne, rfl, length_eq, nonempty⟩
    | @long high low length_eq exponent_nonempty nonempty octets_eq =>
      have positive := List.length_pos_iff.mpr exponent_nonempty
      rw [octets_eq]
      dsimp only
      rw [if_pos rfl, split_eq_ok_iff]
      exact ⟨by omega, rfl, length_eq, nonempty⟩

/-- The form of RFC 3110 is one of the two. -/
theorem isRsaPublicKey_encode (exponent_nonempty : exponent ≠ []) (fits : exponent.length ≤ 65535)
    (nonempty : modulus ≠ []) :
    IsRsaPublicKey exponent modulus (encodeRsaPublicKey exponent modulus) := by
  have positive := List.length_pos_iff.mpr exponent_nonempty
  unfold encodeRsaPublicKey
  split
  next small =>
    have length_eq : (UInt8.ofNat exponent.length).toNat = exponent.length := by
      rw [UInt8.toNat_ofNat']
      omega
    refine .short length_eq.symm ?_ nonempty rfl
    rw [ne_eq, ← UInt8.toNat_inj, length_eq]
    exact Nat.pos_iff_ne_zero.mp positive
  · refine .long ?_ exponent_nonempty nonempty rfl
    rw [u16FromBe_writeU16Be, UInt16.toNat_ofNat']
    omega

theorem IsRsaPublicKey.unique {otherExponent otherModulus : Octets}
    (encoded : IsRsaPublicKey exponent modulus publicKey)
    (other : IsRsaPublicKey otherExponent otherModulus publicKey) :
    exponent = otherExponent ∧ modulus = otherModulus := by
  have parsed := parseRsaPublicKey_eq_ok_iff.mpr encoded
  rw [parseRsaPublicKey_eq_ok_iff.mpr other] at parsed
  rcases Prod.mk.inj (Except.ok.inj parsed) with ⟨rfl, rfl⟩
  exact ⟨rfl, rfl⟩

/-- Verification is RSASSA-PKCS1-v1_5 with the digest info of SHA-1, over the
block that the source pads the recovered number to, and a public key is read as
the one exponent and modulus that it encodes. -/
theorem verifyRsaSha1Pkcs1V15_spec (crypto : Crypto) :
    (∀ exponent modulus data signature,
      verifyRsaSha1Pkcs1V15 crypto exponent modulus data signature = true ↔
        RsaSha1Valid crypto exponent modulus data signature) ∧
    (∀ data, (crypto.sha1 data).length = 20 →
      rsaSha1DigestInfo crypto data = sha1DigestInfo (crypto.sha1 data)) ∧
    (∀ exponent modulus signature, natFromBytesBe modulus ≠ 0 →
      leftPadded modulus.length
          (natFromBytesBe signature ^ natFromBytesBe exponent % natFromBytesBe modulus) =
        some (bytesBe modulus.length
          (natFromBytesBe signature ^ natFromBytesBe exponent % natFromBytesBe modulus))) ∧
    (∀ publicKey exponent modulus, parseRsaPublicKey publicKey = .ok (exponent, modulus) ↔
      IsRsaPublicKey exponent modulus publicKey ∧
        ∀ otherExponent otherModulus, IsRsaPublicKey otherExponent otherModulus publicKey →
          exponent = otherExponent ∧ modulus = otherModulus) ∧
    ∀ exponent modulus, exponent ≠ [] → exponent.length ≤ 65535 → modulus ≠ [] →
      parseRsaPublicKey (encodeRsaPublicKey exponent modulus) = .ok (exponent, modulus) := by
  refine ⟨fun _ _ _ _ => verifyRsaSha1Pkcs1V15_iff, fun _ => rsaSha1DigestInfo_eq, ?_, ?_, ?_⟩
  · intro exponent modulus signature modulus_ne
    apply leftPadded_eq
    · rw [List.length_pos_iff]
      rintro rfl
      exact modulus_ne natFromBytesBe_nil
    · exact (Nat.mod_lt _ (Nat.pos_iff_ne_zero.mpr modulus_ne)).trans (natFromBytesBe_lt modulus)
  · intro publicKey exponent modulus
    rw [parseRsaPublicKey_eq_ok_iff]
    constructor
    · intro encoded
      exact ⟨encoded, fun _ _ => encoded.unique⟩
    · rintro ⟨encoded, -⟩
      exact encoded
  · intro exponent modulus exponent_nonempty fits nonempty
    exact parseRsaPublicKey_eq_ok_iff.mpr (isRsaPublicKey_encode exponent_nonempty fits nonempty)

namespace ExampleRsa

/-- `abc` -/
def data : Octets :=
  [97, 98, 99]

/-- SHA-1 of the data. -/
def digest : Octets :=
  [169, 153, 62, 54, 71, 6, 129, 106, 186, 62, 37, 113, 120, 80, 194, 108, 156, 208, 216, 157]

def crypto : Crypto :=
  { ExampleZone.active.crypto with sha1 := fun input => if input = data then digest else [] }

/-- The product of two primes of 184 bits. -/
def modulusOctets : Octets :=
  [185, 32, 161, 115, 152, 202, 62, 206, 21, 245, 200, 35, 9, 131, 130, 16, 78, 150, 3, 125, 28, 4,
    136, 8, 232, 191, 61, 238, 93, 119, 220, 153, 57, 228, 185, 117, 7, 141, 170, 187, 204, 138,
    180, 119, 67, 13]

/-- The signature of the data under the exponent 3. -/
def signatureOctets : Octets :=
  [175, 193, 128, 221, 211, 49, 239, 91, 155, 11, 219, 67, 220, 3, 83, 53, 90, 9, 141, 219, 133,
    132, 232, 203, 96, 149, 187, 175, 251, 143, 82, 107, 9, 27, 166, 148, 165, 129, 136, 180, 150,
    53, 140, 185, 35, 100]

theorem exponent_three_verifies :
    verifyRsaSha1Pkcs1V15 crypto [3] modulusOctets data signatureOctets = true ∧
      rsaSha1DigestInfo crypto data = sha1DigestInfo digest ∧
      leftPadded modulusOctets.length
        (natFromBytesBe [5] ^ natFromBytesBe [3] % natFromBytesBe modulusOctets) =
          some (List.replicate 45 0 ++ [125]) ∧
      parseRsaPublicKey (encodeRsaPublicKey [3] modulusOctets) = .ok ([3], modulusOctets) := by
  rcases verifyRsaSha1Pkcs1V15_spec crypto with ⟨verified_iff, digest_eq, padded_eq, -, parsed_eq⟩
  have valid : RsaSha1Valid crypto [3] modulusOctets data signatureOctets := by
    constructor <;> decide +kernel
  exact ⟨(verified_iff _ _ _ _).mpr valid, digest_eq data rfl,
    (padded_eq [3] modulusOctets [5] (by decide +kernel)).trans (by decide +kernel),
    parsed_eq _ _ (by decide) (by decide) (by decide)⟩

end ExampleRsa

end HnsDaneEngine.Browser.Dnssec
