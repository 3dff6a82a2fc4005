import HnsDaneEngine.Encoding.Codec
import HnsDaneEngine.Urkel.Proof
import Mathlib.Data.Nat.Bitwise

/-!
# The wire layout of Urkel proofs

A proof is laid out as a field with its type and depth, the number of its nodes, a bitmap of
the nodes that have a prefix, the nodes, and a body.  The decoder accepts the layouts of sane
proofs and nothing else.  A proof determines its layout except for the bits of the bitmap
behind the last node.
-/

namespace HnsDaneEngine.Urkel

open Codec (leNumber leOctets leOctets_leNumber)
open Control Primitives

/-- A prefix behind its number of bits, which takes two octets from 128 on. -/
def writePrefix (bitPrefix : BitPrefix) : Octets :=
  (if 0x80 ≤ bitPrefix.size then
    [(0x80 : UInt8) ||| UInt8.ofNat (bitPrefix.size >>> 8), UInt8.ofNat bitPrefix.size]
  else [UInt8.ofNat bitPrefix.size]) ++ bitPrefix.data

/-- A node, without its prefix when that is empty. -/
def writeNode (node : UrkelProofNode) : Octets :=
  (if node.bitPrefix.size = 0 then [] else writePrefix node.bitPrefix) ++ node.hash.bytes

def bodyType : ProofBody → UInt8
  | .deadend => typeDeadend
  | .short _ _ _ => typeShort
  | .collision _ _ => typeCollision
  | .exists_ _ => typeExists

def writeBody : ProofBody → Octets
  | .deadend => []
  | .short bitPrefix left right => writePrefix bitPrefix ++ (left.bytes ++ right.bytes)
  | .collision key valueHash => key.bytes ++ valueHash.bytes
  | .exists_ value => leOctets 2 value.length ++ value

/-- The bitmap has a bit for each node, from an index on, that says whether it has a prefix. -/
def Marks (bitmap : Octets) (index : Nat) (nodes : List UrkelProofNode) : Prop :=
  ∀ position node, nodes[position]? = some node →
    (hasBit bitmap (index + position) = true ↔ node.bitPrefix.size ≠ 0)

/-- What a proof is laid out as with a bitmap. -/
def layout (proof : UrkelProof) (bitmap : Octets) : Octets :=
  leOctets 2 (proof.proofType.toNat <<< 14 ||| proof.depth) ++
    (leOctets 2 proof.nodes.length ++
      (bitmap ++ (proof.nodes.flatMap writeNode ++ writeBody proof.body)))

/-- One bit for every prefix. -/
structure IsBitmap (bitmap : Octets) (nodes : List UrkelProofNode) : Prop where
  length_eq : bitmap.length = (nodes.length + 7) / 8
  marks : Marks bitmap 0 nodes

/-- The octets are laid out as the proof. -/
def IsLayout (bytes : Octets) (proof : UrkelProof) : Prop :=
  ∃ bitmap, IsBitmap bitmap proof.nodes ∧ bytes = layout proof bitmap

section

variable {input rest : Octets}

theorem readU16Le_eq_ok_iff {number : Nat} :
    readU16Le input = .ok (number, rest) ↔ number < 2 ^ 16 ∧ input = leOctets 2 number ++ rest := by
  constructor
  · intro read
    rcases input with - | ⟨low, - | ⟨high, input⟩⟩
    · cases read
    · cases read
    simp only [readU16Le, Except.ok.injEq, Prod.mk.injEq] at read
    rcases read with ⟨rfl, rfl⟩
    have low_lt := low.toNat_lt
    have high_lt := high.toNat_lt
    have octets_eq := leOctets_leNumber [low, high]
    simp only [leNumber, List.length_cons, List.length_nil] at octets_eq
    constructor
    · omega
    · rw [show low.toNat + 256 * high.toNat = low.toNat + 256 * (high.toNat + 256 * 0) by omega]
      exact congrArg (· ++ input) octets_eq.symm
  · rintro ⟨small, rfl⟩
    simp only [leOctets, List.cons_append, List.nil_append, readU16Le, UInt8.toNat_ofNat']
    congr
    omega

theorem readBytes_eq_ok_iff {length : Nat} {bytes : Octets} :
    readBytes length input = .ok (bytes, rest) ↔ bytes.length = length ∧ input = bytes ++ rest := by
  rw [readBytes, guard_eq_ok_iff]
  constructor
  · rintro ⟨enough, read⟩
    cases read
    constructor
    · rw [List.length_take]
      omega
    · exact (List.take_append_drop length input).symm
  · rintro ⟨rfl, rfl⟩
    simp

theorem readHash_eq_ok_iff {hash : Hash} :
    readHash input = .ok (hash, rest) ↔ input = hash.bytes ++ rest := by
  constructor
  · intro read
    unfold readHash at read
    split at read
    · cases read
      exact (List.take_append_drop 32 input).symm
    · cases read
  · rintro rfl
    have take_eq : (hash.bytes ++ rest).take 32 = hash.bytes := List.take_left' hash.length_eq
    have drop_eq : (hash.bytes ++ rest).drop 32 = rest := List.drop_left' hash.length_eq
    simp only [readHash, take_eq, drop_eq, hash.length_eq, dif_pos]

theorem high_iff {octet : UInt8} : (octet &&& 0x80 != 0) = true ↔ 0x80 ≤ octet.toNat := by
  have octet_lt := octet.toNat_lt
  have and_eq : (octet &&& 0x80).toNat = (octet.toNat.testBit 7).toNat * 2 ^ 7 :=
    (UInt8.toNat_and octet 0x80).trans (Nat.and_two_pow octet.toNat 7)
  rw [bne_iff_ne, ne_eq, ← UInt8.toNat_inj, and_eq, Nat.toNat_testBit, UInt8.toNat_zero]
  omega

theorem toNat_highOctet {size : Nat} (small : size < 2 ^ 15) :
    ((0x80 : UInt8) ||| UInt8.ofNat (size >>> 8)).toNat = 0x80 + size / 256 := by
  have high_lt : size / 256 < 2 ^ 7 := by omega
  have octet_eq : (UInt8.ofNat (size >>> 8)).toNat = size / 256 := by
    rw [UInt8.toNat_ofNat', Nat.shiftRight_eq_div_pow]
    omega
  rw [UInt8.toNat_or, octet_eq]
  exact (Nat.two_pow_add_eq_or_of_lt high_lt 1).symm

theorem readPrefixSize_low {first : UInt8} (low : ¬ (first &&& 0x80 != 0) = true) :
    readPrefixSize (first :: rest) = .ok (first.toNat, 1, rest) :=
  if_neg low

theorem readPrefixSize_high {first second : UInt8} (high : (first &&& 0x80 != 0) = true) :
    readPrefixSize (first :: second :: rest) =
      .ok ((first.toNat - 0x80) <<< 8 ||| second.toNat, 2, rest) :=
  if_pos high

/-- The octets of the number of bits. -/
theorem readPrefixSize_eq_ok_iff {size sizeLen : Nat} :
    readPrefixSize input = .ok (size, sizeLen, rest) ↔
      (sizeLen = 1 ∧ size < 0x80 ∧ input = UInt8.ofNat size :: rest) ∨
        (sizeLen = 2 ∧ size < 2 ^ 15 ∧
          input = ((0x80 : UInt8) ||| UInt8.ofNat (size >>> 8)) :: UInt8.ofNat size :: rest) := by
  constructor
  · intro read
    rcases input with - | ⟨first, input⟩
    · cases read
    have first_lt := first.toNat_lt
    by_cases high : (first &&& 0x80 != 0) = true
    · rcases input with - | ⟨second, input⟩
      · rw [show readPrefixSize [first] = .error .malformed from if_pos high] at read
        cases read
      rw [readPrefixSize_high high] at read
      have second_lt := second.toNat_lt
      have first_ge := high_iff.mp high
      have size_eq : (first.toNat - 0x80) <<< 8 ||| second.toNat =
          (first.toNat - 0x80) * 256 + second.toNat := by
        rw [← Nat.shiftLeft_add_eq_or_of_lt second_lt, Nat.shiftLeft_eq]
      simp only [Except.ok.injEq, Prod.mk.injEq, size_eq] at read
      rcases read with ⟨rfl, rfl, rfl⟩
      right
      have small : (first.toNat - 0x80) * 256 + second.toNat < 2 ^ 15 := by omega
      have first_eq : (0x80 : UInt8) |||
          UInt8.ofNat (((first.toNat - 0x80) * 256 + second.toNat) >>> 8) = first := by
        rw [← UInt8.toNat_inj, toNat_highOctet small]
        omega
      have second_eq : UInt8.ofNat ((first.toNat - 0x80) * 256 + second.toNat) = second := by
        rw [← UInt8.toNat_inj, UInt8.toNat_ofNat']
        omega
      rw [first_eq, second_eq]
      exact ⟨rfl, small, rfl⟩
    · rw [readPrefixSize_low high] at read
      rw [high_iff, Nat.not_le] at high
      simp only [Except.ok.injEq, Prod.mk.injEq] at read
      rcases read with ⟨rfl, rfl, rfl⟩
      left
      rw [UInt8.ofNat_toNat]
      exact ⟨rfl, high, rfl⟩
  · rintro (⟨rfl, small, rfl⟩ | ⟨rfl, small, rfl⟩)
    · have octet_eq : (UInt8.ofNat size).toNat = size := by
        rw [UInt8.toNat_ofNat']
        omega
      have low : ¬ (UInt8.ofNat size &&& 0x80 != 0) = true := by
        rw [high_iff, octet_eq]
        omega
      rw [readPrefixSize_low low, octet_eq]
    · have octet_eq := toNat_highOctet small
      have high : (((0x80 : UInt8) ||| UInt8.ofNat (size >>> 8)) &&& 0x80 != 0) = true := by
        rw [high_iff, octet_eq]
        omega
      have low_lt : (UInt8.ofNat size).toNat < 2 ^ 8 := UInt8.toNat_lt _
      have size_eq : (0x80 + size / 256 - 0x80) <<< 8 ||| (UInt8.ofNat size).toNat = size := by
        rw [← Nat.shiftLeft_add_eq_or_of_lt low_lt, Nat.shiftLeft_eq, UInt8.toNat_ofNat']
        omega
      rw [readPrefixSize_high high, octet_eq, size_eq]

theorem BitPrefix.ext_data {first second : BitPrefix} (size_eq : first.size = second.size)
    (data_eq : first.data = second.data) : first = second := by
  cases first
  cases second
  cases size_eq
  cases data_eq
  rfl

variable {bitPrefix : BitPrefix}

/-- The number of bits is written as short as it can be. -/
theorem readPrefix_eq_ok_iff :
    readPrefix input = .ok (bitPrefix, rest) ↔
      bitPrefix.size < 2 ^ 15 ∧ input = writePrefix bitPrefix ++ rest := by
  rw [readPrefix, bind_eq_ok_iff]
  constructor
  · rintro ⟨⟨size, sizeLen, middle⟩, size_eq, read⟩
    dsimp only at read
    split at read
    next data_length =>
      rw [guard_eq_ok_iff, not_not] at read
      rcases read with ⟨minimal, read⟩
      cases read
      rw [BitPrefix.encodedLen, Nat.add_right_cancel_iff] at minimal
      rcases readPrefixSize_eq_ok_iff.mp size_eq with ⟨rfl, small, rfl⟩ | ⟨rfl, small, rfl⟩
      · rw [writePrefix, if_neg (Nat.not_le.mpr small), List.append_assoc, List.take_append_drop]
        exact ⟨Nat.lt_trans small (by decide), rfl⟩
      have long : 0x80 ≤ size := by
        by_contra short
        rw [if_neg short] at minimal
        cases minimal
      rw [writePrefix, if_pos long, List.append_assoc, List.take_append_drop]
      exact ⟨small, rfl⟩
    next => cases read
  · rintro ⟨small, rfl⟩
    have take_eq : (bitPrefix.data ++ rest).take ((bitPrefix.size + 7) / 8) = bitPrefix.data :=
      List.take_left' bitPrefix.data_length
    have drop_eq : (bitPrefix.data ++ rest).drop ((bitPrefix.size + 7) / 8) = rest :=
      List.drop_left' bitPrefix.data_length
    have size_eq : readPrefixSize (writePrefix bitPrefix ++ rest) =
        .ok (bitPrefix.size, if 0x80 ≤ bitPrefix.size then 2 else 1, bitPrefix.data ++ rest) := by
      rw [readPrefixSize_eq_ok_iff, writePrefix, List.append_assoc]
      split
      next long => exact .inr ⟨rfl, small, rfl⟩
      next short => exact .inl ⟨rfl, Nat.not_le.mp short, rfl⟩
    refine ⟨_, size_eq, ?_⟩
    dsimp only
    rw [dif_pos (by rw [take_eq, bitPrefix.data_length]), guard_eq_ok_iff, drop_eq]
    have same : (⟨bitPrefix.size, (bitPrefix.data ++ rest).take ((bitPrefix.size + 7) / 8),
        by rw [take_eq, bitPrefix.data_length]⟩ : BitPrefix) = bitPrefix :=
      BitPrefix.ext_data rfl take_eq
    rw [same]
    exact ⟨not_not.mpr (by rw [take_eq, BitPrefix.encodedLen]), rfl⟩

/-- A prefix of 1 to 256 bits. -/
theorem readNonemptyPrefix_eq_ok_iff :
    readNonemptyPrefix input = .ok (bitPrefix, rest) ↔
      (bitPrefix.size ≠ 0 ∧ bitPrefix.size ≤ urkelBits) ∧
        input = writePrefix bitPrefix ++ rest := by
  rw [readNonemptyPrefix, bind_eq_ok_iff]
  constructor
  · rintro ⟨⟨found, middle⟩, prefix_eq, read⟩
    dsimp only at read
    rw [guard_eq_ok_iff, not_or, Nat.not_lt] at read
    rcases read with ⟨sized, read⟩
    cases read
    exact ⟨sized, (readPrefix_eq_ok_iff.mp prefix_eq).2⟩
  · rintro ⟨sized, rfl⟩
    have small : bitPrefix.size < 2 ^ 15 := Nat.lt_of_le_of_lt sized.2 (by decide)
    refine ⟨_, readPrefix_eq_ok_iff.mpr ⟨small, rfl⟩, ?_⟩
    dsimp only
    rw [guard_eq_ok_iff, not_or, Nat.not_lt]
    exact ⟨sized, rfl⟩

variable {nodes : List UrkelProofNode}

theorem marks_cons_iff {bitmap : Octets} {index : Nat} {node : UrkelProofNode} :
    Marks bitmap index (node :: nodes) ↔
      (hasBit bitmap index = true ↔ node.bitPrefix.size ≠ 0) ∧ Marks bitmap (index + 1) nodes := by
  constructor
  · intro marks
    constructor
    · exact marks 0 node rfl
    · intro position later found
      have mark := marks (position + 1) later found
      rwa [← Nat.add_assoc, Nat.add_right_comm] at mark
  · rintro ⟨first, others⟩ position later found
    cases position with
    | zero =>
      cases found
      exact first
    | succ position =>
      have mark := others position later found
      rwa [Nat.add_right_comm] at mark

/-- The prefix of a node, which is there when the bitmap says so. -/
theorem readMarked_eq_ok_iff {marked : Bool} :
    (if marked then readNonemptyPrefix input else .ok (BitPrefix.empty, input)) =
        .ok (bitPrefix, rest) ↔
      (marked = true ↔ bitPrefix.size ≠ 0) ∧ bitPrefix.size ≤ urkelBits ∧
        input = (if bitPrefix.size = 0 then [] else writePrefix bitPrefix) ++ rest := by
  cases marked with
  | true =>
    rw [if_pos rfl, readNonemptyPrefix_eq_ok_iff]
    constructor
    · rintro ⟨⟨nonempty, bounded⟩, rfl⟩
      rw [if_neg nonempty]
      exact ⟨⟨fun _ => nonempty, fun _ => rfl⟩, bounded, rfl⟩
    · rintro ⟨mark, bounded, rfl⟩
      have nonempty := mark.mp rfl
      rw [if_neg nonempty]
      exact ⟨⟨nonempty, bounded⟩, rfl⟩
  | false =>
    rw [if_neg Bool.false_ne_true, Except.ok.injEq, Prod.mk.injEq]
    constructor
    · rintro ⟨rfl, rfl⟩
      exact ⟨⟨nofun, fun some_bits => absurd rfl some_bits⟩, Nat.zero_le _, rfl⟩
    · rintro ⟨mark, -, rfl⟩
      have size_eq : bitPrefix.size = 0 := by
        by_contra some_bits
        cases mark.mpr some_bits
      have data_eq : bitPrefix.data = [] := by
        rw [← List.length_eq_zero_iff, bitPrefix.data_length, size_eq]
      rw [if_pos size_eq]
      exact ⟨BitPrefix.ext_data size_eq.symm data_eq.symm, rfl⟩

theorem readNodes_succ (bitmap : Octets) (index count : Nat) (input : Octets) :
    readNodes bitmap index (count + 1) input =
      (if hasBit bitmap index then readNonemptyPrefix input else .ok (BitPrefix.empty, input)) >>=
        fun prefixed => readHash prefixed.2 >>= fun hashed =>
          readNodes bitmap (index + 1) count hashed.2 >>= fun later =>
            .ok (⟨prefixed.1, hashed.1⟩ :: later.1, later.2) := by
  rw [readNodes]
  split <;> rfl

/-- The nodes have the prefixes that the bitmap says. -/
theorem readNodes_eq_ok_iff {bitmap : Octets} {index count : Nat} :
    readNodes bitmap index count input = .ok (nodes, rest) ↔
      nodes.length = count ∧ Marks bitmap index nodes ∧
        (∀ node ∈ nodes, node.bitPrefix.size ≤ urkelBits) ∧
        input = nodes.flatMap writeNode ++ rest := by
  induction count generalizing index nodes input with
  | zero =>
    rw [readNodes, Except.ok.injEq, Prod.mk.injEq]
    constructor
    · rintro ⟨rfl, rfl⟩
      simp [Marks]
    · rintro ⟨length_eq, -, -, rfl⟩
      rw [List.length_eq_zero_iff.mp length_eq]
      exact ⟨rfl, rfl⟩
  | succ count ih =>
    rw [readNodes_succ, bind_eq_ok_iff]
    constructor
    · rintro ⟨⟨bitPrefix, afterPrefix⟩, prefix_eq, read⟩
      rcases of_bind_ok read with ⟨⟨hash, afterHash⟩, hash_eq, read⟩
      rcases of_bind_ok read with ⟨⟨later, afterNodes⟩, later_eq, read⟩
      cases read
      rcases readMarked_eq_ok_iff.mp prefix_eq with ⟨mark, bounded, rfl⟩
      rw [readHash_eq_ok_iff] at hash_eq
      rcases ih.mp later_eq with ⟨rfl, marks, laterBounded, rfl⟩
      dsimp only at hash_eq ⊢
      rw [marks_cons_iff, List.forall_mem_cons, List.flatMap_cons, hash_eq, writeNode]
      exact ⟨rfl, ⟨mark, marks⟩, ⟨bounded, laterBounded⟩, by simp⟩
    · rintro ⟨length_eq, marks, bounded, rfl⟩
      rcases List.exists_cons_of_length_eq_add_one length_eq with ⟨node, later, rfl⟩
      rw [marks_cons_iff] at marks
      rw [List.forall_mem_cons] at bounded
      rw [List.length_cons, Nat.add_right_cancel_iff] at length_eq
      refine ⟨(node.bitPrefix, node.hash.bytes ++ (later.flatMap writeNode ++ rest)), ?_, ?_⟩
      · rw [readMarked_eq_ok_iff, List.flatMap_cons, writeNode]
        exact ⟨marks.1, bounded.1, by simp⟩
      · have hash_eq : readHash (node.hash.bytes ++ (later.flatMap writeNode ++ rest)) =
            .ok (node.hash, later.flatMap writeNode ++ rest) := readHash_eq_ok_iff.mpr rfl
        have later_eq : readNodes bitmap (index + 1) count (later.flatMap writeNode ++ rest) =
            .ok (later, rest) := ih.mpr ⟨length_eq, marks.2, bounded.2, rfl⟩
        exact bind_ok hash_eq (bind_ok later_eq rfl)

/-- The prefix of a short body has 1 to 256 bits, and a value at most 65535 octets. -/
def Fits : ProofBody → Prop
  | .short bitPrefix _ _ => bitPrefix.size ≠ 0 ∧ bitPrefix.size ≤ urkelBits
  | .exists_ value => value.length < 2 ^ 16
  | _ => True

theorem readBody_eq_ok_iff {proofType : UInt8} {body : ProofBody} :
    readBody proofType input = .ok (body, rest) ↔
      proofType = bodyType body ∧ Fits body ∧ input = writeBody body ++ rest := by
  constructor
  · intro read
    unfold readBody at read
    split at read
    next type_eq =>
      cases read
      exact ⟨type_eq, trivial, rfl⟩
    next =>
      split at read
      next type_eq =>
        rcases of_bind_ok read with ⟨⟨bitPrefix, afterPrefix⟩, prefix_eq, read⟩
        rcases of_bind_ok read with ⟨⟨left, afterLeft⟩, left_eq, read⟩
        rcases of_bind_ok read with ⟨⟨right, afterRight⟩, right_eq, read⟩
        cases read
        rcases readNonemptyPrefix_eq_ok_iff.mp prefix_eq with ⟨fits, rfl⟩
        rw [readHash_eq_ok_iff] at left_eq right_eq
        rw [left_eq, right_eq, writeBody]
        exact ⟨type_eq, fits, by simp⟩
      next =>
        split at read
        next type_eq =>
          rcases of_bind_ok read with ⟨⟨key, afterKey⟩, key_eq, read⟩
          rcases of_bind_ok read with ⟨⟨valueHash, afterValue⟩, value_eq, read⟩
          cases read
          rw [readHash_eq_ok_iff] at key_eq value_eq
          rw [key_eq, value_eq, writeBody]
          exact ⟨type_eq, trivial, by simp⟩
        next =>
          split at read
          next type_eq =>
            rcases of_bind_ok read with ⟨⟨size, afterSize⟩, size_eq, read⟩
            rcases of_bind_ok read with ⟨⟨value, afterValue⟩, value_eq, read⟩
            cases read
            rcases readU16Le_eq_ok_iff.mp size_eq with ⟨small, rfl⟩
            rcases readBytes_eq_ok_iff.mp value_eq with ⟨rfl, octets_eq⟩
            rw [octets_eq, writeBody]
            exact ⟨type_eq, small, by simp⟩
          next => cases read
  · rintro ⟨rfl, fits, rfl⟩
    cases body with
    | deadend => rfl
    | short bitPrefix left right =>
      have prefix_eq : readNonemptyPrefix (writePrefix bitPrefix ++ (left.bytes ++
          (right.bytes ++ rest))) = .ok (bitPrefix, left.bytes ++ (right.bytes ++ rest)) :=
        readNonemptyPrefix_eq_ok_iff.mpr ⟨fits, rfl⟩
      have left_eq : readHash (left.bytes ++ (right.bytes ++ rest)) =
          .ok (left, right.bytes ++ rest) := readHash_eq_ok_iff.mpr rfl
      have right_eq : readHash (right.bytes ++ rest) = .ok (right, rest) :=
        readHash_eq_ok_iff.mpr rfl
      rw [writeBody, List.append_assoc, List.append_assoc, bodyType, readBody, if_neg (by decide),
        if_pos rfl]
      exact bind_ok prefix_eq (bind_ok left_eq (bind_ok right_eq rfl))
    | collision key valueHash =>
      have key_eq : readHash (key.bytes ++ (valueHash.bytes ++ rest)) =
          .ok (key, valueHash.bytes ++ rest) := readHash_eq_ok_iff.mpr rfl
      have value_eq : readHash (valueHash.bytes ++ rest) = .ok (valueHash, rest) :=
        readHash_eq_ok_iff.mpr rfl
      rw [writeBody, List.append_assoc, bodyType, readBody, if_neg (by decide),
        if_neg (by decide), if_pos rfl]
      exact bind_ok key_eq (bind_ok value_eq rfl)
    | exists_ value =>
      have size_eq : readU16Le (leOctets 2 value.length ++ (value ++ rest)) =
          .ok (value.length, value ++ rest) := readU16Le_eq_ok_iff.mpr ⟨fits, rfl⟩
      have value_eq : readBytes value.length (value ++ rest) = .ok (value, rest) :=
        readBytes_eq_ok_iff.mpr ⟨rfl, rfl⟩
      rw [writeBody, List.append_assoc, bodyType, readBody, if_neg (by decide),
        if_neg (by decide), if_neg (by decide), if_pos rfl]
      exact bind_ok size_eq (bind_ok value_eq rfl)

end

section

variable {bytes : Octets} {proof : UrkelProof}

theorem isSane_iff :
    proof.isSane = true ↔ (proof.depth ≤ urkelBits ∧ proof.nodes.length ≤ urkelBits) ∧
        (∀ node ∈ proof.nodes, node.bitPrefix.size ≤ urkelBits) ∧
        proof.proofType = bodyType proof.body ∧ Fits proof.body := by
  have fits : (match proof.body with
      | .deadend => proof.proofType == typeDeadend
      | .short bitPrefix _ _ =>
        proof.proofType == typeShort && 0 < bitPrefix.size && bitPrefix.size ≤ urkelBits
      | .collision _ _ => proof.proofType == typeCollision
      | .exists_ value => proof.proofType == typeExists && value.length ≤ 0xffff) = true ↔
        proof.proofType = bodyType proof.body ∧ Fits proof.body := by
    cases proof.body with
    | deadend => simp [bodyType, Fits]
    | short bitPrefix left right => simp [bodyType, Fits, Nat.pos_iff_ne_zero, and_assoc]
    | collision key valueHash => simp [bodyType, Fits]
    | exists_ value => simp [bodyType, Fits, Nat.lt_succ_iff]
  rw [UrkelProof.isSane]
  split_ifs with large longPrefix
  · simp only [false_iff]
    rintro ⟨⟨depth_le, length_le⟩, -⟩
    exact large.elim (Nat.not_lt.mpr depth_le) (Nat.not_lt.mpr length_le)
  · simp only [false_iff]
    rintro ⟨-, bounded, -⟩
    rcases List.any_eq_true.mp longPrefix with ⟨node, member, long⟩
    exact Nat.not_lt.mpr (bounded node member) (of_decide_eq_true long)
  · rw [not_or, Nat.not_lt, Nat.not_lt] at large
    rw [Bool.not_eq_true, List.any_eq_false] at longPrefix
    refine fits.trans ⟨fun body => ⟨large, ?_, body⟩, fun sane => sane.2.2⟩
    intro node member
    simpa using longPrefix node member

theorem field_eq {field : Nat} (small : field < 2 ^ 16) :
    (UInt8.ofNat (field >>> 14)).toNat <<< 14 ||| (field &&& 0x3fff) = field := by
  have depth_eq : field &&& 0x3fff = field % 2 ^ 14 := Nat.and_two_pow_sub_one_eq_mod field 14
  have depth_lt : field % 2 ^ 14 < 2 ^ 14 := Nat.mod_lt _ (Nat.two_pow_pos 14)
  rw [depth_eq, ← Nat.shiftLeft_add_eq_or_of_lt depth_lt, Nat.shiftLeft_eq, UInt8.toNat_ofNat',
    Nat.shiftRight_eq_div_pow]
  omega

theorem field_parts {proofType : UInt8} {depth : Nat} (type_lt : proofType.toNat < 4)
    (depth_lt : depth < 2 ^ 14) :
    proofType.toNat <<< 14 ||| depth < 2 ^ 16 ∧
      UInt8.ofNat ((proofType.toNat <<< 14 ||| depth) >>> 14) = proofType ∧
      (proofType.toNat <<< 14 ||| depth) &&& 0x3fff = depth := by
  have mask_eq (field : Nat) : field &&& 0x3fff = field % 2 ^ 14 :=
    Nat.and_two_pow_sub_one_eq_mod field 14
  rw [← Nat.shiftLeft_add_eq_or_of_lt depth_lt, Nat.shiftLeft_eq, mask_eq,
    Nat.shiftRight_eq_div_pow, ← UInt8.toNat_inj, UInt8.toNat_ofNat']
  omega

/-- Exactly the layouts of sane proofs are decoded. -/
theorem decode_eq_ok_iff (bounded : bytes.length ≤ maxProofSize) :
    UrkelProof.decode bytes = .ok proof ↔ proof.isSane = true ∧ IsLayout bytes proof := by
  rw [UrkelProof.decode, guard_eq_ok_iff, Nat.not_lt]
  constructor
  · rintro ⟨-, decoded⟩
    rcases of_bind_ok decoded with ⟨⟨field, afterField⟩, field_read, decoded⟩
    rcases of_guard_ok decoded with ⟨-, decoded⟩
    rcases of_bind_ok decoded with ⟨⟨count, afterCount⟩, count_read, decoded⟩
    rcases of_guard_ok decoded with ⟨-, decoded⟩
    rcases of_bind_ok decoded with ⟨⟨bitmap, afterBitmap⟩, bitmap_read, decoded⟩
    rcases of_bind_ok decoded with ⟨⟨nodes, afterNodes⟩, nodes_read, decoded⟩
    rcases of_bind_ok decoded with ⟨⟨body, afterBody⟩, body_read, decoded⟩
    rcases of_guard_ok decoded with ⟨finished, decoded⟩
    rcases of_guard_ok decoded with ⟨sane, decoded⟩
    cases decoded
    rcases readU16Le_eq_ok_iff.mp field_read with ⟨field_lt, rfl⟩
    rcases readU16Le_eq_ok_iff.mp count_read with ⟨-, count_eq⟩
    rcases readBytes_eq_ok_iff.mp bitmap_read with ⟨length_eq, bitmap_eq⟩
    rcases readNodes_eq_ok_iff.mp nodes_read with ⟨rfl, marks, -, nodes_eq⟩
    rcases readBody_eq_ok_iff.mp body_read with ⟨-, -, body_eq⟩
    refine ⟨by simpa using sane, bitmap, ⟨length_eq, marks⟩, ?_⟩
    rw [layout, field_eq field_lt, count_eq, bitmap_eq, nodes_eq, body_eq, not_not.mp finished,
      List.append_nil]
  · rintro ⟨sane, bitmap, isBitmap, rfl⟩
    rcases isSane_iff.mp sane with ⟨⟨depth_le, length_le⟩, prefixes, type_eq, fits⟩
    have type_lt : proof.proofType.toNat < 4 := by
      rw [type_eq]
      cases proof.body <;> exact Nat.lt_of_sub_eq_succ rfl
    have depth_lt : proof.depth < 2 ^ 14 := Nat.lt_of_le_of_lt depth_le (by decide)
    have count_lt : proof.nodes.length < 2 ^ 16 := Nat.lt_of_le_of_lt length_le (by decide)
    rcases field_parts type_lt depth_lt with ⟨field_lt, type_read, depth_read⟩
    have nodes_read := readNodes_eq_ok_iff.mpr
      ⟨rfl, isBitmap.marks, prefixes, (rfl : _ = _ ++ writeBody proof.body)⟩
    have body_read : readBody proof.proofType (writeBody proof.body) = .ok (proof.body, []) :=
      readBody_eq_ok_iff.mpr ⟨type_eq, fits, (List.append_nil _).symm⟩
    refine ⟨bounded, bind_ok (readU16Le_eq_ok_iff.mpr ⟨field_lt, rfl⟩) ?_⟩
    dsimp only
    rw [depth_read, type_read]
    refine guard_eq_ok_iff.mpr ⟨Nat.not_lt.mpr depth_le, ?_⟩
    refine bind_ok (readU16Le_eq_ok_iff.mpr ⟨count_lt, rfl⟩) ?_
    refine guard_eq_ok_iff.mpr ⟨Nat.not_lt.mpr length_le, ?_⟩
    refine bind_ok (readBytes_eq_ok_iff.mpr ⟨isBitmap.length_eq, rfl⟩) ?_
    refine bind_ok nodes_read (bind_ok body_read ?_)
    refine guard_eq_ok_iff.mpr ⟨not_not.mpr rfl, guard_eq_ok_iff.mpr ⟨?_, rfl⟩⟩
    rw [sane]
    exact Bool.false_ne_true

/-- Two strings are equal except for bits of a bitmap behind those of so many nodes. -/
def SameUpToBitmap (count : Nat) (first second : Octets) : Prop :=
  ∃ front bitmap other back, first = front ++ (bitmap ++ back) ∧
    second = front ++ (other ++ back) ∧ front.length = 4 ∧
    bitmap.length = (count + 7) / 8 ∧ other.length = (count + 7) / 8 ∧
    ∀ index < count, hasBit bitmap index = hasBit other index

/-- Layouts of one proof differ in unused bits of the bitmap only. -/
theorem sameUpToBitmap_of_isLayout {first second : Octets} (isLayout : IsLayout first proof)
    (otherLayout : IsLayout second proof) : SameUpToBitmap proof.nodes.length first second := by
  rcases isLayout with ⟨bitmap, isBitmap, rfl⟩
  rcases otherLayout with ⟨other, otherBitmap, rfl⟩
  refine ⟨leOctets 2 (proof.proofType.toNat <<< 14 ||| proof.depth) ++
    leOctets 2 proof.nodes.length, bitmap, other, proof.nodes.flatMap writeNode ++
      writeBody proof.body, ?_, ?_, rfl, isBitmap.length_eq, otherBitmap.length_eq, ?_⟩
  · rw [layout, List.append_assoc]
  · rw [layout, List.append_assoc]
  intro index inside
  have found := List.getElem?_eq_getElem inside
  have mark := isBitmap.marks index _ found
  have otherMark := otherBitmap.marks index _ found
  rw [Nat.zero_add] at mark otherMark
  rw [Bool.eq_iff_iff, mark, otherMark]

/-- Exactly the layouts of sane proofs are decoded, and octets that decode to one proof are equal
except for unused bits of the bitmap. -/
theorem decode_exact (first : Octets) (bounded : first.length ≤ maxProofSize) (proof : UrkelProof) :
    (UrkelProof.decode first = .ok proof ↔ proof.isSane = true ∧ IsLayout first proof) ∧
      ∀ second, UrkelProof.decode first = .ok proof → UrkelProof.decode second = .ok proof →
        SameUpToBitmap proof.nodes.length first second := by
  constructor
  · exact decode_eq_ok_iff bounded
  · intro second decoded otherDecoded
    have otherBounded : second.length ≤ maxProofSize := by
      rw [UrkelProof.decode, guard_eq_ok_iff, Nat.not_lt] at otherDecoded
      exact otherDecoded.1
    exact sameUpToBitmap_of_isLayout ((decode_eq_ok_iff bounded).mp decoded).2
      ((decode_eq_ok_iff otherBounded).mp otherDecoded).2

end

/-! A node with a prefix of 128 bits, the first that takes two octets for its number of bits. -/

namespace ExampleLayout

def longPrefix : BitPrefix :=
  ⟨128, List.replicate 16 0xa5, rfl⟩

def proof : UrkelProof :=
  ⟨typeDeadend, 129, [⟨longPrefix, .zero⟩], .deadend⟩

/-- The layout with a bitmap of one octet, of which one bit is used. -/
def bytes (bitmap : UInt8) : Octets :=
  [129, 0, 1, 0, bitmap, 0x80, 128] ++ (longPrefix.data ++ Hash.zero.bytes)

theorem decode_bytes_used : UrkelProof.decode (bytes 0x80) = .ok proof := by
  decide

theorem decode_bytes_padded : UrkelProof.decode (bytes 0xff) = .ok proof := by
  decide

theorem decode_exact_padded :
    proof.isSane = true ∧ IsLayout (bytes 0x80) proof ∧ bytes 0x80 ≠ bytes 0xff ∧
      SameUpToBitmap 1 (bytes 0x80) (bytes 0xff) := by
  rcases decode_exact (bytes 0x80) (by decide) proof with ⟨exact_iff, same⟩
  rcases exact_iff.mp decode_bytes_used with ⟨sane, isLayout⟩
  exact ⟨sane, isLayout, by decide, same (bytes 0xff) decode_bytes_used decode_bytes_padded⟩

end ExampleLayout

end HnsDaneEngine.Urkel
