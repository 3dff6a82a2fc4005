import HnsDaneEngine.Encoding.Codec
import HnsDaneEngine.Primitives.Hash

/-!
# Block headers

A header and its hash.  The hash is composed of three digests of parts of the header;
the digest functions themselves are parameters.
-/

namespace HnsDaneEngine.Primitives

open Codec

/-- 24 octets. -/
structure ExtraNonce where
  bytes : Octets
  length_eq : bytes.length = 24
  deriving DecidableEq

/-- The header of a block. -/
structure BlockHeader where
  nonce : UInt32
  time : UInt64
  prevBlock : Hash
  treeRoot : Hash
  extraNonce : ExtraNonce
  reservedRoot : Hash
  witnessRoot : Hash
  merkleRoot : Hash
  version : UInt32
  bits : UInt32
  mask : Hash
  deriving DecidableEq

/-- The digest functions of the hash, on the concatenation of their parts. -/
structure Digests where
  blake2b256 : Octets → Hash
  blake2b512 : Octets → Octets
  sha3256 : Octets → Hash

/-- `Hash::from_hex` of a constant of the source. -/
def Hash.ofNumber (number : Nat) : Hash :=
  ⟨(leOctets 32 number).reverse, by simp⟩

namespace BlockHeader

def mainnetGenesis : BlockHeader where
  nonce := 0
  time := 1580745078
  prevBlock := .zero
  treeRoot := .zero
  extraNonce := ⟨List.replicate 24 0, by simp⟩
  reservedRoot := .zero
  witnessRoot := .ofNumber 0x1a2c60b9439206938f8d7823782abdb8b211a57431e9c9b6a6365d8d42893351
  merkleRoot := .ofNumber 0x8e4c9756fef2ad10375f360e0560fcc7587eb5223ddf8cd7c7e06e60a1140b15
  version := 0
  bits := 0x1c00ffff
  mask := .zero

variable (digests : Digests) (header : BlockHeader)

def toSubhead : Octets :=
  header.extraNonce.bytes ++ header.reservedRoot.bytes ++ header.witnessRoot.bytes ++
    header.merkleRoot.bytes ++ leOctets 4 header.version.toNat ++ leOctets 4 header.bits.toNat

def subHash : Hash :=
  digests.blake2b256 header.toSubhead

def maskHash : Hash :=
  digests.blake2b256 (header.prevBlock.bytes ++ header.mask.bytes)

def commitHash : Hash :=
  digests.blake2b256 ((header.subHash digests).bytes ++ (header.maskHash digests).bytes)

/-- The first octets of the exclusive or of both roots; no padding is longer than they are. -/
def padding (count : Nat) : Octets :=
  (header.prevBlock.bytes.zipWith (· ^^^ ·) header.treeRoot.bytes).take count

def toPrehead : Octets :=
  leOctets 4 header.nonce.toNat ++ leOctets 8 header.time.toNat ++ header.padding 20 ++
    header.prevBlock.bytes ++ header.treeRoot.bytes ++ (header.commitHash digests).bytes

def shareHash : Hash :=
  let prehead := header.toPrehead digests
  let left := digests.blake2b512 prehead
  let right := digests.sha3256 (prehead ++ header.padding 8)
  digests.blake2b256 (left ++ header.padding 32 ++ right.bytes)

def powHash : Hash :=
  let share := header.shareHash digests
  ⟨share.bytes.zipWith (· ^^^ ·) header.mask.bytes,
    by simp [share.length_eq, header.mask.length_eq]⟩

def hash : Hash :=
  header.powHash digests

end BlockHeader

end HnsDaneEngine.Primitives
