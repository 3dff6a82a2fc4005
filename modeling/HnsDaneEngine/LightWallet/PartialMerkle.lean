import HnsDaneEngine.Encoding.Codec
import HnsDaneEngine.Primitives.Checked
import HnsDaneEngine.Primitives.Hash

/-!
# Filtered-block payloads

A payload carries a header, the number of transactions of the block, and a partial
Merkle tree as hashes with flag bits.  The traversal of the tree takes its shape from
the claimed number; it is written once for any kind of nodes and used with digests.
-/

namespace HnsDaneEngine.LightWallet

open Codec Primitives

def maxFilteredBlockTransactions : Nat :=
  1000000 / 60

def maxPartialMerkleFlagBytes : Nat :=
  (maxFilteredBlockTransactions * 2 + 7) / 8

/-- Why evidence is refused. -/
inductive WalletEvidenceError
  | emptyPeerViews
  | peerViewHeaderMismatch
  | peerViewTransactionMismatch
  | peerViewConflict
  | merkleBlockTooLarge
  | decode
  | header
  | transaction
  | wrongHeader
  | zeroTransactions
  | tooManyTransactions
  | tooManyHashes
  | flagsTooSmall
  | exhaustedFlags
  | exhaustedHashes
  | unusedFlagBits
  | unusedHashes
  | merkleRootMismatch
  | duplicateMatchedTransaction
  | unexpectedTransaction
  | duplicateTransactionIndex
  | missingTransactions
  | arithmeticOverflow
  deriving DecidableEq

/-- The header of a block. -/
structure WalletHeaderAnchor where
  height : Nat
  hash : Hash
  previousBlock : Hash
  treeRoot : Hash
  merkleRoot : Hash
  time : Nat
  deriving DecidableEq

/-- Headers and the canonical decoder, which belong to other packages. -/
structure PayloadCodec (Header : Type) where
  headerSize : Nat
  decodeHeader : Octets → Except WalletEvidenceError Header
  blockHash : Header → Hash
  merkleRoot : Header → Hash
  readSlice : Nat → Reader WalletEvidenceError Octets
  readU32Le : Reader WalletEvidenceError Nat
  readCompactUsize : Nat → Reader WalletEvidenceError Nat
  readArray : Reader WalletEvidenceError Hash
  readVarbytes : Nat → Reader WalletEvidenceError Octets
  finish : Reader WalletEvidenceError Unit

def maxMerkleBlockPayloadBytes (headerSize : Nat) : Nat :=
  headerSize + 4 + 9 + maxFilteredBlockTransactions * 32 + 9 + maxPartialMerkleFlagBytes

/-- One transaction hash proven into the Merkle root of the expected header. -/
structure MatchedTransaction where
  hash : Hash
  index : Nat
  deriving DecidableEq

/-- Number of nodes of the tree at a height. -/
def treeWidth (total height : Nat) : Nat :=
  (total + 2 ^ height - 1) / 2 ^ height

theorem one_lt_treeWidth_iff {total height : Nat} :
    1 < treeWidth total height ↔ 2 ^ height < total := by
  have positive : 0 < 2 ^ height := Nat.two_pow_pos height
  unfold treeWidth
  rw [Nat.lt_iff_add_one_le, Nat.le_div_iff_mul_le positive]
  omega

/-- The loop that looks for the height of the root. -/
def treeHeightFrom (total height : Nat) : Nat :=
  if 1 < treeWidth total height then treeHeightFrom total (height + 1) else height
termination_by total - 2 ^ height
decreasing_by
  rename_i wide
  have below : 2 ^ height < total := one_lt_treeWidth_iff.mp wide
  have positive : 0 < 2 ^ height := Nat.two_pow_pos height
  rw [Nat.pow_succ]
  omega

def treeHeight (total : Nat) : Nat :=
  treeHeightFrom total 0

/-- The state of a traversal. -/
structure PartialTreeReader where
  total : Nat
  flags : Octets
  hashes : List Hash
  bitsUsed : Nat
  hashesUsed : Nat
  found : List MatchedTransaction
  matchedHashes : List Hash

namespace PartialTreeReader

def readBit (reader : PartialTreeReader) : Except WalletEvidenceError (Bool × PartialTreeReader) :=
  match reader.flags[reader.bitsUsed / 8]? with
  | none => .error .exhaustedFlags
  | some byte =>
    let bit := byte &&& (1 <<< UInt8.ofNat (reader.bitsUsed % 8)) ≠ 0
    match checkedAdd reader.bitsUsed 1 with
    | none => .error .arithmeticOverflow
    | some bitsUsed => .ok (bit, { reader with bitsUsed })

def readHash (reader : PartialTreeReader) : Except WalletEvidenceError (Hash × PartialTreeReader) :=
  match reader.hashes[reader.hashesUsed]? with
  | none => .error .exhaustedHashes
  | some hash =>
    match checkedAdd reader.hashesUsed 1 with
    | none => .error .arithmeticOverflow
    | some hashesUsed => .ok (hash, { reader with hashesUsed })

/-- Record a matched leaf. -/
def recordMatch (reader : PartialTreeReader) (hash : Hash) (position : Nat) :
    Except WalletEvidenceError PartialTreeReader :=
  if hash ∈ reader.matchedHashes then .error .duplicateMatchedTransaction
  else if 2 ^ 32 ≤ position then .error .arithmeticOverflow
  else
    .ok
      { reader with
        matchedHashes := hash :: reader.matchedHashes
        found := reader.found ++ [⟨hash, position⟩] }

end PartialTreeReader

/-- What a traversal makes of the nodes it visits. -/
structure Nodes (Node : Type) where
  hidden : Hash → Node
  leaf : Hash → Node
  internal : Node → Node → Node
  empty : Node

/-- `hash_leaf`, `hash_internal` and `hash_empty`. -/
def digestNodes (blake2b256 : Octets → Hash) : Nodes Hash where
  hidden hash := hash
  leaf hash := blake2b256 (0 :: hash.bytes)
  internal left right := blake2b256 (1 :: (left.bytes ++ right.bytes))
  empty := blake2b256 []

def traverse {Node : Type} (nodes : Nodes Node) :
    Nat → Nat → PartialTreeReader → Except WalletEvidenceError (Node × PartialTreeReader)
  | 0, position, reader => do
    let (parent, reader) ← reader.readBit
    let (hash, reader) ← reader.readHash
    if parent then
      let reader ← reader.recordMatch hash position
      .ok (nodes.leaf hash, reader)
    else .ok (nodes.hidden hash, reader)
  | height + 1, position, reader => do
    let (parent, reader) ← reader.readBit
    if !parent then
      let (hash, reader) ← reader.readHash
      .ok (nodes.hidden hash, reader)
    else
      match checkedMul position 2 with
      | none => .error .arithmeticOverflow
      | some leftPosition =>
        let (left, reader) ← traverse nodes height leftPosition reader
        match checkedAdd leftPosition 1 with
        | none => .error .arithmeticOverflow
        | some rightPosition =>
          let (right, reader) ←
            if rightPosition < treeWidth reader.total height then
              traverse nodes height rightPosition reader
            else .ok (nodes.empty, reader)
          .ok (nodes.internal left right, reader)

/-- The fields of a payload. -/
structure PartialMerkle where
  total : Nat
  hashes : List Hash
  flags : Octets

namespace PartialMerkle

def reader (payload : PartialMerkle) : PartialTreeReader where
  total := payload.total
  flags := payload.flags
  hashes := payload.hashes
  bitsUsed := 0
  hashesUsed := 0
  found := []
  matchedHashes := []

/-- Traverse the whole tree. -/
def root {Node : Type} (nodes : Nodes Node) (payload : PartialMerkle) :
    Except WalletEvidenceError (Node × PartialTreeReader) :=
  traverse nodes (treeHeight payload.total) 0 payload.reader

end PartialMerkle

variable {Header : Type} (codec : PayloadCodec Header)

/-- The reading half of `decode_partial_merkle`. -/
def readPartialMerkle (expectedHash expectedMerkleRoot : Hash) :
    Reader WalletEvidenceError PartialMerkle := do
  let slice ← codec.readSlice codec.headerSize
  let header ← Reader.lift (codec.decodeHeader slice)
  Reader.ensure (codec.blockHash header = expectedHash ∧
    codec.merkleRoot header = expectedMerkleRoot) .wrongHeader
  let total ← codec.readU32Le
  Reader.ensure (total ≠ 0) .zeroTransactions
  Reader.ensure (total ≤ maxFilteredBlockTransactions) .tooManyTransactions
  let hashCount ← codec.readCompactUsize total
  let hashes ← readMany codec.readArray hashCount
  let flags ← codec.readVarbytes maxPartialMerkleFlagBytes
  codec.finish
  Reader.ensure (hashes.length ≤ total) .tooManyHashes
  Reader.ensure (hashes.length ≤ flags.length * 8) .flagsTooSmall
  pure ⟨total, hashes, flags⟩

/-- A decoded partial tree. -/
structure DecodedPartialMerkle where
  totalTransactions : Nat
  found : List MatchedTransaction

/-- The payload of a whole input. -/
def parsePartialMerkle (input : Octets) (expectedHash expectedMerkleRoot : Hash) :
    Except WalletEvidenceError PartialMerkle :=
  if maxMerkleBlockPayloadBytes codec.headerSize < input.length then .error .merkleBlockTooLarge
  else do
    let (payload, _) ← readPartialMerkle codec expectedHash expectedMerkleRoot input
    .ok payload

variable (blake2b256 : Octets → Hash)

def decodePartialMerkle (input : Octets) (expectedHash expectedMerkleRoot : Hash) :
    Except WalletEvidenceError DecodedPartialMerkle := do
  let payload ← parsePartialMerkle codec input expectedHash expectedMerkleRoot
  let (root, reader) ← payload.root (digestNodes blake2b256)
  if (reader.bitsUsed + 7) / 8 ≠ payload.flags.length then .error .unusedFlagBits
  else if reader.hashesUsed ≠ payload.hashes.length then .error .unusedHashes
  else if root ≠ expectedMerkleRoot then .error .merkleRootMismatch
  else .ok ⟨payload.total, reader.found⟩

/-- Partial-Merkle evidence bound to one locally validated header. -/
structure WalletBlockEvidence where
  header : WalletHeaderAnchor
  totalTransactions : Nat
  found : List MatchedTransaction
  deriving DecidableEq

def WalletBlockEvidence.decodeForAnchor (input : Octets) (header : WalletHeaderAnchor) :
    Except WalletEvidenceError WalletBlockEvidence := do
  let decoded ← decodePartialMerkle codec blake2b256 input header.hash header.merkleRoot
  .ok ⟨header, decoded.totalTransactions, decoded.found⟩

end HnsDaneEngine.LightWallet
