import HnsDaneEngine.Primitives.Hash

/-!
# Urkel proofs: decoding and verification

A proof lists the nodes from the root to a position in the tree, and says what
is at that position: nothing, a skip node whose prefix leaves the key, a leaf of
another key, or the value of the key.  Verification hashes upwards from that
position.  The model returns, next to the verdict, the octet strings that the
run hashed, so that statements about a run can speak of collisions among them.
-/

namespace HnsDaneEngine.Urkel

open Primitives

def maxProofSize : Nat := 256 * 1024

def urkelBits : Nat := 256

def typeDeadend : UInt8 := 0

def typeShort : UInt8 := 1

def typeCollision : UInt8 := 2

def typeExists : UInt8 := 3

/-- What a proof shows of its key. -/
inductive ProofKind
  | inclusion
  | nonInclusion
  deriving DecidableEq

/-- Bits skipped by a node, in as many octets as they need. -/
structure BitPrefix where
  size : Nat
  data : Octets
  data_length : data.length = (size + 7) / 8
  deriving DecidableEq

/-- A sibling and the prefix above it. -/
structure UrkelProofNode where
  bitPrefix : BitPrefix
  hash : Hash
  deriving DecidableEq

/-- How the path ends. -/
inductive ProofBody
  | deadend
  | short (bitPrefix : BitPrefix) (left right : Hash)
  | collision (key valueHash : Hash)
  | exists_ (value : Octets)
  deriving DecidableEq

/-- A proof for one key. -/
structure UrkelProof where
  proofType : UInt8
  depth : Nat
  nodes : List UrkelProofNode
  body : ProofBody
  deriving DecidableEq

/-- Why a proof fails. -/
inductive ProofError
  | tooLarge
  | malformed
  | unsupportedVerifier
  deriving DecidableEq

def hasBit (key : Octets) (index : Nat) : Bool :=
  let byte := (key[index / 8]?).getD 0
  (byte >>> UInt8.ofNat (7 - index % 8)) &&& 1 != 0

namespace BitPrefix

def empty : BitPrefix :=
  ⟨0, [], rfl⟩

def encodedLen (bitPrefix : BitPrefix) : Nat :=
  (if 0x80 ≤ bitPrefix.size then 2 else 1) + bitPrefix.data.length

/-- The number of leading prefix bits that the key has from a depth on. -/
def count (bitPrefix : BitPrefix) (key : Octets) (depth : Nat) : Nat :=
  let keyBits := key.length * 8
  if keyBits ≤ depth then 0
  else
    ((List.range (min bitPrefix.size (keyBits - depth))).takeWhile fun index =>
      hasBit bitPrefix.data index == hasBit key (depth + index)).length

def has (bitPrefix : BitPrefix) (key : Octets) (depth : Nat) : Bool :=
  bitPrefix.count key depth == bitPrefix.size

end BitPrefix

/-! ## Decoding

The cursor of the source is the list of octets not yet read. -/

def readBytes (length : Nat) (input : Octets) : Except ProofError (Octets × Octets) :=
  if input.length < length then .error .malformed
  else .ok (input.take length, input.drop length)

def readU16Le : Octets → Except ProofError (Nat × Octets)
  | low :: high :: rest => .ok (low.toNat + 256 * high.toNat, rest)
  | _ => .error .malformed

def readHash (input : Octets) : Except ProofError (Hash × Octets) :=
  if length_eq : (input.take 32).length = 32 then .ok (⟨input.take 32, length_eq⟩, input.drop 32)
  else .error .malformed

/-- The size field of a prefix, with its own length. -/
def readPrefixSize : Octets → Except ProofError (Nat × Nat × Octets)
  | [] => .error .malformed
  | first :: rest =>
    if first &&& 0x80 != 0 then
      match rest with
      | [] => .error .malformed
      | second :: rest => .ok (((first.toNat - 0x80) <<< 8) ||| second.toNat, 2, rest)
    else .ok (first.toNat, 1, rest)

def readPrefix (input : Octets) : Except ProofError (BitPrefix × Octets) := do
  let (size, sizeLen, rest) ← readPrefixSize input
  if data_length : (rest.take ((size + 7) / 8)).length = (size + 7) / 8 then
    let bitPrefix : BitPrefix := ⟨size, rest.take ((size + 7) / 8), data_length⟩
    -- a short size in the long form is not canonical
    if sizeLen + bitPrefix.data.length ≠ bitPrefix.encodedLen then .error .malformed
    else .ok (bitPrefix, rest.drop ((size + 7) / 8))
  else .error .malformed

/-- A prefix that must not be empty. -/
def readNonemptyPrefix (input : Octets) : Except ProofError (BitPrefix × Octets) := do
  let (bitPrefix, rest) ← readPrefix input
  if bitPrefix.size = 0 ∨ urkelBits < bitPrefix.size then .error .malformed
  else .ok (bitPrefix, rest)

/-- The node loop of `UrkelProof::decode`. -/
def readNodes (bitmap : Octets) :
    Nat → Nat → Octets → Except ProofError (List UrkelProofNode × Octets)
  | _, 0, input => .ok ([], input)
  | index, count + 1, input => do
    let (bitPrefix, rest) ←
      if hasBit bitmap index then readNonemptyPrefix input else .ok (BitPrefix.empty, input)
    let (hash, rest) ← readHash rest
    let (nodes, rest) ← readNodes bitmap (index + 1) count rest
    .ok (⟨bitPrefix, hash⟩ :: nodes, rest)

def readBody (proofType : UInt8) (input : Octets) : Except ProofError (ProofBody × Octets) :=
  if proofType = typeDeadend then .ok (.deadend, input)
  else if proofType = typeShort then do
    let (bitPrefix, rest) ← readNonemptyPrefix input
    let (left, rest) ← readHash rest
    let (right, rest) ← readHash rest
    .ok (.short bitPrefix left right, rest)
  else if proofType = typeCollision then do
    let (key, rest) ← readHash input
    let (valueHash, rest) ← readHash rest
    .ok (.collision key valueHash, rest)
  else if proofType = typeExists then do
    let (size, rest) ← readU16Le input
    let (value, rest) ← readBytes size rest
    .ok (.exists_ value, rest)
  else .error .malformed

namespace UrkelProof

def isSane (proof : UrkelProof) : Bool :=
  if urkelBits < proof.depth ∨ urkelBits < proof.nodes.length then false
  else if proof.nodes.any fun node => urkelBits < node.bitPrefix.size then false
  else
    match proof.body with
    | .deadend => proof.proofType == typeDeadend
    | .short bitPrefix _ _ =>
      proof.proofType == typeShort && 0 < bitPrefix.size && bitPrefix.size ≤ urkelBits
    | .collision _ _ => proof.proofType == typeCollision
    | .exists_ value => proof.proofType == typeExists && value.length ≤ 0xffff

def decode (bytes : Octets) : Except ProofError UrkelProof :=
  if maxProofSize < bytes.length then .error .tooLarge
  else do
    let (field, rest) ← readU16Le bytes
    let proofType := UInt8.ofNat (field >>> 14)
    let depth := field &&& 0x3fff
    if urkelBits < depth then .error .malformed
    else
      let (count, rest) ← readU16Le rest
      if urkelBits < count then .error .malformed
      else
        let (bitmap, rest) ← readBytes ((count + 7) / 8) rest
        let (nodes, rest) ← readNodes bitmap 0 count rest
        let (body, rest) ← readBody proofType rest
        if rest ≠ [] then .error .malformed
        else
          let proof : UrkelProof := ⟨proofType, depth, nodes, body⟩
          if !proof.isSane then .error .malformed else .ok proof

def kind (proof : UrkelProof) : ProofKind :=
  if proof.proofType = typeExists then .inclusion else .nonInclusion

def value (proof : UrkelProof) : Option Octets :=
  match proof.body with
  | .exists_ value => some value
  | _ => none

end UrkelProof

/-- A decoded proof with the root and the name it was requested for. -/
structure ParsedProof where
  kind : ProofKind
  root : Hash
  nameHash : Hash
  payload : Octets
  proof : UrkelProof

namespace ParsedProof

def parseForKey (bytes : Octets) (root nameHash : Hash) : Except ProofError ParsedProof :=
  if maxProofSize < bytes.length then .error .tooLarge
  else
    match UrkelProof.decode bytes with
    | .error error => .error error
    | .ok proof => .ok ⟨proof.kind, root, nameHash, bytes, proof⟩

def value (parsed : ParsedProof) : Option Octets :=
  parsed.proof.value

theorem parseForKey_eq_ok {bytes : Octets} {root nameHash : Hash} {parsed : ParsedProof}
    (accepted : parseForKey bytes root nameHash = .ok parsed) :
    parsed.root = root ∧ parsed.nameHash = nameHash := by
  unfold parseForKey at accepted
  split at accepted
  · contradiction
  · split at accepted
    · contradiction
    · simp only [Except.ok.injEq] at accepted
      subst accepted
      exact ⟨rfl, rfl⟩

end ParsedProof

/-- What `hash_internal` hashes. -/
def internalInput (bitPrefix : BitPrefix) (left right : Hash) : Octets :=
  if bitPrefix.size = 0 then 0x01 :: (left.bytes ++ right.bytes)
  else
    0x02 :: UInt8.ofNat bitPrefix.size :: UInt8.ofNat (bitPrefix.size / 256) ::
      (bitPrefix.data ++ (left.bytes ++ right.bytes))

/-- What `hash_leaf` hashes. -/
def leafInput (key valueHash : Hash) : Octets :=
  0x00 :: (key.bytes ++ valueHash.bytes)

section

/- `blake2b256` stands for the digest of the concatenated parts. -/
variable (blake2b256 : Octets → Hash)

/-- The hash at the position of the proof and the strings hashed for it, or
`none` when the body does not fit the key. -/
def leafRun (key : Hash) (depth : Nat) : ProofBody → Option (Hash × List Octets)
  | .deadend => some (.zero, [])
  | .short bitPrefix left right =>
    if bitPrefix.has key.bytes depth then none
    else
      let input := internalInput bitPrefix left right
      some (blake2b256 input, [input])
  | .collision other valueHash =>
    if other = key then none
    else
      let input := leafInput other valueHash
      some (blake2b256 input, [input])
  | .exists_ value =>
    let input := leafInput key (blake2b256 value)
    some (blake2b256 input, [value, input])

/-- The node loop of `UrkelProof::verify`, from the position towards the root. -/
def climbRun (root key : Hash) (next : Hash) (depth : Nat) (hashed : List Octets) :
    List UrkelProofNode → Bool × List Octets
  | [] => (depth == 0 && next == root, hashed)
  | node :: rest =>
    if depth < node.bitPrefix.size + 1 then (false, hashed)
    else
      let input :=
        if hasBit key.bytes (depth - 1) then internalInput node.bitPrefix node.hash next
        else internalInput node.bitPrefix next node.hash
      let depth := depth - 1 - node.bitPrefix.size
      if !node.bitPrefix.has key.bytes depth then (false, hashed ++ [input])
      else climbRun root key (blake2b256 input) depth (hashed ++ [input]) rest

/-- `UrkelProof::verify` with the strings that it hashed. -/
def UrkelProof.verifyRun (proof : UrkelProof) (root key : Hash) : Bool × List Octets :=
  if !proof.isSane then (false, [])
  else
    match leafRun blake2b256 key proof.depth proof.body with
    | none => (false, [])
    | some (leaf, hashed) =>
      climbRun blake2b256 root key leaf proof.depth hashed proof.nodes.reverse

/-- `UrkelProof::verify`. -/
def UrkelProof.verify (proof : UrkelProof) (root key : Hash) : Bool :=
  (proof.verifyRun blake2b256 root key).1

end

end HnsDaneEngine.Urkel
