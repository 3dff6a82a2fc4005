import HnsDaneEngine.Browser.Chain.Store
import Mathlib.Data.List.Sort

/-!
# The header chain

Headers enter a store after their difficulty, proof of work and checkpoint have been
checked against their ancestors.  The chain with the most work is the canonical one.
Headers come one by one or in batches; a batch is checked as a whole before the store is
written, with its own headers as possible parents.
-/

namespace HnsDaneEngine.Browser.Chain

open Control Data Primitives

/-- What the chain asks of a header. -/
inductive DifficultyPolicy
  | mainnet
  | permissive
  deriving DecidableEq

def mainnetPowBits : UInt32 := 0x1c00ffff

def mainnetTargetSpacing : Nat := 10 * 60

def mainnetBlocksPerDay : Nat := 144

def mainnetMinActualTimespan : Nat := 36 * mainnetTargetSpacing

def mainnetMaxActualTimespan : Nat := 576 * mainnetTargetSpacing

/-- Heights and hashes of the checkpoints. -/
def mainnetCheckpoints : List (Nat × Nat) :=
  [(1008, 0x0000000000001013c28fa079b545fb805f04c496687799b98e35e83cbbb8953e),
    (2016, 0x0000000000000424ee6c2a5d6e0da5edfc47a4a10328c1792056ee48303c3e40),
    (10000, 0x00000000000001a86811a6f520bf67cefa03207dc84fd315f58153b28694ec51),
    (20000, 0x0000000000000162c7ac70a582256f59c189b5c90d8e9861b3f374ed714c58de),
    (30000, 0x0000000000000004f790862846b23c3a81585aea0fa79a7d851b409e027bcaa7),
    (40000, 0x0000000000000002966206a40b10a575cb46531253b08dae8e1b356cfa277248),
    (50000, 0x00000000000000020c7447e7139feeb90549bfc77a7f18d4ff28f327c04f8d6e),
    (56880, 0x0000000000000001d4ef9ea6908bb4eb970d556bd07cbd7d06a634e1cd5bbf4e),
    (61043, 0x00000000000000015b84385e0307370f8323420eaa27ef6e407f2d3162f1fd05),
    (100000, 0x000000000000000136d7d3efa688072f40d9fdd71bd47bb961694c0f38950246),
    (130000, 0x0000000000000005ee5106df9e48bcd232a1917684ac344b35ddd9b9e4101096),
    (160000, 0x00000000000000021e723ce5aedc021ab4f85d46a6914e40148f01986baa46c9),
    (200000, 0x000000000000000181ebc18d6c34442ffef3eedca90c57ca8ecc29016a1cfe16),
    (225000, 0x00000000000000021f0be013ebad018a9ef97c8501766632f017a778781320d5),
    (258026, 0x0000000000000004963d20732c58e5a91cb7e1b61ec6709d031f1a5ca8c55b95)]

def mainnetCheckpointHash (height : Nat) : Option Hash :=
  (mainnetCheckpoints.find? fun checkpoint => checkpoint.1 = height).map fun checkpoint =>
    .ofNumber checkpoint.2

/-- `u32::checked_add(1)`. -/
def nextHeight (height : Nat) : Option Nat :=
  if height + 1 < 2 ^ 32 then some (height + 1) else none

/-- The `?` on a result of the proof-of-work functions. -/
def liftPow {α : Type} : Except PowError α → Except ChainError α
  | .error error => .error (.pow error)
  | .ok value => .ok value

/-! ## Ancestors

The headers among which ancestors are looked up are those of a store, or those of a store
and of a batch that is not yet written.
-/

section

variable (lookup : Hash → Option StoredHeader)

def previous (header : StoredHeader) : Except ChainError StoredHeader :=
  match lookup header.header.prevBlock with
  | none => .error .unknownParent
  | some parent =>
    if nextHeight parent.height ≠ some header.height then .error .invalidDifficultyWindow
    else .ok parent

/-- The loop of `ancestor_with_pending`: every round goes down one height. -/
def ancestorBack : Nat → StoredHeader → Except ChainError StoredHeader
  | 0, current => .ok current
  | rounds + 1, current => do
    let parent ← previous lookup current
    ancestorBack rounds parent

def ancestor (header : StoredHeader) (height : Nat) : Except ChainError StoredHeader :=
  if header.height < height then .error .invalidDifficultyWindow
  else ancestorBack lookup (header.height - height) header

/-- The middle one, by time, of three headers; the sort is stable. -/
def middleBlock (first second third : StoredHeader) : StoredHeader :=
  ([first, second, third].mergeSort fun left right =>
    left.header.time ≤ right.header.time).get ⟨1, by simp⟩

def suitableBlock (header : StoredHeader) : Except ChainError StoredHeader := do
  let second ← previous lookup header
  let first ← previous lookup second
  .ok (middleBlock first second header)

/-- The loop of `canonical_chain_to`, from a header at a height down to height zero. -/
def chainDown : Nat → StoredHeader → Except ChainError (List StoredHeader)
  | 0, current => .ok [current]
  | height + 1, current => do
    let parent ← previous lookup current
    let headers ← chainDown height parent
    .ok (current :: headers)

/-- The chain of a header, from its lowest ancestor on. -/
def canonicalChainTo (hash : Hash) : Except ChainError (List StoredHeader) :=
  match lookup hash with
  | none => .error .missingBestHeader
  | some tip => do
    let headers ← chainDown lookup tip.height tip
    .ok headers.reverse

end

def retargetBits (first last : StoredHeader) : Except ChainError UInt32 :=
  if last.height ≤ first.height then .error .invalidDifficultyWindow
  else
    let actualTimespan := last.header.time.toNat - first.header.time.toNat
    let actualTimespan := min mainnetMaxActualTimespan (max mainnetMinActualTimespan actualTimespan)
    match last.chainwork.checkedSub first.chainwork with
    | none => .error .invalidDifficultyWindow
    | some difference =>
      match (difference.mulU64 mainnetTargetSpacing).divU64 actualTimespan with
      | none => .error .invalidDifficultyWindow
      | some work =>
        if work.value = 0 then .ok mainnetPowBits
        else do
          let target ← liftPow (targetForWork work)
          let limit ← liftPow (Target.fromCompact mainnetPowBits)
          .ok (if limit.value < target.value then mainnetPowBits else target.toCompact)

def expectedMainnetBits (lookup : Hash → Option StoredHeader) (parent : StoredHeader) :
    Except ChainError UInt32 :=
  if parent.height < mainnetBlocksPerDay + 2 then .ok mainnetPowBits
  else do
    let last ← suitableBlock lookup parent
    let dayBefore ← ancestor lookup parent (parent.height - mainnetBlocksPerDay)
    let first ← suitableBlock lookup dayBefore
    retargetBits first last

section

variable (policy : DifficultyPolicy)

def validateDifficultyBits (lookup : Hash → Option StoredHeader) (header : BlockHeader)
    (parent : StoredHeader) : Except ChainError Unit :=
  match policy with
  | .permissive => .ok ()
  | .mainnet => do
    let expected ← expectedMainnetBits lookup parent
    if header.bits ≠ expected then .error (.invalidDifficultyBits header.bits expected)
    else .ok ()

def validateCheckpoint (height : Nat) (hash : Hash) : Except ChainError Unit :=
  match policy with
  | .permissive => .ok ()
  | .mainnet =>
    match mainnetCheckpointHash height with
    | none => .ok ()
    | some expected =>
      if hash ≠ expected then .error (.invalidCheckpoint height hash expected) else .ok ()

def validateGenesis (header : BlockHeader) : Except ChainError Unit :=
  if policy = .mainnet ∧ header ≠ .mainnetGenesis then .error .invalidGenesisHeader else .ok ()

def requirePow (hash : Hash) (bits : UInt32) : Except ChainError Unit := do
  let enough ← liftPow (verifyPow hash bits)
  if enough then .ok () else .error .invalidProofOfWork

end

section

variable (digests : Digests) (policy : DifficultyPolicy)

/-- The part of `insert_header` before the store is written. -/
def checkHeader (lookup : Hash → Option StoredHeader) (header : BlockHeader) :
    Except ChainError StoredHeader :=
  match lookup header.prevBlock with
  | none => .error .unknownParent
  | some parent =>
    let hash := header.hash digests
    match nextHeight parent.height with
    | none => .error .invalidDifficultyWindow
    | some height => do
      validateDifficultyBits policy lookup header parent
      requirePow hash header.bits
      validateCheckpoint policy height hash
      let work ← liftPow (Chainwork.fromBits header.bits)
      .ok { hash, header, height, chainwork := parent.chainwork.checkedAdd work }

/-- What the loop of `insert_headers` has collected. -/
structure Batch where
  accepted : List StoredHeader
  pending : Store Hash StoredHeader
  seen : List Hash
  chainworkByBits : Store UInt32 Chainwork

namespace Batch

def empty : Batch :=
  ⟨[], ∅, [], ∅⟩

/-- A header of the batch, or else of the store. -/
def lookup (batch : Batch) (stored : Hash → Option StoredHeader) (hash : Hash) :
    Option StoredHeader :=
  (batch.pending.lookup hash).or (stored hash)

/-- The work of compact bits, looked up among those computed before. -/
def headerWork (batch : Batch) (bits : UInt32) :
    Except ChainError (Chainwork × Store UInt32 Chainwork) :=
  match batch.chainworkByBits.lookup bits with
  | some work => .ok (work, batch.chainworkByBits)
  | none => do
    let work ← liftPow (Chainwork.fromBits bits)
    .ok (work, batch.chainworkByBits.insert bits work)

/-- One round of the loop.  Headers that were there before are skipped. -/
def add (stored : Hash → Option StoredHeader) (batch : Batch) (header : BlockHeader) :
    Except ChainError Batch :=
  let hash := header.hash digests
  if hash ∈ batch.seen ∨ (stored hash).isSome then
    .ok { batch with seen := batch.seen.insert hash }
  else
    match batch.lookup stored header.prevBlock with
    | none => .error .unknownParent
    | some parent => do
      validateDifficultyBits policy (batch.lookup stored) header parent
      requirePow hash header.bits
      match nextHeight parent.height with
      | none => .error .invalidDifficultyWindow
      | some height => do
        validateCheckpoint policy height hash
        let (work, chainworkByBits) ← batch.headerWork header.bits
        let accepted : StoredHeader :=
          { hash, header, height, chainwork := parent.chainwork.checkedAdd work }
        .ok
          { accepted := batch.accepted ++ [accepted]
            pending := batch.pending.insert hash accepted
            seen := batch.seen.insert hash
            chainworkByBits }

def addAll (stored : Hash → Option StoredHeader) (batch : Batch) :
    List BlockHeader → Except ChainError Batch
  | [] => .ok batch
  | header :: headers => do
    let batch ← add digests policy stored batch header
    addAll stored batch headers

end Batch

/-- `Iterator::max_by` on the work of numbered headers: of several with the most work it is
the last one. -/
def heaviest : List (StoredHeader × Nat) → Option (StoredHeader × Nat)
  | [] => none
  | first :: rest => some (rest.foldl (fun left right =>
    if right.1.chainwork.value < left.1.chainwork.value then left else right) first)

def shouldPromote (best : Option StoredHeader) (candidate : StoredHeader) : Bool :=
  match best with
  | none => true
  | some best => best.chainwork.value < candidate.chainwork.value

/-- The header is a child of the best one. -/
def extendsBest (best : Option StoredHeader) (header : StoredHeader) : Bool :=
  match best with
  | none => false
  | some best => header.header.prevBlock = best.hash

/-- The first header is a child of the best one, and every other of the one before it. -/
def batchExtendsBest (best : Option StoredHeader) (accepted : List StoredHeader)
    (bestIndex : Nat) : Bool :=
  match accepted.head? with
  | none => false
  | some first =>
    extendsBest best first &&
      decide ((accepted.take (bestIndex + 1)).IsChain fun header child =>
        child.header.prevBlock = header.hash)

variable {S : Type} [HeaderStore S]

open HeaderStore

def bestHeader (store : S) : Except ChainError (Option StoredHeader) :=
  match bestHash store with
  | none => .ok none
  | some hash =>
    match getHeader store hash with
    | none => .error .missingBestHeader
    | some header => .ok (some header)

def promoteBestHash (hash : Hash) : Effect S ChainError Unit := do
  let store ← Effect.get
  let headers ← Effect.ofExcept (canonicalChainTo (getHeader store) hash)
  replaceCanonicalChain headers

def insertGenesis (header : BlockHeader) : Effect S ChainError StoredHeader := do
  Effect.ofExcept (validateGenesis policy header)
  let chainwork ← Effect.ofExcept (liftPow (Chainwork.fromBits header.bits))
  let stored : StoredHeader := { hash := header.hash digests, header, height := 0, chainwork }
  putHeader stored
  promoteBestHash stored.hash
  pure stored

def promoteHeader (best : Option StoredHeader) (stored : StoredHeader) : Effect S ChainError Unit :=
  if shouldPromote best stored then
    if extendsBest best stored then promoteCanonicalTip stored else promoteBestHash stored.hash
  else pure ()

def insertHeader (header : BlockHeader) : Effect S ChainError StoredHeader := do
  let store ← Effect.get
  let stored ← Effect.ofExcept (checkHeader digests policy (getHeader store) header)
  putHeader stored
  let store ← Effect.get
  let best ← Effect.ofExcept (bestHeader store)
  promoteHeader best stored
  pure stored

def bestCandidate (accepted : List StoredHeader) : Except ChainError (StoredHeader × Nat) :=
  match heaviest accepted.zipIdx with
  | none => .error .missingBestHeader
  | some candidate => .ok candidate

def promoteBatch (best : Option StoredHeader) (accepted : List StoredHeader)
    (candidate : StoredHeader) (bestIndex : Nat) : Effect S ChainError Unit :=
  if shouldPromote best candidate then
    if batchExtendsBest best accepted bestIndex then
      promoteCanonicalTips (accepted.take (bestIndex + 1))
    else promoteBestHash candidate.hash
  else pure ()

/-- The second part of `insert_headers`, for at least one new header. -/
def writeBatch (accepted : List StoredHeader) : Effect S ChainError Unit := do
  let store ← Effect.get
  let best ← Effect.ofExcept (bestHeader store)
  let (candidate, bestIndex) ← Effect.ofExcept (bestCandidate accepted)
  putHeaders accepted
  promoteBatch best accepted candidate bestIndex

def insertHeaders (headers : List BlockHeader) : Effect S ChainError (List StoredHeader) := do
  let store ← Effect.get
  let batch ← Effect.ofExcept (Batch.addAll digests policy (getHeader store) .empty headers)
  if batch.accepted.isEmpty then pure batch.accepted
  else do
    writeBatch batch.accepted
    pure batch.accepted

end

end HnsDaneEngine.Browser.Chain
