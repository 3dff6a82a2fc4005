import HnsDaneEngine.Encoding.Codec
import HnsDaneEngine.Light.Chain

/-!
# Snapshots of the light chain

The checkpoint that a wallet keeps in its authenticated store: the retained history
with its network and limits, framed by a magic text, a schema number and a checksum.
The checksum is BLAKE2b over a domain text and the payload and is a parameter here.
-/

namespace HnsDaneEngine.Light

open Codec Control Primitives

/-- `HNS-LIGHT-CHAIN-SNAPSHOT` with a final zero. -/
def snapshotMagic : Octets :=
  [72, 78, 83, 45, 76, 73, 71, 72, 84, 45, 67, 72, 65, 73, 78, 45, 83, 78, 65, 80, 83, 72, 79, 84,
    0]

def snapshotSchema : UInt16 := 1

/-- `HNS-LIGHT-CHAIN-SNAPSHOT-V1` with a final zero. -/
def snapshotChecksumDomain : Octets :=
  [72, 78, 83, 45, 76, 73, 71, 72, 84, 45, 67, 72, 65, 73, 78, 45, 83, 78, 65, 80, 83, 72, 79, 84,
    45, 86, 49, 0]

def maxLightChainSnapshotBytes : Nat := 64 * 1024

/-- Lowest height and chainwork that a restored chain may have. -/
structure ChainSnapshotFloor where
  minimumHeight : UInt32
  minimumChainwork : Chainwork

/-- A digest from as many octets as it has. -/
def readHash {ε : Type} (error : ε) : Reader ε Hash := fun input =>
  if short : input.length < 32 then .error error
  else .ok (⟨input.take 32, by rw [List.length_take]; omega⟩, input.drop 32)

theorem readHash_lossless {ε : Type} (error : ε) : Lossless (readHash error) Hash.bytes where
  read_write hash rest := by
    have length_eq := hash.length_eq
    have long : ¬ (hash.bytes ++ rest).length < 32 := by
      rw [List.length_append]
      omega
    unfold readHash
    rw [dif_neg long]
    simp only [← length_eq, List.take_left, List.drop_left]
  write_read := by
    intro input hash rest read
    unfold readHash at read
    split_ifs at read with short
    cases read
    exact (List.take_append_drop 32 input).symm

def Chainwork.ofNat (number : Nat) : Chainwork :=
  ⟨number % 2 ^ 256, Nat.mod_lt _ (by simp)⟩

theorem isWord_chainwork : IsWord Chainwork.value Chainwork.ofNat 32 where
  toNat_lt work := by
    have bound := work.value_lt
    rwa [show (256 : Nat) ^ 32 = 2 ^ 256 by decide]
  toNat_ofNat number fits := by
    rw [show (256 : Nat) ^ 32 = 2 ^ 256 by decide] at fits
    exact Nat.mod_eq_of_lt fits
  ofNat_toNat work := by
    obtain ⟨value, bound⟩ := work
    simp only [Chainwork.ofNat, Chainwork.mk.injEq]
    exact Nat.mod_eq_of_lt bound

def encodeHeaderEntry (entry : HeaderEntry) : Octets :=
  leOctets 4 entry.height.toNat ++ entry.hash.bytes ++ entry.previousBlock.bytes ++
    entry.treeRoot.bytes ++ entry.merkleRoot.bytes ++ leOctets 8 entry.time.toNat ++
    leOctets 4 entry.bits.toNat ++ (leOctets 32 entry.chainwork.value).reverse

section

variable {HeaderError : Type}

def decodeHeaderEntry : Reader (LightChainError HeaderError) HeaderEntry := do
  let height ← readLe .decode 4 UInt32.ofNat
  let hash ← readHash .decode
  let previousBlock ← readHash .decode
  let treeRoot ← readHash .decode
  let merkleRoot ← readHash .decode
  let time ← readLe .decode 8 UInt64.ofNat
  let bits ← readLe .decode 4 UInt32.ofNat
  let chainwork ← readBe .decode 32 Chainwork.ofNat
  pure { height, hash, previousBlock, treeRoot, merkleRoot, time, bits, chainwork }

theorem decodeHeaderEntry_lossless :
    Lossless (decodeHeaderEntry : Reader (LightChainError HeaderError) HeaderEntry)
      encodeHeaderEntry := by
  have digest := readHash_lossless (.decode : LightChainError HeaderError)
  have u32 := readLe_lossless (.decode : LightChainError HeaderError) isWord_uint32
  have u64 := readLe_lossless (.decode : LightChainError HeaderError) isWord_uint64
  have work := readBe_lossless (.decode : LightChainError HeaderError) isWord_chainwork
  constructor
  · intro entry rest
    simp only [decodeHeaderEntry, encodeHeaderEntry, List.append_assoc]
    rw [Reader.bind_of_ok (u32.read_write entry.height _),
      Reader.bind_of_ok (digest.read_write entry.hash _),
      Reader.bind_of_ok (digest.read_write entry.previousBlock _),
      Reader.bind_of_ok (digest.read_write entry.treeRoot _),
      Reader.bind_of_ok (digest.read_write entry.merkleRoot _),
      Reader.bind_of_ok (u64.read_write entry.time _),
      Reader.bind_of_ok (u32.read_write entry.bits _),
      Reader.bind_of_ok (work.read_write entry.chainwork _)]
    rfl
  · intro input entry rest read
    obtain ⟨height, input₁, heightRead, read⟩ := Reader.of_bind_ok read
    obtain ⟨hash, input₂, hashRead, read⟩ := Reader.of_bind_ok read
    obtain ⟨previousBlock, input₃, previousRead, read⟩ := Reader.of_bind_ok read
    obtain ⟨treeRoot, input₄, treeRead, read⟩ := Reader.of_bind_ok read
    obtain ⟨merkleRoot, input₅, merkleRead, read⟩ := Reader.of_bind_ok read
    obtain ⟨time, input₆, timeRead, read⟩ := Reader.of_bind_ok read
    obtain ⟨bits, input₇, bitsRead, read⟩ := Reader.of_bind_ok read
    obtain ⟨chainwork, input₈, workRead, read⟩ := Reader.of_bind_ok read
    obtain ⟨rfl, rfl⟩ := Reader.pure_eq_ok_iff.mp read
    rw [u32.write_read heightRead, digest.write_read hashRead, digest.write_read previousRead,
      digest.write_read treeRead, digest.write_read merkleRead, u64.write_read timeRead,
      u32.write_read bitsRead, work.write_read workRead]
    simp only [encodeHeaderEntry, List.append_assoc]

theorem length_encodeHeaderEntry (entry : HeaderEntry) :
    (encodeHeaderEntry entry).length = 176 := by
  simp [encodeHeaderEntry, entry.hash.length_eq, entry.previousBlock.length_eq,
    entry.treeRoot.length_eq, entry.merkleRoot.length_eq]

def decodeNetwork (id : UInt8) : Except (LightChainError HeaderError) Network :=
  if id = 0 then .ok .mainnet
  else if id = 1 then .ok .testnet
  else if id = 2 then .ok .regtest
  else if id = 3 then .ok .simnet
  else .error .invalidSnapshot

/-- What a snapshot stores about a chain, in the order of its layout. -/
structure SnapshotFields where
  networkId : UInt8
  maxHeadersPerBatch : UInt32
  count : UInt16
  history : List HeaderEntry

/-- The payload in front of the checksum. -/
def encodeSnapshotFields (fields : SnapshotFields) : Octets :=
  snapshotMagic ++ leOctets 2 snapshotSchema.toNat ++ leOctets 1 fields.networkId.toNat ++
    leOctets 4 fields.maxHeadersPerBatch.toNat ++ leOctets 2 fields.count.toNat ++
    fields.history.flatMap encodeHeaderEntry

end

section

variable {Header HeaderError : Type} (consensus : HeaderConsensus Header HeaderError)
  (blake2b : Octets → Hash)

/-- `blake2b` stands for BLAKE2b with 32 octets of output. -/
def snapshotChecksum (payload : Octets) : Hash :=
  blake2b (snapshotChecksumDomain ++ payload)

namespace LightChain

/-- Encode the retained history for an authenticated store. -/
def encodeAuthenticatedSnapshot (chain : LightChain) :
    Except (LightChainError HeaderError) Octets :=
  if 2 ^ 32 ≤ chain.limits.maxHeadersPerBatch then .error .invalidSnapshot
  else if 2 ^ 16 ≤ chain.history.length then .error .invalidSnapshot
  else
    let payload := encodeSnapshotFields
      { networkId := consensus.networkId chain.network
        maxHeadersPerBatch := UInt32.ofNat chain.limits.maxHeadersPerBatch
        count := UInt16.ofNat chain.history.length
        history := chain.history }
    let snapshot := payload ++ (snapshotChecksum blake2b payload).bytes
    if maxLightChainSnapshotBytes < snapshot.length then .error .snapshotTooLarge
    else .ok snapshot

/-- The test of `validate_snapshot_pair`: the next height, the parent's hash, more
work. -/
def snapshotPairValid (previous next : HeaderEntry) : Bool :=
  nextHeight previous.height = some next.height &&
    decide (next.previousBlock = previous.hash) &&
    decide (previous.chainwork.value < next.chainwork.value) && decide (next.bits ≠ 0)

def validateSnapshotPairs : List HeaderEntry → Except (LightChainError HeaderError) Unit
  | previous :: next :: rest =>
    if snapshotPairValid previous next then validateSnapshotPairs (next :: rest)
    else .error .invalidSnapshot
  | _ => .ok ()

/-- A history that reaches back to height zero starts at the genesis of its network. -/
def validateSnapshotGenesis (network : Network) (limits : ChainLimits) (first : HeaderEntry) :
    Except (LightChainError HeaderError) Unit :=
  if first.height = 0 then do
    let expected ← fromGenesis consensus network (consensus.genesisTime network) limits
    if first ≠ expected.tip then .error .invalidSnapshot else .ok ()
  else .ok ()

def validateSnapshotHistory (network : Network) (limits : ChainLimits)
    (history : List HeaderEntry) (floor : ChainSnapshotFloor) :
    Except (LightChainError HeaderError) Unit :=
  match history.head?, history.getLast? with
  | some first, some tip =>
    if history.length ≠ min (tip.height.toNat + 1) requiredDifficultyHistory then
      .error .invalidSnapshot
    else if history.any fun entry =>
        entry.hash = .zero || entry.bits = 0 || entry.chainwork = .zero then
      .error .invalidSnapshot
    else if tip.height < floor.minimumHeight ∨
        tip.chainwork.value < floor.minimumChainwork.value then
      .error .snapshotRollback
    else do
      validateSnapshotGenesis consensus network limits first
      validateSnapshotPairs history
  | _, _ => .error .invalidSnapshot

/-- The fields of a payload, up to its end. -/
def decodeSnapshotFields (expectedNetwork : Network) :
    Reader (LightChainError HeaderError) (Network × ChainLimits × List HeaderEntry) := do
  let magic ← readOctets .decode snapshotMagic.length
  Reader.ensure (magic = snapshotMagic) .unsupportedSnapshot
  let schema ← readLe .decode 2 UInt16.ofNat
  Reader.ensure (schema = snapshotSchema) .unsupportedSnapshot
  let networkId ← readLe .decode 1 UInt8.ofNat
  let network ← Reader.lift (decodeNetwork networkId)
  Reader.ensure (network = expectedNetwork) .snapshotNetworkMismatch
  let maxHeadersPerBatch ← readLe .decode 4 UInt32.ofNat
  let limits ← Reader.lift (ChainLimits.validate ⟨maxHeadersPerBatch.toNat⟩)
  let count ← readLe .decode 2 UInt16.ofNat
  Reader.ensure (count.toNat ≠ 0 ∧ count.toNat ≤ requiredDifficultyHistory) .invalidSnapshot
  let history ← readMany decodeHeaderEntry count.toNat
  pure (network, limits, history)

/-- Restore a checkpoint from an authenticated store. -/
def decodeAuthenticatedSnapshot (input : Octets) (expectedNetwork : Network)
    (floor : ChainSnapshotFloor) : Except (LightChainError HeaderError) LightChain := do
  if maxLightChainSnapshotBytes < input.length then .error .snapshotTooLarge
  else if input.length < 32 then .error .invalidSnapshot
  else
    let payload := input.take (input.length - 32)
    let checksum := input.drop (input.length - 32)
    if checksum ≠ (snapshotChecksum blake2b payload).bytes then .error .snapshotChecksumMismatch
    else
      let ((network, limits, history), rest) ← decodeSnapshotFields expectedNetwork payload
      if rest ≠ [] then .error .decode
      else
        validateSnapshotHistory consensus expectedNetwork limits history floor
        match history.getLast? with
        | none => .error .invalidSnapshot
        | some tip => .ok { network, limits, history, tip }

variable {consensus blake2b}

variable {history : List HeaderEntry} {network : Network} {floor : ChainSnapshotFloor}
  {input : Octets}

theorem validateSnapshotPairs_eq_ok_iff :
    (validateSnapshotPairs history : Except (LightChainError HeaderError) Unit) = .ok () ↔
      history.IsChain fun previous next => snapshotPairValid previous next = true := by
  fun_induction validateSnapshotPairs history with
  | case1 previous next rest valid ih => simpa [valid] using ih
  | case2 previous next rest invalid => simp [invalid]
  | case3 history short =>
    match history with
    | [] => simp
    | [entry] => simp
    | previous :: next :: rest => exact absurd rfl (short previous next rest)

/-- The genesis entry of a stored history is the one of the network. -/
def IsGenesis (consensus : HeaderConsensus Header HeaderError) (network : Network)
    (limits : ChainLimits) (entry : HeaderEntry) : Prop :=
  ∃ opened, fromGenesis consensus network (consensus.genesisTime network) limits = .ok opened ∧
    entry = opened.tip

/-- The conditions of a history that may be restored. -/
structure IsRestorable (consensus : HeaderConsensus Header HeaderError) (network : Network)
    (limits : ChainLimits) (history : List HeaderEntry) (floor : ChainSnapshotFloor)
    (first tip : HeaderEntry) : Prop where
  first_eq : history.head? = some first
  tip_eq : history.getLast? = some tip
  length_eq : history.length = min (tip.height.toNat + 1) requiredDifficultyHistory
  nonzero : ∀ entry ∈ history, entry.hash ≠ .zero ∧ entry.bits ≠ 0 ∧ entry.chainwork ≠ .zero
  height_le : floor.minimumHeight ≤ tip.height
  chainwork_le : floor.minimumChainwork.value ≤ tip.chainwork.value
  genesis : first.height = 0 → IsGenesis consensus network limits first
  pairs : history.IsChain fun previous next => snapshotPairValid previous next = true

theorem validateSnapshotHistory_eq_ok_iff {limits : ChainLimits} :
    validateSnapshotHistory consensus network limits history floor = .ok () ↔
      ∃ first tip, IsRestorable consensus network limits history floor first tip := by
  constructor
  · intro validated
    unfold validateSnapshotHistory at validated
    split at validated
    next first tip first_eq tip_eq =>
      obtain ⟨length_eq, validated⟩ := of_guard_ok validated
      obtain ⟨nonzero, validated⟩ := of_guard_ok validated
      obtain ⟨above, validated⟩ := of_guard_ok validated
      obtain ⟨_, genesis, validated⟩ := of_bind_ok validated
      refine ⟨first, tip, first_eq, tip_eq, not_ne_iff.mp length_eq, ?_, ?_, ?_, ?_, ?_⟩
      · intro entry entryMem
        simp only [List.any_eq_true, not_exists, not_and, Bool.or_eq_true, decide_eq_true_eq,
          not_or] at nonzero
        exact ⟨(nonzero entry entryMem).1.1, (nonzero entry entryMem).1.2,
          (nonzero entry entryMem).2⟩
      · exact UInt32.not_lt.mp (not_or.mp above).1
      · exact Nat.not_lt.mp (not_or.mp above).2
      · intro atGenesis
        rw [validateSnapshotGenesis, if_pos atGenesis] at genesis
        obtain ⟨opened, opened_eq, genesis⟩ := of_bind_ok genesis
        obtain ⟨same, -⟩ := of_guard_ok genesis
        exact ⟨opened, opened_eq, not_ne_iff.mp same⟩
      · exact validateSnapshotPairs_eq_ok_iff.mp validated
    next => cases validated
  · rintro ⟨first, tip, restorable⟩
    have nonzero : ¬ (history.any fun entry =>
        entry.hash = .zero || entry.bits = 0 || entry.chainwork = .zero) = true := by
      simp only [List.any_eq_true, not_exists, not_and, Bool.or_eq_true, decide_eq_true_eq, not_or]
      intro entry entryMem
      obtain ⟨hash, bits, work⟩ := restorable.nonzero entry entryMem
      exact ⟨⟨hash, bits⟩, work⟩
    have above : ¬ (tip.height < floor.minimumHeight ∨
        tip.chainwork.value < floor.minimumChainwork.value) :=
      not_or.mpr ⟨UInt32.not_lt.mpr restorable.height_le, Nat.not_lt.mpr restorable.chainwork_le⟩
    unfold validateSnapshotHistory
    rw [restorable.first_eq, restorable.tip_eq]
    dsimp only
    rw [if_neg (not_ne_iff.mpr restorable.length_eq), if_neg nonzero, if_neg above, bind_eq_ok_iff]
    refine ⟨(), ?_, validateSnapshotPairs_eq_ok_iff.mpr restorable.pairs⟩
    unfold validateSnapshotGenesis
    split
    next atGenesis =>
      obtain ⟨opened, opened_eq, same⟩ := restorable.genesis atGenesis
      rw [opened_eq]
      exact if_neg (not_ne_iff.mpr same)
    next => rfl

/-- The fields of a payload are those that encode it. -/
theorem decodeSnapshotFields_eq_ok_iff {expectedNetwork : Network} {limits : ChainLimits}
    {rest : Octets} :
    (decodeSnapshotFields expectedNetwork : Reader (LightChainError HeaderError) _) input =
        .ok ((network, limits, history), rest) ↔
      network = expectedNetwork ∧ limits.maxHeadersPerBatch ≠ 0 ∧
      limits.maxHeadersPerBatch ≤ maxHeadersPerBatchLimit ∧ history.length ≠ 0 ∧
      history.length ≤ requiredDifficultyHistory ∧
      ∃ networkId, (decodeNetwork networkId : Except (LightChainError HeaderError) _) =
          .ok network ∧
        input = encodeSnapshotFields
          ⟨networkId, UInt32.ofNat limits.maxHeadersPerBatch, UInt16.ofNat history.length,
            history⟩ ++ rest := by
  have u8 := readLe_lossless (.decode : LightChainError HeaderError) isWord_uint8
  have u16 := readLe_lossless (.decode : LightChainError HeaderError) isWord_uint16
  have u32 := readLe_lossless (.decode : LightChainError HeaderError) isWord_uint32
  constructor
  · intro read
    obtain ⟨magic, input₁, magicRead, read⟩ := Reader.of_bind_ok read
    obtain ⟨_, _, magicChecked, read⟩ := Reader.of_bind_ok read
    obtain ⟨rfl, rfl⟩ := Reader.ensure_eq_ok_iff.mp magicChecked
    obtain ⟨schema, input₂, schemaRead, read⟩ := Reader.of_bind_ok read
    obtain ⟨_, _, schemaChecked, read⟩ := Reader.of_bind_ok read
    obtain ⟨rfl, rfl⟩ := Reader.ensure_eq_ok_iff.mp schemaChecked
    obtain ⟨networkId, input₃, idRead, read⟩ := Reader.of_bind_ok read
    obtain ⟨decoded, _, networkDecoded, read⟩ := Reader.of_bind_ok read
    obtain ⟨network_eq, rfl⟩ := Reader.lift_eq_ok_iff.mp networkDecoded
    obtain ⟨_, _, networkChecked, read⟩ := Reader.of_bind_ok read
    obtain ⟨rfl, rfl⟩ := Reader.ensure_eq_ok_iff.mp networkChecked
    obtain ⟨maximum, input₄, maximumRead, read⟩ := Reader.of_bind_ok read
    obtain ⟨validated, _, limitsChecked, read⟩ := Reader.of_bind_ok read
    obtain ⟨limits_eq, rfl⟩ := Reader.lift_eq_ok_iff.mp limitsChecked
    obtain ⟨count, input₅, countRead, read⟩ := Reader.of_bind_ok read
    obtain ⟨_, _, countChecked, read⟩ := Reader.of_bind_ok read
    obtain ⟨⟨nonempty, short⟩, rfl⟩ := Reader.ensure_eq_ok_iff.mp countChecked
    obtain ⟨entries, input₆, entriesRead, read⟩ := Reader.of_bind_ok read
    obtain ⟨fields_eq, rfl⟩ := Reader.pure_eq_ok_iff.mp read
    cases fields_eq
    obtain ⟨valid, returned⟩ := of_guard_ok limits_eq
    obtain rfl := Except.ok.inj returned
    obtain ⟨length_eq, rfl⟩ := readMany_eq_ok decodeHeaderEntry_lossless entriesRead
    refine ⟨rfl, (not_or.mp valid).1, Nat.not_lt.mp (not_or.mp valid).2, ?_, ?_, networkId,
      network_eq, ?_⟩
    · rwa [length_eq]
    · rwa [length_eq]
    · rw [(readOctets_eq_ok magicRead).1, u16.write_read schemaRead, u8.write_read idRead,
        u32.write_read maximumRead, u16.write_read countRead, length_eq]
      simp only [encodeSnapshotFields, UInt32.ofNat_toNat, UInt16.ofNat_toNat, List.append_assoc]
  · rintro ⟨rfl, nonzero, bounded, nonempty, short, networkId, network_eq, rfl⟩
    have maximum_eq : (UInt32.ofNat limits.maxHeadersPerBatch).toNat =
        limits.maxHeadersPerBatch := by
      rw [UInt32.toNat_ofNat']
      rw [maxHeadersPerBatchLimit] at bounded
      omega
    have count_eq : (UInt16.ofNat history.length).toNat = history.length := by
      rw [UInt16.toNat_ofNat']
      rw [requiredDifficultyHistory] at short
      omega
    have limits_eq : (ChainLimits.validate ⟨limits.maxHeadersPerBatch⟩ :
        Except (LightChainError HeaderError) ChainLimits) = .ok limits := by
      rw [ChainLimits.validate, if_neg (not_or.mpr ⟨nonzero, Nat.not_lt.mpr bounded⟩)]
    have magicRead := readOctets_append (.decode : LightChainError HeaderError) snapshotMagic
    have entry : Lossless (decodeHeaderEntry : Reader (LightChainError HeaderError) HeaderEntry)
        encodeHeaderEntry := decodeHeaderEntry_lossless
    have entriesRead := readMany_flatMap entry history rest
    simp only [decodeSnapshotFields, encodeSnapshotFields, List.append_assoc]
    rw [Reader.bind_of_ok (magicRead _), Reader.bind_of_ok (Reader.ensure_of_holds rfl _ _),
      Reader.bind_of_ok (u16.read_write snapshotSchema _),
      Reader.bind_of_ok (Reader.ensure_of_holds rfl _ _),
      Reader.bind_of_ok (u8.read_write networkId _),
      Reader.bind_of_ok (Reader.lift_eq_ok_iff.mpr ⟨network_eq, rfl⟩),
      Reader.bind_of_ok (Reader.ensure_of_holds rfl _ _),
      Reader.bind_of_ok (u32.read_write (UInt32.ofNat limits.maxHeadersPerBatch) _), maximum_eq,
      Reader.bind_of_ok (Reader.lift_eq_ok_iff.mpr ⟨limits_eq, rfl⟩),
      Reader.bind_of_ok (u16.read_write (UInt16.ofNat history.length) _), count_eq,
      Reader.bind_of_ok (Reader.ensure_of_holds ⟨nonempty, short⟩ _ _),
      Reader.bind_of_ok entriesRead]
    rfl

/-- The payload of a chain's snapshot under a network number. -/
def snapshotPayload (networkId : UInt8) (chain : LightChain) : Octets :=
  encodeSnapshotFields
    { networkId
      maxHeadersPerBatch := UInt32.ofNat chain.limits.maxHeadersPerBatch
      count := UInt16.ofNat chain.history.length
      history := chain.history }

/-- An accepted snapshot is a framed payload of the chain that it restores, and the
chain passes every check. -/
structure IsSnapshot (consensus : HeaderConsensus Header HeaderError)
    (blake2b : Octets → Hash) (input : Octets) (network : Network)
    (floor : ChainSnapshotFloor) (chain : LightChain) (networkId : UInt8) (first : HeaderEntry) :
    Prop where
  network_eq : chain.network = network
  decoded : (decodeNetwork networkId : Except (LightChainError HeaderError) Network) = .ok network
  limit_ne : chain.limits.maxHeadersPerBatch ≠ 0
  limit_le : chain.limits.maxHeadersPerBatch ≤ maxHeadersPerBatchLimit
  restorable : IsRestorable consensus network chain.limits chain.history floor first chain.tip
  framed : input = snapshotPayload networkId chain ++
    (snapshotChecksum blake2b (snapshotPayload networkId chain)).bytes
  size_le : input.length ≤ maxLightChainSnapshotBytes

theorem decodeAuthenticatedSnapshot_eq_ok {chain : LightChain}
    (restored : decodeAuthenticatedSnapshot consensus blake2b input network floor = .ok chain) :
    ∃ networkId first, IsSnapshot consensus blake2b input network floor chain networkId first := by
  obtain ⟨size, restored⟩ := of_guard_ok restored
  obtain ⟨long, restored⟩ := of_guard_ok restored
  obtain ⟨matched, restored⟩ := of_guard_ok restored
  obtain ⟨⟨⟨stored, limits, history⟩, rest⟩, read, restored⟩ := of_bind_ok restored
  obtain ⟨finished, restored⟩ := of_guard_ok restored
  obtain ⟨_, validated, returned⟩ := of_bind_ok restored
  obtain rfl := not_ne_iff.mp finished
  obtain ⟨rfl, limit_ne, limit_le, -, -, networkId, decoded, payload_eq⟩ :=
    decodeSnapshotFields_eq_ok_iff.mp read
  obtain ⟨first, tip, restorable⟩ := validateSnapshotHistory_eq_ok_iff.mp validated
  rw [List.append_nil] at payload_eq
  simp only [restorable.tip_eq] at returned
  obtain rfl := Except.ok.inj returned
  refine ⟨networkId, first, rfl, decoded, limit_ne, limit_le, restorable, ?_, Nat.not_lt.mp size⟩
  rw [not_ne_iff, payload_eq] at matched
  calc
    input = input.take (input.length - 32) ++ input.drop (input.length - 32) :=
      (List.take_append_drop _ _).symm
    _ = _ := by rw [matched, payload_eq, snapshotPayload]

theorem IsSnapshot.decode {chain : LightChain} {networkId : UInt8} {first : HeaderEntry}
    (snapshot : IsSnapshot consensus blake2b input network floor chain networkId first) :
    decodeAuthenticatedSnapshot consensus blake2b input network floor = .ok chain := by
  have checksum_length := (snapshotChecksum blake2b (snapshotPayload networkId chain)).length_eq
  have length_eq : input.length - 32 = (snapshotPayload networkId chain).length := by
    rw [snapshot.framed, List.length_append, checksum_length, Nat.add_sub_cancel]
  have long : ¬ input.length < 32 := by
    rw [snapshot.framed, List.length_append, checksum_length]
    omega
  have payload_eq : input.take (input.length - 32) = snapshotPayload networkId chain := by
    rw [length_eq, snapshot.framed, List.take_left]
  have checksum_eq : input.drop (input.length - 32) =
      (snapshotChecksum blake2b (snapshotPayload networkId chain)).bytes := by
    rw [length_eq, snapshot.framed, List.drop_left]
  have restorable := snapshot.restorable
  have count_ne : chain.history.length ≠ 0 := by
    rw [restorable.length_eq, requiredDifficultyHistory]
    omega
  have count_le : chain.history.length ≤ requiredDifficultyHistory := by
    rw [restorable.length_eq]
    exact Nat.min_le_right _ _
  have read : decodeSnapshotFields network (snapshotPayload networkId chain) =
      (.ok ((network, chain.limits, chain.history), []) : Except (LightChainError HeaderError) _) :=
    decodeSnapshotFields_eq_ok_iff.mpr ⟨rfl, snapshot.limit_ne, snapshot.limit_le, count_ne,
      count_le, networkId, snapshot.decoded, (List.append_nil _).symm⟩
  have validated := validateSnapshotHistory_eq_ok_iff.mpr ⟨first, chain.tip, restorable⟩
  unfold decodeAuthenticatedSnapshot
  rw [if_neg (Nat.not_lt.mpr snapshot.size_le), if_neg long]
  dsimp only
  rw [payload_eq, checksum_eq, if_neg (not_ne_iff.mpr rfl), read]
  simp only [bind, Except.bind, ne_eq, not_true_eq_false, if_false, validated, restorable.tip_eq]
  rw [← snapshot.network_eq]

end LightChain

end

end HnsDaneEngine.Light
