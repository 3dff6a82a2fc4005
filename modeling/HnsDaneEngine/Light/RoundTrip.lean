import HnsDaneEngine.Light.History

/-!
# Restoring a snapshot

A chain that grew from genesis passes every check of its own snapshot, and an accepted
snapshot has no other encoding than the one it is.
-/

namespace HnsDaneEngine.Light

open Codec Control Primitives

section

variable {Header HeaderError : Type}

/-- The clock only bounds the time of a header from above: what is accepted stays
accepted, with the same proof, under every clock that the header is not ahead of. -/
def HeaderConsensus.ClockBoundsTime (consensus : HeaderConsensus Header HeaderError) : Prop :=
  ∀ network header context work now, consensus.validateHeader network header context = .ok work →
    consensus.time header ≤ now →
    consensus.validateHeader network header { context with now } = .ok work

/-- The numbers and genesis times in the network parameters. -/
structure HeaderConsensus.NetworksKnown (consensus : HeaderConsensus Header HeaderError) :
    Prop where
  decodeNetwork_networkId : ∀ network,
    (decodeNetwork (consensus.networkId network) : Except (LightChainError HeaderError) Network) =
      .ok network
  genesisTime_eq : ∀ network,
    consensus.genesisTime network = consensus.time (consensus.genesisHeader network)

theorem decodeNetwork_inj {first second : UInt8} {network : Network}
    (firstDecoded : (decodeNetwork first : Except (LightChainError HeaderError) Network) =
      .ok network)
    (secondDecoded : (decodeNetwork second : Except (LightChainError HeaderError) Network) =
      .ok network) : first = second := by
  unfold decodeNetwork at firstDecoded secondDecoded
  cases network <;> split_ifs at firstDecoded secondDecoded <;> simp_all

end

/-- Later entries are higher and have more work. -/
theorem pairwise_of_linked {entries : List HeaderEntry} (linked : entries.IsChain Linked) :
    entries.Pairwise fun earlier later =>
      earlier.height.toNat < later.height.toNat ∧
        earlier.chainwork.value < later.chainwork.value := by
  let Below (earlier later : HeaderEntry) : Prop :=
    earlier.height.toNat < later.height.toNat ∧ earlier.chainwork.value < later.chainwork.value
  have transitive : IsTrans HeaderEntry Below :=
    ⟨fun first second third below above =>
      ⟨below.1.trans above.1, below.2.trans above.2⟩⟩
  have below : entries.IsChain Below := linked.imp fun previous next pair =>
    ⟨by rw [pair.height_eq]; exact Nat.lt_succ_self _, pair.chainwork_lt⟩
  exact List.isChain_iff_pairwise.mp below

theorem snapshotPairValid_of_linked {previous next : HeaderEntry} (linked : Linked previous next)
    (bits : next.bits ≠ 0) : LightChain.snapshotPairValid previous next = true := by
  have bound := next.height.toNat_lt
  have height_eq : nextHeight previous.height = some next.height := by
    have fits : previous.height.toNat + 1 < 2 ^ 32 := by
      rw [← linked.height_eq]
      exact bound
    rw [nextHeight, if_pos fits, Option.some.injEq]
    apply UInt32.toNat_inj.mp
    rw [UInt32.toNat_add, linked.height_eq]
    exact Nat.mod_eq_of_lt fits
  simp only [LightChain.snapshotPairValid, height_eq, linked.previousBlock_eq,
    linked.chainwork_lt, bits, decide_true, Bool.and_true, ne_eq, not_false_eq_true]

namespace LightChain

section

variable {Header HeaderError : Type} {consensus : HeaderConsensus Header HeaderError}
  {blake2b : Octets → Hash} {network : Network} {now : UInt64} {limits : ChainLimits}
  {chain : LightChain}

/-- What opening a network at genesis checks and gives. -/
theorem fromGenesis_eq_ok (opened : fromGenesis consensus network now limits = .ok chain) :
    ∃ proof, limits.maxHeadersPerBatch ≠ 0 ∧ limits.maxHeadersPerBatch ≤ maxHeadersPerBatchLimit ∧
      consensus.validateHeader network (consensus.genesisHeader network)
        ⟨0, .zero, 0, now, consensus.powBits network⟩ = .ok proof ∧
      chain = ⟨network, limits,
        [entryFromHeader consensus 0 (consensus.genesisHeader network) proof],
        entryFromHeader consensus 0 (consensus.genesisHeader network) proof⟩ := by
  obtain ⟨validated, limits_eq, opened⟩ := of_bind_ok opened
  obtain ⟨proof, proof_eq, opened⟩ := of_bind_ok opened
  obtain ⟨valid, returned⟩ := of_guard_ok limits_eq
  obtain rfl := Except.ok.inj returned
  obtain rfl := Except.ok.inj opened
  exact ⟨proof, (not_or.mp valid).1, Nat.not_lt.mp (not_or.mp valid).2,
    liftHeader_eq_ok proof_eq, rfl⟩

/-- The genesis entry does not depend on the clock that opened the chain. -/
theorem isGenesis_of_fromGenesis (clock : consensus.ClockBoundsTime)
    (known : consensus.NetworksKnown)
    (opened : fromGenesis consensus network now limits = .ok chain) :
    IsGenesis consensus network limits chain.tip := by
  obtain ⟨proof, limit_ne, limit_le, validated, rfl⟩ := fromGenesis_eq_ok opened
  refine ⟨_, ?_, rfl⟩
  have again := clock network _ _ proof (consensus.genesisTime network) validated
    (known.genesisTime_eq network ▸ UInt64.le_refl _)
  have limits_eq : (limits.validate : Except (LightChainError HeaderError) ChainLimits) =
      .ok limits := by
    rw [ChainLimits.validate, if_neg (not_or.mpr ⟨limit_ne, Nat.not_lt.mpr limit_le⟩)]
  unfold fromGenesis
  rw [limits_eq]
  simp only [bind, Except.bind, again, liftHeader]

theorem length_snapshotPayload (networkId : UInt8) (chain : LightChain) :
    (snapshotPayload networkId chain).length = 34 + 176 * chain.history.length := by
  have entries_length : (chain.history.flatMap encodeHeaderEntry).length =
      176 * chain.history.length := by
    induction chain.history with
    | nil => rfl
    | cons entry entries ih =>
      rw [List.flatMap_cons, List.length_append, length_encodeHeaderEntry, ih, List.length_cons]
      omega
  simp only [snapshotPayload, encodeSnapshotFields, List.length_append, length_leOctets,
    entries_length, snapshotMagic, List.length_cons, List.length_nil]

/-- Encoding succeeds within the limits of a chain. -/
theorem encodeAuthenticatedSnapshot_eq
    (limit_le : chain.limits.maxHeadersPerBatch ≤ maxHeadersPerBatchLimit)
    (length_le : chain.history.length ≤ requiredDifficultyHistory) :
    let payload := snapshotPayload (consensus.networkId chain.network) chain
    encodeAuthenticatedSnapshot consensus blake2b chain =
        .ok (payload ++ (snapshotChecksum blake2b payload).bytes) ∧
      (payload ++ (snapshotChecksum blake2b payload).bytes).length ≤
        maxLightChainSnapshotBytes := by
  intro payload
  have payload_length : payload.length = 34 + 176 * chain.history.length :=
    length_snapshotPayload _ _
  have checksum_length := (snapshotChecksum blake2b payload).length_eq
  have size_le : (payload ++ (snapshotChecksum blake2b payload).bytes).length ≤
      maxLightChainSnapshotBytes := by
    rw [List.length_append, payload_length, checksum_length]
    rw [requiredDifficultyHistory] at length_le
    rw [maxLightChainSnapshotBytes]
    omega
  refine ⟨?_, size_le⟩
  unfold encodeAuthenticatedSnapshot
  rw [if_neg (by rw [maxHeadersPerBatchLimit] at limit_le; omega),
    if_neg (by rw [requiredDifficultyHistory] at length_le; omega)]
  exact if_neg (Nat.not_lt.mpr size_le)

/-- All entries of a run that starts at genesis, with nonzero hashes and targets, can be
restored. -/
theorem isRestorable_of_run (linkedOnly : consensus.AcceptsOnlyLinked)
    (clock : consensus.ClockBoundsTime) (known : consensus.NetworksKnown) {start : LightChain}
    (opened : fromGenesis consensus network now limits = .ok start) (calls : List (Call Header))
    (nonzero : ∀ entry ∈ start.history ++ record consensus start calls,
      entry.hash ≠ .zero ∧ entry.bits ≠ 0) {floor : ChainSnapshotFloor}
    (height_le : floor.minimumHeight ≤ (runFrom (apply consensus) start calls).tip.height)
    (chainwork_le : floor.minimumChainwork.value ≤
      (runFrom (apply consensus) start calls).tip.chainwork.value) :
    ∃ first, IsRestorable consensus network limits (runFrom (apply consensus) start calls).history
      floor first (runFrom (apply consensus) start calls).tip := by
  have genesis := isGenesis_of_fromGenesis clock known opened
  have run : Extends start (record consensus start calls) (runFrom (apply consensus) start calls) :=
    Extends.run linkedOnly (retained_of_fromGenesis opened) calls
  obtain ⟨proof, limit_ne, limit_le, validated, start_eq⟩ := fromGenesis_eq_ok opened
  have history_eq : start.history = [start.tip] := by rw [start_eq]
  have genesisHeight : start.tip.height = 0 := by rw [start_eq]; rfl
  have genesisWork : start.tip.chainwork.value ≠ 0 := by
    rw [start_eq]
    exact fun zero => (linkedOnly _ _ _ _ validated).2 (Chainwork.ext zero)
  rw [history_eq, List.singleton_append] at nonzero
  have retainedMem {entry : HeaderEntry}
      (entryMem : entry ∈ (runFrom (apply consensus) start calls).history) :
      entry ∈ start.tip :: record consensus start calls := by
    rw [run.history_eq, history_eq, List.singleton_append] at entryMem
    exact List.mem_of_mem_drop entryMem
  have above := List.pairwise_cons.mp (pairwise_of_linked run.linked)
  obtain ⟨first, first_eq⟩ : ∃ first,
      (runFrom (apply consensus) start calls).history.head? = some first := by
    cases stored : (runFrom (apply consensus) start calls).history with
    | nil =>
      have tip_eq := run.retained.tip_eq
      rw [stored] at tip_eq
      cases tip_eq
    | cons first rest => exact ⟨first, rfl⟩
  refine ⟨first, first_eq, run.retained.tip_eq, run.retained.length_eq, ?_, height_le,
    chainwork_le, ?_, ?_⟩
  · intro entry entryMem
    have stored := retainedMem entryMem
    refine ⟨(nonzero entry stored).1, (nonzero entry stored).2, fun zero => ?_⟩
    rcases List.mem_cons.mp stored with rfl | later
    · exact genesisWork (by rw [zero]; rfl)
    · have more := (above.1 entry later).2
      rw [zero] at more
      exact Nat.not_lt_zero _ more
  · intro atGenesis
    rcases List.mem_cons.mp (retainedMem (List.mem_of_mem_head? first_eq)) with rfl | later
    · exact genesis
    · have higher := (above.1 first later).1
      rw [atGenesis, genesisHeight] at higher
      exact absurd higher (Nat.lt_irrefl _)
  · refine run.retained.linked.imp_of_mem_imp fun previous next _ nextMem linked => ?_
    exact snapshotPairValid_of_linked linked (nonzero next (retainedMem nextMem)).2

/-- Every chain grown from genesis is restored from its snapshot, under every floor that
its tip reaches; and whatever is accepted is the snapshot of the chain restored. -/
theorem snapshot_roundTrip (blake2b : Octets → Hash)
    (linkedOnly : consensus.AcceptsOnlyLinked) (clock : consensus.ClockBoundsTime)
    (known : consensus.NetworksKnown) :
    (∀ (network : Network) (now : UInt64) (limits : ChainLimits) (start : LightChain),
      fromGenesis consensus network now limits = .ok start →
      ∀ calls : List (Call Header),
      (∀ entry ∈ start.history ++ record consensus start calls,
        entry.hash ≠ .zero ∧ entry.bits ≠ 0) →
      ∀ floor : ChainSnapshotFloor,
      floor.minimumHeight ≤ (runFrom (apply consensus) start calls).tip.height →
      floor.minimumChainwork.value ≤
        (runFrom (apply consensus) start calls).tip.chainwork.value →
      ∃ snapshot,
        encodeAuthenticatedSnapshot consensus blake2b (runFrom (apply consensus) start calls) =
          .ok snapshot ∧
        decodeAuthenticatedSnapshot consensus blake2b snapshot
          (runFrom (apply consensus) start calls).network floor =
          .ok (runFrom (apply consensus) start calls)) ∧
    ∀ (input : Octets) (network : Network) (floor : ChainSnapshotFloor) (chain : LightChain),
      decodeAuthenticatedSnapshot consensus blake2b input network floor = .ok chain →
      encodeAuthenticatedSnapshot consensus blake2b chain = .ok input := by
  constructor
  · intro network now limits start opened calls nonzero floor height_le chainwork_le
    have run := Extends.run linkedOnly (retained_of_fromGenesis opened) calls
    obtain ⟨first, restorable⟩ := isRestorable_of_run linkedOnly clock known opened calls nonzero
      height_le chainwork_le
    obtain ⟨proof, limit_ne, limit_le, -, start_eq⟩ := fromGenesis_eq_ok opened
    have limits_eq : (runFrom (apply consensus) start calls).limits = limits := by
      rw [run.limits_eq, start_eq]
    have network_eq : (runFrom (apply consensus) start calls).network = network := by
      rw [run.network_eq, start_eq]
    rw [← limits_eq] at limit_ne limit_le restorable
    rw [← network_eq] at restorable
    obtain ⟨encoded, size_le⟩ := encodeAuthenticatedSnapshot_eq limit_le run.retained.length_le
    exact ⟨_, encoded, IsSnapshot.decode ⟨rfl, known.decodeNetwork_networkId _, limit_ne,
      limit_le, restorable, rfl, size_le⟩⟩
  · intro input network floor chain restored
    obtain ⟨networkId, first, snapshot⟩ := decodeAuthenticatedSnapshot_eq_ok restored
    have number_eq : networkId = consensus.networkId chain.network := by
      rw [snapshot.network_eq]
      exact decodeNetwork_inj snapshot.decoded (known.decodeNetwork_networkId network)
    obtain ⟨encoded, -⟩ := encodeAuthenticatedSnapshot_eq snapshot.limit_le
      snapshot.restorable.retained.length_le
    rw [encoded, snapshot.framed, number_eq]

end

end LightChain

namespace ExampleRegtest

theorem consensus_clockBoundsTime : consensus.ClockBoundsTime := by
  intro network header context proof now validated notAhead
  simp only [consensus] at validated notAhead ⊢
  split_ifs at validated with accepted
  cases validated
  refine if_pos ⟨accepted.1, accepted.2.1, accepted.2.2.1, ?_⟩
  exact Nat.le_add_right_of_le (UInt64.le_iff_toNat_le.mp notAhead)

theorem consensus_networksKnown : consensus.NetworksKnown where
  decodeNetwork_networkId network := by cases network <;> rfl
  genesisTime_eq _ := rfl

/-- BLAKE2b of the domain text and the payload below. -/
def checksum (_ : Octets) : Hash :=
  ⟨[180, 237, 206, 26, 232, 243, 180, 193, 118, 169, 174, 12, 246, 9, 164, 20, 108, 222, 168, 176,
    28, 57, 85, 244, 237, 222, 77, 220, 15, 247, 180, 80], by decide⟩

def firstEntry : HeaderEntry :=
  entryFromHeader consensus 1 first ⟨4, by simp⟩

def grown : LightChain where
  network := .regtest
  limits := ⟨4096⟩
  history := [start.tip, firstEntry]
  tip := firstEntry

theorem append_first : LightChain.append consensus start first now = .ok (firstEntry, grown) := by
  have median_eq : start.medianTimePast = genesis.time := by
    simp [LightChain.medianTimePast, start, medianTimeSpan, entryFromHeader, consensus]
  unfold LightChain.append
  rw [median_eq]
  rfl

theorem run_first : runFrom (LightChain.apply consensus) start [.append first now] = grown := by
  rw [runFrom_cons, runFrom_nil, LightChain.apply, append_first]

theorem record_first : LightChain.record consensus start [.append first now] = [firstEntry] := by
  simp only [LightChain.record, LightChain.accepted, LightChain.entriesAll, append_first,
    List.append_nil]

theorem snapshot_roundTrip_regtest :
    ∃ snapshot,
      LightChain.encodeAuthenticatedSnapshot consensus checksum grown = .ok snapshot ∧
      LightChain.decodeAuthenticatedSnapshot consensus checksum snapshot .regtest ⟨1, work⟩ =
        .ok grown := by
  have nonzero : ∀ entry ∈ start.history ++ LightChain.record consensus start [.append first now],
      entry.hash ≠ .zero ∧ entry.bits ≠ 0 := by
    rw [record_first]
    decide
  have roundTrip := (LightChain.snapshot_roundTrip checksum consensus_acceptsOnlyLinked
    consensus_clockBoundsTime consensus_networksKnown).1 .regtest now ⟨4096⟩ start fromGenesis_eq
    [.append first now] nonzero ⟨1, work⟩ (by rw [run_first]; decide) (by rw [run_first]; decide)
  rw [run_first] at roundTrip
  exact roundTrip

end ExampleRegtest

end HnsDaneEngine.Light
