import HnsDaneEngine.Light.Snapshot
import Mathlib.Data.List.Chain
import Mathlib.Data.List.DropRight

/-!
# The retained history

Along every run of appends the history is the end of the chain of all accepted
entries: as many of them as the difficulty rule looks back on, each the successor of
the one before it.
-/

namespace HnsDaneEngine.Light

open Codec Control Primitives

/-- One entry follows another in a chain. -/
structure Linked (previous next : HeaderEntry) : Prop where
  height_eq : next.height.toNat = previous.height.toNat + 1
  previousBlock_eq : next.previousBlock = previous.hash
  chainwork_lt : previous.chainwork.value < next.chainwork.value

/-- The history that the retarget rule needs: consecutive linked entries up to the tip. -/
structure LightChain.Retained (chain : LightChain) : Prop where
  length_eq : chain.history.length = min (chain.tip.height.toNat + 1) requiredDifficultyHistory
  linked : chain.history.IsChain Linked
  tip_eq : chain.history.getLast? = some chain.tip

section

variable {Header HeaderError : Type}

/-- What the light chain relies on in header validation: an accepted header names the
given parent and proves some work. -/
def HeaderConsensus.AcceptsOnlyLinked (consensus : HeaderConsensus Header HeaderError) : Prop :=
  ∀ network header context work, consensus.validateHeader network header context = .ok work →
    consensus.previousBlock header = context.previousBlock ∧ work ≠ .zero

end

theorem nextHeight_eq_some {height next : UInt32} (advanced : nextHeight height = some next) :
    next.toNat = height.toNat + 1 := by
  unfold nextHeight at advanced
  split_ifs at advanced with fits
  cases advanced
  rw [UInt32.toNat_add]
  exact Nat.mod_eq_of_lt fits

variable {α : Type}

theorem liftHeader_eq_ok {HeaderError : Type} {result : Except HeaderError α} {value : α}
    (lifted : liftHeader result = .ok value) : result = .ok value := by
  cases result with
  | error error => cases lifted
  | ok returned =>
    cases lifted
    rfl

/-- A linked list has an entry at every height between its ends. -/
theorem exists_height_of_linked {history : List HeaderEntry} {first tip : HeaderEntry}
    (linked : (first :: history).IsChain Linked) (last : (first :: history).getLast? = some tip) :
    tip.height.toNat = first.height.toNat + history.length ∧
      ∀ height, first.height.toNat ≤ height → height ≤ tip.height.toNat →
        ∃ entry ∈ first :: history, entry.height.toNat = height := by
  induction history generalizing first with
  | nil =>
    obtain rfl := Option.some.inj last
    refine ⟨rfl, fun height lower upper => ⟨first, List.mem_singleton_self first, ?_⟩⟩
    exact Nat.le_antisymm lower upper
  | cons second rest ih =>
    obtain ⟨pair, restLinked⟩ := List.isChain_cons_cons.mp linked
    have restLast : (second :: rest).getLast? = some tip := by
      rwa [List.getLast?_cons_cons] at last
    obtain ⟨tip_eq, found⟩ := ih restLinked restLast
    have second_eq := pair.height_eq
    refine ⟨by rw [tip_eq, second_eq, List.length_cons]; omega, fun height lower upper => ?_⟩
    rcases Nat.lt_or_ge first.height.toNat height with above | below
    · obtain ⟨entry, entryMem, height_eq⟩ := found height (by omega) upper
      exact ⟨entry, List.mem_cons_of_mem first entryMem, height_eq⟩
    · exact ⟨first, List.mem_cons_self, Nat.le_antisymm lower below⟩

/-- What is dropped before an append would be dropped after it. -/
theorem rtake_rtake_append (items added : List α) (count : Nat) :
    ((items.rtake count) ++ added).rtake count = (items ++ added).rtake count := by
  simp only [List.rtake, List.length_append, List.length_drop]
  rcases Nat.le_total items.length count with short | long
  · rw [Nat.sub_eq_zero_of_le short, List.drop_zero, Nat.sub_zero]
  have dropped : items.drop (items.length - count) ++ added =
      (items ++ added).drop (items.length - count) :=
    (List.drop_append_of_le_length (Nat.sub_le _ _)).symm
  rw [dropped, List.drop_drop]
  congr 1
  omega

theorem rtake_of_length_le {items : List α} {count : Nat} (short : items.length ≤ count) :
    items.rtake count = items := by
  rw [List.rtake, Nat.sub_eq_zero_of_le short, List.drop_zero]

theorem rtake_length_rtake (items : List α) (count : Nat) :
    items.rtake (items.rtake count).length = items.rtake count := by
  simp only [List.rtake, List.length_drop]
  congr 1
  omega

theorem getLast?_rtake_append (items : List α) (item : α) {count : Nat} (positive : 0 < count) :
    ((items ++ [item]).rtake count).getLast? = some item := by
  have inside : (items ++ [item]).length - count < (items ++ [item]).length := by
    rw [List.length_append, List.length_singleton]
    omega
  rw [List.rtake, List.getLast?_drop, if_neg (Nat.not_le.mpr inside), List.getLast?_concat]

namespace LightChain

/-- The median is one of the times. -/
theorem medianTimePast_le {chain : LightChain} {bound : UInt64}
    (times_le : ∀ entry ∈ chain.history, entry.time ≤ bound) (tip_le : chain.tip.time ≤ bound) :
    chain.medianTimePast ≤ bound := by
  unfold medianTimePast
  dsimp only
  cases found : (((chain.history.reverse.take medianTimeSpan).map (·.time)).mergeSort)[
    (((chain.history.reverse.take medianTimeSpan).map (·.time)).mergeSort).length / 2]? with
  | none => exact tip_le
  | some time =>
    have timeMem := List.mem_of_getElem? found
    rw [List.mem_mergeSort, List.mem_map] at timeMem
    obtain ⟨entry, entryMem, rfl⟩ := timeMem
    exact times_le entry (List.mem_reverse.mp (List.mem_of_mem_take entryMem))
section

variable {Header HeaderError : Type} {consensus : HeaderConsensus Header HeaderError}
  {chain after : LightChain} {header : Header} {entry : HeaderEntry} {now : UInt64}

/-- What a successful append has checked, and what it leaves behind. -/
theorem append_eq_ok (appended : append consensus chain header now = .ok (entry, after)) :
    ∃ height expectedBits proof chainwork, nextHeight chain.tip.height = some height ∧
      consensus.validateHeader chain.network header
        ⟨height, chain.tip.hash, chain.medianTimePast, now, expectedBits⟩ = .ok proof ∧
      chain.tip.chainwork.checkedAdd proof = some chainwork ∧
      entry = entryFromHeader consensus height header chainwork ∧
      after = { chain with
        history := (chain.history ++ [entry]).rtake requiredDifficultyHistory
        tip := entry } := by
  unfold append at appended
  split at appended
  next => cases appended
  next height height_eq =>
    obtain ⟨⟨first, last⟩, -, appended⟩ := of_bind_ok appended
    obtain ⟨expectedBits, -, appended⟩ := of_bind_ok appended
    obtain ⟨proof, validated, appended⟩ := of_bind_ok appended
    split at appended
    next => cases appended
    next chainwork added =>
      cases appended
      exact ⟨height, expectedBits, proof, chainwork, height_eq, liftHeader_eq_ok validated, added,
        rfl, rfl⟩

/-- The new entry is linked to the tip. -/
theorem linked_of_append (linkedOnly : consensus.AcceptsOnlyLinked)
    (appended : append consensus chain header now = .ok (entry, after)) :
    Linked chain.tip entry := by
  obtain ⟨height, bits, proof, chainwork, height_eq, validated, added, rfl, -⟩ :=
    append_eq_ok appended
  obtain ⟨previous_eq, worked⟩ := linkedOnly _ _ _ _ validated
  constructor
  · exact nextHeight_eq_some height_eq
  · exact previous_eq
  · have sum_eq := Chainwork.checkedAdd_eq_some added
    have positive : proof.value ≠ 0 := by
      intro zero
      apply worked
      obtain ⟨value, bound⟩ := proof
      cases zero
      rfl
    change _ < chainwork.value
    omega

/-- One append keeps the history retained. -/
theorem Retained.append (linkedOnly : consensus.AcceptsOnlyLinked) (retained : chain.Retained)
    (appended : append consensus chain header now = .ok (entry, after)) : after.Retained := by
  have linked := linked_of_append linkedOnly appended
  obtain ⟨height, bits, proof, chainwork, -, -, -, -, rfl⟩ := append_eq_ok appended
  have extended : (chain.history ++ [entry]).IsChain Linked := by
    rw [List.isChain_append]
    refine ⟨retained.linked, List.isChain_singleton entry, ?_⟩
    intro last lastMem next nextMem
    rw [retained.tip_eq, Option.mem_some_iff] at lastMem
    rw [List.head?_cons, Option.mem_some_iff] at nextMem
    subst lastMem nextMem
    exact linked
  constructor
  · have height_eq := linked.height_eq
    have length_eq := retained.length_eq
    simp only [List.rtake, List.length_drop, List.length_append, List.length_singleton,
      requiredDifficultyHistory] at length_eq ⊢
    omega
  · dsimp only
    exact extended.drop _
  · dsimp only
    exact getLast?_rtake_append chain.history entry (by decide)

/-- A retained history has an entry at each of its heights. -/
theorem Retained.entryAt (HeaderError : Type) (retained : chain.Retained) (height : UInt32)
    (lower : chain.tip.height.toNat < height.toNat + chain.history.length)
    (upper : height.toNat ≤ chain.tip.height.toNat) :
    ∃ entry, (chain.entryAt height : Except (LightChainError HeaderError) HeaderEntry) =
      .ok entry := by
  cases history_eq : chain.history with
  | nil =>
    have tip_eq := retained.tip_eq
    rw [history_eq] at tip_eq
    cases tip_eq
  | cons first rest =>
    have linked := retained.linked
    have tip_eq := retained.tip_eq
    rw [history_eq] at linked tip_eq lower
    obtain ⟨height_eq, found⟩ := exists_height_of_linked linked tip_eq
    rw [List.length_cons] at lower
    obtain ⟨entry, entryMem, entry_eq⟩ := found height.toNat (by omega) upper
    have isSome : ((first :: rest).find? fun entry => entry.height = height).isSome := by
      rw [List.find?_isSome]
      exact ⟨entry, entryMem, by simpa using UInt32.toNat_inj.mp entry_eq⟩
    obtain ⟨result, result_eq⟩ := Option.isSome_iff_exists.mp isSome
    exact ⟨result, by rw [LightChain.entryAt, history_eq, result_eq]⟩

theorem Retained.suitableEntry (HeaderError : Type) (retained : chain.Retained) (height : UInt32)
    (above : 2 ≤ height.toNat)
    (lower : chain.tip.height.toNat + 2 < height.toNat + chain.history.length)
    (upper : height.toNat ≤ chain.tip.height.toNat) :
    ∃ entry, (chain.suitableEntry height : Except (LightChainError HeaderError) HeaderEntry) =
      .ok entry := by
  have bound := height.toNat_lt
  have first_eq : (height - 2).toNat = height.toNat - 2 :=
    UInt32.toNat_sub_of_le _ _ (UInt32.le_iff_toNat_le.mpr above)
  have second_eq : (height - 2 + 1).toNat = height.toNat - 1 := by
    rw [UInt32.toNat_add, first_eq]
    simp only [UInt32.reduceToNat]
    omega
  obtain ⟨first, firstFound⟩ := retained.entryAt HeaderError (height - 2) (by omega) (by omega)
  obtain ⟨second, secondFound⟩ :=
    retained.entryAt HeaderError (height - 2 + 1) (by omega) (by omega)
  obtain ⟨third, thirdFound⟩ := retained.entryAt HeaderError height (by omega) upper
  refine ⟨middleEntry first second third, ?_⟩
  simp only [LightChain.suitableEntry, Nat.not_lt.mpr above, if_false, firstFound, secondFound,
    thirdFound]
  rfl

/-- With a window of 144 blocks, the history is always long enough for the retarget
rule. -/
theorem Retained.suitablePoints (retained : chain.Retained)
    (window_eq : consensus.targetWindow chain.network = 144) :
    ∃ points, suitablePoints consensus chain = .ok points := by
  unfold LightChain.suitablePoints
  rw [window_eq]
  dsimp only
  split
  next deep =>
    have deep_nat : 146 ≤ chain.tip.height.toNat := UInt32.le_iff_toNat_le.mp deep
    have length_eq := retained.length_eq
    rw [requiredDifficultyHistory] at length_eq
    have window_le : ¬ chain.tip.height < 144 := by
      simp only [UInt32.lt_iff_toNat_lt, UInt32.reduceToNat]
      omega
    have ancestor_eq : (chain.tip.height - 144).toNat = chain.tip.height.toNat - 144 :=
      UInt32.toNat_sub_of_le _ _ (UInt32.not_lt.mp window_le)
    rw [if_neg window_le]
    obtain ⟨first, firstFound⟩ := retained.suitableEntry HeaderError (chain.tip.height - 144)
      (by omega) (by omega) (by omega)
    obtain ⟨last, lastFound⟩ := retained.suitableEntry HeaderError chain.tip.height (by omega)
      (by omega) (Nat.le_refl _)
    exact ⟨_, by rw [firstFound, lastFound]; rfl⟩
  next => exact ⟨_, rfl⟩

theorem Retained.append_ne_missing (retained : chain.Retained)
    (window_eq : consensus.targetWindow chain.network = 144) (header : Header) (now : UInt64) :
    LightChain.append consensus chain header now ≠ .error .missingDifficultyHistory := by
  obtain ⟨⟨first, last⟩, points_eq⟩ := retained.suitablePoints window_eq
  unfold LightChain.append
  split
  next => simp
  next height height_eq =>
    rw [points_eq]
    intro missing
    cases bits_eq : consensus.expectedNextBits chain.network (consensus.time header)
        chain.tip.difficultyPoint first last with
    | error error => simp [bits_eq, liftHeader, bind, Except.bind] at missing
    | ok expectedBits =>
      cases proof_eq : consensus.validateHeader chain.network header
          ⟨height, chain.tip.hash, chain.medianTimePast, now, expectedBits⟩ with
      | error error => simp [bits_eq, proof_eq, liftHeader, bind, Except.bind] at missing
      | ok proof =>
        cases added : chain.tip.chainwork.checkedAdd proof with
        | none => simp [bits_eq, proof_eq, added, liftHeader, bind, Except.bind] at missing
        | some chainwork =>
          simp [bits_eq, proof_eq, added, liftHeader, bind, Except.bind] at missing

end

section

variable {Header HeaderError : Type} (consensus : HeaderConsensus Header HeaderError)
  (blake2b : Octets → Hash)

/-- The ways to extend a chain. -/
inductive Call (Header : Type)
  | append (header : Header) (now : UInt64)
  | appendBatch (headers : List Header) (now : UInt64)

/-- The chain after a call; a failed call leaves it as it was. -/
def apply (chain : LightChain) : Call Header → LightChain
  | .append header now =>
    match append consensus chain header now with
    | .error _ => chain
    | .ok (_, after) => after
  | .appendBatch headers now =>
    match appendBatch consensus chain headers now with
    | .error _ => chain
    | .ok (_, after) => after

/-- The entries of a list of headers, up to the first that is refused. -/
def entriesAll (chain : LightChain) (now : UInt64) : List Header → List HeaderEntry
  | [] => []
  | header :: headers =>
    match append consensus chain header now with
    | .error _ => []
    | .ok (entry, after) => entry :: entriesAll after now headers

/-- The entries that a call adds to the chain. -/
def accepted (chain : LightChain) : Call Header → List HeaderEntry
  | .append header now => entriesAll consensus chain now [header]
  | .appendBatch headers now =>
    match appendBatch consensus chain headers now with
    | .error _ => []
    | .ok _ => entriesAll consensus chain now headers

/-- All entries that a run adds, the earliest first. -/
def record (chain : LightChain) : List (Call Header) → List HeaderEntry
  | [] => []
  | call :: calls => accepted consensus chain call ++ record (apply consensus chain call) calls

/-- A chain opened at genesis or restored from a snapshot. -/
inductive Opened : LightChain → Prop
  | genesis {network : Network} {now : UInt64} {limits : ChainLimits} {chain : LightChain}
      (opened : fromGenesis consensus network now limits = .ok chain) : Opened chain
  | snapshot {input : Octets} {network : Network} {floor : ChainSnapshotFloor}
      {chain : LightChain}
      (restored : decodeAuthenticatedSnapshot consensus blake2b input network floor = .ok chain) :
      Opened chain

/-- A chain is another one with more entries behind its tip. -/
structure Extends (chain : LightChain) (entries : List HeaderEntry) (after : LightChain) :
    Prop where
  network_eq : after.network = chain.network
  limits_eq : after.limits = chain.limits
  linked : (chain.tip :: entries).IsChain Linked
  tip_eq : (chain.tip :: entries).getLast? = some after.tip
  history_eq : after.history = (chain.history ++ entries).rtake requiredDifficultyHistory
  retained : after.Retained

variable {consensus blake2b}

variable {chain : LightChain}

theorem Retained.length_le (retained : chain.Retained) :
    chain.history.length ≤ requiredDifficultyHistory := by
  rw [retained.length_eq]
  exact Nat.min_le_right _ _

theorem Extends.refl (retained : chain.Retained) : Extends chain [] chain where
  network_eq := rfl
  limits_eq := rfl
  linked := List.isChain_singleton _
  tip_eq := rfl
  history_eq := by rw [List.append_nil, rtake_of_length_le retained.length_le]
  retained := retained

theorem Extends.trans {middle after : LightChain} {entries more : List HeaderEntry}
    (first : Extends chain entries middle) (second : Extends middle more after) :
    Extends chain (entries ++ more) after := by
  have joined : chain.tip :: (entries ++ more) = (chain.tip :: entries) ++ more := rfl
  constructor
  · rw [second.network_eq, first.network_eq]
  · rw [second.limits_eq, first.limits_eq]
  · rw [joined, List.isChain_append]
    refine ⟨first.linked, second.linked.tail, ?_⟩
    intro last lastMem next nextMem
    rw [first.tip_eq, Option.mem_some_iff] at lastMem
    subst lastMem
    cases more with
    | nil => cases nextMem
    | cons head rest =>
      obtain rfl := Option.some.inj nextMem
      exact second.linked.rel
  · rw [joined, List.getLast?_append, first.tip_eq]
    have tip_eq := second.tip_eq
    rw [List.getLast?_cons] at tip_eq
    cases last : more.getLast? with
    | none =>
      rw [last] at tip_eq
      exact tip_eq
    | some entry =>
      rw [last] at tip_eq
      exact tip_eq
  · rw [second.history_eq, first.history_eq, rtake_rtake_append, List.append_assoc]
  · exact second.retained

section

variable (linkedOnly : consensus.AcceptsOnlyLinked)

include linkedOnly

theorem Extends.append {after : LightChain} (retained : chain.Retained) {header : Header}
    {now : UInt64} {entry : HeaderEntry}
    (appended : append consensus chain header now = .ok (entry, after)) :
    Extends chain [entry] after := by
  have linked := linked_of_append linkedOnly appended
  have afterRetained := retained.append linkedOnly appended
  obtain ⟨height, bits, proof, chainwork, -, -, -, -, rfl⟩ := append_eq_ok appended
  constructor
  · rfl
  · rfl
  · exact List.isChain_pair.mpr linked
  · rfl
  · dsimp only
  · exact afterRetained

/-- A list of headers extends the chain by the entry of each of them. -/
theorem Extends.appendAll {after : LightChain} (retained : chain.Retained) {headers : List Header}
    {now : UInt64} (appended : appendAll consensus chain now headers = .ok after) :
    Extends chain (entriesAll consensus chain now headers) after := by
  induction headers generalizing chain with
  | nil =>
    obtain rfl := Except.ok.inj appended
    exact Extends.refl retained
  | cons header headers ih =>
    obtain ⟨⟨entry, middle⟩, first_eq, rest_eq⟩ := of_bind_ok appended
    have first := Extends.append linkedOnly retained first_eq
    have entries_eq : entriesAll consensus chain now (header :: headers) =
        [entry] ++ entriesAll consensus middle now headers := by
      rw [entriesAll, first_eq]
      rfl
    rw [entries_eq]
    exact first.trans (ih first.retained rest_eq)

/-- One call extends the chain by the entries it accepts. -/
theorem Extends.apply (retained : chain.Retained) (call : Call Header) :
    Extends chain (accepted consensus chain call) (apply consensus chain call) := by
  cases call with
  | append header now =>
    cases appended : LightChain.append consensus chain header now with
    | error error =>
      simp only [accepted, LightChain.apply, entriesAll, appended]
      exact Extends.refl retained
    | ok result =>
      simp only [accepted, LightChain.apply, entriesAll, appended]
      exact Extends.append linkedOnly retained appended
  | appendBatch headers now =>
    cases appended : LightChain.appendBatch consensus chain headers now with
    | error error =>
      simp only [accepted, LightChain.apply, appended]
      exact Extends.refl retained
    | ok result =>
      simp only [accepted, LightChain.apply, appended]
      obtain ⟨-, appended⟩ := of_guard_ok appended
      obtain ⟨candidate, candidate_eq, returned⟩ := of_bind_ok appended
      cases returned
      exact Extends.appendAll linkedOnly retained candidate_eq

/-- A run extends the chain by all that it records. -/
theorem Extends.run (retained : chain.Retained) (calls : List (Call Header)) :
    Extends chain (record consensus chain calls)
      (runFrom (LightChain.apply consensus) chain calls) := by
  induction calls generalizing chain with
  | nil => exact Extends.refl retained
  | cons call calls ih =>
    have first := Extends.apply linkedOnly retained call
    exact first.trans (ih first.retained)

end

/-- A restored history passed the same conditions that appends establish. -/
theorem IsRestorable.retained {network : Network} {limits : ChainLimits}
    {history : List HeaderEntry} {floor : ChainSnapshotFloor} {first tip : HeaderEntry}
    (restorable : IsRestorable consensus network limits history floor first tip) :
    LightChain.Retained ⟨network, limits, history, tip⟩ where
  length_eq := restorable.length_eq
  linked := restorable.pairs.imp fun previous next valid => by
    simp only [snapshotPairValid, Bool.and_eq_true, decide_eq_true_eq] at valid
    obtain ⟨⟨⟨height_eq, previous_eq⟩, work_lt⟩, -⟩ := valid
    exact ⟨nextHeight_eq_some height_eq, previous_eq, work_lt⟩
  tip_eq := restorable.tip_eq

theorem retained_of_fromGenesis {network : Network} {now : UInt64} {limits : ChainLimits}
    (opened : fromGenesis consensus network now limits = .ok chain) :
    chain.Retained := by
  obtain ⟨limits, -, opened⟩ := of_bind_ok opened
  obtain ⟨proof, -, opened⟩ := of_bind_ok opened
  obtain rfl := Except.ok.inj opened
  exact ⟨rfl, List.isChain_singleton _, rfl⟩

theorem Opened.retained (opened : Opened consensus blake2b chain) : chain.Retained := by
  cases opened with
  | genesis opened => exact retained_of_fromGenesis opened
  | snapshot restored =>
    obtain ⟨networkId, first, snapshot⟩ := decodeAuthenticatedSnapshot_eq_ok restored
    exact ⟨snapshot.restorable.retained.length_eq, snapshot.restorable.retained.linked,
      snapshot.restorable.retained.tip_eq⟩

/-- Along every run from an opened chain, the history holds exactly the last entries of
the whole chain, linked and ending at the tip, and an append finds all that the
difficulty rule of a 144-block window looks up. -/
theorem history_retained (linkedOnly : consensus.AcceptsOnlyLinked) {start : LightChain}
    (opened : Opened consensus blake2b start) (calls : List (Call Header)) :
    let chain := runFrom (apply consensus) start calls
    chain.history = (start.history ++ record consensus start calls).rtake
        (min (chain.tip.height.toNat + 1) requiredDifficultyHistory) ∧
      chain.Retained ∧
      (consensus.targetWindow chain.network = 144 → ∀ header now,
        append consensus chain header now ≠ .error .missingDifficultyHistory) := by
  intro chain
  have extends_ : Extends start (record consensus start calls) chain :=
    Extends.run linkedOnly opened.retained calls
  refine ⟨?_, extends_.retained, extends_.retained.append_ne_missing⟩
  rw [← extends_.retained.length_eq, extends_.history_eq, rtake_length_rtake]

end

end LightChain

namespace ExampleRegtest

def digest (byte : UInt8) : Hash :=
  ⟨List.replicate 32 byte, by simp⟩

/-- A header with its hash. -/
structure Header where
  hash : Hash
  previousBlock : Hash
  time : UInt64
  bits : UInt32

/-- What a header with the easiest target proves. -/
def work : Chainwork :=
  ⟨2, by simp⟩

def genesis : Header :=
  ⟨digest 1, .zero, 1580745078, 0x207fffff⟩

/-- Rules without retargeting: the parent, the target, and a time after the median and
at most two hours ahead of the clock. -/
def consensus : HeaderConsensus Header Unit where
  blockHash := Header.hash
  previousBlock := Header.previousBlock
  treeRoot _ := digest 7
  merkleRoot _ := digest 8
  time := Header.time
  bits := Header.bits
  networkId
    | .mainnet => 0
    | .testnet => 1
    | .regtest => 2
    | .simnet => 3
  genesisHeader _ := genesis
  genesisHash _ := digest 1
  genesisTime _ := genesis.time
  powBits _ := genesis.bits
  targetWindow _ := 144
  expectedNextBits _ _ previous _ _ := .ok previous.bits
  validateHeader _ header context :=
    if header.previousBlock = context.previousBlock ∧ header.bits = context.expectedBits ∧
        context.medianTime < header.time ∧ header.time.toNat ≤ context.now.toNat + 7200 then
      .ok work
    else .error ()

theorem consensus_acceptsOnlyLinked : consensus.AcceptsOnlyLinked := by
  intro network header context proof validated
  simp only [consensus] at validated
  split_ifs at validated with accepted
  cases validated
  exact ⟨accepted.1, by decide⟩

def now : UInt64 := genesis.time + 100

def start : LightChain where
  network := .regtest
  limits := ⟨4096⟩
  history := [entryFromHeader consensus 0 genesis work]
  tip := entryFromHeader consensus 0 genesis work

theorem fromGenesis_eq : LightChain.fromGenesis consensus .regtest now ⟨4096⟩ = .ok start := by
  rfl

def first : Header :=
  ⟨digest 2, digest 1, genesis.time + 1, genesis.bits⟩

/-- Headers a second apart. -/
def headerAt (height : Nat) : Header :=
  ⟨digest (UInt8.ofNat (height + 1)), digest (UInt8.ofNat height),
    genesis.time + UInt64.ofNat height, genesis.bits⟩

def calls (count : Nat) : List (LightChain.Call Header) :=
  (List.range count).map fun height => .append (headerAt (height + 1)) now

/-- The chain ends at the header of a height. -/
structure Reached (height : Nat) (chain : LightChain) : Prop where
  retained : chain.Retained
  network_eq : chain.network = .regtest
  height_eq : chain.tip.height.toNat = height
  hash_eq : chain.tip.hash = (headerAt height).hash
  bits_eq : chain.tip.bits = genesis.bits
  work_eq : chain.tip.chainwork.value = 2 * (height + 1)
  tip_le : chain.tip.time ≤ (headerAt height).time
  times_le : ∀ entry ∈ chain.history, entry.time ≤ (headerAt height).time

theorem reached_start : Reached 0 start where
  retained := LightChain.retained_of_fromGenesis fromGenesis_eq
  network_eq := rfl
  height_eq := rfl
  hash_eq := rfl
  bits_eq := rfl
  work_eq := rfl
  tip_le := by decide
  times_le := by decide

theorem toNat_time {height : Nat} (height_lt : height < 255) :
    (headerAt height).time.toNat = 1580745078 + height := by
  simp [headerAt, genesis, UInt64.toNat_add]
  omega

theorem Reached.append {height : Nat} {chain : LightChain} (reached : Reached height chain)
    (height_lt : height + 1 < 255) :
    Reached (height + 1)
      (LightChain.apply consensus chain (.append (headerAt (height + 1)) now)) := by
  have time_eq := toNat_time (Nat.lt_of_succ_lt height_lt)
  have nextTime_eq := toNat_time height_lt
  have later : (headerAt height).time < (headerAt (height + 1)).time := by
    rw [UInt64.lt_iff_toNat_lt]
    omega
  have median_lt : chain.medianTimePast < (headerAt (height + 1)).time :=
    UInt64.lt_of_le_of_lt (LightChain.medianTimePast_le reached.times_le reached.tip_le) later
  have notAhead : (headerAt (height + 1)).time.toNat ≤ now.toNat + 7200 := by
    have now_eq : now.toNat = 1580745178 := rfl
    omega
  have next_eq : nextHeight chain.tip.height = some (chain.tip.height + 1) := by
    rw [nextHeight, if_pos]
    rw [reached.height_eq]
    omega
  have validated : liftHeader (consensus.validateHeader chain.network (headerAt (height + 1))
      ⟨chain.tip.height + 1, chain.tip.hash, chain.medianTimePast, now, chain.tip.bits⟩) =
        (.ok work : Except (LightChainError Unit) Chainwork) := by
    simp only [consensus]
    rw [if_pos ⟨reached.hash_eq.symm, reached.bits_eq.symm, median_lt, notAhead⟩]
    rfl
  have fits : chain.tip.chainwork.value + work.value < 2 ^ 256 := by
    have value_eq : work.value = 2 := rfl
    rw [reached.work_eq, value_eq]
    omega
  have total_eq : chain.tip.chainwork.checkedAdd work = some ⟨_, fits⟩ := dif_pos fits
  obtain ⟨points, points_eq⟩ :=
    @LightChain.Retained.suitablePoints _ _ consensus _ reached.retained rfl
  have appended : ∃ result,
      LightChain.append consensus chain (headerAt (height + 1)) now = .ok result := by
    unfold LightChain.append
    rw [next_eq, points_eq]
    exact ⟨_, bind_ok rfl (bind_ok rfl (bind_ok validated (by rw [total_eq])))⟩
  obtain ⟨⟨entry, after⟩, appended⟩ := appended
  have retained := reached.retained.append consensus_acceptsOnlyLinked appended
  have linked := LightChain.linked_of_append consensus_acceptsOnlyLinked appended
  rw [LightChain.apply, appended]
  dsimp only
  obtain ⟨next, bits, proof, total, -, accepted, added, rfl, rfl⟩ :=
    LightChain.append_eq_ok appended
  have proof_eq : proof.value = 2 := by
    simp only [consensus] at accepted
    split_ifs at accepted
    cases accepted
    rfl
  have total_eq := Chainwork.checkedAdd_eq_some added
  constructor
  · exact retained
  · exact reached.network_eq
  · rw [linked.height_eq, reached.height_eq]
  · rfl
  · rfl
  · change total.value = _
    rw [total_eq, reached.work_eq, proof_eq]
    omega
  · exact UInt64.le_refl _
  · intro entry entryMem
    simp only [List.rtake] at entryMem
    rcases List.mem_append.mp (List.mem_of_mem_drop entryMem) with before | added
    · exact UInt64.le_trans (reached.times_le entry before) (UInt64.le_of_lt later)
    · rw [List.mem_singleton.mp added]
      exact UInt64.le_refl _

theorem reached_calls {count : Nat} (count_lt : count < 255) :
    Reached count (runFrom (LightChain.apply consensus) start (calls count)) := by
  induction count with
  | zero => exact reached_start
  | succ count ih =>
    rw [calls, List.range_succ, List.map_append, List.map_singleton, runFrom_concat]
    exact (ih (Nat.lt_of_succ_lt count_lt)).append count_lt

/-- At height 200 the first entries have left the history. -/
theorem history_retained_regtest :
    let chain := runFrom (LightChain.apply consensus) start (calls 200)
    chain.tip.height.toNat = 200 ∧ chain.history.length = 147 ∧
      chain.history =
        (start.history ++ LightChain.record consensus start (calls 200)).rtake 147 ∧
      ∀ header now, LightChain.append consensus chain header now ≠
        .error .missingDifficultyHistory := by
  have opened : LightChain.Opened consensus (fun _ => digest 0) start := .genesis fromGenesis_eq
  have reached := @reached_calls 200 (by decide)
  have kept := LightChain.history_retained consensus_acceptsOnlyLinked opened (calls 200)
  generalize calls 200 = past at reached kept ⊢
  intro chain
  obtain ⟨history_eq, retained, complete⟩ := kept
  have length_eq : min (chain.tip.height.toNat + 1) requiredDifficultyHistory = 147 := by
    rw [reached.height_eq]
    rfl
  have window_eq : consensus.targetWindow chain.network = 144 := by
    rw [reached.network_eq]
    rfl
  rw [length_eq] at history_eq
  exact ⟨reached.height_eq, retained.length_eq.trans length_eq, history_eq, complete window_eq⟩

end ExampleRegtest

end HnsDaneEngine.Light
