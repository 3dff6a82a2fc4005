import HnsDaneEngine.Data.KeyOrder
import HnsDaneEngine.LightWallet.Merge

/-!
# Collecting the transactions of a filtered block

The packets that follow a payload are correlated with its matches.  A collector keeps the
matches that are still open by hash and the transactions that arrived by index; whatever
arrives, and in whatever order, every match is met at most once.
-/

namespace HnsDaneEngine.LightWallet

open Codec Control Data Primitives

/-- Correlates transaction packets following one verified payload. -/
structure FilteredBlockCollector (Transaction : Type) where
  evidence : WalletBlockEvidence
  pending : Store Hash Nat
  transactions : Store Nat Transaction

/-- The matches by their hashes. -/
def pendingOf : List MatchedTransaction → Store Hash Nat →
    Except WalletEvidenceError (Store Hash Nat)
  | [], pending => .ok pending
  | matched :: rest, pending =>
    if (pending.lookup matched.hash).isSome then .error .duplicateMatchedTransaction
    else pendingOf rest (pending.insert matched.hash matched.index)

/-- Start exact correlation of the transaction packets. -/
def WalletBlockEvidence.collect (Transaction : Type) (evidence : WalletBlockEvidence) :
    Except WalletEvidenceError (FilteredBlockCollector Transaction) := do
  let pending ← pendingOf evidence.found ∅
  .ok ⟨evidence, pending, ∅⟩

namespace FilteredBlockCollector

variable {Transaction : Type} (transactionHash : Transaction → Option Hash)

/-- Admit one transaction only when its hash was proven by the tree. -/
def admitTransaction (collector : FilteredBlockCollector Transaction) (transaction : Transaction) :
    Except WalletEvidenceError Nat × FilteredBlockCollector Transaction :=
  match transactionHash transaction with
  | none => (.error .transaction, collector)
  | some hash =>
    match collector.pending.lookup hash with
    | none => (.error .unexpectedTransaction, collector)
    | some index =>
      let after : FilteredBlockCollector Transaction :=
        { collector with
          pending := collector.pending.erase hash
          transactions := collector.transactions.insert index transaction }
      if (collector.transactions.lookup index).isSome then
        (.error .duplicateTransactionIndex, after)
      else (.ok after.pending.size, after)

/-- Finish only after every proven match has arrived exactly once. -/
def finish (collector : FilteredBlockCollector Transaction) :
    Except WalletEvidenceError (VerifiedWalletBlock Transaction) :=
  if collector.pending.entries.isEmpty then
    .ok ⟨collector.evidence, collector.transactions.sortedValues⟩
  else .error .missingTransactions

/-- The collector after the packets that arrived. -/
def after (collector : FilteredBlockCollector Transaction) (arrived : List Transaction) :
    FilteredBlockCollector Transaction :=
  arrived.foldl (fun collector transaction =>
    (collector.admitTransaction transactionHash transaction).2) collector

/-- How often a packet with the hash is admitted. -/
def admissions (collector : FilteredBlockCollector Transaction) (hash : Hash) :
    List Transaction → Nat
  | [] => 0
  | transaction :: rest =>
    (if transactionHash transaction = some hash ∧
        (collector.admitTransaction transactionHash transaction).1.isOk then 1 else 0) +
      admissions (collector.admitTransaction transactionHash transaction).2 hash rest

end FilteredBlockCollector

variable {reader after : PartialTreeReader}

/-- What every reader of a traversal keeps. -/
theorem traverse_invariant {Node : Type} {nodes : Nodes Node} {property : PartialTreeReader → Prop}
    (bit : ∀ {reader bit after}, reader.readBit = .ok (bit, after) → property reader →
      property after)
    (hash : ∀ {reader hash after}, reader.readHash = .ok (hash, after) → property reader →
      property after)
    (record : ∀ {reader hash position after}, reader.recordMatch hash position = .ok after →
      property reader → property after) {height position : Nat} {node : Node}
    (run : traverse nodes height position reader = .ok (node, after)) (holds : property reader) :
    property after := by
  induction height generalizing position reader node after with
  | zero =>
    rw [traverse] at run
    rcases of_bind_ok run with ⟨⟨parent, middle⟩, bit_eq, run⟩
    rcases of_bind_ok run with ⟨⟨leaf, last⟩, hash_eq, run⟩
    have last_holds := hash hash_eq (bit bit_eq holds)
    cases parent with
    | false =>
      cases run
      exact last_holds
    | true =>
      rcases of_bind_ok run with ⟨recorded, recorded_eq, run⟩
      cases run
      exact record recorded_eq last_holds
  | succ height ih =>
    rw [traverse] at run
    rcases of_bind_ok run with ⟨⟨parent, middle⟩, bit_eq, run⟩
    have middle_holds := bit bit_eq holds
    cases parent with
    | false =>
      rcases of_bind_ok run with ⟨⟨digest, last⟩, hash_eq, run⟩
      cases run
      exact hash hash_eq middle_holds
    | true =>
      simp only [Bool.not_true, Bool.false_eq_true, if_false] at run
      split at run
      next => cases run
      next leftPosition leftPosition_eq =>
        rcases of_bind_ok run with ⟨⟨left, last⟩, left_eq, run⟩
        have last_holds := ih left_eq middle_holds
        dsimp only at run
        split at run
        next => cases run
        next rightPosition rightPosition_eq =>
          split at run
          next inside =>
            rcases of_bind_ok run with ⟨⟨right, final⟩, right_eq, run⟩
            cases run
            exact ih right_eq last_holds
          next outside =>
            cases run
            exact last_holds

/-- The hashes of the matches so far, none of them twice. -/
def HashesRecorded (reader : PartialTreeReader) : Prop :=
  reader.matchedHashes.reverse = reader.found.map MatchedTransaction.hash ∧
    reader.matchedHashes.Nodup

theorem hashesRecorded_bit {bit : Bool} (read : reader.readBit = .ok (bit, after))
    (recorded : HashesRecorded reader) : HashesRecorded after := by
  unfold PartialTreeReader.readBit at read
  split at read
  next => cases read
  next =>
    dsimp only at read
    split at read
    next => cases read
    next =>
      cases read
      exact recorded

theorem hashesRecorded_hash {hash : Hash} (read : reader.readHash = .ok (hash, after))
    (recorded : HashesRecorded reader) : HashesRecorded after := by
  unfold PartialTreeReader.readHash at read
  split at read
  next => cases read
  next =>
    split at read
    next => cases read
    next =>
      cases read
      exact recorded

theorem hashesRecorded_match {hash : Hash} {position : Nat}
    (matched : reader.recordMatch hash position = .ok after) (recorded : HashesRecorded reader) :
    HashesRecorded after := by
  unfold PartialTreeReader.recordMatch at matched
  simp only [guard_eq_ok_iff] at matched
  rcases matched with ⟨fresh, -, matched⟩
  cases matched
  constructor
  · rw [List.reverse_cons, recorded.1, List.map_append, List.map_singleton]
  · exact List.nodup_cons.mpr ⟨fresh, recorded.2⟩

/-- The matches of a block, in the order of their indexes and none of them twice. -/
structure MatchesInOrder (found : List MatchedTransaction) : Prop where
  ascending : found.Pairwise fun first second => first.index < second.index
  distinct : (found.map MatchedTransaction.hash).Nodup

section

variable {Header : Type} {codec : PayloadCodec Header} {blake2b256 : Octets → Hash}

theorem matchesInOrder_of_accepted {input : Octets} {anchor : WalletHeaderAnchor}
    {evidence : WalletBlockEvidence}
    (accepted : WalletBlockEvidence.decodeForAnchor codec blake2b256 input anchor =
      .ok evidence) : MatchesInOrder evidence.found := by
  constructor
  · rcases exists_accepts accepted with ⟨tree, accepts⟩
    rw [accepts.found_eq, shownMatches, List.pairwise_map]
    exact accepts.shaped.shown_pairwise
  · rcases of_bind_ok accepted with ⟨decoded, decoded_eq, evidence_eq⟩
    cases evidence_eq
    rcases of_bind_ok decoded_eq with ⟨payload, parsed, decoded_eq⟩
    rcases of_bind_ok decoded_eq with ⟨⟨root, after⟩, root_eq, decoded_eq⟩
    simp only [guard_eq_ok_iff, not_not] at decoded_eq
    rcases decoded_eq with ⟨-, -, -, decoded_eq⟩
    cases decoded_eq
    have recorded : HashesRecorded after :=
      traverse_invariant hashesRecorded_bit hashesRecorded_hash hashesRecorded_match root_eq
        ⟨rfl, List.nodup_nil⟩
    rw [← recorded.1, List.nodup_reverse]
    exact recorded.2

end

section

variable {Transaction : Type} {transactionHash : Transaction → Option Hash}
  {evidence : WalletBlockEvidence} {arrived : List Transaction}
  {collector : FilteredBlockCollector Transaction}

/-- The first packet with a hash. -/
def arrival? (transactionHash : Transaction → Option Hash) (arrived : List Transaction)
    (hash : Hash) : Option Transaction :=
  arrived.find? fun transaction => decide (transactionHash transaction = some hash)

/-- The hash is matched, and no packet had it so far. -/
def Awaited (transactionHash : Transaction → Option Hash) (evidence : WalletBlockEvidence)
    (arrived : List Transaction) (hash : Hash) : Prop :=
  hash ∈ evidence.found.map MatchedTransaction.hash ∧
    ∀ earlier ∈ arrived, transactionHash earlier ≠ some hash

/-- What a collector holds after the packets that arrived. -/
structure Collecting (transactionHash : Transaction → Option Hash) (evidence : WalletBlockEvidence)
    (arrived : List Transaction) (collector : FilteredBlockCollector Transaction) : Prop where
  evidence_eq : collector.evidence = evidence
  pending_iff : ∀ hash index, collector.pending.lookup hash = some index ↔
    ⟨hash, index⟩ ∈ evidence.found ∧ ∀ earlier ∈ arrived, transactionHash earlier ≠ some hash
  transactions_iff : ∀ index transaction, collector.transactions.lookup index = some transaction ↔
    ∃ matched ∈ evidence.found, matched.index = index ∧
      arrival? transactionHash arrived matched.hash = some transaction

theorem arrival?_eq_none_iff {hash : Hash} :
    arrival? transactionHash arrived hash = none ↔
      ∀ earlier ∈ arrived, transactionHash earlier ≠ some hash := by
  simp [arrival?, List.find?_eq_none]

theorem hash_of_arrival? {hash : Hash} {transaction : Transaction}
    (first : arrival? transactionHash arrived hash = some transaction) :
    transactionHash transaction = some hash := by
  simpa using List.find?_some first

/-- A later packet is the first with its hash if no earlier one had it. -/
theorem arrival?_append_singleton (hash : Hash) (transaction : Transaction) :
    arrival? transactionHash (arrived ++ [transaction]) hash =
      (arrival? transactionHash arrived hash).or
        (if transactionHash transaction = some hash then some transaction else none) := by
  rw [arrival?, List.find?_append]
  congr 1
  rw [List.find?_singleton]
  simp

theorem pendingOf_eq_ok {found : List MatchedTransaction} {pending : Store Hash Nat}
    (distinct : (found.map MatchedTransaction.hash).Nodup)
    (absent : ∀ matched ∈ found, pending.lookup matched.hash = none) :
    ∃ after, pendingOf found pending = .ok after ∧ ∀ hash index, after.lookup hash = some index ↔
        pending.lookup hash = some index ∨ ⟨hash, index⟩ ∈ found := by
  induction found generalizing pending with
  | nil => exact ⟨pending, rfl, by simp⟩
  | cons matched rest ih =>
    rw [List.map_cons, List.nodup_cons] at distinct
    have head_absent := absent matched List.mem_cons_self
    have rest_absent : ∀ other ∈ rest,
        (pending.insert matched.hash matched.index).lookup other.hash = none := by
      intro other member
      have differ : other.hash ≠ matched.hash := by
        intro same
        exact distinct.1 (same ▸ List.mem_map_of_mem member)
      rw [AList.lookup_insert_ne differ]
      exact absent other (List.mem_cons_of_mem _ member)
    rcases ih distinct.2 rest_absent with ⟨after, after_eq, lookup_iff⟩
    refine ⟨after, ?_, ?_⟩
    · rw [pendingOf, head_absent]
      exact after_eq
    intro hash index
    rw [lookup_iff, List.mem_cons]
    by_cases same : hash = matched.hash
    · subst same
      rw [AList.lookup_insert, head_absent]
      constructor
      · rintro (found | later)
        · cases found
          exact .inr (.inl rfl)
        · exact .inr (.inr later)
      · rintro (none | first | later)
        · cases none
        · rw [← first]
          exact .inl rfl
        · exact .inr later
    · rw [AList.lookup_insert_ne same]
      have differ : (⟨hash, index⟩ : MatchedTransaction) ≠ matched := by
        rintro rfl
        exact same rfl
      simp [differ]

/-- A new collector waits for every match. -/
theorem collect_eq_ok (inOrder : MatchesInOrder evidence.found) :
    ∃ start, evidence.collect Transaction = .ok start ∧
      Collecting transactionHash evidence [] start := by
  rcases @pendingOf_eq_ok _ ∅ inOrder.distinct (fun _ _ => rfl) with ⟨pending, pending_eq, lookup_iff⟩
  refine ⟨⟨evidence, pending, ∅⟩, ?_, ?_⟩
  · rw [WalletBlockEvidence.collect, pending_eq]
    rfl
  constructor
  · rfl
  · intro hash index
    rw [lookup_iff]
    simp
  · intro index transaction
    simp [arrival?]

variable {found : List MatchedTransaction} {first second : MatchedTransaction}

theorem MatchesInOrder.eq_of_index (inOrder : MatchesInOrder found) (inFirst : first ∈ found)
    (inSecond : second ∈ found) (same : first.index = second.index) : first = second := by
  have distinct : (found.map MatchedTransaction.index).Nodup := by
    rw [List.Nodup, List.pairwise_map]
    exact inOrder.ascending.imp fun less => Nat.ne_of_lt less
  exact List.inj_on_of_nodup_map distinct inFirst inSecond same

theorem MatchesInOrder.eq_of_hash (inOrder : MatchesInOrder found) (inFirst : first ∈ found)
    (inSecond : second ∈ found) (same : first.hash = second.hash) : first = second :=
  List.inj_on_of_nodup_map inOrder.distinct inFirst inSecond same

namespace Collecting

variable {transaction : Transaction} {hash : Hash} {later : List Transaction}

/-- A packet that is not awaited changes nothing. -/
theorem refused (collecting : Collecting transactionHash evidence arrived collector)
    (unexpected : ∀ hash, transactionHash transaction = some hash →
      ¬ Awaited transactionHash evidence arrived hash) :
    ∃ error, collector.admitTransaction transactionHash transaction = (.error error, collector) := by
  unfold FilteredBlockCollector.admitTransaction
  cases hash_eq : transactionHash transaction with
  | none => exact ⟨.transaction, rfl⟩
  | some hash =>
    have absent : collector.pending.lookup hash = none := by
      rw [Option.eq_none_iff_forall_not_mem]
      intro index pending
      rcases (collecting.pending_iff hash index).mp pending with ⟨matched, first⟩
      exact unexpected hash hash_eq ⟨List.mem_map_of_mem matched, first⟩
    refine ⟨.unexpectedTransaction, ?_⟩
    simp only [absent]

/-- The state after a packet that was not awaited. -/
theorem append_refused (collecting : Collecting transactionHash evidence arrived collector)
    (unexpected : ∀ hash, transactionHash transaction = some hash →
      ¬ Awaited transactionHash evidence arrived hash) :
    Collecting transactionHash evidence (arrived ++ [transaction]) collector := by
  have same (matched : MatchedTransaction) (member : matched ∈ evidence.found) :
      arrival? transactionHash (arrived ++ [transaction]) matched.hash =
        arrival? transactionHash arrived matched.hash := by
    rw [arrival?_append_singleton]
    split
    next hash_eq =>
      cases first : arrival? transactionHash arrived matched.hash with
      | none =>
        refine absurd ?_ (unexpected matched.hash hash_eq)
        exact ⟨List.mem_map_of_mem member, arrival?_eq_none_iff.mp first⟩
      | some earlier => rfl
    next => rw [Option.or_none]
  constructor
  · exact collecting.evidence_eq
  · intro hash index
    rw [collecting.pending_iff]
    constructor
    · rintro ⟨matched, first⟩
      refine ⟨matched, ?_⟩
      intro earlier member
      rcases List.mem_append.mp member with inArrived | inLast
      · exact first earlier inArrived
      · rw [List.mem_singleton.mp inLast]
        exact fun hash_eq => unexpected hash hash_eq ⟨List.mem_map_of_mem matched, first⟩
    · rintro ⟨matched, first⟩
      exact ⟨matched, fun earlier member => first earlier (List.mem_append_left _ member)⟩
  · intro index held
    rw [collecting.transactions_iff]
    constructor
    · rintro ⟨matched, member, index_eq, first⟩
      exact ⟨matched, member, index_eq, (same matched member).trans first⟩
    · rintro ⟨matched, member, index_eq, first⟩
      exact ⟨matched, member, index_eq, (same matched member).symm.trans first⟩

section

variable (inOrder : MatchesInOrder evidence.found)
  (collecting : Collecting transactionHash evidence arrived collector)

include inOrder collecting

/-- A packet that is awaited meets its match. -/
theorem accepted (hash_eq : transactionHash transaction = some hash)
    (awaited : Awaited transactionHash evidence arrived hash) :
    ∃ remaining next,
      collector.admitTransaction transactionHash transaction = (.ok remaining, next) ∧
        Collecting transactionHash evidence (arrived ++ [transaction]) next := by
  rcases List.mem_map.mp awaited.1 with ⟨matched, member, rfl⟩
  have pending : collector.pending.lookup matched.hash = some matched.index :=
    (collecting.pending_iff _ _).mpr ⟨member, awaited.2⟩
  have fresh : collector.transactions.lookup matched.index = none := by
    rw [Option.eq_none_iff_forall_not_mem]
    intro held lookup_eq
    rcases (collecting.transactions_iff _ _).mp lookup_eq with ⟨other, otherMember, same, first⟩
    rw [inOrder.eq_of_index otherMember member same, arrival?_eq_none_iff.mpr awaited.2] at first
    cases first
  refine ⟨Store.size (collector.pending.erase matched.hash), ⟨collector.evidence,
    collector.pending.erase matched.hash,
    collector.transactions.insert matched.index transaction⟩, ?_, ?_⟩
  · simp only [FilteredBlockCollector.admitTransaction, hash_eq, pending, fresh]
    rfl
  constructor
  · exact collecting.evidence_eq
  · intro other index
    by_cases same : other = matched.hash
    · subst same
      rw [AList.lookup_erase]
      constructor
      · intro none_eq
        cases none_eq
      · rintro ⟨-, first⟩
        exact absurd hash_eq (first transaction (by simp))
    · rw [AList.lookup_erase_ne same, collecting.pending_iff]
      have differ : transactionHash transaction ≠ some other := by
        rw [hash_eq]
        exact fun equal => same (Option.some.inj equal).symm
      simp only [List.mem_append, List.mem_singleton, or_imp, forall_and, forall_eq]
      simp [differ]
  · intro index held
    by_cases same : index = matched.index
    · subst same
      rw [AList.lookup_insert]
      constructor
      · intro held_eq
        cases held_eq
        refine ⟨matched, member, rfl, ?_⟩
        rw [arrival?_append_singleton, arrival?_eq_none_iff.mpr awaited.2, if_pos hash_eq]
        rfl
      · rintro ⟨other, otherMember, index_eq, first⟩
        rw [inOrder.eq_of_index otherMember member index_eq, arrival?_append_singleton,
          arrival?_eq_none_iff.mpr awaited.2, if_pos hash_eq] at first
        exact first
    · rw [AList.lookup_insert_ne same, collecting.transactions_iff]
      have unchanged (other : MatchedTransaction) (otherMember : other ∈ evidence.found)
          (index_eq : other.index = index) :
          arrival? transactionHash (arrived ++ [transaction]) other.hash =
            arrival? transactionHash arrived other.hash := by
        have differ : transactionHash transaction ≠ some other.hash := by
          rw [hash_eq]
          intro equal
          have same_match := inOrder.eq_of_hash member otherMember (Option.some.inj equal)
          exact same (by rw [same_match, index_eq])
        rw [arrival?_append_singleton, if_neg differ, Option.or_none]
      constructor
      · rintro ⟨other, otherMember, index_eq, first⟩
        exact ⟨other, otherMember, index_eq, (unchanged other otherMember index_eq).trans first⟩
      · rintro ⟨other, otherMember, index_eq, first⟩
        exact ⟨other, otherMember, index_eq,
          (unchanged other otherMember index_eq).symm.trans first⟩

/-- Every packet takes the state of the packets before it to the state with it. -/
theorem step (transaction : Transaction) :
    Collecting transactionHash evidence (arrived ++ [transaction])
      (collector.admitTransaction transactionHash transaction).2 := by
  by_cases awaited : ∃ hash, transactionHash transaction = some hash ∧
      Awaited transactionHash evidence arrived hash
  · rcases awaited with ⟨hash, hash_eq, awaited⟩
    rcases collecting.accepted inOrder hash_eq awaited with ⟨remaining, next, admitted, after⟩
    rw [admitted]
    exact after
  · have unexpected : ∀ hash, transactionHash transaction = some hash →
        ¬ Awaited transactionHash evidence arrived hash :=
      fun hash hash_eq holds => awaited ⟨hash, hash_eq, holds⟩
    rcases collecting.refused unexpected with ⟨error, refused⟩
    rw [refused]
    exact collecting.append_refused unexpected

theorem run (later : List Transaction) :
    Collecting transactionHash evidence (arrived ++ later)
      (collector.after transactionHash later) := by
  induction later generalizing arrived collector with
  | nil =>
    rw [List.append_nil]
    exact collecting
  | cons transaction rest ih =>
    have continued := ih (collecting.step inOrder transaction)
    rw [List.append_assoc] at continued
    exact continued

/-- Only awaited packets are admitted. -/
theorem admissions_eq_zero (absent : Awaited transactionHash evidence arrived hash →
      ∀ transaction ∈ later, transactionHash transaction ≠ some hash) :
    collector.admissions transactionHash hash later = 0 := by
  induction later generalizing arrived collector with
  | nil => rfl
  | cons transaction rest ih =>
    rw [FilteredBlockCollector.admissions]
    have rest_absent : Awaited transactionHash evidence (arrived ++ [transaction]) hash →
        ∀ other ∈ rest, transactionHash other ≠ some hash := by
      intro awaited other member
      have before : Awaited transactionHash evidence arrived hash :=
        ⟨awaited.1, fun earlier inArrived =>
          awaited.2 earlier (List.mem_append_left _ inArrived)⟩
      exact absent before other (List.mem_cons_of_mem _ member)
    rw [ih (collecting.step inOrder transaction) rest_absent, Nat.add_zero]
    split_ifs with admitted
    · rcases admitted with ⟨hash_eq, succeeded⟩
      have unexpected : ∀ other, transactionHash transaction = some other →
          ¬ Awaited transactionHash evidence arrived other := by
        intro other other_eq awaited
        rw [hash_eq] at other_eq
        cases other_eq
        exact absent awaited transaction List.mem_cons_self hash_eq
      rcases collecting.refused unexpected with ⟨error, refused⟩
      rw [refused] at succeeded
      cases succeeded
    · rfl

/-- An awaited hash is admitted once, when a packet has it. -/
theorem admissions_eq_one (awaited : Awaited transactionHash evidence arrived hash)
    (arrives : ∃ transaction ∈ later, transactionHash transaction = some hash) :
    collector.admissions transactionHash hash later = 1 := by
  induction later generalizing arrived collector with
  | nil =>
    rcases arrives with ⟨transaction, member, -⟩
    cases member
  | cons transaction rest ih =>
    rw [FilteredBlockCollector.admissions]
    by_cases hash_eq : transactionHash transaction = some hash
    · rcases collecting.accepted inOrder hash_eq awaited with ⟨remaining, next, admitted, after⟩
      have met : Awaited transactionHash evidence (arrived ++ [transaction]) hash →
          ∀ other ∈ rest, transactionHash other ≠ some hash :=
        fun still => absurd hash_eq (still.2 transaction (by simp))
      rw [admitted, after.admissions_eq_zero inOrder met, if_pos ⟨hash_eq, rfl⟩]
    have still : Awaited transactionHash evidence (arrived ++ [transaction]) hash := by
      refine ⟨awaited.1, ?_⟩
      intro earlier member
      rcases List.mem_append.mp member with inArrived | inLast
      · exact awaited.2 earlier inArrived
      · rw [List.mem_singleton.mp inLast]
        exact hash_eq
    have later_arrives : ∃ other ∈ rest, transactionHash other = some hash := by
      rcases arrives with ⟨other, member, other_eq⟩
      rcases List.mem_cons.mp member with same | inRest
      · exact absurd (same ▸ other_eq) hash_eq
      · exact ⟨other, inRest, other_eq⟩
    rw [ih (collecting.step inOrder transaction) still later_arrives,
      if_neg fun admitted => hash_eq admitted.1]

end

theorem finish_eq (collecting : Collecting transactionHash evidence arrived collector) :
    (∃ block, collector.finish = .ok block) ↔ ∀ matched ∈ evidence.found, ∃ transaction ∈ arrived,
        transactionHash transaction = some matched.hash := by
  have empty_iff : collector.pending.entries.isEmpty ↔
      ∀ hash, collector.pending.lookup hash = none := by
    rw [List.isEmpty_iff]
    constructor
    · intro empty hash
      rw [AList.lookup_eq_none, AList.mem_keys, AList.keys, empty]
      simp
    · intro absent
      rw [List.eq_nil_iff_forall_not_mem]
      rintro ⟨hash, index⟩ member
      rw [← AList.mem_lookup_iff, absent hash] at member
      cases member
  have pending_iff : (∀ hash, collector.pending.lookup hash = none) ↔
      ∀ matched ∈ evidence.found, ∃ transaction ∈ arrived,
        transactionHash transaction = some matched.hash := by
    constructor
    · intro absent matched member
      by_contra missing
      push Not at missing
      have pending := (collecting.pending_iff matched.hash matched.index).mpr ⟨member, missing⟩
      rw [absent] at pending
      cases pending
    · intro arrives hash
      rw [Option.eq_none_iff_forall_not_mem]
      intro index pending
      rcases (collecting.pending_iff hash index).mp pending with ⟨member, missing⟩
      rcases arrives _ member with ⟨transaction, inArrived, hash_eq⟩
      exact missing transaction inArrived hash_eq
  rw [← pending_iff, ← empty_iff, FilteredBlockCollector.finish]
  split
  next empty => simp [empty]
  next pending => simp [pending]

/-- The transactions of a finished collector, in the order of the matches. -/
theorem sortedValues_eq (inOrder : MatchesInOrder evidence.found)
    (collecting : Collecting transactionHash evidence arrived collector) :
    collector.transactions.sortedValues = evidence.found.filterMap fun matched =>
        arrival? transactionHash arrived matched.hash := by
  have ascending : (evidence.found.filterMap fun matched =>
      (arrival? transactionHash arrived matched.hash).map fun transaction =>
        (matched.index, transaction)).Pairwise fun first second => first.1 < second.1 := by
    rw [List.pairwise_filterMap]
    refine inOrder.ascending.imp ?_
    intro first second less row row_eq other other_eq
    rcases Option.map_eq_some_iff.mp row_eq with ⟨transaction, -, rfl⟩
    rcases Option.map_eq_some_iff.mp other_eq with ⟨otherTransaction, -, rfl⟩
    exact less
  rw [Store.sortedValues_eq ascending, List.map_filterMap]
  · congr 1
    funext matched
    rw [Option.map_map]
    exact Option.map_id'
  · intro index transaction
    rw [collecting.transactions_iff, List.mem_filterMap]
    constructor
    · rintro ⟨matched, member, rfl, first⟩
      exact ⟨matched, member, by rw [first]; rfl⟩
    · rintro ⟨matched, member, row_eq⟩
      rcases Option.map_eq_some_iff.mp row_eq with ⟨arrival, first, same⟩
      cases same
      exact ⟨matched, member, rfl, first⟩

end Collecting

/-- What a collector does with any packets in any order. -/
structure CollectorLaws (transactionHash : Transaction → Option Hash)
    (evidence : WalletBlockEvidence) (start : FilteredBlockCollector Transaction) : Prop where
  unexpected : ∀ arrived transaction,
    (∀ hash, transactionHash transaction = some hash →
      ¬ Awaited transactionHash evidence arrived hash) →
    ∃ error, (start.after transactionHash arrived).admitTransaction transactionHash transaction =
      (.error error, start.after transactionHash arrived)
  finish_iff : ∀ arrived, (∃ block, (start.after transactionHash arrived).finish = .ok block) ↔
    ∀ matched ∈ evidence.found, start.admissions transactionHash matched.hash arrived = 1
  finished : ∀ arrived block, (start.after transactionHash arrived).finish = .ok block →
    block.evidence = evidence ∧ block.transactions.map some =
        block.evidence.found.map fun matched =>
          arrival? transactionHash arrived matched.hash
  aligned : ∀ arrived block, (start.after transactionHash arrived).finish = .ok block →
    block.transactions.map transactionHash = block.evidence.found.map (some ·.hash)

theorem Collecting.finished (inOrder : MatchesInOrder evidence.found)
    (collecting : Collecting transactionHash evidence arrived collector)
    {block : VerifiedWalletBlock Transaction} (finishes : collector.finish = .ok block) :
    block.evidence = evidence ∧ block.transactions.map some = evidence.found.map fun matched =>
        arrival? transactionHash arrived matched.hash := by
  have arrives := collecting.finish_eq.mp ⟨block, finishes⟩
  unfold FilteredBlockCollector.finish at finishes
  split at finishes
  next =>
    cases finishes
    refine ⟨collecting.evidence_eq, ?_⟩
    change collector.transactions.sortedValues.map some = _
    rw [collecting.sortedValues_eq inOrder, List.map_filterMap_some_eq_filter_map_isSome,
      List.filter_eq_self]
    intro first member
    rcases List.mem_map.mp member with ⟨matched, inFound, rfl⟩
    rw [Option.isSome_iff_ne_none]
    intro absent
    rcases arrives matched inFound with ⟨transaction, inArrived, hash_eq⟩
    exact arrival?_eq_none_iff.mp absent transaction inArrived hash_eq
  next => cases finishes

theorem Collecting.start (inOrder : MatchesInOrder evidence.found)
    {start : FilteredBlockCollector Transaction}
    (collecting : Collecting transactionHash evidence [] start) (arrived : List Transaction) :
    Collecting transactionHash evidence arrived (start.after transactionHash arrived) := by
  simpa using collecting.run inOrder arrived

/-- Every collector that starts from matches in order keeps the laws. -/
theorem collectorLaws (inOrder : MatchesInOrder evidence.found)
    {start : FilteredBlockCollector Transaction}
    (collecting : Collecting transactionHash evidence [] start) :
    CollectorLaws transactionHash evidence start where
  unexpected arrived _ notAwaited := (collecting.start inOrder arrived).refused notAwaited
  finish_iff arrived := by
    rw [(collecting.start inOrder arrived).finish_eq]
    have waits (matched : MatchedTransaction) (member : matched ∈ evidence.found) :
        Awaited transactionHash evidence [] matched.hash :=
      ⟨List.mem_map_of_mem member, by simp⟩
    constructor
    · intro arrives matched member
      exact collecting.admissions_eq_one inOrder (waits matched member) (arrives matched member)
    · intro once matched member
      by_contra missing
      push Not at missing
      have never := collecting.admissions_eq_zero inOrder fun _ => missing
      rw [once matched member] at never
      cases never
  finished arrived block finishes := by
    rcases (collecting.start inOrder arrived).finished inOrder finishes with ⟨same, first⟩
    rw [same]
    exact ⟨rfl, first⟩
  aligned arrived block finishes := by
    rcases (collecting.start inOrder arrived).finished inOrder finishes with ⟨same, first⟩
    rw [same]
    have hashes : (block.transactions.map some).map (·.bind transactionHash) =
        evidence.found.map (some ·.hash) := by
      rw [first, List.map_map]
      apply List.map_congr_left
      intro matched member
      have shown : arrival? transactionHash arrived matched.hash ∈ block.transactions.map some := by
        rw [first]
        exact List.mem_map_of_mem member
      rcases List.mem_map.mp shown with ⟨transaction, -, arrival_eq⟩
      rw [Function.comp_apply, ← arrival_eq]
      have carries : transactionHash transaction = some matched.hash :=
        hash_of_arrival? arrival_eq.symm
      exact carries
    rw [List.map_map] at hashes
    exact hashes

end

end HnsDaneEngine.LightWallet
