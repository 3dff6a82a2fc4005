import HnsDaneEngine.Light.Sync

/-!
# What the end of a round can do

The candidates of a round, the conditions under which one of them wins, and the few
ways in which a round ends.
-/

namespace HnsDaneEngine.Light

open Control Data Primitives

namespace HeaderSync

section

variable {PeerId Header HeaderError : Type} [DecidableEq PeerId]
  {consensus : HeaderConsensus Header HeaderError}

/-- The responses that pass validation. -/
def candidatesOf (consensus : HeaderConsensus Header HeaderError) (chain : LightChain)
    (now : UInt64) (responses : List (Sigma fun _ : PeerId => List Header)) :
    List (Candidate PeerId Header) :=
  responses.filterMap fun response =>
    validateResponse consensus chain now response.1 response.2

/-- The peers of the responses that fail it. -/
def failedPeers (consensus : HeaderConsensus Header HeaderError) (chain : LightChain)
    (now : UInt64) (responses : List (Sigma fun _ : PeerId => List Header)) : List PeerId :=
  (responses.filter fun response =>
    (validateResponse consensus chain now response.1 response.2).isNone).map Sigma.fst

theorem collectCandidates_eq (config : SyncConfig) (chain : LightChain) (now : UInt64)
    (responses : List (Sigma fun _ : PeerId => List Header)) (peers : Store PeerId PeerRecord) :
    collectCandidates consensus config chain now responses peers =
      (candidatesOf consensus chain now responses,
        (failedPeers consensus chain now responses).foldl (recordFailure config) peers) := by
  induction responses generalizing peers with
  | nil => rfl
  | cons response responses ih =>
    obtain ⟨peer, headers⟩ := response
    cases validated : validateResponse consensus chain now peer headers with
    | none =>
      simp only [collectCandidates, validated, ih, candidatesOf, failedPeers,
        List.filterMap_cons, Option.isNone_none, List.filter_cons_of_pos, List.map_cons,
        List.foldl_cons]
    | some candidate =>
      simp only [collectCandidates, validated, ih, candidatesOf, failedPeers,
        List.filterMap_cons, List.filter_cons, Option.isNone_some, Bool.false_eq_true, if_false]

variable {chain : LightChain} {now : UInt64} {candidate : Candidate PeerId Header}

section

omit [DecidableEq PeerId]

/-- A validated response is an empty one, or a batch that the chain accepts. -/
theorem validateResponse_eq_some_iff {peer : PeerId} {headers : List Header} :
    validateResponse consensus chain now peer headers = some candidate ↔
      candidate.peer = peer ∧ candidate.headers = headers ∧
        (headers = [] ∧ candidate.chain = chain ∨ headers ≠ [] ∧ ∃ entry,
            LightChain.appendBatch consensus chain headers now = .ok (entry, candidate.chain)) := by
  obtain ⟨candidatePeer, candidateHeaders, candidateChain⟩ := candidate
  unfold validateResponse
  split
  next empty =>
    rw [List.isEmpty_iff] at empty
    subst empty
    simp [eq_comm]
  next nonempty =>
    rw [List.isEmpty_iff] at nonempty
    split
    next error failed => simp [failed, nonempty]
    next entry after appended =>
      simp [appended, nonempty, eq_comm]

theorem mem_candidatesOf {responses : List (Sigma fun _ : PeerId => List Header)} :
    candidate ∈ candidatesOf consensus chain now responses ↔
      (⟨candidate.peer, candidate.headers⟩ : Sigma fun _ : PeerId => List Header) ∈ responses ∧
        validateResponse consensus chain now candidate.peer candidate.headers = some candidate := by
  unfold candidatesOf
  rw [List.mem_filterMap]
  constructor
  · rintro ⟨⟨peer, headers⟩, responseMem, validated⟩
    obtain ⟨peer_eq, headers_eq, -⟩ := validateResponse_eq_some_iff.mp validated
    subst peer_eq headers_eq
    exact ⟨responseMem, validated⟩
  · rintro ⟨responseMem, validated⟩
    exact ⟨_, responseMem, validated⟩

theorem peers_candidatesOf_sublist (responses : List (Sigma fun _ : PeerId => List Header)) :
    ((candidatesOf consensus chain now responses).map Candidate.peer).Sublist
      (responses.map Sigma.fst) := by
  induction responses with
  | nil => exact List.Sublist.refl _
  | cons response responses ih =>
    obtain ⟨peer, headers⟩ := response
    cases validated : validateResponse consensus chain now peer headers with
    | none =>
      simp only [candidatesOf, List.filterMap_cons, validated, List.map_cons] at ih ⊢
      exact ih.cons _
    | some candidate =>
      obtain ⟨rfl, -⟩ := validateResponse_eq_some_iff.mp validated
      simp only [candidatesOf, List.filterMap_cons, validated, List.map_cons] at ih ⊢
      exact ih.cons_cons _

/-- The candidates for one tip come from different peers. -/
theorem nodup_peers_supporters (order : HashOrder) (round : SyncRound PeerId Header) (hash : Hash) :
    ((supportersOf (candidatesOf consensus chain now (order.order round.responses.entries))
      hash).map Candidate.peer).Nodup := by
  have distinct := (((order.perm _).map Sigma.fst).nodup_iff).mpr round.responses.nodupKeys
  exact (distinct.sublist (peers_candidatesOf_sublist _)).sublist
    (List.filter_sublist.map Candidate.peer)

end

/-- One candidate wins: a candidate of its tip has the most work, all others with as much
work have the same tip, and enough peers agree on it. -/
structure Wins (minimum : Nat) (candidates : List (Candidate PeerId Header))
    (winner : Candidate PeerId Header) : Prop where
  winnerMem : winner ∈ candidates
  greatest : ∃ top ∈ candidates, top.chain.tip.hash = winner.chain.tip.hash ∧
    ∀ candidate ∈ candidates, candidate.chain.tip.chainwork.value ≤ top.chain.tip.chainwork.value ∧
      (candidate.chain.tip.hash ≠ winner.chain.tip.hash →
        candidate.chain.tip.chainwork.value < top.chain.tip.chainwork.value)
  agreed : minimum ≤ (supportersOf candidates winner.chain.tip.hash).length

omit [DecidableEq PeerId] in
theorem mem_bestHashes {candidates : List (Candidate PeerId Header)} {work : Nat} {hash : Hash} :
    hash ∈ bestHashes candidates work ↔ ∃ candidate ∈ candidates,
      candidate.chain.tip.chainwork.value = work ∧ candidate.chain.tip.hash = hash := by
  simp only [bestHashes, List.mem_dedup, List.mem_map, List.mem_filter, decide_eq_true_eq,
    and_assoc]

/-- The choice degrades the synchronizer or installs a winner. -/
theorem selectWinner_cases (HeaderError : Type) (sync : HeaderSync PeerId Header)
    (allResponded : Bool)
    (candidates : List (Candidate PeerId Header)) :
    (∃ error, selectWinner sync allResponded candidates =
      ((.error error, { sync with state := .degraded }) :
        Except (SyncError HeaderError) (HeaderRoundOutcome Header) × HeaderSync PeerId Header)) ∨
    ∃ winner, Wins sync.config.minimumPeerAgreement candidates winner ∧
      (let installed := sync.installWinner allResponded
        (supportersOf candidates winner.chain.tip.hash) winner
      selectWinner sync allResponded candidates =
        ((.ok ⟨installed.status, winner.headers⟩, installed) :
          Except (SyncError HeaderError) (HeaderRoundOutcome Header) ×
            HeaderSync PeerId Header)) := by
  unfold selectWinner
  split
  next => exact .inl ⟨_, rfl⟩
  next maximumWork maximum_eq =>
    obtain ⟨maximumMem, maximum_le⟩ := List.max?_eq_some_iff.mp maximum_eq
    split
    next bestHash best_eq =>
      dsimp only
      by_cases few : (supportersOf candidates bestHash).length < sync.config.minimumPeerAgreement
      · exact .inl ⟨_, if_pos few⟩
      rw [if_neg few]
      have best {candidate : Candidate PeerId Header} (candidateMem : candidate ∈ candidates)
          (work_eq : candidate.chain.tip.chainwork.value = maximumWork) :
          candidate.chain.tip.hash = bestHash := by
        have hashMem := mem_bestHashes.mpr ⟨candidate, candidateMem, work_eq, rfl⟩
        rwa [best_eq, List.mem_singleton] at hashMem
      obtain ⟨top, topMem, top_work⟩ := List.mem_map.mp maximumMem
      have top_hash := best topMem top_work
      split
      next absent =>
        rw [List.find?_eq_none] at absent
        exact absurd (decide_eq_true top_hash) (absent top topMem)
      next winner found =>
        have winner_hash : winner.chain.tip.hash = bestHash := by
          simpa using List.find?_some found
        subst winner_hash
        refine .inr ⟨winner, ⟨List.mem_of_find?_eq_some found, ⟨top, topMem, top_hash, ?_⟩,
          Nat.not_lt.mp few⟩, rfl⟩
        intro candidate candidateMem
        have work_le := maximum_le _ (List.mem_map.mpr ⟨candidate, candidateMem, rfl⟩)
        rw [top_work]
        refine ⟨work_le, fun other => Nat.lt_of_le_of_ne work_le fun work_eq => ?_⟩
        exact other (best candidateMem work_eq)
    next => exact .inl ⟨_, rfl⟩

/-- The ways in which a call to finish a round ends. -/
inductive FinishCase (consensus : HeaderConsensus Header HeaderError)
    (sync : HeaderSync PeerId Header) (order : HashOrder) (now : UInt64) :
    Except (SyncError HeaderError) (HeaderRoundOutcome Header) × HeaderSync PeerId Header → Prop
  | unfinished (error : SyncError HeaderError)
      (waiting : sync.round = none ∨ error = .roundIncomplete) :
      FinishCase consensus sync order now (.error error, sync)
  | stale {round : SyncRound PeerId Header} (round_eq : sync.round = some round)
      (moved : sync.chain.tip.hash ≠ round.request.baseHash ∨
        sync.chain.tip.height ≠ round.request.baseHeight) :
      FinishCase consensus sync order now (.error .staleRound, { sync with round := none })
  | degraded (error : SyncError HeaderError) (peers : Store PeerId PeerRecord) :
      FinishCase consensus sync order now
        (.error error, { sync with round := none, peers, state := .degraded })
  | won {round : SyncRound PeerId Header} (round_eq : sync.round = some round)
      (winner : Candidate PeerId Header)
      (wins : Wins sync.config.minimumPeerAgreement
        (candidatesOf consensus sync.chain now (order.order round.responses.entries)) winner) :
      FinishCase consensus sync order now
        (let responses := order.order round.responses.entries
        let scored : HeaderSync PeerId Header :=
          { sync with
            round := none
            peers := (failedPeers consensus sync.chain now responses).foldl
              (recordFailure sync.config) sync.peers }
        let installed := scored.installWinner
          (decide (round.responses.size = round.requested.length))
          (supportersOf (candidatesOf consensus sync.chain now responses) winner.chain.tip.hash)
          winner
        (.ok ⟨installed.status, winner.headers⟩, installed))

theorem finishCase (sync : HeaderSync PeerId Header) (order : HashOrder) (now : UInt64) :
    FinishCase consensus sync order now (finishRoundWithHeaders consensus sync order now) := by
  unfold finishRoundWithHeaders
  split
  next absent => exact .unfinished _ (.inl absent)
  next round round_eq =>
    dsimp only
    split
    next =>
      split
      next => exact .unfinished _ (.inr rfl)
      next => exact .degraded _ sync.peers
    next =>
      split
      next moved => exact .stale round_eq moved
      next =>
        rw [collectCandidates_eq]
        dsimp only
        generalize scored_eq : ({ sync with
          round := none
          peers := (failedPeers consensus sync.chain now
            (order.order round.responses.entries)).foldl (recordFailure sync.config) sync.peers } :
          HeaderSync PeerId Header) = scored
        rcases selectWinner_cases HeaderError scored
            (decide (round.responses.size = round.requested.length))
            (candidatesOf consensus sync.chain now (order.order round.responses.entries)) with
          ⟨error, failed⟩ | ⟨winner, wins, won⟩
        · rw [failed, ← scored_eq]
          exact .degraded _ _
        · subst scored_eq
          rw [won]
          exact .won round_eq winner wins

end

end HeaderSync

end HnsDaneEngine.Light
