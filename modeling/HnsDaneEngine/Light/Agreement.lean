import HnsDaneEngine.Light.History
import HnsDaneEngine.Light.Rounds

/-!
# Agreement of a round

The result of a round does not depend on the order in which responses arrive, nor on
the order in which the hash table yields them; the chain moves only to a tip that
enough of the requested peers validated and that has more work than every other.  The hashes
of the headers in the responses are taken to be free of collisions.
-/

namespace HnsDaneEngine.Light

open Control Data Primitives

/-! ## Header sequences -/

section

variable {Header HeaderError : Type} (consensus : HeaderConsensus Header HeaderError)

/-- Headers that follow one another from a block. -/
def LinkedFrom : Hash → List Header → Prop
  | _, [] => True
  | hash, header :: headers =>
    consensus.previousBlock header = hash ∧ LinkedFrom (consensus.blockHash header) headers

/-- The block at the end of a header sequence. -/
def endHash : Hash → List Header → Hash
  | hash, [] => hash
  | _, header :: headers => endHash (consensus.blockHash header) headers

/-- No collision among some headers behind a block: no two of them share a hash, and none of
their sequences leads from the block back to it. -/
structure HeaderConsensus.CollisionFree (known : Header → Prop) (tip : Hash) : Prop where
  injective : ∀ first second, known first → known second →
    consensus.blockHash first = consensus.blockHash second → first = second
  acyclic : ∀ header headers, (∀ member ∈ header :: headers, known member) →
    LinkedFrom consensus tip (header :: headers) →
    endHash consensus tip (header :: headers) ≠ tip

variable {consensus}

theorem linkedFrom_concat {hash : Hash} {headers : List Header} {header : Header} :
    LinkedFrom consensus hash (headers ++ [header]) ↔ LinkedFrom consensus hash headers ∧
        consensus.previousBlock header = endHash consensus hash headers := by
  induction headers generalizing hash with
  | nil => simp [LinkedFrom, endHash]
  | cons first headers ih =>
    rw [List.cons_append, LinkedFrom, ih, LinkedFrom, and_assoc]
    rfl

theorem endHash_concat (hash : Hash) (headers : List Header) (header : Header) :
    endHash consensus hash (headers ++ [header]) = consensus.blockHash header := by
  induction headers generalizing hash with
  | nil => rfl
  | cons first headers ih => exact ih _

/-- Two sequences from one block to another are the same. -/
theorem HeaderConsensus.CollisionFree.eq_of_endHash_eq {known : Header → Prop} {hash : Hash}
    (free : consensus.CollisionFree known hash) {first second : List Header}
    (firstKnown : ∀ header ∈ first, known header) (secondKnown : ∀ header ∈ second, known header)
    (firstLinked : LinkedFrom consensus hash first)
    (secondLinked : LinkedFrom consensus hash second)
    (end_eq : endHash consensus hash first = endHash consensus hash second) : first = second := by
  induction first using List.reverseRecOn generalizing second with
  | nil =>
    cases second with
    | nil => rfl
    | cons header headers => exact absurd end_eq.symm (free.acyclic _ _ secondKnown secondLinked)
  | append_singleton first last ih =>
    rcases List.eq_nil_or_concat second with rfl | ⟨second, other, rfl⟩
    · cases first with
      | nil => exact absurd end_eq (free.acyclic _ _ firstKnown firstLinked)
      | cons header headers => exact absurd end_eq (free.acyclic _ _ firstKnown firstLinked)
    rw [List.concat_eq_append] at *
    rw [endHash_concat, endHash_concat] at end_eq
    rw [List.forall_mem_append] at firstKnown secondKnown
    obtain rfl := free.injective _ _ (firstKnown.2 _ (List.mem_singleton_self _))
      (secondKnown.2 _ (List.mem_singleton_self _)) end_eq
    obtain ⟨firstLinked, first_eq⟩ := linkedFrom_concat.mp firstLinked
    obtain ⟨secondLinked, second_eq⟩ := linkedFrom_concat.mp secondLinked
    rw [ih firstKnown.1 secondKnown.1 firstLinked secondLinked (first_eq.symm.trans second_eq)]

/-- Appended headers lead from the old tip to the new one. -/
theorem linkedFrom_of_appendAll (linkedOnly : consensus.AcceptsOnlyLinked)
    {chain after : LightChain} {now : UInt64} {headers : List Header}
    (appended : LightChain.appendAll consensus chain now headers = .ok after) :
    LinkedFrom consensus chain.tip.hash headers ∧
      endHash consensus chain.tip.hash headers = after.tip.hash := by
  induction headers generalizing chain with
  | nil =>
    obtain rfl := Except.ok.inj appended
    exact ⟨trivial, rfl⟩
  | cons header headers ih =>
    obtain ⟨⟨entry, middle⟩, first_eq, rest_eq⟩ := of_bind_ok appended
    obtain ⟨linked, end_eq⟩ := ih rest_eq
    obtain ⟨height, bits, proof, chainwork, -, validated, -, rfl, rfl⟩ :=
      LightChain.append_eq_ok first_eq
    exact ⟨⟨(linkedOnly _ _ _ _ validated).1, linked⟩, end_eq⟩

end

namespace HeaderSync

section

variable {PeerId Header HeaderError : Type} [DecidableEq PeerId]
  {consensus : HeaderConsensus Header HeaderError} {now : UInt64}

omit [DecidableEq PeerId] in
/-- A validated response extends the chain by its headers. -/
theorem appendAll_of_validateResponse {chain : LightChain} {peer : PeerId} {headers : List Header}
    {candidate : Candidate PeerId Header}
    (validated : validateResponse consensus chain now peer headers = some candidate) :
    LightChain.appendAll consensus chain now candidate.headers = .ok candidate.chain := by
  obtain ⟨-, headers_eq, extended⟩ := validateResponse_eq_some_iff.mp validated
  rcases extended with ⟨empty, unchanged⟩ | ⟨-, entry, appended⟩
  · rw [headers_eq, empty, unchanged]
    rfl
  · obtain ⟨-, appended⟩ := of_guard_ok appended
    obtain ⟨extended, extended_eq, returned⟩ := of_bind_ok appended
    cases returned
    rw [headers_eq, extended_eq]

omit [DecidableEq PeerId] in
/-- Candidates with the same tip have the same headers and the same chain. -/
theorem candidates_agree (linkedOnly : consensus.AcceptsOnlyLinked) {known : Header → Prop}
    {chain : LightChain} (free : consensus.CollisionFree known chain.tip.hash)
    {responses : List (Sigma fun _ : PeerId => List Header)}
    (allKnown : ∀ response ∈ responses, ∀ header ∈ response.2, known header)
    {first second : Candidate PeerId Header}
    (firstMem : first ∈ candidatesOf consensus chain now responses)
    (secondMem : second ∈ candidatesOf consensus chain now responses)
    (hash_eq : first.chain.tip.hash = second.chain.tip.hash) :
    first.headers = second.headers ∧ first.chain = second.chain := by
  obtain ⟨firstMem, firstValidated⟩ := mem_candidatesOf.mp firstMem
  obtain ⟨secondMem, secondValidated⟩ := mem_candidatesOf.mp secondMem
  have firstAppended := appendAll_of_validateResponse firstValidated
  have secondAppended := appendAll_of_validateResponse secondValidated
  obtain ⟨firstLinked, first_eq⟩ := linkedFrom_of_appendAll linkedOnly firstAppended
  obtain ⟨secondLinked, second_eq⟩ := linkedFrom_of_appendAll linkedOnly secondAppended
  have headers_eq : first.headers = second.headers :=
    free.eq_of_endHash_eq (allKnown _ firstMem) (allKnown _ secondMem) firstLinked secondLinked
      (first_eq.trans (hash_eq.trans second_eq.symm))
  rw [headers_eq, secondAppended] at firstAppended
  exact ⟨headers_eq, (Except.ok.inj firstAppended).symm⟩

/-! ## Order of the candidates -/

theorem max?_eq_of_perm {first second : List Nat} (perm : first.Perm second) :
    first.max? = second.max? := by
  cases first_eq : first.max? with
  | none =>
    rw [List.max?_eq_none_iff] at first_eq
    subst first_eq
    rw [List.nil_perm.mp perm]
    rfl
  | some value =>
    obtain ⟨valueMem, upper⟩ := List.max?_eq_some_iff.mp first_eq
    refine (List.max?_eq_some_iff.mpr ⟨perm.mem_iff.mp valueMem, ?_⟩).symm
    exact fun other otherMem => upper other (perm.mem_iff.mpr otherMem)

variable {first : List (Candidate PeerId Header)} {second : List (Candidate PeerId Header)}

theorem foldl_recordSuccess_eq_of_perm (perm : first.Perm second)
    (peers : Store PeerId PeerRecord) :
    first.foldl (fun peers candidate => recordSuccess peers candidate.peer) peers =
      second.foldl (fun peers candidate => recordSuccess peers candidate.peer) peers :=
  perm.foldl_eq' (fun _ _ _ _ _ => Store.modify_comm _ _ _ _) peers

theorem foldl_recordFailure_eq_of_perm (config : SyncConfig) {first second : List PeerId}
    (perm : first.Perm second) (peers : Store PeerId PeerRecord) :
    first.foldl (recordFailure config) peers = second.foldl (recordFailure config) peers :=
  perm.foldl_eq' (fun _ _ _ _ _ => Store.modify_comm _ _ _ _) peers

/-- A winner is installed by its headers and chain, whoever sent it and in whatever order
its supporters come. -/
theorem installWinner_eq_of_perm (sync : HeaderSync PeerId Header) (allResponded : Bool)
    (perm : first.Perm second) {winner other : Candidate PeerId Header}
    (chain_eq : winner.chain = other.chain) :
    sync.installWinner allResponded first winner =
      sync.installWinner allResponded second other := by
  have all_eq (test : Candidate PeerId Header → Bool) : first.all test = second.all test :=
    perm.all_eq
  simp only [installWinner, chain_eq, foldl_recordSuccess_eq_of_perm perm, all_eq]

omit [DecidableEq PeerId] in
theorem exists_find?_tip {candidates : List (Candidate PeerId Header)} {work : Nat} {hash : Hash}
    (hashMem : hash ∈ bestHashes candidates work) :
    ∃ winner ∈ candidates, winner.chain.tip.hash = hash ∧
      candidates.find? (fun candidate => candidate.chain.tip.hash = hash) = some winner := by
  obtain ⟨candidate, candidateMem, -, hash_eq⟩ := mem_bestHashes.mp hashMem
  cases found : candidates.find? (fun candidate => candidate.chain.tip.hash = hash) with
  | none =>
    rw [List.find?_eq_none] at found
    exact absurd (decide_eq_true hash_eq) (found candidate candidateMem)
  | some winner =>
    exact ⟨winner, List.mem_of_find?_eq_some found, by simpa using List.find?_some found, rfl⟩

theorem selectWinner_eq_of_perm (HeaderError : Type) (sync : HeaderSync PeerId Header)
    (allResponded : Bool) (perm : first.Perm second)
    (agree : ∀ left ∈ first, ∀ right ∈ first, left.chain.tip.hash = right.chain.tip.hash →
      left.headers = right.headers ∧ left.chain = right.chain) :
    (selectWinner sync allResponded first :
      Except (SyncError HeaderError) (HeaderRoundOutcome Header) × HeaderSync PeerId Header) =
      selectWinner sync allResponded second := by
  unfold selectWinner
  rw [max?_eq_of_perm (perm.map fun candidate => candidate.chain.tip.chainwork.value)]
  split
  next => rfl
  next maximumWork _ =>
    have best_perm : (bestHashes first maximumWork).Perm (bestHashes second maximumWork) :=
      ((perm.filter _).map _).dedup
    rcases first_eq : bestHashes first maximumWork with _ | ⟨bestHash, _ | ⟨otherHash, more⟩⟩
    · rw [first_eq, List.nil_perm] at best_perm
      rw [best_perm]
    · rw [first_eq, List.singleton_perm] at best_perm
      rw [← best_perm]
      have supporters_perm : (supportersOf first bestHash).Perm (supportersOf second bestHash) :=
        perm.filter _
      dsimp only
      rw [supporters_perm.length_eq]
      split
      next => rfl
      next =>
        obtain ⟨winner, winnerMem, winner_eq, firstFound⟩ :=
          exists_find?_tip (first_eq ▸ List.mem_singleton_self bestHash)
        obtain ⟨other, otherMem, other_eq, secondFound⟩ :=
          exists_find?_tip (best_perm ▸ List.mem_singleton_self bestHash)
        obtain ⟨headers_eq, chain_eq⟩ := agree winner winnerMem other
          (perm.mem_iff.mpr otherMem) (winner_eq.trans other_eq.symm)
        rw [firstFound, secondFound]
        dsimp only
        rw [installWinner_eq_of_perm sync allResponded supporters_perm chain_eq, headers_eq]
    · have length_eq := best_perm.length_eq
      rw [first_eq] at length_eq
      rcases second_eq : bestHashes second maximumWork with _ | ⟨x, _ | ⟨y, rest⟩⟩
      · rfl
      · rw [second_eq] at length_eq
        cases length_eq
      · rfl

/-! ## Order of the submissions -/

/-- One response on its way to the synchronizer. -/
structure Submission (PeerId Header : Type) where
  generation : UInt64
  peer : PeerId
  headers : List Header
  now : UInt64

/-- Submit one response; a refused one changes nothing. -/
def submit (HeaderError : Type) (maxHeaders : Nat) (sync : HeaderSync PeerId Header)
    (submission : Submission PeerId Header) : HeaderSync PeerId Header :=
  orUnchanged sync (sync.submitHeaders maxHeaders submission.generation submission.peer
    submission.headers submission.now : Except (SyncError HeaderError) _)

/-- A round takes a response. -/
def Takes (maxHeaders : Nat) (round : SyncRound PeerId Header)
    (submission : Submission PeerId Header) : Prop :=
  submission.generation = round.request.generation ∧ submission.now ≤ round.request.deadline ∧
    submission.peer ∈ round.requested ∧ submission.headers.length ≤ maxHeaders ∧
    round.responses.lookup submission.peer = none

instance decidableTakes (maxHeaders : Nat) (round : SyncRound PeerId Header)
    (submission : Submission PeerId Header) : Decidable (Takes maxHeaders round submission) :=
  inferInstanceAs (Decidable (_ ∧ _ ∧ _ ∧ _ ∧ _))

/-- The round after a submission. -/
def submitTo (maxHeaders : Nat) (round : SyncRound PeerId Header)
    (submission : Submission PeerId Header) : SyncRound PeerId Header :=
  if Takes maxHeaders round submission then
    { round with responses := round.responses.insert submission.peer submission.headers }
  else round

theorem submit_eq (HeaderError : Type) (maxHeaders : Nat) (sync : HeaderSync PeerId Header)
    (submission : Submission PeerId Header) :
    submit HeaderError maxHeaders sync submission =
      { sync with round := sync.round.map fun round => submitTo maxHeaders round submission } := by
  obtain ⟨config, chain, state, generation, peers, round⟩ := sync
  cases round with
  | none => rfl
  | some round =>
    unfold submit submitHeaders
    rw [Option.map_some, submitTo]
    dsimp only
    by_cases takes : Takes maxHeaders round submission
    · rw [if_pos takes]
      obtain ⟨generation_eq, onTime, requested, short, absent⟩ := takes
      rw [if_neg (not_ne_iff.mpr generation_eq), if_neg (UInt64.not_lt.mpr onTime),
        if_neg (not_not.mpr requested), if_neg (Nat.not_lt.mpr short), absent, if_neg (by simp)]
      rfl
    rw [if_neg takes]
    split_ifs with stale expired requested long duplicate
    · rfl
    · rfl
    · rfl
    · rfl
    · exact absurd ⟨not_ne_iff.mp stale, UInt64.not_lt.mp expired, requested,
        Nat.not_lt.mp long, Option.not_isSome_iff_eq_none.mp duplicate⟩ takes
    · rfl

variable {round : SyncRound PeerId Header}

theorem submitTo_of_not_takes {maxHeaders : Nat} {submission : Submission PeerId Header}
    (refused : ¬ Takes maxHeaders round submission) :
    submitTo maxHeaders round submission = round :=
  if_neg refused

/-- The same round up to the order of its responses. -/
structure SameRound (first second : SyncRound PeerId Header) : Prop where
  request_eq : first.request = second.request
  requested_eq : first.requested = second.requested
  responses_perm : first.responses.entries.Perm second.responses.entries

/-- The same synchronizer up to the order of the responses. -/
structure SameSync (first second : HeaderSync PeerId Header) : Prop where
  rest_eq : second = { first with round := second.round }
  round : Option.Rel SameRound first.round second.round

section

omit [DecidableEq PeerId]

theorem SameRound.trans {first second third : SyncRound PeerId Header}
    (left : SameRound first second) (right : SameRound second third) : SameRound first third where
  request_eq := left.request_eq.trans right.request_eq
  requested_eq := left.requested_eq.trans right.requested_eq
  responses_perm := left.responses_perm.trans right.responses_perm

theorem SameRound.refl (round : SyncRound PeerId Header) : SameRound round round :=
  ⟨rfl, rfl, List.Perm.refl _⟩

theorem SameSync.refl (sync : HeaderSync PeerId Header) : SameSync sync sync := by
  refine ⟨rfl, ?_⟩
  cases sync.round with
  | none => exact .none
  | some round => exact .some (.refl round)

theorem SameSync.trans {first second third : HeaderSync PeerId Header}
    (left : SameSync first second) (right : SameSync second third) : SameSync first third := by
  obtain ⟨left_eq, leftRound⟩ := left
  obtain ⟨right_eq, rightRound⟩ := right
  refine ⟨by rw [right_eq, left_eq], ?_⟩
  generalize first.round = firstRound, second.round = secondRound, third.round = thirdRound
    at leftRound rightRound
  cases leftRound with
  | none =>
    cases rightRound
    exact .none
  | some leftSame =>
    cases rightRound with
    | some rightSame => exact .some (leftSame.trans rightSame)

end

theorem SameRound.submitTo {first second : SyncRound PeerId Header}
    (same : SameRound first second) (maxHeaders : Nat) (submission : Submission PeerId Header) :
    SameRound (submitTo maxHeaders first submission) (submitTo maxHeaders second submission) := by
  have takes_iff : Takes maxHeaders first submission ↔ Takes maxHeaders second submission := by
    unfold Takes
    rw [same.request_eq, same.requested_eq, AList.perm_lookup same.responses_perm]
  unfold HeaderSync.submitTo
  by_cases takes : Takes maxHeaders first submission
  · rw [if_pos takes, if_pos (takes_iff.mp takes)]
    exact ⟨same.request_eq, same.requested_eq, AList.perm_insert same.responses_perm⟩
  · rw [if_neg takes, if_neg (mt takes_iff.mpr takes)]
    exact same

/-- Responses of different peers may change places. -/
theorem submitTo_swap (maxHeaders : Nat) (round : SyncRound PeerId Header)
    {first second : Submission PeerId Header} (different : first.peer ≠ second.peer) :
    SameRound (submitTo maxHeaders (submitTo maxHeaders round first) second)
      (submitTo maxHeaders (submitTo maxHeaders round second) first) := by
  have frame {earlier later : Submission PeerId Header} (apart : earlier.peer ≠ later.peer) :
      Takes maxHeaders (submitTo maxHeaders round earlier) later ↔
        Takes maxHeaders round later := by
    unfold submitTo
    split
    next =>
      unfold Takes
      rw [AList.lookup_insert_ne apart.symm]
    next => rfl
  have first_iff := frame different.symm
  have second_iff := frame different
  by_cases takesFirst : Takes maxHeaders round first
  · by_cases takesSecond : Takes maxHeaders round second
    · rw [submitTo, if_pos (second_iff.mpr takesSecond), submitTo, if_pos takesFirst, submitTo,
        if_pos (first_iff.mpr takesFirst), submitTo, if_pos takesSecond]
      exact ⟨rfl, rfl, AList.insert_insert_of_ne _ different⟩
    · rw [submitTo_of_not_takes (mt second_iff.mp takesSecond), submitTo_of_not_takes takesSecond]
      exact .refl _
  · rw [submitTo_of_not_takes takesFirst, submitTo_of_not_takes (mt first_iff.mp takesFirst)]
    exact .refl _

/-- Submitting to the same synchronizer leaves the same synchronizer. -/
theorem SameSync.submit {first second : HeaderSync PeerId Header} (same : SameSync first second)
    (HeaderError : Type) (maxHeaders : Nat) (submission : Submission PeerId Header) :
    SameSync (submit HeaderError maxHeaders first submission)
      (submit HeaderError maxHeaders second submission) := by
  obtain ⟨rest_eq, round⟩ := same
  rw [submit_eq, submit_eq]
  refine ⟨by rw [rest_eq], ?_⟩
  dsimp only
  generalize first.round = firstRound, second.round = secondRound at round
  cases round with
  | none => exact .none
  | some sameRound => exact .some (sameRound.submitTo maxHeaders submission)

theorem submit_swap (HeaderError : Type) (maxHeaders : Nat) (sync : HeaderSync PeerId Header)
    {first second : Submission PeerId Header} (different : first.peer ≠ second.peer) :
    SameSync (submit HeaderError maxHeaders (submit HeaderError maxHeaders sync first) second)
      (submit HeaderError maxHeaders (submit HeaderError maxHeaders sync second) first) := by
  rw [submit_eq, submit_eq, submit_eq, submit_eq]
  refine ⟨rfl, ?_⟩
  dsimp only
  cases sync.round with
  | none => exact .none
  | some round => exact .some (submitTo_swap maxHeaders round different)

variable {left : HeaderSync PeerId Header} {right : HeaderSync PeerId Header}

theorem foldl_submit_congr (HeaderError : Type) (maxHeaders : Nat)
    (submissions : List (Submission PeerId Header)) (same : SameSync left right) :
    SameSync (submissions.foldl (submit HeaderError maxHeaders) left)
      (submissions.foldl (submit HeaderError maxHeaders) right) := by
  induction submissions generalizing left right with
  | nil => exact same
  | cons submission submissions ih => exact ih (same.submit HeaderError maxHeaders submission)

/-- Submissions of different peers in any order leave the same synchronizer. -/
theorem foldl_submit_same (HeaderError : Type) (maxHeaders : Nat)
    {first second : List (Submission PeerId Header)} (perm : first.Perm second)
    (distinct : (first.map Submission.peer).Nodup) (same : SameSync left right) :
    SameSync (first.foldl (submit HeaderError maxHeaders) left)
      (second.foldl (submit HeaderError maxHeaders) right) := by
  induction perm generalizing left right with
  | nil => exact same
  | cons submission _ ih =>
    rw [List.map_cons, List.nodup_cons] at distinct
    exact ih distinct.2 (same.submit HeaderError maxHeaders submission)
  | swap earlier later rest =>
    rw [List.map_cons, List.map_cons, List.nodup_cons, List.mem_cons, not_or] at distinct
    have swapped := submit_swap HeaderError maxHeaders left distinct.1.1
    have carried := (same.submit HeaderError maxHeaders earlier).submit HeaderError maxHeaders later
    exact foldl_submit_congr HeaderError maxHeaders rest (swapped.trans carried)
  | trans firstPerm _ firstIh secondIh =>
    have middleDistinct := (firstPerm.map Submission.peer).nodup_iff.mp distinct
    exact (firstIh distinct same).trans (secondIh middleDistinct (.refl right))

/-! ## The whole round -/

/-- A header of a response that the round holds. -/
def Responds (sync : HeaderSync PeerId Header) (header : Header) : Prop :=
  ∃ round, sync.round = some round ∧ ∃ peer headers,
    round.responses.lookup peer = some headers ∧ header ∈ headers

theorem responds_of_mem {sync : HeaderSync PeerId Header}
    (round_eq : sync.round = some round) (order : HashOrder) :
    ∀ response ∈ order.order round.responses.entries, ∀ header ∈ response.2,
      sync.Responds header :=
  fun response responseMem _ headerMem => ⟨round, round_eq, response.1, response.2,
    AList.mem_lookup_iff.mpr ((order.perm _).mem_iff.mp responseMem), headerMem⟩

/-- The end of a round does not depend on the order of its responses. -/
theorem finish_same (linkedOnly : consensus.AcceptsOnlyLinked)
    (free : consensus.CollisionFree left.Responds left.chain.tip.hash)
    (same : SameSync left right) (leftOrder rightOrder : HashOrder) (now : UInt64) :
    (finishRoundWithHeaders consensus left leftOrder now).1 =
        (finishRoundWithHeaders consensus right rightOrder now).1 ∧
      SameSync (finishRoundWithHeaders consensus left leftOrder now).2
        (finishRoundWithHeaders consensus right rightOrder now).2 := by
  obtain ⟨config, chain, state, generation, peers, leftRound⟩ := left
  obtain ⟨rest_eq, round⟩ := same
  cases right with
  | mk config' chain' state' generation' peers' rightRound =>
    cases rest_eq
    cases round with
    | none => exact ⟨rfl, .refl _⟩
    | @some leftRound rightRound sameRound =>
      have size_eq : leftRound.responses.size = rightRound.responses.size :=
        sameRound.responses_perm.length_eq
      have responses_perm : (leftOrder.order leftRound.responses.entries).Perm
          (rightOrder.order rightRound.responses.entries) :=
        (leftOrder.perm _).trans (sameRound.responses_perm.trans (rightOrder.perm _).symm)
      unfold finishRoundWithHeaders
      dsimp only
      rw [size_eq, sameRound.request_eq, sameRound.requested_eq]
      split
      next =>
        split
        next => exact ⟨rfl, rfl, .some sameRound⟩
        next => exact ⟨rfl, .refl _⟩
      next =>
        split
        next => exact ⟨rfl, .refl _⟩
        next =>
          rw [collectCandidates_eq, collectCandidates_eq]
          dsimp only
          have failed_perm : (failedPeers consensus chain now
                (leftOrder.order leftRound.responses.entries)).Perm
              (failedPeers consensus chain now (rightOrder.order rightRound.responses.entries)) :=
            (responses_perm.filter _).map _
          have candidates_perm : (candidatesOf consensus chain now
                (leftOrder.order leftRound.responses.entries)).Perm
              (candidatesOf consensus chain now (rightOrder.order rightRound.responses.entries)) :=
            responses_perm.filterMap _
          rw [foldl_recordFailure_eq_of_perm config failed_perm,
            selectWinner_eq_of_perm HeaderError _ _ candidates_perm
              fun _ firstMem _ secondMem => candidates_agree linkedOnly free
                (responds_of_mem rfl leftOrder) firstMem secondMem]
          exact ⟨rfl, .refl _⟩

/-- Only requested peers have responded. -/
def RespondersRequested (sync : HeaderSync PeerId Header) : Prop :=
  ∀ round, sync.round = some round → ∀ peer headers,
    round.responses.lookup peer = some headers → peer ∈ round.requested

variable {sync : HeaderSync PeerId Header}

theorem respondersRequested_submit (HeaderError : Type) (maxHeaders : Nat)
    (requested : sync.RespondersRequested) (submission : Submission PeerId Header) :
    (submit HeaderError maxHeaders sync submission).RespondersRequested := by
  rw [submit_eq]
  intro round round_eq peer headers found
  obtain ⟨before, before_eq, rfl⟩ := Option.map_eq_some_iff.mp round_eq
  unfold submitTo at found ⊢
  split
  next takes =>
    rw [if_pos takes] at found
    by_cases same : peer = submission.peer
    · rw [same]
      exact takes.2.2.1
    · rw [AList.lookup_insert_ne same] at found
      exact requested before before_eq peer headers found
  next refused =>
    rw [if_neg refused] at found
    exact requested before before_eq peer headers found

/-- Submissions change nothing but the responses, which stay those of requested peers. -/
theorem foldl_submit_spec (HeaderError : Type) (maxHeaders : Nat)
    (requested : sync.RespondersRequested) (submissions : List (Submission PeerId Header)) :
    let submitted := submissions.foldl (submit HeaderError maxHeaders) sync
    submitted = { sync with round := submitted.round } ∧ submitted.RespondersRequested := by
  induction submissions generalizing sync with
  | nil => exact ⟨rfl, requested⟩
  | cons submission submissions ih =>
    obtain ⟨rest_eq, restRequested⟩ :=
      ih (respondersRequested_submit HeaderError maxHeaders requested submission)
    refine ⟨?_, restRequested⟩
    rw [List.foldl_cons, rest_eq, submit_eq]

theorem respondersRequested_finish (requested : sync.RespondersRequested) (order : HashOrder)
    (now : UInt64) : (finishRoundWithHeaders consensus sync order now).2.RespondersRequested := by
  have ends : FinishCase consensus sync order now _ := finishCase sync order now
  generalize finishRoundWithHeaders consensus sync order now = result at ends ⊢
  cases ends with
  | unfinished error waiting => exact requested
  | stale round_eq moved => exact nofun
  | degraded error peers => exact nofun
  | won round_eq winner wins => exact nofun

/-- One call keeps the responders among the requested peers. -/
theorem respondersRequested_apply {maxHeaders : Nat} (requested : sync.RespondersRequested)
    (call : Call PeerId Header) : (apply consensus maxHeaders sync call).RespondersRequested := by
  cases call with
  | addPeer id height =>
    cases added : (sync.addPeer id height : Except (SyncError HeaderError) _) with
    | error error =>
      simp only [apply, added]
      exact requested
    | ok after =>
      simp only [apply, added]
      obtain ⟨-, added⟩ := of_guard_ok added
      obtain ⟨-, added⟩ := of_guard_ok added
      obtain rfl := Except.ok.inj added
      exact requested
  | removePeer id =>
    intro round round_eq peer headers found
    obtain ⟨before, before_eq, rfl⟩ := Option.map_eq_some_iff.mp round_eq
    by_cases same : peer = id
    · subst same
      rw [AList.lookup_erase] at found
      cases found
    · rw [AList.lookup_erase_ne same] at found
      have peerMem := requested before before_eq peer headers found
      exact List.mem_filter.mpr ⟨peerMem, decide_eq_true same⟩
  | updatePeerHeight id height =>
    simp only [apply, updatePeerHeight]
    split
    next => exact requested
    next => exact requested
  | beginRound order selected now =>
    cases begun : beginRound consensus sync order selected now with
    | error error =>
      simp only [apply, begun]
      exact requested
    | ok result =>
      simp only [apply, begun]
      obtain ⟨-, begun⟩ := of_guard_ok begun
      obtain ⟨-, begun⟩ := of_guard_ok begun
      obtain ⟨_, -, begun⟩ := of_bind_ok begun
      split at begun
      next => cases begun
      next =>
        split at begun
        next => cases begun
        next =>
          obtain rfl := Except.ok.inj begun
          intro round round_eq peer headers found
          obtain rfl := Option.some.inj round_eq
          cases found
  | submitHeaders generation peer headers now =>
    exact respondersRequested_submit HeaderError maxHeaders requested
      ⟨generation, peer, headers, now⟩
  | finishRound order now => exact respondersRequested_finish requested order now
  | finishRoundWithHeaders order now => exact respondersRequested_finish requested order now
  | abandonUncommittedRound => exact nofun

theorem respondersRequested_of_opened (opened : Opened consensus sync) :
    sync.RespondersRequested := by
  cases opened with
  | genesis opened =>
    obtain ⟨config, -, opened⟩ := of_bind_ok opened
    obtain ⟨chain, -, opened⟩ := of_bind_ok opened
    obtain rfl := Except.ok.inj opened
    exact nofun
  | resumed opened =>
    obtain ⟨config, -, opened⟩ := of_bind_ok opened
    obtain rfl := Except.ok.inj opened
    exact nofun

/-- An agreed extension of the chain: its headers lead to it, enough distinct requested
peers sent them, and every validated response with another tip has less work. -/
structure AgreedExtension (consensus : HeaderConsensus Header HeaderError) (now : UInt64)
    (chain : LightChain) (minimum : Nat) (round : SyncRound PeerId Header)
    (acceptedHeaders : List Header) (after : LightChain) : Prop where
  extended : LightChain.appendAll consensus chain now acceptedHeaders = .ok after
  supported : ∃ supporters : List PeerId, supporters.Nodup ∧ minimum ≤ supporters.length ∧
    ∀ peer ∈ supporters, peer ∈ round.requested ∧ ∃ headers candidate,
      round.responses.lookup peer = some headers ∧
      validateResponse consensus chain now peer headers = some candidate ∧
      candidate.chain.tip = after.tip
  greatest : ∀ peer headers candidate, round.responses.lookup peer = some headers →
    validateResponse consensus chain now peer headers = some candidate →
    candidate.chain.tip ≠ after.tip →
    candidate.chain.tip.chainwork.value < after.tip.chainwork.value

theorem agreedExtension_of_wins (linkedOnly : consensus.AcceptsOnlyLinked)
    (free : consensus.CollisionFree sync.Responds sync.chain.tip.hash)
    (requested : sync.RespondersRequested)
    (round_eq : sync.round = some round) {order : HashOrder} {winner : Candidate PeerId Header}
    (wins : Wins sync.config.minimumPeerAgreement
      (candidatesOf consensus sync.chain now (order.order round.responses.entries)) winner) :
    AgreedExtension consensus now sync.chain sync.config.minimumPeerAgreement round
      winner.headers winner.chain := by
  have entries_perm := order.perm round.responses.entries
  have known := responds_of_mem round_eq order
  have stored {candidate : Candidate PeerId Header} (candidateMem : candidate ∈
      candidatesOf consensus sync.chain now (order.order round.responses.entries)) :
      round.responses.lookup candidate.peer = some candidate.headers :=
    AList.mem_lookup_iff.mpr (entries_perm.mem_iff.mp (mem_candidatesOf.mp candidateMem).1)
  constructor
  · exact appendAll_of_validateResponse (mem_candidatesOf.mp wins.winnerMem).2
  · refine ⟨(supportersOf (candidatesOf consensus sync.chain now
      (order.order round.responses.entries)) winner.chain.tip.hash).map Candidate.peer, ?_, ?_, ?_⟩
    · exact nodup_peers_supporters order round _
    · rw [List.length_map]
      exact wins.agreed
    intro peer peerMem
    obtain ⟨candidate, candidateMem, rfl⟩ := List.mem_map.mp peerMem
    obtain ⟨candidateMem, hash_eq⟩ := List.mem_filter.mp candidateMem
    have agree := candidates_agree linkedOnly free known candidateMem wins.winnerMem
      (of_decide_eq_true hash_eq)
    exact ⟨requested round round_eq _ _ (stored candidateMem), _, candidate,
      stored candidateMem, (mem_candidatesOf.mp candidateMem).2, by rw [agree.2]⟩
  · intro peer headers candidate found validated different
    obtain ⟨rfl, rfl, -⟩ := validateResponse_eq_some_iff.mp validated
    have responseMem := entries_perm.mem_iff.mpr (AList.mem_lookup_iff.mp found)
    have candidateMem := mem_candidatesOf.mpr ⟨responseMem, validated⟩
    obtain ⟨top, topMem, top_hash, below⟩ := wins.greatest
    have top_eq := candidates_agree linkedOnly free known topMem wins.winnerMem top_hash
    rw [← top_eq.2]
    refine (below candidate candidateMem).2 fun hash_eq => different ?_
    rw [(candidates_agree linkedOnly free known candidateMem wins.winnerMem hash_eq).2]

/-- After any run, any set of responses from different peers and any orders of arrival and
of the hash tables: the round ends in one way; an error leaves the chain as it was, and
otherwise the chain moves by an agreed extension. -/
theorem round_agreement (linkedOnly : consensus.AcceptsOnlyLinked)
    {start : HeaderSync PeerId Header}
    (opened : Opened consensus start) (maxHeaders : Nat) (calls : List (Call PeerId Header))
    {first second : List (Submission PeerId Header)} (perm : first.Perm second)
    (distinct : (first.map Submission.peer).Nodup) (firstOrder secondOrder : HashOrder)
    (now : UInt64) :
    let sync := runFrom (apply consensus maxHeaders) start calls
    let submitted := first.foldl (submit HeaderError maxHeaders) sync
    let finished := finishRoundWithHeaders consensus submitted firstOrder now
    let other := finishRoundWithHeaders consensus
      (second.foldl (submit HeaderError maxHeaders) sync) secondOrder now
    consensus.CollisionFree submitted.Responds sync.chain.tip.hash →
    (finished.1 = other.1 ∧ finished.2.chain = other.2.chain ∧
      finished.2.peers = other.2.peers ∧ finished.2.state = other.2.state ∧
      finished.2.generation = other.2.generation) ∧
    (∀ error, finished.1 = .error error → finished.2.chain = sync.chain) ∧
    ∀ outcome, finished.1 = .ok outcome → ∃ round, submitted.round = some round ∧
      AgreedExtension consensus now sync.chain sync.config.minimumPeerAgreement round
        outcome.acceptedHeaders finished.2.chain := by
  intro sync submitted finished other free
  have preserved : ∀ (sync : HeaderSync PeerId Header) (call : Call PeerId Header),
      sync.RespondersRequested → (apply consensus maxHeaders sync call).RespondersRequested :=
    fun _ call requested => respondersRequested_apply requested call
  have requested : sync.RespondersRequested :=
    runFrom_invariant preserved (respondersRequested_of_opened opened) calls
  obtain ⟨rest_eq, submittedRequested⟩ : submitted = { sync with round := submitted.round } ∧
      submitted.RespondersRequested := foldl_submit_spec HeaderError maxHeaders requested first
  have chain_eq : submitted.chain = sync.chain := by rw [rest_eq]
  have config_eq : submitted.config = sync.config := by rw [rest_eq]
  rw [← chain_eq] at free
  obtain ⟨result_eq, after_eq, -⟩ : finished.1 = other.1 ∧ SameSync finished.2 other.2 :=
    finish_same linkedOnly free
      (foldl_submit_same HeaderError maxHeaders perm distinct (.refl sync)) firstOrder secondOrder
      now
  refine ⟨⟨result_eq, by rw [after_eq], by rw [after_eq], by rw [after_eq], by rw [after_eq]⟩, ?_⟩
  have ends : FinishCase consensus submitted firstOrder now finished :=
    finishCase submitted firstOrder now
  clear_value finished submitted
  rw [← chain_eq, ← config_eq]
  cases ends with
  | unfinished error waiting => exact ⟨fun _ _ => rfl, nofun⟩
  | stale round_eq moved => exact ⟨fun _ _ => rfl, nofun⟩
  | degraded error peers => exact ⟨fun _ _ => rfl, nofun⟩
  | @won round round_eq winner wins =>
    refine ⟨nofun, fun outcome returned => ⟨round, round_eq, ?_⟩⟩
    obtain rfl := Except.ok.inj returned
    exact agreedExtension_of_wins linkedOnly free submittedRequested round_eq wins

end

end HeaderSync

/-! ## A round with a fork -/

namespace ExampleFork

/-- The genesis header and two that compete for its successor. -/
inductive ForkHeader
  | genesis
  | left
  | right
  deriving DecidableEq

theorem digest_length (byte : UInt8) : (List.replicate 32 byte).length = 32 :=
  List.length_replicate

def digest (byte : UInt8) : Hash :=
  ⟨List.replicate 32 byte, digest_length byte⟩

def blockHash : ForkHeader → Hash
  | .genesis => digest 1
  | .left => digest 2
  | .right => digest 3

def previousBlock : ForkHeader → Hash
  | .genesis => .zero
  | .left => digest 1
  | .right => digest 1

def time : ForkHeader → UInt64
  | .genesis => 1580745078
  | _ => 1580745079

theorem two_lt : 2 < 2 ^ 256 := by
  simp

def consensus : HeaderConsensus ForkHeader Unit where
  blockHash := blockHash
  previousBlock := previousBlock
  treeRoot _ := digest 7
  merkleRoot _ := digest 8
  time := time
  bits _ := 0x207fffff
  networkId
    | .mainnet => 0
    | .testnet => 1
    | .regtest => 2
    | .simnet => 3
  genesisHeader _ := .genesis
  genesisHash _ := digest 1
  genesisTime _ := time .genesis
  powBits _ := 0x207fffff
  targetWindow _ := 144
  expectedNextBits _ _ previous _ _ := .ok previous.bits
  validateHeader _ header context :=
    if previousBlock header = context.previousBlock ∧ context.medianTime < time header ∧
        (time header).toNat ≤ context.now.toNat + 7200 then
      .ok ⟨2, two_lt⟩
    else .error ()

theorem consensus_acceptsOnlyLinked : consensus.AcceptsOnlyLinked := by
  intro network header context proof validated
  simp only [consensus] at validated
  split_ifs at validated with accepted
  cases validated
  exact ⟨accepted.1, by decide⟩

/-- The first octet grows along every sequence of headers. -/
theorem lt_of_linkedFrom {hash : Hash} {header : ForkHeader} {headers : List ForkHeader}
    (linked : LinkedFrom consensus hash (header :: headers)) :
    (hash.bytes.headD 0).toNat <
      ((endHash consensus hash (header :: headers)).bytes.headD 0).toNat := by
  have parent_lt (header : ForkHeader) : ((previousBlock header).bytes.headD 0).toNat <
      ((blockHash header).bytes.headD 0).toNat := by
    cases header <;> decide
  induction headers generalizing hash header with
  | nil =>
    obtain ⟨rfl, -⟩ := linked
    exact parent_lt header
  | cons next headers ih =>
    obtain ⟨rfl, rest⟩ := linked
    exact (parent_lt header).trans (ih rest)

theorem consensus_collisionFree (known : ForkHeader → Prop) (tip : Hash) :
    consensus.CollisionFree known tip where
  injective := by
    intro first second _ _ hash_eq
    revert hash_eq
    change blockHash first = blockHash second → first = second
    cases first <;> cases second <;> decide
  acyclic header headers _ linked returned := by
    have above := lt_of_linkedFrom linked
    rw [returned] at above
    exact Nat.lt_irrefl _ above

def genesisEntry : HeaderEntry :=
  entryFromHeader consensus 0 .genesis ⟨2, two_lt⟩

def syncStart : HeaderSync Nat ForkHeader where
  config := ⟨4, 2, 10, 3⟩
  chain := ⟨.regtest, ⟨4096⟩, [genesisEntry], genesisEntry⟩
  state := .headerSyncing
  generation := 1
  peers := ∅
  round := none

theorem syncStart_opened : HeaderSync.Opened consensus syncStart := by
  have opened : HeaderSync.fromGenesis consensus .regtest 1580745178 ⟨4096⟩ ⟨4, 2, 10, 3⟩ =
      .ok syncStart := rfl
  exact .genesis opened

def insertion : HashOrder where
  order := id
  perm items := List.Perm.refl items

def reversed : HashOrder where
  order := List.reverse
  perm items := List.reverse_perm items

/-- Two of three requested peers follow one branch. -/
def begun : List (HeaderSync.Call Nat ForkHeader) :=
  [.addPeer 1 1, .addPeer 2 1, .addPeer 3 1, .beginRound insertion [1, 2, 3] 1580745178]

def submission (peer : Nat) (header : ForkHeader) : HeaderSync.Submission Nat ForkHeader :=
  ⟨2, peer, [header], 1580745178⟩

theorem round_agreement_fork :
    (HeaderSync.finishRoundWithHeaders consensus
        ([submission 1 .left, submission 2 .left].foldl (HeaderSync.submit Unit 2000)
          (runFrom (HeaderSync.apply consensus 2000) syncStart begun)) insertion 1580745178).1 =
      (HeaderSync.finishRoundWithHeaders consensus
        ([submission 2 .left, submission 1 .left].foldl (HeaderSync.submit Unit 2000)
          (runFrom (HeaderSync.apply consensus 2000) syncStart begun)) reversed 1580745178).1 :=
  (HeaderSync.round_agreement consensus_acceptsOnlyLinked syncStart_opened 2000 begun
    (List.Perm.swap _ _ _) (by decide) insertion reversed 1580745178
    (consensus_collisionFree _ _)).1.1

end ExampleFork

end HnsDaneEngine.Light
