import HnsDaneEngine.Sync.ProofScheduler
import HnsDaneEngine.Urkel.Exclusion

/-!
# What stored values are bound to

A stored value should come from a proof for the name and root of the call that
stored it, and no call should leave its request pending.  Both depend on the
peer: a proof for another root or key ends the call through an exit that does
not forget the request.  The request can then be answered in a later call, whose
name is stored with it.
-/

namespace HnsDaneEngine.Sync

open P2p Primitives Urkel

/-- The public operations, with their own arguments. -/
inductive Operation
  | requestAndStore (rootName : Octets)
  | requestAndStoreAtHeight (rootName : Octets) (proofHeight : UInt32)
  | requestHashAndStore (rootName : Octets) (nameHash : Hash)
  | requestHashAndStoreAtHeight (rootName : Octets) (nameHash : Hash) (proofHeight : UInt32)

/-- One call, with the peer, the session and the sink it meets. -/
structure Call where
  operation : Operation
  root : Hash
  peer : Peer
  session : HeaderSyncSession
  sinkResult : Except String Unit

section

variable (verify : ParsedProof → Hash → Except ProofError Bool) (sha3 : Octets → Hash)

def Call.run (call : Call) (scheduler : ProofScheduler) : Option Outcome :=
  match call.operation with
  | .requestAndStore rootName =>
    requestAndStore verify sha3 scheduler call.peer call.session rootName call.root call.sinkResult
  | .requestAndStoreAtHeight rootName proofHeight =>
    requestAndStoreAtHeight verify sha3 scheduler call.peer call.session rootName call.root
      proofHeight call.sinkResult
  | .requestHashAndStore rootName nameHash =>
    requestHashAndStore verify scheduler call.peer call.session rootName call.root nameHash
      call.sinkResult
  | .requestHashAndStoreAtHeight rootName nameHash proofHeight =>
    requestHashAndStoreAtHeight verify scheduler call.peer call.session rootName call.root
      nameHash proofHeight call.sinkResult

/-- The request of a call, unless its name is invalid. -/
def Call.request (call : Call) : Except NameHashError Request :=
  match call.operation with
  | .requestAndStore rootName =>
    (nameHashFromName sha3 rootName).map fun nameHash =>
      ⟨rootName, call.root, nameHash, none, call.sinkResult⟩
  | .requestAndStoreAtHeight rootName proofHeight =>
    (nameHashFromName sha3 rootName).map fun nameHash =>
      ⟨rootName, call.root, nameHash, some proofHeight, call.sinkResult⟩
  | .requestHashAndStore rootName nameHash =>
    .ok ⟨rootName, call.root, nameHash, none, call.sinkResult⟩
  | .requestHashAndStoreAtHeight rootName nameHash proofHeight =>
    .ok ⟨rootName, call.root, nameHash, some proofHeight, call.sinkResult⟩

/-- All operations are the common one after the name has been hashed. -/
theorem Call.run_eq (call : Call) (scheduler : ProofScheduler) :
    call.run verify sha3 scheduler =
      match call.request sha3 with
      | .error error => some ⟨.error (.invalidName error), scheduler, call.session⟩
      | .ok request =>
        requestHashAndStoreWithHeight verify scheduler call.peer call.session request := by
  unfold Call.run Call.request
  cases call.operation with
  | requestAndStore rootName =>
    simp only [requestAndStore]
    cases nameHashFromName sha3 rootName <;> rfl
  | requestAndStoreAtHeight rootName proofHeight =>
    simp only [requestAndStoreAtHeight]
    cases nameHashFromName sha3 rootName <;> rfl
  | requestHashAndStore rootName nameHash => rfl
  | requestHashAndStoreAtHeight rootName nameHash proofHeight => rfl

/-- A run of calls that returned, each with the scheduler it started from. -/
inductive Run : ProofScheduler → List (ProofScheduler × Call × Outcome) → ProofScheduler → Prop
  | nil (scheduler : ProofScheduler) : Run scheduler [] scheduler
  | cons {scheduler final : ProofScheduler} {call : Call} {outcome : Outcome}
      {rest : List (ProofScheduler × Call × Outcome)}
      (returned : call.run verify sha3 scheduler = some outcome)
      (tail : Run outcome.scheduler rest final) :
      Run scheduler ((scheduler, call, outcome) :: rest) final

end

/-- The proof packet that the session delivers after a request: the first one
that follows only packets without effect and answered pings. -/
def deliveredProof :
    List (Except P2pError Unit) → List (Except P2pError Packet) → Option ProofPacket
  | _, .ok (.proof packet) :: _ => some packet
  | .ok () :: sends, .ok (.ping _) :: rest => deliveredProof sends rest
  | sends, .ok (.pong _) :: rest => deliveredProof sends rest
  | sends, .ok .getAddr :: rest => deliveredProof sends rest
  | sends, .ok (.addr _) :: rest => deliveredProof sends rest
  | sends, .ok .sendHeaders :: rest => deliveredProof sends rest
  | sends, .ok (.unknown _ _) :: rest => deliveredProof sends rest
  | _, _ => none

/-- The proof packet that a call ingests: its request must have been sent. -/
def ingestedProof (session : HeaderSyncSession) (peer : Peer) : Option ProofPacket :=
  if session.state = .ready then
    match peer.sends with
    | .ok () :: sends => deliveredProof sends peer.receives
    | _ => none
  else none

/-- The proof that the session delivers in the call is for its root and name. -/
def AnswersOwn (sha3 : Octets → Hash) (call : Call) : Prop :=
  ∀ request, call.request sha3 = .ok request →
    ∀ packet, ingestedProof call.session call.peer = some packet →
      packet.root = request.root ∧ packet.key = request.nameHash

variable {packet : ProofPacket}

section

variable {verify : ParsedProof → Hash → Except ProofError Bool} {scheduler : ProofScheduler}
  {request : Request} {session : HeaderSyncSession}

/-- After a request the loop returns with the delivered proof, or else it has
forgotten the request. -/
theorem receiveLoop_eq_some {sends : List (Except P2pError Unit)}
    {receives : List (Except P2pError Packet)} {outcome : Outcome}
    (requested : session.state = .proofRequested)
    (returned : receiveLoop verify request scheduler session sends receives = some outcome) :
    match deliveredProof sends receives with
    | some packet =>
      (outcome.result, outcome.scheduler) = storeProof verify request scheduler packet
    | none => outcome.scheduler = scheduler.forgetRequest request.root request.nameHash := by
  induction receives generalizing session sends with
  | nil => simp [receiveLoop] at returned
  | cons received rest ih =>
    cases received with
    | error error =>
      simp only [receiveLoop, Option.some.injEq] at returned
      subst returned
      simp [deliveredProof]
    | ok packet =>
      cases packet with
      | proof packet =>
        simp only [receiveLoop, HeaderSyncSession.onPacket, requested, handleActions,
          Option.some.injEq] at returned
        subst returned
        simp [deliveredProof]
      | ping nonce =>
        simp only [receiveLoop, HeaderSyncSession.onPacket, requested] at returned
        rcases sends with _ | ⟨_ | _, sends⟩
        · simp [handleActions] at returned
        · simp only [handleActions, Option.some.injEq] at returned
          subst returned
          simp [deliveredProof]
        · simp only [handleActions] at returned
          exact ih requested returned
      | pong | getAddr | addr | sendHeaders | unknown =>
        simp only [receiveLoop, HeaderSyncSession.onPacket, requested, handleActions]
          at returned
        exact ih requested returned
      | version | verack | getHeaders | headers | getProof | getDnsRelay | dnsRelay =>
        simp only [receiveLoop, HeaderSyncSession.onPacket, requested, handleActions,
          Option.some.injEq] at returned
        subst returned
        simp [deliveredProof]

/-- A value that the verifier vouches for: it is read from a proof that was
parsed for the root and the name of the request and accepted against that
root. -/
def ComesFrom (verify : ParsedProof → Hash → Except ProofError Bool) (request : Request)
    (verified : VerifiedResourceValue) : Prop :=
  ∃ bytes proof base, ParsedProof.parseForKey bytes request.root request.nameHash = .ok proof ∧
    proof.root = request.root ∧ proof.nameHash = request.nameHash ∧
    verify proof request.root = .ok true ∧
    verifiedResourceValue request.rootName request.nameHash
      ⟨request.root, request.nameHash, proof.kind, proof.value⟩ = .ok base ∧
    verified =
      match request.proofHeight with
      | some height => base.withAnchor request.root height
      | none => base

theorem checkProof_eq_ok {result : ProofValidationResult}
    (accepted : checkProof verify packet = .ok result) :
    ∃ proof, ParsedProof.parseForKey packet.proof packet.root packet.key = .ok proof ∧
      verify proof packet.root = .ok true ∧
      result = ⟨packet.root, packet.key, proof.kind, proof.value⟩ := by
  unfold checkProof at accepted
  split at accepted
  · contradiction
  rename_i proof parsed
  split at accepted
  · contradiction
  · split at accepted
    · contradiction
    · contradiction
    · rename_i accepts
      exact ⟨proof, parsed, accepts, (Except.ok.inj accepted).symm⟩

/-- Storing a proof forgets the pair of the packet, if that was pending. -/
theorem storeProof_pending (request : Request) (scheduler : ProofScheduler) (packet : ProofPacket) :
    (storeProof verify request scheduler packet).2.pending =
      scheduler.pending.erase (packet.root, packet.key) := by
  unfold storeProof ingestProof
  by_cases pending : (packet.root, packet.key) ∈ scheduler.pending
  · simp only [not_true_eq_false, if_false, pending]
    cases checkProof verify packet with
    | error error => rfl
    | ok result =>
      dsimp only
      cases verifiedResourceValue request.rootName request.nameHash result with
      | error error => rfl
      | ok verified => cases request.sinkResult <;> rfl
  · simp only [pending, not_false_eq_true, if_true]
    exact (Finset.erase_eq_of_notMem pending).symm

/-- A proof for the root and name of the request is stored as such. -/
theorem storeProof_inserted (root_eq : packet.root = request.root)
    (key_eq : packet.key = request.nameHash) :
    ∃ new, (storeProof verify request scheduler packet).2.inserted = scheduler.inserted ++ new ∧
      ∀ verified ∈ new, ComesFrom verify request verified := by
  unfold storeProof ingestProof
  by_cases pending : (packet.root, packet.key) ∈ scheduler.pending
  · simp only [not_true_eq_false, if_false, pending]
    cases checked : checkProof verify packet with
    | error error => exact ⟨[], by simp [ProofScheduler.forgetRequest], by simp⟩
    | ok result =>
      obtain ⟨proof, parsed, accepts, rfl⟩ := checkProof_eq_ok checked
      obtain ⟨proofRoot, proofName⟩ := ParsedProof.parseForKey_eq_ok parsed
      rw [root_eq, key_eq] at parsed
      rw [root_eq] at accepts proofRoot
      rw [key_eq] at proofName
      simp only [root_eq, key_eq]
      cases extracted : verifiedResourceValue request.rootName request.nameHash
          ⟨request.root, request.nameHash, proof.kind, proof.value⟩ with
      | error error => exact ⟨[], by simp [ProofScheduler.forgetRequest], by simp⟩
      | ok base =>
        refine ⟨[match request.proofHeight with
          | some height => base.withAnchor request.root height
          | none => base], ?_, ?_⟩
        · cases request.sinkResult <;> rfl
        · intro verified mem
          rw [List.mem_singleton] at mem
          exact ⟨packet.proof, proof, base, parsed, proofRoot, proofName, accepts, extracted, mem⟩
  · simp only [pending, not_false_eq_true, if_true]
    exact ⟨[], by simp, by simp⟩

/-- A call that returned stored the ingested proof, or forgot its request, or made
none. -/
theorem requestHashAndStoreWithHeight_eq_some {peer : Peer} {outcome : Outcome}
    (returned : requestHashAndStoreWithHeight verify scheduler peer session request =
      some outcome) :
    if session.state = .ready then
      outcome.scheduler =
        match ingestedProof session peer with
        | some packet =>
          (storeProof verify request
            (scheduler.trackRequest request.root request.nameHash) packet).2
        | none =>
          (scheduler.trackRequest request.root request.nameHash).forgetRequest request.root
            request.nameHash
    else ingestedProof session peer = none ∧ outcome.scheduler = scheduler := by
  by_cases ready : session.state = .ready
  · simp only [requestHashAndStoreWithHeight, ProofScheduler.requestProof,
      HeaderSyncSession.requestProof, ready, ne_eq, not_true_eq_false, if_false] at returned
    simp only [ingestedProof, ready, if_true]
    rcases peer with ⟨_ | ⟨_ | _, sends⟩, receives⟩
    · simp at returned
    · simp only [Option.some.injEq] at returned
      subst returned
      rfl
    have loop := receiveLoop_eq_some rfl returned
    dsimp only
    cases delivered : deliveredProof sends receives with
    | none => simpa [delivered] using loop
    | some packet =>
      rw [delivered] at loop
      exact congrArg Prod.snd loop
  · simp only [requestHashAndStoreWithHeight, ProofScheduler.requestProof,
      HeaderSyncSession.requestProof, ready, ne_eq, not_false_eq_true, if_true,
      Option.some.injEq] at returned
    subst returned
    simp [ingestedProof, ready]

end

section

variable (verify : ParsedProof → Hash → Except ProofError Bool) (sha3 : Octets → Hash)

/-- What the call inserts comes from proofs for its own root and name, its own
request is not pending afterwards, and no other one has become pending. -/
structure Keeps (before : ProofScheduler) (call : Call) (outcome : Outcome) : Prop where
  bound : ∃ new, outcome.scheduler.inserted = before.inserted ++ new ∧
    ∀ verified ∈ new, ∃ request, call.request sha3 = .ok request ∧ ComesFrom verify request verified
  settled : ∀ request, call.request sha3 = .ok request → call.session.state = .ready →
    (request.root, request.nameHash) ∉ outcome.scheduler.pending
  noneAdded : outcome.scheduler.pending ⊆ before.pending

variable {verify sha3}

section

variable {before : ProofScheduler} {call : Call} {outcome : Outcome} {request : Request}

/-- A call that changes nothing and has no request of its own. -/
theorem Keeps.of_unchanged (unchanged : outcome.scheduler = before)
    (none_own : ∀ request, call.request sha3 = .ok request → call.session.state ≠ .ready) :
    Keeps verify sha3 before call outcome where
  bound := ⟨[], by simp [unchanged], by simp⟩
  settled request requested ready := absurd ready (none_own request requested)
  noneAdded := by rw [unchanged]

/-- A call that inserts nothing and forgets its request. -/
theorem Keeps.of_forgotten (requested : call.request sha3 = .ok request)
    (forgotten : outcome.scheduler =
      (before.trackRequest request.root request.nameHash).forgetRequest request.root
        request.nameHash) : Keeps verify sha3 before call outcome where
  bound := ⟨[], by simp [forgotten, ProofScheduler.forgetRequest, ProofScheduler.trackRequest],
    by simp⟩
  settled other other_ok _ := by
    obtain rfl := Except.ok.inj (requested.symm.trans other_ok)
    simp [forgotten, ProofScheduler.forgetRequest]
  noneAdded := by
    simp [forgotten, ProofScheduler.forgetRequest, ProofScheduler.trackRequest, Finset.erase_subset]

/-- A call with a request that is answered keeps the binding exactly when the
answer is its own. -/
theorem keeps_iff_of_answered (requested : call.request sha3 = .ok request)
    (ready : call.session.state = .ready)
    (stored : outcome.scheduler = (storeProof verify request
      (before.trackRequest request.root request.nameHash) packet).2) :
    Keeps verify sha3 before call outcome ↔
      packet.root = request.root ∧ packet.key = request.nameHash := by
  have pending_eq : outcome.scheduler.pending =
      (insert (request.root, request.nameHash) before.pending).erase (packet.root, packet.key) := by
    rw [stored, storeProof_pending]
    rfl
  constructor
  · intro keeps
    have settled := keeps.settled request requested ready
    rw [pending_eq, Finset.mem_erase, not_and'] at settled
    have own_eq := not_ne_iff.mp (settled (Finset.mem_insert_self _ _))
    rw [Prod.mk.injEq] at own_eq
    exact ⟨own_eq.1.symm, own_eq.2.symm⟩
  · rintro ⟨root_eq, key_eq⟩
    have insertion : ∃ new, outcome.scheduler.inserted = before.inserted ++ new ∧
        ∀ verified ∈ new, ComesFrom verify request verified := by
      rw [stored]
      exact storeProof_inserted root_eq key_eq
    obtain ⟨new, inserted_eq, comesFrom⟩ := insertion
    constructor
    · exact ⟨new, inserted_eq, fun verified mem => ⟨request, requested, comesFrom verified mem⟩⟩
    · intro other other_ok _
      obtain rfl := Except.ok.inj (requested.symm.trans other_ok)
      simp [pending_eq, root_eq, key_eq]
    · simp [pending_eq, root_eq, key_eq, Finset.erase_subset]

/-- A call keeps the binding exactly when it is answered with a proof for its own
root and name, or with none. -/
theorem keeps_iff_answersOwn (returned : call.run verify sha3 before = some outcome) :
    Keeps verify sha3 before call outcome ↔ AnswersOwn sha3 call := by
  rw [Call.run_eq] at returned
  cases requested : call.request sha3 with
  | error error =>
    simp only [requested, Option.some.injEq] at returned
    subst returned
    simp only [AnswersOwn, requested, reduceCtorEq, false_implies, implies_true, iff_true]
    exact Keeps.of_unchanged rfl (by simp [requested])
  | ok request =>
    simp only [requested] at returned
    have scheduler_eq := requestHashAndStoreWithHeight_eq_some returned
    have answers_iff : AnswersOwn sha3 call ↔
        ∀ packet, ingestedProof call.session call.peer = some packet →
          packet.root = request.root ∧ packet.key = request.nameHash := by
      simp [AnswersOwn, requested]
    rw [answers_iff]
    by_cases ready : call.session.state = .ready
    · rw [if_pos ready] at scheduler_eq
      cases ingested : ingestedProof call.session call.peer with
      | none =>
        simp only [ingested] at scheduler_eq
        simp only [reduceCtorEq, false_implies, implies_true, iff_true]
        exact Keeps.of_forgotten requested scheduler_eq
      | some packet =>
        simp only [ingested] at scheduler_eq
        simp only [Option.some.injEq, forall_eq']
        exact keeps_iff_of_answered requested ready scheduler_eq
    · rw [if_neg ready] at scheduler_eq
      obtain ⟨notIngested, scheduler_eq⟩ := scheduler_eq
      simp only [notIngested, reduceCtorEq, false_implies, implies_true, iff_true]
      exact Keeps.of_unchanged scheduler_eq fun _ _ => ready

end

/-- In a run whose calls are all answered with proofs for their own root and name,
every call keeps the binding; what the run has inserted comes from proofs for
the roots and names of its calls, and it leaves nothing pending that was not
pending at its start. -/
theorem run_keeps (verify : ParsedProof → Hash → Except ProofError Bool)
    (sha3 : Octets → Hash) (initial final : ProofScheduler)
    (steps : List (ProofScheduler × Call × Outcome)) (run : Run verify sha3 initial steps final)
    (answers : ∀ step ∈ steps, AnswersOwn sha3 step.2.1) :
    (∀ step ∈ steps, Keeps verify sha3 step.1 step.2.1 step.2.2) ∧
      (∃ new, final.inserted = initial.inserted ++ new ∧ ∀ verified ∈ new,
        ∃ step ∈ steps, ∃ request, step.2.1.request sha3 = .ok request ∧
          ComesFrom verify request verified) ∧
      final.pending ⊆ initial.pending := by
  induction run with
  | nil scheduler => exact ⟨by simp, ⟨[], by simp, by simp⟩, by simp⟩
  | @cons scheduler final call outcome rest returned tail ih =>
    rw [List.forall_mem_cons] at answers
    have keeps := (keeps_iff_answersOwn returned).mpr answers.1
    obtain ⟨restKeeps, ⟨restNew, restInserted, restFrom⟩, restPending⟩ := ih answers.2
    obtain ⟨new, inserted_eq, comesFrom⟩ := keeps.bound
    refine ⟨List.forall_mem_cons.mpr ⟨keeps, restKeeps⟩, ⟨new ++ restNew, ?_, ?_⟩,
      restPending.trans keeps.noneAdded⟩
    · rw [restInserted, inserted_eq, List.append_assoc]
    · intro verified mem
      rcases List.mem_append.mp mem with mem | mem
      · exact ⟨_, List.mem_cons_self, comesFrom verified mem⟩
      · obtain ⟨step, stepMem, fromStep⟩ := restFrom verified mem
        exact ⟨step, List.mem_cons_of_mem _ stepMem, fromStep⟩

end

namespace Leftover

/-- The verifier of the Urkel crate, with the digests of a tree with one leaf. -/
def verify (proof : ParsedProof) (expectedRoot : Hash) : Except ProofError Bool :=
  if proof.root ≠ expectedRoot then .ok false
  else .ok (proof.proof.verify TwoLeaves.blake2b256 expectedRoot proof.nameHash)

/-- The hash of a name that is not in the tree. -/
def absentKey : Hash :=
  TwoLeaves.otherKey

/-- A third name hash, for which nothing was requested. -/
def otherKey : Hash :=
  ⟨List.replicate 32 9, List.length_replicate⟩

/-- Absence of every key but the one of the leaf. -/
def absenceProof : Octets :=
  [0, 0x80, 0, 0] ++ TwoLeaves.key.bytes ++ TwoLeaves.valueHash.bytes

def ready : HeaderSyncSession :=
  ⟨.ready, ⟨1, 1⟩, some ⟨1, 1⟩, true⟩

/-- The peer lets the request out and answers with one proof. -/
def answering (key : Hash) : Peer :=
  ⟨[.ok ()], [.ok (.proof ⟨TwoLeaves.leafHash, key, absenceProof⟩)]⟩

/-- A request for the absent name `a`, answered for the key `key`. -/
def firstCall (key : Hash) : Call where
  operation := .requestHashAndStoreAtHeight [97] absentKey 7
  root := TwoLeaves.leafHash
  peer := answering key
  session := ready
  sinkResult := .ok ()

/-- A request for the name `b` of the leaf, answered for the absent name. -/
def secondCall : Call where
  operation := .requestHashAndStoreAtHeight [98] TwoLeaves.key 7
  root := TwoLeaves.leafHash
  peer := answering absentKey
  session := ready
  sinkResult := .ok ()

/-- After the first call, answered for a key that nobody asked for. -/
def firstOutcome : Outcome :=
  ⟨.error .unexpectedProof, ⟨{(TwoLeaves.leafHash, absentKey)}, []⟩, ready⟩

/-- After the second call: absence of the leaf's name is stored, from a proof for
the absent name, and the second request is pending. -/
def secondOutcome : Outcome :=
  ⟨.ok ⟨TwoLeaves.leafHash, absentKey, .nonInclusion, none⟩,
    ⟨{(TwoLeaves.leafHash, TwoLeaves.key)},
      [(VerifiedResourceValue.nonInclusion [98] TwoLeaves.key).withAnchor TwoLeaves.leafHash 7]⟩,
    ready⟩

/-- After the first call, answered for its own key. -/
def ownOutcome : Outcome :=
  ⟨.ok ⟨TwoLeaves.leafHash, absentKey, .nonInclusion, none⟩,
    ⟨∅, [(VerifiedResourceValue.nonInclusion [97] absentKey).withAnchor TwoLeaves.leafHash 7]⟩,
    ready⟩

/-- SHA3-256 is not used by these calls. -/
def sha3 (_ : Octets) : Hash :=
  Hash.zero

theorem run_leftover : Run verify sha3 (.new [])
    [(.new [], firstCall otherKey, firstOutcome),
      (firstOutcome.scheduler, secondCall, secondOutcome)] secondOutcome.scheduler :=
  .cons rfl (.cons rfl (.nil _))

end Leftover

open Leftover in
theorem run_keeps_own :
    (∀ step ∈ [(ProofScheduler.new [], firstCall absentKey, ownOutcome)],
        Keeps verify sha3 step.1 step.2.1 step.2.2) ∧
      (∃ new, ownOutcome.scheduler.inserted = [] ++ new ∧ ∀ verified ∈ new,
        ∃ step ∈ [(ProofScheduler.new [], firstCall absentKey, ownOutcome)],
          ∃ request, step.2.1.request sha3 = .ok request ∧ ComesFrom verify request verified) ∧
      ownOutcome.scheduler.pending ⊆ ∅ := by
  have run : Run verify sha3 (.new []) [(.new [], firstCall absentKey, ownOutcome)]
      ownOutcome.scheduler := .cons rfl (.nil _)
  apply run_keeps verify sha3 (.new []) ownOutcome.scheduler _ run
  intro step mem request request_ok packet packet_eq
  rw [List.mem_singleton] at mem
  subst mem
  obtain rfl := Except.ok.inj request_ok
  obtain rfl := Option.some.inj packet_eq
  exact ⟨rfl, rfl⟩

open Leftover in
/-- A request left pending by one call is answered in the next: absence is
recorded for a name that the accepted proof is not about. -/
theorem run_not_keeps_leftover :
    Run verify sha3 (.new [])
        [(.new [], firstCall otherKey, firstOutcome),
          (firstOutcome.scheduler, secondCall, secondOutcome)] secondOutcome.scheduler ∧
      (TwoLeaves.leafHash, absentKey) ∈ firstOutcome.scheduler.pending ∧
      secondOutcome.result = .ok ⟨TwoLeaves.leafHash, absentKey, .nonInclusion, none⟩ ∧
      secondOutcome.scheduler.inserted =
        [(VerifiedResourceValue.nonInclusion [98] TwoLeaves.key).withAnchor TwoLeaves.leafHash 7] ∧
      absentKey ≠ TwoLeaves.key ∧
      ¬ Keeps verify sha3 (.new []) (firstCall otherKey) firstOutcome ∧
      ¬ Keeps verify sha3 firstOutcome.scheduler secondCall secondOutcome := by
  refine ⟨run_leftover, by decide, rfl, rfl, by decide, ?_, ?_⟩
  · intro keeps
    exact keeps.settled _ rfl rfl (by decide)
  · intro keeps
    exact keeps.settled _ rfl rfl (by decide)

end HnsDaneEngine.Sync
