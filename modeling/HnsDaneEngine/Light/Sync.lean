import HnsDaneEngine.Data.Keyed
import HnsDaneEngine.Light.Chain
import Mathlib.Data.List.Dedup

/-!
# Header synchronization

Rounds of header requests to several peers.  Every response is validated on its own
copy of the chain; the one with the most work wins if enough peers agree on its tip.
Hash tables yield their entries in an arbitrary order, which each call is given.
-/

namespace HnsDaneEngine.Light

open Control Data Primitives

/-- An order in which a hash table yields its entries. -/
structure HashOrder where
  order : {α : Type} → List α → List α
  perm : ∀ {α : Type} (items : List α), (order items).Perm items

/-- The bounds of a synchronisation. -/
structure SyncConfig where
  maxPeers : Nat
  minimumPeerAgreement : Nat
  roundTimeoutSeconds : UInt64
  maxPeerFailures : UInt32

/-- How far the headers are. -/
inductive SyncState
  | headerSyncing
  | headerCurrent
  | degraded
  deriving DecidableEq

/-- What is known of a peer. -/
structure PeerRecord where
  advertisedHeight : UInt32
  failures : UInt32
  successes : UInt64
  banned : Bool
  deriving DecidableEq

/-- Known hashes and where to stop. -/
structure LocatorPacket where
  locator : List Hash
  stop : Hash

/-- The request that all peers of a round get. -/
structure HeaderRoundRequest where
  generation : UInt64
  packet : LocatorPacket
  baseHeight : UInt32
  baseHash : Hash
  deadline : UInt64

/-- A round of requests. -/
structure SyncRound (PeerId Header : Type) where
  request : HeaderRoundRequest
  requested : List PeerId
  responses : Store PeerId (List Header)

/-- What a synchronisation shows. -/
structure SyncStatus where
  state : SyncState
  generation : UInt64
  tip : HeaderEntry
  peers : Nat
  activePeers : Nat
  roundActive : Bool

/-- What a round has added. -/
structure HeaderRoundOutcome (Header : Type) where
  status : SyncStatus
  acceptedHeaders : List Header

/-- The synchronisation with several peers. -/
structure HeaderSync (PeerId Header : Type) where
  config : SyncConfig
  chain : LightChain
  state : SyncState
  generation : UInt64
  peers : Store PeerId PeerRecord
  round : Option (SyncRound PeerId Header)

/-- Why a call fails. -/
inductive SyncError (HeaderError : Type)
  | chain (error : LightChainError HeaderError)
  | invalidConfig
  | peerLimit
  | duplicatePeer
  | unknownPeer
  | peerBanned
  | insufficientPeers
  | roundAlreadyActive
  | noActiveRound
  | staleRound
  | roundExpired
  | peerNotRequested
  | duplicateResponse
  | headerResponseLimit
  | roundIncomplete
  | insufficientResponses
  | noValidCandidate
  | ambiguousBestChain
  | insufficientAgreement
  | notCurrent
  | generationExhausted
  | timeOverflow

section

variable {Header HeaderError : Type}

def SyncConfig.validate (config : SyncConfig) : Except (SyncError HeaderError) SyncConfig :=
  if config.maxPeers = 0 ∨ 64 < config.maxPeers ∨ config.minimumPeerAgreement = 0 ∨
      config.maxPeers < config.minimumPeerAgreement ∨ config.roundTimeoutSeconds = 0 ∨
      300 < config.roundTimeoutSeconds ∨ config.maxPeerFailures = 0 then
    .error .invalidConfig
  else .ok config

/-- The `?` on a result of the chain. -/
def liftChain {α : Type} : Except (LightChainError HeaderError) α → Except (SyncError HeaderError) α
  | .error error => .error (.chain error)
  | .ok value => .ok value

end

/-- One more failure, within 32 bits; enough of them ban the peer. -/
def PeerRecord.fail (config : SyncConfig) (record : PeerRecord) : PeerRecord :=
  let failures := UInt32.ofNat (min (record.failures.toNat + 1) (2 ^ 32 - 1))
  { record with
    failures
    banned := record.banned || decide (config.maxPeerFailures ≤ failures) }

def PeerRecord.succeed (record : PeerRecord) : PeerRecord :=
  { record with
    successes := UInt64.ofNat (min (record.successes.toNat + 1) u64Max)
    failures := UInt32.ofNat (record.failures.toNat - 1) }

section

variable {PeerId : Type} [DecidableEq PeerId]

def recordFailure (config : SyncConfig) (peers : Store PeerId PeerRecord) (peer : PeerId) :
    Store PeerId PeerRecord :=
  peers.modify peer (PeerRecord.fail config)

def recordSuccess (peers : Store PeerId PeerRecord) (peer : PeerId) : Store PeerId PeerRecord :=
  peers.modify peer PeerRecord.succeed

end

/-- A response that was validated on a copy of the chain. -/
structure Candidate (PeerId Header : Type) where
  peer : PeerId
  headers : List Header
  chain : LightChain

namespace HeaderSync

section

variable {PeerId Header HeaderError : Type} [DecidableEq PeerId]
  (consensus : HeaderConsensus Header HeaderError)

/-- A copy of the chain, extended by a response. -/
def validateResponse (chain : LightChain) (now : UInt64) (peer : PeerId) (headers : List Header) :
    Option (Candidate PeerId Header) :=
  if headers.isEmpty then some ⟨peer, headers, chain⟩
  else
    match LightChain.appendBatch consensus chain headers now with
    | .error _ => none
    | .ok (_, candidate) => some ⟨peer, headers, candidate⟩

/-- The loop over the responses: valid ones become candidates, the others count against
their peer. -/
def collectCandidates (config : SyncConfig) (chain : LightChain) (now : UInt64) :
    List (Sigma fun _ : PeerId => List Header) → Store PeerId PeerRecord →
      List (Candidate PeerId Header) × Store PeerId PeerRecord
  | [], peers => ([], peers)
  | ⟨peer, headers⟩ :: responses, peers =>
    match validateResponse consensus chain now peer headers with
    | some candidate =>
      let (candidates, peers) := collectCandidates config chain now responses peers
      (candidate :: candidates, peers)
    | none => collectCandidates config chain now responses (recordFailure config peers peer)

/-- The distinct tips of the candidates with the given work. -/
def bestHashes (candidates : List (Candidate PeerId Header)) (work : Nat) : List Hash :=
  ((candidates.filter fun candidate => candidate.chain.tip.chainwork.value = work).map
    fun candidate => candidate.chain.tip.hash).dedup

/-- Candidates with a given tip. -/
def supportersOf (candidates : List (Candidate PeerId Header)) (hash : Hash) :
    List (Candidate PeerId Header) :=
  candidates.filter fun candidate => candidate.chain.tip.hash = hash

def fromGenesis (network : Network) (now : UInt64) (limits : ChainLimits) (config : SyncConfig) :
    Except (SyncError HeaderError) (HeaderSync PeerId Header) := do
  let config ← config.validate
  let chain ← liftChain (LightChain.fromGenesis consensus network now limits)
  .ok { config, chain, state := .headerSyncing, generation := 1, peers := ∅, round := none }

/-- Resume from a restored chain; peers and rounds start afresh. -/
def fromChain (chain : LightChain) (config : SyncConfig) :
    Except (SyncError HeaderError) (HeaderSync PeerId Header) := do
  let config ← config.validate
  .ok { config, chain, state := .headerSyncing, generation := 1, peers := ∅, round := none }

def status (sync : HeaderSync PeerId Header) : SyncStatus where
  state := sync.state
  generation := sync.generation
  tip := sync.chain.tip
  peers := sync.peers.size
  activePeers := sync.peers.entries.countP fun entry => !entry.2.banned
  roundActive := sync.round.isSome

def addPeer (sync : HeaderSync PeerId Header) (id : PeerId) (advertisedHeight : UInt32) :
    Except (SyncError HeaderError) (HeaderSync PeerId Header) :=
  if (sync.peers.lookup id).isSome then .error .duplicatePeer
  else if sync.config.maxPeers ≤ sync.peers.size then .error .peerLimit
  else .ok { sync with peers := sync.peers.insert id ⟨advertisedHeight, 0, 0, false⟩ }

/-- Forget a peer and its response; the flag tells whether it was tracked. -/
def removePeer (sync : HeaderSync PeerId Header) (id : PeerId) : Bool × HeaderSync PeerId Header :=
  ((sync.peers.lookup id).isSome,
    { sync with
      peers := sync.peers.erase id
      round := sync.round.map fun round =>
        { round with
          requested := round.requested.filter fun peer => peer ≠ id
          responses := round.responses.erase id } })

def updatePeerHeight (sync : HeaderSync PeerId Header) (id : PeerId) (advertisedHeight : UInt32) :
    Except (SyncError HeaderError) (HeaderSync PeerId Header) :=
  match sync.peers.lookup id with
  | none => .error .unknownPeer
  | some _ =>
    .ok { sync with
      peers := sync.peers.modify id fun record => { record with advertisedHeight }
      state := if sync.chain.tip.height < advertisedHeight then .headerSyncing else sync.state }

/-- The check of `begin_round` on the selected peers, in the order of their hash set. -/
def checkSelected (sync : HeaderSync PeerId Header) :
    List PeerId → Except (SyncError HeaderError) Unit
  | [] => .ok ()
  | id :: ids =>
    match sync.peers.lookup id with
    | none => .error .unknownPeer
    | some record => if record.banned then .error .peerBanned else checkSelected sync ids

def beginRound (sync : HeaderSync PeerId Header) (order : HashOrder) (selected : List PeerId)
    (now : UInt64) :
    Except (SyncError HeaderError) (HeaderRoundRequest × HeaderSync PeerId Header) :=
  if sync.round.isSome then .error .roundAlreadyActive
  else
    let requested := selected.dedup
    if requested.length ≠ selected.length ∨ requested.length < sync.config.minimumPeerAgreement then
      .error .insufficientPeers
    else do
      checkSelected sync (order.order requested)
      match checkedAdd sync.generation.toNat 1 with
      | none => .error .generationExhausted
      | some generation =>
        match checkedAdd now.toNat sync.config.roundTimeoutSeconds.toNat with
        | none => .error .timeOverflow
        | some deadline =>
          let request : HeaderRoundRequest :=
            { generation := UInt64.ofNat generation
              packet := ⟨LightChain.locator consensus sync.chain, .zero⟩
              baseHeight := sync.chain.tip.height
              baseHash := sync.chain.tip.hash
              deadline := UInt64.ofNat deadline }
          .ok (request, { sync with
            round := some ⟨request, requested, ∅⟩
            generation := UInt64.ofNat generation })

/-- Discard an active round; the flag tells whether there was one. -/
def abandonUncommittedRound (sync : HeaderSync PeerId Header) : Bool × HeaderSync PeerId Header :=
  (sync.round.isSome, { sync with round := none })

/-- Take one response for the active round; `maxHeaders` is the limit of the wire
format. -/
def submitHeaders (maxHeaders : Nat) (sync : HeaderSync PeerId Header) (generation : UInt64)
    (peer : PeerId) (headers : List Header) (now : UInt64) :
    Except (SyncError HeaderError) (HeaderSync PeerId Header) :=
  match sync.round with
  | none => .error .noActiveRound
  | some round =>
    if generation ≠ round.request.generation then .error .staleRound
    else if round.request.deadline < now then .error .roundExpired
    else if peer ∉ round.requested then .error .peerNotRequested
    else if maxHeaders < headers.length then .error .headerResponseLimit
    else if (round.responses.lookup peer).isSome then .error .duplicateResponse
    else .ok { sync with
      round := some { round with responses := round.responses.insert peer headers } }

/-- The installation of a winner: supporters score, and the chain counts as current when
nothing hints at an extension. -/
def installWinner (sync : HeaderSync PeerId Header) (allResponded : Bool)
    (supporters : List (Candidate PeerId Header)) (winner : Candidate PeerId Header) :
    HeaderSync PeerId Header :=
  let unchanged := decide (winner.chain.tip.hash = sync.chain.tip.hash)
  let peers := supporters.foldl (fun peers candidate => recordSuccess peers candidate.peer)
    sync.peers
  let height := winner.chain.tip.height
  let noExtension := peers.entries.all fun entry =>
    entry.2.banned || decide (entry.2.advertisedHeight ≤ height)
  let supportersIdle := supporters.all fun candidate =>
    candidate.headers.isEmpty &&
      (peers.lookup candidate.peer).any fun record => decide (record.advertisedHeight ≤ height)
  { sync with
    peers
    chain := winner.chain
    state :=
      if unchanged && allResponded && noExtension && supportersIdle then .headerCurrent
      else .headerSyncing }

/-- The choice among the candidates of a round. -/
def selectWinner (sync : HeaderSync PeerId Header) (allResponded : Bool)
    (candidates : List (Candidate PeerId Header)) :
    Except (SyncError HeaderError) (HeaderRoundOutcome Header) × HeaderSync PeerId Header :=
  match (candidates.map fun candidate => candidate.chain.tip.chainwork.value).max? with
  | none => (.error .noValidCandidate, { sync with state := .degraded })
  | some maximumWork =>
    match bestHashes candidates maximumWork with
    | [bestHash] =>
      let supporters := supportersOf candidates bestHash
      if supporters.length < sync.config.minimumPeerAgreement then
        (.error .insufficientAgreement, { sync with state := .degraded })
      else
        match candidates.find? fun candidate => candidate.chain.tip.hash = bestHash with
        | none => (.error .noValidCandidate, sync)
        | some winner =>
          let installed := sync.installWinner allResponded supporters winner
          (.ok ⟨installed.status, winner.headers⟩, installed)
    | _ => (.error .ambiguousBestChain, { sync with state := .degraded })

/-- Validate all responses, choose the one with the most work and require agreement on
it. -/
def finishRoundWithHeaders (sync : HeaderSync PeerId Header) (order : HashOrder) (now : UInt64) :
    Except (SyncError HeaderError) (HeaderRoundOutcome Header) × HeaderSync PeerId Header :=
  match sync.round with
  | none => (.error .noActiveRound, sync)
  | some round =>
    let taken : HeaderSync PeerId Header := { sync with round := none }
    if round.responses.size < sync.config.minimumPeerAgreement then
      if now ≤ round.request.deadline then (.error .roundIncomplete, sync)
      else (.error .insufficientResponses, { taken with state := .degraded })
    else if sync.chain.tip.hash ≠ round.request.baseHash ∨
        sync.chain.tip.height ≠ round.request.baseHeight then
      (.error .staleRound, taken)
    else
      let (candidates, peers) := collectCandidates consensus sync.config sync.chain now
        (order.order round.responses.entries) sync.peers
      selectWinner { taken with peers }
        (decide (round.responses.size = round.requested.length)) candidates

def finishRound (sync : HeaderSync PeerId Header) (order : HashOrder) (now : UInt64) :
    Except (SyncError HeaderError) SyncStatus × HeaderSync PeerId Header :=
  let (result, after) := finishRoundWithHeaders consensus sync order now
  (result.map HeaderRoundOutcome.status, after)

/-- A token for the current chain, only after a round without an extension. -/
def requireCurrent (sync : HeaderSync PeerId Header) (policy : CurrencyPolicy) :
    Except (SyncError HeaderError) CurrentChain :=
  if sync.state ≠ .headerCurrent then .error .notCurrent
  else liftChain (sync.chain.requireCurrent policy)

/-- The calls that change a synchronizer. -/
inductive Call (PeerId Header : Type)
  | addPeer (id : PeerId) (advertisedHeight : UInt32)
  | removePeer (id : PeerId)
  | updatePeerHeight (id : PeerId) (advertisedHeight : UInt32)
  | beginRound (order : HashOrder) (selected : List PeerId) (now : UInt64)
  | submitHeaders (generation : UInt64) (peer : PeerId) (headers : List Header) (now : UInt64)
  | finishRound (order : HashOrder) (now : UInt64)
  | finishRoundWithHeaders (order : HashOrder) (now : UInt64)
  | abandonUncommittedRound

/-- The synchronizer after an operation that leaves it alone when it fails. -/
def orUnchanged (sync : HeaderSync PeerId Header) :
    Except (SyncError HeaderError) (HeaderSync PeerId Header) → HeaderSync PeerId Header
  | .error _ => sync
  | .ok after => after

def apply (maxHeaders : Nat) (sync : HeaderSync PeerId Header) :
    Call PeerId Header → HeaderSync PeerId Header
  | .addPeer id height =>
    orUnchanged sync (sync.addPeer id height : Except (SyncError HeaderError) _)
  | .removePeer id => (sync.removePeer id).2
  | .updatePeerHeight id height =>
    orUnchanged sync (sync.updatePeerHeight id height : Except (SyncError HeaderError) _)
  | .beginRound order selected now =>
    orUnchanged sync ((beginRound consensus sync order selected now).map Prod.snd)
  | .submitHeaders generation peer headers now =>
    orUnchanged sync (sync.submitHeaders maxHeaders generation peer headers now :
      Except (SyncError HeaderError) _)
  | .finishRound order now => (finishRound consensus sync order now).2
  | .finishRoundWithHeaders order now => (finishRoundWithHeaders consensus sync order now).2
  | .abandonUncommittedRound => sync.abandonUncommittedRound.2

/-- A synchronizer at genesis or over a restored chain. -/
inductive Opened : HeaderSync PeerId Header → Prop
  | genesis {network : Network} {now : UInt64} {limits : ChainLimits} {config : SyncConfig}
      {sync : HeaderSync PeerId Header}
      (opened : fromGenesis consensus network now limits config = .ok sync) : Opened sync
  | resumed {chain : LightChain} {config : SyncConfig} {sync : HeaderSync PeerId Header}
      (opened : (fromChain chain config : Except (SyncError HeaderError) _) = .ok sync) :
      Opened sync

end

end HeaderSync

end HnsDaneEngine.Light
