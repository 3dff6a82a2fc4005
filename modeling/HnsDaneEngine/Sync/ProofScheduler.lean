import HnsDaneEngine.P2p.Session
import HnsDaneEngine.Urkel.Proof
import Mathlib.Data.Finset.Basic

/-!
# Requesting, verifying and storing proofs

`ProofScheduler` sends a proof request, receives packets until the session
delivers a proof, and stores what the proof says.  The coordinator keeps the
set of pending requests and accepts a proof when its root and key are pending.

A peer is given by the outcomes of the sends and receives of one call, in
order.  A call that needs an outcome beyond these has not returned; the model
gives `none` for it.
-/

namespace HnsDaneEngine.Sync

open P2p Primitives Urkel

structure ProofValidationResult where
  root : Hash
  key : Hash
  kind : ProofKind
  value : Option Octets

structure ResourceValueAnchor where
  treeRoot : Hash
  height : UInt32

/-- A value with its anchor. -/
structure VerifiedResourceValue where
  rootName : Octets
  nameHash : Hash
  value : Option Octets
  secure : Bool
  anchor : Option ResourceValueAnchor

namespace VerifiedResourceValue

def inclusion (rootName : Octets) (nameHash : Hash) (value : Octets) :
    VerifiedResourceValue :=
  ⟨rootName, nameHash, some value, true, none⟩

def nonInclusion (rootName : Octets) (nameHash : Hash) : VerifiedResourceValue :=
  ⟨rootName, nameHash, none, true, none⟩

def withAnchor (verified : VerifiedResourceValue) (treeRoot : Hash) (height : UInt32) :
    VerifiedResourceValue :=
  { verified with anchor := some ⟨treeRoot, height⟩ }

end VerifiedResourceValue

/-- The errors of `SyncError` that proof scheduling can give. -/
inductive SyncError
  | p2p (error : P2pError)
  | proof (error : ProofError)
  | invalidName (error : NameHashError)
  | resourceSink (message : String)
  | unexpectedAction
  | unexpectedProof
  | proofMismatch
  | unverifiedProof
  | missingProofValue
  | malformedNameStateValue

def maxHsdNameStateNameBytes : Nat := 63

def maxHsdNameStateDataBytes : Nat := 512

def hsdNameStateFixedTailBytes : Nat := 10

def extractNameStateResourceValue (rootName value : Octets) : Except SyncError Octets :=
  match value with
  | [] => .error .malformedNameStateValue
  | nameLen :: rest =>
    if maxHsdNameStateNameBytes < nameLen.toNat then .error .malformedNameStateValue
    else
      match rest.drop nameLen.toNat with
      | low :: high :: data =>
        if rest.take nameLen.toNat ≠ rootName then .error .proofMismatch
        else
          let dataLen := low.toNat + 256 * high.toNat
          if maxHsdNameStateDataBytes < dataLen then .error .malformedNameStateValue
          else if data.length < dataLen + hsdNameStateFixedTailBytes then
            .error .malformedNameStateValue
          else .ok (data.take dataLen)
      | _ => .error .malformedNameStateValue

def verifiedResourceValue (rootName : Octets) (nameHash : Hash)
    (result : ProofValidationResult) : Except SyncError VerifiedResourceValue :=
  match result.kind with
  | .inclusion =>
    match result.value with
    | none => .error .missingProofValue
    | some value =>
      match extractNameStateResourceValue rootName value with
      | .error error => .error error
      | .ok resourceValue => .ok (.inclusion rootName nameHash resourceValue)
  | .nonInclusion => .ok (.nonInclusion rootName nameHash)

/-- The coordinator's pending requests and the values handed to the sink, in
order. -/
structure ProofScheduler where
  pending : Finset (Hash × Hash)
  inserted : List VerifiedResourceValue

namespace ProofScheduler

/-- A new scheduler: nothing is pending. -/
def new (inserted : List VerifiedResourceValue) : ProofScheduler :=
  ⟨∅, inserted⟩

def trackRequest (scheduler : ProofScheduler) (root key : Hash) : ProofScheduler :=
  { scheduler with pending := insert (root, key) scheduler.pending }

def forgetRequest (scheduler : ProofScheduler) (root key : Hash) : ProofScheduler :=
  { scheduler with pending := scheduler.pending.erase (root, key) }

def requestProof (scheduler : ProofScheduler) (session : HeaderSyncSession) (root key : Hash) :
    ProofScheduler × HeaderSyncSession × HeaderSyncAction :=
  match session.requestProof root key with
  | (session, .send (.getProof request)) =>
    (scheduler.trackRequest root key, session, .send (.getProof request))
  | (session, action) => (scheduler, session, action)

end ProofScheduler

section

/- `verify` is the proof verifier of the coordinator. -/
variable (verify : ParsedProof → Hash → Except ProofError Bool)

/-- The checks of `ingest_proof` on a proof that was pending. -/
def checkProof (packet : ProofPacket) : Except SyncError ProofValidationResult :=
  match ParsedProof.parseForKey packet.proof packet.root packet.key with
  | .error error => .error (.proof error)
  | .ok proof =>
    if proof.root ≠ packet.root ∨ proof.nameHash ≠ packet.key then .error .proofMismatch
    else
      match verify proof packet.root with
      | .error error => .error (.proof error)
      | .ok false => .error .unverifiedProof
      | .ok true => .ok ⟨packet.root, packet.key, proof.kind, proof.value⟩

def ingestProof (scheduler : ProofScheduler) (packet : ProofPacket) :
    Except SyncError ProofValidationResult × ProofScheduler :=
  if (packet.root, packet.key) ∉ scheduler.pending then (.error .unexpectedProof, scheduler)
  else (checkProof verify packet, scheduler.forgetRequest packet.root packet.key)

/-- The outcomes of the sends and receives that a peer grants. -/
structure Peer where
  sends : List (Except P2pError Unit)
  receives : List (Except P2pError Packet)

/-- What a call was made with. -/
structure Request where
  rootName : Octets
  root : Hash
  nameHash : Hash
  proofHeight : Option UInt32
  /-- The answer of the sink to an insertion. -/
  sinkResult : Except String Unit

/-- What a call that returned has done. -/
structure Outcome where
  result : Except SyncError ProofValidationResult
  scheduler : ProofScheduler
  session : HeaderSyncSession

/-- The proof arm of the packet loop. -/
def storeProof (request : Request) (scheduler : ProofScheduler) (packet : ProofPacket) :
    Except SyncError ProofValidationResult × ProofScheduler :=
  match ingestProof verify scheduler packet with
  | (.error error, scheduler) => (.error error, scheduler)
  | (.ok result, scheduler) =>
    match verifiedResourceValue request.rootName request.nameHash result with
    | .error error => (.error error, scheduler)
    | .ok verified =>
      let verified :=
        match request.proofHeight with
        | some height => verified.withAnchor result.root height
        | none => verified
      let scheduler := { scheduler with inserted := scheduler.inserted ++ [verified] }
      match request.sinkResult with
      | .error message => (.error (.resourceSink message), scheduler)
      | .ok () => (.ok result, scheduler)

/-- How far the actions of one packet bring the call. -/
inductive Progress
  | returned (result : Except SyncError ProofValidationResult) (scheduler : ProofScheduler)
  | continues (sends : List (Except P2pError Unit))
  | blocked

/-- The action loop.  No action that lets the loop go on changes the
coordinator. -/
def handleActions (request : Request) (scheduler : ProofScheduler)
    (sends : List (Except P2pError Unit)) : List HeaderSyncAction → Progress
  | [] => .continues sends
  | .proof packet :: _ =>
    let (result, scheduler) := storeProof verify request scheduler packet
    .returned result scheduler
  | .send _ :: rest =>
    match sends with
    | [] => .blocked
    | .error error :: _ =>
      .returned (.error (.p2p error))
        (scheduler.forgetRequest request.root request.nameHash)
    | .ok () :: sends => handleActions request scheduler sends rest
  | .disconnect reason :: _ =>
    .returned (.error (.p2p (.sessionDisconnected reason)))
      (scheduler.forgetRequest request.root request.nameHash)
  | _ :: _ =>
    .returned (.error .unexpectedAction)
      (scheduler.forgetRequest request.root request.nameHash)

/-- The packet loop. -/
def receiveLoop (request : Request) (scheduler : ProofScheduler) :
    HeaderSyncSession → List (Except P2pError Unit) → List (Except P2pError Packet) → Option Outcome
  | _, _, [] => none
  | session, _, .error error :: _ =>
    some ⟨.error (.p2p error), scheduler.forgetRequest request.root request.nameHash, session⟩
  | session, sends, .ok packet :: rest =>
    match session.onPacket packet with
    | (session, actions) =>
      match handleActions verify request scheduler sends actions with
      | .blocked => none
      | .returned result scheduler => some ⟨result, scheduler, session⟩
      | .continues sends => receiveLoop request scheduler session sends rest

/-- `request_hash_and_store_with_height`. -/
def requestHashAndStoreWithHeight (scheduler : ProofScheduler) (peer : Peer)
    (session : HeaderSyncSession) (request : Request) : Option Outcome :=
  match scheduler.requestProof session request.root request.nameHash with
  | (scheduler, session, .send _) =>
    match peer.sends with
    | [] => none
    | .error error :: _ =>
      some ⟨.error (.p2p error), scheduler.forgetRequest request.root request.nameHash, session⟩
    | .ok () :: sends => receiveLoop verify request scheduler session sends peer.receives
  | (scheduler, session, .disconnect reason) =>
    some ⟨.error (.p2p (.sessionDisconnected reason)), scheduler, session⟩
  | (scheduler, session, _) => some ⟨.error .unexpectedAction, scheduler, session⟩

/- `sha3` stands for SHA3-256. -/
variable (sha3 : Octets → Hash)

def requestAndStore (scheduler : ProofScheduler) (peer : Peer) (session : HeaderSyncSession)
    (rootName : Octets) (root : Hash) (sinkResult : Except String Unit) : Option Outcome :=
  match nameHashFromName sha3 rootName with
  | .error error => some ⟨.error (.invalidName error), scheduler, session⟩
  | .ok nameHash =>
    requestHashAndStoreWithHeight verify scheduler peer session
      ⟨rootName, root, nameHash, none, sinkResult⟩

def requestAndStoreAtHeight (scheduler : ProofScheduler) (peer : Peer)
    (session : HeaderSyncSession) (rootName : Octets) (root : Hash) (proofHeight : UInt32)
    (sinkResult : Except String Unit) : Option Outcome :=
  match nameHashFromName sha3 rootName with
  | .error error => some ⟨.error (.invalidName error), scheduler, session⟩
  | .ok nameHash =>
    requestHashAndStoreWithHeight verify scheduler peer session
      ⟨rootName, root, nameHash, some proofHeight, sinkResult⟩

def requestHashAndStore (scheduler : ProofScheduler) (peer : Peer)
    (session : HeaderSyncSession) (rootName : Octets) (root nameHash : Hash)
    (sinkResult : Except String Unit) : Option Outcome :=
  requestHashAndStoreWithHeight verify scheduler peer session
    ⟨rootName, root, nameHash, none, sinkResult⟩

def requestHashAndStoreAtHeight (scheduler : ProofScheduler) (peer : Peer)
    (session : HeaderSyncSession) (rootName : Octets) (root nameHash : Hash)
    (proofHeight : UInt32) (sinkResult : Except String Unit) : Option Outcome :=
  requestHashAndStoreWithHeight verify scheduler peer session
    ⟨rootName, root, nameHash, some proofHeight, sinkResult⟩

end

end HnsDaneEngine.Sync
