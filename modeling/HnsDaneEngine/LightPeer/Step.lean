import HnsDaneEngine.Control.Except
import HnsDaneEngine.Control.Run
import HnsDaneEngine.LightPeer.Session

/-!
# The log of a peer session

The log of a session records the packets it decodes, the requests it sends, the
events it emits, the requests it gives up and its end.  A step relation says what one
call can add to the log and do to the session.
-/

namespace HnsDaneEngine.LightPeer

open Control Primitives

variable {Frame WireError : Type}

/-- The calls of a session. -/
inductive Call (Frame : Type)
  | handleFrame (frame : Frame) (now : Nat)
  | requestHeaders (locator : List Hash) (stop : Hash) (now : Nat)
  | requestProof (root key : Hash) (now : Nat)
  | ping (nonce : Nonce) (now : Nat)
  | expire (now : Nat)
  | close

/-- What a request asks for. -/
inductive Request
  | headers
  | proof (root key : Hash)
  | ping (nonce : Nonce)
  deriving DecidableEq

def Request.kind : Request → RequestKind
  | .headers => .headers
  | .proof _ _ => .proof
  | .ping _ => .ping

/-- The event is the response that a request asks for. -/
def Request.Answers (request : Request) : PeerEvent Frame → Prop
  | .headers _ => request = .headers
  | .proof packet => request = .proof packet.root packet.key
  | .pong nonce => request = .ping nonce
  | _ => False

/-- The kind of request that an event answers. -/
def PeerEvent.kind? : PeerEvent Frame → Option RequestKind
  | .headers _ => some .headers
  | .proof _ => some .proof
  | .pong _ => some .ping
  | _ => none

/-- The entries of the log. -/
inductive Entry (Frame : Type)
  | received (packet : Packet) (now : Nat)
  | requested (request : Request) (now : Nat)
  | emitted (event : PeerEvent Frame) (now : Nat)
  | dropped (kind : RequestKind)
  | closed
  deriving DecidableEq

/-- A frame is decoded unless the session is closed or its handshake is late. -/
def receivedEntries (codec : WireCodec Frame WireError) (session : PeerSession) (frame : Frame)
    (now : Nat) : List (Entry Frame) :=
  if session.state = .closed ∨ session.state ≠ .ready ∧ session.handshakeDeadline < now then []
  else
    match codec.decodePacket frame with
    | .ok packet => [.received packet now]
    | .error _ => []

def resultEntries (now : Nat) :
    Except (PeerError WireError) (PeerEvent Frame) → List (Entry Frame)
  | .ok event => [.emitted event now]
  | .error .handshakeTimeout => [.closed]
  | .error (.requestTimeout kind) => [.dropped kind]
  | .error .wrongProof => [.dropped .proof]
  | .error _ => []

def requestEntries (request : Request) (now : Nat) :
    Except (PeerError WireError) (Frame × PeerSession) → List (Entry Frame)
  | .ok _ => [.requested request now]
  | .error _ => []

def ExpiredRequests.kinds (expired : ExpiredRequests) : List RequestKind :=
  (if expired.headers then [.headers] else []) ++ (if expired.proof then [.proof] else []) ++
    (if expired.ping then [.ping] else [])

def expireEntries : Except (PeerError WireError) ExpiredRequests → List (Entry Frame)
  | .ok expired => expired.kinds.map .dropped
  | .error .handshakeTimeout => [.closed]
  | .error _ => []

namespace PeerSession

section

variable (codec : WireCodec Frame WireError)

/-- The session after a request, which a refusal leaves as it was. -/
def afterRequest (session : PeerSession) :
    Except (PeerError WireError) (Frame × PeerSession) → PeerSession
  | .ok (_, session) => session
  | .error _ => session

def apply (session : PeerSession) : Call Frame → PeerSession
  | .handleFrame frame now => (session.handleFrame codec frame now).2
  | .requestHeaders locator stop now =>
    session.afterRequest (session.requestHeaders codec locator stop now)
  | .requestProof root key now => session.afterRequest (session.requestProof codec root key now)
  | .ping nonce now => session.afterRequest (session.ping codec nonce now)
  | .expire now => (session.expire now : Except (PeerError WireError) ExpiredRequests × PeerSession).2
  | .close => session.close

def entries (session : PeerSession) : Call Frame → List (Entry Frame)
  | .handleFrame frame now =>
    receivedEntries codec session frame now ++
      resultEntries now (session.handleFrame codec frame now).1
  | .requestHeaders locator stop now =>
    requestEntries .headers now (session.requestHeaders codec locator stop now)
  | .requestProof root key now =>
    requestEntries (.proof root key) now (session.requestProof codec root key now)
  | .ping nonce now => requestEntries (.ping nonce) now (session.ping codec nonce now)
  | .expire now =>
    expireEntries (session.expire now : Except (PeerError WireError) ExpiredRequests × PeerSession).1
  | .close => [.closed]

/-- The log of a run. -/
def log (session : PeerSession) (calls : List (Call Frame)) : List (Entry Frame) :=
  logFrom (apply codec) (entries codec) session calls

end

/-- The outstanding request of a kind with its deadline. -/
def pending (session : PeerSession) : RequestKind → Option (Request × Nat)
  | .headers => session.pendingHeaders.map fun pending => (.headers, pending.deadline)
  | .proof => session.pendingProof.map fun pending =>
    (.proof pending.root pending.key, pending.deadline)
  | .ping => session.pendingPing.map fun pending => (.ping pending.nonce, pending.deadline)

def arm (session : PeerSession) (deadline : Nat) : Request → PeerSession
  | .headers => { session with pendingHeaders := some ⟨deadline⟩ }
  | .proof root key => { session with pendingProof := some ⟨root, key, deadline⟩ }
  | .ping nonce => { session with pendingPing := some ⟨nonce, deadline⟩ }

def drop (session : PeerSession) : RequestKind → PeerSession
  | .headers => { session with pendingHeaders := none }
  | .proof => { session with pendingProof := none }
  | .ping => { session with pendingPing := none }

@[simp]
theorem pending_arm (session : PeerSession) (deadline : Nat) (request : Request)
    (kind : RequestKind) :
    (session.arm deadline request).pending kind =
      if request.kind = kind then some (request, deadline) else session.pending kind := by
  cases request <;> cases kind <;> rfl

@[simp]
theorem pending_drop (session : PeerSession) (dropped kind : RequestKind) :
    (session.drop dropped).pending kind =
      if dropped = kind then none else session.pending kind := by
  cases dropped <;> cases kind <;> rfl

@[simp]
theorem pending_close (session : PeerSession) (kind : RequestKind) :
    session.close.pending kind = none := by
  cases kind <;> rfl

/-- The rest of the session, which no request and no response changes. -/
def handshake (session : PeerSession) : PeerConfig × PeerState × Nonce × Nat × Bool :=
  (session.config, session.state, session.localNonce, session.handshakeDeadline,
    session.peerVerackReceived)

@[simp]
theorem handshake_arm (session : PeerSession) (deadline : Nat) (request : Request) :
    (session.arm deadline request).handshake = session.handshake := by
  cases request <;> rfl

@[simp]
theorem handshake_drop (session : PeerSession) (kind : RequestKind) :
    (session.drop kind).handshake = session.handshake := by
  cases kind <;> rfl

/-- The admission rules for the version packet of the peer. -/
structure Admits (codec : WireCodec Frame WireError) (session : PeerSession)
    (version : VersionPacket) (now : Nat) : Prop where
  current : codec.minProtocolVersion ≤ version.version
  services : version.services &&& session.config.requiredServices = session.config.requiredServices
  foreign : version.nonce ≠ session.localNonce
  inClock : absDiff version.time now ≤ session.config.maxClockSkewSeconds

theorem admits_of_checkVersion {codec : WireCodec Frame WireError} {session : PeerSession}
    {version : VersionPacket} {now : Nat}
    (checked : session.checkVersion codec version now = .ok ()) :
    session.Admits codec version now := by
  unfold checkVersion at checked
  simp only [guard_eq_ok_iff, Nat.not_lt, not_not, and_true] at checked
  exact ⟨checked.1, checked.2.1, checked.2.2.1, checked.2.2.2⟩

end PeerSession

/-- An entry that concerns neither the handshake nor a request. -/
def Entry.IsQuiet : Entry Frame → Prop
  | .received _ _ => True
  | .requested _ _ => False
  | .emitted event _ => event.kind? = none ∧ ∀ metadata, event ≠ .ready metadata
  | .dropped _ => False
  | .closed => False

namespace PeerSession

/-- What one call can do to a session. -/
inductive Step (codec : WireCodec Frame WireError) (session : PeerSession) :
    List (Entry Frame) → PeerSession → Prop
  | unchanged : Step codec session [] session
  | quiet {entries : List (Entry Frame)} (opened : session.state ≠ .closed)
      (quiet : ∀ entry ∈ entries, entry.IsQuiet) : Step codec session entries session
  | acknowledged {now : Nat} (awaiting : session.state = .awaitingVersion)
      (inTime : now ≤ session.handshakeDeadline) :
      Step codec session [.received .verack now, .emitted (.ignored .verack) now]
        { session with peerVerackReceived := true }
  | admitted {version : VersionPacket} {now : Nat} {metadata : Option PeerMetadata}
      {readyAfterResponse : Bool} {entries : List (Entry Frame)}
      (awaiting : session.state = .awaitingVersion) (inTime : now ≤ session.handshakeDeadline)
      (admits : session.Admits codec version now) (quiet : ∀ entry ∈ entries, entry.IsQuiet) :
      Step codec session (.received (.version version) now :: entries)
        { session with
          metadata
          readyAfterResponse
          state := if session.peerVerackReceived then .ready else .awaitingVerack }
  | completed {now : Nat} {entries : List (Entry Frame)}
      (awaiting : session.state = .awaitingVerack) (inTime : now ≤ session.handshakeDeadline)
      (onlyReady : ∀ entry ∈ entries, ∃ metadata, entry = .emitted (.ready metadata) now) :
      Step codec session (.received .verack now :: entries) { session with state := .ready }
  | requested {request : Request} {now : Nat} (ready : session.state = .ready)
      (vacant : session.pending request.kind = none) :
      Step codec session [.requested request now]
        (session.arm (now + session.config.requestTimeoutSeconds) request)
  | answered {packet : Packet} {event : PeerEvent Frame} {now deadline : Nat} (request : Request)
      (ready : session.state = .ready)
      (pending_eq : session.pending request.kind = some (request, deadline))
      (inTime : now ≤ deadline) (kind_eq : event.kind? = some request.kind)
      (answers : request.Answers event) :
      Step codec session [.received packet now, .emitted event now] (session.drop request.kind)
  | dropped (entries : List (Entry Frame)) (kinds : List RequestKind)
      (ready : session.state = .ready)
      (onlyReceived : ∀ entry ∈ entries, ∃ packet now, entry = .received packet now) :
      Step codec session (entries ++ kinds.map .dropped) (kinds.foldl drop session)
  | closed : Step codec session [.closed] session.close

variable {codec : WireCodec Frame WireError}

theorem frameFromPacket_quiet (packet : Packet) (now : Nat) :
    ∀ entry ∈ resultEntries now ((frameFromPacket codec packet).map PeerEvent.send),
      entry.IsQuiet := by
  unfold frameFromPacket
  cases codec.fromPacket packet with
  | ok frame => simp [Except.map, resultEntries, Entry.IsQuiet, PeerEvent.kind?]
  | error error => simp [Except.map, resultEntries]

/-- A packet is recorded with what comes of it. -/
def Settles (codec : WireCodec Frame WireError) (session : PeerSession) (packet : Packet)
    (now : Nat) (after : Except (PeerError WireError) (PeerEvent Frame) × PeerSession) : Prop :=
  Step codec session (.received packet now :: resultEntries now after.1) after.2

variable {session : PeerSession} {now : Nat}

/-- A packet with nothing to do with the handshake or a request. -/
theorem step_quiet (opened : session.state ≠ .closed) (packet : Packet) (now : Nat)
    {result : Except (PeerError WireError) (PeerEvent Frame)}
    (quiet : ∀ entry ∈ resultEntries now result, entry.IsQuiet) :
    Settles codec session packet now (result, session) := by
  apply Step.quiet opened
  intro entry logged
  rcases List.mem_cons.mp logged with rfl | rest
  · exact True.intro
  · exact quiet entry rest

theorem step_handleVersion (packet : Packet) (awaiting : session.state = .awaitingVersion)
    (inTime : now ≤ session.handshakeDeadline) :
    Settles codec session packet now (session.handleVersion codec packet now) := by
  have opened : session.state ≠ .closed := by simp [awaiting]
  cases packet with
  | version version =>
    simp only [handleVersion]
    cases checked : session.checkVersion codec version now with
    | error error =>
      apply step_quiet opened
      unfold checkVersion at checked
      split_ifs at checked <;> cases checked <;> simp [resultEntries]
    | ok value =>
      have after_eq : (if session.peerVerackReceived then
            { session with
              metadata := some (versionMetadata codec version)
              state := .ready
              readyAfterResponse := true }
          else
            { session with
              metadata := some (versionMetadata codec version)
              state := .awaitingVerack } : PeerSession) =
          { session with
            metadata := some (versionMetadata codec version)
            readyAfterResponse :=
              if session.peerVerackReceived then true else session.readyAfterResponse
            state := if session.peerVerackReceived then .ready else .awaitingVerack } := by
        split <;> rfl
      simp only [after_eq]
      exact .admitted awaiting inTime (admits_of_checkVersion checked) (frameFromPacket_quiet _ now)
  | _ => exact step_quiet opened _ now (by simp [resultEntries])

theorem step_handlePong (ready : session.state = .ready) (nonce : Nonce) (now : Nat) :
    Settles codec session (.pong nonce) now (session.handlePong nonce now) := by
  have opened : session.state ≠ .closed := by simp [ready]
  unfold handlePong
  cases pending_eq : session.pendingPing with
  | none => exact step_quiet opened _ now (by simp [resultEntries])
  | some pending =>
    dsimp only
    split
    next => exact .dropped [.received (.pong nonce) now] [.ping] ready (by simp)
    next inTime =>
      split
      next => exact step_quiet opened _ now (by simp [resultEntries])
      next same =>
        rcases not_ne_iff.mp same with rfl
        exact .answered (.ping pending.nonce) ready
          (by simp [PeerSession.pending, Request.kind, pending_eq]) (Nat.le_of_not_lt inTime)
          rfl rfl

theorem step_handleHeaders (ready : session.state = .ready) (headers : List Octets) (now : Nat) :
    Settles codec session (.headers headers) now (session.handleHeaders headers now) := by
  have opened : session.state ≠ .closed := by simp [ready]
  unfold handleHeaders
  cases pending_eq : session.pendingHeaders with
  | none => exact step_quiet opened _ now (by simp [resultEntries])
  | some pending =>
    dsimp only
    split
    next => exact .dropped [.received (.headers headers) now] [.headers] ready (by simp)
    next inTime =>
      exact .answered (.headers) ready
        (by simp [PeerSession.pending, Request.kind, pending_eq]) (Nat.le_of_not_lt inTime)
        rfl rfl

theorem step_handleProof (ready : session.state = .ready) (proof : ProofPacket) (now : Nat) :
    Settles codec session (.proof proof) now (session.handleProof proof now) := by
  have opened : session.state ≠ .closed := by simp [ready]
  unfold handleProof
  cases pending_eq : session.pendingProof with
  | none => exact step_quiet opened _ now (by simp [resultEntries])
  | some pending =>
    dsimp only
    split
    next => exact .dropped [.received (.proof proof) now] [.proof] ready (by simp)
    next inTime =>
      split
      next => exact .dropped [.received (.proof proof) now] [.proof] ready (by simp)
      next same =>
        simp only [not_or, not_not] at same
        exact .answered (.proof pending.root pending.key) ready
          (by simp [PeerSession.pending, Request.kind, pending_eq]) (Nat.le_of_not_lt inTime)
          rfl (by simp [Request.Answers, same.1, same.2])

theorem step_handleReady (ready : session.state = .ready) (packet : Packet) (now : Nat) :
    Settles codec session packet now (session.handleReady codec packet now) := by
  have opened : session.state ≠ .closed := by simp [ready]
  cases packet with
  | pong nonce => exact step_handlePong ready nonce now
  | headers headers => exact step_handleHeaders ready headers now
  | proof proof => exact step_handleProof ready proof now
  | ping nonce => exact step_quiet opened _ now (frameFromPacket_quiet _ now)
  | _ =>
    exact step_quiet opened _ now (by simp [resultEntries, Entry.IsQuiet, PeerEvent.kind?])

/-- A packet that gets to an open session is recorded, with what comes of it. -/
theorem step_handlePacket (packet : Packet) (opened : session.state ≠ .closed)
    (inTime : session.state ≠ .ready → now ≤ session.handshakeDeadline) :
    Settles codec session packet now (session.handlePacket codec packet now) := by
  unfold handlePacket
  split
  next state_eq =>
    have onTime : now ≤ session.handshakeDeadline := inTime (by simp [state_eq])
    split
    next verack =>
      rw [verack]
      exact .acknowledged state_eq onTime
    next => exact step_handleVersion packet state_eq onTime
  next state_eq =>
    have onTime : now ≤ session.handshakeDeadline := inTime (by simp [state_eq])
    split
    next => exact step_quiet opened _ now (by simp [resultEntries])
    next verack =>
      rw [not_not.mp verack]
      split
      next => exact .completed state_eq onTime (by simp [resultEntries])
      next => exact .completed state_eq onTime (by simp [resultEntries])
  next state_eq => exact step_handleReady state_eq packet now
  next state_eq => exact absurd state_eq opened

theorem step_handleFrame (session : PeerSession) (frame : Frame) (now : Nat) :
    Step codec session (session.entries codec (.handleFrame frame now))
      (session.apply codec (.handleFrame frame now)) := by
  simp only [entries, PeerSession.apply, handleFrame, receivedEntries]
  by_cases ended : session.state = .closed
  · simpa only [ended, if_true, true_or, resultEntries] using .unchanged
  by_cases late : session.state ≠ .ready ∧ session.handshakeDeadline < now
  · simpa only [ended, late, if_true, if_false, false_or, and_self, ne_eq, not_false_eq_true,
      resultEntries] using .closed
  simp only [ended, late, if_false, or_self]
  cases decoded : codec.decodePacket frame with
  | error error => exact .unchanged
  | ok packet =>
    apply step_handlePacket packet ended
    exact fun waiting => Nat.le_of_not_lt fun overdue => late ⟨waiting, overdue⟩

theorem requireReady_eq_ok {value : Unit}
    (ready : session.requireReady = (.ok value : Except (PeerError WireError) Unit)) :
    session.state = .ready := by
  unfold requireReady at ready
  split at ready
  next state_eq => exact state_eq
  all_goals cases ready

theorem requestDeadline_eq_ok {deadline : Nat}
    (fits : session.requestDeadline now = (.ok deadline : Except (PeerError WireError) Nat)) :
    deadline = now + session.config.requestTimeoutSeconds := by
  unfold requestDeadline at fits
  split at fits
  next => cases fits
  next sum_eq =>
    cases fits
    exact (checkedAdd_eq_some_iff.mp sum_eq).1

/-- The end of every request: the deadline is computed and the frame built. -/
theorem armed_eq {after : PeerSession} {packet : Packet} {frame : Frame} {armed : Nat → PeerSession}
    (sent : (do
      let deadline ← session.requestDeadline now
      let frame ← frameFromPacket codec packet
      .ok (frame, armed deadline)) = .ok (frame, after)) :
    after = armed (now + session.config.requestTimeoutSeconds) := by
  rcases of_bind_ok sent with ⟨deadline, fits, rest⟩
  rcases of_bind_ok rest with ⟨framed, -, rest⟩
  cases rest
  rw [requestDeadline_eq_ok fits]

/-- A request that is sent is the only one of its kind. -/
theorem step_request {request : Request}
    {result : Except (PeerError WireError) (Frame × PeerSession)}
    (sent : ∀ frame after, result = .ok (frame, after) →
      session.state = .ready ∧ session.pending request.kind = none ∧
        after = session.arm (now + session.config.requestTimeoutSeconds) request) :
    Step codec session (requestEntries request now result) (session.afterRequest result) := by
  cases result with
  | error error => exact .unchanged
  | ok value =>
    rcases value with ⟨frame, after⟩
    rcases sent frame after rfl with ⟨ready, vacant, rfl⟩
    exact .requested ready vacant

section

variable (session)

theorem step_requestHeaders (locator : List Hash) (stop : Hash) (now : Nat) :
    Step codec session (session.entries codec (.requestHeaders locator stop now))
      (session.apply codec (.requestHeaders locator stop now)) := by
  apply step_request
  intro frame after sent
  rcases of_bind_ok sent with ⟨⟨⟩, ready, rest⟩
  simp only [guard_eq_ok_iff, Bool.not_eq_true, Option.isSome_eq_false_iff,
    Option.isNone_iff_eq_none] at rest
  rcases rest with ⟨-, vacant, rest⟩
  exact ⟨requireReady_eq_ok ready, by simp [PeerSession.pending, Request.kind, vacant],
    armed_eq rest⟩

theorem step_requestProof (root key : Hash) (now : Nat) :
    Step codec session (session.entries codec (.requestProof root key now))
      (session.apply codec (.requestProof root key now)) := by
  apply step_request
  intro frame after sent
  rcases of_bind_ok sent with ⟨⟨⟩, ready, rest⟩
  simp only [guard_eq_ok_iff, Bool.not_eq_true, Option.isSome_eq_false_iff,
    Option.isNone_iff_eq_none] at rest
  rcases rest with ⟨vacant, rest⟩
  exact ⟨requireReady_eq_ok ready, by simp [PeerSession.pending, Request.kind, vacant],
    armed_eq rest⟩

theorem step_ping (nonce : Nonce) (now : Nat) :
    Step codec session (session.entries codec (.ping nonce now))
      (session.apply codec (.ping nonce now)) := by
  apply step_request
  intro frame after sent
  rcases of_bind_ok sent with ⟨⟨⟩, ready, rest⟩
  simp only [guard_eq_ok_iff, Bool.not_eq_true, Option.isSome_eq_false_iff,
    Option.isNone_iff_eq_none] at rest
  rcases rest with ⟨-, vacant, rest⟩
  exact ⟨requireReady_eq_ok ready, by simp [PeerSession.pending, Request.kind, vacant],
    armed_eq rest⟩

/-- Expiry drops the overdue requests one after the other. -/
theorem dropExpired_eq (expired : ExpiredRequests) :
    ({ session with
      pendingHeaders := if expired.headers then none else session.pendingHeaders
      pendingProof := if expired.proof then none else session.pendingProof
      pendingPing := if expired.ping then none else session.pendingPing } : PeerSession) =
      expired.kinds.foldl drop session := by
  rcases expired with ⟨headers, proof, ping⟩
  cases headers <;> cases proof <;> cases ping <;> rfl

theorem step_expire (now : Nat) :
    Step codec session (session.entries codec (.expire now))
      (session.apply codec (.expire now)) := by
  simp only [entries, PeerSession.apply, expire]
  split
  next =>
    split
    next => exact .closed
    next => exact .unchanged
  next ready =>
    rw [dropExpired_eq session
      { headers := session.pendingHeaders.any fun pending => pending.deadline < now
        proof := session.pendingProof.any fun pending => pending.deadline < now
        ping := session.pendingPing.any fun pending => pending.deadline < now }]
    exact .dropped [] _ (not_not.mp ready) (by simp)

theorem step_apply (call : Call Frame) :
    Step codec session (session.entries codec call) (session.apply codec call) := by
  cases call with
  | handleFrame frame now => exact step_handleFrame session frame now
  | requestHeaders locator stop now => exact step_requestHeaders session locator stop now
  | requestProof root key now => exact step_requestProof session root key now
  | ping nonce now => exact step_ping session nonce now
  | expire now => exact step_expire session now
  | close => exact .closed

end

end PeerSession

end HnsDaneEngine.LightPeer
