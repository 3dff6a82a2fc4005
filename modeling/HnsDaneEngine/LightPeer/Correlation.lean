import HnsDaneEngine.LightPeer.Requests

/-!
# Correlation of responses with requests

A session becomes ready through an admitted version packet and an acknowledgement.  A
response event is emitted only for an outstanding request of its kind and before the
deadline of that request, and never after the session has closed.
-/

namespace HnsDaneEngine.LightPeer

open Control Primitives

variable {Frame WireError : Type} {now : Nat}

namespace PeerSession

/-- A version packet that meets the admission rules came before the deadline. -/
def VersionReceived (codec : WireCodec Frame WireError) (start : PeerSession)
    (log : List (Entry Frame)) : Prop :=
  ∃ version now, .received (.version version) now ∈ log ∧ now ≤ start.handshakeDeadline ∧
    start.Admits codec version now

/-- An acknowledgement came before the deadline. -/
def VerackReceived (start : PeerSession) (log : List (Entry Frame)) : Prop :=
  ∃ now, .received .verack now ∈ log ∧ now ≤ start.handshakeDeadline

variable {log entries : List (Entry Frame)}

theorem VersionReceived.append {codec : WireCodec Frame WireError} {start : PeerSession}
    (received : VersionReceived codec start log) (entries : List (Entry Frame)) :
    VersionReceived codec start (log ++ entries) := by
  rcases received with ⟨version, now, logged, rest⟩
  exact ⟨version, now, List.mem_append_left entries logged, rest⟩

theorem VerackReceived.append {start : PeerSession} (received : VerackReceived start log)
    (entries : List (Entry Frame)) :
    VerackReceived start (log ++ entries) := by
  rcases received with ⟨now, logged, inTime⟩
  exact ⟨now, List.mem_append_left entries logged, inTime⟩

/-- What the log says about the handshake of the session. -/
structure Shakes (codec : WireCodec Frame WireError) (start : PeerSession)
    (log : List (Entry Frame)) (session : PeerSession) : Prop where
  config_eq : session.config = start.config
  localNonce_eq : session.localNonce = start.localNonce
  deadline_eq : session.handshakeDeadline = start.handshakeDeadline
  acknowledged : session.peerVerackReceived = true → VerackReceived start log
  admitted : session.state = .awaitingVerack → VersionReceived codec start log
  ready : session.state = .ready → VersionReceived codec start log ∧ VerackReceived start log
  announced : ∀ metadata now, .emitted (.ready metadata) now ∈ log →
    VersionReceived codec start log ∧ VerackReceived start log
  closed : .closed ∈ log → session.state = .closed

namespace Shakes

variable {codec : WireCodec Frame WireError} {start session after : PeerSession}

section

variable (shakes : Shakes codec start log session)

include shakes

/-- A session whose handshake stays, with entries that neither announce nor close. -/
theorem keep (same : after.handshake = session.handshake)
    (silent : ∀ metadata now, .emitted (.ready metadata) now ∉ entries)
    (stillOpen : .closed ∉ entries) : Shakes codec start (log ++ entries) after := by
  simp only [handshake, Prod.mk.injEq] at same
  rcases same with ⟨config_same, state_same, nonce_same, deadline_same, verack_same⟩
  constructor
  · exact config_same.trans shakes.config_eq
  · exact nonce_same.trans shakes.localNonce_eq
  · exact deadline_same.trans shakes.deadline_eq
  · intro received
    exact (shakes.acknowledged (verack_same.symm.trans received)).append entries
  · intro awaiting
    exact (shakes.admitted (state_same.symm.trans awaiting)).append entries
  · intro ready
    have both := shakes.ready (state_same.symm.trans ready)
    exact ⟨both.1.append entries, both.2.append entries⟩
  · intro metadata now logged
    rcases List.mem_append.mp logged with earlier | new
    · have both := shakes.announced metadata now earlier
      exact ⟨both.1.append entries, both.2.append entries⟩
    · exact absurd new (silent metadata now)
  · intro logged
    rcases List.mem_append.mp logged with earlier | new
    · exact state_same.trans (shakes.closed earlier)
    · exact absurd new stillOpen

theorem close : Shakes codec start (log ++ [.closed]) session.close := by
  constructor
  · exact shakes.config_eq
  · exact shakes.localNonce_eq
  · exact shakes.deadline_eq
  · intro received
    exact (shakes.acknowledged received).append _
  · simp [PeerSession.close]
  · simp [PeerSession.close]
  · intro metadata now logged
    have earlier : .emitted (.ready metadata) now ∈ log := by simpa using logged
    have both := shakes.announced metadata now earlier
    exact ⟨both.1.append _, both.2.append _⟩
  · exact fun _ => rfl

theorem not_closed (opened : session.state ≠ .closed) : .closed ∉ log :=
  fun logged => opened (shakes.closed logged)

theorem acknowledge (awaiting : session.state = .awaitingVersion)
    (inTime : now ≤ session.handshakeDeadline) :
    Shakes codec start (log ++ [.received .verack now, .emitted (.ignored .verack) now])
      { session with peerVerackReceived := true } := by
  constructor
  · exact shakes.config_eq
  · exact shakes.localNonce_eq
  · exact shakes.deadline_eq
  · exact fun _ => ⟨now, by simp, shakes.deadline_eq ▸ inTime⟩
  · simp [awaiting]
  · simp [awaiting]
  · intro metadata time logged
    have earlier : .emitted (.ready metadata) time ∈ log := by simpa using logged
    have both := shakes.announced metadata time earlier
    exact ⟨both.1.append _, both.2.append _⟩
  · intro logged
    have earlier : .closed ∈ log := by simpa using logged
    exact shakes.closed earlier

theorem version_admitted {version : VersionPacket} {metadata : Option PeerMetadata}
    {readyAfterResponse : Bool} (awaiting : session.state = .awaitingVersion)
    (inTime : now ≤ session.handshakeDeadline) (admits : session.Admits codec version now)
    (quiet : ∀ entry ∈ entries, entry.IsQuiet) :
    Shakes codec start (log ++ .received (.version version) now :: entries)
      { session with
        metadata
        readyAfterResponse
        state := if session.peerVerackReceived then .ready else .awaitingVerack } := by
  have admitted : VersionReceived codec start (log ++ .received (.version version) now :: entries) := by
    refine ⟨version, now, by simp, shakes.deadline_eq ▸ inTime, ?_⟩
    rcases admits with ⟨current, services, foreign, inClock⟩
    rw [shakes.config_eq] at services inClock
    rw [shakes.localNonce_eq] at foreign
    exact ⟨current, services, foreign, inClock⟩
  have opened : session.state ≠ .closed := by simp [awaiting]
  constructor
  · exact shakes.config_eq
  · exact shakes.localNonce_eq
  · exact shakes.deadline_eq
  · intro received
    exact (shakes.acknowledged received).append _
  · exact fun _ => admitted
  · intro ready
    refine ⟨admitted, VerackReceived.append (shakes.acknowledged ?_) _⟩
    by_contra waiting
    simp [waiting] at ready
  · intro announced time logged
    rcases List.mem_append.mp logged with earlier | new
    · have both := shakes.announced announced time earlier
      exact ⟨admitted, both.2.append _⟩
    · rcases List.mem_cons.mp new with received | rest
      · cases received
      · exact absurd rfl ((quiet _ rest).2 announced)
  · intro logged
    rcases List.mem_append.mp logged with earlier | new
    · exact absurd earlier (shakes.not_closed opened)
    · rcases List.mem_cons.mp new with received | rest
      · cases received
      · exact (quiet _ rest).elim

theorem complete (awaiting : session.state = .awaitingVerack)
    (inTime : now ≤ session.handshakeDeadline)
    (onlyReady : ∀ entry ∈ entries, ∃ metadata, entry = .emitted (.ready metadata) now) :
    Shakes codec start (log ++ .received .verack now :: entries) { session with state := .ready } := by
  have both : VersionReceived codec start (log ++ .received .verack now :: entries) ∧
      VerackReceived start (log ++ .received .verack now :: entries) :=
    ⟨(shakes.admitted awaiting).append _, now, by simp, shakes.deadline_eq ▸ inTime⟩
  have opened : session.state ≠ .closed := by simp [awaiting]
  constructor
  · exact shakes.config_eq
  · exact shakes.localNonce_eq
  · exact shakes.deadline_eq
  · exact fun _ => both.2
  · exact fun _ => both.1
  · exact fun _ => both
  · exact fun _ _ _ => both
  · intro logged
    rcases List.mem_append.mp logged with earlier | new
    · exact absurd earlier (shakes.not_closed opened)
    · rcases List.mem_cons.mp new with received | rest
      · cases received
      · rcases onlyReady _ rest with ⟨metadata, announced⟩
        cases announced

theorem step (step : Step codec session entries after) :
    Shakes codec start (log ++ entries) after := by
  cases step with
  | unchanged => simpa using shakes
  | quiet opened quiet =>
    apply shakes.keep rfl
    · exact fun metadata now logged => (quiet _ logged).2 metadata rfl
    · exact fun logged => quiet _ logged
  | acknowledged awaiting inTime => exact shakes.acknowledge awaiting inTime
  | admitted awaiting inTime admits quiet => exact shakes.version_admitted awaiting inTime admits quiet
  | completed awaiting inTime onlyReady => exact shakes.complete awaiting inTime onlyReady
  | requested ready vacant =>
    apply shakes.keep (handshake_arm session _ _)
    · simp
    · simp
  | answered request ready pending_eq inTime kind_eq answers =>
    apply shakes.keep (handshake_drop session _)
    · intro metadata now logged
      simp only [List.mem_cons, reduceCtorEq, Entry.emitted.injEq, List.not_mem_nil, or_false,
        false_or] at logged
      rw [← logged.1] at kind_eq
      cases kind_eq
    · simp
  | dropped entries kinds ready onlyReceived =>
    have same : (kinds.foldl PeerSession.drop session).handshake = session.handshake := by
      clear onlyReceived ready shakes
      induction kinds generalizing session with
      | nil => rfl
      | cons kind kinds ih => exact ih.trans (handshake_drop session kind)
    apply shakes.keep same
    · intro metadata now logged
      rcases List.mem_append.mp logged with received | given
      · rcases onlyReceived _ received with ⟨packet, time, received_eq⟩
        cases received_eq
      · simp at given
    · intro logged
      rcases List.mem_append.mp logged with received | given
      · rcases onlyReceived _ received with ⟨packet, time, received_eq⟩
        cases received_eq
      · simp at given
  | closed => exact shakes.close

end

end Shakes

variable {codec : WireCodec Frame WireError} {session : PeerSession}

/-- A response event answers the pending request of its kind in time. -/
theorem Step.of_response {after : PeerSession} (step : Step codec session entries after)
    {event : PeerEvent Frame} {kind : RequestKind}
    (emitted : .emitted event now ∈ entries) (kind_eq : event.kind? = some kind) :
    ∃ request deadline, session.pending kind = some (request, deadline) ∧
      request.Answers event ∧ now ≤ deadline := by
  cases step with
  | unchanged => simp at emitted
  | quiet opened quiet =>
    rw [(quiet _ emitted).1] at kind_eq
    cases kind_eq
  | acknowledged awaiting inTime =>
    simp only [List.mem_cons, reduceCtorEq, Entry.emitted.injEq, List.not_mem_nil, or_false,
      false_or] at emitted
    rw [emitted.1] at kind_eq
    cases kind_eq
  | admitted awaiting inTime admits quiet =>
    rcases List.mem_cons.mp emitted with received | rest
    · cases received
    · rw [(quiet _ rest).1] at kind_eq
      cases kind_eq
  | completed awaiting inTime onlyReady =>
    rcases List.mem_cons.mp emitted with received | rest
    · cases received
    · rcases onlyReady _ rest with ⟨metadata, announced⟩
      cases announced
      cases kind_eq
  | requested ready vacant => simp at emitted
  | answered request ready pending_eq inTime request_kind answers =>
    simp only [List.mem_cons, reduceCtorEq, Entry.emitted.injEq, List.not_mem_nil, or_false,
      false_or] at emitted
    rcases emitted with ⟨rfl, rfl⟩
    rcases Option.some.inj (kind_eq.symm.trans request_kind) with rfl
    exact ⟨request, _, pending_eq, answers, inTime⟩
  | dropped received kinds ready onlyReceived =>
    rcases List.mem_append.mp emitted with before | given
    · rcases onlyReceived _ before with ⟨packet, time, received_eq⟩
      cases received_eq
    · simp at given
  | closed => simp at emitted

/-- A closed session stays closed and emits nothing. -/
theorem Step.of_closed {after : PeerSession} (step : Step codec session entries after)
    (ended : session.state = .closed) :
    after.state = .closed ∧ ∀ event now, .emitted event now ∉ entries := by
  cases step with
  | unchanged => exact ⟨ended, by simp⟩
  | quiet opened quiet => exact absurd ended opened
  | acknowledged awaiting inTime => simp [ended] at awaiting
  | admitted awaiting inTime admits quiet => simp [ended] at awaiting
  | completed awaiting inTime onlyReady => simp [ended] at awaiting
  | requested ready vacant => simp [ended] at ready
  | answered request ready pending_eq inTime kind_eq answers => simp [ended] at ready
  | dropped received kinds ready onlyReceived => simp [ended] at ready
  | closed => exact ⟨rfl, by simp⟩

theorem silent_of_closed (ended : session.state = .closed) (calls : List (Call Frame)) :
    ∀ event now, .emitted event now ∉ session.log codec calls := by
  induction calls generalizing session with
  | nil => simp [log]
  | cons call calls ih =>
    intro event now logged
    have step : Step codec session (session.entries codec call) (session.apply codec call) :=
      step_apply session call
    have first := step.of_closed ended
    rw [log, logFrom_cons, List.mem_append] at logged
    rcases logged with emitted | rest
    · exact first.2 event now emitted
    · exact ih first.1 event now rest

variable (codec) in
theorem tracks_run {start : PeerSession} (vacant : ∀ kind, start.pending kind = none)
    (calls : List (Call Frame)) :
    Tracks (start.log codec calls) (runFrom (apply codec) start calls) := by
  have fresh : Tracks ([] : List (Entry Frame)) start := by
    constructor
    · intro kind
      rw [vacant]
      rfl
    · exact fun _ => Nat.le_refl 0
  have preserved : ∀ (log : List (Entry Frame)) (session : PeerSession) (call : Call Frame),
      Tracks log session → Tracks (log ++ session.entries codec call) (session.apply codec call) :=
    fun _ session call tracks => tracks.step (step_apply session call)
  exact logFrom_invariant fresh preserved calls

variable (codec) in
theorem shakes_run {start : PeerSession} (awaiting : start.state = .awaitingVersion)
    (unacknowledged : start.peerVerackReceived = false) (calls : List (Call Frame)) :
    Shakes codec start (start.log codec calls) (runFrom (apply codec) start calls) := by
  have fresh : Shakes codec start [] start := by
    constructor
    · rfl
    · rfl
    · rfl
    · simp [unacknowledged]
    · simp [awaiting]
    · simp [awaiting]
    · simp
    · simp
  have preserved : ∀ (log : List (Entry Frame)) (session : PeerSession) (call : Call Frame),
      Shakes codec start log session →
        Shakes codec start (log ++ session.entries codec call) (session.apply codec call) :=
    fun _ session call shakes => shakes.step (step_apply session call)
  exact logFrom_invariant fresh preserved calls

/-- A session as it is started. -/
theorem start_eq_ok {config : PeerConfig} {localVersion : VersionPacket}
    {frame : Frame} (started : start codec config localVersion now = .ok (session, frame)) :
    session.config = config ∧ session.state = .awaitingVersion ∧
      session.localNonce = localVersion.nonce ∧ session.peerVerackReceived = false ∧
      session.handshakeDeadline = now + config.handshakeTimeoutSeconds ∧
      ∀ kind, session.pending kind = none := by
  rcases of_bind_ok started with ⟨checked, valid, rest⟩
  rcases (of_guard_ok valid).2 with ⟨⟩
  rw [guard_eq_ok_iff] at rest
  rcases rest with ⟨-, rest⟩
  split at rest
  next => cases rest
  next deadline deadline_eq =>
    rcases of_bind_ok rest with ⟨framed, -, rest⟩
    cases rest
    refine ⟨rfl, rfl, rfl, rfl, (checkedAdd_eq_some_iff.mp deadline_eq).1, ?_⟩
    intro kind
    cases kind <;> rfl

end PeerSession

open PeerSession in
/-- The session gets ready through an admitted version and an acknowledgement in time, every
response answers the outstanding request of its kind in time, and a closed session is
silent. -/
theorem session_correlated {codec : WireCodec Frame WireError} {config : PeerConfig}
    {localVersion : VersionPacket} {now : Nat} {session : PeerSession} {frame : Frame}
    (started : PeerSession.start codec config localVersion now = .ok (session, frame))
    (calls : List (Call Frame)) :
    (session.config = config ∧ session.localNonce = localVersion.nonce ∧
      session.handshakeDeadline = now + config.handshakeTimeoutSeconds) ∧
    ((runFrom (apply codec) session calls).state = .ready ∨
        (∃ metadata time, .emitted (.ready metadata) time ∈ session.log codec calls) →
      VersionReceived codec session (session.log codec calls) ∧
        VerackReceived session (session.log codec calls)) ∧
    (∀ kind, responseCount kind (session.log codec calls) ≤
      requestCount kind (session.log codec calls)) ∧
    (∀ kind, (outstanding kind (session.log codec calls)).length ≤ 1) ∧
    (∀ call event time kind,
      .emitted event time ∈ (runFrom (apply codec) session calls).entries codec call →
        event.kind? = some kind →
          ∃ request sent, outstanding kind (session.log codec calls) = [(request, sent)] ∧
            request.Answers event ∧ time ≤ sent + config.requestTimeoutSeconds) ∧
    (.closed ∈ session.log codec calls → ∀ later event time,
      .emitted event time ∉ (runFrom (apply codec) session calls).log codec later) := by
  rcases start_eq_ok started with ⟨config_eq, awaiting, nonce_eq, unacknowledged, deadline_eq, vacant⟩
  have tracks := tracks_run codec vacant calls
  have shakes := shakes_run codec awaiting unacknowledged calls
  refine ⟨⟨config_eq, nonce_eq, deadline_eq⟩, ?_, ?_, tracks.length_outstanding_le, ?_, ?_⟩
  · rintro (ready | ⟨metadata, time, announced⟩)
    · exact shakes.ready ready
    · exact shakes.announced metadata time announced
  · exact fun kind => Nat.le_trans (Nat.le_add_right _ _) (tracks.counted kind)
  · intro call event time kind emitted kind_eq
    rcases (step_apply _ call).of_response emitted kind_eq with
      ⟨request, deadline, pending_eq, answers, inTime⟩
    rcases tracks.outstanding_eq_singleton pending_eq with ⟨sent, outstanding_eq, rfl⟩
    rw [shakes.config_eq, config_eq] at inTime
    exact ⟨request, sent, outstanding_eq, answers, inTime⟩
  · exact fun closed later => silent_of_closed (shakes.closed closed) later

/-! A peer that acknowledges before it sends its own version. -/

namespace ExampleSession

def codec : WireCodec Packet Unit where
  minProtocolVersion := 1
  protocolVersion := 3
  serviceNetwork := 1
  decodePacket := .ok
  fromPacket := .ok

def config : PeerConfig where
  requiredServices := 1
  handshakeTimeoutSeconds := 10
  requestTimeoutSeconds := 15
  maxClockSkewSeconds := 7200

def version (nonce : Nonce) : VersionPacket where
  version := 3
  services := 1
  time := 100
  nonce
  agent := "agent"
  height := 7

def localNonce : Nonce :=
  Vector.replicate 8 1

def peerNonce : Nonce :=
  Vector.replicate 8 2

def session : PeerSession where
  config
  state := .awaitingVersion
  localNonce
  handshakeDeadline := 110
  peerVerackReceived := false
  readyAfterResponse := false
  metadata := none
  pendingHeaders := none
  pendingProof := none
  pendingPing := none

def calls : List (Call Packet) :=
  [.handleFrame .verack 101, .handleFrame (.version (version peerNonce)) 102,
    .requestProof .zero .zero 103]

theorem session_correlated_early_verack :
    PeerSession.VerackReceived session (session.log codec calls) ∧
      ∃ request sent, outstanding .proof (session.log codec calls) = [(request, sent)] ∧
        request.Answers (.proof ⟨.zero, .zero, []⟩ : PeerEvent Packet) ∧ 118 ≤ sent + 15 := by
  have started : PeerSession.start codec config (version localNonce) 100 =
      .ok (session, .version (version localNonce)) := rfl
  have ready : (runFrom (PeerSession.apply codec) session calls).state = .ready := by decide
  have correlated := session_correlated started calls
  have emitted : .emitted (.proof ⟨.zero, .zero, []⟩) 118 ∈
      (runFrom (PeerSession.apply codec) session calls).entries codec
        (.handleFrame (.proof ⟨.zero, .zero, []⟩) 118) := by decide
  exact ⟨(correlated.2.1 (.inl ready)).2, correlated.2.2.2.2.1 _ _ _ .proof emitted rfl⟩

end ExampleSession

end HnsDaneEngine.LightPeer
