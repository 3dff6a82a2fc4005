import HnsDaneEngine.LightPeer.Step

/-!
# Requests along a run

The outstanding requests of a kind are read off the log: sent and neither answered nor
given up.  They are the pending requests of the session, and every response has had
its request.
-/

namespace HnsDaneEngine.LightPeer

variable {Frame WireError : Type}

namespace Entry

/-- The outstanding requests of a kind after an entry, each with the time it was sent. -/
def settle (kind : RequestKind) (outstanding : List (Request × Nat)) :
    Entry Frame → List (Request × Nat)
  | .received _ _ => outstanding
  | .requested request now =>
    if request.kind = kind then (request, now) :: outstanding else outstanding
  | .emitted event _ => if event.kind? = some kind then outstanding.tail else outstanding
  | .dropped given => if given = kind then outstanding.tail else outstanding
  | .closed => []

def isRequest (kind : RequestKind) : Entry Frame → Bool
  | .requested request _ => request.kind = kind
  | _ => false

def isResponse (kind : RequestKind) : Entry Frame → Bool
  | .emitted event _ => event.kind? = some kind
  | _ => false

/-- An entry that concerns no request. -/
structure Inert (entry : Entry Frame) : Prop where
  settle_eq : ∀ kind outstanding, entry.settle kind outstanding = outstanding
  noRequest : ∀ kind, entry.isRequest kind = false
  noResponse : ∀ kind, entry.isResponse kind = false

theorem inert_received (packet : Packet) (now : Nat) : Inert (.received packet now : Entry Frame) :=
  ⟨fun _ _ => rfl, fun _ => rfl, fun _ => rfl⟩

theorem inert_emitted {event : PeerEvent Frame} (unrelated : event.kind? = none) (now : Nat) :
    Inert (.emitted event now) :=
  ⟨fun _ _ => by simp [settle, unrelated], fun _ => rfl,
    fun _ => by simp [isResponse, unrelated]⟩

theorem IsQuiet.inert {entry : Entry Frame} (quiet : entry.IsQuiet) : entry.Inert := by
  cases entry with
  | received packet now => exact inert_received packet now
  | requested request now => exact quiet.elim
  | emitted event now => exact inert_emitted quiet.1 now
  | dropped kind => exact quiet.elim
  | closed => exact quiet.elim

end Entry

/-- The requests of a kind that are neither answered nor given up, with the time of each. -/
def outstanding (kind : RequestKind) (log : List (Entry Frame)) : List (Request × Nat) :=
  log.foldl (Entry.settle kind) []

def requestCount (kind : RequestKind) (log : List (Entry Frame)) : Nat :=
  log.countP (Entry.isRequest kind)

def responseCount (kind : RequestKind) (log : List (Entry Frame)) : Nat :=
  log.countP (Entry.isResponse kind)

variable (kind : RequestKind)

@[simp]
theorem outstanding_append (log entries : List (Entry Frame)) :
    outstanding kind (log ++ entries) = entries.foldl (Entry.settle kind) (outstanding kind log) :=
  List.foldl_append

@[simp]
theorem requestCount_append (log entries : List (Entry Frame)) :
    requestCount kind (log ++ entries) = requestCount kind log + requestCount kind entries :=
  List.countP_append

@[simp]
theorem responseCount_append (log entries : List (Entry Frame)) :
    responseCount kind (log ++ entries) = responseCount kind log + responseCount kind entries :=
  List.countP_append

theorem foldl_settle_of_inert {entries : List (Entry Frame)}
    (inert : ∀ entry ∈ entries, entry.Inert)
    (kind : RequestKind) (outstanding : List (Request × Nat)) :
    entries.foldl (Entry.settle kind) outstanding = outstanding := by
  induction entries generalizing outstanding with
  | nil => rfl
  | cons entry entries ih =>
    rw [List.forall_mem_cons] at inert
    rw [List.foldl_cons, inert.1.settle_eq, ih inert.2]

namespace PeerSession

/-- The pending requests of the session are the outstanding ones of the log, and every
response of the log has had its request. -/
structure Tracks (log : List (Entry Frame)) (session : PeerSession) : Prop where
  pending_eq : ∀ kind, (session.pending kind).toList = (outstanding kind log).map fun sent =>
    (sent.1, sent.2 + session.config.requestTimeoutSeconds)
  counted : ∀ kind, responseCount kind log + (outstanding kind log).length ≤ requestCount kind log

namespace Tracks

variable {log entries : List (Entry Frame)} {session after : PeerSession}

section

variable (tracks : Tracks log session)

include tracks

/-- Entries that concern no request, in a session whose requests stay. -/
theorem inert (inert : ∀ entry ∈ entries, entry.Inert)
    (pending_same : ∀ kind, after.pending kind = session.pending kind)
    (config_same : after.config = session.config) : Tracks (log ++ entries) after := by
  have none_sent : ∀ kind, requestCount kind entries = 0 := fun kind =>
    List.countP_eq_zero.mpr fun entry logged => by simp [(inert entry logged).noRequest]
  have none_answered : ∀ kind, responseCount kind entries = 0 := fun kind =>
    List.countP_eq_zero.mpr fun entry logged => by simp [(inert entry logged).noResponse]
  constructor
  · intro kind
    rw [outstanding_append, foldl_settle_of_inert inert, pending_same, config_same]
    exact tracks.pending_eq kind
  · intro kind
    rw [outstanding_append, foldl_settle_of_inert inert, requestCount_append,
      responseCount_append, none_sent, none_answered]
    exact tracks.counted kind

theorem outstanding_eq_nil {kind : RequestKind} (vacant : session.pending kind = none) :
    outstanding kind log = [] := by
  have pending_eq := tracks.pending_eq kind
  rw [vacant] at pending_eq
  exact List.map_eq_nil_iff.mp pending_eq.symm

/-- The outstanding request of the session, with the time at which it was sent. -/
theorem outstanding_eq_singleton {kind : RequestKind} {request : Request} {deadline : Nat}
    (pending_eq : session.pending kind = some (request, deadline)) :
    ∃ sent, outstanding kind log = [(request, sent)] ∧
      deadline = sent + session.config.requestTimeoutSeconds := by
  have tracked := tracks.pending_eq kind
  rw [pending_eq] at tracked
  rcases List.map_eq_singleton_iff.mp tracked.symm with ⟨⟨sentRequest, sent⟩, outstanding_eq, same⟩
  cases same
  exact ⟨sent, outstanding_eq, rfl⟩

theorem length_outstanding_le : (outstanding kind log).length ≤ 1 := by
  cases pending_eq : session.pending kind with
  | none => simp [tracks.outstanding_eq_nil pending_eq]
  | some pending =>
    rcases tracks.outstanding_eq_singleton pending_eq with ⟨sent, outstanding_eq, -⟩
    simp [outstanding_eq]

theorem tail_outstanding : (outstanding kind log).tail = [] := by
  have short := tracks.length_outstanding_le kind
  apply List.length_eq_zero_iff.mp
  rw [List.length_tail]
  exact Nat.sub_eq_zero_of_le short

/-- Entries that concern the requests of one kind. -/
theorem extend (given : RequestKind) (config_same : after.config = session.config)
    (elsewhere : ∀ kind, given ≠ kind → after.pending kind = session.pending kind ∧
      entries.foldl (Entry.settle kind) (outstanding kind log) = outstanding kind log ∧
      responseCount kind entries = 0) (pending_eq : (after.pending given).toList =
      (entries.foldl (Entry.settle given) (outstanding given log)).map fun sent =>
        (sent.1, sent.2 + session.config.requestTimeoutSeconds))
    (counted : responseCount given entries +
        (entries.foldl (Entry.settle given) (outstanding given log)).length ≤
      requestCount given entries + (outstanding given log).length) :
    Tracks (log ++ entries) after := by
  constructor
  · intro kind
    rw [outstanding_append, config_same]
    by_cases same : given = kind
    · subst same
      exact pending_eq
    · rcases elsewhere kind same with ⟨pending_same, settled, -⟩
      rw [pending_same, settled]
      exact tracks.pending_eq kind
  · intro kind
    have before := tracks.counted kind
    rw [outstanding_append, requestCount_append, responseCount_append]
    by_cases same : given = kind
    · subst same
      omega
    · rcases elsewhere kind same with ⟨-, settled, unanswered⟩
      rw [settled, unanswered]
      exact Nat.le_trans before (Nat.le_add_right _ _)

/-- Giving up a request keeps the count. -/
theorem drop (given : RequestKind) : Tracks (log ++ [.dropped given]) (session.drop given) := by
  apply tracks.extend given (congrArg (·.1) (handshake_drop session given))
  · intro kind other
    simp [pending_drop, Entry.settle, other, responseCount, Entry.isResponse]
  · simp [pending_drop, Entry.settle, tracks.tail_outstanding]
  · simp [Entry.settle, tracks.tail_outstanding, responseCount, Entry.isResponse]

theorem dropAll (kinds : List RequestKind) :
    Tracks (log ++ kinds.map .dropped) (kinds.foldl PeerSession.drop session) := by
  induction kinds generalizing log session with
  | nil => simpa using tracks
  | cons kind kinds ih =>
    have rest := ih (tracks.drop kind)
    rwa [List.append_assoc] at rest

theorem close : Tracks (log ++ [.closed]) session.close := by
  constructor
  · intro kind
    simp [Entry.settle]
  · intro kind
    have counted := tracks.counted kind
    rw [outstanding_append, requestCount_append, responseCount_append]
    exact Nat.le_trans (Nat.le_add_right _ _) counted

theorem request {request : Request} (now : Nat) (vacant : session.pending request.kind = none) :
    Tracks (log ++ [.requested request now])
      (session.arm (now + session.config.requestTimeoutSeconds) request) := by
  apply tracks.extend request.kind (congrArg (·.1) (handshake_arm session _ request))
  · intro kind other
    simp [pending_arm, Entry.settle, other, responseCount, Entry.isResponse]
  · simp [pending_arm, Entry.settle, tracks.outstanding_eq_nil vacant]
  · simp [Entry.settle, tracks.outstanding_eq_nil vacant, requestCount, responseCount,
      Entry.isRequest, Entry.isResponse]

/-- A response uses up the request it answers. -/
theorem answer {event : PeerEvent Frame} {deadline : Nat} {request : Request} (packet : Packet)
    (now : Nat) (pending_eq : session.pending request.kind = some (request, deadline))
    (kind_eq : event.kind? = some request.kind) :
    Tracks (log ++ [.received packet now, .emitted event now]) (session.drop request.kind) := by
  rcases tracks.outstanding_eq_singleton pending_eq with ⟨sent, outstanding_eq, -⟩
  apply tracks.extend request.kind (congrArg (·.1) (handshake_drop session request.kind))
  · intro kind other
    simp [pending_drop, Entry.settle, kind_eq, other, responseCount, Entry.isResponse]
  · simp [pending_drop, Entry.settle, kind_eq, tracks.tail_outstanding]
  · simp [Entry.settle, kind_eq, outstanding_eq, responseCount, Entry.isResponse]

theorem step {codec : WireCodec Frame WireError} (step : Step codec session entries after) :
    Tracks (log ++ entries) after := by
  cases step with
  | unchanged => simpa using tracks
  | quiet opened quiet =>
    exact tracks.inert (fun entry logged => (quiet entry logged).inert) (fun _ => rfl) rfl
  | acknowledged awaiting inTime =>
    refine tracks.inert ?_ (fun kind => by cases kind <;> rfl) rfl
    rw [List.forall_mem_cons, List.forall_mem_singleton]
    exact ⟨Entry.inert_received _ _, Entry.inert_emitted rfl _⟩
  | admitted awaiting inTime admits quiet =>
    refine tracks.inert ?_ (fun kind => by cases kind <;> rfl) rfl
    rw [List.forall_mem_cons]
    exact ⟨Entry.inert_received _ _, fun entry logged => (quiet entry logged).inert⟩
  | completed awaiting inTime onlyReady =>
    refine tracks.inert ?_ (fun kind => by cases kind <;> rfl) rfl
    rw [List.forall_mem_cons]
    refine ⟨Entry.inert_received _ _, fun entry logged => ?_⟩
    rcases onlyReady entry logged with ⟨metadata, rfl⟩
    exact Entry.inert_emitted rfl _
  | requested ready vacant => exact tracks.request _ vacant
  | answered request ready pending_eq inTime kind_eq answers =>
    exact tracks.answer _ _ pending_eq kind_eq
  | dropped entries kinds ready onlyReceived =>
    have received : Tracks (log ++ entries) session := by
      apply tracks.inert _ (fun _ => rfl) rfl
      intro entry logged
      rcases onlyReceived entry logged with ⟨packet, now, rfl⟩
      exact Entry.inert_received packet now
    rw [← List.append_assoc]
    exact received.dropAll kinds
  | closed => exact tracks.close

end

end Tracks

end PeerSession

end HnsDaneEngine.LightPeer
