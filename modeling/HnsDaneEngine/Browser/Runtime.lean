import HnsDaneEngine.Control.Except
import HnsDaneEngine.Control.Run
import HnsDaneEngine.Encoding.Octets
import HnsDaneEngine.Primitives.Checked

/-!
# The browser runtime and its admission stamps

The runtime owns three counters: the generation, which a policy change advances,
the event sequence, which every successful call advances, and the sequence number
of the last event that invalidates work.  A stamp names the generation and event
under which work was admitted.
-/

namespace HnsDaneEngine.Browser.Runtime

open Control Primitives

/-- Why a call fails. -/
inductive RuntimeError
  | zeroSession
  | invalidAuthorityTransition
  | counterExhausted
  | stopped
  | authorityNotReady

/-- A nonzero identity of 16 octets for one start of the runtime. -/
structure RuntimeSessionId where
  bytes : Octets
  length_eq : bytes.length = 16
  nonzero : bytes ≠ List.replicate 16 0
  deriving DecidableEq

/-- The check of `RuntimeSessionId::new` on an array of 16 octets. -/
def RuntimeSessionId.new (bytes : Octets) (length_eq : bytes.length = 16) :
    Except RuntimeError RuntimeSessionId :=
  if zero : bytes = List.replicate 16 0 then .error .zeroSession
  else .ok ⟨bytes, length_eq, zero⟩

/-- The stages of an authority. -/
inductive AuthorityState
  | uninitialized
  | localStateOpened
  | headerSyncing
  | headerCurrent
  | proofReady
  | resolutionTransportReady
  | dnssecVerified
  | daneOriginVerified
  | browserBridgeReady
  | active
  | degraded
  | revoked
  | stopped
  deriving DecidableEq

def runtimeSchemaVersion : Nat := 2

/-- What a runtime shows. -/
structure RuntimeSnapshot where
  schemaVersion : Nat
  session : RuntimeSessionId
  generation : Nat
  eventSequence : Nat
  authorityState : AuthorityState

/-- Identity of work begun in one runtime session. -/
structure RuntimeStamp where
  session : RuntimeSessionId
  generation : Nat
  eventSequence : Nat
  deriving DecidableEq

def authorityAdmitsWork : AuthorityState → Bool
  | .resolutionTransportReady => true
  | .dnssecVerified => true
  | .daneOriginVerified => true
  | .browserBridgeReady => true
  | .active => true
  | _ => false

/-- The states into which a transition invalidates earlier work. -/
def invalidatesWork : AuthorityState → Bool
  | .degraded => true
  | .revoked => true
  | .stopped => true
  | _ => false

/-- The edges of the authority state machine. -/
def validAuthorityTransition : AuthorityState → AuthorityState → Bool
  | .uninitialized, .localStateOpened => true
  | .localStateOpened, .headerSyncing => true
  | .degraded, .headerSyncing => true
  | .revoked, .headerSyncing => true
  | .headerSyncing, .headerCurrent => true
  | .headerCurrent, .proofReady => true
  | .proofReady, .resolutionTransportReady => true
  | .resolutionTransportReady, .dnssecVerified => true
  | .resolutionTransportReady, .browserBridgeReady => true
  | .dnssecVerified, .daneOriginVerified => true
  | .dnssecVerified, .browserBridgeReady => true
  | .daneOriginVerified, .browserBridgeReady => true
  | .browserBridgeReady, .active => true
  | .degraded, .stopped => true
  | .revoked, .stopped => true
  | .degraded, _ => false
  | .revoked, _ => false
  | .stopped, _ => false
  | _, .degraded => true
  | _, .revoked => true
  | _, .stopped => true
  | _, _ => false

/-- The counters and the authority state. -/
structure BrowserRuntime where
  session : RuntimeSessionId
  generation : Nat
  eventSequence : Nat
  invalidationSequence : Nat
  authorityState : AuthorityState

namespace BrowserRuntime

def new (session : RuntimeSessionId) : BrowserRuntime where
  session := session
  generation := 1
  eventSequence := 0
  invalidationSequence := 0
  authorityState := .uninitialized

def snapshot (runtime : BrowserRuntime) : RuntimeSnapshot where
  schemaVersion := runtimeSchemaVersion
  session := runtime.session
  generation := runtime.generation
  eventSequence := runtime.eventSequence
  authorityState := runtime.authorityState

def ensurePolicyChangeCapacity (runtime : BrowserRuntime) : Except RuntimeError Unit :=
  if runtime.generation = u64Max ∨ runtime.eventSequence = u64Max then
    .error .counterExhausted
  else .ok ()

/-- Revoke prior work after a committed policy change. -/
def policyChanged (runtime : BrowserRuntime) :
    Except RuntimeError RuntimeSnapshot × BrowserRuntime :=
  match runtime.ensurePolicyChangeCapacity with
  | .error error => (.error error, runtime)
  | .ok () =>
    let changed : BrowserRuntime :=
      { runtime with
        generation := runtime.generation + 1
        eventSequence := runtime.eventSequence + 1
        invalidationSequence := runtime.eventSequence + 1
        authorityState :=
          if runtime.authorityState = .stopped then runtime.authorityState else .revoked }
    (.ok changed.snapshot, changed)

/-- Advance the authority state machine. -/
def transition (runtime : BrowserRuntime) (next : AuthorityState) :
    Except RuntimeError RuntimeSnapshot × BrowserRuntime :=
  if !validAuthorityTransition runtime.authorityState next then
    (.error .invalidAuthorityTransition, runtime)
  else
    match checkedAdd runtime.eventSequence 1 with
    | none => (.error .counterExhausted, runtime)
    | some eventSequence =>
      let moved : BrowserRuntime :=
        { runtime with
          eventSequence
          invalidationSequence :=
            if invalidatesWork next then eventSequence else runtime.invalidationSequence
          authorityState := next }
      (.ok moved.snapshot, moved)

/-- Record an admitted operation and bind it to this session and generation. -/
def admitEvent (runtime : BrowserRuntime) : Except RuntimeError RuntimeStamp × BrowserRuntime :=
  if runtime.authorityState = .stopped then (.error .stopped, runtime)
  else if !authorityAdmitsWork runtime.authorityState then (.error .authorityNotReady, runtime)
  else
    match checkedAdd runtime.eventSequence 1 with
    | none => (.error .counterExhausted, runtime)
    | some eventSequence =>
      (.ok ⟨runtime.session, runtime.generation, eventSequence⟩,
        { runtime with eventSequence })

/-- Whether a stamp belongs to current, already admitted work. -/
def admits (runtime : BrowserRuntime) (stamp : RuntimeStamp) : Bool :=
  authorityAdmitsWork runtime.authorityState &&
    decide (stamp.session = runtime.session) &&
    decide (stamp.generation = runtime.generation) &&
    decide (runtime.invalidationSequence < stamp.eventSequence) &&
    decide (stamp.eventSequence ≤ runtime.eventSequence)

end BrowserRuntime

/-- The calls of a runtime. -/
inductive Call
  | transition (next : AuthorityState)
  | policyChanged
  | admitEvent

/-- What a call returns. -/
inductive Reply
  | refused (error : RuntimeError)
  | changed (snapshot : RuntimeSnapshot)
  | stamped (stamp : RuntimeStamp)

namespace BrowserRuntime

def reply (runtime : BrowserRuntime) : Call → Reply
  | .transition next =>
    match (runtime.transition next).1 with
    | .error error => .refused error
    | .ok snapshot => .changed snapshot
  | .policyChanged =>
    match runtime.policyChanged.1 with
    | .error error => .refused error
    | .ok snapshot => .changed snapshot
  | .admitEvent =>
    match runtime.admitEvent.1 with
    | .error error => .refused error
    | .ok stamp => .stamped stamp

/-- The runtime that a call leaves behind, whatever it returns. -/
def apply (runtime : BrowserRuntime) : Call → BrowserRuntime
  | .transition next => (runtime.transition next).2
  | .policyChanged => runtime.policyChanged.2
  | .admitEvent => runtime.admitEvent.2

/-- The runtime after a sequence of calls on a fresh one. -/
def run (session : RuntimeSessionId) (calls : List Call) : BrowserRuntime :=
  runFrom apply (new session) calls

/-- A policy change or a transition into Degraded, Revoked or Stopped that
succeeds. -/
def Invalidates (runtime : BrowserRuntime) (call : Call) : Prop :=
  (call = .policyChanged ∨ ∃ next, call = .transition next ∧ invalidatesWork next = true) ∧
    ∃ snapshot, runtime.reply call = .changed snapshot

/-- Everything that one call can do. -/
inductive Advances (runtime : BrowserRuntime) (call : Call) : BrowserRuntime → Prop
  | refused (error : RuntimeError) (reply_eq : runtime.reply call = .refused error) :
      Advances runtime call runtime
  | stamped (call_eq : call = .admitEvent)
      (reply_eq : runtime.reply call =
        .stamped ⟨runtime.session, runtime.generation, runtime.eventSequence + 1⟩) :
      Advances runtime call { runtime with eventSequence := runtime.eventSequence + 1 }
  | moved (next : AuthorityState) (valid : ¬ Invalidates runtime call)
      (snapshot : RuntimeSnapshot) (reply_eq : runtime.reply call = .changed snapshot) :
      Advances runtime call
        { runtime with eventSequence := runtime.eventSequence + 1, authorityState := next }
  | invalidated (generation : Nat) (state : AuthorityState)
      (invalid : Invalidates runtime call) :
      Advances runtime call
        { runtime with
          generation
          eventSequence := runtime.eventSequence + 1
          invalidationSequence := runtime.eventSequence + 1
          authorityState := state }

theorem apply_advances (runtime : BrowserRuntime) (call : Call) :
    Advances runtime call (runtime.apply call) := by
  cases call with
  | admitEvent =>
    by_cases stopped : runtime.authorityState = .stopped
    · simp only [apply, admitEvent, stopped, if_true]
      exact .refused .stopped (by simp [reply, admitEvent, stopped])
    by_cases ready : authorityAdmitsWork runtime.authorityState = true
    · cases advanced : checkedAdd runtime.eventSequence 1 with
      | none =>
        simp only [apply, admitEvent, stopped, ready, advanced]
        exact .refused .counterExhausted (by simp [reply, admitEvent, stopped, ready, advanced])
      | some eventSequence =>
        obtain ⟨rfl, -⟩ := checkedAdd_eq_some_iff.mp advanced
        simp only [apply, admitEvent, stopped, ready, advanced]
        exact .stamped rfl (by simp [reply, admitEvent, stopped, ready, advanced])
    · simp only [apply, admitEvent, stopped, ready]
      exact .refused .authorityNotReady (by simp [reply, admitEvent, stopped, ready])
  | policyChanged =>
    by_cases exhausted : runtime.generation = u64Max ∨ runtime.eventSequence = u64Max
    · simp only [apply, policyChanged, ensurePolicyChangeCapacity, exhausted, if_true]
      exact .refused .counterExhausted
        (by simp [reply, policyChanged, ensurePolicyChangeCapacity, exhausted])
    · simp only [apply, policyChanged, ensurePolicyChangeCapacity, exhausted, if_false]
      refine .invalidated _ _ ⟨.inl rfl, ?_⟩
      simp [reply, policyChanged, ensurePolicyChangeCapacity, exhausted]
  | transition next =>
    by_cases valid : validAuthorityTransition runtime.authorityState next = true
    · cases advanced : checkedAdd runtime.eventSequence 1 with
      | none =>
        simp only [apply, transition, valid, advanced]
        exact .refused .counterExhausted (by simp [reply, transition, valid, advanced])
      | some eventSequence =>
        obtain ⟨rfl, -⟩ := checkedAdd_eq_some_iff.mp advanced
        by_cases invalid : invalidatesWork next = true
        · simp only [apply, transition, valid, advanced, invalid]
          refine .invalidated _ _ ⟨.inr ⟨next, rfl, invalid⟩, ?_⟩
          simp [reply, transition, valid, advanced]
        simp only [apply, transition, valid, advanced, invalid]
        refine .moved next ?_ _ (by simp [reply, transition, valid, advanced]; rfl)
        rintro ⟨wrong | ⟨other, call_eq, other_invalid⟩, -⟩
        · cases wrong
        · cases call_eq
          exact invalid other_invalid
    · simp only [apply, transition, valid]
      exact .refused .invalidAuthorityTransition (by simp [reply, transition, valid])

variable {runtime : BrowserRuntime} {stamp : RuntimeStamp} {earlier : List Call}

/-- A refused call changes nothing. -/
theorem apply_of_refused {call : Call} {error : RuntimeError}
    (refused : runtime.reply call = .refused error) : runtime.apply call = runtime := by
  have advances := apply_advances runtime call
  generalize runtime.apply call = after at advances ⊢
  cases advances with
  | refused => rfl
  | stamped _ reply_eq => rw [reply_eq] at refused; cases refused
  | moved _ _ _ reply_eq => rw [reply_eq] at refused; cases refused
  | invalidated _ _ invalid =>
    obtain ⟨-, snapshot, reply_eq⟩ := invalid
    rw [reply_eq] at refused
    cases refused

/-- The last invalidating event is one of the events so far. -/
theorem run_invalidationSequence_le (session : RuntimeSessionId) (calls : List Call) :
    (run session calls).invalidationSequence ≤ (run session calls).eventSequence := by
  have preserved : ∀ (runtime : BrowserRuntime) (call : Call),
      runtime.invalidationSequence ≤ runtime.eventSequence →
      (runtime.apply call).invalidationSequence ≤ (runtime.apply call).eventSequence := by
    intro runtime call bounded
    have advances := apply_advances runtime call
    generalize runtime.apply call = after at advances ⊢
    cases advances with
    | refused => exact bounded
    | stamped => exact Nat.le_succ_of_le bounded
    | moved => exact Nat.le_succ_of_le bounded
    | invalidated => exact Nat.le_refl _
  exact runFrom_invariant preserved (Nat.le_refl 0) calls

/-- The stamp that the call after `earlier` returns. -/
def Issues (session : RuntimeSessionId) (earlier : List Call) (stamp : RuntimeStamp) : Prop :=
  (run session earlier).reply .admitEvent = .stamped stamp

/-- One of the calls that follow the stamp's own invalidates work. -/
def InvalidatedSince (session : RuntimeSessionId) (earlier later : List Call) : Prop :=
  ∃ middle call rest, later = middle ++ call :: rest ∧
    Invalidates (run session (earlier ++ .admitEvent :: middle)) call

theorem invalidatedSince_concat_iff (session : RuntimeSessionId) (earlier later : List Call)
    (call : Call) :
    InvalidatedSince session earlier (later ++ [call]) ↔ InvalidatedSince session earlier later ∨
        Invalidates (run session (earlier ++ .admitEvent :: later)) call := by
  constructor
  · rintro ⟨middle, other, rest, later_eq, invalid⟩
    rcases List.eq_nil_or_concat rest with rfl | ⟨rest, last, rfl⟩
    · obtain ⟨rfl, call_eq⟩ := List.append_inj' later_eq rfl
      obtain rfl := List.singleton_inj.mp call_eq
      exact .inr invalid
    · rw [List.concat_eq_append, ← List.cons_append, ← List.append_assoc] at later_eq
      obtain ⟨rfl, -⟩ := List.append_inj' later_eq rfl
      exact .inl ⟨middle, other, rest, rfl, invalid⟩
  · rintro (⟨middle, other, rest, rfl, invalid⟩ | invalid)
    · exact ⟨middle, other, rest ++ [call], by simp, invalid⟩
    · exact ⟨later, call, [], rfl, invalid⟩

/-- How a runtime stands to a stamp that it issued: no later event has overtaken the
stamp exactly as long as no call has invalidated it. -/
structure Tracks (runtime : BrowserRuntime) (stamp : RuntimeStamp) (invalidated : Prop) :
    Prop where
  session_eq : stamp.session = runtime.session
  sequence_le : stamp.eventSequence ≤ runtime.eventSequence
  overtaken : invalidated → stamp.eventSequence ≤ runtime.invalidationSequence
  current : ¬ invalidated →
    stamp.generation = runtime.generation ∧ runtime.invalidationSequence < stamp.eventSequence

theorem Tracks.admits_iff {invalidated : Prop} (tracks : Tracks runtime stamp invalidated) :
    runtime.admits stamp = true ↔
      authorityAdmitsWork runtime.authorityState = true ∧ ¬ invalidated := by
  simp only [admits, Bool.and_eq_true, decide_eq_true_eq]
  constructor
  · rintro ⟨⟨⟨⟨ready, -⟩, -⟩, newer⟩, -⟩
    exact ⟨ready, fun invalidated => Nat.not_lt.mpr (tracks.overtaken invalidated) newer⟩
  · rintro ⟨ready, valid⟩
    obtain ⟨generation_eq, newer⟩ := tracks.current valid
    exact ⟨⟨⟨⟨ready, tracks.session_eq⟩, generation_eq⟩, newer⟩, tracks.sequence_le⟩

/-- One call keeps track of the stamp. -/
theorem Tracks.apply {invalidated : Prop} (tracks : Tracks runtime stamp invalidated)
    (call : Call) :
    Tracks (runtime.apply call) stamp (invalidated ∨ Invalidates runtime call) := by
  have advances := apply_advances runtime call
  generalize runtime.apply call = after at advances ⊢
  have later : stamp.eventSequence ≤ runtime.eventSequence + 1 :=
    Nat.le_succ_of_le tracks.sequence_le
  have quiet (valid : ¬ Invalidates runtime call) :
      invalidated ∨ Invalidates runtime call ↔ invalidated := by
    simp [valid]
  cases advances with
  | refused error reply_eq =>
    have valid : ¬ Invalidates runtime call := by
      rintro ⟨-, snapshot, changed⟩
      rw [reply_eq] at changed
      cases changed
    rwa [propext (quiet valid)]
  | stamped call_eq reply_eq =>
    have valid : ¬ Invalidates runtime call := by
      rintro ⟨-, snapshot, changed⟩
      rw [reply_eq] at changed
      cases changed
    rw [propext (quiet valid)]
    exact ⟨tracks.session_eq, later, tracks.overtaken, tracks.current⟩
  | moved next valid snapshot reply_eq =>
    rw [propext (quiet valid)]
    exact ⟨tracks.session_eq, later, tracks.overtaken, tracks.current⟩
  | invalidated generation state invalid =>
    exact ⟨tracks.session_eq, later, fun _ => later, fun valid => absurd (.inr invalid) valid⟩

variable {session : RuntimeSessionId}

theorem issues_eq (issued : Issues session earlier stamp) :
    stamp = ⟨(run session earlier).session, (run session earlier).generation,
        (run session earlier).eventSequence + 1⟩ ∧
      run session (earlier ++ [.admitEvent]) =
        { run session earlier with eventSequence := (run session earlier).eventSequence + 1 } := by
  unfold Issues at issued
  have step_eq : run session (earlier ++ [.admitEvent]) = (run session earlier).apply .admitEvent :=
    runFrom_concat apply _ earlier .admitEvent
  have advances := apply_advances (run session earlier) .admitEvent
  rw [step_eq]
  generalize (run session earlier).apply .admitEvent = after at advances ⊢
  cases advances with
  | refused error reply_eq => rw [reply_eq] at issued; cases issued
  | stamped call_eq reply_eq =>
    rw [reply_eq] at issued
    exact ⟨(Reply.stamped.inj issued).symm, rfl⟩
  | moved next valid snapshot reply_eq => rw [reply_eq] at issued; cases issued
  | invalidated generation state invalid =>
    obtain ⟨-, snapshot, reply_eq⟩ := invalid
    rw [reply_eq] at issued
    cases issued

/-- Along every run, the runtime keeps track of every stamp that it issued. -/
theorem run_tracks (issued : Issues session earlier stamp) (later : List Call) :
    Tracks (run session (earlier ++ .admitEvent :: later)) stamp
      (InvalidatedSince session earlier later) := by
  obtain ⟨stamp_eq, issue_eq⟩ := issues_eq issued
  induction later using List.reverseRecOn with
  | nil =>
    have bounded := run_invalidationSequence_le session earlier
    have fresh : ¬ InvalidatedSince session earlier [] := by
      rintro ⟨middle, call, rest, empty, -⟩
      simp at empty
    rw [issue_eq, stamp_eq]
    exact ⟨rfl, Nat.le_refl _, fun invalid => absurd invalid fresh,
      fun _ => ⟨rfl, Nat.lt_succ_of_le bounded⟩⟩
  | append_singleton later call ih =>
    have step_eq : run session (earlier ++ .admitEvent :: (later ++ [call])) =
        (run session (earlier ++ .admitEvent :: later)).apply call := by
      rw [← List.cons_append, ← List.append_assoc]
      exact runFrom_concat apply _ _ call
    rw [step_eq, propext (invalidatedSince_concat_iff session earlier later call)]
    exact ih.apply call

/-- A later stamp has a later event. -/
theorem eventSequence_lt_of_issues {later : List Call} {first second : RuntimeStamp}
    (firstIssued : Issues session earlier first)
    (secondIssued : Issues session (earlier ++ .admitEvent :: later) second) :
    first.eventSequence < second.eventSequence := by
  have reached := (run_tracks firstIssued later).sequence_le
  rw [(issues_eq secondIssued).1]
  exact Nat.lt_succ_of_le reached

/-- Stamp admission.  At every point of every run, a stamp issued earlier is admitted
exactly when the authority state admits work and no call since has invalidated it;
once invalidated it is never admitted again; no other stamp is equal to it; and a
refused call changes nothing. -/
theorem stamp_admission (session : RuntimeSessionId) (calls : List Call) :
    (∀ earlier later stamp, calls = earlier ++ .admitEvent :: later →
      Issues session earlier stamp →
      ((run session calls).admits stamp = true ↔
        authorityAdmitsWork (run session calls).authorityState = true ∧
          ¬ InvalidatedSince session earlier later) ∧
      (InvalidatedSince session earlier later →
        ∀ further, (run session (calls ++ further)).admits stamp = false) ∧
      ∀ other, Issues session calls other → stamp ≠ other) ∧
    ∀ call error, (run session calls).reply call = .refused error →
      (run session calls).apply call = run session calls := by
  refine ⟨?_, fun call error refused => apply_of_refused refused⟩
  rintro earlier later stamp rfl issued
  refine ⟨(run_tracks issued later).admits_iff, ?_, ?_⟩
  · rintro ⟨middle, call, rest, rfl, invalid⟩ further
    have invalidated : InvalidatedSince session earlier (middle ++ call :: rest ++ further) :=
      ⟨middle, call, rest ++ further, by simp, invalid⟩
    have admitted_iff := (run_tracks issued (middle ++ call :: rest ++ further)).admits_iff
    rw [← Bool.not_eq_true, List.append_assoc, List.cons_append, admitted_iff]
    exact fun admitted => admitted.2 invalidated
  · rintro other otherIssued rfl
    exact Nat.lt_irrefl _ (eventSequence_lt_of_issues issued otherIssued)

end BrowserRuntime

/-! A session that is ready, admits one event, and is degraded. -/

namespace ExampleSession

open BrowserRuntime

def session : RuntimeSessionId :=
  ⟨List.replicate 16 7, by simp, by decide⟩

def readying : List Call :=
  [.transition .localStateOpened, .transition .headerSyncing, .transition .headerCurrent,
    .transition .proofReady, .transition .resolutionTransportReady]

theorem stamp_admission_degraded :
    Issues session readying ⟨session, 1, 6⟩ ∧
      (run session (readying ++ [.admitEvent, .transition .degraded])).admits
        ⟨session, 1, 6⟩ = false := by
  have issued : Issues session readying ⟨session, 1, 6⟩ := rfl
  have invalidated : InvalidatedSince session readying [.transition .degraded] :=
    ⟨[], .transition .degraded, [], rfl, .inr ⟨.degraded, rfl, rfl⟩, _, rfl⟩
  obtain ⟨stamps, -⟩ :=
    stamp_admission session (readying ++ [.admitEvent, .transition .degraded])
  exact ⟨issued, (stamps readying [.transition .degraded] _ rfl issued).2.1 invalidated []⟩

end ExampleSession

end HnsDaneEngine.Browser.Runtime
