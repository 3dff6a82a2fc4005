import HnsDaneEngine.Browser.Resolver.Attempts

/-!
# Which error a failed resolution reports

The loops over servers and endpoints retain the strongest error, so that an
availability failure never replaces another failure.  In a run whose attempts keep
their failures the rule holds for the whole resolution.  A failure that is lost
at the nameservers of a child zone is enough to break it.
-/

namespace HnsDaneEngine.Browser.Resolver

open Control Wire

variable (question : DelegatedQuestion)

namespace AuthoritativeDnssecResolver

variable {σ : Type} (resolver : AuthoritativeDnssecResolver σ)

theorem cachedDohEndpoints_notesCleanly (relay : Bool) (delegation : HnsDelegation) :
    NotesCleanly relay (resolver.cachedDohEndpoints delegation) := by
  apply Effect.Logs.bind_frames Effect.Frames.get
  · exact fun _ => Clean.nil
  intro state
  split
  · exact Effect.Logs.pure Clean.nil
  apply Effect.Logs.bind (authoritativeDohEndpoints_notesCleanly relay delegation)
  · exact fun _ _ entriesClean => entriesClean
  intro endpoints before beforeClean
  apply NotesCleanly.append beforeClean
  apply NotesCleanly.of_quiet
  apply Effect.Frames.bind (fun _ => rfl)
  intro _
  apply Effect.Frames.pure

/-- The retained error is no stronger than a transport error.  Over a relay it is
not used. -/
def Transparent (relay : Bool) (lastError : Option ResolverError) : Prop :=
  relay = false → ∀ error, lastError = some error → resolutionErrorPriority error = 0

variable {lastError : Option ResolverError} {error : ResolverError} {relay : Bool}

theorem transparent_retain
    (transparent : Transparent relay (retainStrongestResolutionError lastError error)) :
    Transparent relay lastError ∧ (relay = false → resolutionErrorPriority error = 0) := by
  rcases retainStrongestResolutionError_priority lastError error with
    ⟨retained, retained_eq, error_le, last_le⟩
  have retained_zero (direct : relay = false) : resolutionErrorPriority retained = 0 :=
    transparent direct retained retained_eq
  constructor
  · intro direct last last_eq
    exact Nat.le_zero.mp (retained_zero direct ▸ last_le last last_eq)
  · intro direct
    exact Nat.le_zero.mp (retained_zero direct ▸ error_le)

/-- How a loop moves the retained error: it does not fail, and a transparent end
comes from a transparent start without failures in between. -/
def Tracks (relay : Bool) (lastError : Option ResolverError) :
    Except ResolverError Progress → List Attempt → Prop
  | .error _, _ => False
  | .ok (.answered _), _ => True
  | .ok (.failed next), entries =>
    Transparent relay next → Transparent relay lastError ∧ Clean relay entries

theorem Tracks.refl (relay : Bool) (lastError : Option ResolverError) :
    Tracks relay lastError (.ok (.failed lastError)) [] :=
  fun transparent => ⟨transparent, Clean.nil⟩

theorem Tracks.trans {middle : Option ResolverError} {result : Except ResolverError Progress}
    {before after : List Attempt} (first : Tracks relay lastError (.ok (.failed middle)) before)
    (second : Tracks relay middle result after) :
    Tracks relay lastError result (before ++ after) := by
  match result, second with
  | .ok (.answered _), _ => trivial
  | .ok (.failed next), second =>
    intro transparent
    rcases second transparent with ⟨middleTransparent, afterClean⟩
    rcases first middleTransparent with ⟨lastTransparent, beforeClean⟩
    exact ⟨lastTransparent, beforeClean.append afterClean⟩

abbrev Tracking (relay : Bool) (lastError : Option ResolverError) (action : Run σ Progress) :
    Prop :=
  Effect.Logs RunState.attempts (Tracks relay lastError) action

/-- A failed pass followed by the rest of its loop. -/
theorem Tracking.retain {before : List Attempt} {rest : Run σ Progress}
    (beforeClean : (relay = false → resolutionErrorPriority error = 0) → Clean relay before)
    (tracking : Tracking relay (retainStrongestResolutionError lastError error) rest) :
    Effect.Logs RunState.attempts (fun result after => Tracks relay lastError result (before ++ after))
      rest := by
  apply Effect.Logs.mono tracking
  intro result after tracks
  refine Tracks.trans ?_ tracks
  intro transparent
  rcases transparent_retain transparent with ⟨lastTransparent, weak⟩
  exact ⟨lastTransparent, beforeClean weak⟩

theorem tryDohEndpoints_tracking (lastError : Option ResolverError)
    (endpoints : List AuthoritativeDohEndpoint) :
    Tracking resolver.transport.isRecursiveRelay lastError
      (resolver.tryDohEndpoints question lastError endpoints) := by
  induction endpoints generalizing lastError with
  | nil => exact Effect.Logs.pure (Tracks.refl _ lastError)
  | cons endpoint rest ih =>
    apply Effect.Logs.bind_outcome (noted_doh_logs (resolveFromTarget_reporting _ _ question))
    intro result before passClean
    cases result with
    | ok answer => exact Effect.Logs.pure trivial
    | error error => exact Tracking.retain (passClean error rfl) (ih _)

theorem tryAuthoritativeDoh_tracking (lastError : Option ResolverError) :
    Tracking resolver.transport.isRecursiveRelay lastError
      (resolver.tryAuthoritativeDoh question lastError) := by
  apply Effect.Logs.bind_outcome (resolver.cachedDohEndpoints_notesCleanly _ question.delegation)
  intro result before beforeClean
  cases result with
  | ok endpoints =>
    apply Effect.Logs.mono (resolver.tryDohEndpoints_tracking question lastError endpoints)
    intro result after tracks
    exact Tracks.trans (fun transparent => ⟨transparent, beforeClean⟩) tracks
  | error error =>
    exact Tracking.retain (fun _ => beforeClean) (Effect.Logs.pure (Tracks.refl _ _))

theorem tryServers_tracking (direct : resolver.transport.isRecursiveRelay = false)
    (question : DelegatedQuestion) (lastError : Option ResolverError) (servers : List SocketAddr) :
    Tracking false lastError (resolver.tryServers question lastError servers) := by
  induction servers generalizing lastError with
  | nil => exact Effect.Logs.pure (Tracks.refl _ lastError)
  | cons server rest ih =>
    apply Effect.Logs.bind_outcome (resolveDelegatedFromServer_reporting server question direct)
    intro result before reports
    have passClean (error : ResolverError) (result_eq : result = .error error)
        (weak : false = false → resolutionErrorPriority error = 0) : Clean false before :=
      reports error result_eq (weak rfl).le
    split
    case h_1 answer => exact Effect.Logs.pure trivial
    case h_2 =>
      exact Tracking.retain (passClean _ rfl) (Effect.Logs.pure (Tracks.refl _ _))
    case h_3 error _ => exact Tracking.retain (passClean _ rfl) (ih _)

/-- A resolution that ends with a transport error started transparent and lost no
failure since. -/
def Ends (relay : Bool) (lastError : Option ResolverError)
    (result : Except ResolverError ResolutionAnswer) (entries : List Attempt) : Prop :=
  ∀ message, result = .error (.dnsTransport message) →
    Transparent relay lastError ∧ Clean relay entries

/-- A loop followed by what is done when it found no answer. -/
theorem Tracking.bind {loop : Run σ Progress} {next : Progress → Run σ ResolutionAnswer}
    (tracking : Tracking relay lastError loop)
    (answered : ∀ answer, next (.answered answer) = pure answer)
    (failed : ∀ middle, Effect.Logs RunState.attempts (Ends relay middle) (next (.failed middle))) :
    Effect.Logs RunState.attempts (Ends relay lastError) (loop >>= next) := by
  apply Effect.Logs.bind tracking
  · exact fun _ _ impossible => impossible.elim
  intro progress before tracks
  cases progress with
  | answered answer =>
    rw [answered]
    apply Effect.Logs.pure
    rintro message ⟨⟩
  | failed middle =>
    apply Effect.Logs.mono (failed middle)
    intro result after ends message result_eq
    rcases ends message result_eq with ⟨middleTransparent, afterClean⟩
    rcases tracks middleTransparent with ⟨lastTransparent, beforeClean⟩
    exact ⟨lastTransparent, beforeClean.append afterClean⟩

theorem dohPhase_tracking (wanted : Bool) (question : DelegatedQuestion)
    (lastError : Option ResolverError) :
    Tracking resolver.transport.isRecursiveRelay lastError
      (resolver.dohPhase wanted question lastError) := by
  unfold dohPhase
  split
  · exact resolver.tryAuthoritativeDoh_tracking question lastError
  · exact Effect.Logs.pure (Tracks.refl _ lastError)

theorem serverPhase_tracking (direct : resolver.transport.isRecursiveRelay = false)
    (question : DelegatedQuestion) (servers : List SocketAddr) (lastError : Option ResolverError) :
    Tracking false lastError (resolver.serverPhase question servers lastError) := by
  apply interception_bind_logs
  intro status
  split
  · apply Effect.Logs.pure
    intro transparent
    cases transparent rfl _ rfl
  · exact resolver.tryServers_tracking direct question lastError servers

theorem resolveAtServers_ends (direct : resolver.transport.isRecursiveRelay = false)
    (question : DelegatedQuestion) (servers : List SocketAddr) (lastError : Option ResolverError) :
    Effect.Logs RunState.attempts (Ends false lastError)
      (resolver.resolveAtServers question servers lastError) := by
  apply Tracking.bind (resolver.serverPhase_tracking direct question servers lastError)
  · exact fun _ => rfl
  intro lastError
  have dohTracking (wanted : Bool) :
      Tracking false lastError (resolver.dohPhase wanted question lastError) :=
    direct ▸ resolver.dohPhase_tracking wanted question lastError
  apply Tracking.bind (dohTracking _)
  · exact fun _ => rfl
  intro lastError
  apply interception_bind_logs
  intro _
  apply Effect.Logs.throw
  intro message result_eq
  refine ⟨?_, Clean.nil⟩
  rintro - error rfl
  exact (resolutionErrorPriority_eq_zero_iff error).mpr ⟨message, Except.error.inj result_eq⟩

theorem resolveAtRelay_reporting (servers : List SocketAddr) :
    Reporting resolver.transport.isRecursiveRelay (resolver.resolveAtRelay question servers) := by
  unfold resolveAtRelay
  split
  · exact Effect.Logs.throw (Reports.nil _)
  · apply noted_server_reporting
    apply resolveFromTarget_reporting

theorem resolveQuestion_ends (servers : List SocketAddr) :
    Effect.Logs RunState.attempts (Ends resolver.transport.isRecursiveRelay none)
      (resolver.resolveQuestion question servers) := by
  apply Tracking.bind (resolver.dohPhase_tracking _ question none)
  · exact fun _ => rfl
  intro lastError
  cases relay_eq : resolver.transport.isRecursiveRelay with
  | false => exact resolver.resolveAtServers_ends relay_eq question servers lastError
  | true =>
    apply Effect.Logs.mono (relay_eq ▸ resolver.resolveAtRelay_reporting question servers)
    intro result entries reports message result_eq
    refine ⟨?_, reports _ result_eq (Nat.zero_le _)⟩
    rintro ⟨⟩

theorem resolveDelegated_ends (request : ResolutionRequest) (delegation : HnsDelegation) :
    Effect.Logs RunState.attempts (Ends resolver.transport.isRecursiveRelay none)
      (resolver.resolveDelegated request delegation) := by
  have refused (error : ResolverError) (strong : 0 < resolutionErrorPriority error) :
      Effect.Logs RunState.attempts (Ends resolver.transport.isRecursiveRelay none)
        (Effect.throw error : Run σ ResolutionAnswer) := by
    apply Effect.Logs.throw
    rintro message ⟨⟩
    cases strong
  unfold resolveDelegated
  split
  · exact refused _ Nat.two_pos
  split
  · exact refused _ Nat.two_pos
  dsimp only
  split
  · exact refused _ Nat.two_pos
  · apply resolveQuestion_ends

variable (request : ResolutionRequest) (delegation : HnsDelegation) (transport : σ)
  (dnsQueryId : UInt16) (endpointCache : EndpointCacheKey → Option (List AuthoritativeDohEndpoint))

/-- A resolution that ends with a transport error has a validation failure
exactly when it has lost one. -/
theorem resolveDelegated_transport_iff {message : String} {final : RunState σ}
    (run_eq : resolver.resolveDelegated request delegation
      (.start transport dnsQueryId endpointCache) = (.error (.dnsTransport message), final)) :
    (∃ attempt ∈ final.attempts, attempt.FailsValidation) ↔
      ∃ attempt ∈ final.attempts, ¬ attempt.Keeps resolver.transport.isRecursiveRelay := by
  rcases resolver.resolveDelegated_ends request delegation
    (.start transport dnsQueryId endpointCache) with ⟨entries, entries_eq, ends⟩
  rw [run_eq] at entries_eq ends
  change final.attempts = [] ++ entries at entries_eq
  rw [List.nil_append] at entries_eq
  rw [entries_eq]
  constructor
  · rintro ⟨attempt, attemptMem, fails⟩
    by_contra keeps
    push Not at keeps
    exact (ends message rfl).2 keeps attempt attemptMem fails
  · rintro ⟨attempt, attemptMem, lost⟩
    exact ⟨attempt, attemptMem, Attempt.failsValidation_of_not_keeps lost⟩

/-- A validation failure is not reported as a transport error by a resolution
that loses none at a child zone, in discovery or before a relay. -/
theorem resolveDelegated_error_ne_dnsTransport {error : ResolverError} {final : RunState σ}
    (run_eq : resolver.resolveDelegated request delegation
      (.start transport dnsQueryId endpointCache) = (.error error, final))
    (keeps : ∀ attempt ∈ final.attempts, attempt.Keeps resolver.transport.isRecursiveRelay)
    (fails : ∃ attempt ∈ final.attempts, attempt.FailsValidation) :
    ∀ message, error ≠ .dnsTransport message := by
  rintro message rfl
  rcases (resolver.resolveDelegated_transport_iff request delegation transport dnsQueryId
    endpointCache run_eq).mp fails with ⟨attempt, attemptMem, lost⟩
  exact lost (keeps attempt attemptMem)

end AuthoritativeDnssecResolver

namespace ReferralRun

open ExampleKey

/-- `sub.example.` -/
def sub : DnsName :=
  ⟨[115, 117, 98] :: apex.labels, by decide⟩

/-- `a.example.`, the nameserver of the delegation. -/
def parentHost : DnsName :=
  ⟨[97] :: apex.labels, by decide⟩

/-- `b.example.` and `c.example.`, the nameservers of the child zone. -/
def childHosts : DnsName × DnsName :=
  (⟨[98] :: apex.labels, by decide⟩, ⟨[99] :: apex.labels, by decide⟩)

def nsRecord (owner nameserver : DnsName) : ResourceRecord :=
  ⟨owner, .ns, 1, 300, wireOf nameserver.labels⟩

def glue (nameserver : DnsName) (last : UInt8) : ResourceRecord :=
  ⟨nameserver, .a, 1, 300, [9, 9, 9, last]⟩

def signedDelegation : HnsDelegation :=
  ⟨"example".toList, apex, [ds, nsRecord apex parentHost, glue parentHost 1]⟩

def childDs : ResourceRecord :=
  ⟨sub, .ds, 1, 300, ds.rdata⟩

abbrev Outcome : Type :=
  Except ResolverError Octets

/-- The octets of a response without error. -/
def reply (id : UInt16) (question : DnsQuestion)
    (answers authorities additionals : List ResourceRecord) : Outcome :=
  let message : DnsMessage :=
    ⟨⟨id, ⟨0x8400⟩, 1, 0, 0, 0⟩, [question], answers, authorities, additionals⟩
  match message.encode 4096 with
  | .ok octets => .ok octets
  | .error _ => .error .invalidDnsResponse

def timeout : Outcome :=
  .error (.dnsTransport "timed out")

/-- The parent refers to the child and has its keys. -/
def parentReplies : List Outcome :=
  [reply 1 ⟨sub, .a, 1⟩ []
      [nsRecord sub childHosts.1, nsRecord sub childHosts.2, childDs,
        Signed.rrsig ⟨childDs, List.replicate 64 0⟩]
      [glue childHosts.1 2, glue childHosts.2 3],
    reply 2 ⟨apex, .dnskey, 1⟩ [dnskey, signedDnskey.rrsig] [] []]

/-- A child server that denies to have keys. -/
def keyless (id : UInt16) : Outcome :=
  reply id ⟨sub, .dnskey, 1⟩ [] [] []

/-- The next outcome of a script; after the last one exchanges time out. -/
def nextOutcome : List Outcome → Outcome × List Outcome
  | [] => (timeout, [])
  | outcome :: rest => (outcome, rest)

def scripted : DnsTransport (List Outcome) where
  endpointPolicy := .strict
  isRecursiveRelay := false
  exchangeUdp _ _ := nextOutcome
  exchangeTcp _ _ := nextOutcome
  exchangeDoh _ _ := nextOutcome
  probeDnsInterception state := (.notDetected, state)
  dnsInterceptionStatus state := (.notTested, state)

def resolver : AuthoritativeDnssecResolver (List Outcome) where
  transport := scripted
  verifier := (ExampleKey.verifier (fun _ => List.replicate 20 0) []).toVerifier
  authoritativeDohEnabled := false
  preferAuthoritativeDoh := false

/-- The address of `sub.example` is asked for. -/
def request : ResolutionRequest :=
  ⟨"sub.example".toList, 1⟩

/-- The run with the given outcomes of exchanges. -/
def run (script : List Outcome) : Except ResolverError ResolutionAnswer × RunState (List Outcome) :=
  resolver.resolveDelegated request signedDelegation (.start script 0 fun _ => none)

/-- The first child server fails validation and the second one is silent. -/
def lossyScript : List Outcome :=
  parentReplies ++ [keyless 3]

/-- The first child server is silent and the second one fails validation. -/
def keepingScript : List Outcome :=
  parentReplies ++ [timeout, timeout, keyless 4]

theorem run_keepingScript_attempts : (run keepingScript).2.attempts =
    [.children [.dnsTransport "timed out", .dnssecFailed], .server .dnssecFailed,
      .server (.dnsTransport "timed out")] := by
  decide +kernel

theorem run_lossyScript_attempts : (run lossyScript).2.attempts =
    [.children [.dnssecFailed, .dnsTransport "timed out"], .server (.dnsTransport "timed out")] := by
  decide +kernel

end ReferralRun

open ReferralRun in
theorem resolveDelegated_error_ne_dnsTransport_referral :
    (run keepingScript).1 = .error .dnssecFailed ∧
      ∀ message, ResolverError.dnssecFailed ≠ .dnsTransport message := by
  have result_eq : (run keepingScript).1 = .error .dnssecFailed := by decide +kernel
  have run_eq : run keepingScript = (.error .dnssecFailed, (run keepingScript).2) := by
    rw [← result_eq]
  refine ⟨result_eq, ?_⟩
  apply resolver.resolveDelegated_error_ne_dnsTransport request signedDelegation keepingScript 0
    (fun _ => none) run_eq
  · rw [run_keepingScript_attempts]
    simp [Attempt.Keeps]
  · rw [run_keepingScript_attempts]
    exact ⟨.server .dnssecFailed, by simp, .dnssecFailed, by simp [Attempt.errors], by decide⟩

open ReferralRun in
/-- The failed validation of one child server is reported as the timeout of the
next one. -/
theorem resolveDelegated_loses_dnssecFailed :
    (run lossyScript).1 = .error (.dnsTransport "timed out") ∧
      ∃ attempt ∈ (run lossyScript).2.attempts, attempt.FailsValidation := by
  constructor
  · decide +kernel
  · rw [run_lossyScript_attempts]
    exact ⟨_, List.mem_cons_self, .dnssecFailed, List.mem_cons_self, by decide⟩

end HnsDaneEngine.Browser.Resolver
