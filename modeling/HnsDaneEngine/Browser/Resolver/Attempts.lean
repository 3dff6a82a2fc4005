import HnsDaneEngine.Browser.Resolver.Delegated

/-!
# Failed attempts of a resolution

A validation failure is any error that is no matter of availability.  An attempt
keeps its failures when they reach the result of the pass they belong to: the
loop over the nameservers of a child zone keeps the last error only, the
discovery of endpoints passes over failed resolutions, and a relay drops the
errors of the endpoints before it.  The computations of one pass are followed
here from the queries, which make no attempts of their own, up to a pass over a
server and to the discovery of endpoints.
-/

namespace HnsDaneEngine.Browser.Resolver

open Control Wire

/-- Every error but the two that report an unavailable server. -/
def IsValidationFailure (error : ResolverError) : Prop :=
  (∀ message, error ≠ .dnsTransport message) ∧ error ≠ .port53InterceptionDetected

theorem isValidationFailure_iff (error : ResolverError) :
    IsValidationFailure error ↔ 1 < resolutionErrorPriority error := by
  cases error <;> simp [IsValidationFailure, resolutionErrorPriority]

instance (error : ResolverError) : Decidable (IsValidationFailure error) :=
  decidable_of_iff _ (isValidationFailure_iff error).symm

theorem resolutionErrorPriority_eq_zero_iff (error : ResolverError) :
    resolutionErrorPriority error = 0 ↔ ∃ message, error = .dnsTransport message := by
  cases error <;> simp [resolutionErrorPriority]

/-- The retained error is at least as strong as both. -/
theorem retainStrongestResolutionError_priority (current : Option ResolverError)
    (candidate : ResolverError) :
    ∃ retained, retainStrongestResolutionError current candidate = some retained ∧
      resolutionErrorPriority candidate ≤ resolutionErrorPriority retained ∧
      ∀ error, current = some error →
        resolutionErrorPriority error ≤ resolutionErrorPriority retained := by
  unfold retainStrongestResolutionError
  cases current with
  | none => exact ⟨candidate, by simp, le_rfl, by simp⟩
  | some error =>
    by_cases weaker : resolutionErrorPriority error ≤ resolutionErrorPriority candidate
    · refine ⟨candidate, by simp [weaker], le_rfl, ?_⟩
      rintro _ ⟨⟩
      exact weaker
    · refine ⟨error, by simp [weaker], by omega, ?_⟩
      rintro _ ⟨⟩
      exact le_rfl

theorem strongestResolutionError_priority (first second : ResolverError) :
    resolutionErrorPriority first ≤
      resolutionErrorPriority (strongestResolutionError first second) := by
  rcases retainStrongestResolutionError_priority (some first) second with
    ⟨retained, retained_eq, -, firstLe⟩
  rw [strongestResolutionError, retained_eq]
  exact firstLe first rfl

namespace Attempt

/-- The errors of an attempt. -/
def errors : Attempt → List ResolverError
  | .server error => [error]
  | .doh error => [error]
  | .children errors => errors
  | .discovery attempt => attempt.errors

/-- Some error of the attempt is a validation failure. -/
def FailsValidation (attempt : Attempt) : Prop :=
  ∃ error ∈ attempt.errors, IsValidationFailure error

/-- The attempt loses no validation failure. -/
def Keeps (relay : Bool) : Attempt → Prop
  | .server _ => True
  | .doh error => relay = true → ¬ IsValidationFailure error
  | .children errors =>
    (∃ error ∈ errors, IsValidationFailure error) →
      ∀ message, errors.getLast? ≠ some (.dnsTransport message)
  | .discovery attempt => ¬ attempt.FailsValidation

end Attempt

variable {attempt : Attempt}

/-- A lost failure is a failure. -/
theorem Attempt.failsValidation_of_not_keeps {relay : Bool}
    (lost : ¬ attempt.Keeps relay) : attempt.FailsValidation := by
  cases attempt with
  | server error => exact absurd trivial lost
  | doh error =>
    rw [Keeps, Classical.not_imp, not_not] at lost
    exact ⟨error, List.mem_singleton_self error, lost.2⟩
  | children errors =>
    rw [Keeps, Classical.not_imp] at lost
    exact lost.1
  | discovery attempt => exact not_not.mp lost

/-- When the attempts lose no validation failure, they have none. -/
def Clean (relay : Bool) (attempts : List Attempt) : Prop :=
  (∀ attempt ∈ attempts, attempt.Keeps relay) → ∀ attempt ∈ attempts, ¬ attempt.FailsValidation

namespace Clean

variable {relay : Bool} {before after : List Attempt}

theorem nil : Clean relay [] := by
  intro _ attempt attemptMem
  cases attemptMem

theorem append (beforeClean : Clean relay before) (afterClean : Clean relay after) :
    Clean relay (before ++ after) := by
  intro keeps attempt attemptMem
  rw [List.forall_mem_append] at keeps
  rcases List.mem_append.mp attemptMem with inBefore | inAfter
  · exact beforeClean keeps.1 attempt inBefore
  · exact afterClean keeps.2 attempt inAfter

theorem singleton (clean : attempt.Keeps relay → ¬ attempt.FailsValidation) :
    Clean relay [attempt] := by
  intro keeps other otherMem
  rw [List.mem_singleton] at otherMem
  subst otherMem
  exact clean (keeps other (List.mem_singleton_self other))

/-- A weak error of a pass adds no failure. -/
theorem append_weak {error : ResolverError} (beforeClean : Clean relay before)
    (errors_eq : attempt.errors = [error]) (weak : resolutionErrorPriority error ≤ relay.toNat) :
    Clean relay (before ++ [attempt]) := by
  apply append beforeClean
  apply singleton
  rintro - ⟨only, onlyMem, fails⟩
  rw [errors_eq, List.mem_singleton] at onlyMem
  rw [onlyMem, isValidationFailure_iff] at fails
  exact absurd (weak.trans (Bool.toNat_le relay)) (Nat.not_le.mpr fails)

theorem discovery (attempts : List Attempt) : Clean relay (attempts.map .discovery) := by
  intro keeps attempt attemptMem
  rcases List.mem_map.mp attemptMem with ⟨inner, innerMem, rfl⟩
  exact keeps (.discovery inner) attemptMem

end Clean

section

variable {σ α : Type} {transport : DnsTransport σ}

/-- The computation notes no attempt. -/
abbrev Quiet (action : Run σ α) : Prop :=
  Effect.Frames RunState.attempts action

theorem exchange_quiet (action : σ → Except ResolverError α × σ) : Quiet (exchange action) :=
  fun _ => rfl

theorem nextDnsQueryId_quiet : Quiet (nextDnsQueryId : Run σ UInt16) :=
  fun _ => rfl

variable (server : SocketAddr) (id : UInt16) (qname : DnsName) (qtype : RecordType)
  (query : Octets)

theorem dnsQueryTcp_quiet : Quiet (dnsQueryTcp transport server id qname qtype query) := by
  apply Effect.Frames.bind (exchange_quiet _)
  intro response
  apply Effect.Frames.ofExcept

theorem dnsQueryRelay_quiet : Quiet (dnsQueryRelay transport server id qname qtype query) := by
  apply Effect.Frames.bind (exchange_quiet _)
  intro response
  apply Effect.Frames.ofExcept

theorem dnsQueryHttps_quiet (endpoint : AuthoritativeDohEndpoint) :
    Quiet (dnsQueryHttps transport endpoint qname qtype query) := by
  apply Effect.Frames.ite (Effect.Frames.throw _)
  apply Effect.Frames.bind (exchange_quiet _)
  intro response
  apply Effect.Frames.ofExcept

theorem retryTcp_quiet (error : ResolverError) :
    Quiet (retryTcp transport server id qname qtype query error) := by
  apply Effect.Frames.ite
  · apply Effect.Frames.bind (Effect.Frames.outcome (dnsQueryTcp_quiet server id qname qtype query))
    intro result
    cases result with
    | ok response => apply Effect.Frames.pure
    | error tcpError => apply Effect.Frames.throw
  · apply Effect.Frames.throw

theorem dnsQueryUdp_quiet : Quiet (dnsQueryUdp transport server id qname qtype query) := by
  apply Effect.Frames.bind (Effect.Frames.outcome (exchange_quiet _))
  intro result
  cases result with
  | error error => exact retryTcp_quiet server id qname qtype query error
  | ok udpResponse =>
    dsimp only
    split
    · exact retryTcp_quiet server id qname qtype query _
    · apply Effect.Frames.ite (dnsQueryTcp_quiet server id qname qtype query)
      apply Effect.Frames.pure

theorem dnsQueryTarget_quiet (target : DnsQueryTarget) :
    Quiet (dnsQueryTarget transport target qname qtype) := by
  apply Effect.Frames.bind (Effect.Frames.ofExcept _)
  intro _
  apply Effect.Frames.bind nextDnsQueryId_quiet
  intro id
  apply Effect.Frames.bind (Effect.Frames.ofExcept _)
  intro query
  cases target with
  | server server =>
    exact Effect.Frames.ite (dnsQueryRelay_quiet server id qname qtype query)
      (dnsQueryUdp_quiet server id qname qtype query)
  | serverTcp server =>
    exact Effect.Frames.ite (dnsQueryRelay_quiet server id qname qtype query)
      (dnsQueryTcp_quiet server id qname qtype query)
  | doh endpoint => exact dnsQueryHttps_quiet qname qtype query endpoint

/-- Following aliases notes nothing when its queries do not. -/
theorem followAnswers_quiet {rules : AnswerRules σ}
    (query_quiet : ∀ owner, Quiet (rules.query owner))
    (rounds : Nat) (response : DnsMessage) (owner : DnsName) (cnameRecords : List ResourceRecord) :
    Quiet (followAnswers rules rounds response owner cnameRecords) := by
  induction rounds generalizing response owner cnameRecords with
  | zero => apply Effect.Frames.throw
  | succ rounds ih =>
    rw [followAnswers]
    apply Effect.Frames.ite (Effect.Frames.throw _)
    apply Effect.Frames.ite
    · apply Effect.Frames.bind (Effect.Frames.ofExcept _)
      intro _
      apply Effect.Frames.pure
    apply Effect.Frames.ite
    · apply Effect.Frames.bind (Effect.Frames.ofExcept _)
      intro _
      apply Effect.Frames.bind (Effect.Frames.ofExcept _)
      intro nextOwner
      exact Effect.Frames.ite (Effect.Frames.throw _) (ih _ _ _)
    apply Effect.Frames.ite
    · apply Effect.Frames.bind (query_quiet owner)
      intro response
      exact ih response owner cnameRecords
    exact Effect.Frames.ite (Effect.Frames.ofExcept _) (Effect.Frames.ofExcept _)

end

section

variable {σ α : Type} {transport : DnsTransport σ} {verifier : DelegatedDnssecVerifier}

/-- An availability error hides no validation failure.  Over a relay, where a
referral is followed at one server, the same goes for a detected interception. -/
def Reports (relay : Bool) (result : Except ResolverError α) (entries : List Attempt) : Prop :=
  ∀ error, result = .error error → resolutionErrorPriority error ≤ relay.toNat → Clean relay entries

/-- Every run of the computation reports its failures. -/
abbrev Reporting (relay : Bool) (action : Run σ α) : Prop :=
  Effect.Logs RunState.attempts (Reports relay) action

variable {relay : Bool} {action : Run σ α} {post : Except ResolverError α → List Attempt → Prop}

theorem Reports.nil (result : Except ResolverError α) : Reports relay result [] :=
  fun _ _ _ => Clean.nil

theorem Reports.of_strong {error : ResolverError} {entries : List Attempt}
    (strong : 0 < resolutionErrorPriority error) :
    Reports false (.error error : Except ResolverError α) entries := by
  rintro _ ⟨⟩ weak
  exact absurd weak (Nat.not_le.mpr strong)

theorem Reporting.of_quiet (quiet : Quiet action) : Reporting relay action :=
  Effect.Logs.of_frames quiet Reports.nil

/-- A noted attempt comes first in the log of what follows it. -/
theorem note_bind_logs {next : Run σ α}
    (continued : Effect.Logs RunState.attempts (fun result after => post result (attempt :: after))
      next) :
    Effect.Logs RunState.attempts post (note attempt >>= fun _ => next) := by
  intro state
  rcases continued { state with attempts := state.attempts ++ [attempt] } with
    ⟨after, after_eq, holds⟩
  refine ⟨attempt :: after, ?_, holds⟩
  rw [List.append_cons]
  exact after_eq

/-- Asking about interception never fails. -/
theorem interception_bind_logs {action : σ → DnsInterceptionStatus × σ}
    {next : DnsInterceptionStatus → Run σ α}
    (continued : ∀ status, Effect.Logs RunState.attempts post (next status)) :
    Effect.Logs RunState.attempts post (interception action >>= next) := by
  intro state
  exact continued (action state.transport).1
    { state with transport := (action state.transport).2 }

theorem resolveSecureChildFromServer_quiet (server : SocketAddr)
    (input : ChildReferralResolutionInput) :
    Quiet (resolveSecureChildFromServer transport verifier server input) := by
  apply Effect.Frames.bind (dnsQueryTarget_quiet _ _ _)
  intro dnskeyResponse
  apply Effect.Frames.ite (Effect.Frames.throw _)
  apply Effect.Frames.bind (dnsQueryTarget_quiet _ _ _)
  intro targetResponse
  apply followAnswers_quiet
  intro owner
  apply dnsQueryTarget_quiet

/-- The loop over child servers notes their errors together and reports the last
one. -/
theorem tryChildServers_logs (input : ChildReferralResolutionInput) (errors : List ResolverError)
    (servers : List SocketAddr) :
    Effect.Logs RunState.attempts
      (fun result entries => ∃ all : List ResolverError, entries = [.children all] ∧
        all.length ≤ errors.length + servers.length ∧
        ∀ error, result = .error error → all.getLast?.getD .noNameserverAddress = error)
      (tryChildServers transport verifier input errors servers) := by
  induction servers generalizing errors with
  | nil =>
    apply note_bind_logs
    apply Effect.Logs.throw
    refine ⟨errors, rfl, le_rfl, ?_⟩
    rintro error ⟨⟩
    rfl
  | cons server rest ih =>
    apply Effect.Logs.bind_outcome_frames (resolveSecureChildFromServer_quiet server input)
    intro result
    cases result with
    | ok answer =>
      apply note_bind_logs
      apply Effect.Logs.pure
      refine ⟨errors, rfl, Nat.le_add_right _ _, ?_⟩
      rintro error ⟨⟩
    | error error =>
      apply Effect.Logs.mono (ih (errors ++ [error]))
      rintro final entries ⟨all, entries_eq, lengthLe, last_eq⟩
      refine ⟨all, entries_eq, ?_, last_eq⟩
      simp only [List.length_append, List.length_cons, List.length_nil] at lengthLe ⊢
      omega

variable {errors : List ResolverError}

/-- A transport error of the last child server hides nothing that is kept. -/
theorem clean_children_of_transport
    (last_eq : resolutionErrorPriority (errors.getLast?.getD .noNameserverAddress) = 0) :
    Clean relay [.children errors] := by
  apply Clean.singleton
  intro keeps failsValidation
  rcases (resolutionErrorPriority_eq_zero_iff _).mp last_eq with ⟨message, getD_eq⟩
  cases getLast_eq : errors.getLast? with
  | none =>
    rw [getLast_eq] at getD_eq
    cases getD_eq
  | some last =>
    rw [getLast_eq] at getD_eq
    apply keeps failsValidation message
    rw [getLast_eq]
    exact congrArg some getD_eq

/-- A single child server hides nothing. -/
theorem clean_children_of_single (lengthLe : errors.length ≤ 1)
    (last_le : resolutionErrorPriority (errors.getLast?.getD .noNameserverAddress) ≤ 1) :
    Clean relay [.children errors] := by
  apply Clean.singleton
  rintro - ⟨error, errorMem, fails⟩
  rw [isValidationFailure_iff] at fails
  match errors, lengthLe, errorMem with
  | [only], _, errorMem =>
    rw [List.mem_singleton.mp errorMem] at fails
    exact absurd last_le (Nat.not_le.mpr fails)

theorem resolveSecureChildReferral_reporting (input : ChildReferralResolutionInput) :
    Reporting transport.isRecursiveRelay
      (resolveSecureChildReferral transport verifier input) := by
  unfold resolveSecureChildReferral
  split
  · exact Effect.Logs.throw (Reports.nil _)
  split
  · exact Effect.Logs.throw (Reports.nil _)
  split
  case isTrue relay_eq =>
    split
    · exact Effect.Logs.throw (Reports.nil _)
    · apply Effect.Logs.mono (tryChildServers_logs input [] _)
      rintro result entries ⟨errors, rfl, lengthLe, last_eq⟩ error result_eq weak
      rw [relay_eq] at weak ⊢
      rw [← last_eq error result_eq] at weak
      exact clean_children_of_single lengthLe weak
  case isFalse relay_ne =>
    apply Effect.Logs.mono (tryChildServers_logs input [] _)
    rintro result entries ⟨errors, rfl, -, last_eq⟩ error result_eq weak
    rw [Bool.not_eq_true] at relay_ne
    rw [relay_ne, ← last_eq error result_eq] at weak
    exact clean_children_of_transport (Nat.le_zero.mp weak)

variable (server : SocketAddr)

theorem fetchInlineChildDnssecMaterial_quiet (childOwner : DnsName) :
    Quiet (fetchInlineChildDnssecMaterial transport server childOwner) := by
  apply Effect.Frames.bind (dnsQueryTarget_quiet _ _ _)
  intro dsResponse
  apply Effect.Frames.bind (dnsQueryTarget_quiet _ _ _)
  intro dnskeyResponse
  exact Effect.Frames.ite (Effect.Frames.throw _) (Effect.Frames.pure _)

theorem resolveSecureInlineChildAnswer_quiet (parent : DnskeyMaterial)
    (childOwner requestName : DnsName)
    (targetRrset targetRrsigRrset : List ResourceRecord) :
    Quiet (resolveSecureInlineChildAnswer transport verifier parent childOwner server requestName
      targetRrset targetRrsigRrset) := by
  apply Effect.Frames.ite (Effect.Frames.throw _)
  apply Effect.Frames.bind (fetchInlineChildDnssecMaterial_quiet server childOwner)
  intro material
  apply Effect.Frames.bind (Effect.Frames.ofExcept _)
  intro _
  apply Effect.Frames.pure

theorem resolveSecureInlineChildNoData_quiet (parent : DnskeyMaterial)
    (childOwner requestName : DnsName)
    (qtype : RecordType) (response : DnsMessage) (prefixRecords : List ResourceRecord) :
    Quiet (resolveSecureInlineChildNoData transport verifier parent childOwner server requestName
      qtype response prefixRecords) := by
  apply Effect.Frames.ite (Effect.Frames.throw _)
  apply Effect.Frames.bind (fetchInlineChildDnssecMaterial_quiet server childOwner)
  intro material
  apply Effect.Frames.bind (Effect.Frames.ofExcept _)
  intro _
  apply Effect.Frames.pure

variable (target : DnsQueryTarget) (question : DelegatedQuestion)

theorem resolveFromResponses_reporting (targetResponse dnskeyResponse : DnsMessage) :
    Reporting transport.isRecursiveRelay (resolveFromResponses transport verifier server target
      question targetResponse dnskeyResponse) := by
  unfold resolveFromResponses
  dsimp only
  split
  · exact .of_quiet (Effect.Frames.ofExcept _)
  split
  · apply resolveSecureChildReferral_reporting
  apply Reporting.of_quiet
  split
  · apply resolveSecureInlineChildAnswer_quiet
  split
  · split
    · apply resolveSecureInlineChildNoData_quiet
    · apply Effect.Frames.ofExcept
  apply Effect.Frames.ite (Effect.Frames.throw _)
  apply followAnswers_quiet
  intro owner
  apply dnsQueryTarget_quiet

theorem resolveFromTarget_reporting :
    Reporting transport.isRecursiveRelay
      (resolveFromTarget transport verifier server target question) := by
  apply Effect.Logs.bind_frames (dnsQueryTarget_quiet _ _ _)
  · exact fun error => Reports.nil _
  intro targetResponse
  split
  · exact Effect.Logs.pure (Reports.nil _)
  apply Effect.Logs.bind_frames (dnsQueryTarget_quiet _ _ _)
  · exact fun error => Reports.nil _
  intro dnskeyResponse
  apply resolveFromResponses_reporting

/-- The note of a failed pass comes after what the pass noted itself. -/
theorem noted_logs (attempt : ResolverError → Attempt) (reporting : Reporting relay action) :
    Effect.Logs RunState.attempts
      (fun result entries => ∀ error, result = .error error → ∃ before,
        entries = before ++ [attempt error] ∧
        (resolutionErrorPriority error ≤ relay.toNat → Clean relay before))
      (noted attempt action) := by
  apply Effect.Logs.bind_outcome reporting
  intro result before reports
  cases result with
  | ok value =>
    apply Effect.Logs.pure
    rintro error ⟨⟩
  | error error =>
    apply note_bind_logs
    apply Effect.Logs.throw
    rintro _ ⟨⟩
    exact ⟨before, rfl, reports error rfl⟩

/-- A pass over a nameserver, with its note. -/
theorem noted_server_reporting (reporting : Reporting relay action) :
    Reporting relay (noted .server action) := by
  apply Effect.Logs.mono (noted_logs .server reporting)
  intro result entries noted error result_eq weak
  rcases noted error result_eq with ⟨before, rfl, beforeClean⟩
  exact Clean.append_weak (beforeClean weak) rfl weak

/-- A pass over an endpoint, with its note: over a relay every kept failure is
harmless. -/
theorem noted_doh_logs (reporting : Reporting relay action) :
    Effect.Logs RunState.attempts
      (fun result entries => ∀ error, result = .error error →
        (relay = false → resolutionErrorPriority error = 0) → Clean relay entries)
      (noted .doh action) := by
  apply Effect.Logs.mono (noted_logs .doh reporting)
  intro result entries noted error result_eq weak keeps
  rcases noted error result_eq with ⟨before, rfl, beforeClean⟩
  have error_le : resolutionErrorPriority error ≤ relay.toNat := by
    cases relay with
    | false => exact (weak rfl).le
    | true =>
      have harmless := keeps (.doh error) (by simp) rfl
      rw [isValidationFailure_iff] at harmless
      exact Nat.not_lt.mp harmless
  exact Clean.append_weak (beforeClean error_le) rfl error_le keeps

theorem resolveDelegatedFromServer_reporting (direct : transport.isRecursiveRelay = false) :
    Reporting false (resolveDelegatedFromServer transport verifier server question) := by
  have passReporting (target : DnsQueryTarget) :
      Reporting false (noted .server (resolveDelegatedFromServerTarget transport verifier server
        target question)) := by
    apply noted_server_reporting
    rw [← direct]
    apply resolveFromTarget_reporting
  apply Effect.Logs.bind_outcome (passReporting _)
  intro result before reports
  split
  case h_1 answer =>
    apply Effect.Logs.pure
    rintro error ⟨⟩
  case h_2 =>
    -- From here on every error is stronger than a transport error.
    apply interception_bind_logs
    intro status
    split
    · apply Effect.Logs.throw
      apply Reports.of_strong
      exact Nat.one_pos
    apply Effect.Logs.bind_outcome (passReporting _)
    intro result after _
    cases result with
    | ok answer =>
      apply Effect.Logs.pure
      rintro error ⟨⟩
    | error error =>
      apply Effect.Logs.throw
      apply Reports.of_strong
      exact Nat.lt_of_lt_of_le Nat.two_pos (strongestResolutionError_priority .dnssecFailed error)
  case h_3 error _ =>
    apply Effect.Logs.throw
    rw [List.append_nil]
    rintro _ ⟨⟩ weak
    exact reports error rfl weak

/-- Whatever discovery notes and does not lose is no failure. -/
abbrev NotesCleanly (relay : Bool) (action : Run σ α) : Prop :=
  Effect.Logs RunState.attempts (fun _ entries => Clean relay entries) action

theorem inDiscovery_notesCleanly (relay : Bool) (action : Run σ α) :
    NotesCleanly relay (inDiscovery action) := by
  intro state
  exact ⟨_, rfl, Clean.discovery _⟩

theorem NotesCleanly.of_quiet (quiet : Quiet action) : NotesCleanly relay action :=
  Effect.Logs.of_frames quiet fun _ => Clean.nil

theorem NotesCleanly.append {before : List Attempt} (beforeClean : Clean relay before)
    (notes : NotesCleanly relay action) :
    Effect.Logs RunState.attempts (fun _ after => Clean relay (before ++ after)) action :=
  Effect.Logs.mono notes fun _ _ afterClean => Clean.append beforeClean afterClean

theorem discoverEndpoints_notesCleanly (relay : Bool) (delegation : HnsDelegation)
    (dsRrset : List ResourceRecord) (endpoints : List AuthoritativeDohEndpoint)
    (addresses : List (DnsName × IpAddr)) :
    NotesCleanly relay
      (discoverEndpoints transport verifier delegation dsRrset endpoints addresses) := by
  induction addresses generalizing endpoints with
  | nil => exact Effect.Logs.pure Clean.nil
  | cons nameserver rest ih =>
    rcases nameserver with ⟨ns, address⟩
    apply Effect.Logs.bind_frames (Effect.Frames.ofExcept _)
    · exact fun _ => Clean.nil
    intro serviceName
    apply Effect.Logs.bind_outcome (inDiscovery_notesCleanly relay _)
    intro result before beforeClean
    apply NotesCleanly.append beforeClean
    cases result with
    | error error => exact ih endpoints
    | ok response =>
      dsimp only
      split
      · exact ih endpoints
      apply Effect.Logs.bind_frames (Effect.Frames.ofExcept _)
      · exact fun _ => Clean.nil
      intro endpoints
      exact ih endpoints

theorem authoritativeDohEndpoints_notesCleanly (relay : Bool) (delegation : HnsDelegation) :
    NotesCleanly relay (authoritativeDohEndpoints transport verifier delegation) := by
  apply Effect.Logs.bind_frames (Effect.Frames.ofExcept _)
  · exact fun _ => Clean.nil
  intro templates
  dsimp only
  split
  · exact Effect.Logs.pure Clean.nil
  split
  · exact Effect.Logs.pure Clean.nil
  · apply discoverEndpoints_notesCleanly

end

end HnsDaneEngine.Browser.Resolver
