import HnsDaneEngine.Dnssec.Chain
import HnsDaneEngine.Resolver.Hops

/-!
# Runs of a TLSA resolution

Calls on one resolution, generic or under a Handshake authority, in any order and
at any validation times.
-/

namespace HnsDaneEngine.Resolver

open Dnssec Wire

/-- Who vouches for a response. -/
inductive Source
  | generic (keysets : List AuthenticatedDnskeys) (validationTime : UInt32)
  | hns (authority : HnsDnssecAuthority)

namespace Source

def keysets : Source → List AuthenticatedDnskeys
  | .generic keysets _ => keysets
  | .hns authority => [authority.keys]

def validationTime : Source → UInt32
  | .generic _ validationTime => validationTime
  | .hns authority => authority.evidence.validationTime

def binding : Source → AuthorityBinding
  | .generic _ _ => .generic
  | .hns authority => .hns authority.evidence

/-- A Handshake authority speaks for the names under its zone only. -/
def SpeaksFor : Source → Name → Prop
  | .generic _ _, _ => True
  | .hns authority, baseDomain => isSuffix baseDomain authority.evidence.zone = true

end Source

/-- One call of `accept_response` or `accept_hns_response`. -/
structure Call where
  query : Query
  message : Message
  source : Source

namespace TlsaResolution

variable {openssl : OpenSsl} {resolution : TlsaResolution} {call : Call}

def accept (openssl : OpenSsl) (resolution : TlsaResolution) (call : Call) :
    Except ResolverError ResolutionStep × TlsaResolution :=
  match call.source with
  | .generic keysets validationTime =>
    resolution.acceptResponse openssl call.query call.message keysets validationTime
  | .hns authority => resolution.acceptHnsResponse openssl call.query call.message authority

/-- The state after a list of calls, whatever they return. -/
def run (openssl : OpenSsl) (resolution : TlsaResolution) (calls : List Call) :
    TlsaResolution :=
  calls.foldl (fun resolution call => (resolution.accept openssl call).2) resolution

/-- A call is refused with nothing changed, or it binds its authority to a
resolution under its zone that was not bound otherwise and reads the answers. -/
theorem accept_cases (openssl : OpenSsl) (resolution : TlsaResolution) (call : Call) :
    (∃ error, resolution.accept openssl call = (.error error, resolution)) ∨
      (call.source.SpeaksFor resolution.baseDomain ∧
        resolution.checkResponse call.query call.message = .ok () ∧
        (resolution.authorityBinding = .unset ∨
          resolution.authorityBinding = call.source.binding) ∧
        resolution.accept openssl call =
          { resolution with authorityBinding := call.source.binding }.answerLoop openssl
            call.message call.source.keysets call.source.validationTime) := by
  have inner : ∀ keysets validationTime binding,
      (∃ error, resolution.acceptResponseInner openssl call.query call.message keysets
        validationTime binding = (.error error, resolution)) ∨
      (resolution.checkResponse call.query call.message = .ok () ∧
        (resolution.authorityBinding = .unset ∨ resolution.authorityBinding = binding) ∧
        resolution.acceptResponseInner openssl call.query call.message keysets validationTime
          binding =
          { resolution with authorityBinding := binding }.answerLoop openssl call.message keysets
            validationTime) := by
    intro keysets validationTime binding
    unfold acceptResponseInner
    split
    · exact .inl ⟨_, rfl⟩
    next checked =>
      split_ifs with unset bound
      · exact .inr ⟨checked, .inl unset, rfl⟩
      · refine .inr ⟨checked, .inr bound, ?_⟩
        rw [← bound]
      · exact .inl ⟨_, rfl⟩
  unfold accept
  cases call.source with
  | generic keysets validationTime =>
    exact (inner keysets validationTime .generic).imp_right (.intro trivial)
  | hns authority =>
    unfold acceptHnsResponse
    dsimp only
    split_ifs with outside
    · exact .inl ⟨_, rfl⟩
    · rw [Bool.not_eq_true, Bool.not_eq_false'] at outside
      exact (inner [authority.keys] authority.evidence.validationTime
        (.hns authority.evidence)).imp_right (.intro outside)

/-- The edges that one call commits, and what it returns after them. -/
theorem accept_spec (openssl : OpenSsl) (resolution : TlsaResolution) (call : Call) :
    (∃ error, resolution.accept openssl call = (.error error, resolution)) ∨
      (call.source.SpeaksFor resolution.baseDomain ∧
        resolution.checkResponse call.query call.message = .ok () ∧
        (resolution.authorityBinding = .unset ∨
          resolution.authorityBinding = call.source.binding) ∧
        ∃ edges, Follows openssl call.message call.source.keysets call.source.validationTime
            { resolution with authorityBinding := call.source.binding } edges ∧
          Stops openssl call.message call.source.keysets call.source.validationTime
            ({ resolution with authorityBinding := call.source.binding }.followAll edges)
            (resolution.accept openssl call)) := by
  rcases accept_cases openssl resolution call with
    refused | ⟨speaksFor, checked, bound, accept_eq⟩
  · exact .inl refused
  · rw [accept_eq]
    exact .inr ⟨speaksFor, checked, bound, answerLoopFrom_spec _ _⟩

/-- A failed call that passed the checks, the one of its zone first, may have bound its
authority and have taken edges of the message, each verified by one of its keysets at
or above the owner, to new owners and within the hop limit.  It changes nothing else. -/
theorem failed_accept_commits_verified_edges (openssl : OpenSsl) (resolution : TlsaResolution)
    (call : Call) (error : ResolverError) (after : TlsaResolution)
    (failed : resolution.accept openssl call = (.error error, after)) :
    after = resolution ∨
      (call.source.SpeaksFor resolution.baseDomain ∧
        resolution.checkResponse call.query call.message = .ok () ∧
        (resolution.authorityBinding = .unset ∨
          resolution.authorityBinding = call.source.binding) ∧
        ∃ edges,
          after = { resolution with
            authorityBinding := call.source.binding
            visited := resolution.visited ++ edges.map VerifiedCname.target
            cnameChain := resolution.cnameChain ++ edges
            currentOwner := after.currentOwner } ∧
          Extends openssl call.message call.source.keysets call.source.validationTime resolution
            edges after.currentOwner) := by
  rcases accept_spec openssl resolution call with ⟨refused, refused_eq⟩ | ⟨speaksFor, checked,
    bound, edges, follows, stops⟩
  · rw [refused_eq] at failed
    exact .inl (Prod.mk.inj failed).2.symm
  right
  refine ⟨speaksFor, checked, bound, edges, ?_⟩
  rw [failed] at stops
  cases stops with
  | failed =>
    have extends_ := follows.extends
    exact ⟨followAll_eq _ edges, extends_.path, extends_.unseen, extends_.nodup,
      extends_.length_le, extends_.verified⟩

/-- The recorded chain leads from the requested owner to the current one without
repetition and within the limit, and some call of the run verified each edge. -/
structure Traced (openssl : OpenSsl) (start : TlsaResolution) (calls : List Call)
    (resolution : TlsaResolution) : Prop where
  requestedOwner_eq : resolution.requestedOwner = start.requestedOwner
  limits_eq : resolution.limits = start.limits
  path : IsPath start.requestedOwner resolution.cnameChain resolution.currentOwner
  visited_eq : resolution.visited =
    start.requestedOwner :: resolution.cnameChain.map VerifiedCname.target
  nodup : resolution.visited.Nodup
  length_le : resolution.cnameChain.length ≤ start.limits.maxCnameHops
  verified : ∀ edge ∈ resolution.cnameChain, ∃ call ∈ calls,
    EdgeVerified openssl call.message call.source.keysets call.source.validationTime
      start.limits.dnssec edge

namespace Traced

variable {start : TlsaResolution} {calls : List Call}

section

variable (traced : Traced openssl start calls resolution)

include traced

theorem mono {more : List Call} : Traced openssl start (calls ++ more) resolution :=
  { traced with
    verified := by
      intro edge edgeMem
      obtain ⟨call, callMem, verified⟩ := traced.verified edge edgeMem
      exact ⟨call, List.mem_append_left more callMem, verified⟩ }

/-- Taking edges keeps the trace, under the call they were taken in. -/
theorem followAll {edges : List VerifiedCname}
    (follows : Follows openssl call.message call.source.keysets call.source.validationTime
      { resolution with authorityBinding := call.source.binding } edges) :
    Traced openssl start (calls ++ [call])
      ({ resolution with authorityBinding := call.source.binding }.followAll edges) := by
  have extends_ := follows.extends
  rw [followAll_eq]
  constructor
  · exact traced.requestedOwner_eq
  · exact traced.limits_eq
  · exact isPath_append.mpr ⟨_, traced.path, extends_.path⟩
  · simp [traced.visited_eq]
  · rw [List.nodup_append']
    refine ⟨traced.nodup, extends_.nodup, ?_⟩
    intro owner seen repeated
    obtain ⟨edge, edgeMem, rfl⟩ := List.mem_map.mp repeated
    exact extends_.unseen edge edgeMem seen
  · rw [List.length_append]
    by_cases ended : edges = []
    · subst ended
      exact traced.length_le
    · rw [← traced.limits_eq]
      exact extends_.length_le ended
  · intro edge edgeMem
    rcases List.mem_append.mp edgeMem with earlier | taken
    · exact traced.mono.verified edge earlier
    · refine ⟨call, by simp, ?_⟩
      rw [← traced.limits_eq]
      exact extends_.verified edge taken

/-- Completing a resolution changes nothing else. -/
theorem complete : Traced openssl start calls { resolution with completed := true } :=
  ⟨traced.requestedOwner_eq, traced.limits_eq, traced.path, traced.visited_eq, traced.nodup,
    traced.length_le, traced.verified⟩

theorem accept (call : Call) :
    Traced openssl start (calls ++ [call]) (resolution.accept openssl call).2 := by
  rcases accept_spec openssl resolution call with ⟨error, refused_eq⟩ | ⟨-, -, -, edges, follows,
    stops⟩
  · rw [refused_eq]
    exact traced.mono
  have followed := traced.followAll follows
  generalize resolution.accept openssl call = outcome at stops
  cases stops with
  | failed => exact followed
  | paused => exact followed
  | completed => exact followed.complete

end

theorem forService {baseDomain : Name} {port : UInt16} {transport : ServiceTransport}
    {limits : ResolverLimits} (begun : forService baseDomain port transport limits = .ok start) :
    Traced openssl start [] start ∧ start.limits = limits := by
  unfold TlsaResolution.forService at begun
  split at begun
  · cases begun
  split at begun
  · cases begun
  · split at begun
    · cases begun
    · obtain rfl := Except.ok.inj begun
      exact ⟨⟨rfl, rfl, rfl, rfl, List.nodup_singleton _, Nat.zero_le _, by simp⟩, rfl⟩

theorem run (traced : Traced openssl start [] start) (calls : List Call) :
    Traced openssl start calls (start.run openssl calls) := by
  induction calls using List.reverseRecOn with
  | nil => exact traced
  | append_singleton calls call ih =>
    rw [TlsaResolution.run, List.foldl_append]
    exact ih.accept call

end Traced

/-- Every retained trust input is current. -/
structure InputsFreshAt (result : ValidatedTlsa) (now : Nat) : Prop where
  edges : ∀ edge ∈ result.cnameChain, edge.rrset.isFreshAt now = true
  terminal : result.rrset.isFreshAt now = true
  authority : ∀ evidence, result.hnsAuthority = some evidence →
    evidence.validationTime.toNat ≤ now ∧ now < evidence.expiresAtUnix

theorem validatedTlsaExpiry_le (cnameChain : List VerifiedCname) (terminal : VerifiedRrset)
    (hnsAuthority : Option HnsAuthorityEvidence) :
    (∀ edge ∈ cnameChain,
        validatedTlsaExpiry cnameChain terminal hnsAuthority ≤ edge.rrset.expiresAtUnix) ∧
      validatedTlsaExpiry cnameChain terminal hnsAuthority ≤ terminal.expiresAtUnix ∧
      ∀ evidence, hnsAuthority = some evidence →
        validatedTlsaExpiry cnameChain terminal hnsAuthority ≤ evidence.expiresAtUnix := by
  have le_of_mem : ∀ deadline ∈
      (cnameChain.map fun edge => edge.rrset.expiresAtUnix) ++ [terminal.expiresAtUnix] ++
        hnsAuthority.toList.map HnsAuthorityEvidence.expiresAtUnix,
      validatedTlsaExpiry cnameChain terminal hnsAuthority ≤ deadline := by
    intro deadline deadlineMem
    unfold validatedTlsaExpiry
    cases minimum_eq : ((cnameChain.map fun edge => edge.rrset.expiresAtUnix) ++
        [terminal.expiresAtUnix] ++
          hnsAuthority.toList.map HnsAuthorityEvidence.expiresAtUnix).min? with
    | none => simp at minimum_eq
    | some minimum => exact (List.min?_eq_some_iff.mp minimum_eq).2 deadline deadlineMem
  refine ⟨?_, ?_, ?_⟩
  · intro edge edgeMem
    apply le_of_mem
    simp only [List.append_assoc, List.mem_append, List.mem_map]
    exact .inl ⟨edge, edgeMem, rfl⟩
  · exact le_of_mem _ (by simp)
  · rintro evidence rfl
    exact le_of_mem _ (by simp)

variable {result : ValidatedTlsa} {after : TlsaResolution}

/-- The state in which a call completes a resolution. -/
theorem accept_eq_complete
    (completes : resolution.accept openssl call = (.ok (.complete result), after)) :
    ∃ edges, Follows openssl call.message call.source.keysets call.source.validationTime
        { resolution with authorityBinding := call.source.binding } edges ∧
      ({ resolution with authorityBinding := call.source.binding }.followAll edges).answerHop
        openssl call.message call.source.keysets call.source.validationTime =
          .ok (.complete result) := by
  rcases accept_spec openssl resolution call with ⟨error, refused_eq⟩ | ⟨-, -, -, edges, follows,
    stops⟩
  · rw [refused_eq] at completes
    cases completes
  · rw [completes] at stops
    cases stops with
    | completed hop => exact ⟨edges, follows, hop⟩

/-- A Handshake authority vouches at its own validation time. -/
theorem validationTime_of_binding {source : Source} {evidence : HnsAuthorityEvidence}
    (retained : retainedHnsAuthority source.binding = some evidence) :
    source.validationTime = evidence.validationTime := by
  cases source with
  | generic keysets validationTime => cases retained
  | hns authority =>
    obtain rfl := Option.some.inj retained
    rfl

section

variable (completes : resolution.accept openssl call = (.ok (.complete result), after))

include completes

/-- A result is made of the edges known before the completing call and of edges
validated at the time of that call. -/
theorem complete_result_spec :
    (∃ edges, result.cnameChain = resolution.cnameChain ++ edges ∧
        ∀ edge ∈ edges, edge.rrset.observedAtUnix = call.source.validationTime.toNat) ∧
      result.rrset.observedAtUnix = call.source.validationTime.toNat ∧
      result.validatedAtUnix = call.source.validationTime.toNat ∧
      result.hnsAuthority = retainedHnsAuthority call.source.binding ∧
      result.expiresAtUnix =
        validatedTlsaExpiry result.cnameChain result.rrset result.hnsAuthority := by
  obtain ⟨edges, follows, hop⟩ := accept_eq_complete completes
  obtain ⟨⟨records, verified, rfl⟩, -, terminal⟩ := answerHop_eq_complete hop
  have last_eq := followAll_eq { resolution with authorityBinding := call.source.binding } edges
  refine ⟨⟨edges, ?_, ?_⟩, terminal.observedAt_eq, rfl, ?_, rfl⟩
  · dsimp only
    rw [last_eq]
  · intro edge edgeMem
    obtain ⟨record, -, -, verifiedBy⟩ := follows.extends.verified edge edgeMem
    exact verifiedBy.observedAt_eq
  · dsimp only
    rw [last_eq]

/-- When no edge was validated later than the completing call, a fresh result has
fresh inputs. -/
theorem inputsFreshAt_of_ordered (ordered : ∀ edge ∈ resolution.cnameChain,
      edge.rrset.observedAtUnix ≤ call.source.validationTime.toNat) {now : Nat}
    (fresh : result.isFreshAt now = true) : InputsFreshAt result now := by
  obtain ⟨⟨edges, chain_eq, edges_observed⟩, terminal_observed, validated_eq, authority_eq,
    expires_eq⟩ := complete_result_spec completes
  simp only [ValidatedTlsa.isFreshAt, Bool.and_eq_true, decide_eq_true_eq] at fresh
  rw [validated_eq, expires_eq] at fresh
  obtain ⟨started, current⟩ := fresh
  obtain ⟨edges_le, terminal_le, authority_le⟩ := validatedTlsaExpiry_le
    result.cnameChain result.rrset result.hnsAuthority
  constructor
  · intro edge edgeMem
    rw [VerifiedRrset.isFreshAt_iff]
    refine ⟨le_trans ?_ started, current.trans_le (edges_le edge edgeMem)⟩
    rw [chain_eq] at edgeMem
    rcases List.mem_append.mp edgeMem with earlier | taken
    · exact ordered edge earlier
    · exact (edges_observed edge taken).le
  · rw [VerifiedRrset.isFreshAt_iff]
    exact ⟨terminal_observed.le.trans started, current.trans_le terminal_le⟩
  · intro evidence evidence_eq
    have time_eq := validationTime_of_binding (authority_eq.symm.trans evidence_eq)
    rw [← time_eq]
    exact ⟨started, current.trans_le (authority_le evidence evidence_eq)⟩

/-- Conversely a result that can be fresh at all is fresh when it is validated, and
an edge validated later is not. -/
theorem ordered_of_inputsFreshAt {some_ : Nat} (fresh : result.isFreshAt some_ = true)
    (inputs : ∀ now, result.isFreshAt now = true → InputsFreshAt result now) :
    ∀ edge ∈ resolution.cnameChain,
      edge.rrset.observedAtUnix ≤ call.source.validationTime.toNat := by
  obtain ⟨⟨edges, chain_eq, -⟩, -, validated_eq, -, -⟩ := complete_result_spec completes
  simp only [ValidatedTlsa.isFreshAt, Bool.and_eq_true, decide_eq_true_eq] at fresh
  have at_validation : result.isFreshAt call.source.validationTime.toNat = true := by
    simp only [ValidatedTlsa.isFreshAt, Bool.and_eq_true, decide_eq_true_eq, validated_eq]
    omega
  intro edge edgeMem
  have edge_fresh := (inputs _ at_validation).edges edge
    (by rw [chain_eq]; exact List.mem_append_left edges edgeMem)
  exact (VerifiedRrset.isFreshAt_iff.mp edge_fresh).1

end

/-- A run that completes has followed a path without repetition and within the hop
limit from the requested to the terminal owner, every part of it verified by a
keyset at or above its owner.  Its inputs are fresh whenever it claims to be,
provided no edge retained from an earlier call was validated later than the
completing call; a result that is ever fresh needs this. -/
theorem completed_run_sound (openssl : OpenSsl) (baseDomain : Name) (port : UInt16)
    (transport : ServiceTransport) (limits : ResolverLimits) (start : TlsaResolution)
    (begun : forService baseDomain port transport limits = .ok start) (calls : List Call)
    (call : Call) (result : ValidatedTlsa) (after : TlsaResolution)
    (completes : (start.run openssl calls).accept openssl call =
      (.ok (.complete result), after)) :
    result.requestedOwner = start.requestedOwner ∧
      IsPath result.requestedOwner result.cnameChain result.terminalOwner ∧
      (result.requestedOwner :: result.cnameChain.map VerifiedCname.target).Nodup ∧
      result.cnameChain.length ≤ limits.maxCnameHops ∧
      (∀ edge ∈ result.cnameChain, ∃ made ∈ calls ++ [call],
        EdgeVerified openssl made.message made.source.keysets made.source.validationTime
          limits.dnssec edge) ∧
      TerminalVerified openssl call.message call.source.keysets call.source.validationTime
        limits.dnssec result ∧
      ((∀ edge ∈ (start.run openssl calls).cnameChain,
          edge.rrset.observedAtUnix ≤ call.source.validationTime.toNat) →
        ∀ now, result.isFreshAt now = true → InputsFreshAt result now) ∧
      ((∃ now, result.isFreshAt now = true) →
        (∀ now, result.isFreshAt now = true → InputsFreshAt result now) →
        ∀ edge ∈ (start.run openssl calls).cnameChain,
          edge.rrset.observedAtUnix ≤ call.source.validationTime.toNat) := by
  obtain ⟨started, limits_eq⟩ : Traced openssl start [] start ∧ start.limits = limits :=
    Traced.forService begun
  obtain ⟨edges, follows, hop⟩ := accept_eq_complete completes
  have traced := (started.run calls).followAll follows
  obtain ⟨⟨records, verified, result_eq⟩, terminal⟩ := answerHop_eq_complete hop
  rw [traced.limits_eq, limits_eq] at terminal
  have requested_eq : result.requestedOwner = start.requestedOwner := by
    rw [result_eq]
    exact traced.requestedOwner_eq
  refine ⟨requested_eq, ?_, ?_, ?_, ?_, terminal, ?_, ?_⟩
  · rw [requested_eq, result_eq]
    exact traced.path
  · have nodup := traced.nodup
    rw [traced.visited_eq] at nodup
    rw [requested_eq, result_eq]
    exact nodup
  · rw [result_eq, ← limits_eq]
    exact traced.length_le
  · rw [result_eq, ← limits_eq]
    exact traced.verified
  · intro ordered now fresh
    exact inputsFreshAt_of_ordered completes ordered fresh
  · rintro ⟨now, fresh⟩ inputs
    exact ordered_of_inputsFreshAt completes fresh inputs

end TlsaResolution

namespace ExampleLookup

open ExampleChain (Signed apex apexZone key keyset)

/-- `_443._tcp.example.` -/
def service : Name :=
  ⟨[0x5f, 0x34, 0x34, 0x33] :: [0x5f, 0x74, 0x63, 0x70] :: ExampleChain.exampleLabels, by decide⟩

/-- `t.example.` -/
def target : Name :=
  ⟨[0x74] :: ExampleChain.exampleLabels, by decide⟩

def tlsa : Tlsa :=
  ⟨3, 1, 1, (List.range 32).map UInt8.ofNat⟩

def cnameRecord : Signed where
  record := ⟨service, .cname, 1, 300, .cname target⟩
  signer := apex
  signature :=
    [216, 254, 111, 127, 233, 79, 89, 11, 98, 253, 146, 1, 116, 190, 93, 89, 35, 226, 44, 249,
      216, 40, 189, 3, 1, 134, 215, 56, 7, 236, 11, 246, 235, 254, 9, 250, 128, 236, 134, 64, 174,
      102, 66, 70, 242, 173, 18, 91, 62, 11, 226, 116, 110, 43, 171, 32, 220, 96, 110, 146, 209,
      206, 120, 1]

def tlsaRecord : Signed where
  record := ⟨target, .tlsa, 1, 300, .tlsa tlsa⟩
  signer := apex
  signature :=
    [78, 244, 210, 77, 72, 31, 32, 163, 27, 176, 57, 180, 165, 31, 102, 133, 108, 51, 141, 175,
      188, 106, 104, 184, 116, 111, 13, 104, 128, 205, 16, 2, 11, 42, 254, 177, 114, 91, 26, 133,
      33, 153, 162, 174, 23, 164, 19, 9, 164, 1, 106, 112, 252, 176, 86, 185, 246, 116, 183, 100,
      254, 9, 146, 12]

/-- A library with the two signatures. -/
def openssl : OpenSsl :=
  { ExampleChain.openssl with
    verifyEd25519 := fun publicKey data signature =>
      publicKey == key.publicKey && [cnameRecord, tlsaRecord].any fun signed =>
        signed.octets == data && signed.signature == signature }

/-- A response to the query for an owner with the given answers. -/
def callAt (owner : Name) (answers : List ResourceRecord) (validationTime : UInt32) : Call where
  query := ⟨7, ⟨owner, .tlsa, classIn⟩⟩
  message := {
    header := ⟨7, ⟨0x8400⟩, 1, UInt16.ofNat answers.length, 0, 0⟩
    questions := [⟨owner, .tlsa, classIn⟩]
    answers
    authorities := []
    additionals := [] }
  source := .generic [keyset apexZone 1800000000] validationTime

/-- The state of a new lookup for `example.` -/
def start : TlsaResolution where
  requestedOwner := service
  currentOwner := service
  baseDomain := apex
  baseDomainAscii := [101, 120, 97, 109, 112, 108, 101]
  visited := [service]
  cnameChain := []
  completed := false
  limits := ResolverLimits.default
  authorityBinding := .unset

theorem forHttps_apex :
    TlsaResolution.forService apex httpsPort .tcp ResolverLimits.default = .ok start := by
  rfl

/-- The edge from the service owner, validated at the given time. -/
def edgeAt (validatedAt : Nat) : VerifiedCname where
  owner := service
  target := target
  rrset := {
    owner := service
    recordType := .cname
    keyTag := 34259
    algorithm := 15
    inception := 1700000000
    expiration := 2000000000
    observedAtUnix := validatedAt
    expiresAtUnix := 1800000300 }

/-- The lookup after the edge. -/
def followed (validatedAt : Nat) : TlsaResolution :=
  { start with
    currentOwner := target
    visited := [service, target]
    cnameChain := [edgeAt validatedAt]
    authorityBinding := .generic }

/-- A signed CNAME with an unsigned terminal record behind it. -/
def forged : Call :=
  callAt service (cnameRecord.rrset.records ++ cnameRecord.rrset.signatures ++
    tlsaRecord.rrset.records) 1800000100

theorem accept_forged :
    start.accept openssl forged = (.error (.dnssec .missingSignature), followed 1800000100) := by
  rfl

/-- The failed call has bound the authority and moved the current owner. -/
theorem failed_accept_advances :
    TlsaResolution.forService apex httpsPort .tcp ResolverLimits.default = .ok start ∧
      ∃ error after, start.accept openssl forged = (.error error, after) ∧ after ≠ start :=
  ⟨forHttps_apex, _, _, accept_forged, by decide⟩

theorem failed_accept_forged :
    start.accept openssl forged =
        (.error (.dnssec .missingSignature), followed 1800000100) ∧
      (followed 1800000100 = start ∨
        (forged.source.SpeaksFor start.baseDomain ∧
          start.checkResponse forged.query forged.message = .ok () ∧
          (start.authorityBinding = .unset ∨ start.authorityBinding = forged.source.binding) ∧
          ∃ edges,
            followed 1800000100 = { start with
              authorityBinding := forged.source.binding
              visited := start.visited ++ edges.map VerifiedCname.target
              cnameChain := start.cnameChain ++ edges
              currentOwner := (followed 1800000100).currentOwner } ∧
            TlsaResolution.Extends openssl forged.message forged.source.keysets
              forged.source.validationTime start edges (followed 1800000100).currentOwner)) :=
  ⟨accept_forged, TlsaResolution.failed_accept_commits_verified_edges openssl start forged _ _
    accept_forged⟩

/-- The signed CNAME alone. -/
def cnameCall (validationTime : UInt32) : Call :=
  callAt service (cnameRecord.rrset.records ++ cnameRecord.rrset.signatures) validationTime

/-- The signed terminal record. -/
def tlsaCall (validationTime : UInt32) : Call :=
  callAt target (tlsaRecord.rrset.records ++ tlsaRecord.rrset.signatures) validationTime

/-- The result of the lookup when the two calls validate at these times. -/
def resultAt (edgeTime terminalTime : Nat) : ValidatedTlsa where
  requestedOwner := service
  terminalOwner := target
  baseDomain := apex
  baseDomainAscii := start.baseDomainAscii
  records := [tlsa]
  cnameChain := [edgeAt edgeTime]
  rrset := {
    owner := target
    recordType := .tlsa
    keyTag := 34259
    algorithm := 15
    inception := 1700000000
    expiration := 2000000000
    observedAtUnix := terminalTime
    expiresAtUnix := 1800000300 }
  hnsAuthority := none
  validatedAtUnix := terminalTime
  expiresAtUnix := 1800000300

theorem completes_backwards :
    (start.run openssl [cnameCall 1800000200]).accept openssl (tlsaCall 1800000100) =
      (.ok (.complete (resultAt 1800000200 1800000100)),
        { followed 1800000200 with completed := true }) := by
  rfl

/-- With validation times that go back, the result is fresh while its edge is not
yet observed. -/
theorem fresh_before_edge :
    TlsaResolution.forService apex httpsPort .tcp ResolverLimits.default = .ok start ∧
      ∃ calls call result after,
        (start.run openssl calls).accept openssl call = (.ok (.complete result), after) ∧
          ∃ now, result.isFreshAt now = true ∧ ¬ TlsaResolution.InputsFreshAt result now :=
  ⟨forHttps_apex, _, _, _, _, completes_backwards, 1800000150, by decide, fun inputs =>
    absurd (inputs.edges (edgeAt 1800000200) List.mem_cons_self) (by decide)⟩

theorem completes_forwards :
    (start.run openssl [cnameCall 1800000100]).accept openssl (tlsaCall 1800000200) =
      (.ok (.complete (resultAt 1800000100 1800000200)),
        { followed 1800000100 with completed := true }) := by
  rfl

theorem completed_run_forwards :
    (resultAt 1800000100 1800000200).isFreshAt 1800000250 = true ∧
      TlsaResolution.InputsFreshAt (resultAt 1800000100 1800000200) 1800000250 :=
  have sound := TlsaResolution.completed_run_sound openssl apex httpsPort .tcp
    ResolverLimits.default start forHttps_apex [cnameCall 1800000100] (tlsaCall 1800000200) _ _
    completes_forwards
  ⟨by decide, sound.2.2.2.2.2.2.1 (by decide) 1800000250 (by decide)⟩

end ExampleLookup

end HnsDaneEngine.Resolver
