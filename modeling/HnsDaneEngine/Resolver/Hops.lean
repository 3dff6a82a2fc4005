import HnsDaneEngine.Resolver.Tlsa

/-!
# Hops of a TLSA resolution

What one turn of the answer loop and what one call can do: every edge that is
committed is a single CNAME record at the current owner that one of the supplied
keysets verified, towards an owner not seen before and within the hop limit.
-/

namespace HnsDaneEngine.Resolver

open Dnssec Wire

section

variable {openssl : OpenSsl} {keysets : List AuthenticatedDnskeys}
  {records signatures : List ResourceRecord} {validationTime : UInt32} {limits : DnssecLimits}
  {verified : VerifiedRrset}

/-- One of the keysets verifies the RRset of an owner at or below its zone. -/
def VerifiedBy (openssl : OpenSsl) (keysets : List AuthenticatedDnskeys) (owner : Name)
    (records signatures : List ResourceRecord) (validationTime : UInt32)
    (limits : DnssecLimits) (verified : VerifiedRrset) : Prop :=
  ∃ keyset ∈ keysets, keyset.zone.labels <:+ owner.labels ∧
    verifyRrsetWithKeys openssl keyset records signatures validationTime limits = .ok verified

variable {owner : Name}

theorem tryKeysets_eq_ok {lastError : DnssecError}
    (accepted : tryKeysets openssl owner records signatures validationTime limits lastError
      keysets = .ok verified) :
    VerifiedBy openssl keysets owner records signatures validationTime limits verified := by
  induction keysets generalizing lastError with
  | nil => cases accepted
  | cons keyset rest ih =>
    have later : ∀ error, tryKeysets openssl owner records signatures validationTime limits
        error rest = .ok verified →
        VerifiedBy openssl (keyset :: rest) owner records signatures validationTime limits
          verified := by
      intro error remaining
      obtain ⟨other, otherMem, below, verifies⟩ := ih remaining
      exact ⟨other, List.mem_cons_of_mem keyset otherMem, below, verifies⟩
    rw [tryKeysets] at accepted
    split_ifs at accepted with outside
    · exact later _ accepted
    · split at accepted
      next result result_eq =>
        obtain rfl := Except.ok.inj accepted
        exact ⟨keyset, List.mem_cons_self, by simpa using outside, result_eq⟩
      · exact later _ accepted

theorem verifyWithAnyKeyset_eq_ok (owners : ∀ record ∈ records, record.name = owner)
    (accepted : verifyWithAnyKeyset openssl keysets records signatures validationTime limits =
      .ok verified) :
    VerifiedBy openssl keysets owner records signatures validationTime limits verified := by
  unfold verifyWithAnyKeyset at accepted
  split at accepted
  · cases accepted
  next first rest =>
    rw [owners first List.mem_cons_self] at accepted
    exact tryKeysets_eq_ok accepted

/-- Evidence is observed at the time of its validation. -/
theorem VerifiedBy.observedAt_eq
    (verifiedBy : VerifiedBy openssl keysets owner records signatures validationTime limits
      verified) : verified.observedAtUnix = validationTime.toNat := by
  obtain ⟨keyset, -, -, verified_eq⟩ := verifiedBy
  obtain ⟨-, plain, plain_eq, rfl⟩ := verifyRrsetWithKeys_eq_ok verified_eq
  obtain ⟨first, -, -, record, signature, -, -, rfl⟩ := verifyRrsetBy_eq_ok plain_eq
  rfl

end

theorem name_of_mem_matchingRecords (message : Message) (owner : Name) (recordType : RecordType) :
    ∀ record ∈ matchingRecords message owner recordType, record.name = owner := by
  intro record recordMem
  obtain ⟨-, matching⟩ := List.mem_filter.mp recordMem
  simp only [Bool.and_eq_true, decide_eq_true_eq] at matching
  exact matching.1.1

/-- The edge is the only CNAME record at its owner in the message, and one of the
keysets verified it. -/
def EdgeVerified (openssl : OpenSsl) (message : Message) (keysets : List AuthenticatedDnskeys)
    (validationTime : UInt32) (limits : DnssecLimits) (edge : VerifiedCname) : Prop :=
  ∃ record, matchingRecords message edge.owner .cname = [record] ∧
    record.rdata = .cname edge.target ∧
    VerifiedBy openssl keysets edge.owner [record]
      (matchingSignatures message edge.owner .cname) validationTime limits edge.rrset

/-- The result consists of the TLSA records at its terminal owner in the message,
and one of the keysets verified them. -/
def TerminalVerified (openssl : OpenSsl) (message : Message)
    (keysets : List AuthenticatedDnskeys) (validationTime : UInt32) (limits : DnssecLimits)
    (result : ValidatedTlsa) : Prop :=
  tlsaData (matchingRecords message result.terminalOwner .tlsa) = .ok result.records ∧
    VerifiedBy openssl keysets result.terminalOwner
      (matchingRecords message result.terminalOwner .tlsa)
      (matchingSignatures message result.terminalOwner .tlsa) validationTime limits result.rrset

namespace TlsaResolution

variable {openssl : OpenSsl} {resolution : TlsaResolution} {message : Message}
  {keysets : List AuthenticatedDnskeys} {validationTime : UInt32}

theorem answerHop_eq_cname {edge : VerifiedCname}
    (hop : resolution.answerHop openssl message keysets validationTime = .ok (.cname edge)) :
    edge.owner = resolution.currentOwner ∧ edge.target ∉ resolution.visited ∧
      resolution.cnameChain.length < resolution.limits.maxCnameHops ∧
      EdgeVerified openssl message keysets validationTime resolution.limits.dnssec edge := by
  unfold answerHop at hop
  dsimp only at hop
  split_ifs at hop
  · unfold terminalHop at hop
    split_ifs at hop
    split at hop
    · cases hop
    · split at hop <;> cases hop
  unfold aliasHop at hop
  split at hop
  · cases hop
  · cases hop
  next record records_eq =>
    split_ifs at hop with limited
    split at hop
    · cases hop
    next verified verified_eq =>
      split at hop
      next target target_eq =>
        split_ifs at hop with seen
        obtain rfl := Hop.cname.inj (Except.ok.inj hop)
        have owners := name_of_mem_matchingRecords message resolution.currentOwner .cname
        rw [records_eq] at owners
        exact ⟨rfl, seen, Nat.lt_of_not_le limited, record, records_eq, target_eq,
          verifyWithAnyKeyset_eq_ok owners verified_eq⟩
      · cases hop

theorem answerHop_eq_complete {result : ValidatedTlsa}
    (hop : resolution.answerHop openssl message keysets validationTime =
      .ok (.complete result)) :
    (∃ records verified, result = {
        requestedOwner := resolution.requestedOwner
        terminalOwner := resolution.currentOwner
        baseDomain := resolution.baseDomain
        baseDomainAscii := resolution.baseDomainAscii
        records
        cnameChain := resolution.cnameChain
        rrset := verified
        hnsAuthority := retainedHnsAuthority resolution.authorityBinding
        validatedAtUnix := validationTime.toNat
        expiresAtUnix := validatedTlsaExpiry resolution.cnameChain verified
          (retainedHnsAuthority resolution.authorityBinding) }) ∧
      TerminalVerified openssl message keysets validationTime resolution.limits.dnssec
        result := by
  unfold answerHop at hop
  dsimp only at hop
  split_ifs at hop
  · unfold terminalHop at hop
    split_ifs at hop
    split at hop
    · cases hop
    next verified verified_eq =>
      split at hop
      · cases hop
      next records records_eq =>
        obtain rfl := Hop.complete.inj (Except.ok.inj hop)
        exact ⟨⟨records, verified, rfl⟩, records_eq,
          verifyWithAnyKeyset_eq_ok (name_of_mem_matchingRecords _ _ _) verified_eq⟩
  · unfold aliasHop at hop
    split at hop
    · cases hop
    · cases hop
    split_ifs at hop
    split at hop
    · cases hop
    · split at hop
      · split_ifs at hop
        cases hop
      · cases hop

/-- The state after a list of edges. -/
def followAll (resolution : TlsaResolution) (edges : List VerifiedCname) : TlsaResolution :=
  edges.foldl follow resolution

/-- Every edge is the hop that the loop takes after the ones before it. -/
inductive Follows (openssl : OpenSsl) (message : Message)
    (keysets : List AuthenticatedDnskeys) (validationTime : UInt32) :
    TlsaResolution → List VerifiedCname → Prop
  | nil (resolution : TlsaResolution) :
      Follows openssl message keysets validationTime resolution []
  | cons {resolution : TlsaResolution} {edge : VerifiedCname} {edges : List VerifiedCname}
      (hop : resolution.answerHop openssl message keysets validationTime = .ok (.cname edge))
      (rest : Follows openssl message keysets validationTime (resolution.follow edge) edges) :
      Follows openssl message keysets validationTime resolution (edge :: edges)

/-- What the loop returns at the state where it stops. -/
inductive Stops (openssl : OpenSsl) (message : Message) (keysets : List AuthenticatedDnskeys)
    (validationTime : UInt32) (last : TlsaResolution) :
    Except ResolverError ResolutionStep × TlsaResolution → Prop
  | failed (error : ResolverError) :
      Stops openssl message keysets validationTime last (.error error, last)
  | paused (target : Name) :
      Stops openssl message keysets validationTime last (.ok (.followCname target), last)
  | completed {result : ValidatedTlsa}
      (hop : last.answerHop openssl message keysets validationTime = .ok (.complete result)) :
      Stops openssl message keysets validationTime last
        (.ok (.complete result), { last with completed := true })

theorem answerLoopFrom_spec (turns : Nat) (resolution : TlsaResolution) :
    ∃ edges, Follows openssl message keysets validationTime resolution edges ∧
      Stops openssl message keysets validationTime (resolution.followAll edges)
        (answerLoopFrom openssl message keysets validationTime turns resolution) := by
  induction turns generalizing resolution with
  | zero => exact ⟨[], .nil resolution, .failed _⟩
  | succ turns ih =>
    rw [answerLoopFrom]
    split
    · exact ⟨[], .nil resolution, .failed _⟩
    next result hop => exact ⟨[], .nil resolution, .completed hop⟩
    next edge hop =>
      dsimp only
      split
      · exact ⟨[edge], .cons hop (.nil _), .paused _⟩
      · obtain ⟨edges, follows, stops⟩ := ih (resolution.follow edge)
        exact ⟨edge :: edges, .cons hop follows, stops⟩

/-- The loop without its bound on the turns: the bound is never reached. -/
theorem answerLoop_eq (resolution : TlsaResolution) (message : Message)
    (keysets : List AuthenticatedDnskeys) (validationTime : UInt32) :
    resolution.answerLoop openssl message keysets validationTime =
      match resolution.answerHop openssl message keysets validationTime with
      | .error error => (.error error, resolution)
      | .ok (.complete result) =>
        (.ok (.complete result), { resolution with completed := true })
      | .ok (.cname edge) =>
        if !hasOwnerData message edge.target then
          (.ok (.followCname edge.target), resolution.follow edge)
        else (resolution.follow edge).answerLoop openssl message keysets validationTime := by
  rw [answerLoop, answerLoopFrom]
  cases hop : resolution.answerHop openssl message keysets validationTime with
  | error error => rfl
  | ok taken =>
    cases taken with
    | complete result => rfl
    | cname edge =>
      have below := (answerHop_eq_cname hop).2.2.1
      have turns_eq : resolution.limits.maxCnameHops - resolution.cnameChain.length =
          (resolution.follow edge).limits.maxCnameHops -
            (resolution.follow edge).cnameChain.length + 1 := by
        simp only [follow, List.length_append, List.length_singleton]
        omega
      dsimp only
      rw [answerLoop, ← turns_eq]
      rfl

/-- Consecutive edges from one owner to another. -/
def IsPath : Name → List VerifiedCname → Name → Prop
  | start, [], finish => start = finish
  | start, edge :: edges, finish => edge.owner = start ∧ IsPath edge.target edges finish

theorem isPath_append {start finish : Name} {first second : List VerifiedCname} :
    IsPath start (first ++ second) finish ↔
      ∃ middle, IsPath start first middle ∧ IsPath middle second finish := by
  induction first generalizing start with
  | nil => simp [IsPath]
  | cons edge first ih => simp [IsPath, ih, and_assoc]

/-- All that a list of taken edges says about the state they were taken from. -/
structure Extends (openssl : OpenSsl) (message : Message)
    (keysets : List AuthenticatedDnskeys) (validationTime : UInt32)
    (resolution : TlsaResolution) (edges : List VerifiedCname) (last : Name) : Prop where
  path : IsPath resolution.currentOwner edges last
  unseen : ∀ edge ∈ edges, edge.target ∉ resolution.visited
  nodup : (edges.map VerifiedCname.target).Nodup
  length_le : edges ≠ [] →
    resolution.cnameChain.length + edges.length ≤ resolution.limits.maxCnameHops
  verified : ∀ edge ∈ edges,
    EdgeVerified openssl message keysets validationTime resolution.limits.dnssec edge

theorem Follows.extends {edges : List VerifiedCname}
    (follows : Follows openssl message keysets validationTime resolution edges) :
    Extends openssl message keysets validationTime resolution edges
      (resolution.followAll edges).currentOwner := by
  induction follows with
  | nil resolution => exact ⟨rfl, by simp, by simp, by simp, by simp⟩
  | @cons resolution edge edges hop rest ih =>
    obtain ⟨owner_eq, unseen, below, verified⟩ := answerHop_eq_cname hop
    -- The state after the edge has seen its target and is one hop further.
    have later_unseen : ∀ other ∈ edges,
        other.target ∉ resolution.visited ∧ other.target ≠ edge.target := by
      intro other otherMem
      have absent := ih.unseen other otherMem
      simpa [follow] using absent
    constructor
    · exact ⟨owner_eq, ih.path⟩
    · rw [List.forall_mem_cons]
      exact ⟨unseen, fun other otherMem => (later_unseen other otherMem).1⟩
    · rw [List.map_cons, List.nodup_cons]
      refine ⟨?_, ih.nodup⟩
      intro repeated
      obtain ⟨other, otherMem, target_eq⟩ := List.mem_map.mp repeated
      exact (later_unseen other otherMem).2 target_eq
    · intro _
      rw [List.length_cons]
      by_cases ended : edges = []
      · subst ended
        exact below
      · have bound := ih.length_le ended
        simp only [follow, List.length_append, List.length_singleton] at bound
        omega
    · rw [List.forall_mem_cons]
      exact ⟨verified, ih.verified⟩

theorem followAll_eq (resolution : TlsaResolution) (edges : List VerifiedCname) :
    resolution.followAll edges = { resolution with
      visited := resolution.visited ++ edges.map VerifiedCname.target
      cnameChain := resolution.cnameChain ++ edges
      currentOwner := (resolution.followAll edges).currentOwner } := by
  induction edges generalizing resolution with
  | nil => simp [followAll]
  | cons edge edges ih =>
    have tail := ih (resolution.follow edge)
    change (resolution.follow edge).followAll edges = _
    rw [tail]
    simp [follow, followAll]

end TlsaResolution

end HnsDaneEngine.Resolver
