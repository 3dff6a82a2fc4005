import HnsDaneEngine.NamespaceResolution.Fingerprint

/-!
# Which decisions share a fingerprint input

Two decisions share what their fingerprints hash exactly if they agree in everything
but the flow labels and scopes of their endpoints.  The differences of two plans do
count these, so that decisions that differ only there are not kept apart.
-/

namespace HnsDaneEngine.NamespaceResolution

open Browser (IpAddr Ipv4Addr Ipv6Addr)
open Delimited FingerprintInput

variable {plan other : ValidatedOriginPlan}

/-! ## Differences of plans -/

namespace DivergenceMask

theorem and_eq_right_iff (mask other : UInt32) :
    mask &&& other = other ↔
      ∀ index, other.toBitVec.getLsbD index = true → mask.toBitVec.getLsbD index = true := by
  rw [← UInt32.toBitVec_inj, UInt32.toBitVec_and]
  constructor
  · intro same index set
    rw [← same, BitVec.getLsbD_and, Bool.and_eq_true] at set
    exact set.1
  · intro below
    apply BitVec.eq_of_getLsbD_eq
    intro index _
    rw [BitVec.getLsbD_and]
    cases set : other.toBitVec.getLsbD index with
    | false => exact Bool.and_false _
    | true => rw [below index set, Bool.and_true]

/-- A mask contains another and one more bit if it contains both. -/
theorem contains_setIf_iff (mask other : DivergenceMask) (bit : UInt32) (condition : Bool) :
    mask.contains (other.setIf bit condition) = true ↔
      mask.contains other = true ∧ (condition = true → mask.contains ⟨bit⟩ = true) := by
  cases condition with
  | false => simp [setIf]
  | true =>
    simp only [setIf, if_true, contains, beq_iff_eq, true_implies, and_eq_right_iff,
      UInt32.toBitVec_or, BitVec.getLsbD_or, Bool.or_eq_true]
    constructor
    · intro below
      exact ⟨fun index set => below index (.inl set), fun index set => below index (.inr set)⟩
    · rintro ⟨firstBelow, secondBelow⟩ index (set | set)
      · exact firstBelow index set
      · exact secondBelow index set

end DivergenceMask

/-- Equal up to whether the default port is explicit. -/
structure OriginQuery.SameUpToDefaultPort (first second : OriginQuery) : Prop where
  host : first.host = second.host
  scheme : first.scheme = second.scheme
  originPort : first.originPort = second.originPort
  supportedProtocols : first.supportedProtocols = second.supportedProtocols

theorem queryKey_eq_iff {first second : OriginQuery} :
    queryKey first = queryKey second ↔ first.SameUpToDefaultPort second := by
  simp only [queryKey, Prod.mk.injEq, and_assoc]
  constructor
  · rintro ⟨host, scheme, originPort, protocols⟩
    exact ⟨host, scheme, originPort, protocols⟩
  · rintro ⟨host, scheme, originPort, protocols⟩
    exact ⟨host, scheme, originPort, protocols⟩

/-- The plans have no differences other than an explicit default port in the query. -/
structure PlansAgree (plan other : ValidatedOriginPlan) : Prop where
  differences : DivergenceMask.originQuery.contains (plan.differences other) = true
  query : plan.query.SameUpToDefaultPort other.query

/-- Every compared field but the query is equal. -/
structure ValidatedOriginPlan.SameConnection (plan other : ValidatedOriginPlan) : Prop where
  aliasPath : plan.aliasPath = other.aliasPath
  terminalTarget : plan.terminalTarget = other.terminalTarget
  endpoints : plan.endpoints = other.endpoints
  endpointAliasPath : plan.endpointAliasPath = other.endpointAliasPath
  endpointTarget : plan.endpointTarget = other.endpointTarget
  service : plan.service = other.service
  tlsPolicy : plan.tlsPolicy = other.tlsPolicy
  tlsaRecords : plan.tlsaRecords = other.tlsaRecords

open DivergenceMask in
theorem contains_differences_iff :
    originQuery.contains (plan.differences other) = true ↔ plan.SameConnection other := by
  have outside : ∀ field ∈ [1, 2, 3, 4, 5, 6, 7, 8, 9, 10, 11, 12, 13, 14, 15, 16, 17],
      originQuery.contains ⟨differenceBit field⟩ = false := by
    simp only [List.forall_mem_cons, List.not_mem_nil, false_implies, implies_true, and_true]
    decide
  have own : originQuery.contains ⟨differenceBit 0⟩ = true := by decide
  have nothing : originQuery.contains DivergenceMask.none = true := by decide
  simp only [List.forall_mem_cons, List.not_mem_nil, false_implies, implies_true, and_true]
    at outside
  simp only [ValidatedOriginPlan.differences, contains_setIf_iff, outside, own, nothing,
    Bool.false_eq_true, imp_false, implies_true, true_and, bne_iff_ne, ne_eq, not_not]
  constructor
  · rintro ⟨⟨⟨⟨⟨⟨⟨⟨⟨⟨⟨⟨⟨⟨⟨⟨aliasPath, terminal⟩, endpoints⟩, priority⟩, target⟩, endpointAliasPath⟩,
      endpointTarget⟩, keys⟩, alpn⟩, protocol⟩, port⟩, transport⟩, hints⟩, ech⟩, parameters⟩,
      tlsPolicy⟩, records⟩
    refine ⟨aliasPath, terminal, endpoints, endpointAliasPath, endpointTarget, ?_, tlsPolicy,
      records⟩
    apply ServiceBinding.ext
    rcases plan with ⟨⟨_, _, _, _, _, _, _, ⟨⟨⟩, _⟩, _, _, _, _⟩, _, _, _, _, _⟩
    rcases other with ⟨⟨_, _, _, _, _, _, _, ⟨⟨⟩, _⟩, _, _, _, _⟩, _, _, _, _, _⟩
    simp only at *
    simp [*]
  · rintro ⟨aliasPath, terminal, endpoints, endpointAliasPath, endpointTarget, service, tlsPolicy,
      records⟩
    simp [*]

/-! ## Plans and absences by their root -/

variable {root : Namespace}

namespace NamespaceOutcome

def planIn : NamespaceOutcome → Namespace → Option ValidatedOriginPlan
  | .hnsOnly plan _ _, .hns => some plan
  | .icannOnly plan _ _, .icann => some plan
  | .bothConvergent _ _ hns icann, root => some (planOf root hns icann)
  | .bothDivergent _ _ hns icann _, root => some (planOf root hns icann)
  | _, _ => none

def absenceIn : NamespaceOutcome → Namespace → Option ValidatedAbsence
  | .hnsOnly _ icannAbsence _, .icann => some icannAbsence
  | .icannOnly _ hnsAbsence _, .hns => some hnsAbsence
  | .neither hns _, .hns => some hns
  | .neither _ icann, .icann => some icann
  | _, _ => none

def divergence : NamespaceOutcome → Option DivergenceMask
  | .bothDivergent _ _ _ _ differences => some differences
  | _ => none

/-- The network that the evidence of a root names. -/
def networkIn (outcome : NamespaceOutcome) : Namespace → Option HnsNetwork
  | .hns => some outcome.hnsNetwork
  | .icann => none

/-- Evidence that answers the query in a root names the network of the decision. -/
theorem provenance_network {provenance : EvidenceProvenance}
    (isFor : provenance.isFor root = true) : provenance.hnsNetwork = none ↔ root = .icann := by
  cases root <;> cases provenance <;> simp_all [EvidenceProvenance.isFor,
    EvidenceProvenance.hnsNetwork]

section

variable {query : OriginQuery} {outcome : NamespaceOutcome}

theorem hnsProvenance_network (answers : outcome.Answers query) :
    outcome.hnsProvenance.hnsNetwork = some outcome.hnsNetwork := by
  rcases answers.hnsProvenance_eq with ⟨treeRoot, height, provenance_eq⟩
  rw [provenance_eq]
  rfl

/-- A plan of the outcome belongs to its root, answers the query and names the
network. -/
theorem Answers.of_planIn (answers : outcome.Answers query)
    (held : outcome.planIn root = some plan) :
    plan.IsPlanOf root query ∧ plan.provenance.hnsNetwork = outcome.networkIn root := by
  have isPlan : plan.IsPlanOf root query := by
    cases outcome <;> cases root <;> cases held
    · exact answers.1
    · exact answers.1
    · exact answers.1
    · exact answers.2
    · exact answers.1
    · exact answers.2.1
  refine ⟨isPlan, ?_⟩
  have network := hnsProvenance_network answers
  cases root with
  | icann => exact (provenance_network (isPlan.1 ▸ plan.isFor)).mpr rfl
  | hns => cases outcome <;> cases held <;> exact network

theorem Answers.of_absenceIn (answers : outcome.Answers query)
    {absence : ValidatedAbsence} (held : outcome.absenceIn root = some absence) :
    absence.IsAbsenceIn root query ∧ absence.provenance.hnsNetwork = outcome.networkIn root := by
  have isAbsence : absence.IsAbsenceIn root query := by
    cases outcome <;> cases root <;> cases held
    · exact answers.2
    · exact answers.2
    · exact answers.1
    · exact answers.2
  refine ⟨isAbsence, ?_⟩
  have network := hnsProvenance_network answers
  cases root with
  | icann => exact (provenance_network (isAbsence.1 ▸ absence.isFor)).mpr rfl
  | hns => cases outcome <;> cases held <;> exact network

end

/-- Outcomes of one kind share what is hashed of them if they share it for both roots. -/
theorem outcomeInput_eq_iff {first second : NamespaceOutcome} (kind_eq : first.kind = second.kind) :
    outcomeInput first = outcomeInput second ↔
      (∀ root, (first.planIn root).map planKey = (second.planIn root).map planKey) ∧
        (∀ root, (first.absenceIn root).map absenceKey = (second.absenceIn root).map absenceKey) ∧
        first.divergence = second.divergence := by
  have roots : ∀ property : Namespace → Prop,
      (∀ root, property root) ↔ property .hns ∧ property .icann := by
    intro property
    constructor
    · intro always
      exact ⟨always .hns, always .icann⟩
    · rintro ⟨hns, icann⟩ root
      cases root
      · exact hns
      · exact icann
  rw [roots, roots]
  cases first <;> cases second <;> cases kind_eq <;>
    simp only [outcomeInput, planIn, absenceIn, divergence, planOf, Option.map_some,
      Option.map_none, Option.some.injEq, true_and, and_true]
  · rw [delimits_plan _ _ _ _ trivial trivial, delimits_absence.eq_iff trivial trivial]
  · rw [delimits_plan _ _ _ _ trivial trivial, delimits_absence.eq_iff trivial trivial]
  · rw [delimits_plan _ _ _ _ trivial trivial, delimits_plan.eq_iff trivial trivial]
  · rw [List.append_assoc, List.append_assoc, delimits_plan _ _ _ _ trivial trivial,
      delimits_plan _ _ _ _ trivial trivial, delimits_u32.eq_iff trivial trivial, and_assoc,
      DivergenceMask.ext_iff]
  · rw [delimits_absence _ _ _ _ trivial trivial, delimits_absence.eq_iff trivial trivial]

end NamespaceOutcome

/-! ## Agreement -/

/-- What two decisions have in common when transport state may be shared between them. -/
@[mk_iff]
structure DecisionsAgree (first second : NamespaceDecision) : Prop where
  query : first.query.SameUpToDefaultPort second.query
  policy : first.policy = second.policy
  kind : first.outcome.kind = second.outcome.kind
  selectedNamespace : first.outcome.selectedNamespace = second.outcome.selectedNamespace
  selectionReason : first.outcome.selectionReason = second.outcome.selectionReason
  hnsNetwork : first.hnsNetwork = second.hnsNetwork
  absences : ∀ root, (first.outcome.absenceIn root).map ValidatedAbsence.kind =
    (second.outcome.absenceIn root).map ValidatedAbsence.kind
  plans : ∀ root plan other, first.outcome.planIn root = some plan →
    second.outcome.planIn root = some other → PlansAgree plan other

/-- The socket address with no flow label and no scope. -/
def SocketAddr.withoutScope : SocketAddr → SocketAddr
  | .v4 ip port => .v4 ip port
  | .v6 ip port _ _ => .v6 ip port 0 0

def ValidatedOriginPlan.withoutScopes (plan : ValidatedOriginPlan) : ValidatedOriginPlan :=
  { plan with
    endpoints := plan.endpoints.map SocketAddr.withoutScope
    endpoints_le := (List.length_map SocketAddr.withoutScope).trans_le plan.endpoints_le }

def NamespaceOutcome.withoutScopes : NamespaceOutcome → NamespaceOutcome
  | .hnsOnly plan icannAbsence reason => .hnsOnly plan.withoutScopes icannAbsence reason
  | .icannOnly plan hnsAbsence reason => .icannOnly plan.withoutScopes hnsAbsence reason
  | .bothConvergent selected reason hns icann =>
    .bothConvergent selected reason hns.withoutScopes icann.withoutScopes
  | .bothDivergent selected reason hns icann differences =>
    .bothDivergent selected reason hns.withoutScopes icann.withoutScopes differences
  | .neither hns icann => .neither hns icann

def NamespaceDecision.withoutScopes (decision : NamespaceDecision) : NamespaceDecision :=
  { decision with outcome := decision.outcome.withoutScopes }

/-- The decisions carry the same divergence mask and agree once flow labels and scopes
are cleared, but the endpoints of some root are not the same. -/
structure DifferOnlyInScopes (first second : NamespaceDecision) : Prop where
  agree : DecisionsAgree first.withoutScopes second.withoutScopes
  divergence : first.outcome.divergence = second.outcome.divergence
  endpoints : ∃ root plan other, first.outcome.planIn root = some plan ∧
    second.outcome.planIn root = some other ∧ plan.endpoints ≠ other.endpoints

theorem socketKey_eq_iff {first second : SocketAddr} :
    socketKey first = socketKey second ↔ first.withoutScope = second.withoutScope := by
  cases first <;> cases second <;>
    simp [socketKey, SocketAddr.ip, SocketAddr.port, SocketAddr.withoutScope]

theorem map_socketKey_eq_iff {first second : List SocketAddr} :
    first.map socketKey = second.map socketKey ↔
      first.map SocketAddr.withoutScope = second.map SocketAddr.withoutScope := by
  induction first generalizing second with
  | nil => cases second <;> simp
  | cons endpoint endpoints ih =>
    cases second with
    | nil => simp
    | cons other others =>
      rw [List.map_cons, List.map_cons, List.map_cons, List.map_cons, List.cons.injEq,
        List.cons.injEq, socketKey_eq_iff, ih]

/-- Plans of one root that name the same network share what is hashed of them if they
agree without their scopes. -/
theorem planKey_eq_iff (root_eq : plan.namespace = other.namespace)
    (network_eq : plan.provenance.hnsNetwork = other.provenance.hnsNetwork) :
    planKey plan = planKey other ↔ PlansAgree plan.withoutScopes other.withoutScopes := by
  rw [planKey, planKey, PlanKey.mk.injEq, map_socketKey_eq_iff, queryKey_eq_iff]
  constructor
  · rintro ⟨-, -, query, aliasPath, terminal, endpointAliasPath, endpointTarget, endpoints, service,
      tlsPolicy, records⟩
    exact ⟨contains_differences_iff.mpr ⟨aliasPath, terminal, endpoints, endpointAliasPath,
      endpointTarget, service, tlsPolicy, records⟩, query⟩
  · rintro ⟨differences, query⟩
    rcases contains_differences_iff.mp differences with ⟨aliasPath, terminal, endpoints,
      endpointAliasPath, endpointTarget, service, tlsPolicy, records⟩
    exact ⟨root_eq, network_eq, query, aliasPath, terminal, endpointAliasPath, endpointTarget,
      endpoints, service, tlsPolicy, records⟩

/-- What the fields before the plans and absences show. -/
theorem decisionHeader_append_eq_iff {first second : NamespaceDecision}
    {firstRest secondRest : Octets} :
    decisionHeader first ++ firstRest = decisionHeader second ++ secondRest ↔
      (first.query.SameUpToDefaultPort second.query ∧ first.policy = second.policy ∧
        first.outcome.kind = second.outcome.kind ∧
        first.outcome.selectedNamespace = second.outcome.selectedNamespace ∧
        first.outcome.selectionReason = second.outcome.selectionReason) ∧
        firstRest = secondRest := by
  have origin : Delimits Whole (fun decision : NamespaceDecision => query decision.query)
      fun decision => queryKey decision.query :=
    delimits_query.comap NamespaceDecision.query fun _ _ => trivial
  have revision : Delimits Whole
      (fun decision : NamespaceDecision => u64 decision.policy.revision.toNat)
      fun decision => decision.policy.revision :=
    (Delimits.number (fun decision : NamespaceDecision => decision.policy.revision.toNat)
      fun decision _ => decision.policy.revision.toNat_lt).of_key
      fun _ _ _ _ => UInt64.toNat_inj.symm
  have namespaceTag := delimits_optionTag Namespace.tag_inj fun root => by cases root <;> decide
  have reasonTag := delimits_optionTag SelectionReason.tag_inj
    fun reason => by cases reason <;> decide
  have pin : Delimits Whole
      (fun decision : NamespaceDecision => optionNamespace decision.policy.explicitPin)
      fun decision => decision.policy.explicitPin :=
    namespaceTag.comap (fun decision : NamespaceDecision => decision.policy.explicitPin)
      fun _ _ => trivial
  have sticky : Delimits Whole
      (fun decision : NamespaceDecision => optionNamespace decision.policy.stickyBinding)
      fun decision => decision.policy.stickyBinding :=
    namespaceTag.comap (fun decision : NamespaceDecision => decision.policy.stickyBinding)
      fun _ _ => trivial
  have precedence : Delimits Whole
      (fun decision : NamespaceDecision => [decision.policy.defaultPrecedence.tag])
      fun decision => decision.policy.defaultPrecedence :=
    Delimits.octet fun _ _ => DefaultPrecedence.tag_inj _ _
  have kind : Delimits Whole (fun decision : NamespaceDecision => [decision.outcome.kind.tag])
      fun decision => decision.outcome.kind :=
    Delimits.octet fun _ _ => OutcomeKind.tag_inj _ _
  have selected : Delimits Whole
      (fun decision : NamespaceDecision => optionNamespace decision.outcome.selectedNamespace)
      fun decision => decision.outcome.selectedNamespace :=
    namespaceTag.comap (fun decision : NamespaceDecision => decision.outcome.selectedNamespace)
      fun _ _ => trivial
  have reason : Delimits Whole
      (fun decision : NamespaceDecision => optionSelectionReason decision.outcome.selectionReason)
      fun decision => decision.outcome.selectionReason :=
    reasonTag.comap (fun decision : NamespaceDecision => decision.outcome.selectionReason)
      fun _ _ => trivial
  have fields := ((((((origin.append revision).append pin).append sticky).append
    precedence).append kind).append selected).append reason
  have framed := fields first second firstRest secondRest trivial trivial
  have policy_eq_iff : first.policy = second.policy ↔
      first.policy.revision = second.policy.revision ∧
        first.policy.explicitPin = second.policy.explicitPin ∧
        first.policy.stickyBinding = second.policy.stickyBinding ∧
        first.policy.defaultPrecedence = second.policy.defaultPrecedence := by
    rcases first with ⟨_, ⟨⟩, _⟩
    rcases second with ⟨_, ⟨⟩, _⟩
    simp only [SelectionPolicy.mk.injEq]
    constructor
    · rintro ⟨pin, sticky, precedence, revision⟩
      exact ⟨revision, pin, sticky, precedence⟩
    · rintro ⟨revision, pin, sticky, precedence⟩
      exact ⟨pin, sticky, precedence, revision⟩
  rw [policy_eq_iff, ← queryKey_eq_iff, decisionHeader, decisionHeader, framed]
  simp only [Prod.mk.injEq, and_assoc]

/-! ## The input of the fingerprint -/

section

variable {first second : NamespaceDecision}

theorem planIn_withoutScopes (outcome : NamespaceOutcome) (root : Namespace) :
    outcome.withoutScopes.planIn root =
      (outcome.planIn root).map ValidatedOriginPlan.withoutScopes := by
  cases outcome <;> cases root <;> rfl

theorem absenceIn_withoutScopes (outcome : NamespaceOutcome) (root : Namespace) :
    outcome.withoutScopes.absenceIn root = outcome.absenceIn root := by
  cases outcome <;> cases root <;> rfl

/-! Clearing scopes changes nothing but endpoints. -/

@[simp] theorem kind_withoutScopes (outcome : NamespaceOutcome) :
    outcome.withoutScopes.kind = outcome.kind := by
  cases outcome <;> rfl

@[simp] theorem selectedNamespace_withoutScopes (outcome : NamespaceOutcome) :
    outcome.withoutScopes.selectedNamespace = outcome.selectedNamespace := by
  cases outcome <;> rfl

@[simp] theorem selectionReason_withoutScopes (outcome : NamespaceOutcome) :
    outcome.withoutScopes.selectionReason = outcome.selectionReason := by
  cases outcome <;> rfl

@[simp] theorem hnsNetwork_withoutScopes (outcome : NamespaceOutcome) :
    outcome.withoutScopes.hnsNetwork = outcome.hnsNetwork := by
  cases outcome <;> rfl

/-- Outcomes of one kind have plans for the same roots. -/
theorem planIn_isSome_eq {first second : NamespaceOutcome} (kind_eq : first.kind = second.kind)
    (root : Namespace) : (first.planIn root).isSome = (second.planIn root).isSome := by
  cases first <;> cases second <;> cases kind_eq <;> cases root <;> rfl

theorem absenceIn_isSome_eq {first second : NamespaceOutcome} (kind_eq : first.kind = second.kind)
    (root : Namespace) : (first.absenceIn root).isSome = (second.absenceIn root).isSome := by
  cases first <;> cases second <;> cases kind_eq <;> cases root <;> rfl

/-- The keys of the plans in a root agree if the plans do without their scopes. -/
theorem map_planKey_eq_iff {query other : OriginQuery} {first second : NamespaceOutcome}
    (firstAnswers : first.Answers query) (secondAnswers : second.Answers other)
    (kind_eq : first.kind = second.kind) (network_eq : first.hnsNetwork = second.hnsNetwork)
    (root : Namespace) :
    (first.planIn root).map planKey = (second.planIn root).map planKey ↔
      ∀ plan other, first.withoutScopes.planIn root = some plan →
        second.withoutScopes.planIn root = some other → PlansAgree plan other := by
  have both := planIn_isSome_eq kind_eq root
  rw [planIn_withoutScopes, planIn_withoutScopes]
  cases firstPlan : first.planIn root with
  | none =>
    cases secondPlan : second.planIn root with
    | none => simp
    | some other => simp [firstPlan, secondPlan] at both
  | some plan =>
    cases secondPlan : second.planIn root with
    | none => simp [firstPlan, secondPlan] at both
    | some other =>
      have planSpec := firstAnswers.of_planIn firstPlan
      have otherSpec := secondAnswers.of_planIn secondPlan
      have same : plan.provenance.hnsNetwork = other.provenance.hnsNetwork := by
        rw [planSpec.2, otherSpec.2]
        cases root
        · exact congrArg some network_eq
        · rfl
      simp [planKey_eq_iff (planSpec.1.1.trans otherSpec.1.1.symm) same]

/-- The keys of the absences in a root agree if their kinds do. -/
theorem map_absenceKey_eq_iff {query other : OriginQuery} {first second : NamespaceOutcome}
    (firstAnswers : first.Answers query) (secondAnswers : second.Answers other)
    (query_eq : query.SameUpToDefaultPort other)
    (kind_eq : first.kind = second.kind) (network_eq : first.hnsNetwork = second.hnsNetwork)
    (root : Namespace) :
    (first.absenceIn root).map absenceKey = (second.absenceIn root).map absenceKey ↔
      (first.absenceIn root).map ValidatedAbsence.kind =
        (second.absenceIn root).map ValidatedAbsence.kind := by
  have both := absenceIn_isSome_eq kind_eq root
  cases firstAbsence : first.absenceIn root with
  | none =>
    cases secondAbsence : second.absenceIn root with
    | none => simp
    | some other => simp
  | some absence =>
    cases secondAbsence : second.absenceIn root with
    | none => simp
    | some other =>
      have absenceSpec := firstAnswers.of_absenceIn firstAbsence
      have otherSpec := secondAnswers.of_absenceIn secondAbsence
      have same : absence.provenance.hnsNetwork = other.provenance.hnsNetwork := by
        rw [absenceSpec.2, otherSpec.2]
        cases root
        · exact congrArg some network_eq
        · rfl
      have root_eq := absenceSpec.1.1.trans otherSpec.1.1.symm
      have key_eq : queryKey absence.query = queryKey other.query := by
        rw [absenceSpec.1.2, otherSpec.1.2]
        exact queryKey_eq_iff.mpr query_eq
      simp [absenceKey, root_eq, same, key_eq]

/-- Equal keys for the HNS root mean one network. -/
theorem hnsNetwork_eq_of_keys {query other : OriginQuery} {first second : NamespaceOutcome}
    (firstAnswers : first.Answers query) (secondAnswers : second.Answers other)
    (plans : (first.planIn .hns).map planKey = (second.planIn .hns).map planKey)
    (absences : (first.absenceIn .hns).map absenceKey = (second.absenceIn .hns).map absenceKey) :
    first.hnsNetwork = second.hnsNetwork := by
  have firstNetwork := NamespaceOutcome.hnsProvenance_network firstAnswers
  have secondNetwork := NamespaceOutcome.hnsProvenance_network secondAnswers
  have provenance_eq : first.hnsProvenance.hnsNetwork = second.hnsProvenance.hnsNetwork := by
    cases firstPlan : first.planIn .hns with
    | some plan =>
      cases secondPlan : second.planIn .hns with
      | none => simp [firstPlan, secondPlan] at plans
      | some other =>
        rw [firstPlan, secondPlan] at plans
        have network_eq := congrArg PlanKey.network (Option.some.inj plans)
        rw [firstNetwork, secondNetwork]
        exact ((firstAnswers.of_planIn firstPlan).2.symm.trans network_eq).trans
          (secondAnswers.of_planIn secondPlan).2
    | none =>
      cases firstAbsence : first.absenceIn .hns with
      | none => cases first <;> simp_all [NamespaceOutcome.planIn, NamespaceOutcome.absenceIn]
      | some absence =>
        cases secondAbsence : second.absenceIn .hns with
        | none => simp [firstAbsence, secondAbsence] at absences
        | some other =>
          rw [firstAbsence, secondAbsence] at absences
          have network_eq : absence.provenance.hnsNetwork = other.provenance.hnsNetwork :=
            congrArg (fun key => key.1.1.2) (Option.some.inj absences)
          rw [firstNetwork, secondNetwork]
          exact ((firstAnswers.of_absenceIn firstAbsence).2.symm.trans network_eq).trans
            (secondAnswers.of_absenceIn secondAbsence).2
  rw [firstNetwork, secondNetwork] at provenance_eq
  exact Option.some.inj provenance_eq

/-- Without scopes, decisions agree in what clearing the scopes leaves and in their plans. -/
theorem decisionsAgree_withoutScopes_iff :
    DecisionsAgree first.withoutScopes second.withoutScopes ↔
      first.query.SameUpToDefaultPort second.query ∧ first.policy = second.policy ∧
        first.outcome.kind = second.outcome.kind ∧
        first.outcome.selectedNamespace = second.outcome.selectedNamespace ∧
        first.outcome.selectionReason = second.outcome.selectionReason ∧
        first.hnsNetwork = second.hnsNetwork ∧
        (∀ root, (first.outcome.absenceIn root).map ValidatedAbsence.kind =
          (second.outcome.absenceIn root).map ValidatedAbsence.kind) ∧
        ∀ root plan other, first.withoutScopes.outcome.planIn root = some plan →
          second.withoutScopes.outcome.planIn root = some other → PlansAgree plan other := by
  rw [decisionsAgree_iff]
  simp [NamespaceDecision.withoutScopes, NamespaceDecision.hnsNetwork, absenceIn_withoutScopes]

/-- What is hashed of two decisions is equal exactly if they agree without scopes and
carry the same divergence mask. -/
theorem decisionInput_eq_iff (firstDecided : first.Decided) (secondDecided : second.Decided) :
    decisionInput first = decisionInput second ↔
      DecisionsAgree first.withoutScopes second.withoutScopes ∧
        first.outcome.divergence = second.outcome.divergence := by
  have firstAnswers := firstDecided.answers
  have secondAnswers := secondDecided.answers
  rw [decisionInput, decisionInput, List.append_cancel_left_eq, decisionHeader_append_eq_iff,
    decisionsAgree_withoutScopes_iff]
  constructor
  · rintro ⟨⟨query, policy, kind, selected, reason⟩, outcomes⟩
    rcases (NamespaceOutcome.outcomeInput_eq_iff kind).mp outcomes with ⟨plans, absences, masks⟩
    have network := hnsNetwork_eq_of_keys firstAnswers secondAnswers (plans .hns) (absences .hns)
    refine ⟨⟨query, policy, kind, selected, reason, network, fun root => ?_, fun root => ?_⟩,
      masks⟩
    · exact (map_absenceKey_eq_iff firstAnswers secondAnswers query kind network root).mp
        (absences root)
    · exact (map_planKey_eq_iff firstAnswers secondAnswers kind network root).mp (plans root)
  · rintro ⟨⟨query, policy, kind, selected, reason, network, absences, plans⟩, masks⟩
    refine ⟨⟨query, policy, kind, selected, reason⟩, ?_⟩
    refine (NamespaceOutcome.outcomeInput_eq_iff kind).mpr ⟨fun root => ?_, fun root => ?_, masks⟩
    · exact (map_planKey_eq_iff firstAnswers secondAnswers kind network root).mpr (plans root)
    · exact (map_absenceKey_eq_iff firstAnswers secondAnswers query kind network root).mpr
        (absences root)

/-! ## Flow labels and scopes -/

/-- Clearing scopes changes nothing but endpoints in a plan. -/
theorem sameConnection_iff_withoutScopes :
    plan.SameConnection other ↔
      plan.withoutScopes.SameConnection other.withoutScopes ∧ plan.endpoints = other.endpoints := by
  constructor
  · rintro ⟨aliasPath, terminal, endpoints, endpointAliasPath, endpointTarget, service, tlsPolicy,
      records⟩
    have cleared := congrArg (List.map SocketAddr.withoutScope) endpoints
    exact ⟨⟨aliasPath, terminal, cleared, endpointAliasPath, endpointTarget, service, tlsPolicy,
      records⟩, endpoints⟩
  · rintro ⟨⟨aliasPath, terminal, -, endpointAliasPath, endpointTarget, service, tlsPolicy,
      records⟩, endpoints⟩
    exact ⟨aliasPath, terminal, endpoints, endpointAliasPath, endpointTarget, service, tlsPolicy,
      records⟩

theorem plansAgree_iff_withoutScopes :
    PlansAgree plan other ↔
      PlansAgree plan.withoutScopes other.withoutScopes ∧ plan.endpoints = other.endpoints := by
  constructor
  · rintro ⟨differences, query⟩
    rcases sameConnection_iff_withoutScopes.mp (contains_differences_iff.mp differences) with
      ⟨cleared, endpoints⟩
    exact ⟨⟨contains_differences_iff.mpr cleared, query⟩, endpoints⟩
  · rintro ⟨⟨differences, query⟩, endpoints⟩
    have same := sameConnection_iff_withoutScopes.mpr
      ⟨contains_differences_iff.mp differences, endpoints⟩
    exact ⟨contains_differences_iff.mpr same, query⟩

/-- The endpoints of the plans of every root are the same. -/
def SameEndpoints (first second : NamespaceDecision) : Prop :=
  ∀ root plan other, first.outcome.planIn root = some plan →
    second.outcome.planIn root = some other → plan.endpoints = other.endpoints

theorem decisionsAgree_iff_withoutScopes :
    DecisionsAgree first second ↔
      DecisionsAgree first.withoutScopes second.withoutScopes ∧ SameEndpoints first second := by
  have plans_iff : (∀ root plan other, first.outcome.planIn root = some plan →
      second.outcome.planIn root = some other → PlansAgree plan other) ↔
      (∀ root plan other, first.withoutScopes.outcome.planIn root = some plan →
        second.withoutScopes.outcome.planIn root = some other → PlansAgree plan other) ∧
        SameEndpoints first second := by
    simp only [NamespaceDecision.withoutScopes, planIn_withoutScopes, Option.map_eq_some_iff]
    constructor
    · intro agree
      constructor
      · rintro root _ _ ⟨plan, held, rfl⟩ ⟨other, otherHeld, rfl⟩
        exact (plansAgree_iff_withoutScopes.mp (agree root plan other held otherHeld)).1
      · intro root plan other held otherHeld
        exact (plansAgree_iff_withoutScopes.mp (agree root plan other held otherHeld)).2
    · rintro ⟨cleared, endpoints⟩ root plan other held otherHeld
      have clearedAgree := cleared root _ _ ⟨plan, held, rfl⟩ ⟨other, otherHeld, rfl⟩
      exact plansAgree_iff_withoutScopes.mpr
        ⟨clearedAgree, endpoints root plan other held otherHeld⟩
  rw [decisionsAgree_iff, decisionsAgree_withoutScopes_iff, plans_iff]
  simp only [and_assoc]

/-- The differences of two plans depend on their connections and on whether their
queries are equal. -/
theorem differences_congr {plan' other' : ValidatedOriginPlan}
    (same : plan.SameConnection plan') (otherSame : other.SameConnection other')
    (query_eq : plan.query = other.query) (query_eq' : plan'.query = other'.query) :
    plan.differences other = plan'.differences other' := by
  rw [ValidatedOriginPlan.differences, ValidatedOriginPlan.differences, query_eq, query_eq',
    same.aliasPath, same.terminalTarget, same.endpoints, same.endpointAliasPath,
    same.endpointTarget, same.service, same.tlsPolicy, same.tlsaRecords, otherSame.aliasPath,
    otherSame.terminalTarget, otherSame.endpoints, otherSame.endpointAliasPath,
    otherSame.endpointTarget, otherSame.service, otherSame.tlsPolicy, otherSame.tlsaRecords,
    bne_self_eq_false, bne_self_eq_false]

/-- Decisions that agree carry the same divergence mask. -/
theorem DecisionsAgree.divergence_eq (agree : DecisionsAgree first second)
    (firstDecided : first.Decided) (secondDecided : second.Decided) :
    first.outcome.divergence = second.outcome.divergence := by
  have firstAnswers := firstDecided.answers
  have secondAnswers := secondDecided.answers
  have kind := agree.kind
  have plans := agree.plans
  cases firstOutcome : first.outcome with
  | bothDivergent selected reason hns icann differences =>
    cases secondOutcome : second.outcome with
    | bothDivergent selected' reason' hns' icann' differences' =>
      rw [firstOutcome] at firstAnswers plans
      rw [secondOutcome] at secondAnswers plans
      rcases firstAnswers with ⟨⟨-, hnsQuery⟩, ⟨-, icannQuery⟩, mask_eq⟩
      rcases secondAnswers with ⟨⟨-, hnsQuery'⟩, ⟨-, icannQuery'⟩, mask_eq'⟩
      have hnsSame := contains_differences_iff.mp (plans .hns hns hns' rfl rfl).differences
      have icannSame :=
        contains_differences_iff.mp (plans .icann icann icann' rfl rfl).differences
      rw [NamespaceOutcome.divergence, NamespaceOutcome.divergence, mask_eq, mask_eq',
        differences_congr hnsSame icannSame (hnsQuery.trans icannQuery.symm)
          (hnsQuery'.trans icannQuery'.symm)]
    | _ => rw [firstOutcome, secondOutcome] at kind; cases kind
  | _ =>
    cases secondOutcome : second.outcome <;> rw [firstOutcome, secondOutcome] at kind <;>
      first | rfl | cases kind

/-- What is hashed of two decisions is equal exactly if they agree, unless they differ
in nothing but the flow labels and scopes of their endpoints. -/
theorem decisionInput_separates_iff (firstDecided : first.Decided)
    (secondDecided : second.Decided) :
    (decisionInput first = decisionInput second ↔ DecisionsAgree first second) ↔
      ¬DifferOnlyInScopes first second := by
  rw [decisionInput_eq_iff firstDecided secondDecided]
  constructor
  · rintro separates ⟨cleared, masks, root, plan, other, held, otherHeld, differ⟩
    have agree := separates.mp ⟨cleared, masks⟩
    exact differ ((decisionsAgree_iff_withoutScopes.mp agree).2 root plan other held otherHeld)
  · intro notScopes
    constructor
    · rintro ⟨cleared, masks⟩
      refine decisionsAgree_iff_withoutScopes.mpr ⟨cleared, ?_⟩
      intro root plan other held otherHeld
      by_contra differ
      exact notScopes ⟨cleared, masks, root, plan, other, held, otherHeld, differ⟩
    · intro agree
      exact ⟨(decisionsAgree_iff_withoutScopes.mp agree).1,
        agree.divergence_eq firstDecided secondDecided⟩

end


/-! ## Link-local endpoints -/

theorem linkLocalHost_length_le : [(97 : UInt8)].length ≤ maxHostBytes := by decide

/-- The host `a`. -/
def linkLocalHost : CanonicalHost := ⟨[97], linkLocalHost_length_le⟩

/-- `http://a/` for a browser that speaks HTTP/1.1. -/
def linkLocalQuery : OriginQuery :=
  ⟨linkLocalHost, .http, none, ⟨true, false, false, ProtocolCapabilities.http11_nonempty⟩⟩

def linkLocalServiceInput : ServiceBindingInput where
  priority := none
  serviceTarget := linkLocalHost
  mandatoryKeys := []
  advertisedAlpn := []
  selectedProtocol := .http11
  effectivePort := linkLocalQuery.originPort
  transport := .tcp
  connectionHints := []
  echConfig := none
  parameters := []

theorem linkLocalServiceInput_bounded : linkLocalServiceInput.Bounded := by
  refine ⟨by decide, by decide, by decide, by decide, ?_, ?_⟩
  · rintro identifier ⟨⟩
  · rintro value ⟨⟩

theorem linkLocalProvenance_agrees : absenceAgrees .icann .icannInsecureNxDomain
    (.icannDoh .provenInsecure) = true := rfl

theorem linkLocalFreshness_nonempty : 0 < 60 := by decide

/-- A plan for `fe80::1` in one of the scopes of the machine. -/
def linkLocalInput (scopeId : UInt32) : OriginPlanInput where
  «namespace» := .hns
  query := linkLocalQuery
  aliasPath := []
  terminalTarget := linkLocalHost
  endpointAliasPath := []
  endpointTarget := linkLocalHost
  endpoints := [.v6 ⟨0xfe80, 0, 0, 0, 0, 0, 0, 1⟩ 80 0 scopeId]
  service := ⟨linkLocalServiceInput, linkLocalServiceInput_bounded⟩
  tlsPolicy := .cleartext
  tlsaRecords := []
  provenance := .hns .mainnet (List.replicate 32 0) 1
  freshness := ⟨0, 60, linkLocalFreshness_nonempty⟩

variable (scopeId : UInt32)

theorem linkLocalInput_isFor :
    (linkLocalInput scopeId).provenance.isFor (linkLocalInput scopeId).namespace = true := rfl

theorem linkLocalInput_aliases :
    (linkLocalInput scopeId).aliasPath.length ≤ maxAliasSteps := Nat.zero_le _

theorem linkLocalInput_endpointAliases :
    (linkLocalInput scopeId).endpointAliasPath.length ≤ maxAliasSteps := Nat.zero_le _

theorem linkLocalInput_endpoints : (linkLocalInput scopeId).endpoints.length ≤ maxEndpoints :=
  show 1 ≤ 32 by decide

theorem linkLocalInput_records :
    (linkLocalInput scopeId).tlsaRecords.length ≤ maxTlsaRecords := Nat.zero_le _

def linkLocalPlan (scopeId : UInt32) : ValidatedOriginPlan where
  toOriginPlanInput := linkLocalInput scopeId
  isFor := linkLocalInput_isFor scopeId
  aliasPath_le := linkLocalInput_aliases scopeId
  endpointAliasPath_le := linkLocalInput_endpointAliases scopeId
  endpoints_le := linkLocalInput_endpoints scopeId
  tlsaRecords_le := linkLocalInput_records scopeId

def linkLocalAbsence : ValidatedAbsence :=
  ⟨.icann, linkLocalQuery, .icannInsecureNxDomain, .icannDoh .provenInsecure,
    ⟨0, 60, linkLocalFreshness_nonempty⟩, linkLocalProvenance_agrees⟩

/-- The HNS plan alone is present. -/
def linkLocalDecision (scopeId : UInt32) : NamespaceDecision where
  query := linkLocalQuery
  policy := ⟨none, none, .preferIcann, 0⟩
  outcome := .hnsOnly (linkLocalPlan scopeId) linkLocalAbsence .singleRoot

theorem linkLocalDecision_decided : (linkLocalDecision scopeId).Decided :=
  ⟨linkLocalQuery, .present (linkLocalPlan scopeId), .absent linkLocalAbsence,
    ⟨none, none, .preferIcann, 0⟩, 1, rfl⟩

/-- Validated plans for `fe80::1` in scopes 1 and 2 differ in their endpoints and share
the input of the fingerprint. -/
theorem decisionInput_shared_by_scopes :
    ValidatedOriginPlan.new (linkLocalInput 1) = .ok (linkLocalPlan 1) ∧
      ValidatedOriginPlan.new (linkLocalInput 2) = .ok (linkLocalPlan 2) ∧
      (linkLocalDecision 1).Decided ∧ (linkLocalDecision 2).Decided ∧
      decisionInput (linkLocalDecision 1) = decisionInput (linkLocalDecision 2) ∧
      ¬DecisionsAgree (linkLocalDecision 1) (linkLocalDecision 2) := by
  refine ⟨by decide +kernel, by decide +kernel, linkLocalDecision_decided 1,
    linkLocalDecision_decided 2, rfl, ?_⟩
  intro agree
  have same := contains_differences_iff.mp
    (agree.plans .hns (linkLocalPlan 1) (linkLocalPlan 2) rfl rfl).differences
  have endpoints := same.endpoints
  simp [linkLocalPlan, linkLocalInput] at endpoints

/-- The decisions for the two scopes are not kept apart. -/
theorem decisionInput_separates_iff_scopes :
    (decisionInput (linkLocalDecision 1) = decisionInput (linkLocalDecision 2) ↔
      DecisionsAgree (linkLocalDecision 1) (linkLocalDecision 2)) ↔
      ¬DifferOnlyInScopes (linkLocalDecision 1) (linkLocalDecision 2) :=
  decisionInput_separates_iff (linkLocalDecision_decided 1) (linkLocalDecision_decided 2)

end HnsDaneEngine.NamespaceResolution
