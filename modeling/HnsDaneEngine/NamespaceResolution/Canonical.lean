import HnsDaneEngine.Data.KeyOrder
import HnsDaneEngine.NamespaceResolution.Plan

/-!
# Accepted plans

The aliases of an accepted plan form one walk without repetition from the origin to the
owner of the addresses.  Bindings and plans do not depend on the order in which records
came, because whatever has no order is sorted before it is looked at.
-/

namespace HnsDaneEngine.NamespaceResolution

open Browser (IpAddr Ipv4Addr Ipv6Addr)
open Data

/-- Every step starts where the previous one ended. -/
def LeadsTo (owner : CanonicalHost) : List AliasStep → CanonicalHost → Prop
  | [], terminal => owner = terminal
  | step :: steps, terminal => step.owner = owner ∧ LeadsTo step.target steps terminal

variable {owner terminal : CanonicalHost} {steps : List AliasStep} {seen : List CanonicalHost}

theorem LeadsTo.terminal_mem (leads : LeadsTo owner steps terminal) :
    terminal ∈ owner :: steps.map AliasStep.target := by
  induction steps generalizing owner with
  | nil =>
    rw [leads]
    exact List.mem_cons_self
  | cons step steps ih => exact List.mem_cons_of_mem _ (ih leads.2)

theorem targetsAreNew_iff (distinct : seen.Nodup) :
    targetsAreNew seen steps = true ↔ (seen ++ steps.map AliasStep.target).Nodup := by
  induction steps generalizing seen with
  | nil => simpa [targetsAreNew] using distinct
  | cons step steps ih =>
    have targets_eq : seen ++ (step :: steps).map AliasStep.target =
        (seen ++ [step.target]) ++ steps.map AliasStep.target := by
      simp
    rw [targetsAreNew, targets_eq]
    by_cases visited : step.target ∈ seen
    · have repeated : ¬ (seen ++ [step.target] ++ steps.map AliasStep.target).Nodup := by
        intro nodup
        have front := List.Nodup.of_append_left nodup
        exact (List.nodup_append.mp front).2.2 step.target visited step.target
          List.mem_cons_self rfl
      constructor
      · intro allNew
        simp [visited] at allNew
      · intro nodup
        exact absurd nodup repeated
    · have longer : (seen ++ [step.target]).Nodup :=
        List.nodup_append_comm.mp (List.nodup_cons.mpr ⟨visited, distinct⟩)
      rw [← ih longer]
      simp [visited]

theorem aliasPathAgrees_iff :
    aliasPathAgrees owner seen steps terminal = true ↔
      LeadsTo owner steps terminal ∧ targetsAreNew seen steps = true := by
  induction steps generalizing owner seen with
  | nil => simp [aliasPathAgrees, LeadsTo, targetsAreNew]
  | cons step steps ih =>
    rw [aliasPathAgrees, LeadsTo, targetsAreNew, Bool.and_eq_true, Bool.and_eq_true, ih,
      beq_iff_eq, Bool.and_eq_true]
    tauto

theorem validateAliasPath_iff {origin : CanonicalHost} :
    validateAliasPath origin steps terminal = true ↔
      LeadsTo origin steps terminal ∧ (origin :: steps.map AliasStep.target).Nodup := by
  rw [validateAliasPath, aliasPathAgrees_iff, targetsAreNew_iff (List.nodup_singleton origin)]
  rfl

namespace OriginPlanInput

/-- The hosts from the origin to the terminal target. -/
def originHosts (input : OriginPlanInput) : List CanonicalHost :=
  input.query.host :: input.aliasPath.map AliasStep.target

/-- The service target unless the aliases of the origin have led to it. -/
def seam (input : OriginPlanInput) : List CanonicalHost :=
  if input.service.serviceTarget = input.terminalTarget then [] else [input.service.serviceTarget]

/-- The hosts from the origin to the owner of the addresses, the service target once. -/
def walk (input : OriginPlanInput) : List CanonicalHost :=
  input.originHosts ++ input.seam ++ input.endpointAliasPath.map AliasStep.target

variable {input : OriginPlanInput}

/-- The hosts that `validate_plan_aliases` has seen before the aliases of the endpoints. -/
theorem seen_eq (leads : LeadsTo input.query.host input.aliasPath input.terminalTarget)
    (apart : input.service.serviceTarget = input.terminalTarget ∨
      input.service.serviceTarget ∉ input.originHosts) :
    (if input.originHosts.contains input.service.serviceTarget then input.originHosts
      else input.originHosts ++ [input.service.serviceTarget]) =
      input.originHosts ++ input.seam := by
  by_cases terminal : input.service.serviceTarget = input.terminalTarget
  · have seen : input.service.serviceTarget ∈ input.originHosts := by
      rw [terminal]
      exact leads.terminal_mem
    rw [seam, if_pos terminal, if_pos (by simpa using seen), List.append_nil]
  · have notSeen := apart.resolve_left terminal
    rw [seam, if_neg terminal, if_neg (by simpa using notSeen)]

/-- The walk up to the service target repeats no host. -/
theorem nodup_seen_iff :
    (input.originHosts ++ input.seam).Nodup ↔ input.originHosts.Nodup ∧
      (input.service.serviceTarget = input.terminalTarget ∨
        input.service.serviceTarget ∉ input.originHosts) := by
  unfold seam
  split
  next terminal => simp [terminal]
  next other =>
    rw [List.nodup_append_comm, List.singleton_append, List.nodup_cons]
    tauto

/-- The aliases of the endpoints do not lead back to the service target. -/
theorem nodup_endpointHosts
    (leads : LeadsTo input.query.host input.aliasPath input.terminalTarget)
    (nodup : input.walk.Nodup) :
    (input.service.serviceTarget :: input.endpointAliasPath.map AliasStep.target).Nodup := by
  have seen : input.service.serviceTarget ∈ input.originHosts ++ input.seam := by
    unfold seam
    split
    next terminal =>
      rw [terminal, List.append_nil]
      exact leads.terminal_mem
    next => simp
  rcases List.nodup_append.mp nodup with ⟨-, endpoints, apart⟩
  rw [List.nodup_cons]
  exact ⟨fun member => apart _ seen _ member rfl, endpoints⟩

/-- The aliases agree exactly when they form one walk that visits no host twice. -/
theorem aliasesAgree_iff :
    input.aliasesAgree = true ↔ LeadsTo input.query.host input.aliasPath input.terminalTarget ∧
        LeadsTo input.service.serviceTarget input.endpointAliasPath input.endpointTarget ∧
        (∀ step ∈ input.endpointAliasPath, step.kind = .cname) ∧ input.walk.Nodup := by
  have apart_iff : (!(input.service.serviceTarget != input.terminalTarget &&
      input.originHosts.contains input.service.serviceTarget)) = true ↔
        input.service.serviceTarget = input.terminalTarget ∨
          input.service.serviceTarget ∉ input.originHosts := by
    simp
  unfold aliasesAgree
  change (_ && _ && _ && !(_ && input.originHosts.contains _) && targetsAreNew
    (if input.originHosts.contains _ then input.originHosts else _) _) = true ↔ _
  rw [Bool.and_eq_true, Bool.and_eq_true, Bool.and_eq_true, Bool.and_eq_true, apart_iff,
    validateAliasPath_iff, validateAliasPath_iff, List.all_eq_true]
  simp only [beq_iff_eq]
  constructor
  · rintro ⟨⟨⟨⟨⟨leads, origin⟩, cnames⟩, leadsOn, -⟩, apart⟩, allNew⟩
    change targetsAreNew (if input.originHosts.contains _ then input.originHosts
      else input.originHosts ++ _) _ = true at allNew
    rw [seen_eq leads apart, targetsAreNew_iff (nodup_seen_iff.mpr ⟨origin, apart⟩)] at allNew
    exact ⟨leads, leadsOn, cnames, allNew⟩
  · rintro ⟨leads, leadsOn, cnames, nodup⟩
    have seen := List.Nodup.of_append_left nodup
    rcases nodup_seen_iff.mp seen with ⟨origin, apart⟩
    refine ⟨⟨⟨⟨⟨leads, origin⟩, cnames⟩, leadsOn, nodup_endpointHosts leads nodup⟩, apart⟩, ?_⟩
    change targetsAreNew (if input.originHosts.contains _ then input.originHosts
      else input.originHosts ++ _) _ = true
    rw [seen_eq leads apart, targetsAreNew_iff seen]
    exact nodup

end OriginPlanInput

variable {α : Type} {items : List α}

theorem sortByKey_eq_of_perm {key : α → List Nat} (injective : key.Injective) {others : List α}
    (perm : items.Perm others) : sortByKey key items = sortByKey key others :=
  sortBy_eq_of_perm perm fun _ _ _ _ same => injective same

theorem sortByKey_eq {key : α → List Nat} {others : List α} (perm : items.Perm others)
    (ascending : others.Pairwise fun first second => key first < key second) :
    sortByKey key items = others :=
  sortBy_eq perm ascending

theorem mem_destutter'_ne [DecidableEq α] {item first : α} {rest : List α} :
    item ∈ rest.destutter' (· ≠ ·) first ↔ item ∈ first :: rest := by
  induction rest generalizing first with
  | nil => simp
  | cons second rest ih =>
    rw [List.destutter'_cons]
    split
    next => rw [List.mem_cons, ih, List.mem_cons (b := first)]
    next same =>
      rw [ih, Decidable.not_not.mp same]
      simp

/-- Dropping equal neighbours drops no item. -/
theorem mem_dedup [DecidableEq α] {item : α} : item ∈ dedup items ↔ item ∈ items := by
  cases items with
  | nil => rfl
  | cons first rest => exact mem_destutter'_ne

theorem map_toNat_injective : Function.Injective (List.map UInt8.toNat) :=
  List.map_injective_iff.mpr fun _ _ => UInt8.toNat_inj.mp

theorem uint16Key_injective : Function.Injective fun key : UInt16 => [key.toNat] := by
  intro first second same
  exact UInt16.toNat_inj.mp (List.singleton_inj.mp same)

theorem ipSortKey_injective : Function.Injective ipSortKey := by
  intro first second same
  cases first with
  | v4 address =>
    cases second with
    | v4 other =>
      have octets := map_toNat_injective (List.cons.inj same).2
      rw [Ipv4Addr.octets_inj.mp octets]
    | v6 other => simp [ipSortKey] at same
  | v6 address =>
    cases second with
    | v4 other => simp [ipSortKey] at same
    | v6 other =>
      have octets := map_toNat_injective (List.cons.inj same).2
      rw [Ipv6Addr.octets_inj.mp octets]

theorem ServiceParameter.sortKey_injective : Function.Injective sortKey := by
  intro first second same
  rcases List.cons.inj same with ⟨key, value⟩
  exact ServiceParameter.ext (UInt16.toNat_inj.mp key) (map_toNat_injective value)

theorem SocketAddr.sortKey_injective : Function.Injective sortKey := by
  intro first second same
  cases first with
  | v4 ip port =>
    cases second with
    | v4 otherIp otherPort =>
      rcases List.append_inj' same rfl with ⟨ip_eq, port_eq⟩
      cases ipSortKey_injective ip_eq
      rw [UInt16.toNat_inj.mp (List.singleton_inj.mp port_eq)]
    | v6 otherIp otherPort flowinfo scopeId => simp [sortKey, ipSortKey] at same
  | v6 ip port flowinfo scopeId =>
    cases second with
    | v4 otherIp otherPort => simp [sortKey, ipSortKey] at same
    | v6 otherIp otherPort otherFlowinfo otherScopeId =>
      rcases List.append_inj' same rfl with ⟨ip_eq, rest_eq⟩
      cases ipSortKey_injective ip_eq
      simpa [UInt16.toNat_inj, UInt32.toNat_inj] using rest_eq

theorem tlsaKey_injective :
    Function.Injective fun record : CanonicalTlsa => record.rdata.map UInt8.toNat := by
  intro first second same
  exact CanonicalTlsa.ext (map_toNat_injective same)

namespace ServiceBindingInput

/-- The input with the records that have no order in another order. -/
structure Reordered (input other : ServiceBindingInput) : Prop where
  mandatoryKeys : input.mandatoryKeys.Perm other.mandatoryKeys
  connectionHints : input.connectionHints.Perm other.connectionHints
  parameters : input.parameters.Perm other.parameters
  rest : other =
    { input with
      mandatoryKeys := other.mandatoryKeys
      connectionHints := other.connectionHints
      parameters := other.parameters }

namespace Reordered

variable {input other : ServiceBindingInput}

theorem normalized_eq (reordered : input.Reordered other) :
    other.normalized = input.normalized := by
  rcases reordered with ⟨keys, hints, parameters, rest⟩
  rw [rest]
  simp only [normalized, sortByKey_eq_of_perm uint16Key_injective keys,
    sortByKey_eq_of_perm ipSortKey_injective hints,
    sortByKey_eq_of_perm ServiceParameter.sortKey_injective parameters]

theorem bounded_iff (reordered : input.Reordered other) : other.Bounded ↔ input.Bounded := by
  rcases reordered with ⟨keys, hints, parameters, rest⟩
  rw [rest]
  simp only [Bounded, keys.length_eq, hints.length_eq, parameters.length_eq]

theorem priorityAgrees_eq (reordered : input.Reordered other) :
    other.priorityAgrees = input.priorityAgrees := by
  rcases reordered with ⟨keys, hints, parameters, rest⟩
  rw [rest]
  simp only [priorityAgrees, keys.isEmpty_eq, hints.isEmpty_eq, parameters.isEmpty_eq]

theorem new_eq (reordered : input.Reordered other) :
    ServiceBinding.new other = ServiceBinding.new input := by
  have normalized_eq := reordered.normalized_eq
  have priority_eq := reordered.priorityAgrees_eq
  have transport_eq : other.transportAgrees = input.transportAgrees := by
    rw [reordered.rest]
    rfl
  have alpn_eq : other.advertisedAlpn = input.advertisedAlpn := by rw [reordered.rest]
  have protocol_eq : other.selectedProtocol = input.selectedProtocol := by rw [reordered.rest]
  unfold ServiceBinding.new
  by_cases bounded : input.Bounded
  · have otherBounded := reordered.bounded_iff.mpr bounded
    have binding_eq : (⟨other.normalized, otherBounded.normalized⟩ : ServiceBinding) =
        ⟨input.normalized, bounded.normalized⟩ := ServiceBinding.ext normalized_eq
    rw [dif_pos bounded, dif_pos otherBounded, binding_eq, normalized_eq, priority_eq,
      transport_eq, alpn_eq, protocol_eq]
  · rw [dif_neg bounded, dif_neg (reordered.bounded_iff.not.mpr bounded)]

end Reordered

end ServiceBindingInput

namespace OriginPlanInput

/-- The input with the records that have no order in another order. -/
structure Reordered (input other : OriginPlanInput) : Prop where
  endpoints : input.endpoints.Perm other.endpoints
  tlsaRecords : input.tlsaRecords.Perm other.tlsaRecords
  rest : other =
    { input with
      endpoints := other.endpoints
      tlsaRecords := other.tlsaRecords }

namespace Reordered

variable {input other : OriginPlanInput}

theorem normalized_eq (reordered : input.Reordered other) :
    other.normalized = input.normalized := by
  rcases reordered with ⟨endpoints, records, rest⟩
  rw [rest]
  simp only [normalized, sortByKey_eq_of_perm SocketAddr.sortKey_injective endpoints,
    sortByKey_eq_of_perm tlsaKey_injective records]

theorem bounded_iff (reordered : input.Reordered other) : other.Bounded ↔ input.Bounded := by
  rcases reordered with ⟨endpoints, records, rest⟩
  rw [rest]
  simp only [Bounded, endpoints.length_eq, records.length_eq, ne_eq, ← List.length_eq_zero_iff]

theorem new_eq (reordered : input.Reordered other) :
    ValidatedOriginPlan.new other = ValidatedOriginPlan.new input := by
  have normalized_eq := reordered.normalized_eq
  have isFor_eq : other.provenance.isFor other.namespace =
      input.provenance.isFor input.namespace := by
    rw [reordered.rest]
  have aliases_eq : other.aliasesAgree = input.aliasesAgree := by
    rw [reordered.rest]
    rfl
  unfold ValidatedOriginPlan.new
  by_cases isFor : input.provenance.isFor input.namespace = true
  · rw [dif_pos isFor, dif_pos (isFor_eq.trans isFor)]
    by_cases bounded : input.Bounded
    · rw [dif_pos bounded, dif_pos (reordered.bounded_iff.mpr bounded)]
      simp only [normalized_eq, aliases_eq]
    · rw [dif_neg bounded, dif_neg (reordered.bounded_iff.not.mpr bounded)]
  · rw [dif_neg isFor, dif_neg (isFor_eq.trans_ne isFor)]

end Reordered

end OriginPlanInput

namespace ValidatedOriginPlan

variable {input : OriginPlanInput} {plan : ValidatedOriginPlan}

/-- What an accepted input has passed. -/
theorem of_new (accepted : new input = .ok plan) :
    plan.toOriginPlanInput = input.normalized ∧ input.aliasesAgree = true ∧
      input.normalized.endpointsAndServiceAgree = true := by
  unfold new at accepted
  split_ifs at accepted with isFor bounded aliases service
  · rcases Control.of_bind_ok accepted with ⟨⟨⟩, -, returned⟩
    cases returned
    exact ⟨rfl, by simpa using aliases, by simpa using service⟩

theorem differences_self (plan : ValidatedOriginPlan) : (plan.differences plan).isEmpty = true := by
  simp [differences, DivergenceMask.setIf, DivergenceMask.none, DivergenceMask.isEmpty]

end ValidatedOriginPlan

/-- The endpoints have the port of the service, and the hints are among them. -/
theorem OriginPlanInput.endpoints_of_agree {input : OriginPlanInput}
    (agree : input.endpointsAndServiceAgree = true) :
    (∀ endpoint ∈ input.endpoints, endpoint.port = input.service.effectivePort.val) ∧
      ∀ hint ∈ input.service.connectionHints, ∃ endpoint ∈ input.endpoints, endpoint.ip = hint := by
  unfold OriginPlanInput.endpointsAndServiceAgree at agree
  dsimp only at agree
  rw [Bool.and_eq_true, Bool.not_eq_true', Bool.or_eq_false_iff, List.any_eq_false,
    List.any_eq_false] at agree
  rcases agree.1 with ⟨ports, hints⟩
  constructor
  · intro endpoint member
    simpa using ports endpoint member
  · intro hint member
    simpa using hints hint member

/-- A plan of reordered records is the plan itself. -/
theorem ValidatedOriginPlan.same_of_reordered {input other : OriginPlanInput}
    {plan : ValidatedOriginPlan} (accepted : new input = .ok plan)
    (reordered : input.Reordered other) :
    ∃ otherPlan, new other = .ok otherPlan ∧ otherPlan = plan ∧
      (plan.differences otherPlan).isEmpty = true :=
  ⟨plan, reordered.new_eq.trans accepted, rfl, differences_self plan⟩

/-- An accepted plan is one walk over distinct hosts to endpoints with the port of the service,
the hints among them; in whatever order the records of the plan and of its binding come, the
plan is the same. -/
theorem validatedOriginPlan_canonical {input : OriginPlanInput} {plan : ValidatedOriginPlan}
    (accepted : ValidatedOriginPlan.new input = .ok plan) :
    plan.walk.Nodup ∧ LeadsTo plan.query.host plan.aliasPath plan.terminalTarget ∧
      LeadsTo plan.service.serviceTarget plan.endpointAliasPath plan.endpointTarget ∧
      (∀ endpoint ∈ input.endpoints, endpoint ∈ plan.endpoints ∧
        endpoint.port = plan.service.effectivePort.val) ∧
      (∀ hint ∈ plan.service.connectionHints, ∃ endpoint ∈ plan.endpoints,
        endpoint.ip = hint ∧ endpoint.port = plan.service.effectivePort.val) ∧
      (∀ other, input.Reordered other →
        ∃ otherPlan, ValidatedOriginPlan.new other = .ok otherPlan ∧ otherPlan = plan ∧
          (plan.differences otherPlan).isEmpty = true) ∧
      ∀ binding otherBinding, ServiceBinding.new binding = .ok input.service →
        binding.Reordered otherBinding →
        ∃ service, ServiceBinding.new otherBinding = .ok service ∧
          ∀ other, { input with service := service }.Reordered other →
            ∃ otherPlan, ValidatedOriginPlan.new other = .ok otherPlan ∧ otherPlan = plan ∧
              (plan.differences otherPlan).isEmpty = true := by
  rcases ValidatedOriginPlan.of_new accepted with ⟨plan_eq, aliases, service⟩
  rcases OriginPlanInput.aliasesAgree_iff.mp aliases with ⟨leads, leadsOn, -, nodup⟩
  rcases OriginPlanInput.endpoints_of_agree service with ⟨ports, hints⟩
  rw [plan_eq]
  refine ⟨nodup, leads, leadsOn, ?_, ?_, ?_, ?_⟩
  · intro endpoint member
    have kept : endpoint ∈ input.normalized.endpoints :=
      mem_dedup.mpr (mem_sortByKey.mpr member)
    exact ⟨kept, ports endpoint kept⟩
  · intro hint member
    rcases hints hint member with ⟨endpoint, kept, ip_eq⟩
    exact ⟨endpoint, kept, ip_eq, ports endpoint kept⟩
  · intro other reordered
    exact ValidatedOriginPlan.same_of_reordered accepted reordered
  · intro binding otherBinding built rebound
    refine ⟨input.service, rebound.new_eq.trans built, ?_⟩
    intro other reordered
    exact ValidatedOriginPlan.same_of_reordered accepted reordered

/-! A secure origin `a`, an alias of `b`, with a service at `c` whose addresses `d` has. -/

namespace ExamplePlan

theorem length_label (octet : UInt8) : [octet].length ≤ maxHostBytes := by
  rw [List.length_singleton]
  decide

def host (octet : UInt8) : CanonicalHost :=
  ⟨[octet], length_label octet⟩

theorem origin_ne : host 97 ≠ host 98 := by decide

theorem service_ne : host 99 ≠ host 100 := by decide

def query : OriginQuery :=
  ⟨host 97, .https, none, ⟨true, false, false, ProtocolCapabilities.http11_nonempty⟩⟩

theorem length_port : [(1 : UInt8), 187].length ≤ maxParameterBytes := by decide

theorem length_hints :
    [(10 : UInt8), 0, 0, 1, 10, 0, 0, 2].length ≤ maxParameterBytes := by decide

/-- A binding whose keys, hints and parameters come in descending order. -/
def binding : ServiceBindingInput where
  priority := some 1
  serviceTarget := host 99
  mandatoryKeys := [4, 3]
  advertisedAlpn := []
  selectedProtocol := .http11
  effectivePort := query.originPort
  transport := .tcp
  connectionHints := [.v4 ⟨10, 0, 0, 2⟩, .v4 ⟨10, 0, 0, 1⟩]
  echConfig := none
  parameters := [⟨4, [10, 0, 0, 1, 10, 0, 0, 2], length_hints⟩, ⟨3, [1, 187], length_port⟩]

theorem binding_bounded : binding.Bounded := by
  refine ⟨by decide, by decide, by decide, by decide, ?_, ?_⟩
  · rintro identifier ⟨⟩
  · rintro value ⟨⟩

def sortedBinding : ServiceBindingInput :=
  { binding with
    mandatoryKeys := binding.mandatoryKeys.reverse
    connectionHints := binding.connectionHints.reverse
    parameters := binding.parameters.reverse }

theorem binding_reordered : binding.Reordered sortedBinding :=
  ⟨(List.reverse_perm _).symm, (List.reverse_perm _).symm, (List.reverse_perm _).symm, rfl⟩

theorem binding_normalized : binding.normalized = sortedBinding := by
  rw [ServiceBindingInput.normalized, sortByKey_eq binding_reordered.mandatoryKeys (by decide),
    sortByKey_eq binding_reordered.connectionHints (by decide),
    sortByKey_eq binding_reordered.parameters (by decide)]
  rfl

def service : ServiceBinding :=
  ⟨sortedBinding, binding_reordered.bounded_iff.mpr binding_bounded⟩

theorem service_built : ServiceBinding.new binding = .ok service := by
  have service_eq : (⟨binding.normalized, binding_bounded.normalized⟩ : ServiceBinding) = service :=
    ServiceBinding.ext binding_normalized
  rw [ServiceBinding.new, dif_pos binding_bounded, service_eq, binding_normalized]
  rfl

theorem length_record :
    ([3, 1, 1] ++ List.replicate 32 (1 : UInt8)).length ≤ maxParameterBytes := by
  decide

theorem length_otherRecord :
    ([3, 1, 1] ++ List.replicate 32 (2 : UInt8)).length ≤ maxParameterBytes := by
  decide

def input : OriginPlanInput where
  «namespace» := .hns
  query := query
  aliasPath := [⟨.cname, host 97, host 98, origin_ne⟩]
  terminalTarget := host 98
  endpointAliasPath := [⟨.cname, host 99, host 100, service_ne⟩]
  endpointTarget := host 100
  endpoints := [.v4 ⟨10, 0, 0, 2⟩ 443, .v4 ⟨10, 0, 0, 1⟩ 443]
  service := service
  tlsPolicy := .dane
  tlsaRecords := [⟨[3, 1, 1] ++ List.replicate 32 2, length_otherRecord⟩,
    ⟨[3, 1, 1] ++ List.replicate 32 1, length_record⟩]
  provenance := .hns .mainnet (List.replicate 32 0) 1
  freshness := ⟨0, 60, Nat.zero_lt_succ 59⟩

/-- The records in the opposite order. -/
def reversed : OriginPlanInput :=
  { input with
    endpoints := input.endpoints.reverse
    tlsaRecords := input.tlsaRecords.reverse }

theorem input_reordered : input.Reordered reversed :=
  ⟨(List.reverse_perm _).symm, (List.reverse_perm _).symm, rfl⟩

theorem input_normalized : input.normalized = reversed := by
  rw [OriginPlanInput.normalized, sortByKey_eq input_reordered.endpoints (by decide),
    sortByKey_eq input_reordered.tlsaRecords (by decide)]
  rfl

theorem input_accepted : ∃ plan, ValidatedOriginPlan.new input = .ok plan := by
  have isFor : input.provenance.isFor input.namespace = true := rfl
  have bounded : input.Bounded := by decide
  have aliases : (!input.aliasesAgree) ≠ true := by decide
  have agree : (!input.normalized.endpointsAndServiceAgree) ≠ true := by
    rw [input_normalized]
    decide
  have trusted : input.normalized.validateTls = .ok () := by
    rw [input_normalized]
    rfl
  rw [ValidatedOriginPlan.new, dif_pos isFor, dif_pos bounded, if_neg aliases, if_neg agree, trusted]
  exact ⟨_, rfl⟩

theorem validatedOriginPlan_canonical_reversed :
    ∃ plan, ValidatedOriginPlan.new input = .ok plan ∧
      [host 97, host 98, host 99, host 100].Nodup ∧
      (∃ otherPlan, ValidatedOriginPlan.new reversed = .ok otherPlan ∧ otherPlan = plan ∧
        (plan.differences otherPlan).isEmpty = true) ∧
      ∃ service, ServiceBinding.new sortedBinding = .ok service := by
  rcases input_accepted with ⟨plan, accepted⟩
  rcases validatedOriginPlan_canonical accepted with ⟨walk, -, -, -, -, same, sameBinding⟩
  rcases sameBinding binding sortedBinding service_built binding_reordered with
    ⟨service, rebuilt, -⟩
  refine ⟨plan, accepted, ?_, same reversed input_reordered, service, rebuilt⟩
  rw [(ValidatedOriginPlan.of_new accepted).1] at walk
  exact walk

end ExamplePlan

end HnsDaneEngine.NamespaceResolution
