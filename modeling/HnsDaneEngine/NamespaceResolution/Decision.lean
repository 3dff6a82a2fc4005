import HnsDaneEngine.NamespaceResolution.Plan

/-!
# Namespace decisions

The results of both roots are classified in five ways, and a policy selects the
namespace whose plan is used.  A failed root makes the classification fail.
-/

namespace HnsDaneEngine.NamespaceResolution

open Control

/-- Why a root fails. -/
inductive RootFailureKind
  | timeout
  | transport
  | staleHnsAnchor
  | bogusDnssec
  | indeterminateDnssec
  | unauthenticatedResolver
  | malformedResponse
  | unsupported
  | cancelled
  | internal
  | staleEvidence

/-- A failure of one root. -/
structure RootFailure where
  «namespace» : Namespace
  query : OriginQuery
  kind : RootFailureKind
  retryAfterUnix : Option Nat

/-- What one root says. -/
inductive RootLookup
  | present (plan : ValidatedOriginPlan)
  | absent (absence : ValidatedAbsence)
  | failed (failure : RootFailure)

/-- What remains of a lookup when classification fails. -/
inductive RootResolutionState
  | present
  | absent
  | failed (failure : RootFailure)

def RootResolutionState.fromLookup : RootLookup → RootResolutionState
  | .present _ => .present
  | .absent _ => .absent
  | .failed failure => .failed failure

namespace RootLookup

def «namespace» : RootLookup → Namespace
  | .present plan => plan.namespace
  | .absent absence => absence.namespace
  | .failed failure => failure.namespace

def query : RootLookup → OriginQuery
  | .present plan => plan.query
  | .absent absence => absence.query
  | .failed failure => failure.query

/-- The freshness of the evidence; a failure has none. -/
def freshness? : RootLookup → Option Freshness
  | .present plan => some plan.freshness
  | .absent absence => some absence.freshness
  | .failed _ => none

end RootLookup

/-- The default of two plans. -/
inductive DefaultPrecedence
  | preferIcann
  | failClosed
  deriving DecidableEq

def DefaultPrecedence.tag : DefaultPrecedence → UInt8
  | .preferIcann => 1
  | .failClosed => 2

theorem DefaultPrecedence.tag_inj (first second : DefaultPrecedence) :
    first.tag = second.tag ↔ first = second := by
  cases first <;> cases second <;> decide

/-- The choices of the user. -/
structure SelectionPolicy where
  explicitPin : Option Namespace
  stickyBinding : Option Namespace
  defaultPrecedence : DefaultPrecedence
  revision : UInt64

/-- Why a namespace is chosen. -/
inductive SelectionReason
  | singleRoot
  | explicitPin
  | stickyBinding
  | icannDefault
  deriving DecidableEq

def SelectionReason.tag : SelectionReason → UInt8
  | .singleRoot => 1
  | .explicitPin => 2
  | .stickyBinding => 3
  | .icannDefault => 4

theorem SelectionReason.tag_inj (first second : SelectionReason) :
    first.tag = second.tag ↔ first = second := by
  cases first <;> cases second <;> decide

/-- Why no decision is made. -/
inductive ClassificationError
  | rootFailed (hns icann : RootResolutionState)
  | rootPositionMismatch (expected actual : Namespace)
  | queryMismatch («namespace» : Namespace)
  | staleEvidence («namespace» : Namespace)
  | selectedNamespaceUnavailable («namespace» : Namespace) (selectionReason : SelectionReason)
  | divergenceRequiresSelection

/-- What both namespaces say. -/
inductive NamespaceOutcome
  | hnsOnly (plan : ValidatedOriginPlan) (icannAbsence : ValidatedAbsence)
      (selectionReason : SelectionReason)
  | icannOnly (plan : ValidatedOriginPlan) (hnsAbsence : ValidatedAbsence)
      (selectionReason : SelectionReason)
  | bothConvergent (selected : Namespace) (selectionReason : SelectionReason)
      (hns icann : ValidatedOriginPlan)
  | bothDivergent (selected : Namespace) (selectionReason : SelectionReason)
      (hns icann : ValidatedOriginPlan) (differences : DivergenceMask)
  | neither (hns icann : ValidatedAbsence)

/-- The kinds of outcomes. -/
inductive OutcomeKind
  | hnsOnly
  | icannOnly
  | bothConvergent
  | bothDivergent
  | neither
  deriving DecidableEq

def OutcomeKind.tag : OutcomeKind → UInt8
  | .hnsOnly => 1
  | .icannOnly => 2
  | .bothConvergent => 3
  | .bothDivergent => 4
  | .neither => 5

theorem OutcomeKind.tag_inj (first second : OutcomeKind) :
    first.tag = second.tag ↔ first = second := by
  cases first <;> cases second <;> decide

namespace NamespaceOutcome

def kind : NamespaceOutcome → OutcomeKind
  | .hnsOnly _ _ _ => .hnsOnly
  | .icannOnly _ _ _ => .icannOnly
  | .bothConvergent _ _ _ _ => .bothConvergent
  | .bothDivergent _ _ _ _ _ => .bothDivergent
  | .neither _ _ => .neither

def selectedNamespace : NamespaceOutcome → Option Namespace
  | .hnsOnly _ _ _ => some .hns
  | .icannOnly _ _ _ => some .icann
  | .bothConvergent selected _ _ _ => some selected
  | .bothDivergent selected _ _ _ _ => some selected
  | .neither _ _ => none

def selectionReason : NamespaceOutcome → Option SelectionReason
  | .hnsOnly _ _ reason => some reason
  | .icannOnly _ _ reason => some reason
  | .bothConvergent _ reason _ _ => some reason
  | .bothDivergent _ reason _ _ _ => some reason
  | .neither _ _ => none

/-- The plan of the selected root. -/
def planOf (selected : Namespace) (hns icann : ValidatedOriginPlan) : ValidatedOriginPlan :=
  match selected with
  | .hns => hns
  | .icann => icann

def selectedPlan : NamespaceOutcome → Option ValidatedOriginPlan
  | .hnsOnly plan _ _ => some plan
  | .icannOnly plan _ _ => some plan
  | .bothConvergent selected _ hns icann => some (planOf selected hns icann)
  | .bothDivergent selected _ hns icann _ => some (planOf selected hns icann)
  | .neither _ _ => none

/-- The evidence of the HNS root. -/
def hnsProvenance : NamespaceOutcome → EvidenceProvenance
  | .hnsOnly plan _ _ => plan.provenance
  | .icannOnly _ hnsAbsence _ => hnsAbsence.provenance
  | .bothConvergent _ _ hns _ => hns.provenance
  | .bothDivergent _ _ hns _ _ => hns.provenance
  | .neither hns _ => hns.provenance

/-- The network of the HNS evidence.  Validated evidence of the HNS root always has
one. -/
def hnsNetwork (outcome : NamespaceOutcome) : HnsNetwork :=
  outcome.hnsProvenance.hnsNetwork.getD .mainnet

/-- The freshness of the evidence of both roots. -/
def freshnesses : NamespaceOutcome → Freshness × Freshness
  | .hnsOnly plan icannAbsence _ => (plan.freshness, icannAbsence.freshness)
  | .icannOnly plan hnsAbsence _ => (plan.freshness, hnsAbsence.freshness)
  | .bothConvergent _ _ hns icann => (hns.freshness, icann.freshness)
  | .bothDivergent _ _ hns icann _ => (hns.freshness, icann.freshness)
  | .neither hns icann => (hns.freshness, icann.freshness)

def expiresAtUnix (outcome : NamespaceOutcome) : Nat :=
  min outcome.freshnesses.1.expiresAtUnix outcome.freshnesses.2.expiresAtUnix

def isFreshAt (outcome : NamespaceOutcome) (now : Nat) : Bool :=
  now < outcome.expiresAtUnix && outcome.freshnesses.1.isFreshAt now &&
    outcome.freshnesses.2.isFreshAt now

/-- Fresh means observed by both roots and not yet expired. -/
theorem isFreshAt_iff {outcome : NamespaceOutcome} {now : Nat} :
    outcome.isFreshAt now = true ↔
      outcome.freshnesses.1.observedAtUnix ≤ now ∧ outcome.freshnesses.2.observedAtUnix ≤ now ∧
        now < outcome.expiresAtUnix := by
  simp only [isFreshAt, Freshness.isFreshAt, Bool.and_eq_true, decide_eq_true_eq, expiresAtUnix,
    Nat.lt_min]
  constructor
  · rintro ⟨⟨notExpired, firstSeen, -⟩, secondSeen, -⟩
    exact ⟨firstSeen, secondSeen, notExpired⟩
  · rintro ⟨firstSeen, secondSeen, notExpired⟩
    exact ⟨⟨notExpired, firstSeen, notExpired.1⟩, secondSeen, notExpired.2⟩

end NamespaceOutcome

/-- The decision of one query. -/
structure NamespaceDecision where
  query : OriginQuery
  policy : SelectionPolicy
  outcome : NamespaceOutcome

namespace NamespaceDecision

def selectedNamespace (decision : NamespaceDecision) : Option Namespace :=
  decision.outcome.selectedNamespace

def selectedPlan (decision : NamespaceDecision) : Option ValidatedOriginPlan :=
  decision.outcome.selectedPlan

def hnsNetwork (decision : NamespaceDecision) : HnsNetwork :=
  decision.outcome.hnsNetwork

def expiresAtUnix (decision : NamespaceDecision) : Nat :=
  decision.outcome.expiresAtUnix

def isFreshAt (decision : NamespaceDecision) (now : Nat) : Bool :=
  decision.outcome.isFreshAt now

end NamespaceDecision

def validateLookup (query : OriginQuery) (expected : Namespace) (lookup : RootLookup)
    (now : Nat) : Except ClassificationError Unit :=
  if lookup.namespace ≠ expected then .error (.rootPositionMismatch expected lookup.namespace)
  else if lookup.query ≠ query then .error (.queryMismatch expected)
  else if lookup.freshness?.any (fun freshness => !freshness.isFreshAt now) then
    .error (.staleEvidence expected)
  else .ok ()

def selectNamespace (policy : SelectionPolicy) (convergent : Bool) :
    Except ClassificationError (Namespace × SelectionReason) :=
  match policy.explicitPin, policy.stickyBinding, policy.defaultPrecedence with
  | some pinned, _, _ => .ok (pinned, .explicitPin)
  | none, some bound, _ => .ok (bound, .stickyBinding)
  | none, none, .preferIcann => .ok (.icann, .icannDefault)
  | none, none, .failClosed =>
    if convergent then .ok (.icann, .icannDefault) else .error .divergenceRequiresSelection

def selectSingleNamespace (policy : SelectionPolicy) (available : Namespace) :
    Except ClassificationError SelectionReason :=
  match policy.explicitPin, policy.stickyBinding with
  | some pinned, _ =>
    if pinned = available then .ok .explicitPin
    else .error (.selectedNamespaceUnavailable pinned .explicitPin)
  | none, some bound =>
    if bound = available then .ok .stickyBinding
    else .error (.selectedNamespaceUnavailable bound .stickyBinding)
  | none, none => .ok .singleRoot

/-- The outcome of two lookups. -/
def classify (policy : SelectionPolicy) :
    RootLookup → RootLookup → Except ClassificationError NamespaceOutcome
  | .present plan, .absent icannAbsence => do
    return .hnsOnly plan icannAbsence (← selectSingleNamespace policy .hns)
  | .absent hnsAbsence, .present plan => do
    return .icannOnly plan hnsAbsence (← selectSingleNamespace policy .icann)
  | .absent hns, .absent icann => return .neither hns icann
  | .present hns, .present icann => do
    let differences := hns.differences icann
    let (selected, selectionReason) ← selectNamespace policy differences.isEmpty
    return if differences.isEmpty then .bothConvergent selected selectionReason hns icann
      else .bothDivergent selected selectionReason hns icann differences
  | hns, icann =>
    .error (.rootFailed (RootResolutionState.fromLookup hns)
      (RootResolutionState.fromLookup icann))

def decideNamespace (query : OriginQuery) (hns icann : RootLookup) (policy : SelectionPolicy)
    (now : Nat) : Except ClassificationError NamespaceDecision := do
  validateLookup query .hns hns now
  validateLookup query .icann icann now
  let outcome ← classify policy hns icann
  return ⟨query, policy, outcome⟩

variable {query : OriginQuery}

theorem validateLookup_eq_ok {expected : Namespace} {lookup : RootLookup} {now : Nat}
    (valid : validateLookup query expected lookup now = .ok ()) :
    lookup.namespace = expected ∧ lookup.query = query ∧
      ∀ freshness ∈ lookup.freshness?, freshness.isFreshAt now = true := by
  rw [validateLookup, guard_eq_ok_iff, guard_eq_ok_iff, guard_eq_ok_iff] at valid
  rcases valid with ⟨root_eq, query_eq, fresh, -⟩
  refine ⟨not_not.mp root_eq, not_not.mp query_eq, fun freshness held => ?_⟩
  cases isFresh : freshness.isFreshAt now with
  | true => rfl
  | false =>
    rw [Option.mem_def] at held
    simp [held, isFresh] at fresh

/-- A plan of a root for a query. -/
def ValidatedOriginPlan.IsPlanOf (plan : ValidatedOriginPlan) (root : Namespace)
    (query : OriginQuery) : Prop :=
  plan.namespace = root ∧ plan.query = query

/-- An absence in a root for a query. -/
def ValidatedAbsence.IsAbsenceIn (absence : ValidatedAbsence) (root : Namespace)
    (query : OriginQuery) : Prop :=
  absence.namespace = root ∧ absence.query = query

/-- Both roots answered the query of the decision, and the differences are those of the
two plans. -/
def NamespaceOutcome.Answers (query : OriginQuery) : NamespaceOutcome → Prop
  | .hnsOnly plan icannAbsence _ =>
    plan.IsPlanOf .hns query ∧ icannAbsence.IsAbsenceIn .icann query
  | .icannOnly plan hnsAbsence _ =>
    plan.IsPlanOf .icann query ∧ hnsAbsence.IsAbsenceIn .hns query
  | .bothConvergent _ _ hns icann =>
    hns.IsPlanOf .hns query ∧ icann.IsPlanOf .icann query
  | .bothDivergent _ _ hns icann differences =>
    hns.IsPlanOf .hns query ∧ icann.IsPlanOf .icann query ∧ differences = hns.differences icann
  | .neither hns icann => hns.IsAbsenceIn .hns query ∧ icann.IsAbsenceIn .icann query

variable {policy : SelectionPolicy} {outcome : NamespaceOutcome} {decision : NamespaceDecision}

theorem classify_answers {hns icann : RootLookup}
    (classified : classify policy hns icann = .ok outcome) (hnsRoot : hns.namespace = .hns)
    (hnsQuery : hns.query = query) (icannRoot : icann.namespace = .icann)
    (icannQuery : icann.query = query) : outcome.Answers query := by
  cases hns with
  | failed failure => cases icann <;> cases classified
  | present hnsPlan =>
    cases icann with
    | failed failure => cases classified
    | absent icannAbsence =>
      rcases of_bind_ok classified with ⟨reason, -, returned⟩
      cases returned
      exact ⟨⟨hnsRoot, hnsQuery⟩, icannRoot, icannQuery⟩
    | present icannPlan =>
      rcases of_bind_ok classified with ⟨⟨selected, reason⟩, -, returned⟩
      have outcome_eq := Except.ok.inj returned
      subst outcome_eq
      split
      · exact ⟨⟨hnsRoot, hnsQuery⟩, icannRoot, icannQuery⟩
      · exact ⟨⟨hnsRoot, hnsQuery⟩, ⟨icannRoot, icannQuery⟩, rfl⟩
  | absent hnsAbsence =>
    cases icann with
    | failed failure => cases classified
    | absent icannAbsence =>
      cases classified
      exact ⟨⟨hnsRoot, hnsQuery⟩, icannRoot, icannQuery⟩
    | present icannPlan =>
      rcases of_bind_ok classified with ⟨reason, -, returned⟩
      cases returned
      exact ⟨⟨icannRoot, icannQuery⟩, hnsRoot, hnsQuery⟩

/-- The evidence of the HNS root names its network. -/
theorem NamespaceOutcome.Answers.hnsProvenance_eq (answers : outcome.Answers query) :
    ∃ treeRoot height, outcome.hnsProvenance = .hns outcome.hnsNetwork treeRoot height := by
  have isFor : outcome.hnsProvenance.isFor .hns = true := by
    cases outcome with
    | hnsOnly plan _ _ => exact answers.1.1 ▸ plan.isFor
    | icannOnly _ hnsAbsence _ => exact answers.2.1 ▸ hnsAbsence.isFor
    | bothConvergent _ _ hns _ => exact answers.1.1 ▸ hns.isFor
    | bothDivergent _ _ hns _ _ => exact answers.1.1 ▸ hns.isFor
    | neither hns _ => exact answers.1.1 ▸ hns.isFor
  unfold hnsNetwork
  cases provenance_eq : outcome.hnsProvenance with
  | hns network treeRoot height => exact ⟨treeRoot, height, rfl⟩
  | icannDoh chainState =>
    rw [provenance_eq] at isFor
    cases isFor

/-- What `decide_namespace` has checked of every decision. -/
theorem decideNamespace_eq_ok {hns icann : RootLookup} {now : Nat}
    (decided : decideNamespace query hns icann policy now = .ok decision) :
    decision.query = query ∧ decision.policy = policy ∧ decision.outcome.Answers query := by
  rcases of_bind_ok decided with ⟨⟨⟩, hnsValid, decided⟩
  rcases of_bind_ok decided with ⟨⟨⟩, icannValid, decided⟩
  rcases of_bind_ok decided with ⟨outcome, classified, returned⟩
  cases returned
  have hnsAnswer := validateLookup_eq_ok hnsValid
  have icannAnswer := validateLookup_eq_ok icannValid
  exact ⟨rfl, rfl, classify_answers classified hnsAnswer.1 hnsAnswer.2.1 icannAnswer.1
    icannAnswer.2.1⟩

/-- A decision that `decide_namespace` made. -/
def NamespaceDecision.Decided (decision : NamespaceDecision) : Prop :=
  ∃ query hns icann policy now, decideNamespace query hns icann policy now = .ok decision

theorem NamespaceDecision.Decided.answers (decided : decision.Decided) :
    decision.outcome.Answers decision.query := by
  rcases decided with ⟨query, hns, icann, policy, now, decided⟩
  have spec := decideNamespace_eq_ok decided
  rw [spec.1]
  exact spec.2.2

end HnsDaneEngine.NamespaceResolution
