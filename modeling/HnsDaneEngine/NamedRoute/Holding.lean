import HnsDaneEngine.NamedRoute.AntiRollback
import HnsDaneEngine.NamedRoute.Open
import HnsDaneEngine.NamedRoute.SelectionSteps

/-!
# What a state holds of a selection

A selection leaves the state at or beyond the objects that it commits to.  From there on the
state can leave these objects behind, and then it never returns to them under the resource
generation of the selection.
-/

namespace HnsDaneEngine.NamedRoute

open Control Data HnsDaneEngine.Order Primitives HnsaNamedRouteState
open Relation (ReflTransGen)

/-- While the state has the resource generation, it follows the commitment or newer objects. -/
structure Held (resourceGeneration : Nat) (commitment : HnsaSelectionCommitment)
    (state : HnsaNamedRouteState) : Prop where
  generation : resourceGeneration ≤ state.resourceGeneration
  digest : state.resourceGeneration = resourceGeneration →
    state.authorityDigest = commitment.authorityDigest
  authorization : state.resourceGeneration = resourceGeneration →
    Supersedes (some commitment.authorization) state.authorization
  route : state.resourceGeneration = resourceGeneration →
    Supersedes (some commitment.route) (state.route? commitment.endpointKey)
  delegation : state.resourceGeneration = resourceGeneration →
    state.authorization = some commitment.authorization →
    Supersedes (some commitment.delegation) (state.delegation? commitment.endpointKey)

/-- The commitment can be opened as far as the state is concerned. -/
def Openable (resourceGeneration : Nat) (commitment : HnsaSelectionCommitment)
    (state : HnsaNamedRouteState) : Prop :=
  state.resourceGeneration = resourceGeneration ∧ state.selectionIsCurrent commitment

section

variable {resourceGeneration : Nat} {commitment : HnsaSelectionCommitment}
  {before after : HnsaNamedRouteState}

theorem Held.of_greater (greater : resourceGeneration < before.resourceGeneration) :
    Held resourceGeneration commitment before where
  generation := greater.le
  digest same := absurd same greater.ne'
  authorization same := absurd same greater.ne'
  route same := absurd same greater.ne'
  delegation same := absurd same greater.ne'

/-- The authorization cannot leave a commitment and come back. -/
theorem Held.authorization_eq (held : Held resourceGeneration commitment before)
    (generation : before.resourceGeneration = resourceGeneration) (replaced : Replaces before after)
    (returned : after.authorization = some commitment.authorization) :
    before.authorization = some commitment.authorization := by
  have back : Supersedes before.authorization (some commitment.authorization) := by
    rw [← returned]
    exact replaced.authorization
  exact back.antisymm (held.authorization generation)

theorem Held.of_replaces (held : Held resourceGeneration commitment before)
    (sameGeneration : after.resourceGeneration = before.resourceGeneration)
    (sameDigest : after.authorityDigest = before.authorityDigest)
    (replaced : Replaces before after) : Held resourceGeneration commitment after where
  generation := held.generation.trans sameGeneration.ge
  digest same := sameDigest.trans (held.digest (sameGeneration.symm.trans same))
  authorization same :=
    (held.authorization (sameGeneration.symm.trans same)).trans replaced.authorization
  route same := (held.route (sameGeneration.symm.trans same)).trans (replaced.route _)
  delegation same returned := by
    have generation := sameGeneration.symm.trans same
    have unchanged := held.authorization_eq generation replaced returned
    exact (held.delegation generation unchanged).trans
      (replaced.delegation (returned.trans unchanged.symm) _)

theorem replaces_status (state : HnsaNamedRouteState) (status : HnsaSequenceStateStatus) :
    Replaces state { state.bumped with status } :=
  ⟨.refl _, fun _ => .refl _, fun _ _ => .refl _⟩

section

variable (held : Held resourceGeneration commitment before)

include held

theorem Held.moves (moves : Moves before after) : Held resourceGeneration commitment after := by
  cases moves with
  | stays => exact held
  | rebinds _ _ _ _ greater => exact .of_greater (held.generation.trans_lt greater)
  | renews _ greater => exact .of_greater (held.generation.trans_lt greater)
  | replaces _ _ _ replaced => exact held.of_replaces rfl rfl replaced
  | blocks status => exact held.of_replaces rfl rfl (replaces_status before status)

/-- The objects of a commitment that a move leads to have been there before it. -/
theorem Openable.of_replaces (active : before.status = .active) (replaced : Replaces before after)
    (openable : Openable resourceGeneration commitment after)
    (sameGeneration : after.resourceGeneration = before.resourceGeneration)
    (sameKey : after.routeKey = before.routeKey) :
    Openable resourceGeneration commitment before := by
  rcases openable with ⟨generation, -, -, key, authorization, delegation, route⟩
  have same := sameGeneration.symm.trans generation
  have unchanged := held.authorization_eq same replaced authorization
  have delegation_back : Supersedes (before.delegation? commitment.endpointKey)
      (some commitment.delegation) := by
    rw [← delegation]
    exact replaced.delegation (authorization.trans unchanged.symm) _
  have route_back : Supersedes (before.route? commitment.endpointKey) (some commitment.route) := by
    rw [← route]
    exact replaced.route _
  exact ⟨same, active, held.digest same, sameKey.symm.trans key, unchanged,
    delegation_back.antisymm (held.delegation same unchanged),
    route_back.antisymm (held.route same)⟩

/-- No move leads back to a commitment. -/
theorem Openable.of_moves (moves : Moves before after)
    (openable : Openable resourceGeneration commitment after) :
    Openable resourceGeneration commitment before := by
  cases moves with
  | stays => exact openable
  | rebinds _ _ _ _ greater =>
    exact absurd openable.1 (held.generation.trans_lt greater).ne'
  | renews _ greater => exact absurd openable.1 (held.generation.trans_lt greater).ne'
  | replaces _ _ active replaced => exact .of_replaces held active replaced openable rfl rfl
  | blocks status active =>
    exact .of_replaces held active (replaces_status before status) openable rfl rfl

theorem Held.run (moves : ReflTransGen Moves before after) :
    Held resourceGeneration commitment after := by
  induction moves with
  | refl => exact held
  | tail _ last ih => exact ih.moves last

theorem Openable.of_run (moves : ReflTransGen Moves before after)
    (openable : Openable resourceGeneration commitment after) :
    Openable resourceGeneration commitment before := by
  induction moves with
  | refl => exact openable
  | tail earlier last ih => exact ih (.of_moves (held.run earlier) last openable)

end

theorem isScoped_run (moves : ReflTransGen Moves before after) (hasScope : before.isScoped) :
    after.isScoped := by
  induction moves with
  | refl => exact hasScope
  | tail _ last ih => exact last.isScoped ih

end

variable {state final : HnsaNamedRouteState} {endpointKey : EndpointKey}

theorem scope_of_bindScope {authorityDigest routeKey : Hash} {resourceGeneration : Nat}
    (run : bindScope authorityDigest routeKey resourceGeneration state = (.ok ⟨⟩, final)) :
    final.resourceGeneration = resourceGeneration ∧ final.authorityDigest = authorityDigest := by
  unfold bindScope at run
  split at run
  next =>
    cases run
    exact ⟨rfl, rfl⟩
  next =>
    split at run
    next => cases run
    next =>
      split at run
      next => cases run
      next notLower =>
        split at run
        next =>
          split at run
          next => cases run
          next =>
            rw [eq_of_bumpThen run]
            exact ⟨rfl, rfl⟩
        next sameDigest =>
          split at run
          next =>
            rw [eq_of_bumpThen run]
            exact ⟨rfl, not_not.mp sameDigest⟩
          next notGreater =>
            cases run
            exact ⟨le_antisymm (not_lt.mp notLower) (not_lt.mp notGreater), not_not.mp sameDigest⟩

theorem slots_of_advanceRoute {sequence : Nat} {digest : Hash}
    (run : advanceRoute endpointKey sequence digest state = (.ok ⟨⟩, final)) :
    final.route? endpointKey = some ⟨sequence, digest⟩ ∧
      final.delegation? endpointKey = state.delegation? endpointKey := by
  unfold advanceRoute at run
  split at run
  next => cases run
  next endpoint found =>
    have assigned : (state.endpoints.modify endpointKey fun endpoint =>
        { endpoint with route := some ⟨sequence, digest⟩ }).lookup endpointKey =
        some { endpoint with route := some ⟨sequence, digest⟩ } := by
      rw [SortedTable.lookup_modify, if_pos rfl, found]
      rfl
    have replaced : ∀ other : HnsaNamedRouteState,
        other.endpoints = (state.endpoints.modify endpointKey fun endpoint =>
          { endpoint with route := some ⟨sequence, digest⟩ }) →
        other.route? endpointKey = some ⟨sequence, digest⟩ ∧
          other.delegation? endpointKey = state.delegation? endpointKey := by
      intro other endpoints_eq
      rw [route?, delegation?, delegation?, endpoints_eq, assigned, found]
      exact ⟨rfl, rfl⟩
    split at run
    next => cases run
    next => exact absurd run bind_throw_ne_ok
    next same =>
      cases run
      constructor
      · rw [route?, found]
        exact eq_some_of_replacement_same same
      · rfl
    next =>
      rw [eq_of_bumpThen run]
      exact replaced _ rfl
    next =>
      rw [eq_of_bumpThen run]
      exact replaced _ rfl

end HnsDaneEngine.NamedRoute
