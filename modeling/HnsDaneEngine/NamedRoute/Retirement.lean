import HnsDaneEngine.NamedRoute.SelectionRuns
import HnsDaneEngine.NamedRoute.SelectionTies

/-!
# Retired selections

A platform keeps one durable state, selects routes under it and attempts to open what was
selected.  A selection that an attempt has found superseded is never opened again, and an
opening comes at a time that the selection has not yet passed.
-/

namespace HnsDaneEngine.NamedRoute

open Control Primitives HnsaNamedRouteState
open Relation (ReflTransGen)

/-- An attempt to open the selection at an index, with the requester of the moment. -/
structure Attempt (PeerId Requester : Type) where
  index : Nat
  engine : Engine
  runtime : HnsrRequesterRuntime Requester
  request : OpenRequest PeerId

/-- The inputs of a selection. -/
structure SelectCall where
  engine : Engine
  later : Engine
  resource : VerifiedHnsResource
  encodedRecords : List Octets
  request : HnsaNamedRouteRequest

/-- The calls of a platform. -/
inductive PlatformCall (PeerId Requester : Type)
  | select (call : SelectCall)
  | beginOpen (attempt : Attempt PeerId Requester)

/-- The durable state and every selection returned so far, the earliest first. -/
structure Platform (RelayTicket : Type) where
  state : HnsaNamedRouteState
  selections : List (SelectedHnsaNamedRoute RelayTicket)

def PlatformCall.context {PeerId Requester : Type} :
    PlatformCall PeerId Requester → HnsaNamedRouteContext
  | .select call => call.request.context
  | .beginOpen attempt => attempt.request.context

/-- No floor of the later context is lower. -/
structure NotOlder (earlier later : HnsaNamedRouteContext) : Prop where
  resourceGeneration : earlier.resourceGeneration ≤ later.resourceGeneration
  profilePolicyGeneration : earlier.profilePolicyGeneration ≤ later.profilePolicyGeneration
  trustedTimeHighWater : earlier.trustedTimeHighWater ≤ later.trustedTimeHighWater

section

variable {AuthorityRecord Requester PeerId RelayTicket : Type}
variable {ProtocolError RuntimeError HnsrRoute : Type} [DecidableEq RelayTicket]
  (protocol : HnsaProtocol AuthorityRecord RelayTicket ProtocolError)
  (circuits : HnsrRequester Requester PeerId RelayTicket RuntimeError HnsrRoute)

def SelectCall.run (call : SelectCall) :
    SelectionEffect ProtocolError RuntimeError (List (SelectedHnsaNamedRoute RelayTicket)) :=
  verifyAndSelectHnsaNamedRoutes protocol call.engine call.later call.resource
    call.encodedRecords call.request

omit [DecidableEq RelayTicket] in
def Attempt.run (attempt : Attempt PeerId Requester) (state : HnsaNamedRouteState)
    (selected : SelectedHnsaNamedRoute RelayTicket) :
    Except (HnsaRouteError ProtocolError RuntimeError) HnsrRoute ×
      Opening RelayTicket Requester :=
  beginHnsaNamedRouteOpen circuits protocol.networkMagic attempt.engine state attempt.request
    ⟨selected, attempt.runtime⟩

def Platform.step (platform : Platform RelayTicket) :
    PlatformCall PeerId Requester → Platform RelayTicket
  | .select call =>
    let (result, state) :=
      (call.run protocol : SelectionEffect ProtocolError RuntimeError _) platform.state
    ⟨state, platform.selections ++ result.toOption.getD []⟩
  | .beginOpen attempt =>
    match platform.selections[attempt.index]? with
    | none => platform
    | some selected =>
      { platform with
        selections := platform.selections.set attempt.index
          (attempt.run protocol circuits platform.state selected).2.selected }

/-- The attempt finds its selection and ends in the result. -/
def Platform.Ends (platform : Platform RelayTicket) (attempt : Attempt PeerId Requester)
    (result : Except (HnsaRouteError ProtocolError RuntimeError) HnsrRoute) : Prop :=
  ∃ selected, platform.selections[attempt.index]? = some selected ∧
    (attempt.run protocol circuits platform.state selected).1 = result

omit [DecidableEq RelayTicket] in
instance endsDecidable [DecidableEq ProtocolError] [DecidableEq RuntimeError]
    [DecidableEq HnsrRoute] (platform : Platform RelayTicket) (attempt : Attempt PeerId Requester)
    (result : Except (HnsaRouteError ProtocolError RuntimeError) HnsrRoute) :
    Decidable (platform.Ends protocol circuits attempt result) :=
  decidable_of_iff
    ((platform.selections[attempt.index]?).map (fun selected =>
      (attempt.run protocol circuits platform.state selected).1) = some result)
    Option.map_eq_some_iff

variable (RuntimeError) in
/-- The scope of a selection is not one that marks a state as unscoped. -/
def PlatformCall.HasScope : PlatformCall PeerId Requester → Prop
  | .select call => ∀ scope,
      (prepare protocol call.engine call.resource call.encodedRecords call.request :
        Except (HnsaRouteError ProtocolError RuntimeError) _) = .ok scope →
      scope.authorityDigest ≠ Hash.zero ∧ scope.routeKey ≠ Hash.zero
  | .beginOpen _ => True

omit [DecidableEq RelayTicket] in
theorem observing_self (selected : SelectedHnsaNamedRoute RelayTicket) :
    selected.observing selected.candidate.trustedTimeHighWater = selected :=
  rfl

omit [DecidableEq RelayTicket] in
/-- The state holds every selection, and each has the floors of a call that was made. -/
structure Platform.Sound (platform : Platform RelayTicket)
    (past : List (PlatformCall PeerId Requester)) : Prop where
  start : platform.state = .new ∨ platform.state.isScoped
  held : ∀ selected ∈ platform.selections,
    Held selected.candidate.context.resourceGeneration selected.commitment platform.state
  context : ∀ selected ∈ platform.selections,
    ∃ call ∈ past, call.context = selected.candidate.context

/-- The state has moved on, and the selections have only seen later times. -/
structure Follows (before after : Platform RelayTicket) : Prop where
  moves : ReflTransGen Moves before.state after.state
  kept : ∀ {index : Nat} {selected : SelectedHnsaNamedRoute RelayTicket},
    before.selections[index]? = some selected →
    ∃ time, selected.candidate.trustedTimeHighWater ≤ time ∧
      after.selections[index]? = some (selected.observing time)

omit [DecidableEq RelayTicket] in
theorem Follows.refl (platform : Platform RelayTicket) : Follows platform platform where
  moves := .refl
  kept {_ selected} found := ⟨selected.candidate.trustedTimeHighWater, le_rfl, found⟩

omit [DecidableEq RelayTicket] in
theorem Follows.trans {first second third : Platform RelayTicket} (earlier : Follows first second)
    (later : Follows second third) : Follows first third where
  moves := earlier.moves.trans later.moves
  kept found := by
    rcases earlier.kept found with ⟨time, time_le, foundNext⟩
    rcases later.kept foundNext with ⟨laterTime, laterTime_le, foundLast⟩
    exact ⟨laterTime, time_le.trans laterTime_le, foundLast⟩

variable {protocol circuits}

variable {call last : PlatformCall PeerId Requester} {state : HnsaNamedRouteState}
  {platform : Platform RelayTicket} {index : Nat}
  {past later earlier : List (PlatformCall PeerId Requester)}

/-- What a selection does to the state, and what it returns. -/
theorem SelectCall.run_spec (accepts : AcceptsDelegations protocol) {call : SelectCall}
    {final : HnsaNamedRouteState}
    {result : Except (HnsaRouteError ProtocolError RuntimeError)
      (List (SelectedHnsaNamedRoute RelayTicket))} (start : state = .new ∨ state.isScoped)
    (hasScope : (PlatformCall.select call : PlatformCall PeerId Requester).HasScope RuntimeError
      protocol) (run : call.run protocol state = (result, final)) :
    (final = .new ∨ final.isScoped) ∧ ReflTransGen Moves state final ∧
      ∀ selections, result = .ok selections →
        ∀ selected ∈ selections, Returned call.request final selected := by
  rcases Effect.bind_cases run with ⟨error, prepared, rfl⟩ | ⟨scope, middle, prepared, bound⟩
  · have final_eq : state = final := congrArg Prod.snd prepared
    rw [← final_eq]
    exact ⟨start, .refl, fun selections failed => by cases failed⟩
  have middle_eq : state = middle := congrArg Prod.snd prepared
  rw [← middle_eq] at bound
  rcases hasScope scope (congrArg Prod.fst prepared) with ⟨digest_ne, key_ne⟩
  rcases moves_selectBound start digest_ne key_ne bound with ⟨finalScoped, moves⟩
  refine ⟨.inr finalScoped, moves, ?_⟩
  rintro selections rfl
  exact returned_of_selectBound accepts bound

omit [DecidableEq RelayTicket] in
/-- What an attempt does to its selection. -/
theorem Attempt.observed (attempt : Attempt PeerId Requester) (state : HnsaNamedRouteState)
    (selected : SelectedHnsaNamedRoute RelayTicket) :
    ∃ time, selected.candidate.trustedTimeHighWater ≤ time ∧
      (attempt.run protocol circuits state selected).2.selected = selected.observing time := by
  rcases observed_of_attempt (Prod.eta _).symm with ⟨unchanged, -⟩ | ⟨observed, highWater⟩
  · exact ⟨_, le_rfl, unchanged⟩
  · exact ⟨_, highWater, observed⟩

omit [DecidableEq RelayTicket] in
theorem Attempt.kept {attempt : Attempt PeerId Requester}
    {selected : SelectedHnsaNamedRoute RelayTicket}
    (found : platform.selections[attempt.index]? = some selected)
    {other : SelectedHnsaNamedRoute RelayTicket}
    (foundOther : platform.selections[index]? = some other) :
    ∃ time, other.candidate.trustedTimeHighWater ≤ time ∧
      (platform.selections.set attempt.index
        (attempt.run protocol circuits platform.state selected).2.selected)[index]? =
        some (other.observing time) := by
  by_cases same : attempt.index = index
  · subst same
    obtain rfl := Option.some.inj (found.symm.trans foundOther)
    rcases attempt.observed platform.state selected with ⟨time, time_le, observed⟩
    rw [List.getElem?_set_self (List.getElem?_eq_some_iff.mp found).1, observed]
    exact ⟨time, time_le, rfl⟩
  · rw [List.getElem?_set_ne same]
    exact ⟨_, le_rfl, foundOther⟩

theorem mem_concat_of_mem {context : HnsaNamedRouteContext}
    (known : ∃ call ∈ past, call.context = context) :
    ∃ call ∈ past ++ [last], call.context = context := by
  rcases known with ⟨call, mem, same⟩
  exact ⟨call, List.mem_append_left [last] mem, same⟩

theorem Platform.Sound.step (accepts : AcceptsDelegations protocol) (sound : platform.Sound past)
    (hasScope : call.HasScope RuntimeError protocol) :
    (platform.step protocol circuits call).Sound (past ++ [call]) ∧
      Follows platform (platform.step protocol circuits call) := by
  cases call with
  | select call =>
    rcases run : (call.run protocol : SelectionEffect ProtocolError RuntimeError _)
      platform.state with ⟨result, final⟩
    rcases SelectCall.run_spec accepts sound.start hasScope run with ⟨start, moves, returned⟩
    have stepped : platform.step protocol circuits (.select call) =
        ⟨final, platform.selections ++ result.toOption.getD []⟩ := by
      rw [Platform.step, run]
    have fresh : ∀ selected ∈ result.toOption.getD [], Returned call.request final selected := by
      cases result with
      | error error => exact fun _ new => absurd new List.not_mem_nil
      | ok selections => exact returned selections rfl
    rw [stepped]
    constructor
    · constructor
      · exact start
      · intro selected mem
        rcases List.mem_append.mp mem with old | new
        · exact (sound.held selected old).run moves
        · have isReturned := fresh selected new
          rw [isReturned.context]
          exact isReturned.held
      · intro selected mem
        rcases List.mem_append.mp mem with old | new
        · exact mem_concat_of_mem (sound.context selected old)
        · exact ⟨.select call, List.mem_append_right past List.mem_cons_self,
            (fresh selected new).context.symm⟩
    · constructor
      · exact moves
      · intro index selected found
        refine ⟨_, le_rfl, ?_⟩
        rw [observing_self]
        exact List.getElem?_append_left (List.getElem?_eq_some_iff.mp found).1 ▸ found
  | beginOpen attempt =>
    cases found : platform.selections[attempt.index]? with
    | none =>
      have stepped : platform.step protocol circuits (.beginOpen attempt) = platform := by
        rw [Platform.step, found]
      rw [stepped]
      exact ⟨⟨sound.start, sound.held, fun selected mem =>
        mem_concat_of_mem (sound.context selected mem)⟩, .refl platform⟩
    | some selected =>
      have stepped : platform.step protocol circuits (.beginOpen attempt) =
          { platform with
            selections := platform.selections.set attempt.index
              (attempt.run protocol circuits platform.state selected).2.selected } := by
        rw [Platform.step, found]
      have mem_selected := List.mem_of_getElem? found
      rcases attempt.observed platform.state selected with ⟨time, -, kept⟩
      rw [stepped]
      constructor
      · constructor
        · exact sound.start
        · intro other mem
          rcases List.mem_or_eq_of_mem_set mem with old | rfl
          · exact sound.held other old
          · rw [kept]
            exact sound.held selected mem_selected
        · intro other mem
          rcases List.mem_or_eq_of_mem_set mem with old | rfl
          · exact mem_concat_of_mem (sound.context other old)
          · rw [kept]
            exact mem_concat_of_mem (sound.context selected mem_selected)
      · exact ⟨.refl, fun foundOther => Attempt.kept found foundOther⟩

variable (circuits) in
theorem Platform.Sound.run (accepts : AcceptsDelegations protocol)
    {calls : List (PlatformCall PeerId Requester)} (sound : platform.Sound past)
    (scopes : ∀ call ∈ calls, call.HasScope RuntimeError protocol) :
    (runFrom (Platform.step protocol circuits) platform calls).Sound (past ++ calls) ∧
      Follows platform (runFrom (Platform.step protocol circuits) platform calls) := by
  induction calls generalizing platform past with
  | nil =>
    rw [List.append_nil]
    exact ⟨sound, .refl platform⟩
  | cons call calls ih =>
    rw [List.forall_mem_cons] at scopes
    rcases sound.step accepts scopes.1 with ⟨stepSound, follows⟩
    rcases ih stepSound scopes.2 with ⟨runSound, runFollows⟩
    rw [List.append_assoc] at runSound
    exact ⟨runSound, follows.trans runFollows⟩

omit [DecidableEq RelayTicket] in
/-- Later attempts find the selection of an earlier one, with a time that is not lower. -/
theorem Follows.selected {before after : Platform RelayTicket} (follows : Follows before after)
    {selected later : SelectedHnsaNamedRoute RelayTicket}
    (found : before.selections[index]? = some selected)
    (foundLater : after.selections[index]? = some later) :
    ∃ time, selected.candidate.trustedTimeHighWater ≤ time ∧ later = selected.observing time := by
  rcases follows.kept found with ⟨time, time_le, kept⟩
  exact ⟨time, time_le, Option.some.inj (foundLater.symm.trans kept)⟩

variable (protocol circuits) in
/-- What an opening says about the calls before it. -/
structure Admissible (platform : Platform RelayTicket)
    (past : List (PlatformCall PeerId Requester)) (attempt : Attempt PeerId Requester) : Prop where
  /-- No earlier attempt with the selection has found it superseded. -/
  notRetired : ∀ earlier retired later, past = earlier ++ .beginOpen retired :: later →
    retired.index = attempt.index →
    ¬ (runFrom (Platform.step protocol circuits) platform earlier).Ends protocol circuits retired
        (.error .selectedRouteStateChanged) ∧
      ¬ (runFrom (Platform.step protocol circuits) platform earlier).Ends protocol circuits retired
        (.error .resourceGenerationChanged)
  timely : ∃ selected, (runFrom (Platform.step protocol circuits) platform past).selections[
      attempt.index]? = some selected ∧ Timely selected.candidate attempt.request
  /-- The time is not before the selection was made. -/
  notBeforeSelected : ∀ earlier call later, past = earlier ++ .select call :: later →
    (runFrom (Platform.step protocol circuits) platform earlier).selections.length ≤ attempt.index →
    attempt.index <
      (runFrom (Platform.step protocol circuits) platform
        (earlier ++ [.select call])).selections.length →
    call.request.trustedNow ≤ attempt.request.trustedNow
  /-- The time is not before that of an earlier attempt under the authorities of the
  selection. -/
  notBeforeSeen : ∀ earlier seen later, past = earlier ++ .beginOpen seen :: later →
    seen.index = attempt.index →
    (∃ selected, (runFrom (Platform.step protocol circuits) platform earlier).selections[
      seen.index]? = some selected ∧ CurrentAuthorities selected.candidate seen.request) →
    seen.request.trustedNow ≤ attempt.request.trustedNow

/-- The platform never lowers a floor. -/
def Ordered (calls : List (PlatformCall PeerId Requester)) : Prop :=
  calls.Pairwise fun (earlier later : PlatformCall PeerId Requester) =>
    NotOlder earlier.context later.context

theorem Ordered.notOlder (ordered : Ordered (past ++ [last])) (mem : call ∈ past) :
    NotOlder call.context last.context :=
  (List.pairwise_append.mp ordered).2.2 call mem last List.mem_cons_self

theorem Ordered.notOlder_of_append {other : PlatformCall PeerId Requester}
    (ordered : Ordered (earlier ++ call :: later)) (mem : other ∈ earlier) :
    NotOlder other.context call.context :=
  (List.pairwise_append.mp ordered).2.2 other mem call List.mem_cons_self

variable (circuits) in
/-- A run up to a call and the part of it after that. -/
theorem follows_of_split (accepts : AcceptsDelegations protocol)
    (initial : state = .new ∨ state.isScoped)
    (scopes : ∀ call ∈ earlier ++ later, call.HasScope RuntimeError protocol) :
    (runFrom (Platform.step protocol circuits) ⟨state, []⟩ earlier).Sound earlier ∧
      Follows (runFrom (Platform.step protocol circuits) ⟨state, []⟩ earlier)
        (runFrom (Platform.step protocol circuits) ⟨state, []⟩ (earlier ++ later)) := by
  rw [List.forall_mem_append] at scopes
  have start : Platform.Sound (⟨state, []⟩ : Platform RelayTicket)
      ([] : List (PlatformCall PeerId Requester)) :=
    ⟨initial, fun _ mem => absurd mem List.not_mem_nil, fun _ mem => absurd mem List.not_mem_nil⟩
  have sound := (start.run circuits accepts scopes.1).1
  rw [runFrom_append]
  exact ⟨sound, (sound.run circuits accepts scopes.2).2⟩

section

variable {before after : Platform RelayTicket} {selected : SelectedHnsaNamedRoute RelayTicket}
  {attempt other : Attempt PeerId Requester} {route : HnsrRoute}

section

omit [DecidableEq RelayTicket]

/-- A selection that the state has left behind is not opened later. -/
theorem not_ends_of_outdated (sound : before.Sound earlier) (follows : Follows before after)
    (same : other.index = attempt.index)
    (outdated : before.Ends protocol circuits other (.error .selectedRouteStateChanged)) :
    ¬ after.Ends protocol circuits attempt (.ok route) := by
  rcases outdated with ⟨selected, found, refused⟩
  rintro ⟨laterSelected, foundLater, opened⟩
  rw [same] at found
  rcases follows.selected found foundLater with ⟨time, -, rfl⟩
  have notOpenable := outdated_of_attempt (Prod.ext refused rfl)
  rcases opened_of_attempt (Prod.ext opened rfl) with
    ⟨authorities, -, -, ⟨generation, current⟩, -⟩
  have openable : Openable selected.candidate.context.resourceGeneration selected.commitment
      after.state := ⟨generation.trans authorities.resourceGeneration.symm, current⟩
  exact notOpenable (openable.of_run (sound.held selected (List.mem_of_getElem? found))
    follows.moves)

/-- A selection under an older resource generation is not opened later. -/
theorem not_ends_of_generation (sound : before.Sound earlier) (follows : Follows before after)
    (same : other.index = attempt.index)
    (notOlder : ∀ call ∈ earlier, NotOlder call.context other.request.context)
    (newer : NotOlder other.request.context attempt.request.context)
    (outdated : before.Ends protocol circuits other (.error .resourceGenerationChanged)) :
    ¬ after.Ends protocol circuits attempt (.ok route) := by
  rcases outdated with ⟨selected, found, refused⟩
  rintro ⟨laterSelected, foundLater, opened⟩
  rw [same] at found
  rcases follows.selected found foundLater with ⟨time, -, rfl⟩
  have other_ne := generation_ne_of_attempt (Prod.ext refused rfl)
  rcases sound.context selected (List.mem_of_getElem? found) with ⟨call, mem, context_eq⟩
  have below := (notOlder call mem).resourceGeneration
  rw [context_eq] at below
  have authorities := (opened_of_attempt (Prod.ext opened rfl)).1.resourceGeneration
  have lower : selected.candidate.context.resourceGeneration <
      attempt.request.context.resourceGeneration :=
    (lt_of_le_of_ne below other_ne).trans_le newer.resourceGeneration
  exact lower.ne authorities

/-- An opening is not before the time that its selection has retained. -/
theorem le_of_retained (follows : Follows before after)
    (found : before.selections[attempt.index]? = some selected)
    (opened : after.Ends protocol circuits attempt (.ok route)) :
    selected.candidate.trustedTimeHighWater ≤ attempt.request.trustedNow := by
  rcases opened with ⟨laterSelected, foundLater, opened⟩
  rcases follows.selected found foundLater with ⟨time, time_le, rfl⟩
  exact time_le.trans (opened_of_attempt (Prod.ext opened rfl)).2.1

theorem floor_le_of_opened (opened : after.Ends protocol circuits attempt (.ok route)) :
    attempt.request.context.trustedTimeHighWater ≤ attempt.request.trustedNow := by
  rcases opened with ⟨selected, found, opened⟩
  exact (opened_of_attempt (Prod.ext opened rfl)).2.2.1

end

/-- The time of an attempt under the authorities of the selection is retained, unless it is
below what the selection or the platform has retained already. -/
theorem le_of_seen (follows : Follows (before.step protocol circuits (.beginOpen other)) after)
    (same : other.index = attempt.index)
    (newer : NotOlder other.request.context attempt.request.context)
    (found : before.selections[other.index]? = some selected)
    (authorities : CurrentAuthorities selected.candidate other.request)
    (opened : after.Ends protocol circuits attempt (.ok route)) :
    other.request.trustedNow ≤ attempt.request.trustedNow := by
  have stepped : (before.step protocol circuits (.beginOpen other)).selections[attempt.index]? =
      some (other.run protocol circuits before.state selected).2.selected := by
    rw [Platform.step, found, ← same]
    exact List.getElem?_set_self (List.getElem?_eq_some_iff.mp found).1
  have retained := le_of_retained follows stepped opened
  rcases observed_of_attempt (Prod.eta _).symm with ⟨unchanged, refused⟩ | ⟨observed, -⟩
  · rw [Attempt.run, unchanged] at retained
    by_cases below : other.request.trustedNow < selected.candidate.trustedTimeHighWater
    · exact below.le.trans retained
    · have belowFloor : other.request.trustedNow <
          other.request.context.trustedTimeHighWater := by
        apply lt_of_not_ge
        exact fun floor => refused ⟨authorities, not_lt.mp below, floor⟩
      exact belowFloor.le.trans (newer.trustedTimeHighWater.trans (floor_le_of_opened opened))
  · rw [Attempt.run, observed] at retained
    exact retained

end

omit [DecidableEq RelayTicket] in
theorem exists_getElem?_eq_some {items : List (SelectedHnsaNamedRoute RelayTicket)}
    (inRange : index < items.length) : ∃ item, items[index]? = some item :=
  ⟨items[index], List.getElem?_eq_getElem inRange⟩

/-- The selections of a call carry its time. -/
theorem time_of_select (accepts : AcceptsDelegations protocol) (sound : platform.Sound past)
    {call : SelectCall}
    (hasScope : (PlatformCall.select call : PlatformCall PeerId Requester).HasScope RuntimeError
      protocol) (fresh : platform.selections.length ≤ index)
    {selected : SelectedHnsaNamedRoute RelayTicket}
    (found : (platform.step protocol circuits (.select call)).selections[index]? =
      some selected) : selected.candidate.trustedTimeHighWater = call.request.trustedNow := by
  rcases run : (call.run protocol : SelectionEffect ProtocolError RuntimeError _)
    platform.state with ⟨result, final⟩
  rw [Platform.step, run] at found
  change (platform.selections ++ result.toOption.getD [])[index]? = some selected at found
  rw [List.getElem?_append_right fresh] at found
  cases result with
  | error error => cases found
  | ok selections =>
    exact ((SelectCall.run_spec accepts sound.start hasScope run).2.2 selections rfl selected
      (List.mem_of_getElem? found)).trustedTimeHighWater

/-- No resurrection: a selection that an attempt has found superseded is never opened later, and
every opening comes while the chain anchor and the route hold, with a deadline before their
expiry, at a time that is not before the selection or before an attempt with it under the same
authorities. -/
theorem opened_is_admissible (accepts : AcceptsDelegations protocol) {state : HnsaNamedRouteState}
    (initial : state = .new ∨ state.isScoped) {past : List (PlatformCall PeerId Requester)}
    {attempt : Attempt PeerId Requester}
    (scopes : ∀ call ∈ past, call.HasScope RuntimeError protocol)
    (ordered : Ordered (past ++ [.beginOpen attempt])) {route : HnsrRoute}
    (opened : (runFrom (Platform.step protocol circuits) ⟨state, []⟩ past).Ends protocol circuits
      attempt (.ok route)) :
    Admissible protocol circuits ⟨state, []⟩ past attempt where
  notRetired := by
    rintro earlier retired later rfl same
    rcases follows_of_split circuits accepts initial scopes with ⟨sound, follows⟩
    have newer := ordered.notOlder (List.mem_append_right earlier List.mem_cons_self)
    have inOrder : Ordered (earlier ++ .beginOpen retired :: (later ++ [.beginOpen attempt])) := by
      rw [List.append_assoc] at ordered
      exact ordered
    constructor
    · exact fun outdated => not_ends_of_outdated sound follows same outdated opened
    · exact fun outdated => not_ends_of_generation sound follows same
        (fun call mem => inOrder.notOlder_of_append mem) newer outdated opened
  timely := by
    rcases opened with ⟨selected, found, opened⟩
    exact ⟨selected, found, (opened_of_attempt (Prod.ext opened rfl)).2.2.2.2⟩
  notBeforeSelected := by
    rintro earlier call later rfl fresh inRange
    have split : earlier ++ .select call :: later = (earlier ++ [.select call]) ++ later := by
      rw [List.append_assoc, List.singleton_append]
    have sound := (follows_of_split circuits accepts initial scopes).1
    have hasScope := scopes _ (List.mem_append_right earlier List.mem_cons_self)
    rw [split] at scopes opened
    have follows := (follows_of_split circuits accepts initial scopes).2
    rcases exists_getElem?_eq_some inRange with ⟨selected, found⟩
    have retained := le_of_retained follows found opened
    rw [runFrom_concat] at found
    rwa [time_of_select accepts sound hasScope fresh found] at retained
  notBeforeSeen := by
    rintro earlier seen later rfl same ⟨selected, found, authorities⟩
    have newer := ordered.notOlder (List.mem_append_right earlier List.mem_cons_self)
    have split : earlier ++ .beginOpen seen :: later = (earlier ++ [.beginOpen seen]) ++ later := by
      rw [List.append_assoc, List.singleton_append]
    rw [split] at scopes opened
    have follows := (follows_of_split circuits accepts initial scopes).2
    rw [runFrom_concat] at follows
    exact le_of_seen follows same newer found authorities opened

end

namespace ExampleAttempts

open ExampleRoutes

/-- The engine after a number of events. -/
def engineAt (events : Nat) : Engine :=
  { engine with runtime := { engine.runtime with eventSequence := events } }

/-- Every circuit opens. -/
def circuits : HnsrRequester Unit Unit Unit Unit Unit where
  generation _ := 1
  replaceEnabled _ _ _ := (.ok [], ())
  beginOpen _ _ := (.ok (), ())

/-- The binding of the sixth event. -/
def binding : HnsrTransportBinding :=
  ⟨⟨engine.runtime.session, 1, 6⟩, .regtest, 1, 1, .auto, .shakescapeV1, .requester, 2, true⟩

/-- A selection of routes with the sequence, under the engine of the fourth event. -/
def selectAt (sequence : UInt8) : PlatformCall Unit Unit :=
  .select ⟨engineAt 4, engineAt 5, resource, [[sequence, 200]], request⟩

def otherResource : VerifiedHnsResource :=
  { resource with anchor := { resource.anchor with height := 11 } }

/-- An attempt with the first selection. -/
def attemptAt (verified : VerifiedHnsResource) (trustedNow : Nat) : Attempt Unit Unit :=
  ⟨0, engineAt 6, ⟨binding, (), none⟩,
    ⟨verified, context, ⟨binding, (), []⟩, 0, trustedNow, 180, 1⟩⟩

theorem protocol_acceptsDelegations : AcceptsDelegations protocol := by
  intro _ _ _ _ _ _ chosen selected
  simp only [protocol] at selected
  split at selected
  next accepted =>
    cases selected
    exact accepted.2
  next => cases selected

theorem ordered_of_constant {calls : List (PlatformCall Unit Unit)}
    (constant : ∀ call ∈ calls, call.context = context) : Ordered calls := by
  apply List.pairwise_of_forall_mem_list
  intro earlier earlierMem later laterMem
  rw [constant earlier earlierMem, constant later laterMem]
  exact ⟨le_rfl, le_rfl, le_rfl⟩

def after (verifier : HnsaProtocol Unit Unit Unit) (past : List (PlatformCall Unit Unit)) :
    Platform Unit :=
  runFrom (Platform.step verifier circuits) ⟨.new, []⟩ past

/-- A selection, an attempt at 120 and an opening at 150. -/
theorem opened_is_admissible_later :
    Admissible protocol circuits ⟨.new, []⟩ [selectAt 5, .beginOpen (attemptAt resource 120)]
      (attemptAt resource 150) := by
  have opened : (after protocol [selectAt 5, .beginOpen (attemptAt resource 120)]).Ends protocol
      circuits (attemptAt resource 150) (.ok ()) := by
    decide
  refine opened_is_admissible protocol_acceptsDelegations (.inl rfl) ?_ ?_ opened
  · intro call mem
    rcases List.mem_pair.mp mem with rfl | rfl
    · intro scope prepared
      cases prepared
      constructor <;> decide
    · trivial
  · apply ordered_of_constant
    simp [selectAt, attemptAt, PlatformCall.context, request]

/-- The same objects with an all-zero authority digest. -/
def unscopedProtocol : HnsaProtocol Unit Unit Unit :=
  { protocol with
    blake2b256 := fun octets =>
      if octets.getLastD 0 = 7 then Hash.zero else digest (octets.getLastD 0) }

/-- An attempt with another anchor at 160 does not keep the selection from being opened at 150,
and under an all-zero authority digest a superseded selection comes back. -/
theorem times_and_routes_return :
    (Ordered [selectAt 5, .beginOpen (attemptAt otherResource 160),
        .beginOpen (attemptAt resource 150)] ∧
      (after protocol [selectAt 5]).Ends protocol circuits (attemptAt otherResource 160)
        (.error .resourceBindingChanged) ∧
      (after protocol [selectAt 5, .beginOpen (attemptAt otherResource 160)]).Ends protocol circuits
        (attemptAt resource 150) (.ok ())) ∧
    (Ordered [selectAt 5, selectAt 6, .beginOpen (attemptAt resource 150), selectAt 5,
        .beginOpen (attemptAt resource 150)] ∧
      (after unscopedProtocol [selectAt 5, selectAt 6]).Ends unscopedProtocol circuits
        (attemptAt resource 150) (.error .selectedRouteStateChanged) ∧
      (after unscopedProtocol [selectAt 5, selectAt 6, .beginOpen (attemptAt resource 150),
        selectAt 5]).Ends unscopedProtocol circuits (attemptAt resource 150) (.ok ())) := by
  refine ⟨⟨?_, by decide, by decide⟩, ?_, by decide, by decide⟩
  · apply ordered_of_constant
    simp [selectAt, attemptAt, PlatformCall.context, request]
  · apply ordered_of_constant
    simp [selectAt, attemptAt, PlatformCall.context, request]

end ExampleAttempts

end HnsDaneEngine.NamedRoute
