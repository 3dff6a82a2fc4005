import HnsDaneEngine.NamedRoute.AntiRollback
import HnsDaneEngine.NamedRoute.Persistence

/-!
# Stored states of runs

Every state that selections reach can be stored and restored once it has a scope: the
mutators keep the slots canonical, and no endpoint is remembered before an authorization.
-/

namespace HnsDaneEngine.NamedRoute

open Control Data HnsDaneEngine.Order Primitives HnsaNamedRouteState

/-- A slot that a call may fill: machine integers that are not zero, and real ids. -/
def RealSlot (sequence : Nat) (id : Hash) : Prop :=
  sequence < 256 ^ 8 ∧ sequence ≠ 0 ∧ id ≠ .zero

def Call.Real : Call → Prop
  | .bindScope _ _ resourceGeneration => resourceGeneration < 256 ^ 8
  | .mutate (.advanceAuthorization serial id) => RealSlot serial id
  | .mutate (.advanceDelegation endpointKey sequence id) =>
    endpointKey ≠ .zero ∧ RealSlot sequence id
  | .mutate (.advanceRoute endpointKey sequence digest) =>
    endpointKey ≠ .zero ∧ RealSlot sequence digest
  | .mutate .markConflicted => True
  | .mutate .markExhausted => True

/-- Each selection advances the authorization before the delegations under it; the flag says
whether the selection under way has done so. -/
def AuthorizesFirst : Bool → List Call → Prop
  | _, [] => True
  | _, .bindScope _ _ _ :: rest => AuthorizesFirst false rest
  | _, .mutate (.advanceAuthorization _ _) :: rest => AuthorizesFirst true rest
  | authorized, .mutate (.advanceDelegation _ _ _) :: rest =>
    authorized = true ∧ AuthorizesFirst authorized rest
  | authorized, .mutate (.advanceRoute _ _ _) :: rest => AuthorizesFirst authorized rest
  | authorized, .mutate .markConflicted :: rest => AuthorizesFirst authorized rest
  | authorized, .mutate .markExhausted :: rest => AuthorizesFirst authorized rest

variable {sequence : Nat} {id : Hash} {assign : HnsaNamedRouteState → HnsaNamedRouteState}
  {state final : HnsaNamedRouteState} {endpointKey : EndpointKey} {authorized : Bool}

theorem RealSlot.validSlot (real : RealSlot sequence id) : ValidSlot (some ⟨sequence, id⟩) := by
  intro held taken
  cases taken
  exact real

theorem storable_new : Storable HnsaNamedRouteState.new where
  generation_lt := by decide
  resourceGeneration_lt := by decide
  authorization := validSlot_none
  each := by simp [new, SortedTable.empty]
  authorized _ := rfl

/-- A change under the next generation. -/
theorem storable_bumpThen (storable : Storable state)
    (assigned : Storable state.bumped → Storable (assign state.bumped)) :
    Storable (bumpThen assign state).2 := by
  cases added : checkedAdd state.generation 1 with
  | none =>
    have failed : bumpThen assign state = (.error .sequenceStateGenerationExhausted, state) :=
      Effect.bind_error (by rw [bumpGeneration, added])
    rw [failed]
    exact storable
  | some generation =>
    rcases checkedAdd_eq_some_iff.mp added with ⟨rfl, fits⟩
    have done : bumpThen assign state = (.ok ⟨⟩, assign state.bumped) :=
      Effect.bind_ok (by rw [bumpGeneration, added]; rfl)
    rw [done]
    refine assigned ⟨?_, storable.resourceGeneration_lt, storable.authorization, storable.each,
      storable.authorized⟩
    exact Nat.lt_of_le_of_lt fits (by decide)

theorem storable_markConflicted (storable : Storable state) :
    Storable (markConflicted state).2 := by
  unfold markConflicted
  split
  next => exact storable
  next =>
    exact storable_bumpThen storable fun bumped =>
      ⟨bumped.generation_lt, bumped.resourceGeneration_lt, bumped.authorization, bumped.each,
        bumped.authorized⟩

theorem storable_markExhausted (storable : Storable state) : Storable (markExhausted state).2 := by
  unfold markExhausted
  split
  next => exact storable
  next =>
    exact storable_bumpThen storable fun bumped =>
      ⟨bumped.generation_lt, bumped.resourceGeneration_lt, bumped.authorization, bumped.each,
        bumped.authorized⟩

theorem storable_refuseConflict (storable : Storable state) :
    Storable (refuseConflict state).2 := by
  rw [refuseConflict, snd_bind_throw]
  exact storable_markConflicted storable

theorem storable_bindScope (storable : Storable state) (authorityDigest routeKey : Hash)
    {resourceGeneration : Nat} (fits : resourceGeneration < 256 ^ 8) :
    Storable (bindScope authorityDigest routeKey resourceGeneration state).2 := by
  unfold bindScope
  split_ifs
  · exact storable
  · exact storable
  · exact storable
  · exact storable_bumpThen storable fun bumped =>
      ⟨bumped.generation_lt, fits, validSlot_none, by simp [SortedTable.empty], fun _ => rfl⟩
  · exact storable_bumpThen storable fun bumped =>
      ⟨bumped.generation_lt, fits, bumped.authorization, bumped.each, bumped.authorized⟩
  · exact storable
  · exact ⟨(by decide : 1 < 256 ^ 8), fits, validSlot_none, by simp [SortedTable.empty],
      fun _ => rfl⟩

/-- Other rows under the same keys. -/
theorem Storable.mapRows (storable : Storable state)
    {change : EndpointKey → HnsaEndpointState → HnsaEndpointState}
    (valid : ∀ row ∈ state.endpoints.rows, ValidEndpoint (row.1, change row.1 row.2)) :
    Storable { state with endpoints := state.endpoints.mapRows change } where
  generation_lt := storable.generation_lt
  resourceGeneration_lt := storable.resourceGeneration_lt
  authorization := storable.authorization
  each := by
    intro row member
    rcases List.mem_map.mp member with ⟨before, inRows, rfl⟩
    exact valid before inRows
  authorized absent := List.map_eq_nil_iff.mpr (storable.authorized absent)

theorem storable_advanceAuthorization (storable : Storable state) {serial : Nat}
    (real : RealSlot serial id) :
    Storable (advanceAuthorization serial id state).2 := by
  unfold advanceAuthorization
  split
  · exact storable_bumpThen storable fun bumped =>
      ⟨bumped.generation_lt, bumped.resourceGeneration_lt, real.validSlot, bumped.each,
        fun absent => by cases absent⟩
  · exact storable
  · exact storable_refuseConflict storable
  · apply storable_bumpThen storable
    intro bumped
    have cleared := @Storable.mapRows _ bumped (fun _ endpoint => { endpoint with delegation := none })
      fun row member => ⟨(bumped.each row member).key_ne, validSlot_none,
        (bumped.each row member).route⟩
    exact ⟨bumped.generation_lt, bumped.resourceGeneration_lt, real.validSlot, cleared.each,
      fun absent => by cases absent⟩
  · exact storable

theorem Storable.modify (storable : Storable state) {change : HnsaEndpointState → HnsaEndpointState}
    (valid : ∀ row, ValidEndpoint row → ValidEndpoint (row.1, change row.2)) :
    Storable { state with endpoints := state.endpoints.modify endpointKey change } := by
  apply storable.mapRows
  intro row member
  split
  · exact valid row (storable.each row member)
  · exact storable.each row member

theorem storable_advanceDelegation (storable : Storable state)
    (authorized : state.authorization ≠ none) (key_ne : endpointKey ≠ .zero)
    (real : RealSlot sequence id) :
    Storable (advanceDelegation endpointKey sequence id state).2 := by
  unfold advanceDelegation
  split
  · split
    · exact storable
    · exact storable_refuseConflict storable
    · exact storable
    · exact storable_bumpThen storable fun bumped =>
        bumped.modify fun row valid => ⟨valid.key_ne, real.validSlot, valid.route⟩
    · exact storable_bumpThen storable fun bumped =>
        bumped.modify fun row valid => ⟨valid.key_ne, real.validSlot, valid.route⟩
  · split
    · rw [snd_bind_throw]
      exact storable_markExhausted storable
    next endpoints inserted =>
      apply storable_bumpThen storable
      intro bumped
      refine ⟨bumped.generation_lt, bumped.resourceGeneration_lt, bumped.authorization, ?_,
        fun absent => absurd absent authorized⟩
      intro row member
      unfold SortedTable.insert? at inserted
      split at inserted
      next =>
        cases inserted
        rcases SortedTable.mem_insertRow member with rfl | old
        · exact ⟨key_ne, real.validSlot, validSlot_none⟩
        · exact storable.each row old
      next => cases inserted

theorem storable_advanceRoute (storable : Storable state) (endpointKey : EndpointKey)
    {digest : Hash} (real : RealSlot sequence digest) :
    Storable (advanceRoute endpointKey sequence digest state).2 := by
  unfold advanceRoute
  split
  · exact storable
  split
  · exact storable
  · exact storable_refuseConflict storable
  · exact storable
  · exact storable_bumpThen storable fun bumped =>
      bumped.modify fun row valid => ⟨valid.key_ne, valid.delegation, real.validSlot⟩
  · exact storable_bumpThen storable fun bumped =>
      bumped.modify fun row valid => ⟨valid.key_ne, valid.delegation, real.validSlot⟩

/-- A successful mutation leaves an authorization where there was one. -/
theorem Mutation.authorization_ne (mutation : Mutation) (authorized : state.authorization ≠ none)
    (run : mutation.run state = (.ok ⟨⟩, final)) :
    final.authorization ≠ none := by
  rcases mutation.eq_of_run run with rfl | ⟨endpoints, rfl⟩ | ⟨slot, endpoints, rfl⟩
  · exact authorized
  · exact authorized
  · exact Option.some_ne_none slot

theorem authorized_of_advanceAuthorization {serial : Nat}
    (run : advanceAuthorization serial id state = (.ok ⟨⟩, final)) :
    final.authorization ≠ none := by
  have followed := congrArg (·.2.2) (authorization_of_advanceAuthorization run)
  intro absent
  cases followed.symm.trans absent

/-- What holds between the calls of selections. -/
structure Session.Restorable (authorized : Bool) (session : Session) : Prop where
  storable : Storable session.state
  authorized_ne : session.admitted = true → authorized = true → session.state.authorization ≠ none

theorem Session.Restorable.of_outcome
    {outcome : Except SequenceStateError PUnit × HnsaNamedRouteState}
    (storable : Storable outcome.2)
    (authorized_ne : ∀ final, outcome = (.ok ⟨⟩, final) → authorized = true →
      final.authorization ≠ none) :
    (Session.ofOutcome outcome).Restorable authorized := by
  rcases outcome with ⟨result, final⟩
  refine ⟨storable, ?_⟩
  intro admitted
  cases toBool_eq_true admitted
  exact authorized_ne final rfl

/-- A mutation that keeps states storable. -/
theorem Session.Restorable.mutate {after : Bool} {session : Session}
    (restorable : session.Restorable authorized) {mutation : Mutation}
    (storable : session.admitted = true → Storable (mutation.run session.state).2)
    (authorized_ne : session.admitted = true → ∀ final,
      mutation.run session.state = (.ok ⟨⟩, final) → after = true → final.authorization ≠ none) :
    (session.step (.mutate mutation)).Restorable after := by
  by_cases admitted : session.admitted = true
  · rw [Session.step_mutate_of_admitted admitted]
    exact .of_outcome (storable admitted) (authorized_ne admitted)
  · rw [Session.step_mutate_of_refused admitted]
    exact ⟨restorable.storable, fun holds => absurd holds admitted⟩

/-- Every run of real calls in the order of selections reaches only storable states. -/
theorem Session.Restorable.run {session : Session} (restorable : session.Restorable authorized)
    {calls : List Call} (real : ∀ call ∈ calls, call.Real)
    (ordered : AuthorizesFirst authorized calls) :
    Storable (runFrom Session.step session calls).state := by
  induction calls generalizing authorized session with
  | nil => exact restorable.storable
  | cons call calls ih =>
    rw [List.forall_mem_cons] at real
    rcases real with ⟨callReal, restReal⟩
    have kept (mutation : Mutation) (admitted : session.admitted = true)
        (final : HnsaNamedRouteState) (run : mutation.run session.state = (.ok ⟨⟩, final))
        (holds : authorized = true) : final.authorization ≠ none :=
      mutation.authorization_ne (restorable.authorized_ne admitted holds) run
    cases call with
    | bindScope authorityDigest routeKey resourceGeneration =>
      have after : (session.step
          (.bindScope authorityDigest routeKey resourceGeneration)).Restorable false := by
        refine .of_outcome ?_ fun _ _ holds => by cases holds
        rcases bindAndCheck_cases authorityDigest routeKey resourceGeneration session.state with
          ⟨outcome, final, bound, final_eq, -⟩
        have storable := storable_bindScope restorable.storable authorityDigest routeKey callReal
        rw [bound] at storable
        rw [final_eq]
        exact storable
      exact ih after restReal ordered
    | mutate mutation =>
      cases mutation with
      | advanceAuthorization serial id =>
        have after : (session.step
            (.mutate (.advanceAuthorization serial id))).Restorable true :=
          restorable.mutate
            (fun _ => storable_advanceAuthorization restorable.storable callReal)
            fun _ final run _ => authorized_of_advanceAuthorization run
        exact ih after restReal ordered
      | advanceDelegation endpointKey sequence id =>
        have after : (session.step
            (.mutate (.advanceDelegation endpointKey sequence id))).Restorable authorized :=
          restorable.mutate
            (fun admitted => storable_advanceDelegation restorable.storable
              (restorable.authorized_ne admitted ordered.1) callReal.1 callReal.2)
            (kept (.advanceDelegation endpointKey sequence id))
        exact ih after restReal ordered.2
      | advanceRoute endpointKey sequence digest =>
        have after : (session.step
            (.mutate (.advanceRoute endpointKey sequence digest))).Restorable authorized :=
          restorable.mutate
            (fun _ => storable_advanceRoute restorable.storable endpointKey callReal.2)
            (kept (.advanceRoute endpointKey sequence digest))
        exact ih after restReal ordered
      | markConflicted =>
        have storable : Storable (Mutation.markConflicted.run session.state).2 := by
          rw [Mutation.run, snd_bind_throw]
          exact storable_markConflicted restorable.storable
        have after : (session.step (.mutate .markConflicted)).Restorable authorized :=
          restorable.mutate (fun _ => storable) (kept .markConflicted)
        exact ih after restReal ordered
      | markExhausted =>
        have storable : Storable (Mutation.markExhausted.run session.state).2 := by
          rw [Mutation.run, snd_bind_throw]
          exact storable_markExhausted restorable.storable
        have after : (session.step (.mutate .markExhausted)).Restorable authorized :=
          restorable.mutate (fun _ => storable) (kept .markExhausted)
        exact ih after restReal ordered

/-- A state that real selections reach is the initial one or has a stored form of bounded length
that is read back as the state, and every stored form that is accepted is the one of its
state. -/
theorem state_codec (blake2b256 : Octets → Hash) :
    (∀ calls : List Call, (∀ call ∈ calls, call.Real ∧ call.HasScope) →
      AuthorizesFirst false calls → (runFrom Session.step ⟨.new, false⟩ calls).state ≠ .new →
      ∃ bytes, (runFrom Session.step ⟨.new, false⟩ calls).state.encode blake2b256 = .ok bytes ∧
        bytes.length ≤ maxHnsaNamedRouteStateBytes ∧
        decode blake2b256 bytes = .ok (runFrom Session.step ⟨.new, false⟩ calls).state) ∧
    ∀ bytes state, decode blake2b256 bytes = .ok state → state.encode blake2b256 = .ok bytes := by
  constructor
  · intro calls real ordered changed
    have start : Session.Restorable false ⟨.new, false⟩ := ⟨storable_new, by simp⟩
    have storable := start.run (fun call member => (real call member).1) ordered
    have sound := (Session.sound_start (.inl rfl)).run fun call member => (real call member).2
    have inScope := sound.start.resolve_left changed
    exact ⟨stored blake2b256 _, encode_eq_ok inScope, length_stored_le _,
      decode_eq_ok_iff.mpr ⟨storable, inScope, rfl⟩⟩
  · intro bytes state decoded
    rcases decode_eq_ok_iff.mp decoded with ⟨-, inScope, rfl⟩
    exact encode_eq_ok inScope

namespace ExampleScope

theorem length_key : (List.replicate 33 (2 : UInt8)).length = 33 :=
  List.length_replicate

def key : EndpointKey :=
  ⟨List.replicate 33 2, length_key⟩

/-- A selection that reaches a route. -/
def selection : List Call :=
  [.bindScope digest digest 1, authorize, .mutate (.advanceDelegation key 1 digest),
    .mutate (.advanceRoute key 1 digest)]

theorem realSlot_first : RealSlot 1 digest :=
  ⟨by decide, Nat.one_ne_zero, digest_ne_zero⟩

theorem key_ne_zero : key ≠ .zero := by
  decide

theorem resource_lt : 1 < 256 ^ 8 := by
  decide

theorem state_codec_selection :
    (∃ bytes, (runFrom Session.step ⟨.new, false⟩ selection).state.encode (fun _ => digest) =
        .ok bytes ∧
      bytes.length ≤ maxHnsaNamedRouteStateBytes ∧
      decode (fun _ => digest) bytes =
        .ok (runFrom Session.step ⟨.new, false⟩ selection).state) ∧
    ∀ bytes state, decode (fun _ => digest) bytes = .ok state →
      state.encode (fun _ => digest) = .ok bytes := by
  have codec := state_codec fun _ => digest
  refine ⟨codec.1 selection ?_ ⟨rfl, trivial⟩ (by decide), codec.2⟩
  simp only [selection, List.forall_mem_cons]
  exact ⟨⟨resource_lt, digest_ne_zero, digest_ne_zero, Nat.one_ne_zero⟩, ⟨realSlot_first, trivial⟩,
    ⟨⟨key_ne_zero, realSlot_first⟩, trivial⟩, ⟨⟨key_ne_zero, realSlot_first⟩, trivial⟩, by simp⟩

/-- A delegation without an authorization. -/
def unauthorized : HnsaNamedRouteState :=
  (runFrom Session.step ⟨.new, false⟩
    [.bindScope digest digest 1, .mutate (.advanceDelegation key 1 digest)]).state

/-- The initial state is not encoded, and a delegation that is advanced before the authorization
leads to a state that is encoded but not decoded. -/
theorem unencoded_states :
    HnsaNamedRouteState.new.encode (fun _ => digest) = .error .invalidSequenceState ∧
      unauthorized.encode (fun _ => digest) = .ok (stored (fun _ => digest) unauthorized) ∧
      decode (fun _ => digest) (stored (fun _ => digest) unauthorized) ≠ .ok unauthorized := by
  have inScope : unauthorized.isScoped := by decide
  refine ⟨rfl, encode_eq_ok inScope, ?_⟩
  intro decoded
  have rows := (decode_eq_ok_iff.mp decoded).1.authorized (by decide)
  revert rows
  decide

end ExampleScope

end HnsDaneEngine.NamedRoute
