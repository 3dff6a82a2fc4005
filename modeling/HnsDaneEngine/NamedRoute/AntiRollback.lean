import HnsDaneEngine.NamedRoute.Sequences

/-!
# Rollback protection of the named-route state

Along every run that binds real scopes the generation counts the changes, the slots of one
authority only move up, and a block lasts until another authority is bound under a greater
resource generation.
-/

namespace HnsDaneEngine.NamedRoute

open Control Data HnsDaneEngine.Order Primitives HnsaNamedRouteState

/-- A session has a scope before it changes anything else, and changes only active states. -/
structure Session.Sound (session : Session) : Prop where
  start : session.state = .new ∨ session.state.isScoped
  admitted : session.admitted = true → session.state.isScoped ∧ session.state.status = .active

variable {before after state final : HnsaNamedRouteState}
  {outcome : Except SequenceStateError PUnit} {session : Session} {calls : List Call}

theorem Moves.isScoped (moves : Moves before after) (hasScope : before.isScoped) :
    after.isScoped := by
  rcases hasScope with ⟨generation_ne, resource_ne, digest_ne, key_ne⟩
  cases moves with
  | stays => exact ⟨generation_ne, resource_ne, digest_ne, key_ne⟩
  | rebinds authorityDigest routeKey resourceGeneration other greater newDigest_ne newKey_ne =>
    exact ⟨Nat.succ_ne_zero _, Nat.ne_of_gt (Nat.zero_lt_of_lt greater), newDigest_ne, newKey_ne⟩
  | renews resourceGeneration greater =>
    exact ⟨Nat.succ_ne_zero _, Nat.ne_of_gt (Nat.zero_lt_of_lt greater), digest_ne, key_ne⟩
  | replaces => exact ⟨Nat.succ_ne_zero _, resource_ne, digest_ne, key_ne⟩
  | blocks => exact ⟨Nat.succ_ne_zero _, resource_ne, digest_ne, key_ne⟩

theorem isScoped_bindScope (start : state = .new ∨ state.isScoped) {authorityDigest routeKey : Hash}
    {resourceGeneration : Nat} (digest_ne : authorityDigest ≠ Hash.zero)
    (key_ne : routeKey ≠ Hash.zero) (generation_ne : resourceGeneration ≠ 0)
    (run : bindScope authorityDigest routeKey resourceGeneration state = (outcome, final)) :
    final.isScoped := by
  rcases start with rfl | hasScope
  · have unscoped : ¬ HnsaNamedRouteState.new.isScoped := by decide
    rw [bindScope, if_pos unscoped] at run
    cases run
    exact ⟨Nat.one_ne_zero, generation_ne, digest_ne, key_ne⟩
  · have moves := moves_bindScope (.inr hasScope) digest_ne key_ne generation_ne
    rw [run] at moves
    exact moves.isScoped hasScope

/-- A mutation that succeeds changes nothing, or the endpoints, also with the authorization. -/
theorem Mutation.eq_of_run (mutation : Mutation) (run : mutation.run state = (.ok ⟨⟩, final)) :
    final = state ∨ (∃ endpoints, final = { state.bumped with endpoints }) ∨
      ∃ slot endpoints, final = { state.bumped with authorization := some slot, endpoints } := by
  cases mutation with
  | advanceAuthorization serial id =>
    change NamedRoute.advanceAuthorization serial id state = _ at run
    unfold NamedRoute.advanceAuthorization at run
    split at run
    · exact .inr (.inr ⟨_, _, eq_of_bumpThen run⟩)
    · cases run
    · exact absurd run bind_throw_ne_ok
    · exact .inr (.inr ⟨_, _, eq_of_bumpThen run⟩)
    · cases run
      exact .inl rfl
  | advanceDelegation endpointKey sequence id =>
    change NamedRoute.advanceDelegation endpointKey sequence id state = _ at run
    unfold NamedRoute.advanceDelegation at run
    split at run
    · split at run
      · cases run
      · exact absurd run bind_throw_ne_ok
      · cases run
        exact .inl rfl
      · exact .inr (.inl ⟨_, eq_of_bumpThen run⟩)
      · exact .inr (.inl ⟨_, eq_of_bumpThen run⟩)
    · split at run
      · exact absurd run bind_throw_ne_ok
      · exact .inr (.inl ⟨_, eq_of_bumpThen run⟩)
  | advanceRoute endpointKey sequence digest =>
    change NamedRoute.advanceRoute endpointKey sequence digest state = _ at run
    unfold NamedRoute.advanceRoute at run
    split at run
    · cases run
    split at run
    · cases run
    · exact absurd run bind_throw_ne_ok
    · cases run
      exact .inl rfl
    · exact .inr (.inl ⟨_, eq_of_bumpThen run⟩)
    · exact .inr (.inl ⟨_, eq_of_bumpThen run⟩)
  | markConflicted => exact absurd run bind_throw_ne_ok
  | markExhausted => exact absurd run bind_throw_ne_ok

/-- A mutation that succeeds leaves the status alone. -/
theorem Mutation.status_eq (mutation : Mutation) (run : mutation.run state = (.ok ⟨⟩, final)) :
    final.status = state.status := by
  rcases mutation.eq_of_run run with rfl | ⟨endpoints, rfl⟩ | ⟨slot, endpoints, rfl⟩
  · rfl
  · rfl
  · rfl

theorem Mutation.moves (mutation : Mutation) (active : state.status = .active) :
    Moves state (mutation.run state).2 := by
  cases mutation with
  | advanceAuthorization serial id => exact moves_advanceAuthorization active serial id
  | advanceDelegation endpointKey sequence id =>
    exact moves_advanceDelegation active endpointKey sequence id
  | advanceRoute endpointKey sequence digest =>
    exact moves_advanceRoute active endpointKey sequence digest
  | markConflicted =>
    rw [Mutation.run, snd_bind_throw]
    exact moves_markConflicted active
  | markExhausted =>
    rw [Mutation.run, snd_bind_throw]
    exact moves_markExhausted active

/-- The check after the scope is bound changes nothing. -/
theorem bindAndCheck_cases (authorityDigest routeKey : Hash) (resourceGeneration : Nat)
    (state : HnsaNamedRouteState) :
    ∃ outcome final,
      bindScope authorityDigest routeKey resourceGeneration state = (outcome, final) ∧
      (bindAndCheck authorityDigest routeKey resourceGeneration state).2 = final ∧
      (∀ value, (bindAndCheck authorityDigest routeKey resourceGeneration state).1 = .ok value →
        outcome = .ok value ∧ final.status = .active) := by
  rcases bound : bindScope authorityDigest routeKey resourceGeneration state with ⟨outcome, final⟩
  refine ⟨outcome, final, rfl, ?_⟩
  unfold bindAndCheck
  cases outcome with
  | error error =>
    rw [Effect.bind_error bound]
    exact ⟨rfl, fun value failed => by cases failed⟩
  | ok value =>
    rw [Effect.bind_ok bound, ensureActive]
    cases status_eq : final.status with
    | active => exact ⟨rfl, fun _ _ => ⟨rfl, rfl⟩⟩
    | conflicted => exact ⟨rfl, fun value failed => by cases failed⟩
    | exhausted => exact ⟨rfl, fun value failed => by cases failed⟩

theorem toBool_eq_true (ok : outcome.toBool = true) : outcome = .ok ⟨⟩ := by
  cases outcome with
  | error error => cases ok
  | ok value => rfl

theorem Session.step_mutate_of_admitted (admitted : session.admitted = true) (mutation : Mutation) :
    session.step (.mutate mutation) = .ofOutcome (mutation.run session.state) :=
  if_pos admitted

theorem Session.step_mutate_of_refused (refused : ¬ session.admitted = true) (mutation : Mutation) :
    session.step (.mutate mutation) = session :=
  if_neg refused

theorem Session.Sound.step (sound : session.Sound) {call : Call} (hasScope : call.HasScope) :
    (session.step call).Sound ∧ Moves session.state (session.step call).state := by
  cases call with
  | bindScope authorityDigest routeKey resourceGeneration =>
    rcases hasScope with ⟨digest_ne, key_ne, generation_ne⟩
    rcases bindAndCheck_cases authorityDigest routeKey resourceGeneration session.state with
      ⟨outcome, final, bound, state_eq, ok⟩
    have final_scoped := isScoped_bindScope sound.start digest_ne key_ne generation_ne bound
    have moves := moves_bindScope sound.start digest_ne key_ne generation_ne
    rw [bound] at moves
    have stepped : (session.step
        (.bindScope authorityDigest routeKey resourceGeneration)).state = final := state_eq
    rw [stepped]
    constructor
    · constructor
      · rw [stepped]
        exact .inr final_scoped
      · intro admitted
        rw [stepped]
        exact ⟨final_scoped, (ok ⟨⟩ (toBool_eq_true admitted)).2⟩
    · exact moves
  | mutate mutation =>
    by_cases admitted : session.admitted = true
    · rcases sound.admitted admitted with ⟨state_scoped, active⟩
      have moves := mutation.moves active
      rw [Session.step_mutate_of_admitted admitted]
      constructor
      · constructor
        · exact .inr (moves.isScoped state_scoped)
        · intro ok
          constructor
          · exact moves.isScoped state_scoped
          · rcases run : mutation.run session.state with ⟨outcome, final⟩
            rw [run] at ok
            obtain rfl := toBool_eq_true ok
            exact (mutation.status_eq run).trans active
      · exact moves
    · rw [Session.step_mutate_of_refused admitted]
      exact ⟨sound, .stays⟩

/-- The authority of the start is never left. -/
def SameAuthority (session : Session) (calls : List Call) : Prop :=
  ∀ past, past <+: calls →
    (runFrom Session.step session past).state.authorityDigest = session.state.authorityDigest

/-- Another authority is bound under a greater resource generation, with the status of the
start until then. -/
def Rebound (session : Session) (calls : List Call) : Prop :=
  ∃ earlier call later, calls = earlier ++ call :: later ∧
    (runFrom Session.step session earlier).state.status = session.state.status ∧
    (runFrom Session.step session (earlier ++ [call])).state.authorityDigest ≠
      session.state.authorityDigest ∧
    session.state.resourceGeneration <
      (runFrom Session.step session (earlier ++ [call])).state.resourceGeneration

/-- What holds of the states before and after some calls. -/
structure AntiRollback (session : Session) (calls : List Call) : Prop where
  generation_le : session.state.generation ≤ (runFrom Session.step session calls).state.generation
  changed : (runFrom Session.step session calls).state ≠ session.state →
    session.state.generation < (runFrom Session.step session calls).state.generation
  resourceGeneration_le : session.state.resourceGeneration ≤
    (runFrom Session.step session calls).state.resourceGeneration
  replaces : SameAuthority session calls →
    Replaces session.state (runFrom Session.step session calls).state
  blocked : session.state.status ≠ .active →
    ((runFrom Session.step session calls).state.status = session.state.status ∧
      (runFrom Session.step session calls).state.authorityDigest = session.state.authorityDigest) ∨
      Rebound session calls

theorem Moves.generation (moves : Moves before after) :
    after = before ∨ after.generation = before.generation + 1 := by
  cases moves with
  | stays => exact .inl rfl
  | rebinds => exact .inr rfl
  | renews => exact .inr rfl
  | replaces => exact .inr rfl
  | blocks => exact .inr rfl

theorem Moves.resourceGeneration_le (moves : Moves before after) :
    before.resourceGeneration ≤ after.resourceGeneration := by
  cases moves with
  | stays => exact le_rfl
  | rebinds _ _ _ _ greater => exact greater.le
  | renews _ greater => exact greater.le
  | replaces => exact le_rfl
  | blocks => exact le_rfl

theorem Moves.replaces_of_same (moves : Moves before after)
    (same : after.authorityDigest = before.authorityDigest) : Replaces before after := by
  cases moves with
  | stays => exact .refl before
  | rebinds authorityDigest _ _ other => exact absurd same other
  | renews => exact ⟨.refl _, fun _ => .refl _, fun _ _ => .refl _⟩
  | replaces _ _ _ replaced => exact replaced
  | blocks => exact ⟨.refl _, fun _ => .refl _, fun _ _ => .refl _⟩

theorem Moves.status_or_rebinds (moves : Moves before after) (blocked : before.status ≠ .active) :
    (after.status = before.status ∧ after.authorityDigest = before.authorityDigest) ∨
      (after.authorityDigest ≠ before.authorityDigest ∧
        before.resourceGeneration < after.resourceGeneration) := by
  cases moves with
  | stays => exact .inl ⟨rfl, rfl⟩
  | rebinds _ _ _ other greater => exact .inr ⟨other, greater⟩
  | renews => exact .inl ⟨rfl, rfl⟩
  | replaces _ _ active => exact absurd active blocked
  | blocks _ active => exact absurd active blocked

theorem Session.Sound.run (sound : session.Sound) (scopes : ∀ call ∈ calls, call.HasScope) :
    (runFrom Session.step session calls).Sound := by
  induction calls generalizing session with
  | nil => exact sound
  | cons call calls ih =>
    rw [List.forall_mem_cons] at scopes
    exact ih (sound.step scopes.1).1 scopes.2

theorem SameAuthority.of_append {later : List Call}
    (same : SameAuthority session (calls ++ later)) : SameAuthority session calls :=
  fun past isPrefix => same past (isPrefix.trans (List.prefix_append calls later))

theorem Rebound.append (rebound : Rebound session calls) (more : List Call) :
    Rebound session (calls ++ more) := by
  rcases rebound with ⟨earlier, call, later, rfl, facts⟩
  refine ⟨earlier, call, later ++ more, ?_, facts⟩
  rw [List.append_assoc, List.cons_append]

theorem AntiRollback.nil (session : Session) : AntiRollback session [] where
  generation_le := le_rfl
  changed other := absurd rfl other
  resourceGeneration_le := le_rfl
  replaces _ := .refl _
  blocked _ := .inl ⟨rfl, rfl⟩

/-- One more call. -/
theorem AntiRollback.concat {call : Call} (safe : AntiRollback session calls)
    (moves : Moves (runFrom Session.step session calls).state
      (runFrom Session.step session (calls ++ [call])).state) :
    AntiRollback session (calls ++ [call]) where
  generation_le := by
    rcases moves.generation with same | next
    · rw [same]
      exact safe.generation_le
    · rw [next]
      exact Nat.le_succ_of_le safe.generation_le
  changed other := by
    rcases moves.generation with same | next
    · rw [same] at other ⊢
      exact safe.changed other
    · rw [next]
      exact Nat.lt_succ_of_le safe.generation_le
  resourceGeneration_le := safe.resourceGeneration_le.trans moves.resourceGeneration_le
  replaces same := by
    have before_same := same calls (List.prefix_append calls [call])
    have after_same := same (calls ++ [call]) List.prefix_rfl
    exact (safe.replaces same.of_append).trans
      (moves.replaces_of_same (after_same.trans before_same.symm))
  blocked inactive := by
    rcases safe.blocked inactive with ⟨status_eq, digest_eq⟩ | rebound
    · have still : (runFrom Session.step session calls).state.status ≠ .active := by
        rw [status_eq]
        exact inactive
      rcases moves.status_or_rebinds still with ⟨status_kept, digest_kept⟩ | ⟨other, greater⟩
      · exact .inl ⟨status_kept.trans status_eq, digest_kept.trans digest_eq⟩
      · rw [digest_eq] at other
        exact .inr ⟨calls, call, [], rfl, status_eq, other,
          safe.resourceGeneration_le.trans_lt greater⟩
    · exact .inr (rebound.append [call])

theorem Session.Sound.antiRollback (sound : session.Sound)
    (scopes : ∀ call ∈ calls, call.HasScope) :
    AntiRollback session calls := by
  induction calls using List.reverseRecOn with
  | nil => exact .nil session
  | append_singleton calls call ih =>
    rw [List.forall_mem_append, List.forall_mem_singleton] at scopes
    apply (ih scopes.1).concat
    rw [runFrom_concat]
    exact ((sound.run scopes.1).step scopes.2).2

/-- A state before its first selection, or one that was restored. -/
theorem Session.sound_start (initial : state = .new ∨ state.isScoped) :
    Session.Sound ⟨state, false⟩ where
  start := initial
  admitted := by simp

/-- Rollback protection: from any state that a run has reached by binding real scopes, its
further calls never lower a generation, change something only under a new generation, move the
slots of one authority only up, and end a block only by binding another authority under a
greater resource generation. -/
theorem sequences_antiRollback (state : HnsaNamedRouteState)
    (initial : state = .new ∨ state.isScoped) (earlier later : List Call)
    (scopes : ∀ call ∈ earlier ++ later, call.HasScope) :
    AntiRollback (runFrom Session.step ⟨state, false⟩ earlier) later := by
  rw [List.forall_mem_append] at scopes
  exact ((Session.sound_start initial).run scopes.1).antiRollback scopes.2

namespace ExampleScope

theorem length_digest : (List.replicate 32 (1 : UInt8)).length = 32 :=
  List.length_replicate

def digest : Hash :=
  ⟨List.replicate 32 1, length_digest⟩

def authorize : Call :=
  .mutate (.advanceAuthorization 1 digest)

theorem digest_ne_zero : digest ≠ Hash.zero := by
  decide

theorem sequences_antiRollback_first :
    AntiRollback (runFrom Session.step ⟨.new, false⟩ [.bindScope digest digest 1])
      [authorize, .bindScope digest digest 2] := by
  apply sequences_antiRollback .new (.inl rfl)
  simp only [List.cons_append, List.nil_append, List.forall_mem_cons]
  exact ⟨⟨digest_ne_zero, digest_ne_zero, Nat.one_ne_zero⟩, trivial,
    ⟨digest_ne_zero, digest_ne_zero, Nat.succ_ne_zero 1⟩, by simp⟩

/-- An all-zero authority digest leaves the state unscoped, so that binding it again starts
over at the first generation. -/
theorem generation_restarts :
    ¬ AntiRollback (runFrom Session.step ⟨.new, false⟩ [.bindScope .zero digest 1, authorize])
      [.bindScope .zero digest 1] := by
  intro safe
  have lowered := safe.generation_le
  revert lowered
  decide

end ExampleScope

end HnsDaneEngine.NamedRoute
