import HnsDaneEngine.Light.History
import HnsDaneEngine.Light.Rounds

/-!
# The currency gate

A synchronizer counts as current after a round without an extension.  The state is left
whenever a known peer announces more, but not when a new peer does.
-/

namespace HnsDaneEngine.Light

open Control Data Primitives

/-- A finished round, with the tip it was about and its result. -/
structure FinishedRound (PeerId Header HeaderError : Type) where
  tip : HeaderEntry
  round : SyncRound PeerId Header
  result : Except (SyncError HeaderError) (HeaderRoundOutcome Header)

namespace HeaderSync

section

variable {PeerId Header HeaderError : Type} [DecidableEq PeerId]
  (consensus : HeaderConsensus Header HeaderError) (maxHeaders : Nat)

/-- The round that is over after an attempt to finish it. -/
def finishedRound (sync : HeaderSync PeerId Header) (order : HashOrder) (now : UInt64) :
    Option (FinishedRound PeerId Header HeaderError) :=
  match sync.round with
  | none => none
  | some round =>
    let (result, after) := finishRoundWithHeaders consensus sync order now
    if after.round.isSome then none else some ⟨sync.chain.tip, round, result⟩

/-- The round that a call finishes. -/
def finishedBy (sync : HeaderSync PeerId Header) :
    Call PeerId Header → Option (FinishedRound PeerId Header HeaderError)
  | .finishRound order now => finishedRound consensus sync order now
  | .finishRoundWithHeaders order now => finishedRound consensus sync order now
  | _ => none

/-- The last round that a run finishes. -/
def lastFinished (sync : HeaderSync PeerId Header) :
    List (Call PeerId Header) → Option (FinishedRound PeerId Header HeaderError)
  | [] => none
  | call :: calls =>
    (lastFinished (apply consensus maxHeaders sync call) calls).or (finishedBy consensus sync call)

/-- A round without an extension, on which enough distinct peers agreed. -/
structure NoExtension (finished : FinishedRound PeerId Header HeaderError) (tip : HeaderEntry)
    (minimum : Nat) : Prop where
  tip_eq : finished.tip = tip
  accepted : ∃ status, finished.result = .ok ⟨status, []⟩
  supported : ∃ supporters : List PeerId, supporters.Nodup ∧ minimum ≤ supporters.length ∧
    ∀ peer ∈ supporters, finished.round.responses.lookup peer = some []

/-- What a current state promises. -/
def CurrencyGate (sync : HeaderSync PeerId Header)
    (last : Option (FinishedRound PeerId Header HeaderError)) : Prop :=
  sync.status.state = .headerCurrent →
    (∀ id record, sync.peers.lookup id = some record → record.banned = false →
      record.advertisedHeight ≤ sync.chain.tip.height) ∧
    ∃ finished, last = some finished ∧
      NoExtension finished sync.chain.tip sync.config.minimumPeerAgreement

/-- A call does not add a peer above the tip of a current chain. -/
def KeepsCurrency (sync : HeaderSync PeerId Header) : Call PeerId Header → Prop
  | .addPeer id advertisedHeight =>
    sync.state = .headerCurrent → sync.peers.lookup id = none →
      sync.peers.size < sync.config.maxPeers → advertisedHeight ≤ sync.chain.tip.height
  | _ => True

/-- Every call of a run keeps to that. -/
def RunKeepsCurrency (sync : HeaderSync PeerId Header) : List (Call PeerId Header) → Prop
  | [] => True
  | call :: calls =>
    sync.KeepsCurrency call ∧ RunKeepsCurrency (apply consensus maxHeaders sync call) calls

variable {consensus maxHeaders}

theorem lastFinished_concat (sync : HeaderSync PeerId Header) (past : List (Call PeerId Header))
    (call : Call PeerId Header) :
    lastFinished consensus maxHeaders sync (past ++ [call]) =
      (finishedBy consensus (runFrom (apply consensus maxHeaders) sync past) call).or
        (lastFinished consensus maxHeaders sync past) := by
  induction past generalizing sync with
  | nil => simp [lastFinished]
  | cons first past ih =>
    rw [List.cons_append, lastFinished, ih, runFrom_cons, lastFinished, Option.or_assoc]

variable {sync start : HeaderSync PeerId Header} {past calls : List (Call PeerId Header)}
  {call : Call PeerId Header} {last : Option (FinishedRound PeerId Header HeaderError)}
  {winner : Candidate PeerId Header}

theorem runKeepsCurrency_concat :
    RunKeepsCurrency consensus maxHeaders sync (past ++ [call]) ↔
      RunKeepsCurrency consensus maxHeaders sync past ∧
        (runFrom (apply consensus maxHeaders) sync past).KeepsCurrency call := by
  induction past generalizing sync with
  | nil => simp [RunKeepsCurrency]
  | cons first past ih =>
    rw [List.cons_append, RunKeepsCurrency, ih, runFrom_cons, RunKeepsCurrency, and_assoc]

/-- No active peer announces more than the tip. -/
def NoneAbove (peers : Store PeerId PeerRecord) (height : UInt32) : Prop :=
  ∀ entry ∈ peers.entries, entry.2.banned = false → entry.2.advertisedHeight ≤ height

/-- The gate, with the fact that an active round is about the tip.  Only what the peers
announce depends on what has been kept to. -/
structure Gated (kept : Prop) (sync : HeaderSync PeerId Header)
    (last : Option (FinishedRound PeerId Header HeaderError)) : Prop where
  base : ∀ round, sync.round = some round →
    round.request.baseHash = sync.chain.tip.hash ∧ round.request.baseHeight = sync.chain.tip.height
  below : kept → sync.state = .headerCurrent → NoneAbove sync.peers sync.chain.tip.height
  supported : sync.state = .headerCurrent → ∃ finished, last = some finished ∧
    NoExtension finished sync.chain.tip sync.config.minimumPeerAgreement

variable {kept : Prop}

theorem Gated.current (gated : Gated True sync last) (current : sync.state = .headerCurrent) :
    NoneAbove sync.peers sync.chain.tip.height ∧ ∃ finished, last = some finished ∧
      NoExtension finished sync.chain.tip sync.config.minimumPeerAgreement :=
  ⟨gated.below trivial current, gated.supported current⟩

theorem Gated.mono (gated : Gated kept sync last) {less : Prop} (implied : less → kept) :
    Gated less sync last :=
  ⟨gated.base, fun holds => gated.below (implied holds), gated.supported⟩

theorem gated_of_opened (opened : Opened consensus sync) :
    Gated kept sync (none : Option (FinishedRound PeerId Header HeaderError)) := by
  cases opened with
  | genesis opened =>
    obtain ⟨config, -, opened⟩ := of_bind_ok opened
    obtain ⟨chain, -, opened⟩ := of_bind_ok opened
    obtain rfl := Except.ok.inj opened
    exact ⟨nofun, fun _ => nofun, nofun⟩
  | resumed opened =>
    obtain ⟨config, -, opened⟩ := of_bind_ok opened
    obtain rfl := Except.ok.inj opened
    exact ⟨nofun, fun _ => nofun, nofun⟩

section

variable (gated : Gated kept sync last)

include gated

theorem Gated.addPeer (id : PeerId) (height : UInt32) :
    Gated (kept ∧ sync.KeepsCurrency (.addPeer id height))
      (orUnchanged sync (sync.addPeer id height : Except (SyncError HeaderError) _)) last := by
  unfold HeaderSync.addPeer
  split
  next => exact gated.mono And.left
  next absent =>
    split
    next => exact gated.mono And.left
    next room =>
      refine ⟨gated.base, fun ⟨holds, keeps⟩ current => ?_, gated.supported⟩
      have below := gated.below holds current
      have height_le := keeps current (Option.not_isSome_iff_eq_none.mp absent) (Nat.not_le.mp room)
      intro entry entryMem active
      change entry ∈ (sync.peers.insert id _).entries at entryMem
      rw [Store.entries_insert_eq, List.mem_cons] at entryMem
      rcases entryMem with rfl | entryMem
      · exact height_le
      · exact below entry (Store.mem_entries_of_mem_erase entryMem) active

theorem Gated.removePeer (id : PeerId) : Gated kept (sync.removePeer id).2 last := by
  refine ⟨?_, fun holds current entry entryMem =>
    gated.below holds current entry (Store.mem_entries_of_mem_erase entryMem), gated.supported⟩
  intro round round_eq
  obtain ⟨before, before_eq, rfl⟩ := Option.map_eq_some_iff.mp round_eq
  exact gated.base before before_eq

theorem Gated.updatePeerHeight (id : PeerId) (height : UInt32) :
    Gated kept (orUnchanged sync
      (sync.updatePeerHeight id height : Except (SyncError HeaderError) _)) last := by
  unfold HeaderSync.updatePeerHeight
  split
  next => exact gated
  next =>
    by_cases above : sync.chain.tip.height < height
    · simp only [orUnchanged, if_pos above]
      exact ⟨gated.base, fun _ => nofun, nofun⟩
    simp only [orUnchanged, if_neg above]
    refine ⟨gated.base, fun holds current => ?_, gated.supported⟩
    intro entry entryMem active
    obtain ⟨before, beforeMem, rfl⟩ := List.mem_map.mp entryMem
    by_cases same : before.1 = id
    · simp only [if_pos same]
      exact UInt32.not_lt.mp above
    · simp only [if_neg same] at active ⊢
      exact gated.below holds current before beforeMem active

theorem Gated.beginRound (order : HashOrder) (selected : List PeerId) (now : UInt64) :
    Gated kept (orUnchanged sync
      ((HeaderSync.beginRound consensus sync order selected now).map Prod.snd)) last := by
  cases begun : HeaderSync.beginRound consensus sync order selected now with
  | error error => exact gated
  | ok result =>
    obtain ⟨-, begun⟩ := of_guard_ok begun
    obtain ⟨-, begun⟩ := of_guard_ok begun
    obtain ⟨_, -, begun⟩ := of_bind_ok begun
    split at begun
    next => cases begun
    next =>
      split at begun
      next => cases begun
      next =>
        obtain rfl := Except.ok.inj begun
        refine ⟨fun round round_eq => ?_, gated.below, gated.supported⟩
        obtain rfl := Option.some.inj round_eq
        exact ⟨rfl, rfl⟩

theorem Gated.submitHeaders (generation : UInt64) (peer : PeerId) (headers : List Header)
    (now : UInt64) :
    Gated kept (orUnchanged sync (sync.submitHeaders maxHeaders generation peer headers now :
      Except (SyncError HeaderError) _)) last := by
  cases submitted : (sync.submitHeaders maxHeaders generation peer headers now :
      Except (SyncError HeaderError) _) with
  | error error => exact gated
  | ok after =>
    unfold HeaderSync.submitHeaders at submitted
    split at submitted
    next => cases submitted
    next round round_eq =>
      simp only [guard_eq_ok_iff] at submitted
      obtain ⟨-, -, -, -, -, submitted⟩ := submitted
      obtain rfl := Except.ok.inj submitted
      refine ⟨fun active active_eq => ?_, gated.below, gated.supported⟩
      obtain rfl := Option.some.inj active_eq
      exact gated.base round round_eq

end

/-- A winner that leaves the chain current extends nothing, and no active peer announces
more. -/
theorem installWinner_current {allResponded : Bool} {supporters : List (Candidate PeerId Header)}
    (current : (sync.installWinner allResponded supporters winner).state = .headerCurrent) :
    NoneAbove (sync.installWinner allResponded supporters winner).peers winner.chain.tip.height ∧
      ∀ candidate ∈ supporters, candidate.headers = [] := by
  simp only [installWinner] at current ⊢
  split at current
  next conditions =>
    simp only [Bool.and_eq_true, List.all_eq_true, Bool.or_eq_true, decide_eq_true_eq,
      List.isEmpty_iff] at conditions
    obtain ⟨⟨-, noExtension⟩, idle⟩ := conditions
    refine ⟨fun entry entryMem active => ?_, fun candidate candidateMem =>
      (idle candidate candidateMem).1⟩
    rcases noExtension entry entryMem with banned | height_le
    · rw [active] at banned
      cases banned
    · exact height_le
  next => cases current

/-- The supporters of a winner that extends nothing are peers with an empty response. -/
theorem noExtension_of_wins {round : SyncRound PeerId Header} {order : HashOrder} {now : UInt64}
    {status : SyncStatus}
    (wins : Wins sync.config.minimumPeerAgreement
      (candidatesOf consensus sync.chain now (order.order round.responses.entries)) winner)
    (empty : ∀ candidate ∈ supportersOf
      (candidatesOf consensus sync.chain now (order.order round.responses.entries))
      winner.chain.tip.hash, candidate.headers = []) :
    winner.chain = sync.chain ∧
      NoExtension (⟨sync.chain.tip, round, .ok ⟨status, winner.headers⟩⟩ :
        FinishedRound PeerId Header HeaderError) sync.chain.tip
        sync.config.minimumPeerAgreement := by
  have entries_perm := order.perm round.responses.entries
  have winner_empty : winner.headers = [] :=
    empty winner (List.mem_filter.mpr ⟨wins.winnerMem, decide_eq_true rfl⟩)
  have validated := validateResponse_eq_some_iff.mp (mem_candidatesOf.mp wins.winnerMem).2
  have chain_eq : winner.chain = sync.chain := by
    rcases validated.2.2 with ⟨-, unchanged⟩ | ⟨nonempty, -⟩
    · exact unchanged
    · exact absurd winner_empty nonempty
  refine ⟨chain_eq, rfl, ⟨status, by rw [winner_empty]⟩,
    (supportersOf (candidatesOf consensus sync.chain now (order.order round.responses.entries))
      winner.chain.tip.hash).map Candidate.peer, ?_, ?_, ?_⟩
  · exact nodup_peers_supporters order round _
  · rw [List.length_map]
    exact wins.agreed
  · intro peer peerMem
    obtain ⟨candidate, candidateMem, rfl⟩ := List.mem_map.mp peerMem
    have responseMem := (mem_candidatesOf.mp (List.mem_filter.mp candidateMem).1).1
    rw [empty candidate candidateMem] at responseMem
    exact AList.mem_lookup_iff.mpr (entries_perm.mem_iff.mp responseMem)

theorem Gated.finish (gated : Gated kept sync last) (order : HashOrder) (now : UInt64) :
    Gated kept (finishRoundWithHeaders consensus sync order now).2
      ((finishedRound consensus sync order now).or last) := by
  unfold finishedRound
  have ends : FinishCase consensus sync order now _ := finishCase sync order now
  generalize finishRoundWithHeaders consensus sync order now = result at ends ⊢
  cases ends with
  | unfinished error waiting =>
    cases round_eq : sync.round with
    | none =>
      rw [Option.none_or]
      exact gated
    | some round =>
      simp only [round_eq, Option.isSome_some, if_true, Option.none_or]
      exact gated
  | stale round_eq moved =>
    obtain ⟨hash_eq, height_eq⟩ := gated.base _ round_eq
    rcases moved with hash_ne | height_ne
    · exact absurd hash_eq.symm hash_ne
    · exact absurd height_eq.symm height_ne
  | degraded error peers => exact ⟨nofun, fun _ => nofun, nofun⟩
  | won round_eq winner wins =>
    refine ⟨nofun, fun _ current => (installWinner_current current).1, fun current => ?_⟩
    obtain ⟨chain_eq, noExtension⟩ := noExtension_of_wins wins (installWinner_current current).2
    rw [round_eq]
    refine ⟨_, rfl, ?_⟩
    change NoExtension _ winner.chain.tip sync.config.minimumPeerAgreement
    rw [chain_eq]
    exact noExtension

/-- One call keeps the gate, and what peers announce unless it adds one above the tip of a
current chain. -/
theorem Gated.apply (gated : Gated kept sync last) (call : Call PeerId Header) :
    Gated (kept ∧ sync.KeepsCurrency call) (HeaderSync.apply consensus maxHeaders sync call)
      ((finishedBy consensus sync call).or last) := by
  cases call with
  | addPeer id height => exact gated.addPeer id height
  | removePeer id => exact (gated.removePeer id).mono And.left
  | updatePeerHeight id height => exact (gated.updatePeerHeight id height).mono And.left
  | beginRound order selected now => exact (gated.beginRound order selected now).mono And.left
  | submitHeaders generation peer headers now =>
    exact (gated.submitHeaders generation peer headers now).mono And.left
  | finishRound order now => exact (gated.finish order now).mono And.left
  | finishRoundWithHeaders order now => exact (gated.finish order now).mono And.left
  | abandonUncommittedRound =>
    exact ⟨nofun, fun holds => gated.below holds.1, gated.supported⟩

theorem gated_runFrom (opened : Opened consensus start) (calls : List (Call PeerId Header)) :
    Gated (RunKeepsCurrency consensus maxHeaders start calls)
      (runFrom (HeaderSync.apply consensus maxHeaders) start calls)
      (lastFinished consensus maxHeaders start calls) := by
  induction calls using List.reverseRecOn with
  | nil => exact gated_of_opened opened
  | append_singleton past call ih =>
    rw [runFrom_concat, lastFinished_concat]
    exact (ih.apply call).mono runKeepsCurrency_concat.mp

theorem Gated.run (opened : Opened consensus start)
    (keeps : RunKeepsCurrency consensus maxHeaders start calls) :
    Gated True (runFrom (HeaderSync.apply consensus maxHeaders) start calls)
      (lastFinished consensus maxHeaders start calls) :=
  (gated_runFrom opened calls).mono fun _ => keeps

theorem runKeepsCurrency_of_isPrefix (past_le : past <+: calls)
    (keeps : RunKeepsCurrency consensus maxHeaders start calls) :
    RunKeepsCurrency consensus maxHeaders start past := by
  induction past generalizing start calls with
  | nil => trivial
  | cons call past ih =>
    obtain ⟨later, rfl⟩ := past_le
    exact ⟨keeps.1, ih ⟨later, rfl⟩ keeps.2⟩

/-- In every run that adds no peer above the tip of a current chain, a current state is
what it promises to be: no active peer announces more than the tip, and the last
finished round was one without an extension on this tip. -/
theorem currencyGate {start : HeaderSync PeerId Header} (opened : Opened consensus start)
    {calls : List (Call PeerId Header)} (keeps : RunKeepsCurrency consensus maxHeaders start calls)
    {past : List (Call PeerId Header)} (past_le : past <+: calls) :
    CurrencyGate (runFrom (HeaderSync.apply consensus maxHeaders) start past)
      (lastFinished consensus maxHeaders start past) := by
  intro current
  have gated := Gated.run opened (runKeepsCurrency_of_isPrefix past_le keeps)
  obtain ⟨below, finished⟩ := gated.current current
  exact ⟨fun id record found => below ⟨id, record⟩ (AList.mem_lookup_iff.mp found), finished⟩

/-- A call that adds a peer above the tip of a current chain breaks the gate at once. -/
theorem not_currencyGate_of_not_keepsCurrency (lost : ¬ sync.KeepsCurrency call) :
    ¬ CurrencyGate (HeaderSync.apply consensus maxHeaders sync call) last := by
  cases call with
  | addPeer id height =>
    simp only [KeepsCurrency, Classical.not_imp] at lost
    rcases lost with ⟨current, absent, room, above⟩
    have added : HeaderSync.apply consensus maxHeaders sync (.addPeer id height) =
        { sync with peers := sync.peers.insert id ⟨height, 0, 0, false⟩ } := by
      simp [HeaderSync.apply, HeaderSync.addPeer, absent, room.not_ge, orUnchanged]
    rw [added]
    intro gate
    exact absurd ((gate current).1 id _ (AList.lookup_insert _) rfl) above
  | removePeer | updatePeerHeight | beginRound | submitHeaders | finishRound
  | finishRoundWithHeaders | abandonUncommittedRound => exact absurd trivial lost

/-- So a run in which the gate holds at every point keeps to the rule. -/
theorem runKeepsCurrency_of_currencyGate (gates : ∀ past, past <+: calls →
    CurrencyGate (runFrom (HeaderSync.apply consensus maxHeaders) start past)
      (lastFinished consensus maxHeaders start past)) :
    RunKeepsCurrency consensus maxHeaders start calls := by
  induction calls using List.reverseRecOn with
  | nil => trivial
  | append_singleton past call ih =>
    rw [runKeepsCurrency_concat]
    refine ⟨ih fun before before_le => gates before (before_le.trans (List.prefix_append _ _)), ?_⟩
    by_contra lost
    have gate := gates (past ++ [call]) (List.prefix_refl _)
    rw [runFrom_concat] at gate
    exact not_currencyGate_of_not_keepsCurrency lost gate

omit [DecidableEq PeerId] in
theorem liftChain_eq_ok {α : Type} {result : Except (LightChainError HeaderError) α} {value : α}
    (lifted : liftChain result = .ok value) : result = .ok value := by
  cases result <;> cases lifted
  rfl

/-- A token is for a tip that enough peers agreed on in the last finished round, whatever peers
announce by now. -/
theorem requireCurrent_supported {start sync : HeaderSync PeerId Header}
    (opened : Opened consensus start) {calls : List (Call PeerId Header)}
    (reached : runFrom (HeaderSync.apply consensus maxHeaders) start calls = sync)
    (policy : CurrencyPolicy) {token : CurrentChain}
    (issued : sync.requireCurrent policy = (.ok token : Except (SyncError HeaderError) _)) :
    ∃ finished, lastFinished consensus maxHeaders start calls = some finished ∧
      NoExtension finished sync.chain.tip sync.config.minimumPeerAgreement ∧
      token.blockHash = finished.tip.hash ∧ token.treeRoot = finished.tip.treeRoot ∧
      policy.minimumHeight ≤ finished.tip.height ∧ policy.now ≤ token.validUntil := by
  subst reached
  rcases of_guard_ok issued with ⟨current, issued⟩
  rcases (gated_runFrom opened calls).supported (not_not.mp current) with
    ⟨finished, finished_eq, noExtension⟩
  refine ⟨finished, finished_eq, noExtension, ?_⟩
  rw [noExtension.tip_eq]
  rcases of_guard_ok (liftChain_eq_ok issued) with ⟨high, issued⟩
  rcases of_guard_ok issued with ⟨-, issued⟩
  split at issued
  · cases issued
  next validUntil sum_eq =>
    rcases of_guard_ok issued with ⟨fresh, issued⟩
    rcases of_guard_ok issued with ⟨-, issued⟩
    cases issued
    rcases checkedAdd_eq_some_iff.mp sum_eq with ⟨rfl, fits⟩
    rw [u64Max] at fits
    refine ⟨rfl, rfl, UInt32.not_lt.mp high, ?_⟩
    rw [UInt64.le_iff_toNat_le, UInt64.toNat_ofNat']
    omega

end

end HeaderSync

namespace ExampleRegtest

/-- The order of insertion. -/
def insertionOrder : HashOrder where
  order := id
  perm items := List.Perm.refl items

def config : SyncConfig where
  maxPeers := 4
  minimumPeerAgreement := 1
  roundTimeoutSeconds := 10
  maxPeerFailures := 3

def syncStart : HeaderSync Nat Header where
  config := config
  chain := start
  state := .headerSyncing
  generation := 1
  peers := ∅
  round := none

theorem syncStart_opened : HeaderSync.Opened consensus syncStart := by
  have opened : HeaderSync.fromGenesis consensus .regtest now ⟨4096⟩ config = .ok syncStart := rfl
  exact .genesis opened

/-- A round in which the only peer has nothing more. -/
def emptyRound : List (HeaderSync.Call Nat Header) :=
  [.addPeer 1 0, .beginRound insertionOrder [1] now, .submitHeaders 2 1 [] now,
    .finishRound insertionOrder now]

theorem currencyGate_emptyRound :
    (runFrom (HeaderSync.apply consensus 2000) syncStart emptyRound).state = .headerCurrent ∧
      HeaderSync.CurrencyGate (runFrom (HeaderSync.apply consensus 2000) syncStart emptyRound)
        (HeaderSync.lastFinished consensus 2000 syncStart emptyRound) := by
  refine ⟨by decide, HeaderSync.currencyGate syncStart_opened ?_ ⟨[], List.append_nil _⟩⟩
  exact ⟨nofun, trivial, trivial, trivial, trivial⟩

theorem requireCurrent_supported_emptyRound :
    let sync := runFrom (HeaderSync.apply consensus 2000) syncStart emptyRound
    ∃ token : CurrentChain, ∃ finished,
      HeaderSync.lastFinished consensus 2000 syncStart emptyRound = some finished ∧
        HeaderSync.NoExtension finished sync.chain.tip 1 ∧ token.blockHash = finished.tip.hash := by
  intro sync
  have issues : (sync.requireCurrent ⟨now, 1000, 0, ⟨0, by decide⟩⟩ :
      Except (SyncError Unit) _).toOption.isSome := by decide
  cases issued : (sync.requireCurrent ⟨now, 1000, 0, ⟨0, by decide⟩⟩ :
      Except (SyncError Unit) _) with
  | error error =>
    rw [issued] at issues
    cases issues
  | ok token =>
    rcases HeaderSync.requireCurrent_supported syncStart_opened rfl _ issued with
      ⟨finished, finished_eq, noExtension, hash_eq, -⟩
    exact ⟨token, finished, finished_eq, noExtension, hash_eq⟩

/-- A second peer that announces height five leaves the state current. -/
theorem not_currencyGate_addPeer :
    ¬ HeaderSync.CurrencyGate
      (runFrom (HeaderSync.apply consensus 2000) syncStart (emptyRound ++ [.addPeer 2 5]))
      (HeaderSync.lastFinished consensus 2000 syncStart (emptyRound ++ [.addPeer 2 5])) := by
  intro gate
  obtain ⟨below, -⟩ := gate (by decide)
  exact absurd (below 2 ⟨5, 0, 0, false⟩ (by decide) rfl) (by decide)

end ExampleRegtest

end HnsDaneEngine.Light
