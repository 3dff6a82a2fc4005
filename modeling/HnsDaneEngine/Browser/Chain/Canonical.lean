import HnsDaneEngine.Browser.Chain.Insertion
import HnsDaneEngine.Browser.Chain.Memory
import HnsDaneEngine.Control.Run

/-!
# The canonical chain in every run

Calls on a chain come in any order, with any headers, and may fail.  Under either policy
the headers form trees and the index follows the best header.  Under the mainnet policy
there is one tree, its root is the genesis header, and no header has more work than the
best one.
-/

namespace HnsDaneEngine.Browser.Chain

open Control Data Primitives HeaderStore

/-- The calls of a chain. -/
inductive Call
  | insertGenesis (header : BlockHeader)
  | insertHeader (header : BlockHeader)
  | insertHeaders (headers : List BlockHeader)

section

variable {S : Type} [HeaderStore S] (digests : Digests) (policy : DifficultyPolicy)

/-- The store after a call, failed or not. -/
def step (store : S) : Call → S
  | .insertGenesis header => (insertGenesis digests policy header store).2
  | .insertHeader header => (insertHeader digests policy header store).2
  | .insertHeaders headers => (insertHeaders digests policy headers store).2

end

variable {digests : Digests} {policy : DifficultyPolicy}

/-- Trees of headers, and an index that follows the best one. -/
structure Ledger.Grown (ledger : Ledger) : Prop where
  rooted : ledger.Rooted
  indexed : ledger.Indexed

theorem Ledger.Rooted.of_headers_eq {first second : Ledger}
    (headers_eq : second.headers = first.headers) (rooted : first.Rooted) : second.Rooted := by
  intro hash header present
  rw [headers_eq] at present
  refine (rooted present).imp_right fun child => child.mono ?_
  intro other found otherPresent
  rw [headers_eq, otherPresent]

theorem ledger_empty : ledger MemoryHeaderStore.empty = ⟨fun _ => none, fun _ => none, none⟩ := by
  refine Ledger.ext ?_ ?_ rfl
  · funext hash
    change (∅ : Store Hash StoredHeader).lookup hash = none
    rw [AList.lookup_empty]
  · funext height
    change (∅ : Store Nat Hash).lookup height = none
    rw [AList.lookup_empty]

theorem grown_empty : (ledger MemoryHeaderStore.empty).Grown := by
  rw [ledger_empty]
  constructor
  · intro hash header present
    cases present
  · intro height
    rfl

section

variable {S : Type} [HeaderStore S] [LawfulHeaderStore S] [ReliableHeaderStore S]

theorem grown_step {store : S} (grown : (ledger store).Grown) (call : Call) :
    (ledger (step digests policy store call)).Grown := by
  rcases grown with ⟨rooted, indexed⟩
  cases call with
  | insertGenesis header =>
    rcases run : insertGenesis digests policy header store with ⟨result, after⟩
    simp only [step, run]
    rcases insertGenesis_outcome rooted run with ⟨-, -, same⟩ | ⟨work, -, -, absent, moved⟩
    · rw [same]
      exact ⟨rooted, indexed⟩
    · exact ⟨(rooted.put absent (.inl rfl)).of_headers_eq moved.headers_eq, moved.indexed⟩
  | insertHeader header =>
    rcases run : insertHeader digests policy header store with ⟨result, after⟩
    simp only [step, run]
    rcases insertHeader_outcome rooted indexed run with
      ⟨-, -, same⟩ | ⟨stored, accepts, absent, -, advanced⟩
    · rw [same]
      exact ⟨rooted, indexed⟩
    · exact ⟨(rooted.put absent (.inr accepts.child)).of_headers_eq advanced.headers_eq,
        advanced.indexed (indexed.put absent)⟩
  | insertHeaders headers =>
    rcases run : insertHeaders digests policy headers store with ⟨result, after⟩
    simp only [step, run]
    rcases insertHeaders_outcome rooted indexed run with
      ⟨-, -, same⟩ | ⟨added, adds, -, ⟨-, same⟩ | ⟨candidate, index, -, advanced⟩⟩
    · rw [same]
      exact ⟨rooted, indexed⟩
    · rw [same]
      exact ⟨rooted, indexed⟩
    · exact ⟨(rooted.putAll adds).of_headers_eq advanced.headers_eq,
        advanced.indexed (indexed.putAll adds.fresh)⟩

end

theorem grown_run (calls : List Call) :
    (ledger (runFrom (step digests policy) MemoryHeaderStore.empty calls)).Grown := by
  have preserved : ∀ (store : MemoryHeaderStore) (call : Call), (ledger store).Grown →
      (ledger (step digests policy store call)).Grown := fun _ call grown => grown_step grown call
  exact runFrom_invariant preserved grown_empty calls

/-- The mainnet genesis header or a header on top of another one, with its own hash. -/
def Ledger.Descends (digests : Digests) (ledger : Ledger) (header : StoredHeader) : Prop :=
  header.hash = header.header.hash digests ∧
    (header.header = .mainnetGenesis ∧ header.height = 0 ∨ ledger.Child header)

/-- One tree with the genesis header at its root, and the best header is a heaviest one. -/
structure Ledger.Heaviest (digests : Digests) (ledger : Ledger) : Prop where
  descends : ∀ ⦃hash header⦄, ledger.headers hash = some header → ledger.Descends digests header
  founded : ∀ ⦃hash header⦄, ledger.headers hash = some header →
    ∃ genesis, ledger.headers (BlockHeader.mainnetGenesis.hash digests) = some genesis
  best_some : ∀ ⦃hash header⦄, ledger.headers hash = some header → ∃ best, ledger.best = some best
  maximal : ∀ ⦃best⦄, ledger.tip = some best → ∀ ⦃hash header⦄,
    ledger.headers hash = some header → header.chainwork.value ≤ best.chainwork.value

namespace Ledger

variable {ledger : Ledger} {headers : List BlockHeader} {added : List StoredHeader}

theorem Descends.mono {larger : Ledger} {header : StoredHeader}
    (grows : ∀ hash found, ledger.headers hash = some found → larger.headers hash = some found)
    (descends : ledger.Descends digests header) : larger.Descends digests header :=
  ⟨descends.1, descends.2.imp_right fun child => child.mono grows⟩

theorem descends_of_adds (adds : Adds digests policy ledger headers added) :
    ∀ header ∈ added, (ledger.putAll added).Descends digests header := by
  intro header headerMem
  refine ⟨?_, .inr (adds.child header headerMem)⟩
  induction adds with
  | nil ledger => cases headerMem
  | known present rest ih => exact ih headerMem
  | new absent accepts rest ih =>
    rcases List.mem_cons.mp headerMem with rfl | inRest
    · rw [accepts.hash_eq, accepts.header_eq]
    · exact ih inRest

/-- Headers that are not heavier than the tip to which the chain is moved. -/
theorem Heaviest.advanced {after : Ledger} (heaviest : ledger.Heaviest digests)
    (indexed : ledger.Indexed) (adds : Adds digests policy ledger headers added)
    {candidate : StoredHeader} (candidateMem : candidate ∈ added)
    (heavier : ∀ header ∈ added, header.chainwork.value ≤ candidate.chainwork.value)
    (advanced : (ledger.putAll added).Advanced candidate after) : after.Heaviest digests := by
  have fresh := adds.fresh
  have grows := putAll_grows fresh
  have tip_eq := tip_putAll indexed fresh
  have headers_eq := advanced.headers_eq
  -- Some header was there before: the first new one has a parent.
  have known : ∃ hash found, ledger.headers hash = some found := by
    cases adds with
    | nil => cases candidateMem
    | known present rest => exact ⟨_, _, present⟩
    | new absent accepts rest =>
      rcases accepts.child with ⟨parent, work, parent_eq, -⟩
      exact ⟨_, parent, parent_eq⟩
  rcases known with ⟨knownHash, knownHeader, known_eq⟩
  rcases heaviest.founded known_eq with ⟨genesis, genesis_eq⟩
  rcases heaviest.best_some known_eq with ⟨best, best_eq⟩
  rcases indexed.exists_tip best_eq with ⟨bestHeader, -, bestTip⟩
  rw [bestTip] at tip_eq
  refine ⟨?_, ?_, ?_, ?_⟩
  · intro hash header present
    rw [headers_eq] at present
    have descends : (ledger.putAll added).Descends digests header := by
      rcases mem_of_putAll present with old | new
      · exact (heaviest.descends old).mono grows
      · exact descends_of_adds adds header new
    refine descends.mono ?_
    intro other found otherPresent
    rw [headers_eq, otherPresent]
  · intro hash header present
    exact ⟨genesis, by rw [headers_eq]; exact grows _ _ genesis_eq⟩
  · intro hash header present
    unfold Advanced at advanced
    split at advanced
    · exact ⟨_, advanced.best_eq⟩
    · rw [advanced, putAll_best]
      exact ⟨best, best_eq⟩
  · intro top top_eq hash header present
    rw [headers_eq] at present
    have bound : header.chainwork.value ≤ bestHeader.chainwork.value ∨
        header.chainwork.value ≤ candidate.chainwork.value := by
      rcases mem_of_putAll present with old | new
      · exact .inl (heaviest.maximal bestTip old)
      · exact .inr (heavier header new)
    unfold Advanced at advanced
    rw [tip_eq] at advanced
    split at advanced
    next promoted =>
      have more : bestHeader.chainwork.value < candidate.chainwork.value :=
        of_decide_eq_true promoted
      have top_candidate : top = candidate := by
        rw [tip, advanced.best_eq, Option.bind_some, headers_eq,
          holds_putAll fresh candidate candidateMem] at top_eq
        exact (Option.some.inj top_eq).symm
      subst top_candidate
      omega
    next kept =>
      have less : ¬ bestHeader.chainwork.value < candidate.chainwork.value := by
        intro more
        exact kept (decide_eq_true more)
      rw [advanced, tip_eq] at top_eq
      obtain rfl := Option.some.inj top_eq
      omega

end Ledger

theorem heaviest_empty : (ledger MemoryHeaderStore.empty).Heaviest digests := by
  rw [ledger_empty]
  refine ⟨?_, ?_, ?_, ?_⟩
  all_goals
    intros
    contradiction

section

variable {S : Type} [HeaderStore S] [LawfulHeaderStore S] [ReliableHeaderStore S]

theorem heaviest_step {store : S} (grown : (ledger store).Grown)
    (heaviest : (ledger store).Heaviest digests) (call : Call) :
    (ledger (step digests .mainnet store call)).Heaviest digests := by
  rcases grown with ⟨rooted, indexed⟩
  cases call with
  | insertGenesis header =>
    rcases run : insertGenesis digests .mainnet header store with ⟨result, after⟩
    simp only [step, run]
    rcases insertGenesis_outcome rooted run with ⟨-, -, same⟩ | ⟨work, valid, -, absent, moved⟩
    · rw [same]
      exact heaviest
    have genesis_eq : header = .mainnetGenesis := by
      by_contra other
      unfold validateGenesis at valid
      rw [if_pos ⟨rfl, other⟩] at valid
      cases valid
    subst genesis_eq
    -- Without the genesis header there is no header at all.
    have nothing : ∀ hash, (ledger store).headers hash = none := by
      intro hash
      cases present : (ledger store).headers hash with
      | none => rfl
      | some found =>
        rcases heaviest.founded present with ⟨genesis, stored_eq⟩
        rw [absent] at stored_eq
        cases stored_eq
    have only : ∀ {hash found}, (ledger after).headers hash = some found →
        hash = BlockHeader.mainnetGenesis.hash digests ∧
          found = ⟨BlockHeader.mainnetGenesis.hash digests, .mainnetGenesis, 0, work⟩ := by
      intro hash found present
      rw [moved.headers_eq] at present
      by_cases same : hash = BlockHeader.mainnetGenesis.hash digests
      · subst same
        have held := Ledger.put_headers_self (ledger store)
          ⟨BlockHeader.mainnetGenesis.hash digests, .mainnetGenesis, 0, work⟩
        exact ⟨rfl, Option.some.inj (present.symm.trans held)⟩
      · rw [Ledger.put_headers_of_ne same, nothing hash] at present
        cases present
    refine ⟨?_, ?_, ?_, ?_⟩
    · intro hash found present
      rw [(only present).2]
      exact ⟨rfl, .inl ⟨rfl, rfl⟩⟩
    · intro hash found present
      exact ⟨found, (only present).1 ▸ present⟩
    · intro hash found present
      exact ⟨_, moved.best_eq⟩
    · intro best best_eq hash found present
      rw [Ledger.tip, moved.best_eq, Option.bind_some] at best_eq
      rw [(only present).2, (only best_eq).2]
  | insertHeader header =>
    rcases run : insertHeader digests .mainnet header store with ⟨result, after⟩
    simp only [step, run]
    rcases insertHeader_outcome rooted indexed run with
      ⟨-, -, same⟩ | ⟨stored, accepts, absent, -, advanced⟩
    · rw [same]
      exact heaviest
    · have adds : Adds digests .mainnet (ledger store) [header] [stored] :=
        .new (accepts.hash_eq ▸ absent) accepts (.nil _)
      exact heaviest.advanced indexed adds (List.mem_singleton_self stored) (by simp) advanced
  | insertHeaders headers =>
    rcases run : insertHeaders digests .mainnet headers store with ⟨result, after⟩
    simp only [step, run]
    rcases insertHeaders_outcome rooted indexed run with
      ⟨-, -, same⟩ | ⟨added, adds, -, ⟨-, same⟩ | ⟨candidate, index, candidate_eq, advanced⟩⟩
    · rw [same]
      exact heaviest
    · rw [same]
      exact heaviest
    · rcases bestCandidate_spec candidate_eq with ⟨-, last⟩
      exact heaviest.advanced indexed adds last.mem last.le advanced

end

theorem heaviest_run (calls : List Call) :
    (ledger (runFrom (step digests .mainnet) MemoryHeaderStore.empty calls)).Heaviest digests := by
  have preserved : ∀ (store : MemoryHeaderStore) (call : Call),
      (ledger store).Grown ∧ (ledger store).Heaviest digests →
        (ledger (step digests .mainnet store call)).Grown ∧
          (ledger (step digests .mainnet store call)).Heaviest digests := by
    rintro store call ⟨grown, heaviest⟩
    exact ⟨grown_step grown call, heaviest_step grown heaviest call⟩
  exact (runFrom_invariant preserved ⟨grown_empty, heaviest_empty⟩ calls).2

/-- After any calls on an empty chain of the mainnet: every header but the genesis header is
on top of a stored parent, with the work of the parent and its own; the best header is a
heaviest one, and the index holds its ancestors and nothing else. -/
theorem canonical_chain_of_run (digests : Digests) (calls : List Call) :
    let store := runFrom (step digests .mainnet) MemoryHeaderStore.empty calls
    (∀ hash header, getHeader store hash = some header →
      header.hash = hash ∧ hash = header.header.hash digests ∧
        (header.header = .mainnetGenesis ∧ header.height = 0 ∨
          ∃ parent work, getHeader store header.header.prevBlock = some parent ∧
            header.height = parent.height + 1 ∧
            Chainwork.fromBits header.header.bits = .ok work ∧
            header.chainwork.value = parent.chainwork.value + work.value)) ∧
    match bestHash store with
    | none => (∀ hash, getHeader store hash = none) ∧ ∀ height, canonicalHash store height = none
    | some hash => ∃ best, getHeader store hash = some best ∧
        (∀ other header, getHeader store other = some header →
          header.chainwork.value ≤ best.chainwork.value) ∧
        (∀ height ≤ best.height, ∃ ancestorHash ancestor,
          kinship.ancestorAt (getHeader store) hash height = some ancestorHash ∧
            getHeader store ancestorHash = some ancestor ∧ ancestor.height = height ∧
            canonicalHash store height = some ancestorHash) ∧
        ∀ height, best.height < height → canonicalHash store height = none := by
  intro store
  have heaviest : (ledger store).Heaviest digests := heaviest_run calls
  have grown : (ledger store).Grown := grown_run calls
  constructor
  · intro hash header present
    rcases heaviest.descends present with ⟨own, genesis | child⟩
    · exact ⟨store.keyed present, (store.keyed present).symm.trans own, .inl genesis⟩
    · rcases child with ⟨parent, work, parent_eq, next_eq, work_eq, chainwork_eq⟩
      exact ⟨store.keyed present, (store.keyed present).symm.trans own, .inr ⟨parent, work,
        parent_eq, (nextHeight_eq_some_iff.mp next_eq).1, work_eq, chainwork_eq⟩⟩
  · have indexed := grown.indexed
    cases best_eq : bestHash store with
    | none =>
      have ledger_best : (ledger store).best = none := best_eq
      rw [Ledger.Indexed, ledger_best] at indexed
      refine ⟨?_, indexed⟩
      intro hash
      cases present : getHeader store hash with
      | none => rfl
      | some header =>
        rcases heaviest.best_some present with ⟨best, absurd_eq⟩
        rw [ledger_best] at absurd_eq
        cases absurd_eq
    | some hash =>
      have ledger_best : (ledger store).best = some hash := best_eq
      rcases indexed.exists_tip ledger_best with ⟨best, best_held, tip_eq⟩
      rw [Ledger.Indexed, ledger_best] at indexed
      refine ⟨best, best_held, fun other header present => heaviest.maximal tip_eq present, ?_,
        ?_⟩
      · intro height inside
        rcases indexed.exists_entry best_held inside with ⟨key, entry, key_eq, entry_eq, entry_height⟩
        exact ⟨key, entry, (indexed.eq_ancestorAt height).symm.trans key_eq, entry_eq,
          entry_height, key_eq⟩
      · intro height above
        rcases indexed.top with ⟨top, top_held, -, none_above⟩
        obtain rfl := Option.some.inj (top_held.symm.trans best_held)
        exact none_above height above

end HnsDaneEngine.Browser.Chain
