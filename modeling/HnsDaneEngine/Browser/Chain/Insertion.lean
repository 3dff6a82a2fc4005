import HnsDaneEngine.Browser.Chain.Additions
import HnsDaneEngine.Order.Heaviest
import Mathlib.Data.List.Chain

/-!
# What an insertion can do

On a lawful store an insertion fails and leaves the tables as they were, or it adds the
accepted headers and moves the canonical chain to the heaviest of them if it is heavier
than the best one.  Between the two there is one more outcome: the headers have been
written and the canonical chain could not be moved.  It does not occur on a reliable store
whose headers all descend from stored headers.
-/

namespace HnsDaneEngine.Browser.Chain

open Control HnsDaneEngine.Order Primitives HeaderStore

variable {digests : Digests} {policy : DifficultyPolicy} {candidate header : StoredHeader}
  {hash : Hash}

namespace Ledger

/-- The canonical chain is at the candidate if that is heavier than the best header. -/
def Advanced (before : Ledger) (candidate : StoredHeader) (after : Ledger) : Prop :=
  if shouldPromote before.tip candidate then before.Moved candidate.hash after
  else after = before

theorem Advanced.headers_eq {before after : Ledger}
    (advanced : before.Advanced candidate after) : after.headers = before.headers := by
  unfold Advanced at advanced
  split at advanced
  · exact advanced.headers_eq
  · rw [advanced]

theorem Advanced.indexed {before after : Ledger}
    (advanced : before.Advanced candidate after) (indexed : before.Indexed) : after.Indexed := by
  unfold Advanced at advanced
  split at advanced
  · exact advanced.indexed
  · rw [advanced]
    exact indexed

/-- Every header is at height zero or on top of another one. -/
def Rooted (ledger : Ledger) : Prop :=
  ∀ ⦃hash header⦄, ledger.headers hash = some header → header.height = 0 ∨ ledger.Child header

variable {ledger : Ledger}

theorem chainDown_total (rooted : ledger.Rooted) {height : Nat}
    {current : StoredHeader} (held : ledger.headers hash = some current)
    (height_eq : current.height = height) :
    ∃ headers, chainDown ledger.headers height current = .ok headers := by
  induction height generalizing hash current with
  | zero => exact ⟨[current], rfl⟩
  | succ height ih =>
    rcases rooted held with lowest | ⟨parent, work, parent_eq, next_eq, -, -⟩
    · omega
    have parent_ok := previous_eq_ok_iff.mpr ⟨parent_eq, next_eq⟩
    have parent_height := (nextHeight_eq_some_iff.mp next_eq).1
    rcases ih parent_eq (by omega) with ⟨headers, headers_ok⟩
    refine ⟨current :: headers, ?_⟩
    rw [chainDown, bind_eq_ok_iff]
    refine ⟨parent, parent_ok, ?_⟩
    rw [headers_ok]
    rfl

theorem canonicalChainTo_total (rooted : ledger.Rooted) (held : ledger.headers hash = some header) :
    ∃ headers, canonicalChainTo ledger.headers hash = .ok headers := by
  rcases chainDown_total rooted held rfl with ⟨headers, headers_ok⟩
  refine ⟨headers.reverse, ?_⟩
  simp only [canonicalChainTo, held, headers_ok]
  rfl

/-- Heights rise along a chain of stored headers. -/
theorem isChain_heights {best : StoredHeader} (held : ledger.headers best.hash = some best)
    {path : List StoredHeader} (holds : ledger.Holds path)
    (children : ∀ header ∈ path, ledger.Child header)
    (chain : (best :: path).IsChain fun header child => child.header.prevBlock = header.hash) :
    (best :: path).IsChain fun header child =>
      child.header.prevBlock = header.hash ∧ child.height = header.height + 1 := by
  refine chain.imp_of_mem_tail_imp ?_
  intro header child headerMem childMem parent_hash
  refine ⟨parent_hash, ?_⟩
  have headerHeld : ledger.headers header.hash = some header := by
    rcases List.mem_cons.mp headerMem with rfl | inPath
    · exact held
    · exact holds header inPath
  rcases children child childMem with ⟨parent, work, parent_eq, next_eq, -, -⟩
  rw [parent_hash, headerHeld] at parent_eq
  obtain rfl := Option.some.inj parent_eq
  exact (nextHeight_eq_some_iff.mp next_eq).1

end Ledger

/-- The candidate is the last one of the heaviest headers. -/
theorem bestCandidate_spec {accepted : List StoredHeader} {index : Nat}
    (found : bestCandidate accepted = .ok (candidate, index)) :
    accepted[index]? = some candidate ∧
      LastHeaviest (fun header => header.chainwork.value) accepted candidate := by
  unfold bestCandidate at found
  cases heaviest_eq : heaviest accepted.zipIdx with
  | none =>
    rw [heaviest_eq] at found
    cases found
  | some chosen =>
    rw [heaviest_eq] at found
    obtain rfl := Except.ok.inj found
    have last : LastHeaviest (fun entry : StoredHeader × Nat => entry.1.chainwork.value)
        accepted.zipIdx (candidate, index) := by
      cases entries_eq : accepted.zipIdx with
      | nil =>
        rw [entries_eq] at heaviest_eq
        cases heaviest_eq
      | cons first rest =>
        rw [entries_eq] at heaviest_eq
        rw [← Option.some.inj heaviest_eq]
        exact lastHeaviest_foldl _ first rest
    refine ⟨List.mem_zipIdx_iff_getElem?.mp last.mem, ?_⟩
    have headers_eq : accepted.zipIdx.map Prod.fst = accepted := List.zipIdx_map_fst 0 accepted
    rw [← headers_eq]
    exact LastHeaviest.map (fun header : StoredHeader => header.chainwork.value) Prod.fst last

variable {headers : List BlockHeader}

section

variable {S : Type} [HeaderStore S] [LawfulHeaderStore S]

theorem ledger_keyed (store : S) : (ledger store).Keyed :=
  fun _ _ found => LawfulHeaderStore.hash_eq found

variable {store : S}

omit [LawfulHeaderStore S] in
theorem bestHeader_eq (indexed : (ledger store).Indexed) :
    bestHeader store = .ok (ledger store).tip := by
  have best_eq : (ledger store).best = bestHash store := rfl
  have headers_eq : (ledger store).headers = getHeader store := rfl
  unfold bestHeader
  cases hash_eq : bestHash store with
  | none => rw [Ledger.tip, best_eq, hash_eq, Option.bind_none]
  | some hash =>
    rw [hash_eq] at best_eq
    rcases indexed.exists_tip best_eq with ⟨header, header_eq, tip_eq⟩
    rw [headers_eq] at header_eq
    simp only [header_eq, tip_eq]

/-- The call fails and the tables stay as they were. -/
abbrev FailsUnchanged {α : Type} (store : S) (result : Except ChainError α) (after : S) : Prop :=
  ∃ error, result = .error error ∧ ledger after = ledger store

variable {after : S} {result : Except ChainError Unit}

omit [LawfulHeaderStore S] in
/-- A check in front of a call. -/
theorem failsUnchanged_or {α β : Type} {checked : Except ChainError α}
    {next : α → Effect S ChainError β} {result : Except ChainError β}
    (run : (Effect.ofExcept checked >>= next) store = (result, after)) :
    FailsUnchanged store result after ∨
      ∃ value, checked = .ok value ∧ next value store = (result, after) := by
  rcases Effect.ofExcept_bind_cases run with ⟨error, rfl, rfl⟩ | passed
  · exact .inl ⟨error, rfl, rfl⟩
  · exact .inr passed

theorem promoteBestHash_cases (run : promoteBestHash hash store = (result, after)) :
    FailsUnchanged store result after ∨
      result = .ok () ∧ (ledger store).Moved hash (ledger after) := by
  unfold promoteBestHash at run
  rw [Effect.get_bind] at run
  rcases failsUnchanged_or run with failed | ⟨headers, walked, run⟩
  · exact .inl failed
  cases result with
  | error error => exact .inl ⟨error, rfl, LawfulHeaderStore.replaceCanonicalChain_error run⟩
  | ok value =>
    refine .inr ⟨rfl, ?_⟩
    rw [(LawfulHeaderStore.replaceCanonicalChain_ok run).2]
    exact (Ledger.moved_of_canonicalChainTo (ledger_keyed store) walked).1

/-- The tip of the chain is a child of the best header. -/
theorem exists_best_of_extendsBest (indexed : (ledger store).Indexed)
    (extends_ : extendsBest (ledger store).tip header = true) :
    ∃ best, (ledger store).tip = some best ∧ (ledger store).best = some best.hash ∧
      (ledger store).headers best.hash = some best ∧ header.header.prevBlock = best.hash := by
  cases best_eq : (ledger store).best with
  | none =>
    rw [Ledger.tip, best_eq] at extends_
    cases extends_
  | some hash =>
    rcases indexed.exists_tip best_eq with ⟨best, held, tip_eq⟩
    have hash_eq := ledger_keyed store held
    rw [tip_eq] at extends_
    rw [← hash_eq] at held ⊢
    exact ⟨best, tip_eq, rfl, held, of_decide_eq_true extends_⟩

theorem promoteHeader_cases {stored : StoredHeader} (indexed : (ledger store).Indexed)
    (held : (ledger store).headers stored.hash = some stored) (child : (ledger store).Child stored)
    (run : promoteHeader (ledger store).tip stored store = (result, after)) :
    FailsUnchanged store result after ∨
      result = .ok () ∧ (ledger store).Advanced stored (ledger after) := by
  unfold promoteHeader at run
  unfold Ledger.Advanced
  cases heavier : shouldPromote (ledger store).tip stored with
  | false =>
    rw [heavier] at run
    cases run
    exact .inr ⟨rfl, rfl⟩
  | true =>
    rw [heavier, if_pos rfl] at run
    cases extends_ : extendsBest (ledger store).tip stored with
    | false =>
      rw [extends_] at run
      exact promoteBestHash_cases run
    | true =>
      rw [extends_, if_pos rfl] at run
      cases result with
      | error error =>
        exact .inl ⟨error, rfl, LawfulHeaderStore.promoteCanonicalTip_error run⟩
      | ok value =>
        rcases exists_best_of_extendsBest indexed extends_ with
          ⟨best, -, best_eq, bestHeld, parent_eq⟩
        have holds : (ledger store).Holds [stored] := by
          simpa [Ledger.Holds] using held
        have chain := Ledger.isChain_heights bestHeld holds (by simpa using child)
          (by simpa using parent_eq)
        refine .inr ⟨rfl, ?_⟩
        rw [LawfulHeaderStore.promoteCanonicalTip_ok run]
        exact indexed.moved_promoteAll best_eq bestHeld holds chain rfl

variable {accepted : List StoredHeader}

theorem promoteBatch_cases {index : Nat}
    (indexed : (ledger store).Indexed) (holds : (ledger store).Holds accepted)
    (children : ∀ header ∈ accepted, (ledger store).Child header)
    (candidate_eq : accepted[index]? = some candidate)
    (run : promoteBatch (ledger store).tip accepted candidate index store = (result, after)) :
    FailsUnchanged store result after ∨
      result = .ok () ∧ (ledger store).Advanced candidate (ledger after) := by
  unfold promoteBatch at run
  unfold Ledger.Advanced
  cases heavier : shouldPromote (ledger store).tip candidate with
  | false =>
    rw [heavier] at run
    cases run
    exact .inr ⟨rfl, rfl⟩
  | true =>
    rw [heavier, if_pos rfl] at run
    cases extends_ : batchExtendsBest (ledger store).tip accepted index with
    | false =>
      rw [extends_] at run
      exact promoteBestHash_cases run
    | true =>
      rw [extends_, if_pos rfl] at run
      have pathHolds : (ledger store).Holds (accepted.take (index + 1)) :=
        fun header headerMem => holds header (List.mem_of_mem_take headerMem)
      cases result with
      | error error =>
        exact .inl ⟨error, rfl, LawfulHeaderStore.promoteCanonicalTips_error pathHolds run⟩
      | ok value =>
        cases accepted with
        | nil => cases candidate_eq
        | cons first rest =>
          rcases (Bool.and_eq_true _ _).mp extends_ with ⟨firstExtends, linked⟩
          rcases exists_best_of_extendsBest indexed firstExtends with
            ⟨best, -, best_eq, bestHeld, parent_eq⟩
          have chain := Ledger.isChain_heights bestHeld pathHolds
            (fun header headerMem => children header (List.mem_of_mem_take headerMem))
            (List.isChain_cons_cons.mpr ⟨parent_eq, of_decide_eq_true linked⟩)
          have last : (best :: (first :: rest).take (index + 1)).getLast? = some candidate := by
            rw [List.take_succ_cons, List.getLast?_cons_cons, ← List.take_succ_cons,
              List.getLast?_take, if_neg (Nat.succ_ne_zero _), Nat.add_sub_cancel,
              candidate_eq, Option.some_or]
          refine .inr ⟨rfl, ?_⟩
          rw [LawfulHeaderStore.promoteCanonicalTips_ok run]
          exact indexed.moved_promoteAll best_eq bestHeld pathHolds chain last

/-- A header enters an empty place at height zero and the canonical chain is moved to it. -/
theorem insertGenesis_cases {header : BlockHeader} {result : Except ChainError StoredHeader}
    (run : insertGenesis digests policy header store = (result, after)) :
    FailsUnchanged store result after ∨
      ∃ work middle promoted, validateGenesis policy header = .ok () ∧
        Chainwork.fromBits header.bits = .ok work ∧
        (ledger store).headers (header.hash digests) = none ∧
        ledger middle = (ledger store).put ⟨header.hash digests, header, 0, work⟩ ∧
        promoteBestHash (header.hash digests) middle = (promoted, after) ∧
        result = promoted.map fun _ => ⟨header.hash digests, header, 0, work⟩ := by
  unfold insertGenesis at run
  rcases failsUnchanged_or run with failed | ⟨_, valid, run⟩
  · exact .inl failed
  rcases failsUnchanged_or run with failed | ⟨work, work_eq, run⟩
  · exact .inl failed
  rcases Effect.bind_cases run with ⟨error, put_eq, rfl⟩ | ⟨_, middle, put_eq, run⟩
  · exact .inl ⟨error, rfl, LawfulHeaderStore.putHeader_error put_eq⟩
  rcases LawfulHeaderStore.putHeader_ok put_eq with ⟨absent, middle_eq⟩
  rcases Effect.bind_pure_eq run with ⟨promoted, promote_eq, result_eq⟩
  exact .inr ⟨work, middle, promoted, valid, liftPow_eq_ok_iff.mp work_eq, absent, middle_eq,
    promote_eq, result_eq⟩

/-- An accepted header is written, and then the canonical chain may move to it. -/
theorem insertHeader_cases {header : BlockHeader} {result : Except ChainError StoredHeader}
    (indexed : (ledger store).Indexed)
    (run : insertHeader digests policy header store = (result, after)) :
    FailsUnchanged store result after ∨
      ∃ stored middle promoted, Accepts digests policy (ledger store).headers header stored ∧
        (ledger store).headers stored.hash = none ∧
        ledger middle = (ledger store).put stored ∧
        promoteHeader (ledger middle).tip stored middle = (promoted, after) ∧
        result = promoted.map fun _ => stored := by
  unfold insertHeader at run
  rw [Effect.get_bind] at run
  rcases failsUnchanged_or run with failed | ⟨stored, checked, run⟩
  · exact .inl failed
  rcases Effect.bind_cases run with ⟨error, put_eq, rfl⟩ | ⟨_, middle, put_eq, run⟩
  · exact .inl ⟨error, rfl, LawfulHeaderStore.putHeader_error put_eq⟩
  rcases LawfulHeaderStore.putHeader_ok put_eq with ⟨absent, middle_eq⟩
  have middleIndexed : (ledger middle).Indexed := by
    rw [middle_eq]
    exact indexed.put absent
  rw [Effect.get_bind, bestHeader_eq middleIndexed, Effect.ofExcept_ok_bind] at run
  rcases Effect.bind_pure_eq run with ⟨promoted, promote_eq, result_eq⟩
  exact .inr ⟨stored, middle, promoted, checkHeader_eq_ok_iff.mp checked, absent, middle_eq,
    promote_eq, result_eq⟩

/-- The headers of a batch are written together, and then the canonical chain may move to the
heaviest of them. -/
theorem writeBatch_cases (indexed : (ledger store).Indexed)
    (fresh : (ledger store).Fresh accepted) (run : writeBatch accepted store = (result, after)) :
    FailsUnchanged store result after ∨
      ∃ candidate index middle, bestCandidate accepted = .ok (candidate, index) ∧
        ledger middle = (ledger store).putAll accepted ∧
        promoteBatch (ledger middle).tip accepted candidate index middle = (result, after) := by
  unfold writeBatch at run
  rw [Effect.get_bind, bestHeader_eq indexed, Effect.ofExcept_ok_bind] at run
  rcases failsUnchanged_or run with failed | ⟨⟨candidate, index⟩, candidate_eq, run⟩
  · exact .inl failed
  rcases Effect.bind_cases run with ⟨error, put_eq, rfl⟩ | ⟨_, middle, put_eq, run⟩
  · exact .inl ⟨error, rfl, LawfulHeaderStore.putHeaders_error fresh put_eq⟩
  rcases LawfulHeaderStore.putHeaders_ok put_eq with ⟨-, middle_eq⟩
  have tip_eq : (ledger middle).tip = (ledger store).tip := by
    rw [middle_eq]
    exact Ledger.tip_putAll indexed fresh
  refine .inr ⟨candidate, index, middle, candidate_eq, middle_eq, ?_⟩
  rw [tip_eq]
  exact run

theorem insertHeaders_cases
    {result : Except ChainError (List StoredHeader)} (indexed : (ledger store).Indexed)
    (run : insertHeaders digests policy headers store = (result, after)) :
    FailsUnchanged store result after ∨
      ∃ added, Adds digests policy (ledger store) headers added ∧
        (added = [] ∧ result = .ok [] ∧ ledger after = ledger store ∨
          ∃ candidate index middle promoted, bestCandidate added = .ok (candidate, index) ∧
            ledger middle = (ledger store).putAll added ∧
            promoteBatch (ledger middle).tip added candidate index middle = (promoted, after) ∧
            result = promoted.map fun _ => added) := by
  unfold insertHeaders at run
  rw [Effect.get_bind] at run
  rcases failsUnchanged_or run with failed | ⟨batch, collected, run⟩
  · exact .inl failed
  have adds : Adds digests policy (ledger store) headers batch.accepted :=
    Batch.adds_of_addAll_empty collected
  split at run
  next isEmpty =>
    cases run
    have nothing := List.isEmpty_iff.mp isEmpty
    exact .inr ⟨batch.accepted, adds, .inl ⟨nothing, by rw [nothing], rfl⟩⟩
  next =>
    rcases Effect.bind_pure_eq run with ⟨written, write_eq, rfl⟩
    rcases writeBatch_cases indexed adds.fresh write_eq with failed | promoted
    · rcases failed with ⟨error, rfl, same⟩
      exact .inl ⟨error, rfl, same⟩
    · rcases promoted with ⟨candidate, index, middle, candidate_eq, middle_eq, promote_eq⟩
      exact .inr ⟨batch.accepted, adds, .inr ⟨candidate, index, middle, written, candidate_eq,
        middle_eq, promote_eq, rfl⟩⟩

end

theorem Ledger.Rooted.put {ledger : Ledger} (rooted : ledger.Rooted)
    (absent : ledger.headers header.hash = none)
    (founded : header.height = 0 ∨ ledger.Child header) :
    (ledger.put header).Rooted := by
  have grows := Ledger.put_grows absent
  intro hash found present
  by_cases same : hash = header.hash
  · subst same
    rw [Ledger.put_headers_self] at present
    obtain rfl := Option.some.inj present
    exact founded.imp_right fun child => child.mono grows
  · rw [Ledger.put_headers_of_ne same] at present
    exact (rooted present).imp_right fun child => child.mono grows

theorem Ledger.Rooted.putAll {ledger : Ledger} (rooted : ledger.Rooted) {added : List StoredHeader}
    (adds : Adds digests policy ledger headers added) : (ledger.putAll added).Rooted := by
  intro hash found present
  rcases Ledger.mem_of_putAll present with known | new
  · exact (rooted known).imp_right fun child => child.mono (Ledger.putAll_grows adds.fresh)
  · exact .inr (adds.child found new)

section

variable {S : Type} [HeaderStore S] [LawfulHeaderStore S] [ReliableHeaderStore S]
  {result : Except ChainError StoredHeader} {store : S}

section

variable (rooted : (ledger store).Rooted)

include rooted

theorem promoteBestHash_total (held : (ledger store).headers hash = some header) :
    ∃ after, promoteBestHash hash store = (.ok (), after) := by
  rcases Ledger.canonicalChainTo_total rooted held with ⟨headers, walked⟩
  rcases Ledger.moved_of_canonicalChainTo (ledger_keyed store) walked with ⟨-, nonempty, holds⟩
  rcases ReliableHeaderStore.replaceCanonicalChain_held nonempty holds with ⟨after, replaced⟩
  have walked' : canonicalChainTo (getHeader store) hash = .ok headers := walked
  refine ⟨after, ?_⟩
  rw [promoteBestHash, Effect.get_bind, walked', Effect.ofExcept_ok_bind, replaced]

theorem promoteHeader_total (best : Option StoredHeader) {stored : StoredHeader}
    (held : (ledger store).headers stored.hash = some stored) :
    ∃ after, promoteHeader best stored store = (.ok (), after) := by
  unfold promoteHeader
  split
  · split
    · exact ReliableHeaderStore.promoteCanonicalTip_held (by simpa [Ledger.Holds] using held)
    · exact promoteBestHash_total rooted held
  · exact ⟨store, rfl⟩

theorem promoteBatch_total (best : Option StoredHeader) {accepted : List StoredHeader}
    {index : Nat} (holds : (ledger store).Holds accepted)
    (candidate_eq : accepted[index]? = some candidate) :
    ∃ after, promoteBatch best accepted candidate index store = (.ok (), after) := by
  unfold promoteBatch
  split
  · split
    · refine ReliableHeaderStore.promoteCanonicalTips_held ?_
      exact fun header headerMem => holds header (List.mem_of_mem_take headerMem)
    · exact promoteBestHash_total rooted (holds candidate (List.mem_of_getElem? candidate_eq))
  · exact ⟨store, rfl⟩

theorem insertGenesis_outcome {after : S} {header : BlockHeader}
    (run : insertGenesis digests policy header store = (result, after)) :
    FailsUnchanged store result after ∨
      ∃ work, validateGenesis policy header = .ok () ∧ Chainwork.fromBits header.bits = .ok work ∧
        (ledger store).headers (header.hash digests) = none ∧
        ((ledger store).put ⟨header.hash digests, header, 0, work⟩).Moved (header.hash digests)
          (ledger after) := by
  rcases insertGenesis_cases run with failed | written
  · exact .inl failed
  rcases written with ⟨work, middle, promoted, valid, work_eq, absent, middle_eq, promote_eq, -⟩
  have middleRooted : (ledger middle).Rooted := by
    rw [middle_eq]
    exact rooted.put absent (.inl rfl)
  have held := Ledger.put_headers_self (ledger store) ⟨header.hash digests, header, 0, work⟩
  rw [← middle_eq] at held
  rcases promoteBestHash_total middleRooted held with ⟨final, final_eq⟩
  obtain ⟨rfl, rfl⟩ := Prod.mk.inj (final_eq.symm.trans promote_eq)
  rcases promoteBestHash_cases promote_eq with ⟨error, absurd_eq, -⟩ | ⟨-, moved⟩
  · cases absurd_eq
  · rw [middle_eq] at moved
    exact .inr ⟨work, valid, work_eq, absent, moved⟩

theorem insertHeader_outcome {after : S} {header : BlockHeader} (indexed : (ledger store).Indexed)
    (run : insertHeader digests policy header store = (result, after)) :
    FailsUnchanged store result after ∨
      ∃ stored, Accepts digests policy (ledger store).headers header stored ∧
        (ledger store).headers stored.hash = none ∧ result = .ok stored ∧
        ((ledger store).put stored).Advanced stored (ledger after) := by
  rcases insertHeader_cases indexed run with failed | written
  · exact .inl failed
  rcases written with ⟨stored, middle, promoted, accepts, absent, middle_eq, promote_eq, rfl⟩
  have held := Ledger.put_headers_self (ledger store) stored
  have child := accepts.child.mono (Ledger.put_grows absent)
  have middleRooted := rooted.put absent (.inr accepts.child)
  have middleIndexed := indexed.put absent
  rw [← middle_eq] at held child middleRooted middleIndexed
  rcases promoteHeader_total middleRooted (ledger middle).tip held with ⟨final, final_eq⟩
  obtain ⟨rfl, rfl⟩ := Prod.mk.inj (final_eq.symm.trans promote_eq)
  rcases promoteHeader_cases middleIndexed held child promote_eq with
    ⟨error, absurd_eq, -⟩ | ⟨-, advanced⟩
  · cases absurd_eq
  · exact .inr ⟨stored, accepts, absent, rfl, middle_eq ▸ advanced⟩

theorem insertHeaders_outcome {after : S}
    {result : Except ChainError (List StoredHeader)} (indexed : (ledger store).Indexed)
    (run : insertHeaders digests policy headers store = (result, after)) :
    FailsUnchanged store result after ∨
      ∃ added, Adds digests policy (ledger store) headers added ∧ result = .ok added ∧
        (added = [] ∧ ledger after = ledger store ∨
          ∃ candidate index, bestCandidate added = .ok (candidate, index) ∧
            ((ledger store).putAll added).Advanced candidate (ledger after)) := by
  rcases insertHeaders_cases indexed run with failed | ⟨added, adds, nothing | written⟩
  · exact .inl failed
  · rcases nothing with ⟨rfl, rfl, same⟩
    exact .inr ⟨[], adds, rfl, .inl ⟨rfl, same⟩⟩
  rcases written with
    ⟨candidate, index, middle, promoted, candidate_eq, middle_eq, promote_eq, rfl⟩
  have holds := Ledger.holds_putAll adds.fresh
  have children := adds.child
  have middleRooted := rooted.putAll adds
  have middleIndexed := indexed.putAll adds.fresh
  rw [← middle_eq] at holds children middleRooted middleIndexed
  rcases bestCandidate_spec candidate_eq with ⟨position, -⟩
  rcases promoteBatch_total middleRooted (ledger middle).tip holds position with
    ⟨final, final_eq⟩
  obtain ⟨rfl, rfl⟩ := Prod.mk.inj (final_eq.symm.trans promote_eq)
  rcases promoteBatch_cases middleIndexed holds children position promote_eq with
    ⟨error, absurd_eq, -⟩ | ⟨-, advanced⟩
  · cases absurd_eq
  · exact .inr ⟨added, adds, rfl, .inr ⟨candidate, index, candidate_eq, middle_eq ▸ advanced⟩⟩

end

end

end HnsDaneEngine.Browser.Chain
