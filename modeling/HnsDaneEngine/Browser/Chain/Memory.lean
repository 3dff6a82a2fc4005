import HnsDaneEngine.Browser.Chain.Store

/-!
# The header store in memory
-/

namespace HnsDaneEngine.Browser.Chain

open Control Data Primitives

/-- Headers are kept under their own hash. -/
structure MemoryHeaderStore where
  headers : Store Hash StoredHeader
  canonical : Store Nat Hash
  best : Option Hash
  keyed : ∀ {hash : Hash} {header : StoredHeader},
    headers.lookup hash = some header → header.hash = hash

namespace MemoryHeaderStore

def empty : MemoryHeaderStore where
  headers := ∅
  canonical := ∅
  best := none
  keyed := by simp

variable {headers : List StoredHeader} {header : StoredHeader} {store after : MemoryHeaderStore}

theorem keyed_insert {headers : Store Hash StoredHeader}
    (keyed : ∀ {hash : Hash} {header : StoredHeader},
      headers.lookup hash = some header → header.hash = hash) (added : StoredHeader) {hash : Hash}
    (found : (headers.insert added.hash added).lookup hash = some header) :
    header.hash = hash := by
  by_cases isAdded : hash = added.hash
  · subst isAdded
    rw [AList.lookup_insert] at found
    rw [← Option.some.inj found]
  · rw [AList.lookup_insert_ne isAdded] at found
    exact keyed found

def putHeader (header : StoredHeader) : Effect MemoryHeaderStore ChainError Unit :=
  fun store =>
    if (store.headers.lookup header.hash).isSome then (.error .duplicateHeader, store)
    else (.ok (), { store with
      headers := store.headers.insert header.hash header
      keyed := keyed_insert store.keyed header })

def promoteCanonicalTip (header : StoredHeader) : Effect MemoryHeaderStore ChainError Unit :=
  fun store =>
    if (store.headers.lookup header.hash).isNone then (.error .missingBestHeader, store)
    else (.ok (), { store with
      canonical := store.canonical.insert header.height header.hash
      best := some header.hash })

def replaceCanonicalChain (headers : List StoredHeader) :
    Effect MemoryHeaderStore ChainError Unit :=
  fun store =>
    match headers.getLast? with
    | none => (.error .missingBestHeader, store)
    | some tip =>
      if headers.any fun header => (store.headers.lookup header.hash).isNone then
        (.error .missingBestHeader, store)
      else (.ok (), { store with
        canonical := headers.foldl
          (fun canonical header => canonical.insert header.height header.hash) ∅
        best := some tip.hash })

instance instHeaderStore : HeaderStore MemoryHeaderStore where
  getHeader store hash := store.headers.lookup hash
  putHeader := putHeader
  bestHash store := store.best
  canonicalHash store height := store.canonical.lookup height
  promoteCanonicalTip := promoteCanonicalTip
  replaceCanonicalChain := replaceCanonicalChain

theorem putHeader_new (absent : store.headers.lookup header.hash = none) :
    ∃ after, putHeader header store = (.ok (), after) ∧
      ledger after = (ledger store).put header := by
  refine ⟨_, if_neg (by rw [absent]; exact Bool.false_ne_true), ?_⟩
  exact Ledger.ext (Store.lookup_insert_eq_update _ _ _) rfl rfl

theorem putHeader_known {found : StoredHeader}
    (present : store.headers.lookup header.hash = some found) :
    putHeader header store = (.error .duplicateHeader, store) :=
  if_pos (by rw [present]; rfl)

theorem promoteCanonicalTip_known {found : StoredHeader}
    (present : store.headers.lookup header.hash = some found) :
    ∃ after, promoteCanonicalTip header store = (.ok (), after) ∧
      ledger after = (ledger store).promote header := by
  refine ⟨_, if_neg (by rw [present]; exact Bool.false_ne_true), ?_⟩
  exact Ledger.ext rfl (Store.lookup_insert_eq_update _ _ _) rfl

theorem promoteCanonicalTip_unknown (absent : store.headers.lookup header.hash = none) :
    promoteCanonicalTip header store = (.error .missingBestHeader, store) :=
  if_pos (by rw [absent]; rfl)

theorem putHeaders_new (fresh : (ledger store).Fresh headers) :
    ∃ after, HeaderStore.putHeaders headers store = (.ok (), after) := by
  induction headers generalizing store with
  | nil => exact ⟨store, rfl⟩
  | cons header headers ih =>
    obtain ⟨middle, put_eq, middle_eq⟩ := putHeader_new (fresh.1 header (List.mem_cons_self ..))
    have freshRest : (ledger middle).Fresh headers := by
      rw [middle_eq]
      exact fresh.put
    obtain ⟨after, after_eq⟩ := ih freshRest
    exact ⟨after, (Effect.bind_ok put_eq).trans after_eq⟩

theorem putHeaders_ok (run : HeaderStore.putHeaders headers store = (.ok (), after)) :
    (ledger store).Fresh headers ∧ ledger after = (ledger store).putAll headers := by
  induction headers generalizing store with
  | nil =>
    cases run
    exact ⟨⟨by simp, .nil⟩, rfl⟩
  | cons header headers ih =>
    cases found_eq : store.headers.lookup header.hash with
    | some found =>
      have stopped : HeaderStore.putHeaders (header :: headers) store =
          (.error .duplicateHeader, store) := Effect.bind_error (putHeader_known found_eq)
      rw [stopped] at run
      cases run
    | none =>
      obtain ⟨middle, put_eq, middle_eq⟩ := putHeader_new found_eq
      have continued : HeaderStore.putHeaders (header :: headers) store =
          HeaderStore.putHeaders headers middle := Effect.bind_ok put_eq
      rw [continued] at run
      obtain ⟨fresh, after_eq⟩ := ih run
      rw [middle_eq] at fresh after_eq
      exact ⟨fresh.cons found_eq, after_eq⟩

theorem promoteCanonicalTips_held (held : (ledger store).Holds headers) :
    ∃ after, HeaderStore.promoteCanonicalTips headers store = (.ok (), after) := by
  induction headers generalizing store with
  | nil => exact ⟨store, rfl⟩
  | cons header headers ih =>
    obtain ⟨present, rest⟩ := List.forall_mem_cons.mp held
    obtain ⟨middle, promote_eq, middle_eq⟩ := promoteCanonicalTip_known present
    have heldRest : (ledger middle).Holds headers := by
      rw [middle_eq]
      exact rest
    obtain ⟨after, after_eq⟩ := ih heldRest
    exact ⟨after, (Effect.bind_ok promote_eq).trans after_eq⟩

theorem promoteCanonicalTips_ok
    (run : HeaderStore.promoteCanonicalTips headers store = (.ok (), after)) :
    ledger after = (ledger store).promoteAll headers := by
  induction headers generalizing store with
  | nil =>
    cases run
    rfl
  | cons header headers ih =>
    cases found_eq : store.headers.lookup header.hash with
    | none =>
      have stopped : HeaderStore.promoteCanonicalTips (header :: headers) store =
          (.error .missingBestHeader, store) :=
        Effect.bind_error (promoteCanonicalTip_unknown found_eq)
      rw [stopped] at run
      cases run
    | some found =>
      obtain ⟨middle, promote_eq, middle_eq⟩ := promoteCanonicalTip_known found_eq
      have continued : HeaderStore.promoteCanonicalTips (header :: headers) store =
          HeaderStore.promoteCanonicalTips headers middle := Effect.bind_ok promote_eq
      rw [continued] at run
      rw [ih run, middle_eq]
      rfl

/-- The index that is filled header by header. -/
theorem lookup_foldl_insert (shown : Ledger) (canonical : Store Nat Hash)
    (shown_eq : shown.canonical = fun height => canonical.lookup height)
    (headers : List StoredHeader) :
    (shown.promoteAll headers).canonical = fun height =>
      (headers.foldl (fun canonical header => canonical.insert header.height header.hash)
        canonical).lookup height := by
  induction headers generalizing shown canonical with
  | nil => exact shown_eq
  | cons header headers ih =>
    refine ih (shown.promote header) (canonical.insert header.height header.hash) ?_
    rw [Store.lookup_insert_eq_update, Ledger.promote, shown_eq]

theorem replaceCanonicalChain_cases (store : MemoryHeaderStore) (headers : List StoredHeader) :
    replaceCanonicalChain headers store = (.error .missingBestHeader, store) ∧
        (headers = [] ∨ ¬ (ledger store).Holds headers) ∨
      ∃ after, replaceCanonicalChain headers store = (.ok (), after) ∧ headers ≠ [] ∧
        ledger after = (ledger store).replace headers := by
  cases last_eq : headers.getLast? with
  | none =>
    refine .inl ⟨by simp only [replaceCanonicalChain, last_eq], .inl ?_⟩
    exact List.getLast?_eq_none_iff.mp last_eq
  | some tip =>
    obtain ⟨front, headers_eq⟩ := List.getLast?_eq_some_iff.mp last_eq
    simp only [replaceCanonicalChain, last_eq]
    split
    next missing =>
      refine .inl ⟨rfl, .inr ?_⟩
      intro held
      obtain ⟨header, headerMem, absent⟩ := List.any_eq_true.mp missing
      have present : store.headers.lookup header.hash = some header := held header headerMem
      rw [present] at absent
      cases absent
    next =>
      refine .inr ⟨_, rfl, by rw [headers_eq]; simp, ?_⟩
      refine Ledger.ext ?_ ?_ ?_
      · exact (Ledger.replace_headers (ledger store) headers).symm
      · exact (lookup_foldl_insert { ledger store with canonical := fun _ => none } ∅
          (by funext height; simp) headers).symm
      · rw [headers_eq, Ledger.replace, Ledger.promoteAll_concat]
        rfl

instance instLawfulHeaderStore : LawfulHeaderStore MemoryHeaderStore where
  hash_eq {store _ _} found := store.keyed found
  putHeader_ok {store after header} run := by
    cases found_eq : store.headers.lookup header.hash with
    | some found => exact absurd ((putHeader_known found_eq).symm.trans run) (by simp)
    | none =>
      obtain ⟨other, other_eq, put_eq⟩ := putHeader_new found_eq
      obtain rfl := congrArg Prod.snd (other_eq.symm.trans run)
      exact ⟨found_eq, put_eq⟩
  putHeader_error {store after header error} run := by
    cases found_eq : store.headers.lookup header.hash with
    | some found =>
      obtain rfl := congrArg Prod.snd ((putHeader_known found_eq).symm.trans run)
      rfl
    | none =>
      obtain ⟨other, other_eq, -⟩ := putHeader_new found_eq
      exact absurd (other_eq.symm.trans run) (by simp)
  putHeaders_ok := putHeaders_ok
  putHeaders_error fresh run := by
    obtain ⟨other, other_eq⟩ := putHeaders_new fresh
    exact absurd (other_eq.symm.trans run) (by simp)
  promoteCanonicalTip_ok {store after header} run := by
    cases found_eq : store.headers.lookup header.hash with
    | none => exact absurd ((promoteCanonicalTip_unknown found_eq).symm.trans run) (by simp)
    | some found =>
      obtain ⟨other, other_eq, promote_eq⟩ := promoteCanonicalTip_known found_eq
      obtain rfl := congrArg Prod.snd (other_eq.symm.trans run)
      exact promote_eq
  promoteCanonicalTip_error {store after header error} run := by
    cases found_eq : store.headers.lookup header.hash with
    | none =>
      obtain rfl := congrArg Prod.snd ((promoteCanonicalTip_unknown found_eq).symm.trans run)
      rfl
    | some found =>
      obtain ⟨other, other_eq, -⟩ := promoteCanonicalTip_known found_eq
      exact absurd (other_eq.symm.trans run) (by simp)
  promoteCanonicalTips_ok := promoteCanonicalTips_ok
  promoteCanonicalTips_error held run := by
    obtain ⟨other, other_eq⟩ := promoteCanonicalTips_held held
    exact absurd (other_eq.symm.trans run) (by simp)
  replaceCanonicalChain_ok {store after headers} run := by
    rcases replaceCanonicalChain_cases store headers with ⟨failed, -⟩ | ⟨other, replaced, result⟩
    · exact absurd (failed.symm.trans run) (by simp)
    · obtain rfl := congrArg Prod.snd (replaced.symm.trans run)
      exact result
  replaceCanonicalChain_error {store after headers error} run := by
    rcases replaceCanonicalChain_cases store headers with ⟨failed, -⟩ | ⟨other, replaced, -⟩
    · obtain rfl := congrArg Prod.snd (failed.symm.trans run)
      rfl
    · exact absurd (replaced.symm.trans run) (by simp)

instance instReliableHeaderStore : ReliableHeaderStore MemoryHeaderStore where
  putHeader_new absent := by
    obtain ⟨after, put_eq, -⟩ := putHeader_new absent
    exact ⟨after, put_eq⟩
  putHeaders_new := putHeaders_new
  promoteCanonicalTip_held held := by
    obtain ⟨after, promote_eq, -⟩ := promoteCanonicalTip_known (held _ (List.mem_cons_self ..))
    exact ⟨after, promote_eq⟩
  promoteCanonicalTips_held := promoteCanonicalTips_held
  replaceCanonicalChain_held {store headers} nonempty held := by
    rcases replaceCanonicalChain_cases store headers with ⟨-, empty | missing⟩ | ⟨after, replaced, -⟩
    · exact absurd empty nonempty
    · exact absurd held missing
    · exact ⟨after, replaced⟩

end MemoryHeaderStore

end HnsDaneEngine.Browser.Chain
