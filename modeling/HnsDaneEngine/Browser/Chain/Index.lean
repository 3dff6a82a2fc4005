import HnsDaneEngine.Browser.Chain.HeaderChain

/-!
# The canonical index

The index of a ledger holds the ancestors of the best header.  A canonical chain that is
moved to another tip is determined by this tip, whichever way the index was written.
-/

namespace HnsDaneEngine.Browser.Chain

open Control Data Primitives

/-- Headers name their parent by its hash. -/
def kinship : Kinship Hash StoredHeader where
  parent header := header.header.prevBlock
  height header := header.height

theorem nextHeight_eq_some_iff {height next : Nat} :
    nextHeight height = some next ↔ next = height + 1 ∧ next < 2 ^ 32 := by
  unfold nextHeight
  split
  next fits =>
    rw [Option.some.injEq]
    omega
  next overflows =>
    constructor
    · intro absurd_eq
      cases absurd_eq
    · rintro ⟨rfl, fits⟩
      exact absurd fits overflows

theorem previous_eq_ok_iff {lookup : Hash → Option StoredHeader} {header parent : StoredHeader} :
    previous lookup header = .ok parent ↔ lookup header.header.prevBlock = some parent ∧
        nextHeight parent.height = some header.height := by
  unfold previous
  cases lookup header.header.prevBlock with
  | none => simp
  | some found =>
    simp only [guard_eq_ok_iff, Except.ok.injEq, Option.some.injEq, not_not]
    constructor
    · rintro ⟨next, rfl⟩
      exact ⟨rfl, next⟩
    · rintro ⟨rfl, next⟩
      exact ⟨next, rfl⟩

namespace Ledger

/-- The best header. -/
def tip (ledger : Ledger) : Option StoredHeader :=
  ledger.best.bind ledger.headers

def Keyed (ledger : Ledger) : Prop :=
  ∀ ⦃hash header⦄, ledger.headers hash = some header → header.hash = hash

/-- The index holds the best header and its ancestors. -/
def Indexed (ledger : Ledger) : Prop :=
  match ledger.best with
  | none => ∀ height, ledger.canonical height = none
  | some best => kinship.Follows ledger.headers ledger.canonical best

/-- The same headers with another tip of the canonical chain. -/
structure Moved (before : Ledger) (tip : Hash) (after : Ledger) : Prop where
  headers_eq : after.headers = before.headers
  best_eq : after.best = some tip
  follows : kinship.Follows after.headers after.canonical tip

theorem Moved.indexed {before after : Ledger} {tip : Hash} (moved : before.Moved tip after) :
    after.Indexed := by
  rw [Indexed, moved.best_eq]
  exact moved.follows

/-- The index is determined by the headers and the best hash. -/
theorem Indexed.ext {first second : Ledger} (firstIndexed : first.Indexed)
    (secondIndexed : second.Indexed) (headers_eq : first.headers = second.headers)
    (best_eq : first.best = second.best) : first = second := by
  refine Ledger.ext headers_eq ?_ best_eq
  funext height
  unfold Indexed at firstIndexed secondIndexed
  rw [← best_eq] at secondIndexed
  cases tip_eq : first.best with
  | none =>
    rw [tip_eq] at firstIndexed secondIndexed
    rw [firstIndexed height, secondIndexed height]
  | some best =>
    rw [tip_eq] at firstIndexed secondIndexed
    rw [firstIndexed.eq_ancestorAt, secondIndexed.eq_ancestorAt, headers_eq]

variable {ledger : Ledger} {header current : StoredHeader} {headers : List StoredHeader}

theorem Indexed.exists_tip (indexed : ledger.Indexed) {best : Hash}
    (best_eq : ledger.best = some best) :
    ∃ header, ledger.headers best = some header ∧ ledger.tip = some header := by
  rw [Indexed, best_eq] at indexed
  obtain ⟨header, header_eq, -, -⟩ := indexed.top
  exact ⟨header, header_eq, by rw [tip, best_eq, Option.bind_some, header_eq]⟩

theorem put_grows (absent : ledger.headers header.hash = none) (hash : Hash) (found : StoredHeader)
    (present : ledger.headers hash = some found) :
    (ledger.put header).headers hash = some found := by
  have ne : hash ≠ header.hash := by
    rintro rfl
    rw [absent] at present
    cases present
  rw [put_headers_of_ne ne, present]

theorem Indexed.put (indexed : ledger.Indexed) (absent : ledger.headers header.hash = none) :
    (ledger.put header).Indexed := by
  unfold Indexed at indexed ⊢
  rw [put_best, put_canonical]
  cases best_eq : ledger.best with
  | none =>
    rw [best_eq] at indexed
    exact indexed
  | some best =>
    rw [best_eq] at indexed
    exact indexed.mono (put_grows absent)

theorem tip_put (indexed : ledger.Indexed) (absent : ledger.headers header.hash = none) :
    (ledger.put header).tip = ledger.tip := by
  cases best_eq : ledger.best with
  | none => rw [tip, tip, put_best, best_eq, Option.bind_none, Option.bind_none]
  | some best =>
    obtain ⟨found, found_eq, tip_eq⟩ := indexed.exists_tip best_eq
    rw [tip_eq, tip, put_best, best_eq, Option.bind_some]
    exact put_grows absent _ _ found_eq

theorem putAll_grows (fresh : ledger.Fresh headers) (hash : Hash) (found : StoredHeader)
    (present : ledger.headers hash = some found) :
    (ledger.putAll headers).headers hash = some found := by
  induction headers generalizing ledger with
  | nil => exact present
  | cons header headers ih =>
    exact ih fresh.put (put_grows (fresh.1 header (List.mem_cons_self ..)) hash found present)

theorem Indexed.putAll (indexed : ledger.Indexed) (fresh : ledger.Fresh headers) :
    (ledger.putAll headers).Indexed := by
  induction headers generalizing ledger with
  | nil => exact indexed
  | cons header headers ih =>
    exact ih (indexed.put (fresh.1 header (List.mem_cons_self ..))) fresh.put

theorem tip_putAll (indexed : ledger.Indexed) (fresh : ledger.Fresh headers) :
    (ledger.putAll headers).tip = ledger.tip := by
  induction headers generalizing ledger with
  | nil => rfl
  | cons header headers ih =>
    have absent := fresh.1 header (List.mem_cons_self ..)
    exact (ih (indexed.put absent) fresh.put).trans (tip_put indexed absent)

theorem holds_putAll (fresh : ledger.Fresh headers) : (ledger.putAll headers).Holds headers := by
  induction headers generalizing ledger with
  | nil => simp [Holds]
  | cons header headers ih =>
    refine List.forall_mem_cons.mpr ⟨?_, ih fresh.put⟩
    exact putAll_grows fresh.put header.hash header (put_headers_self ledger header)

/-- What is in the larger table was there before, or is one of the new headers. -/
theorem mem_of_putAll {hash : Hash} {found : StoredHeader}
    (present : (ledger.putAll headers).headers hash = some found) :
    ledger.headers hash = some found ∨ found ∈ headers := by
  induction headers generalizing ledger with
  | nil => exact .inl present
  | cons header headers ih =>
    rcases ih present with known | new
    · by_cases same : hash = header.hash
      · subst same
        rw [put_headers_self] at known
        exact .inr (List.mem_cons.mpr (.inl (Option.some.inj known).symm))
      · rw [put_headers_of_ne same] at known
        exact .inl known
    · exact .inr (List.mem_cons_of_mem _ new)

/-- The chain down from a header fills an index that follows it. -/
theorem follows_of_chainDown (keyed : ledger.Keyed) {height : Nat}
    (held : ledger.headers current.hash = some current) (height_eq : current.height = height)
    (walked : chainDown ledger.headers height current = .ok headers) :
    kinship.Follows ledger.headers (ledger.replace headers.reverse).canonical current.hash ∧
      (ledger.replace headers.reverse).best = some current.hash := by
  induction height generalizing current headers with
  | zero =>
    obtain rfl := Except.ok.inj walked
    have lowest : kinship.height current = 0 := height_eq
    exact ⟨Kinship.Follows.root held lowest, rfl⟩
  | succ height ih =>
    obtain ⟨parent, parent_ok, remaining⟩ := of_bind_ok walked
    obtain ⟨lower, lower_ok, result_eq⟩ := of_bind_ok remaining
    obtain rfl := Except.ok.inj result_eq
    obtain ⟨parent_eq, next⟩ := previous_eq_ok_iff.mp parent_ok
    obtain ⟨next_eq, -⟩ := nextHeight_eq_some_iff.mp next
    have parent_hash := keyed parent_eq
    rw [← parent_hash] at parent_eq
    obtain ⟨follows, -⟩ := ih parent_eq (by omega) lower_ok
    rw [List.reverse_cons, replace, promoteAll_concat]
    exact ⟨follows.extend parent_eq held parent_hash.symm next_eq, rfl⟩

/-- The headers of a chain are in the table. -/
theorem holds_of_chainDown (keyed : ledger.Keyed) {height : Nat}
    (held : ledger.headers current.hash = some current)
    (walked : chainDown ledger.headers height current = .ok headers) :
    headers ≠ [] ∧ ledger.Holds headers := by
  induction height generalizing current headers with
  | zero =>
    obtain rfl := Except.ok.inj walked
    refine ⟨List.cons_ne_nil _ _, ?_⟩
    rintro header headerMem
    rw [List.mem_singleton] at headerMem
    rw [headerMem, held]
  | succ height ih =>
    obtain ⟨parent, parent_ok, remaining⟩ := of_bind_ok walked
    obtain ⟨lower, lower_ok, result_eq⟩ := of_bind_ok remaining
    obtain rfl := Except.ok.inj result_eq
    obtain ⟨parent_eq, -⟩ := previous_eq_ok_iff.mp parent_ok
    rw [← keyed parent_eq] at parent_eq
    exact ⟨List.cons_ne_nil _ _, List.forall_mem_cons.mpr ⟨held, (ih parent_eq lower_ok).2⟩⟩

theorem moved_of_canonicalChainTo (keyed : ledger.Keyed) {hash : Hash}
    (walked : canonicalChainTo ledger.headers hash = .ok headers) :
    ledger.Moved hash (ledger.replace headers) ∧ headers ≠ [] ∧ ledger.Holds headers := by
  unfold canonicalChainTo at walked
  cases tip_eq : ledger.headers hash with
  | none =>
    rw [tip_eq] at walked
    cases walked
  | some header =>
    rw [tip_eq] at walked
    obtain ⟨lower, lower_ok, result_eq⟩ := of_bind_ok walked
    obtain rfl := Except.ok.inj result_eq
    have held := tip_eq
    have hash_eq := keyed tip_eq
    rw [← hash_eq] at held ⊢
    obtain ⟨follows, best_eq⟩ := follows_of_chainDown keyed held rfl lower_ok
    obtain ⟨nonempty, holds⟩ := holds_of_chainDown keyed held lower_ok
    refine ⟨⟨replace_headers .., best_eq, by rw [replace_headers]; exact follows⟩, ?_, ?_⟩
    · simpa using nonempty
    · intro found foundMem
      exact holds found (List.mem_reverse.mp foundMem)

/-- A chain of headers on top of the best one extends the index. -/
theorem Indexed.moved_promoteAll (indexed : ledger.Indexed) {best : StoredHeader}
    (best_eq : ledger.best = some best.hash) (held : ledger.headers best.hash = some best)
    {path : List StoredHeader} (holds : ledger.Holds path)
    (chain : (best :: path).IsChain fun header child =>
      child.header.prevBlock = header.hash ∧ child.height = header.height + 1) {top : StoredHeader}
    (last : (best :: path).getLast? = some top) :
    ledger.Moved top.hash (ledger.promoteAll path) := by
  induction path generalizing ledger best with
  | nil =>
    obtain rfl := Option.some.inj last
    rw [Indexed, best_eq] at indexed
    exact ⟨rfl, best_eq, indexed⟩
  | cons child path ih =>
    rw [Indexed, best_eq] at indexed
    obtain ⟨childHeld, pathHolds⟩ := List.forall_mem_cons.mp holds
    rw [List.isChain_cons_cons] at chain
    obtain ⟨⟨parent_eq, height_eq⟩, chainRest⟩ := chain
    have promoted : (ledger.promote child).Indexed :=
      indexed.extend held childHeld parent_eq height_eq
    rw [List.getLast?_cons_cons] at last
    obtain ⟨headers_eq, top_eq, follows⟩ := ih promoted rfl childHeld pathHolds chainRest last
    exact ⟨headers_eq, top_eq, follows⟩

end Ledger

end HnsDaneEngine.Browser.Chain
