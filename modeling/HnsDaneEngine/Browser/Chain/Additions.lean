import HnsDaneEngine.Browser.Chain.Index

/-!
# What a list of headers adds

A header is accepted on top of the headers that are there when its parent is among them
and all checks pass.  The checks of single headers and those of batches come in different
orders, and both accept the same headers.  A batch is a run of these acceptances in which
headers that are known are passed over.
-/

namespace HnsDaneEngine.Browser.Chain

open Control Data Primitives

section

variable (digests : Digests) (policy : DifficultyPolicy)

/-- The checked header on top of a parent. -/
structure Accepted (lookup : Hash → Option StoredHeader) (header : BlockHeader)
    (parent : StoredHeader) (work : Chainwork) (stored : StoredHeader) : Prop where
  parent_eq : lookup header.prevBlock = some parent
  next_eq : nextHeight parent.height = some stored.height
  difficulty : validateDifficultyBits policy lookup header parent = .ok ()
  enough : requirePow (header.hash digests) header.bits = .ok ()
  checkpoint : validateCheckpoint policy stored.height (header.hash digests) = .ok ()
  work_eq : Chainwork.fromBits header.bits = .ok work
  stored_eq : stored = ⟨header.hash digests, header, stored.height,
    parent.chainwork.checkedAdd work⟩

def Accepts (lookup : Hash → Option StoredHeader) (header : BlockHeader)
    (stored : StoredHeader) : Prop :=
  ∃ parent work, Accepted digests policy lookup header parent work stored

/-- The headers that a list adds, in order: known ones are passed over. -/
inductive Adds : Ledger → List BlockHeader → List StoredHeader → Prop
  | nil (ledger : Ledger) : Adds ledger [] []
  | known {ledger : Ledger} {header : BlockHeader} {headers : List BlockHeader}
      {added : List StoredHeader} {found : StoredHeader}
      (present : ledger.headers (header.hash digests) = some found)
      (rest : Adds ledger headers added) : Adds ledger (header :: headers) added
  | new {ledger : Ledger} {header : BlockHeader} {headers : List BlockHeader}
      {added : List StoredHeader} {stored : StoredHeader}
      (absent : ledger.headers (header.hash digests) = none)
      (accepts : Accepts digests policy ledger.headers header stored)
      (rest : Adds (ledger.put stored) headers added) :
      Adds ledger (header :: headers) (stored :: added)

end

variable {digests : Digests} {policy : DifficultyPolicy}

theorem liftPow_eq_ok_iff {α : Type} {result : Except PowError α} {value : α} :
    liftPow result = .ok value ↔ result = .ok value := by
  cases result with
  | error error => simp [liftPow]
  | ok found => simp [liftPow]

variable {lookup : Hash → Option StoredHeader} {header : BlockHeader} {stored : StoredHeader}
  {ledger : Ledger} {headers : List BlockHeader} {added : List StoredHeader}

theorem Accepts.hash_eq (accepts : Accepts digests policy lookup header stored) :
    stored.hash = header.hash digests := by
  rcases accepts with ⟨parent, work, accepted⟩
  rw [accepted.stored_eq]

theorem Accepts.header_eq (accepts : Accepts digests policy lookup header stored) :
    stored.header = header := by
  rcases accepts with ⟨parent, work, accepted⟩
  rw [accepted.stored_eq]

/-- The checks of a single header. -/
theorem checkHeader_eq_ok_iff :
    checkHeader digests policy lookup header = .ok stored ↔
      Accepts digests policy lookup header stored := by
  unfold checkHeader
  constructor
  · intro checked
    cases parent_eq : lookup header.prevBlock with
    | none =>
      rw [parent_eq] at checked
      cases checked
    | some parent =>
      rw [parent_eq] at checked
      dsimp only at checked
      cases next_eq : nextHeight parent.height with
      | none =>
        rw [next_eq] at checked
        cases checked
      | some height =>
        rw [next_eq] at checked
        obtain ⟨⟨⟩, difficulty, checked⟩ := of_bind_ok checked
        obtain ⟨⟨⟩, enough, checked⟩ := of_bind_ok checked
        obtain ⟨⟨⟩, checkpoint, checked⟩ := of_bind_ok checked
        obtain ⟨work, work_eq, checked⟩ := of_bind_ok checked
        obtain rfl := Except.ok.inj checked
        exact ⟨parent, work, parent_eq, next_eq, difficulty, enough, checkpoint,
          liftPow_eq_ok_iff.mp work_eq, rfl⟩
  · rintro ⟨parent, work, accepted⟩
    have work_ok := liftPow_eq_ok_iff.mpr accepted.work_eq
    rw [accepted.stored_eq]
    simp only [accepted.parent_eq, accepted.next_eq, accepted.difficulty, accepted.enough,
      accepted.checkpoint, work_ok]
    rfl

namespace Batch

/-- What the tables of a batch say about the headers it has accepted. -/
structure Tracks (ledger : Ledger) (batch : Batch) : Prop where
  lookup_eq : batch.lookup ledger.headers = (ledger.putAll batch.accepted).headers
  seen_iff : ∀ hash, hash ∈ batch.seen ∨ (ledger.headers hash).isSome ↔
    (batch.lookup ledger.headers hash).isSome
  works : ∀ {bits work}, batch.chainworkByBits.lookup bits = some work →
    Chainwork.fromBits bits = .ok work

theorem tracks_empty (ledger : Ledger) : Tracks ledger .empty where
  lookup_eq := by
    funext hash
    simp [lookup, empty, Ledger.putAll]
  seen_iff hash := by simp [lookup, empty]
  works found := by simp [empty] at found

variable {batch after : Batch}

theorem headerWork_eq_ok (tracks : Tracks ledger batch) {bits : UInt32} {work : Chainwork}
    {table : Store UInt32 Chainwork} (read : batch.headerWork bits = .ok (work, table)) :
    Chainwork.fromBits bits = .ok work ∧
      ∀ {other found}, table.lookup other = some found → Chainwork.fromBits other = .ok found := by
  unfold headerWork at read
  cases found_eq : batch.chainworkByBits.lookup bits with
  | some found =>
    rw [found_eq] at read
    cases read
    exact ⟨tracks.works found_eq, tracks.works⟩
  | none =>
    rw [found_eq] at read
    obtain ⟨computed, computed_ok, result_eq⟩ := of_bind_ok read
    cases result_eq
    have work_eq := liftPow_eq_ok_iff.mp computed_ok
    refine ⟨work_eq, ?_⟩
    intro other found stored
    by_cases same : other = bits
    · subst same
      rw [AList.lookup_insert] at stored
      rw [← Option.some.inj stored, work_eq]
    · rw [AList.lookup_insert_ne same] at stored
      exact tracks.works stored

/-- One more accepted header. -/
theorem lookup_insert (batch : Batch) (stored : Hash → Option StoredHeader)
    (accepted : StoredHeader) (seen : List Hash) (works : Store UInt32 Chainwork) :
    Batch.lookup ⟨batch.accepted ++ [accepted],
      batch.pending.insert accepted.hash accepted, seen, works⟩ stored =
        Function.update (batch.lookup stored) accepted.hash (some accepted) := by
  funext hash
  unfold lookup
  by_cases same : hash = accepted.hash
  · subst same
    rw [AList.lookup_insert, Function.update_self, Option.some_or]
  · rw [AList.lookup_insert_ne same, Function.update_of_ne same]

theorem tracks_insert (tracks : Tracks ledger batch) {accepted : StoredHeader}
    {works : Store UInt32 Chainwork}
    (correct : ∀ {bits work}, works.lookup bits = some work → Chainwork.fromBits bits = .ok work) :
    Tracks ledger ⟨batch.accepted ++ [accepted], batch.pending.insert accepted.hash accepted,
      batch.seen.insert accepted.hash, works⟩ where
  lookup_eq := by
    rw [lookup_insert, tracks.lookup_eq, Ledger.putAll_concat]
    rfl
  seen_iff hash := by
    rw [lookup_insert, List.mem_insert_iff]
    by_cases same : hash = accepted.hash
    · subst same
      simp [Function.update_self]
    · rw [Function.update_of_ne same, ← tracks.seen_iff]
      simp [same]
  works := correct

/-- A round passes over a known header or accepts a new one. -/
theorem add_cases (tracks : Tracks ledger batch)
    (round : add digests policy ledger.headers batch header = .ok after) :
    Tracks ledger after ∧
      ((∃ found, (ledger.putAll batch.accepted).headers (header.hash digests) = some found) ∧
          after.accepted = batch.accepted ∨
        (ledger.putAll batch.accepted).headers (header.hash digests) = none ∧
          ∃ stored, Accepts digests policy (ledger.putAll batch.accepted).headers header stored ∧
            after.accepted = batch.accepted ++ [stored]) := by
  unfold add at round
  dsimp only at round
  rw [← tracks.lookup_eq]
  split at round
  next known =>
    obtain rfl := Except.ok.inj round
    have present := (tracks.seen_iff _).mp known
    refine ⟨⟨tracks.lookup_eq, ?_, tracks.works⟩, .inl ⟨Option.isSome_iff_exists.mp present, rfl⟩⟩
    intro hash
    rw [List.mem_insert_iff]
    constructor
    · rintro ((rfl | seen) | stored)
      · exact present
      · exact (tracks.seen_iff hash).mp (.inl seen)
      · exact (tracks.seen_iff hash).mp (.inr stored)
    · intro found
      rcases (tracks.seen_iff hash).mpr found with seen | stored
      · exact .inl (.inr seen)
      · exact .inr stored
  next unknown =>
    have absent : batch.lookup ledger.headers (header.hash digests) = none := by
      rw [← Option.not_isSome_iff_eq_none, ← tracks.seen_iff]
      exact unknown
    cases parent_eq : batch.lookup ledger.headers header.prevBlock with
    | none =>
      rw [parent_eq] at round
      cases round
    | some parent =>
      rw [parent_eq] at round
      dsimp only at round
      obtain ⟨⟨⟩, difficulty, round⟩ := of_bind_ok round
      obtain ⟨⟨⟩, enough, round⟩ := of_bind_ok round
      cases next_eq : nextHeight parent.height with
      | none =>
        rw [next_eq] at round
        cases round
      | some height =>
        rw [next_eq] at round
        obtain ⟨⟨⟩, checkpoint, round⟩ := of_bind_ok round
        obtain ⟨⟨work, table⟩, work_ok, round⟩ := of_bind_ok round
        obtain rfl := Except.ok.inj round
        rcases headerWork_eq_ok tracks work_ok with ⟨work_eq, correct⟩
        refine ⟨tracks_insert tracks correct, .inr ⟨absent, _, ?_, rfl⟩⟩
        exact ⟨parent, work, parent_eq, next_eq, difficulty, enough, checkpoint, work_eq, rfl⟩

/-- A batch that passes is a run of acceptances. -/
theorem adds_of_addAll (tracks : Tracks ledger batch)
    (run : addAll digests policy ledger.headers batch headers = .ok after) :
    ∃ added, after.accepted = batch.accepted ++ added ∧
      Adds digests policy (ledger.putAll batch.accepted) headers added := by
  induction headers generalizing batch with
  | nil =>
    obtain rfl := Except.ok.inj run
    exact ⟨[], (List.append_nil _).symm, .nil _⟩
  | cons header headers ih =>
    obtain ⟨middle, round, rest⟩ := of_bind_ok run
    rcases add_cases tracks round with ⟨middleTracks, known | new⟩
    · rcases known with ⟨⟨found, present⟩, accepted_eq⟩
      rcases ih middleTracks rest with ⟨added, after_eq, adds⟩
      rw [accepted_eq] at after_eq adds
      exact ⟨added, after_eq, .known present adds⟩
    · rcases new with ⟨absent, stored, accepts, accepted_eq⟩
      rcases ih middleTracks rest with ⟨added, after_eq, adds⟩
      rw [accepted_eq, List.append_assoc] at after_eq
      rw [accepted_eq, Ledger.putAll_concat] at adds
      exact ⟨stored :: added, after_eq, .new absent accepts adds⟩

theorem adds_of_addAll_empty
    (run : addAll digests policy ledger.headers .empty headers = .ok after) :
    Adds digests policy ledger headers after.accepted := by
  rcases adds_of_addAll (tracks_empty ledger) run with ⟨added, accepted_eq, adds⟩
  rw [accepted_eq]
  exact adds

end Batch

theorem Adds.fresh (adds : Adds digests policy ledger headers added) : ledger.Fresh added := by
  induction adds with
  | nil ledger => exact ⟨by simp, .nil⟩
  | known present rest ih => exact ih
  | new absent accepts rest ih => exact ih.cons (accepts.hash_eq ▸ absent)

/-- A header on top of a stored parent. -/
def Ledger.Child (ledger : Ledger) (header : StoredHeader) : Prop :=
  ∃ parent work, ledger.headers header.header.prevBlock = some parent ∧
    nextHeight parent.height = some header.height ∧
    Chainwork.fromBits header.header.bits = .ok work ∧
    header.chainwork.value = parent.chainwork.value + work.value

theorem Ledger.Child.mono {larger : Ledger} {header : StoredHeader}
    (grows : ∀ hash found, ledger.headers hash = some found → larger.headers hash = some found)
    (child : ledger.Child header) : larger.Child header := by
  rcases child with ⟨parent, work, parent_eq, rest⟩
  exact ⟨parent, work, grows _ _ parent_eq, rest⟩

theorem Accepts.child (accepts : Accepts digests policy ledger.headers header stored) :
    ledger.Child stored := by
  have header_eq := accepts.header_eq
  rcases accepts with ⟨parent, work, accepted⟩
  refine ⟨parent, work, ?_, accepted.next_eq, ?_, ?_⟩
  · rw [header_eq, accepted.parent_eq]
  · rw [header_eq, accepted.work_eq]
  · rw [accepted.stored_eq]
    rfl

/-- Every header of a batch is on top of a header of the store or of the batch. -/
theorem Adds.child (adds : Adds digests policy ledger headers added) :
    ∀ header ∈ added, (ledger.putAll added).Child header := by
  induction adds with
  | nil ledger => simp
  | known present rest ih => exact ih
  | new absent accepts rest ih =>
    rw [← accepts.hash_eq] at absent
    rw [List.forall_mem_cons]
    refine ⟨accepts.child.mono ?_, ih⟩
    intro hash found present
    exact Ledger.putAll_grows rest.fresh hash found (Ledger.put_grows absent hash found present)

end HnsDaneEngine.Browser.Chain
