import HnsDaneEngine.Browser.Chain.Canonical

/-!
# Batches and single headers

A batch is compared with the insertion of its headers one by one.  Both add the same
headers.  A single header replaces the best one only if it is heavier, so that the first of
the heaviest headers wins; the winner of a batch is the last of them.
-/

namespace HnsDaneEngine.Browser.Chain

open Codec Control HnsDaneEngine.Order Primitives HeaderStore

section

variable (digests : Digests) (policy : DifficultyPolicy)

/-- `insert_header` on every header in order, with the results of all calls. -/
def insertEach {S : Type} [HeaderStore S] :
    List BlockHeader → S → List (Except ChainError StoredHeader) × S
  | [], store => ([], store)
  | header :: headers, store =>
    let first := insertHeader digests policy header store
    let rest := insertEach headers first.2
    (first.1 :: rest.1, rest.2)

/-- The headers of a list that are new and pass the checks. -/
def additions : (Hash → Option StoredHeader) → List BlockHeader → List StoredHeader
  | _, [] => []
  | lookup, header :: headers =>
    match lookup (header.hash digests), checkHeader digests policy lookup header with
    | none, .ok stored =>
      stored :: additions (Function.update lookup stored.hash (some stored)) headers
    | _, _ => additions lookup headers

/-- Two of the new headers are the heaviest ones, and heavier than the best header. -/
def Tied (ledger : Ledger) (headers : List BlockHeader) : Prop :=
  ∃ first ∈ additions digests policy ledger.headers headers,
    ∃ second ∈ additions digests policy ledger.headers headers,
      first.hash ≠ second.hash ∧ first.chainwork.value = second.chainwork.value ∧
        (∀ other ∈ additions digests policy ledger.headers headers,
          other.chainwork.value ≤ first.chainwork.value) ∧
        shouldPromote ledger.tip first = true

/-- The headers with a known hash pass the checks, too. -/
def RepeatsPass : (Hash → Option StoredHeader) → List BlockHeader → Prop
  | _, [] => True
  | lookup, header :: headers =>
    match lookup (header.hash digests), checkHeader digests policy lookup header with
    | none, .ok stored => RepeatsPass (Function.update lookup stored.hash (some stored)) headers
    | none, .error _ => RepeatsPass lookup headers
    | some _, .ok _ => RepeatsPass lookup headers
    | some _, .error _ => False

end

/-- A result that does not stop the insertion one by one. -/
def Ignorable : Except ChainError StoredHeader → Prop
  | .ok _ => True
  | .error error => error = .duplicateHeader

variable {digests : Digests} {policy : DifficultyPolicy} {first second : Ledger}
  {headers : List BlockHeader} {added : List StoredHeader} {candidate : StoredHeader}
  {store : MemoryHeaderStore}

theorem Ledger.put_headers_congr (headers_eq : first.headers = second.headers)
    (header : StoredHeader) : (first.put header).headers = (second.put header).headers := by
  simp only [Ledger.put, headers_eq]

theorem Ledger.putAll_headers_congr (headers_eq : first.headers = second.headers)
    (headers : List StoredHeader) :
    (first.putAll headers).headers = (second.putAll headers).headers := by
  induction headers generalizing first second with
  | nil => exact headers_eq
  | cons header headers ih => exact ih (put_headers_congr headers_eq header)

theorem Adds.congr (adds : Adds digests policy first headers added)
    (headers_eq : second.headers = first.headers) :
    Adds digests policy second headers added := by
  induction adds generalizing second with
  | nil ledger => exact .nil second
  | known present rest ih => exact .known (headers_eq ▸ present) (ih headers_eq)
  | new absent accepts rest ih =>
    exact .new (headers_eq ▸ absent) (headers_eq ▸ accepts)
      (ih (Ledger.put_headers_congr headers_eq _))

theorem Adds.eq_additions {ledger : Ledger} (adds : Adds digests policy ledger headers added) :
    added = additions digests policy ledger.headers headers := by
  induction adds with
  | nil ledger => rfl
  | known present rest ih => simp only [additions, present, ih]
  | new absent accepts rest ih =>
    simp only [additions, absent, checkHeader_eq_ok_iff.mpr accepts, ih]
    rfl

theorem Ledger.Indexed.best_eq {ledger : Ledger} (indexed : ledger.Indexed) (keyed : ledger.Keyed) :
    ledger.best = ledger.tip.map (·.hash) := by
  cases best_eq : ledger.best with
  | none => rw [tip, best_eq, Option.bind_none, Option.map_none]
  | some best =>
    rcases indexed.exists_tip best_eq with ⟨header, held, tip_eq⟩
    rw [tip_eq, Option.map_some, keyed held]

/-- Grown ledgers are equal when their headers and their tips are. -/
theorem Ledger.Indexed.eq_iff_tip_eq (firstIndexed : first.Indexed) (secondIndexed : second.Indexed)
    (firstKeyed : first.Keyed) (secondKeyed : second.Keyed)
    (headers_eq : first.headers = second.headers) : first = second ↔ first.tip = second.tip := by
  constructor
  · intro same
    rw [same]
  · intro tip_eq
    refine firstIndexed.ext secondIndexed headers_eq ?_
    rw [firstIndexed.best_eq firstKeyed, secondIndexed.best_eq secondKeyed, tip_eq]

theorem Ledger.Advanced.tip_eq {before after : Ledger} (advanced : before.Advanced candidate after)
    (held : before.headers candidate.hash = some candidate) :
    after.tip = if shouldPromote before.tip candidate then some candidate else before.tip := by
  unfold Advanced at advanced
  split at advanced
  next promoted =>
    rw [if_pos promoted, tip, advanced.best_eq, Option.bind_some, advanced.headers_eq, held]
  next kept => rw [if_neg kept, advanced]

variable {header : BlockHeader}

section

variable {S : Type} [HeaderStore S] [LawfulHeaderStore S] [ReliableHeaderStore S]

/-- A new header that passes the checks is inserted. -/
theorem insertHeader_of_accepts {store : S} (grown : (ledger store).Grown)
    {stored : StoredHeader} (absent : (ledger store).headers (header.hash digests) = none)
    (accepts : Accepts digests policy (ledger store).headers header stored) :
    ∃ after, insertHeader digests policy header store = (.ok stored, after) ∧
      ((ledger store).put stored).Advanced stored (ledger after) := by
  rw [← accepts.hash_eq] at absent
  have checked : checkHeader digests policy (getHeader store) header = .ok stored :=
    checkHeader_eq_ok_iff.mpr accepts
  rcases ReliableHeaderStore.putHeader_new absent with ⟨middle, put_eq⟩
  rcases LawfulHeaderStore.putHeader_ok put_eq with ⟨-, middle_eq⟩
  have held := Ledger.put_headers_self (ledger store) stored
  have child := accepts.child.mono (Ledger.put_grows absent)
  have rooted := grown.rooted.put absent (.inr accepts.child)
  have indexed := grown.indexed.put absent
  rw [← middle_eq] at held child rooted indexed
  rcases promoteHeader_total rooted (ledger middle).tip held with ⟨after, promote_eq⟩
  rcases promoteHeader_cases indexed held child promote_eq with
    ⟨error, absurd_eq, -⟩ | ⟨-, advanced⟩
  · cases absurd_eq
  · refine ⟨after, ?_, middle_eq ▸ advanced⟩
    rw [insertHeader, Effect.get_bind, checked, Effect.ofExcept_ok_bind, Effect.bind_ok put_eq,
      Effect.get_bind, bestHeader_eq indexed, Effect.ofExcept_ok_bind, Effect.bind_ok promote_eq]
    rfl

/-- A known header changes nothing. -/
theorem insertHeader_known {store : S} (grown : (ledger store).Grown)
    {found : StoredHeader} (present : (ledger store).headers (header.hash digests) = some found) :
    ledger (insertHeader digests policy header store).2 = ledger store := by
  rcases run : insertHeader digests policy header store with ⟨result, after⟩
  rcases insertHeader_outcome grown.rooted grown.indexed run with
    ⟨error, -, same⟩ | ⟨stored, accepts, absent, -, -⟩
  · exact same
  · rw [accepts.hash_eq, present] at absent
    cases absent

/-- One by one the headers of a batch are added, and the first of the heaviest is the best. -/
theorem insertEach_spec {store : S} (grown : (ledger store).Grown)
    (adds : Adds digests policy (ledger store) headers added) :
    let after := (insertEach digests policy headers store).2
    (ledger after).Grown ∧ (ledger after).headers = ((ledger store).putAll added).headers ∧
      (ledger after).tip = added.foldl (fun held header =>
        if shouldPromote held header then some header else held) (ledger store).tip := by
  induction headers generalizing store added with
  | nil =>
    cases adds
    exact ⟨grown, rfl, rfl⟩
  | cons header headers ih =>
    cases adds with
    | known present rest =>
      have same : ledger (insertHeader digests policy header store).2 = ledger store :=
        insertHeader_known grown present
      have grownNext : (ledger (step digests policy store (.insertHeader header))).Grown :=
        grown_step grown _
      have result := ih grownNext (rest.congr (congrArg Ledger.headers same))
      simp only [step, same] at result
      exact result
    | new absent accepts rest =>
      rcases insertHeader_of_accepts grown absent accepts with ⟨next, next_eq, advanced⟩
      have grownNext : (ledger (step digests policy store (.insertHeader header))).Grown :=
        grown_step grown _
      simp only [step, next_eq] at grownNext
      rcases ih grownNext (rest.congr advanced.headers_eq) with ⟨grownAfter, headers_eq, tip_eq⟩
      rw [advanced.tip_eq (Ledger.put_headers_self _ _),
        Ledger.tip_put grown.indexed (accepts.hash_eq ▸ absent)] at tip_eq
      simp only [insertEach, next_eq]
      exact ⟨grownAfter, headers_eq.trans
        (Ledger.putAll_headers_congr advanced.headers_eq _), tip_eq⟩

end

/-- The checks never call a header a duplicate. -/
def Unduplicated {α : Type} (result : Except ChainError α) : Prop :=
  result ≠ .error .duplicateHeader

namespace Unduplicated

variable {α β : Type}

theorem ok (value : α) : Unduplicated (.ok value : Except ChainError α) := by
  intro absurd_eq
  cases absurd_eq

theorem error {error : ChainError} (other : error ≠ .duplicateHeader) :
    Unduplicated (.error error : Except ChainError α) := by
  intro absurd_eq
  exact other (Except.error.inj absurd_eq)

theorem bind {first : Except ChainError α} {next : α → Except ChainError β}
    (firstRun : Unduplicated first) (nextRun : ∀ value, Unduplicated (next value)) :
    Unduplicated (first >>= next) := by
  cases first with
  | error error =>
    intro absurd_eq
    exact firstRun (congrArg Except.error (Except.error.inj absurd_eq))
  | ok value => exact nextRun value

theorem liftPow (result : Except PowError α) : Unduplicated (liftPow result) := by
  cases result with
  | error failure => exact error (by simp)
  | ok value => exact ok value

theorem previous (lookup : Hash → Option StoredHeader) (header : StoredHeader) :
    Unduplicated (previous lookup header) := by
  unfold Chain.previous
  split
  · exact error (by simp)
  · split
    · exact error (by simp)
    · exact ok _

theorem ancestorBack (lookup : Hash → Option StoredHeader) (rounds : Nat) (header : StoredHeader) :
    Unduplicated (ancestorBack lookup rounds header) := by
  induction rounds generalizing header with
  | zero => exact ok header
  | succ rounds ih => exact (previous lookup header).bind ih

theorem suitableBlock (lookup : Hash → Option StoredHeader) (header : StoredHeader) :
    Unduplicated (suitableBlock lookup header) :=
  (previous lookup header).bind fun second => (previous lookup second).bind fun _ => ok _

theorem retargetBits (first last : StoredHeader) : Unduplicated (retargetBits first last) := by
  unfold Chain.retargetBits
  split
  · exact error (by simp)
  dsimp only
  split
  · exact error (by simp)
  · split
    · exact error (by simp)
    · split
      · exact ok _
      · exact (liftPow _).bind fun target => (liftPow _).bind fun limit => ok _

theorem expectedMainnetBits (lookup : Hash → Option StoredHeader) (parent : StoredHeader) :
    Unduplicated (expectedMainnetBits lookup parent) := by
  unfold Chain.expectedMainnetBits
  split
  · exact ok _
  refine (suitableBlock lookup parent).bind fun last => bind ?_ fun dayBefore =>
    (suitableBlock lookup dayBefore).bind fun first => retargetBits first last
  unfold Chain.ancestor
  split
  · exact error (by simp)
  · exact ancestorBack lookup _ parent

theorem checkHeader (lookup : Hash → Option StoredHeader) (header : BlockHeader) :
    Unduplicated (checkHeader digests policy lookup header) := by
  unfold Chain.checkHeader
  split
  · exact error (by simp)
  next parent parent_eq =>
    dsimp only
    split
    · exact error (by simp)
    next height height_eq =>
      refine bind ?_ fun _ => bind ?_ fun _ => bind ?_ fun _ => (liftPow _).bind fun work => ok _
      · cases policy with
        | permissive => exact ok ()
        | mainnet =>
          refine (expectedMainnetBits lookup parent).bind fun expected => ?_
          split
          · exact error (by simp)
          · exact ok ()
      · refine (liftPow _).bind fun enough => ?_
        split
        · exact ok ()
        · exact error (by simp)
      · cases policy with
        | permissive => exact ok ()
        | mainnet =>
          unfold validateCheckpoint
          dsimp only
          split
          · exact ok ()
          · split
            · exact error (by simp)
            · exact ok ()

end Unduplicated

/-- A known header gets the error of the checks, or else that of the store. -/
theorem insertHeader_known_result {found : StoredHeader}
    (present : (ledger store).headers (header.hash digests) = some found) :
    Ignorable (insertHeader digests policy header store).1 ↔
      ∃ stored, checkHeader digests policy (ledger store).headers header = .ok stored := by
  unfold insertHeader
  rw [Effect.get_bind]
  cases checked : checkHeader digests policy (getHeader store) header with
  | error error =>
    have checked' : checkHeader digests policy (ledger store).headers header = .error error :=
      checked
    rw [Effect.ofExcept_error_bind, checked']
    constructor
    · rintro rfl
      exact absurd checked (Unduplicated.checkHeader _ _)
    · rintro ⟨stored, absurd_eq⟩
      cases absurd_eq
  | ok stored =>
    have hash_eq := (checkHeader_eq_ok_iff.mp checked).hash_eq
    have put_eq : putHeader stored store = (.error .duplicateHeader, store) :=
      MemoryHeaderStore.putHeader_known (hash_eq ▸ present)
    rw [Effect.ofExcept_ok_bind, Effect.bind_error put_eq]
    exact ⟨fun _ => ⟨stored, checked⟩, fun _ => rfl⟩

/-- All results can be ignored if the known headers pass the checks. -/
theorem insertEach_results (grown : (ledger store).Grown)
    (adds : Adds digests policy (ledger store) headers added) :
    (∀ result ∈ (insertEach digests policy headers store).1, Ignorable result) ↔
      RepeatsPass digests policy (ledger store).headers headers := by
  induction headers generalizing store added with
  | nil => simp [insertEach, RepeatsPass]
  | cons header headers ih =>
    have grownNext : (ledger (step digests policy store (.insertHeader header))).Grown :=
      grown_step grown _
    simp only [insertEach, List.forall_mem_cons]
    cases adds with
    | known present rest =>
      have same : ledger (insertHeader digests policy header store).2 = ledger store :=
        insertHeader_known grown present
      have restResults := ih grownNext (rest.congr (congrArg Ledger.headers same))
      simp only [step, same] at restResults
      rw [insertHeader_known_result present, restResults]
      cases checked : checkHeader digests policy (ledger store).headers header with
      | error error => simp [RepeatsPass, present, checked]
      | ok stored => simp [RepeatsPass, present, checked]
    | new absent accepts rest =>
      rcases insertHeader_of_accepts grown absent accepts with ⟨next, next_eq, advanced⟩
      simp only [step, next_eq] at grownNext
      have restResults := ih grownNext (rest.congr advanced.headers_eq)
      rw [advanced.headers_eq] at restResults
      simp only [next_eq, restResults, RepeatsPass, absent, checkHeader_eq_ok_iff.mpr accepts]
      exact ⟨fun both => both.2, fun passes => ⟨trivial, passes⟩⟩

theorem shouldPromote_eq_outweighs (best : Option StoredHeader) (header : StoredHeader) :
    shouldPromote best header = outweighs (fun header => header.chainwork.value) best header := by
  cases best with
  | none => rfl
  | some best => rfl

/-- The two winners differ exactly when the heaviest new headers are several. -/
theorem winners_eq_iff {tip : Option StoredHeader}
    (distinct : added.Pairwise fun first second => first.hash ≠ second.hash)
    (last : LastHeaviest (fun header => header.chainwork.value) added candidate) :
    ((if shouldPromote tip candidate then some candidate else tip) =
        added.foldl (fun held header => if shouldPromote held header then some header else held)
          tip) ↔
      ¬ ∃ first ∈ added, ∃ second ∈ added, first.hash ≠ second.hash ∧
        first.chainwork.value = second.chainwork.value ∧
        (∀ other ∈ added, other.chainwork.value ≤ first.chainwork.value) ∧
        shouldPromote tip first = true := by
  simp only [shouldPromote_eq_outweighs]
  rcases firstHeaviest_foldl (fun header : StoredHeader => header.chainwork.value) tip added
    with ⟨kept, lighter⟩ | ⟨winner, winner_eq, beats, isFirst⟩
  · rw [kept, lighter candidate last.mem]
    simp only [Bool.false_eq_true, if_false, true_iff]
    rintro ⟨first, firstMem, -, -, -, -, -, firstBeats⟩
    rw [lighter first firstMem] at firstBeats
    cases firstBeats
  · have candidateBeats : outweighs (fun header : StoredHeader => header.chainwork.value) tip
        candidate = true := by
      have winner_le := last.le winner isFirst.mem
      cases tip with
      | none => rfl
      | some best =>
        have best_lt := of_decide_eq_true beats
        exact decide_eq_true (Nat.lt_of_lt_of_le best_lt winner_le)
    have nodup : added.Nodup := distinct.imp fun ne same => ne (congrArg _ same)
    have apart : ∀ {first second}, first ∈ added → second ∈ added → first ≠ second →
        first.hash ≠ second.hash := by
      intro first second firstMem secondMem ne
      have hashes : (added.map fun header => header.hash).Nodup := List.pairwise_map.mpr distinct
      exact fun same => ne (List.inj_on_of_nodup_map hashes firstMem secondMem same)
    rw [winner_eq, if_pos candidateBeats, Option.some.injEq, eq_comm,
      isFirst.eq_last_iff nodup last]
    constructor
    · rintro unique ⟨first, firstMem, second, secondMem, ne, same, heaviest, -⟩
      have winner_le := heaviest winner isFirst.mem
      have first_le := isFirst.le first firstMem
      have first_eq := unique first firstMem (by omega)
      have second_eq := unique second secondMem (by omega)
      exact ne (congrArg _ (first_eq.trans second_eq.symm))
    · intro untied item itemMem same
      by_contra ne
      exact untied ⟨winner, isFirst.mem, item, itemMem, (apart itemMem isFirst.mem ne).symm,
        same.symm, isFirst.le, beats⟩

/-- A batch on a chain that any calls have led to.  When it succeeds, it gives the tables of
the insertion one by one if and only if the heaviest new headers do not tie, and the calls
one by one return no error but `DuplicateHeader` if and only if the known headers pass the
checks.  When it fails, it changes nothing. -/
theorem insertHeaders_refines_iff (digests : Digests) (policy : DifficultyPolicy)
    (calls : List Call) (headers : List BlockHeader) :
    let store := runFrom (step digests policy) MemoryHeaderStore.empty calls
    let oneByOne := insertEach digests policy headers store
    match insertHeaders digests policy headers store with
    | (.ok _, after) =>
      (ledger after = ledger oneByOne.2 ↔ ¬ Tied digests policy (ledger store) headers) ∧
        ((∀ result ∈ oneByOne.1, Ignorable result) ↔
          RepeatsPass digests policy (ledger store).headers headers)
    | (.error _, after) => ledger after = ledger store := by
  intro store oneByOne
  have grown : (ledger store).Grown := grown_run calls
  rcases run : insertHeaders digests policy headers store with ⟨result, after⟩
  rcases insertHeaders_outcome grown.rooted grown.indexed run with
    ⟨error, rfl, same⟩ | ⟨added, adds, rfl, written⟩
  · exact same
  refine ⟨?_, insertEach_results grown adds⟩
  have fresh := adds.fresh
  have additions_eq := adds.eq_additions
  rcases insertEach_spec grown adds with ⟨eachGrown, each_headers, each_tip⟩
  rcases written with ⟨rfl, same⟩ | ⟨candidate, index, candidate_eq, advanced⟩
  · have untied : ¬ Tied digests policy (ledger store) headers := by
      rintro ⟨first, firstMem, -⟩
      rw [← additions_eq] at firstMem
      cases firstMem
    rw [same, grown.indexed.eq_iff_tip_eq eachGrown.indexed (ledger_keyed store)
      (ledger_keyed _) each_headers.symm]
    exact ⟨fun _ => untied, fun _ => each_tip.symm⟩
  · rcases bestCandidate_spec candidate_eq with ⟨-, last⟩
    have batchIndexed := advanced.indexed (grown.indexed.putAll fresh)
    have batch_tip := advanced.tip_eq (Ledger.holds_putAll fresh candidate last.mem)
    rw [Ledger.tip_putAll grown.indexed fresh] at batch_tip
    rw [batchIndexed.eq_iff_tip_eq eachGrown.indexed (ledger_keyed after) (ledger_keyed _)
      (advanced.headers_eq.trans each_headers.symm), batch_tip, each_tip,
      winners_eq_iff fresh.2 last, Tied, ← additions_eq]

/-! ## A tie

A genesis header and two children of it, and the digests of their parts.
-/

/-- Digests of inputs that are told apart by their first and last four octets. -/
def tabulated (table : List (Nat × Nat)) (input : Octets) : Nat :=
  (table.lookup (leNumber (input.take 4 ++ input.drop (input.length - 4)).reverse)).getD 0

def sampleDigests : Digests where
  blake2b256 input := .ofNumber (tabulated
    [(0x00000000ffff001c, 0xf90512f15a517f6c5331fafc33f533626008bc9d076dc654451cf3821262aba8),
    (0x0000000000000000, 0x0eb923b0cbd24df54401d998531feead35a47a99f4deed205de4af81120f9761),
    (0xf90512f1120f9761, 0xf1c47b3b9ad5922a79487d5752c4e405c2479e39c11766eaf24998ec28928bda),
    (0x283a74e13d54ec48, 0x5b6ef2d3c1f3cdcadfd9a030ba1811efdd17740f14e166489760741d075992e0),
    (0x01000000ffff7f20, 0x37614dc23e56b3b9be69d3e9abf4ef28b48dbd28a7f3ab098208e43ef2ceebaf),
    (0x5b6ef2d300000000, 0xd1310a1eb5f3c6ba9d9e1981cfe0864f05734de8186debf2f9b3cdea4040c676),
    (0x37614dc24040c676, 0x6a76a7f899d0376b914f0c0c7787cf0f5e9ce272357bae880f2497442d281b04),
    (0x630d7d502a2fd1c7, 0x73362c7c89a361eab5e3a01e0dc3c8bdc140a7aafa1caeae869e3acdb221c61c),
    (0x03000000ffff7f20, 0x8106acb3998016e07a576c22b04283834799927b9f353d93cc718f7b8c4d6945),
    (0x8106acb34040c676, 0xacda11372a19b177f382a41515a914f5052af236d576d74ab4344cc2279b75ac),
    (0x4d632023e9a63bec, 0x2277bf2f1b700e3eee414fcd08f4419e945ee669f5aad981d8c1429e66b04de8),
    (0x02000000ffff7f20, 0x85dadc9dd0f950ae737feae1465556311403b4761111df4f435c621731d94609),
    (0x73362c7c00000000, 0xce9f01a6ab90a2a1fc9a7f8af279475b511e9c582254c837c5b581c62108919d),
    (0x85dadc9d2108919d, 0xc3231f21a2d23d9975152092c3486282d2ad4840dd18c43a55ffe0a2722744f3),
    (0xeb8338b64db149e7, 0x26ad3d3a3e272b99377d9f13817a6fd4b8c3fdf8f6e0406538197b2b9e0c6b06)] input)
  blake2b512 input := (leOctets 64 (tabulated
    [(0x0000000028928bda, 0x283a74e19b061ff2db5e3678324b2e651b0f251c15e08b117cd3899dfb46fc41 *
        2 ^ 256 + 0x4651a1730aa48d7ba63e4f92287569193c960c04e91097f36c963eb91ee0cd8d),
    (0x010000002d281b04, 0x630d7d5084850e77321d3e30f264ea70c83245b9113abad2a19fe9c248455baf *
        2 ^ 256 + 0x8f39e8cc354d3bf8e93d6beefd2a546ffa4e45afe29aae009f50bcae9b58e1bb),
    (0x00000000279b75ac, 0x4d6320234db45b94d08a3cc2dd349ab4f4e48b8775fd0eed7f248e239fb313af *
        2 ^ 256 + 0x9f9200b029c07820396cdce1cef631c4d7411df81db3e2a414edd7595712e6cd),
    (0x03000000722744f3, 0xeb8338b6151dd75d9a9e493ebda9a45c61b8f2925076db9037b5cb7076c6f97e *
        2 ^ 256 + 0xd34940f314d6d9d3175670840e1f47d33c593a6f1beb857ff93fdabd4fe4031c)] input)).reverse
  sha3256 input := .ofNumber (tabulated
    [(0x0000000000000000, 0x53ace844227e7077d5ff3de7e13c8f7a2a28c93d412e85ec6feacb573d54ec48),
    (0x01000000c1f3cdca, 0x28f0a40c14c7e69c222d7c0c20c3b0df05de8a18515a6a5376d9874f2a2fd1c7),
    (0x00000000c1f3cdca, 0x9c5fd87f896904f8535de298500a894e9b4d9a36fdb29ba938059aeae9a63bec),
    (0x0300000089a361ea, 0xd05ffa7a176dee04f43c53943952e54c81f43ac03d0dd4fbcfad2ec74db149e7)] input)

/-- A child with the lowest difficulty. -/
def lowDifficultyChild (parent : Hash) (nonce : UInt32) (time : UInt64) (salt : UInt8) :
    BlockHeader :=
  { BlockHeader.mainnetGenesis with
    nonce
    time
    prevBlock := parent
    extraNonce := ⟨salt :: List.replicate 23 0, by simp⟩
    bits := 0x207fffff }

def genesisHash : Hash :=
  .ofNumber 0x5b6ef2d3c1f3cdcadfd9a030ba1811efdd17740f14e166489760741d075992e0

def firstChild : BlockHeader :=
  lowDifficultyChild genesisHash 1 1580745080 1

def secondChild : BlockHeader :=
  lowDifficultyChild genesisHash 0 1580745082 3

/-- Both children are accepted either way.  The best header of the batch is the second child,
and the best header of the insertion one by one is the first. -/
theorem insertHeaders_tie :
    let store := runFrom (step sampleDigests .permissive) MemoryHeaderStore.empty
      [.insertGenesis .mainnetGenesis]
    let batch := insertHeaders sampleDigests .permissive [firstChild, secondChild] store
    let oneByOne := insertEach sampleDigests .permissive [firstChild, secondChild] store
    (batch.1.toOption.map List.length = some 2 ∧
        oneByOne.1.map (fun result => result.toOption.isSome) = [true, true]) ∧
      bestHash batch.2 = some (secondChild.hash sampleDigests) ∧
      bestHash oneByOne.2 = some (firstChild.hash sampleDigests) ∧
      ledger batch.2 ≠ ledger oneByOne.2 := by
  intro store batch oneByOne
  have accepted : batch.1.toOption.map List.length = some 2 ∧
      oneByOne.1.map (fun result => result.toOption.isSome) = [true, true] := by decide +kernel
  have batchBest : bestHash batch.2 = some (secondChild.hash sampleDigests) := by decide +kernel
  have eachBest : bestHash oneByOne.2 = some (firstChild.hash sampleDigests) := by decide +kernel
  refine ⟨accepted, batchBest, eachBest, ?_⟩
  intro same
  have best_eq := congrArg Ledger.best same
  rw [ledger_best, ledger_best, batchBest, eachBest] at best_eq
  revert best_eq
  decide +kernel

end HnsDaneEngine.Browser.Chain
