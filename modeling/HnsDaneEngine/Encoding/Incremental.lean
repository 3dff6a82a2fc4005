import HnsDaneEngine.Encoding.Octets
import Mathlib.Data.Nat.Basic
import Mathlib.Order.Basic

/-!
# Incremental decoding

A decoder looks at the front of a buffer: it needs more octets, or finds an item and says
how many octets it used, or fails.  What it decided it decides for every longer buffer.
What a whole stream contains is a relation that no cut of the stream enters; a run that
decodes chunk by chunk with a bounded buffer is compared with it.
-/

namespace HnsDaneEngine.Incremental

variable {ε α : Type}

/-- Needs more octets, found an item and its length, or failed. -/
abbrev Decode (ε α : Type) : Type :=
  Octets → Except ε (Option (α × Nat))

/-- A decoder decides by a front of the buffer alone. -/
structure Decode.Local (decode : Decode ε α) : Prop where
  nil : decode [] = .ok none
  found_append : ∀ {buffer item used}, decode buffer = .ok (some (item, used)) →
    ∀ more, decode (buffer ++ more) = .ok (some (item, used))
  error_append : ∀ {buffer error}, decode buffer = .error error →
    ∀ more, decode (buffer ++ more) = .error error
  used_pos : ∀ {buffer item used}, decode buffer = .ok (some (item, used)) → 0 < used
  used_le : ∀ {buffer item used}, decode buffer = .ok (some (item, used)) → used ≤ buffer.length
  found_take : ∀ {buffer item used}, decode buffer = .ok (some (item, used)) →
    decode (buffer.take used) = .ok (some (item, used))

/-- The items of a stream, up to octets that need more or to a failure. -/
inductive Scans (decode : Decode ε α) : Octets → List α → Except ε Octets → Prop
  | rest {stream : Octets} (incomplete : decode stream = .ok none) :
      Scans decode stream [] (.ok stream)
  | error {stream : Octets} {error : ε} (failed : decode stream = .error error) :
      Scans decode stream [] (.error error)
  | item {stream : Octets} {item : α} {used : Nat} {items : List α}
      {outcome : Except ε Octets} (found : decode stream = .ok (some (item, used)))
      (scans : Scans decode (stream.drop used) items outcome) :
      Scans decode stream (item :: items) outcome

/-- Decode all items of a buffer; the octets that are left, or the failure instead of all. -/
def drain (decode : Decode ε α) : Nat → Octets → Except ε (List α × Octets)
  | 0, buffer => .ok ([], buffer)
  | fuel + 1, buffer => do
    match ← decode buffer with
    | none => .ok ([], buffer)
    | some (item, used) =>
      if used = buffer.length then .ok ([item], [])
      else do
        let (items, rest) ← drain decode fuel (buffer.drop used)
        .ok (item :: items, rest)

/-- Add a chunk to a bounded buffer and decode. -/
def feed (decode : Decode ε α) (limit : Nat) (tooLarge : ε) (buffer chunk : Octets) :
    Except ε (List α × Octets) :=
  if limit < buffer.length + chunk.length then .error tooLarge
  else drain decode (buffer ++ chunk).length (buffer ++ chunk)

/-- Items from chunk after chunk, up to the first failure; the last buffer or the failure. -/
def feedAll (decode : Decode ε α) (limit : Nat) (tooLarge : ε) (buffer : Octets) :
    List Octets → List α × Except ε Octets
  | [] => ([], .ok buffer)
  | chunk :: chunks =>
    match feed decode limit tooLarge buffer chunk with
    | .error error => ([], .error error)
    | .ok (items, rest) =>
      let later := feedAll decode limit tooLarge rest chunks
      (items ++ later.1, later.2)

/-- A cut of a stream into chunks none of which is empty. -/
structure Cuts (chunks : List Octets) (stream : Octets) : Prop where
  flatten_eq : chunks.flatten = stream
  nonempty : ∀ chunk ∈ chunks, chunk ≠ []

variable {decode : Decode ε α}

namespace Scans

variable {stream rest : Octets} {items : List α} {outcome : Except ε Octets}

theorem deterministic {others : List α} {other : Except ε Octets}
    (scans : Scans decode stream items outcome) (again : Scans decode stream others other) :
    items = others ∧ outcome = other := by
  induction scans generalizing others other with
  | rest incomplete =>
    cases again with
    | rest => exact ⟨rfl, rfl⟩
    | error failed => rw [incomplete] at failed; cases failed
    | item found => rw [incomplete] at found; cases found
  | error failed =>
    cases again with
    | rest incomplete => rw [failed] at incomplete; cases incomplete
    | error failedAgain => rw [failed] at failedAgain; cases failedAgain; exact ⟨rfl, rfl⟩
    | item found => rw [failed] at found; cases found
  | item found _ ih =>
    cases again with
    | rest incomplete => rw [found] at incomplete; cases incomplete
    | error failed => rw [found] at failed; cases failed
    | item foundAgain rest =>
      rw [found] at foundAgain
      cases foundAgain
      rcases ih rest with ⟨rfl, rfl⟩
      exact ⟨rfl, rfl⟩

/-- What is left needs more octets. -/
theorem incomplete_rest (scans : Scans decode stream items (.ok rest)) :
    decode rest = .ok none := by
  generalize outcome_eq : Except.ok rest = outcome at scans
  induction scans with
  | rest incomplete =>
    cases outcome_eq
    exact incomplete
  | error => cases outcome_eq
  | item _ _ ih => exact ih outcome_eq

theorem length_rest_le (scans : Scans decode stream items (.ok rest)) :
    rest.length ≤ stream.length := by
  generalize outcome_eq : Except.ok rest = outcome at scans
  induction scans with
  | rest =>
    cases outcome_eq
    exact Nat.le_refl _
  | error => cases outcome_eq
  | item _ _ ih =>
    refine (ih outcome_eq).trans ?_
    rw [List.length_drop]
    exact Nat.sub_le _ _

/-- A failure is found whatever follows. -/
theorem error_append (decides : decode.Local) {error : ε}
    (scans : Scans decode stream items (.error error)) (more : Octets) :
    Scans decode (stream ++ more) items (.error error) := by
  generalize outcome_eq : Except.error error = outcome at scans
  induction scans with
  | rest => cases outcome_eq
  | error failed => exact .error (decides.error_append failed more)
  | item found _ ih =>
    refine .item (decides.found_append found more) ?_
    rw [List.drop_append_of_le_length (decides.used_le found)]
    exact ih outcome_eq

/-- What follows a front is scanned together with what the front left. -/
theorem append (decides : decode.Local) {more : Octets} {later : List α}
    (front : Scans decode stream items (.ok rest))
    (back : Scans decode (rest ++ more) later outcome) :
    Scans decode (stream ++ more) (items ++ later) outcome := by
  generalize outcome_eq : Except.ok rest = frontOutcome at front
  induction front with
  | rest incomplete =>
    cases outcome_eq
    exact back
  | error => cases outcome_eq
  | item found _ ih =>
    refine .item (decides.found_append found more) ?_
    rw [List.drop_append_of_le_length (decides.used_le found)]
    exact ih outcome_eq

end Scans

/-- Every stream has its items. -/
theorem exists_scans (decides : decode.Local) (stream : Octets) :
    ∃ items outcome, Scans decode stream items outcome := by
  induction length_eq : stream.length using Nat.strongRecOn generalizing stream with
  | ind length ih =>
    cases decoded : decode stream with
    | error error => exact ⟨[], _, .error decoded⟩
    | ok found =>
      cases found with
      | none => exact ⟨[], _, .rest decoded⟩
      | some pair =>
        have used_pos := decides.used_pos decoded
        have used_le := decides.used_le decoded
        have shorter : (stream.drop pair.2).length < length := by
          rw [List.length_drop]
          omega
        rcases ih _ shorter _ rfl with ⟨items, outcome, scans⟩
        exact ⟨pair.1 :: items, outcome, .item decoded scans⟩

/-- Decoding a buffer returns its items, or its failure without the items before it. -/
theorem drain_eq (decides : decode.Local) {buffer : Octets} {items : List α}
    {outcome : Except ε Octets} (scans : Scans decode buffer items outcome) {fuel : Nat}
    (enough : buffer.length ≤ fuel) :
    drain decode fuel buffer = outcome.map fun rest => (items, rest) := by
  induction scans generalizing fuel with
  | @rest stream incomplete =>
    cases fuel with
    | zero => rfl
    | succ fuel =>
      rw [drain, incomplete]
      rfl
  | @error stream error failed =>
    cases fuel with
    | zero =>
      rw [List.length_eq_zero_iff.mp (Nat.le_zero.mp enough), decides.nil] at failed
      cases failed
    | succ fuel =>
      rw [drain, failed]
      rfl
  | @item stream item used items outcome found scans ih =>
    have used_pos := decides.used_pos found
    have used_le := decides.used_le found
    cases fuel with
    | zero => exact absurd (used_pos.trans_le (used_le.trans enough)) (Nat.lt_irrefl 0)
    | succ fuel =>
      rw [drain, found]
      change (if used = stream.length then _ else _) = _
      by_cases whole : used = stream.length
      · rw [if_pos whole]
        rw [whole, List.drop_length] at scans
        rcases scans.deterministic (.rest decides.nil) with ⟨rfl, rfl⟩
        rfl
      have shorter : (stream.drop used).length ≤ fuel := by
        rw [List.length_drop]
        omega
      rw [if_neg whole, ih shorter]
      cases outcome with
      | error error => rfl
      | ok rest => rfl

section

variable {limit : Nat} {tooLarge : ε} (decides : decode.Local)

include decides

variable {buffer : Octets} {items : List α} {outcome : Except ε Octets}
  {chunks : List Octets}

theorem feed_eq {chunk : Octets} (room : buffer.length + chunk.length ≤ limit)
    (scans : Scans decode (buffer ++ chunk) items outcome) :
    feed decode limit tooLarge buffer chunk = outcome.map fun rest => (items, rest) := by
  rw [feed, if_neg (Nat.not_lt.mpr room)]
  exact drain_eq decides scans (Nat.le_refl _)

/-- A stream without failure is decoded when every chunk fits the buffer besides what the
octets before it left incomplete. -/
theorem feedAll_of_room {past rest : Octets} {earlier : List α}
    (before : Scans decode past earlier (.ok buffer))
    (room : ∀ part chunk front middle, part ++ chunk <+: past ++ chunks.flatten → chunk ∈ chunks →
      Scans decode part front (.ok middle) → middle.length + chunk.length ≤ limit)
    (scans : Scans decode (buffer ++ chunks.flatten) items (.ok rest)) :
    feedAll decode limit tooLarge buffer chunks = (items, .ok rest) := by
  induction chunks generalizing past buffer earlier items with
  | nil =>
    rw [List.flatten_nil, List.append_nil] at scans
    rcases scans.deterministic (.rest before.incomplete_rest) with ⟨rfl, same⟩
    cases same
    rfl
  | cons chunk chunks ih =>
    rw [List.flatten_cons, ← List.append_assoc] at scans room
    have fits := room past chunk earlier buffer (List.prefix_append _ _) List.mem_cons_self before
    rcases exists_scans decides (buffer ++ chunk) with ⟨front, outcome, frontScans⟩
    cases outcome with
    | error error =>
      rcases scans.deterministic (frontScans.error_append decides _) with ⟨-, same⟩
      cases same
    | ok middle =>
      rcases exists_scans decides (middle ++ chunks.flatten) with ⟨back, final, backScans⟩
      rcases scans.deterministic (frontScans.append decides backScans) with ⟨rfl, rfl⟩
      have rest_eq := ih (before.append decides frontScans)
        (fun part other front middle isPrefix mem =>
          room part other front middle isPrefix (List.mem_cons_of_mem _ mem)) backScans
      rw [feedAll, feed_eq decides fits frontScans]
      simp only [Except.map, rest_eq]

/-- A stream without failure that fits the buffer is decoded whatever the chunks are. -/
theorem feedAll_of_le {rest : Octets}
    (scans : Scans decode (buffer ++ chunks.flatten) items (.ok rest))
    (incomplete : decode buffer = .ok none) (fits : (buffer ++ chunks.flatten).length ≤ limit) :
    feedAll decode limit tooLarge buffer chunks = (items, .ok rest) := by
  refine feedAll_of_room decides (.rest incomplete) ?_ scans
  intro part chunk front middle isPrefix _ partScans
  have middle_le := partScans.length_rest_le
  have part_le := isPrefix.length_le
  rw [List.length_append] at part_le
  omega

/-- Octet by octet every item is delivered, and a failure after all items before it. -/
theorem feedAll_singletons (bounded : ∀ buffer, decode buffer = .ok none → buffer.length < limit)
    {stream : Octets} (scans : Scans decode (buffer ++ stream) items outcome)
    (incomplete : decode buffer = .ok none) :
    feedAll decode limit tooLarge buffer (stream.map fun octet => [octet]) = (items, outcome) := by
  induction stream generalizing buffer items with
  | nil =>
    rw [List.append_nil] at scans
    rcases scans.deterministic (.rest incomplete) with ⟨rfl, rfl⟩
    rfl
  | cons octet stream ih =>
    have room : buffer.length + [octet].length ≤ limit :=
      Nat.succ_le_of_lt (bounded buffer incomplete)
    have scans' := scans
    rw [List.append_cons] at scans'
    rw [List.map_cons, feedAll]
    cases decoded : decode (buffer ++ [octet]) with
    | error error =>
      have front : Scans decode (buffer ++ [octet]) [] (.error error) := .error decoded
      rcases scans'.deterministic (front.error_append decides stream) with ⟨rfl, rfl⟩
      rw [feed_eq decides room front]
      rfl
    | ok found =>
      cases found with
      | none =>
        have front : Scans decode (buffer ++ [octet]) [] (.ok (buffer ++ [octet])) :=
          .rest decoded
        rw [feed_eq decides room front]
        simp only [Except.map, ih scans' decoded, List.nil_append]
      | some pair =>
        -- the octet completed the item, so that nothing is left behind it
        have whole : pair.2 = (buffer ++ [octet]).length := by
          refine Nat.le_antisymm (decides.used_le decoded) (Nat.le_of_not_lt ?_)
          intro less
          rw [List.length_append, List.length_singleton] at less
          have taken := decides.found_take decoded
          rw [List.take_append_of_le_length (Nat.le_of_lt_succ less)] at taken
          have again := decides.found_append taken (buffer.drop pair.2)
          rw [List.take_append_drop, incomplete] at again
          cases again
        have front : Scans decode (buffer ++ [octet]) [pair.1] (.ok []) := by
          refine .item decoded ?_
          rw [whole, List.drop_length]
          exact .rest decides.nil
        rcases exists_scans decides ([] ++ stream) with ⟨later, final, backScans⟩
        rcases scans'.deterministic (front.append decides backScans) with ⟨rfl, rfl⟩
        rw [feed_eq decides room front]
        simp only [Except.map, ih backScans decides.nil]

/-- In one chunk a failure hides all items, and a stream over the bound fails. -/
theorem feedAll_whole {stream : Octets} (scans : Scans decode stream items outcome) :
    feedAll decode limit tooLarge [] [stream] =
      if limit < stream.length then ([], .error tooLarge)
      else
        match outcome with
        | .error error => ([], .error error)
        | .ok rest => (items, .ok rest) := by
  by_cases exceeds : limit < stream.length
  · have exceeds' : limit < ([] : Octets).length + stream.length := by simpa using exceeds
    rw [if_pos exceeds, feedAll, feed, if_pos exceeds']
  · have room : ([] : Octets).length + stream.length ≤ limit := by simpa using exceeds
    rw [if_neg exceeds, feedAll, feed_eq decides room scans]
    cases outcome with
    | error error => rfl
    | ok rest => simp [Except.map, feedAll]

/-- When the first item fails, nothing is delivered whatever the chunks are. -/
theorem feedAll_of_error {error : ε} (failed : decode (buffer ++ chunks.flatten) = .error error)
    (incomplete : decode buffer = .ok none) :
    ∃ other, feedAll decode limit tooLarge buffer chunks = ([], .error other) := by
  induction chunks generalizing buffer with
  | nil =>
    rw [List.flatten_nil, List.append_nil, incomplete] at failed
    cases failed
  | cons chunk chunks ih =>
    rw [List.flatten_cons, ← List.append_assoc] at failed
    rw [feedAll]
    by_cases room : buffer.length + chunk.length ≤ limit
    · cases decoded : decode (buffer ++ chunk) with
      | error other =>
        rw [feed_eq decides room (.error decoded)]
        exact ⟨other, rfl⟩
      | ok found =>
        cases found with
        | none =>
          rcases ih failed decoded with ⟨other, later⟩
          rw [feed_eq decides room (.rest decoded)]
          exact ⟨other, by simp [Except.map, later]⟩
        | some pair =>
          have found := decides.found_append decoded chunks.flatten
          rw [failed] at found
          cases found
    · rw [feed, if_pos (Nat.lt_of_not_le room)]
      exact ⟨tooLarge, rfl⟩

/-- All cuts of a stream agree exactly when its first item fails, or when it fits the buffer
and has no failure at all. -/
theorem cuts_agree_iff
    (bounded : ∀ buffer, decode buffer = .ok none → buffer.length < limit) (stream : Octets) :
    (∀ first second, Cuts first stream → Cuts second stream →
        (feedAll decode limit tooLarge [] first).1 = (feedAll decode limit tooLarge [] second).1 ∧
        ((∃ error, (feedAll decode limit tooLarge [] first).2 = .error error) ↔
          ∃ error, (feedAll decode limit tooLarge [] second).2 = .error error)) ↔
      (∃ error, decode stream = .error error) ∨
        (stream.length ≤ limit ∧ ∀ items error, ¬ Scans decode stream items (.error error)) := by
  rcases exists_scans decides stream with ⟨items, outcome, scans⟩
  have scans' : Scans decode ([] ++ stream) items outcome := scans
  constructor
  · intro agree
    by_cases empty : stream = []
    · subst empty
      refine .inr ⟨Nat.zero_le _, fun items error failed => ?_⟩
      cases (failed.deterministic (.rest decides.nil)).2
    have octets : Cuts (stream.map fun octet => [octet]) stream := by
      constructor
      · exact List.flatMap_singleton' stream
      · intro chunk mem
        rcases List.mem_map.mp mem with ⟨octet, -, rfl⟩
        exact List.cons_ne_nil octet []
    have whole : Cuts [stream] stream :=
      ⟨List.flatten_singleton, fun chunk mem => List.mem_singleton.mp mem ▸ empty⟩
    have same := agree _ _ octets whole
    rw [feedAll_singletons decides bounded scans' decides.nil, feedAll_whole decides scans] at same
    by_cases exceeds : limit < stream.length
    · rw [if_pos exceeds] at same
      rcases same with ⟨rfl, errors⟩
      rcases errors.mpr ⟨tooLarge, rfl⟩ with ⟨error, rfl⟩
      cases scans with
      | error failed => exact .inl ⟨error, failed⟩
    rw [if_neg exceeds] at same
    cases outcome with
    | error error =>
      have items_eq : items = [] := same.1
      subst items_eq
      cases scans with
      | error failed => exact .inl ⟨error, failed⟩
    | ok rest =>
      refine .inr ⟨Nat.le_of_not_lt exceeds, fun others error failed => ?_⟩
      cases (failed.deterministic scans).2
  · rintro (⟨error, failed⟩ | ⟨fits, never⟩) first second firstCuts secondCuts
    · have fails : ∀ chunks, Cuts chunks stream → ∃ other,
          feedAll decode limit tooLarge [] chunks = ([], .error other) := by
        intro chunks cuts
        have failed' : decode ([] ++ chunks.flatten) = .error error := by
          rw [List.nil_append, cuts.flatten_eq]
          exact failed
        exact feedAll_of_error decides failed' decides.nil
      rcases fails first firstCuts with ⟨_, first_eq⟩
      rcases fails second secondCuts with ⟨_, second_eq⟩
      rw [first_eq, second_eq]
      exact ⟨rfl, iff_of_true ⟨_, rfl⟩ ⟨_, rfl⟩⟩
    · cases outcome with
      | error error => exact absurd scans (never items error)
      | ok rest =>
        have runs : ∀ chunks, Cuts chunks stream →
            feedAll decode limit tooLarge [] chunks = (items, .ok rest) := by
          intro chunks cuts
          refine feedAll_of_le decides ?_ decides.nil ?_
          · rw [List.nil_append, cuts.flatten_eq]
            exact scans
          · rw [List.nil_append, cuts.flatten_eq]
            exact fits
        rw [runs first firstCuts, runs second secondCuts]
        exact ⟨rfl, Iff.rfl⟩

end

end HnsDaneEngine.Incremental
