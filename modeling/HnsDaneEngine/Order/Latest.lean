import Mathlib.Data.List.Basic
import Mathlib.Data.Nat.Basic
import Mathlib.Order.Basic

/-!
# Scanning for the latest of several objects

A scan keeps the object with the greatest number so far and stops when it meets another
object of that number.  Objects of one number below the greatest one are only compared
while nothing greater has come by, so whether they stop the scan depends on the order.
-/

namespace HnsDaneEngine.Order

universe u v

variable {α : Type u} [DecidableEq α] (number : α → Nat)

/-- One object more; nothing is returned at a conflict. -/
def latestStep (latest : Option α) (item : α) : Option (Option α) :=
  match latest with
  | none => some (some item)
  | some current =>
    if number current < number item then some (some item)
    else if number item = number current ∧ item ≠ current then none
    else some (some current)

/-- The scan of a list from an object on. -/
def scanLatest (latest : Option α) (items : List α) : Option (Option α) :=
  items.foldlM (latestStep number) latest

/-- An object of the list that beats all others. -/
def IsTop (items : List α) (top : α) : Prop :=
  top ∈ items ∧ ∀ item ∈ items, number item < number top ∨ item = top

/-- Different objects have different numbers. -/
def Unambiguous (items : List α) : Prop :=
  ∀ first ∈ items, ∀ second ∈ items, number first = number second → first = second

variable {number}

@[simp]
theorem scanLatest_nil (latest : Option α) : scanLatest number latest [] = some latest :=
  rfl

theorem scanLatest_cons_none (item : α) (items : List α) :
    scanLatest number none (item :: items) = scanLatest number (some item) items :=
  rfl

variable {current item : α} {items others : List α}

/-- A greater number takes over. -/
theorem scanLatest_cons_of_lt (greater : number current < number item) (items : List α) :
    scanLatest number (some current) (item :: items) = scanLatest number (some item) items := by
  rw [scanLatest, List.foldlM_cons]
  simp only [latestStep, if_pos greater]
  rfl

/-- Another object of the same number stops the scan. -/
theorem scanLatest_cons_of_tie (equal : number item = number current) (ne : item ≠ current)
    (items : List α) :
    scanLatest number (some current) (item :: items) = none := by
  have not_greater : ¬ number current < number item := equal.not_gt
  rw [scanLatest, List.foldlM_cons]
  simp only [latestStep, if_neg not_greater, if_pos (And.intro equal ne)]
  rfl

/-- A smaller number, or the object itself, changes nothing. -/
theorem scanLatest_cons_of_beaten (beaten : number item < number current ∨ item = current)
    (items : List α) :
    scanLatest number (some current) (item :: items) = scanLatest number (some current) items := by
  have not_greater : ¬ number current < number item := by
    rcases beaten with lower | rfl
    · exact lower.not_gt
    · exact lt_irrefl _
  have not_tie : ¬ (number item = number current ∧ item ≠ current) := by
    rintro ⟨equal, ne⟩
    rcases beaten with lower | same
    · exact lower.ne equal
    · exact ne same
  rw [scanLatest, List.foldlM_cons]
  simp only [latestStep, if_neg not_greater, if_neg not_tie]
  rfl

variable (number) in
/-- The three ways in which an object compares with the current one. -/
theorem compare_cases (current item : α) :
    number current < number item ∨ (number item = number current ∧ item ≠ current) ∨
      (number item < number current ∨ item = current) := by
  rcases lt_trichotomy (number current) (number item) with greater | equal | lower
  · exact .inl greater
  · by_cases same : item = current
    · exact .inr (.inr (.inr same))
    · exact .inr (.inl ⟨equal.symm, same⟩)
  · exact .inr (.inr (.inl lower))

theorem scanLatest_of_beaten
    (beaten : ∀ item ∈ items, number item < number current ∨ item = current) :
    scanLatest number (some current) items = some (some current) := by
  induction items with
  | nil => rfl
  | cons item items ih =>
    rw [List.forall_mem_cons] at beaten
    rw [scanLatest_cons_of_beaten beaten.1]
    exact ih beaten.2

/-- The scan keeps or replaces the object, and the kept one beats what has come by. -/
theorem scanLatest_some {result : α}
    (scanned : scanLatest number (some current) items = some (some result)) :
    IsTop number (current :: items) result := by
  induction items generalizing current with
  | nil =>
    cases scanned
    constructor
    · exact List.mem_cons_self
    · intro item mem
      exact .inr (List.mem_singleton.mp mem)
  | cons item items ih =>
    rcases compare_cases number current item with greater | ⟨equal, ne⟩ | beaten
    · rw [scanLatest_cons_of_lt greater] at scanned
      rcases ih scanned with ⟨mem, beats⟩
      constructor
      · exact List.mem_cons_of_mem current mem
      · rw [List.forall_mem_cons]
        constructor
        · rcases beats item List.mem_cons_self with lower | rfl
          · exact .inl (greater.trans lower)
          · exact .inl greater
        · exact beats
    · rw [scanLatest_cons_of_tie equal ne] at scanned
      cases scanned
    · rw [scanLatest_cons_of_beaten beaten] at scanned
      rcases ih scanned with ⟨mem, beats⟩
      rw [List.forall_mem_cons] at beats
      constructor
      · rcases List.mem_cons.mp mem with rfl | later
        · exact List.mem_cons_self
        · exact List.mem_cons_of_mem current (List.mem_cons_of_mem item later)
      · rw [List.forall_mem_cons, List.forall_mem_cons]
        refine ⟨beats.1, ?_, beats.2⟩
        rcases beaten with lower | rfl
        · rcases beats.1 with above | same
          · exact .inl (lower.trans above)
          · exact .inl (same ▸ lower)
        · exact beats.1

section

omit [DecidableEq α]

theorem IsTop.unique {first second : α} (isFirst : IsTop number items first)
    (isSecond : IsTop number items second) : first = second := by
  rcases isSecond.2 first isFirst.1 with lower | same
  · rcases isFirst.2 second isSecond.1 with above | same
    · exact absurd above lower.not_gt
    · exact same.symm
  · exact same

theorem IsTop.of_perm {top : α} (perm : items.Perm others) (isTop : IsTop number items top) :
    IsTop number others top :=
  ⟨perm.subset isTop.1, fun item mem => isTop.2 item (perm.symm.subset mem)⟩

theorem Unambiguous.of_perm (perm : items.Perm others) (unambiguous : Unambiguous number items) :
    Unambiguous number others :=
  fun first firstMem second secondMem =>
    unambiguous first (perm.symm.subset firstMem) second (perm.symm.subset secondMem)

end

theorem scanLatest_some_ne_none (items : List α) :
    scanLatest number (some current) items ≠ some none := by
  induction items generalizing current with
  | nil => exact fun scanned => by cases scanned
  | cons item items ih =>
    rcases compare_cases number current item with greater | ⟨equal, ne⟩ | beaten
    · rw [scanLatest_cons_of_lt greater]
      exact ih
    · rw [scanLatest_cons_of_tie equal ne]
      exact Option.some_ne_none none |>.symm
    · rw [scanLatest_cons_of_beaten beaten]
      exact ih

/-- A scan of a nonempty list that comes to an end has found the top. -/
theorem isTop_of_scanLatest (ne : items ≠ []) {result : Option α}
    (scanned : scanLatest number none items = some result) :
    ∃ top, result = some top ∧ IsTop number items top := by
  cases items with
  | nil => exact absurd rfl ne
  | cons item items =>
    rw [scanLatest_cons_none] at scanned
    cases result with
    | none => exact absurd scanned (scanLatest_some_ne_none items)
    | some top => exact ⟨top, rfl, scanLatest_some scanned⟩

/-- Without ambiguous numbers nothing stops the scan. -/
theorem scanLatest_some_of_unambiguous (unambiguous : Unambiguous number (current :: items)) :
    ∃ result, scanLatest number (some current) items = some result := by
  induction items generalizing current with
  | nil => exact ⟨some current, rfl⟩
  | cons item items ih =>
    have headMem : current ∈ current :: item :: items := List.mem_cons_self
    have itemMem : item ∈ current :: item :: items :=
      List.mem_cons_of_mem current List.mem_cons_self
    rcases compare_cases number current item with greater | ⟨equal, ne⟩ | beaten
    · rw [scanLatest_cons_of_lt greater]
      exact ih fun first firstMem second secondMem =>
        unambiguous first (List.mem_cons_of_mem current firstMem) second
          (List.mem_cons_of_mem current secondMem)
    · exact absurd (unambiguous item itemMem current headMem equal) ne
    rw [scanLatest_cons_of_beaten beaten]
    have kept : ∀ other ∈ current :: items, other ∈ current :: item :: items := by
      intro other mem
      rcases List.mem_cons.mp mem with rfl | later
      · exact headMem
      · exact List.mem_cons_of_mem current (List.mem_cons_of_mem item later)
    exact ih fun first firstMem second secondMem =>
      unambiguous first (kept first firstMem) second (kept second secondMem)

theorem scanLatest_of_unambiguous (unambiguous : Unambiguous number items) :
    ∃ result, scanLatest number none items = some result := by
  cases items with
  | nil => exact ⟨none, rfl⟩
  | cons item items => exact scanLatest_some_of_unambiguous unambiguous

/-- Without ambiguous numbers the scan finds the top. -/
theorem scanLatest_of_top {top : α} (isTop : IsTop number items top)
    (unambiguous : Unambiguous number items) : scanLatest number none items = some (some top) := by
  rcases scanLatest_of_unambiguous unambiguous with ⟨result, scanned⟩
  rcases isTop_of_scanLatest (List.ne_nil_of_mem isTop.1) scanned with ⟨found, rfl, isFound⟩
  rw [scanned, isFound.unique isTop]

/-- The scan of a list with an object that beats all others, when it comes first. -/
theorem scanLatest_top_first {top : α} (isTop : IsTop number items top) :
    scanLatest number none (top :: items.erase top) = some (some top) := by
  rw [scanLatest_cons_none]
  exact scanLatest_of_beaten fun item mem => isTop.2 item (List.mem_of_mem_erase mem)

/-- Two objects of one number stop a scan that starts with them. -/
theorem scanLatest_tie_first {first second : α} (firstMem : first ∈ items)
    (secondMem : second ∈ items) (equal : number second = number first) (ne : second ≠ first) :
    ∃ others, items.Perm others ∧ scanLatest number none others = none := by
  have secondLeft : second ∈ items.erase first := (List.mem_erase_of_ne ne).mpr secondMem
  refine ⟨first :: second :: (items.erase first).erase second, ?_, ?_⟩
  · exact (List.perm_cons_erase firstMem).trans ((List.perm_cons_erase secondLeft).cons first)
  · rw [scanLatest_cons_none]
    exact scanLatest_cons_of_tie equal ne _

/-- Without an object that beats all others every order stops the scan. -/
theorem scanLatest_of_no_top (ne : items ≠ []) (noTop : ¬ ∃ top, IsTop number items top) :
    scanLatest number none items = none := by
  cases scanned : scanLatest number none items with
  | none => rfl
  | some result =>
    rcases isTop_of_scanLatest ne scanned with ⟨top, -, isTop⟩
    exact absurd ⟨top, isTop⟩ noTop

/-- A list that settles for the same object in every order. -/
def Settled (number : α → Nat) (items : List α) : Prop :=
  (∃ top, IsTop number items top) → Unambiguous number items

theorem scanLatest_perm (settled : Settled number items) (perm : items.Perm others) :
    scanLatest number none others = scanLatest number none items := by
  by_cases empty : items = []
  · subst empty
    rw [List.nil_perm.mp perm]
  have others_ne : others ≠ [] := by
    rintro rfl
    exact empty (List.perm_nil.mp perm)
  by_cases hasTop : ∃ top, IsTop number items top
  · have unambiguous := settled hasTop
    rcases scanLatest_of_unambiguous unambiguous with ⟨result, scanned⟩
    rcases scanLatest_of_unambiguous (unambiguous.of_perm perm) with ⟨other, otherScanned⟩
    rcases isTop_of_scanLatest empty scanned with ⟨top, rfl, isTop⟩
    rcases isTop_of_scanLatest others_ne otherScanned with ⟨otherTop, rfl, isOther⟩
    rw [scanned, otherScanned, (isTop.of_perm perm).unique isOther]
  · have noOther : ¬ ∃ top, IsTop number others top := by
      rintro ⟨top, isTop⟩
      exact hasTop ⟨top, isTop.of_perm perm.symm⟩
    rw [scanLatest_of_no_top others_ne noOther, scanLatest_of_no_top empty hasTop]

omit [DecidableEq α] in
/-- The chosen part of a list comes in any order for some order of the list. -/
theorem exists_perm_filterMap {β : Type v} (choose : β → Option α) {batch : List β}
    (perm : (batch.filterMap choose).Perm items) :
    ∃ others, batch.Perm others ∧ others.filterMap choose = items := by
  generalize chosen_eq : batch.filterMap choose = chosen at perm
  induction perm generalizing batch with
  | nil => exact ⟨batch, List.Perm.refl batch, chosen_eq⟩
  | @cons head _ items _ ih =>
    rcases List.filterMap_eq_cons_iff.mp chosen_eq with
      ⟨skipped, entry, rest, rfl, none_chosen, entry_eq, rest_eq⟩
    rcases ih rest_eq with ⟨others, othersPerm, others_eq⟩
    refine ⟨entry :: (skipped ++ others), ?_, ?_⟩
    · exact (List.perm_middle).trans ((othersPerm.append_left skipped).cons entry)
    · rw [List.filterMap_cons_some entry_eq, List.filterMap_append,
        List.filterMap_eq_nil_iff.mpr none_chosen, List.nil_append, others_eq]
  | swap second first items =>
    rcases List.filterMap_eq_cons_iff.mp chosen_eq with
      ⟨skipped, entry, rest, rfl, none_chosen, entry_eq, rest_eq⟩
    rcases List.filterMap_eq_cons_iff.mp rest_eq with
      ⟨skippedNext, next, last, rfl, none_next, next_eq, last_eq⟩
    refine ⟨next :: entry :: (skipped ++ (skippedNext ++ last)), ?_, ?_⟩
    · have moved : (skippedNext ++ next :: last).Perm (next :: (skippedNext ++ last)) :=
        List.perm_middle
      have front : (skipped ++ entry :: (skippedNext ++ next :: last)).Perm
          (entry :: (skipped ++ (skippedNext ++ next :: last))) := List.perm_middle
      have inner : (skipped ++ (skippedNext ++ next :: last)).Perm
          (next :: (skipped ++ (skippedNext ++ last))) :=
        (moved.append_left skipped).trans List.perm_middle
      exact front.trans ((inner.cons entry).trans (List.Perm.swap next entry _))
    · rw [List.filterMap_cons_some next_eq, List.filterMap_cons_some entry_eq,
        List.filterMap_append, List.filterMap_append,
        List.filterMap_eq_nil_iff.mpr none_chosen, List.filterMap_eq_nil_iff.mpr none_next,
        last_eq]
      rfl
  | trans _ _ firstIh secondIh =>
    rcases firstIh chosen_eq with ⟨between, betweenPerm, between_eq⟩
    rcases secondIh between_eq with ⟨others, othersPerm, others_eq⟩
    exact ⟨others, betweenPerm.trans othersPerm, others_eq⟩

end HnsDaneEngine.Order
