import Mathlib.Algebra.GroupWithZero.Nat
import Mathlib.Data.List.Basic
import Mathlib.Order.Lattice

/-!
# The first and the last of the heaviest items

A scan that lets an item go only for a heavier one ends at the first of the heaviest items,
and a scan that lets it go for an item of the same weight ends at the last of them.  Both
are the same item exactly when no other one is as heavy.
-/

namespace HnsDaneEngine.Order

universe u

variable {α : Type u} (weight : α → Nat)

/-- Everything in front is lighter, and nothing behind is heavier. -/
def FirstHeaviest (items : List α) (chosen : α) : Prop :=
  ∃ front back, items = front ++ chosen :: back ∧ (∀ item ∈ front, weight item < weight chosen) ∧
    ∀ item ∈ back, weight item ≤ weight chosen

/-- Nothing in front is heavier, and everything behind is lighter. -/
def LastHeaviest (items : List α) (chosen : α) : Prop :=
  ∃ front back, items = front ++ chosen :: back ∧ (∀ item ∈ front, weight item ≤ weight chosen) ∧
    ∀ item ∈ back, weight item < weight chosen

/-- Whether an item is heavier than the one held so far, if there is one. -/
def outweighs (held : Option α) (item : α) : Bool :=
  match held with
  | none => true
  | some other => weight other < weight item

variable {weight} {items : List α}
variable {chosen : α}

theorem FirstHeaviest.mem (first : FirstHeaviest weight items chosen) : chosen ∈ items := by
  rcases first with ⟨front, back, rfl, -, -⟩
  exact List.mem_append_right _ (List.mem_cons_self ..)

theorem LastHeaviest.mem (last : LastHeaviest weight items chosen) : chosen ∈ items := by
  rcases last with ⟨front, back, rfl, -, -⟩
  exact List.mem_append_right _ (List.mem_cons_self ..)

theorem FirstHeaviest.le (first : FirstHeaviest weight items chosen) :
    ∀ item ∈ items, weight item ≤ weight chosen := by
  rcases first with ⟨front, back, rfl, lighter, notHeavier⟩
  intro item itemMem
  rcases List.mem_append.mp itemMem with inFront | inRest
  · exact (lighter item inFront).le
  · rcases List.mem_cons.mp inRest with rfl | inBack
    · exact le_refl _
    · exact notHeavier item inBack

theorem LastHeaviest.le (last : LastHeaviest weight items chosen) :
    ∀ item ∈ items, weight item ≤ weight chosen := by
  rcases last with ⟨front, back, rfl, notHeavier, lighter⟩
  intro item itemMem
  rcases List.mem_append.mp itemMem with inFront | inRest
  · exact notHeavier item inFront
  · rcases List.mem_cons.mp inRest with rfl | inBack
    · exact le_refl _
    · exact (lighter item inBack).le

/-- The weight of an item may be the weight of a part of it. -/
theorem LastHeaviest.map {β : Type u} (weight : α → Nat) (part : β → α) {whole : List β}
    {chosen : β} (last : LastHeaviest (fun item => weight (part item)) whole chosen) :
    LastHeaviest weight (whole.map part) (part chosen) := by
  rcases last with ⟨front, back, rfl, notHeavier, lighter⟩
  refine ⟨front.map part, back.map part, by rw [List.map_append, List.map_cons], ?_, ?_⟩
  · exact List.forall_mem_map.mpr notHeavier
  · exact List.forall_mem_map.mpr lighter

/-- The scan that prefers later items of the same weight. -/
theorem lastHeaviest_foldl (weight : α → Nat) (first : α) (rest : List α) :
    LastHeaviest weight (first :: rest)
      (rest.foldl (fun left right => if weight right < weight left then left else right) first) := by
  induction rest generalizing first with
  | nil => exact ⟨[], [], rfl, by simp, by simp⟩
  | cons second rest ih =>
    rw [List.foldl_cons]
    split
    next less =>
      rcases ih first with ⟨front, back, items_eq, notHeavier, lighter⟩
      generalize rest.foldl (fun left right => if weight right < weight left then left else right)
        first = chosen at items_eq notHeavier lighter ⊢
      cases front with
      | nil =>
        obtain ⟨rfl, rfl⟩ := List.cons.inj items_eq
        exact ⟨[], second :: rest, rfl, by simp, List.forall_mem_cons.mpr ⟨less, lighter⟩⟩
      | cons head front =>
        obtain ⟨rfl, rest_eq⟩ := List.cons.inj items_eq
        rcases List.forall_mem_cons.mp notHeavier with ⟨first_le, front_le⟩
        refine ⟨first :: second :: front, back, by rw [rest_eq]; rfl, ?_, lighter⟩
        refine List.forall_mem_cons.mpr ⟨first_le, List.forall_mem_cons.mpr ⟨?_, front_le⟩⟩
        exact (less.trans_le first_le).le
    next notLess =>
      have second_le := (ih second).le second (List.mem_cons_self ..)
      rcases ih second with ⟨front, back, items_eq, notHeavier, lighter⟩
      refine ⟨first :: front, back, congrArg (first :: ·) items_eq, ?_, lighter⟩
      exact List.forall_mem_cons.mpr ⟨(not_lt.mp notLess).trans second_le, notHeavier⟩

/-- The scan that lets an item go only for a heavier one. -/
theorem firstHeaviest_foldl (weight : α → Nat) (held : Option α) (items : List α) :
    let chosen := items.foldl (fun held item => if outweighs weight held item then some item else held)
      held
    chosen = held ∧ (∀ item ∈ items, outweighs weight held item = false) ∨
      ∃ item, chosen = some item ∧ outweighs weight held item = true ∧
        FirstHeaviest weight items item := by
  induction items generalizing held with
  | nil => exact .inl ⟨rfl, by simp⟩
  | cons first rest ih =>
    dsimp only at ih ⊢
    rw [List.foldl_cons]
    cases beats : outweighs weight held first with
    | false =>
      rcases ih held with ⟨kept, lighter⟩ | ⟨item, chosen_eq, itemBeats, front, back, rest_eq,
        lighter, notHeavier⟩
      · exact .inl ⟨kept, List.forall_mem_cons.mpr ⟨beats, lighter⟩⟩
      refine .inr ⟨item, chosen_eq, itemBeats, first :: front, back, by rw [rest_eq]; rfl, ?_,
        notHeavier⟩
      refine List.forall_mem_cons.mpr ⟨?_, lighter⟩
      cases held with
      | none => cases beats
      | some other =>
        have first_le := of_decide_eq_false beats
        have other_lt := of_decide_eq_true itemBeats
        omega
    | true =>
      right
      rcases ih (some first) with ⟨kept, lighter⟩ | ⟨item, chosen_eq, itemBeats, front, back,
        rest_eq, lighter, notHeavier⟩
      · refine ⟨first, kept, beats, [], rest, rfl, by simp, ?_⟩
        intro item itemMem
        exact not_lt.mp (of_decide_eq_false (lighter item itemMem))
      have first_lt : weight first < weight item := of_decide_eq_true itemBeats
      refine ⟨item, chosen_eq, ?_, first :: front, back, by rw [rest_eq]; rfl,
        List.forall_mem_cons.mpr ⟨first_lt, lighter⟩, notHeavier⟩
      cases held with
      | none => rfl
      | some other =>
        have other_lt := of_decide_eq_true beats
        exact decide_eq_true (other_lt.trans first_lt)

/-- The first and the last heaviest item are one if and only if there is no other. -/
theorem FirstHeaviest.eq_last_iff (nodup : items.Nodup) {first last : α}
    (isFirst : FirstHeaviest weight items first) (isLast : LastHeaviest weight items last) :
    first = last ↔ ∀ item ∈ items, weight item = weight first → item = first := by
  constructor
  · rintro rfl item itemMem weight_eq
    rcases isFirst with ⟨front, back, items_eq, lighter, -⟩
    rcases isLast with ⟨front', back', items_eq', -, lighter'⟩
    have split_eq := items_eq.symm.trans items_eq'
    rw [items_eq] at nodup
    have notFront : first ∉ front := by
      intro inFront
      exact absurd (lighter first inFront) (lt_irrefl _)
    have notBack : first ∉ back := by
      intro inBack
      have apart := (List.nodup_append.mp nodup).2.1
      exact (List.nodup_cons.mp apart).1 inBack
    rw [List.append_cons_inj_of_notMem notFront notBack] at split_eq
    rcases split_eq with ⟨-, -, rfl⟩
    rw [items_eq] at itemMem
    rcases List.mem_append.mp itemMem with inFront | inRest
    · exact absurd weight_eq (lighter item inFront).ne
    · rcases List.mem_cons.mp inRest with same | inBack
      · exact same
      · exact absurd weight_eq (lighter' item inBack).ne
  · intro unique
    have weight_eq : weight last = weight first :=
      le_antisymm (isFirst.le last isLast.mem) (isLast.le first isFirst.mem)
    exact (unique last isLast.mem weight_eq).symm

end HnsDaneEngine.Order
