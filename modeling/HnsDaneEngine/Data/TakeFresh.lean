import Mathlib.Data.List.Nodup

/-!
# Items with fresh keys

A pass over a list takes the items whose key no item taken before has, up to a number of
items.
-/

namespace HnsDaneEngine.Data

variable {α β : Type} [DecidableEq β]

def takeFresh (key : α → β) (count : Nat) : List α → List α → List α
  | [], taken => taken
  | item :: rest, taken =>
    if count ≤ taken.length then taken
    else if key item ∈ taken.map key then takeFresh key count rest taken
    else takeFresh key count rest (taken ++ [item])

variable {key : α → β} {count : Nat} {items taken : List α}

theorem mem_of_mem_takeFresh {item : α} (mem : item ∈ takeFresh key count items taken) :
    item ∈ taken ∨ item ∈ items := by
  induction items generalizing taken with
  | nil => exact .inl mem
  | cons first rest ih =>
    rw [takeFresh] at mem
    split at mem
    · exact .inl mem
    · split at mem
      · exact (ih mem).imp_right (List.mem_cons_of_mem _)
      · have found := ih mem
        simp only [List.mem_append, List.mem_cons, List.not_mem_nil, or_false] at found ⊢
        exact or_assoc.mp found

/-- No two taken items have one key, and where there is room left, no key is missing. -/
theorem takeFresh_spans (distinct : (taken.map key).Nodup) (within : taken.length ≤ count) :
    ((takeFresh key count items taken).map key).Nodup ∧
      (takeFresh key count items taken).length ≤ count ∧
      taken ⊆ takeFresh key count items taken ∧
      ((takeFresh key count items taken).length = count ∨
        ∀ item ∈ items, key item ∈ (takeFresh key count items taken).map key) := by
  induction items generalizing taken with
  | nil => exact ⟨distinct, within, List.Subset.refl _, .inr (by simp)⟩
  | cons item rest ih =>
    rw [takeFresh]
    split
    next full => exact ⟨distinct, within, List.Subset.refl _, .inl (Nat.le_antisymm within full)⟩
    next room =>
      split
      next seen =>
        rcases ih distinct within with ⟨nodup, length_le, subset, spans⟩
        refine ⟨nodup, length_le, subset, spans.imp_right fun spans => ?_⟩
        exact List.forall_mem_cons.mpr ⟨List.map_subset key subset seen, spans⟩
      next fresh =>
        have extended : ((taken ++ [item]).map key).Nodup := by
          rw [List.map_append]
          exact distinct.append (List.nodup_singleton _) (List.disjoint_singleton.mpr fresh)
        rcases ih extended (by rw [List.length_append]; exact Nat.not_le.mp room) with
          ⟨nodup, length_le, subset, spans⟩
        rw [List.append_subset, List.cons_subset] at subset
        refine ⟨nodup, length_le, subset.1, spans.imp_right fun spans => ?_⟩
        exact List.forall_mem_cons.mpr ⟨List.mem_map_of_mem subset.2.1, spans⟩

end HnsDaneEngine.Data
