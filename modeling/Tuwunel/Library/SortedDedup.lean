import Mathlib

/-!
# Sorting and removing adjacent duplicates

Sorting a list and then dropping every element equal to the one before it (`sorted` followed by
an adjacent `dedup`) gives the strictly ascending list of the input's members.  That list depends
on the members only (`sortDedup_congr`), so two inputs with the same members give equal outputs,
whatever their order and repetitions.
-/

namespace SortedDedup

variable {α : Type*}

theorem isChain_and {R S : α → α → Prop} :
    ∀ {l : List α}, l.IsChain R → l.IsChain S → l.IsChain fun a b => R a b ∧ S a b
  | [], _, _ => .nil
  | [_], _, _ => .singleton _
  | _ :: _ :: _, first, second => by
      rw [List.isChain_cons_cons] at first second ⊢
      exact ⟨⟨first.1, second.1⟩, isChain_and first.2 second.2⟩

section Destutter

variable [DecidableEq α]

/-- Dropping adjacent duplicates keeps every member. -/
theorem mem_destutter'_ne {x : α} (previous : α) (xs : List α) :
    x ∈ xs.destutter' (· ≠ ·) previous ↔ x ∈ previous :: xs := by
  induction xs generalizing previous with
  | nil => simp
  | cons current xs ih =>
      by_cases same : previous = current
      · subst current
        simp [ih]
      · simp [same, ih]

theorem mem_destutter_ne {x : α} (xs : List α) : x ∈ xs.destutter (· ≠ ·) ↔ x ∈ xs := by
  cases xs with
  | nil => simp
  | cons previous xs => exact mem_destutter'_ne previous xs

end Destutter

variable [LinearOrder α]

/-- Sort ascending, then drop each element equal to the one before it. -/
def sortDedup (xs : List α) : List α :=
  (xs.mergeSort (· ≤ ·)).destutter (· ≠ ·)

@[simp]
theorem mem_sortDedup {x : α} {xs : List α} : x ∈ sortDedup xs ↔ x ∈ xs := by
  simp [sortDedup, mem_destutter_ne]

theorem sortedLT_sortDedup (xs : List α) : (sortDedup xs).SortedLT := by
  have ascending : (sortDedup xs).Pairwise (· ≤ ·) :=
    (List.sortedLE_iff_pairwise.mp List.sortedLE_mergeSort).sublist (List.destutter_sublist _ _)
  rw [List.sortedLT_iff_isChain]
  exact (isChain_and ascending.isChain (List.isChain_destutter _ _)).imp
    fun _ _ both => lt_of_le_of_ne both.1 both.2

theorem nodup_sortDedup (xs : List α) : (sortDedup xs).Nodup :=
  (List.sortedLT_iff_nodup_and_sortedLE.mp (sortedLT_sortDedup xs)).1

/-- The output depends on the members of the input only. -/
theorem sortDedup_congr {xs ys : List α} (same : ∀ x, x ∈ xs ↔ x ∈ ys) :
    sortDedup xs = sortDedup ys :=
  (sortedLT_sortDedup xs).eq_of_mem_iff (sortedLT_sortDedup ys) (by simpa using same)

end SortedDedup
