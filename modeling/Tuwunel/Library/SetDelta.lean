import Mathlib

/-!
# Set deltas

A set stored as a stack of deltas: each layer adds some elements to the set below it and
removes others.  A delta is minimal against its base when it adds nothing already there and
removes only what is there.  Two minimal deltas stacked on each other fold into one minimal
delta on the lower base with the same result, which is what lets a store shorten a stack of
layers without changing what any layer stands for.

The fold is the element-by-element `cancel` a program runs over its two delta sets; on a list
without duplicates it computes the set expression `cancel_eq`.
-/

namespace SetDelta

variable {α : Type*}

/-- A delta that adds nothing `base` has and removes only what it has. -/
structure Minimal (base added removed : Finset α) : Prop where
  disjoint : Disjoint added base
  subset : removed ⊆ base

/-- A set with nothing removed is a minimal delta on the empty base. -/
theorem minimal_empty (added : Finset α) : Minimal ∅ added ∅ :=
  ⟨Finset.disjoint_empty_right added, Finset.empty_subset ∅⟩

theorem Minimal.removed_eq_empty {added removed : Finset α} (minimal : Minimal ∅ added removed) :
    removed = ∅ :=
  Finset.subset_empty.mp minimal.subset

variable [DecidableEq α]

/-- The set a delta leaves on top of `base`: add, then remove. -/
def apply (base added removed : Finset α) : Finset α := (base ∪ added) \ removed

@[simp]
theorem mem_apply {base added removed : Finset α} {x : α} :
    x ∈ apply base added removed ↔ (x ∈ base ∨ x ∈ added) ∧ x ∉ removed := by
  simp [apply]

/-- The delta from `base` to `target` rebuilds `target`. -/
theorem apply_sdiff (base target : Finset α) :
    apply base (target \ base) (base \ target) = target := by
  ext x
  by_cases inBase : x ∈ base <;> simp [inBase]

theorem minimal_sdiff (base target : Finset α) : Minimal base (target \ base) (base \ target) :=
  ⟨Finset.sdiff_disjoint, Finset.sdiff_subset⟩

/-- On the empty base a minimal delta's result is what it adds. -/
theorem Minimal.apply_empty {added removed : Finset α} (minimal : Minimal ∅ added removed) :
    apply ∅ added removed = added := by
  simp [apply, minimal.removed_eq_empty]

/-- Run over `xs` against a pair of sets: an element found in `keep` is taken out of it, any
other is added to `grow`. -/
def cancel (xs : List α) (sets : Finset α × Finset α) : Finset α × Finset α :=
  xs.foldl (fun sets x => if x ∈ sets.1 then (sets.1.erase x, sets.2) else (sets.1, insert x sets.2))
    sets

@[simp]
theorem cancel_nil (sets : Finset α × Finset α) : cancel [] sets = sets := rfl

theorem cancel_cons (x : α) (xs : List α) (sets : Finset α × Finset α) :
    cancel (x :: xs) sets =
      cancel xs (if x ∈ sets.1 then (sets.1.erase x, sets.2) else (sets.1, insert x sets.2)) :=
  rfl

/-- Over distinct elements the run is a set expression: each element is looked up in the
original `keep`, since the earlier ones only took out other elements. -/
theorem cancel_eq {xs : List α} (nodup : xs.Nodup) (keep grow : Finset α) :
    cancel xs (keep, grow) = (keep \ xs.toFinset, grow ∪ (xs.toFinset \ keep)) := by
  induction xs generalizing keep grow with
  | nil => simp
  | cons x xs ih =>
      obtain ⟨fresh, nodup⟩ := List.nodup_cons.mp nodup
      rw [cancel_cons]
      by_cases found : x ∈ keep
      · rw [if_pos found, ih nodup]
        ext y <;> by_cases same : y = x <;> simp [same, found, fresh]
      · rw [if_neg found, ih nodup]
        ext y <;> by_cases same : y = x <;> simp [same, found, fresh, or_comm]

/-- The delta `(new, gone)` folded into the delta `(added, removed)` below it: the removals are
cancelled against `added` first, then the additions against the updated `removed`. -/
def merge (added removed new gone : Finset α) : Finset α × Finset α :=
  ((added \ gone) ∪ (new \ (removed ∪ (gone \ added))), (removed ∪ (gone \ added)) \ new)

section Merge

variable {base added removed new gone : Finset α}

/-- What two stacked minimal deltas say about one element of the lower base. -/
private theorem merge_facts (lower : Minimal base added removed)
    (upper : Minimal (apply base added removed) new gone) (x : α) :
    (x ∈ added → x ∉ base) ∧ (x ∈ removed → x ∈ base) ∧
      (x ∈ new → ¬((x ∈ base ∨ x ∈ added) ∧ x ∉ removed)) ∧
      (x ∈ gone → (x ∈ base ∨ x ∈ added) ∧ x ∉ removed) := by
  refine ⟨fun member => Finset.disjoint_left.mp lower.disjoint member,
    fun member => lower.subset member, fun member => ?_, fun member => ?_⟩
  · exact mem_apply.not.mp (Finset.disjoint_left.mp upper.disjoint member)
  · exact mem_apply.mp (upper.subset member)

/-- Folding an upper minimal delta into a lower one gives a minimal delta on the lower base. -/
theorem merge_minimal (lower : Minimal base added removed)
    (upper : Minimal (apply base added removed) new gone) :
    Minimal base (merge added removed new gone).1 (merge added removed new gone).2 := by
  constructor
  · refine Finset.disjoint_left.mpr fun x member inBase => ?_
    obtain ⟨addedOut, -, newOut, -⟩ := merge_facts lower upper x
    simp only [merge, Finset.mem_union, Finset.mem_sdiff] at member
    grind
  · intro x member
    obtain ⟨-, removedIn, -, goneIn⟩ := merge_facts lower upper x
    simp only [merge, Finset.mem_union, Finset.mem_sdiff] at member
    grind

/-- The folded delta leaves on the lower base what the two stacked deltas leave. -/
theorem apply_merge (lower : Minimal base added removed)
    (upper : Minimal (apply base added removed) new gone) :
    apply base (merge added removed new gone).1 (merge added removed new gone).2 =
      apply (apply base added removed) new gone := by
  ext x
  obtain ⟨addedOut, removedIn, newOut, goneIn⟩ := merge_facts lower upper x
  simp only [merge, mem_apply, Finset.mem_union, Finset.mem_sdiff]
  grind

end Merge

end SetDelta
