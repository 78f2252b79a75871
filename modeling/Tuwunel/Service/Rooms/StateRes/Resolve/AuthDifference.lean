import Tuwunel.Library.AssocTable
import Tuwunel.Library.SortedDedup

/-!
# The auth difference

`auth_difference` folds the auth sets into `Counts`: the number of sets and, for each event id,
the number of sets it was seen in.  An id seen fewer times than there are sets is missing from
one of them.  The count of an id is the number of sets holding it only when no set lists an id
twice, which is the precondition of `AuthSet::from_distinct` and what `FromIterator` establishes
by sorting and removing adjacent duplicates (`AuthSet.nodup_fromIter`).

Counts are `Nat` here: the source's saturating additions stop at `usize::MAX`, which no list of
auth sets reaches.
-/

namespace Tuwunel
namespace StateRes

open AssocTable SortedDedup

variable {Id : Type*}

/-- `AuthSet`: the full auth chain of one state. -/
structure AuthSet (Id : Type*) where
  ids : List Id

/-- `AuthSet::from_distinct`: the caller promises that `ids` has no duplicates. -/
def AuthSet.fromDistinct (ids : List Id) : AuthSet Id := ⟨ids⟩

/-- `FromIterator for AuthSet`: sorted, then adjacent duplicates dropped. -/
def AuthSet.fromIter [LinearOrder Id] (ids : List Id) : AuthSet Id :=
  .fromDistinct (sortDedup ids)

theorem AuthSet.nodup_fromIter [LinearOrder Id] (ids : List Id) :
    (AuthSet.fromIter ids).ids.Nodup :=
  nodup_sortDedup ids

variable [DecidableEq Id]

/-- `Counts`: how many sets held each id, and how many sets were merged. -/
structure Counts (Id : Type*) where
  byId : List (Id × Nat)
  total : Nat

/-- `Counts::merge`. -/
def Counts.merge (counts : Counts Id) (set : AuthSet Id) : Counts Id where
  byId := set.ids.foldl (fun byId id => modify 0 (· + 1) byId id) counts.byId
  total := counts.total + 1

/-- `auth_difference`: the ids held by fewer sets than were merged. -/
def authDifference (authSets : List (AuthSet Id)) : List Id :=
  let counts := authSets.foldl Counts.merge ⟨[], 0⟩
  counts.byId.filterMap fun entry => if entry.2 < counts.total then some entry.1 else none

theorem foldl_merge (authSets : List (AuthSet Id)) (counts : Counts Id) :
    authSets.foldl Counts.merge counts =
      ⟨(authSets.flatMap AuthSet.ids).foldl (fun byId id => modify 0 (· + 1) byId id)
          counts.byId,
        counts.total + authSets.length⟩ := by
  induction authSets generalizing counts with
  | nil => rfl
  | cons set authSets ih =>
      rw [List.foldl_cons, ih, List.flatMap_cons, List.foldl_append]
      simp only [Counts.merge, List.length_cons]
      congr 1
      omega

/-- Over distinct sets, an id's count is the number of sets holding it. -/
theorem count_flatMap_ids {authSets : List (AuthSet Id)}
    (distinct : ∀ set ∈ authSets, set.ids.Nodup) (id : Id) :
    (authSets.flatMap AuthSet.ids).count id = authSets.countP fun set => id ∈ set.ids := by
  induction authSets with
  | nil => rfl
  | cons set authSets ih =>
      rw [List.flatMap_cons, List.count_append, ih fun other member => distinct other (by simp [member]),
        List.countP_cons]
      by_cases held : id ∈ set.ids
      · simp [held, List.count_eq_one_of_mem (distinct set (by simp)) held]
        omega
      · simp [held, List.count_eq_zero_of_not_mem held]

theorem countP_lt_length_iff {authSets : List (AuthSet Id)} {id : Id} :
    (authSets.countP fun set => id ∈ set.ids) < authSets.length ↔ ∃ set ∈ authSets, id ∉ set.ids := by
  rw [← not_iff_not]
  push Not
  constructor
  · intro full set member
    have every := List.countP_eq_length.mp (le_antisymm (List.countP_le_length) full)
    simpa using every set member
  · intro every
    rw [List.countP_eq_length.mpr (by simpa using every)]

theorem authDifference_eq (authSets : List (AuthSet Id)) :
    authDifference authSets = (tally (authSets.flatMap AuthSet.ids)).filterMap fun entry =>
      if entry.2 < authSets.length then some entry.1 else none := by
  simp [authDifference, foldl_merge, tally]

/-- The ids `auth_difference` yields, each once: those in some set and missing from another
(the union minus the intersection). -/
theorem auth_difference_union_minus_intersection (authSets : List (AuthSet Id))
    (distinct : ∀ set ∈ authSets, set.ids.Nodup) :
    (authDifference authSets).Nodup ∧
      (∀ id, id ∈ authDifference authSets ↔
        (∃ set ∈ authSets, id ∈ set.ids) ∧ ∃ set ∈ authSets, id ∉ set.ids) ∧
      (authSets.length ≤ 1 → authDifference authSets = []) := by
  have counted : ∀ id, id ∈ authDifference authSets ↔
      (∃ set ∈ authSets, id ∈ set.ids) ∧ ∃ set ∈ authSets, id ∉ set.ids := by
    intro id
    rw [authDifference_eq, mem_filterMap_keys]
    constructor
    · rintro ⟨count, member, fewer⟩
      obtain ⟨held, rfl⟩ := mem_tally.mp member
      rw [count_flatMap_ids distinct] at fewer
      exact ⟨by simpa using held, countP_lt_length_iff.mp fewer⟩
    · rintro ⟨held, missing⟩
      refine ⟨_, mem_tally.mpr ⟨by simpa using held, rfl⟩, ?_⟩
      rw [count_flatMap_ids distinct]
      exact countP_lt_length_iff.mpr missing
  refine ⟨?_, counted, fun few => ?_⟩
  · rw [authDifference_eq]
    exact nodup_filterMap_keys (nodup_keys_tally _) _
  · -- with at most one set, no id can be both held and missing
    refine List.eq_nil_iff_forall_not_mem.mpr fun id member => ?_
    obtain ⟨⟨held, heldIn, holds⟩, ⟨missed, missedIn, lacks⟩⟩ := (counted id).mp member
    have same : held = missed := by
      rcases authSets with _ | ⟨first, _ | ⟨second, rest⟩⟩
      · simp at heldIn
      · simp_all
      · simp at few
    exact lacks (same ▸ holds)

/-- The auth sets of the source's `auth_difference_three_sets_partial_overlap` test, with `a`
to `d` numbered 1 to 4. -/
def partialOverlapSets : List (AuthSet Nat) := [⟨[1, 2, 3]⟩, ⟨[1, 2, 4]⟩, ⟨[1, 3, 4]⟩]

theorem auth_difference_union_minus_intersection_partialOverlap :
    (∀ set ∈ partialOverlapSets, set.ids.Nodup) ∧
      ((authDifference partialOverlapSets).Nodup ∧
        (∀ id, id ∈ authDifference partialOverlapSets ↔
          (∃ set ∈ partialOverlapSets, id ∈ set.ids) ∧ ∃ set ∈ partialOverlapSets, id ∉ set.ids) ∧
        (partialOverlapSets.length ≤ 1 → authDifference partialOverlapSets = [])) :=
  ⟨by decide, auth_difference_union_minus_intersection partialOverlapSets (by decide)⟩

example : authDifference partialOverlapSets = [2, 3, 4] := by decide

end StateRes
end Tuwunel
