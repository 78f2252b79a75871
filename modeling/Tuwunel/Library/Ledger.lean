import Mathlib

/-!
# A running total of the sizes a map holds

A map whose values have sizes, and the sum of the sizes of the values it holds, each key once
(`total`).  Storing at a key the map does not hold adds the new size (`total_insert_of_notMem`);
erasing a key it holds takes that value's size away (`total_erase`).  A counter kept beside such
a map equals the total for as long as every write is one of these two.
-/

namespace Ledger

variable {κ ν : Type*} [DecidableEq κ] (size : ν → Nat)

/-- The sum of the sizes of the values `map` holds. -/
def total (map : AList fun _ : κ => ν) : Nat :=
  (map.entries.map fun entry => size entry.2).sum

omit [DecidableEq κ] in
@[simp]
theorem total_empty : total size (∅ : AList fun _ : κ => ν) = 0 := rfl

variable {size}

theorem total_insert_of_notMem {map : AList fun _ : κ => ν} {key : κ} (value : ν)
    (absent : key ∉ map) : total size (map.insert key value) = total size map + size value := by
  simp only [total, AList.entries_insert_of_notMem absent, List.map_cons, List.sum_cons]
  omega

theorem total_erase {map : AList fun _ : κ => ν} {key : κ} {value : ν}
    (found : map.lookup key = some value) :
    total size (map.erase key) + size value = total size map := by
  have held : key ∈ map.entries.keys :=
    AList.mem_keys.mp (AList.lookup_isSome.mp (by simp [found]))
  obtain ⟨stored, before, after, absent, split, erased⟩ := List.exists_of_kerase held
  -- the value found is the one stored between the two halves
  have same : stored = value := by
    have looked : map.entries.dlookup key = some value := found
    rw [split, List.dlookup_append, List.dlookup_eq_none.mpr absent, List.dlookup_cons_eq] at looked
    simpa using looked
  have erasedEntries : (map.erase key).entries = before ++ after := erased
  simp only [total, erasedEntries, split, same, List.map_append, List.map_cons, List.sum_append,
    List.sum_cons]
  omega

end Ledger
