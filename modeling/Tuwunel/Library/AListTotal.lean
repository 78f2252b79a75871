import Mathlib

/-!
# Totals over the values of a map

A map held as an association list, and the sum in a commutative monoid of a function of the
values it holds, each key once (`total`).  Erasing a key that is held takes its value's share
away (`total_erase_add`).  Inserting at a key replaces whatever the key held, so the total is
the new value's share plus the total of the map without that key (`total_insert`).  With values
in `Multiset`, the total counts the items the values hold.  This is how a set of handles
scattered over the map's values is accounted for as they move between the map and other places.
-/

namespace AListTotal

variable {κ ν M : Type*} [DecidableEq κ] [AddCommMonoid M] (f : ν → M)

/-- The sum of `f` over the values `map` holds. -/
def total (map : AList fun _ : κ => ν) : M :=
  (map.entries.map fun entry => f entry.2).sum

omit [DecidableEq κ] in
@[simp]
theorem total_empty : total f (∅ : AList fun _ : κ => ν) = 0 := rfl

variable {f}

theorem total_erase_add {map : AList fun _ : κ => ν} {key : κ} {value : ν}
    (found : map.lookup key = some value) : total f (map.erase key) + f value = total f map := by
  have held : key ∈ map.entries.keys :=
    AList.mem_keys.mp (AList.lookup_isSome.mp (by simp [found]))
  obtain ⟨stored, before, after, absent, split, erased⟩ := List.exists_of_kerase held
  -- the value found is the one stored between the two halves
  have same : stored = value := by
    have looked : map.entries.dlookup key = some value := found
    rw [split, List.dlookup_append, List.dlookup_eq_none.mpr absent, List.dlookup_cons_eq] at looked
    simpa using looked
  have erasedEntries : (map.erase key).entries = before ++ after := erased
  simp only [total, erasedEntries, split, same, List.map_append, List.map_cons, List.sum_append,
    List.sum_cons]
  abel

theorem total_erase_of_lookup_eq_none {map : AList fun _ : κ => ν} {key : κ}
    (absent : map.lookup key = none) : total f (map.erase key) = total f map := by
  have unheld : key ∉ map.entries.keys := fun member =>
    AList.lookup_eq_none.mp absent (AList.mem_keys.mpr member)
  have erasedEntries : (map.erase key).entries = map.entries := List.kerase_of_notMem_keys unheld
  simp only [total, erasedEntries]

theorem total_insert (map : AList fun _ : κ => ν) (key : κ) (value : ν) :
    total f (map.insert key value) = f value + total f (map.erase key) := by
  have erasedEntries : (map.erase key).entries = map.entries.kerase key := rfl
  simp only [total, AList.entries_insert, erasedEntries, List.map_cons, List.sum_cons]

/-- With values counted as multisets, an item the total holds is held by the value at some key. -/
theorem mem_total {α : Type*} {f : ν → Multiset α} {map : AList fun _ : κ => ν} {item : α}
    (member : item ∈ total f map) : ∃ key value, map.lookup key = some value ∧ item ∈ f value := by
  unfold total at member
  rw [← Multiset.sum_coe, ← Multiset.join] at member
  obtain ⟨held, listed, within⟩ := Multiset.mem_join.mp member
  obtain ⟨⟨key, value⟩, stored, rfl⟩ := List.mem_map.mp (Multiset.mem_coe.mp listed)
  exact ⟨key, value, AList.mem_lookup_iff.mpr stored, within⟩

end AListTotal
