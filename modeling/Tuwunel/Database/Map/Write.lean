import Tuwunel.Database.Map.StreamPrefix

/-!
# Writes to a column, and the reverse stream

A transaction's `del_raw` and `put` on a `Map`: a deleted key leaves the entries, and a put key
takes its place in key order, replacing the entry it had.  `get` reads a key, and each write
changes it at its own key only (`get_delRaw`, `get_put`).

`rev_raw_stream_from` starts at the greatest key not above its bound and goes down.
-/

namespace Tuwunel
namespace Database

section Lookup

variable {κ ν : Type*} [BEq κ] [LawfulBEq κ]

theorem lookup_filter_of_keeps {entries : List (κ × ν)} {key : κ} {keep : κ × ν → Bool}
    (keeps : ∀ value, keep (key, value)) :
    (entries.filter keep).lookup key = entries.lookup key := by
  induction entries with
  | nil => rfl
  | cons entry entries ih =>
      obtain ⟨first, value⟩ := entry
      by_cases here : key = first
      · subst here
        simp [keeps]
      · by_cases kept : keep (first, value) <;>
          simp [kept, List.lookup_cons, beq_false_of_ne here, ih]

theorem lookup_filter_of_drops {entries : List (κ × ν)} {key : κ} {keep : κ × ν → Bool}
    (drops : ∀ value, ¬keep (key, value)) : (entries.filter keep).lookup key = none := by
  rw [List.lookup_eq_none_iff]
  rintro ⟨first, value⟩ kept
  have differs : key ≠ first := by
    rintro rfl
    exact drops value (List.of_mem_filter kept)
  simpa using differs

end Lookup

namespace Map

/-- The value stored at `key`. -/
def get (map : Map) (key : List UInt8) : Option (List UInt8) := map.entries.lookup key

/-- `rev_raw_stream_from`: the entries from the greatest key not above `start`, going down. -/
def revRawStreamFrom (map : Map) (start : List UInt8) : List (List UInt8 × List UInt8) :=
  (map.entries.takeWhile fun entry => decide (entry.1 ≤ start)).reverse

/-- `Txn::del_raw`. -/
def delRaw (map : Map) (key : List UInt8) : Map :=
  ⟨map.entries.filter fun entry => entry.1 ≠ key, map.ascending.filter _⟩

theorem put_ascending (map : Map) (key value : List UInt8) :
    (map.entries.filter (fun entry => entry.1 < key) ++
        (key, value) :: map.entries.filter fun entry => key < entry.1).Pairwise
      fun entry other => entry.1 < other.1 := by
  refine List.pairwise_append.mpr ⟨map.ascending.filter _, ?_, ?_⟩
  · refine List.pairwise_cons.mpr ⟨fun entry above => ?_, map.ascending.filter _⟩
    simpa using List.of_mem_filter above
  · intro entry below other placed
    have below : entry.1 < key := by simpa using List.of_mem_filter below
    rcases List.mem_cons.mp placed with rfl | above
    · exact below
    · exact List.lt_trans below (by simpa using List.of_mem_filter above)

/-- `Txn::put`: the entry goes where its key sorts, in place of the key's old entry. -/
def put (map : Map) (key value : List UInt8) : Map :=
  ⟨map.entries.filter (fun entry => entry.1 < key) ++
      (key, value) :: map.entries.filter (fun entry => key < entry.1),
    put_ascending map key value⟩

theorem get_delRaw (map : Map) (key other : List UInt8) :
    (map.delRaw key).get other = if other = key then none else map.get other := by
  by_cases same : other = key
  · subst same
    simp only [get, delRaw, if_true]
    exact lookup_filter_of_drops (by simp)
  · simp only [get, delRaw, if_neg same]
    exact lookup_filter_of_keeps (by simp [same])

theorem get_put (map : Map) (key value other : List UInt8) :
    (map.put key value).get other = if other = key then some value else map.get other := by
  simp only [get, put, List.lookup_append, List.lookup_cons]
  rcases Std.lt_trichotomy other key with below | rfl | above
  · have differs : other ≠ key := fun same => List.lt_irrefl other (same ▸ below)
    rw [lookup_filter_of_keeps (by simpa using below), beq_false_of_ne differs, if_neg differs,
      lookup_filter_of_drops (by simpa using List.lt_asymm below)]
    cases map.entries.lookup other <;> rfl
  · rw [lookup_filter_of_drops (by simp [List.lt_irrefl other])]
    simp
  · have differs : other ≠ key := fun same => List.lt_irrefl other (same ▸ above)
    rw [lookup_filter_of_drops (by simpa using List.lt_asymm above), beq_false_of_ne differs,
      if_neg differs, lookup_filter_of_keeps (by simpa using above)]
    rfl

end Map

end Database
end Tuwunel
