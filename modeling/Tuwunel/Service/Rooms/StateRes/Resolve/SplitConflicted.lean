import Tuwunel.Library.AssocTable

/-!
# Splitting the unconflicted state from the conflicted state set

`split_conflicted_state` counts, for each state key, how many of the state maps hold each value,
in a `HashMap` of `HashMap`s.  A value held by every map is unconflicted; every other value is
conflicted.  Each map holds at most one value per key (a `StateMap` is a `BTreeMap`), so a value's
count is the number of maps holding it, and at most one value of a key can reach the number of
maps.

The hash maps are association lists (`AssocTable`), iterated in the order they hold; nothing
proved here depends on that order.
-/

namespace Tuwunel
namespace StateRes

open AssocTable

variable {Key Id : Type*}

/-- `StateMap`: one event id for each `(event type, state key)`. -/
structure StateMap (Key Id : Type*) where
  entries : List (Key × Id)
  nodupKeys : (entries.map Prod.fst).Nodup

variable [DecidableEq Key] [DecidableEq Id]

/-- The event id a state map holds at `key`. -/
def StateMap.get (map : StateMap Key Id) (key : Key) : Option Id :=
  map.entries.lookup key

/-- The `occurrences` table: for each key, how many maps hold each value. -/
def occurrences (stateMaps : List (StateMap Key Id)) : List (Key × List (Id × Nat)) :=
  (stateMaps.flatMap StateMap.entries).foldl
    (fun occurrences entry =>
      modify [] (fun counts => modify 0 (· + 1) counts entry.2) occurrences entry.1) []

/-- The body of the final loop: a value every map holds is inserted into the unconflicted map,
any other is pushed to its key's conflicted values. -/
def placeOccurrence (stateSetCount : Nat) (split : List (Key × Id) × List (Key × List Id))
    (key : Key) (id : Id) (occurrenceCount : Nat) : List (Key × Id) × List (Key × List Id) :=
  if occurrenceCount = stateSetCount then (modify id (fun _ => id) split.1 key, split.2)
  else (split.1, modify [] (· ++ [id]) split.2 key)

/-- The loop over one key's counts. -/
def placeCounts (stateSetCount : Nat) (key : Key) (split : List (Key × Id) × List (Key × List Id))
    (counts : List (Id × Nat)) : List (Key × Id) × List (Key × List Id) :=
  counts.foldl (fun split count => placeOccurrence stateSetCount split key count.1 count.2) split

/-- `split_conflicted_state`: the unconflicted state map and the conflicted values of each key. -/
def splitConflictedState (stateMaps : List (StateMap Key Id)) :
    List (Key × Id) × List (Key × List Id) :=
  let stateSetCount := stateMaps.length
  (occurrences stateMaps).foldl
    (fun split entry => placeCounts stateSetCount entry.1 split entry.2) ([], [])

/-! ## The counts -/

/-- The values the maps hold at `key`, one for each map holding one. -/
def valuesAt (stateMaps : List (StateMap Key Id)) (key : Key) : List Id :=
  (stateMaps.flatMap StateMap.entries).filterMap fun entry =>
    if entry.1 = key then some entry.2 else none

theorem get_occurrences_foldl (entries : List (Key × Id)) (table : List (Key × List (Id × Nat)))
    (key : Key) :
    AssocTable.get [] (entries.foldl (fun occurrences entry =>
        modify [] (fun counts => modify 0 (· + 1) counts entry.2) occurrences entry.1) table) key =
      (entries.filterMap fun entry => if entry.1 = key then some entry.2 else none).foldl
        (fun counts id => modify 0 (· + 1) counts id) (AssocTable.get [] table key) := by
  induction entries generalizing table with
  | nil => rfl
  | cons entry entries ih =>
      rw [List.foldl_cons, ih, get_modify]
      by_cases here : entry.1 = key
      · simp [here]
      · simp [here, Ne.symm here]

theorem get_occurrences (stateMaps : List (StateMap Key Id)) (key : Key) :
    AssocTable.get [] (occurrences stateMaps) key = tally (valuesAt stateMaps key) := by
  unfold occurrences valuesAt tally
  simpa [AssocTable.get] using get_occurrences_foldl (stateMaps.flatMap StateMap.entries) [] key

theorem nodup_keys_occurrences (stateMaps : List (StateMap Key Id)) :
    ((occurrences stateMaps).map Prod.fst).Nodup := by
  suffices ∀ (entries : List (Key × Id)) (table : List (Key × List (Id × Nat))),
      (table.map Prod.fst).Nodup →
      ((entries.foldl (fun occurrences entry =>
        modify [] (fun counts => modify 0 (· + 1) counts entry.2) occurrences entry.1)
          table).map Prod.fst).Nodup from this _ [] List.nodup_nil
  intro entries
  induction entries with
  | nil => exact fun _ distinct => distinct
  | cons entry entries ih => exact fun table distinct => ih _ (nodup_keys_modify _ _ distinct _)

omit [DecidableEq Id] in
/-- A state map contributes its one value at the key, if it has one. -/
theorem filterMap_entries (map : StateMap Key Id) (key : Key) :
    (map.entries.filterMap fun entry => if entry.1 = key then some entry.2 else none) =
      (map.get key).toList := by
  obtain ⟨entries, distinct⟩ := map
  simp only [StateMap.get]
  induction entries with
  | nil => rfl
  | cons entry entries ih =>
      obtain ⟨fresh, rest⟩ := List.nodup_cons.mp distinct
      obtain ⟨first, value⟩ := entry
      by_cases here : first = key
      · subst here
        have none : (entries.filterMap fun entry => if entry.1 = first then some entry.2 else none) = [] := by
          refine List.filterMap_eq_nil_iff.mpr fun entry member => ?_
          have other : entry.1 ≠ first := fun same => fresh (List.mem_map.mpr ⟨_, member, same⟩)
          simp [other]
        simp [none]
      · simp [here, List.lookup_cons, beq_false_of_ne (Ne.symm here), ih rest]

/-- A value's count at a key is the number of maps holding it there. -/
theorem count_valuesAt (stateMaps : List (StateMap Key Id)) (key : Key) (id : Id) :
    (valuesAt stateMaps key).count id = stateMaps.countP fun map => map.get key = some id := by
  induction stateMaps with
  | nil => rfl
  | cons map stateMaps ih =>
      rw [valuesAt, List.flatMap_cons, List.filterMap_append, List.count_append, ← valuesAt, ih,
        filterMap_entries, List.countP_cons]
      cases found : map.get key with
      | none => simp
      | some value =>
          by_cases same : value = id
          · simp [same]
            omega
          · simp [same]

/-- Two values of one key cannot both be held by every map, unless there are no maps. -/
theorem count_add_count_le (stateMaps : List (StateMap Key Id)) (key : Key) {id other : Id}
    (distinct : id ≠ other) :
    (valuesAt stateMaps key).count id + (valuesAt stateMaps key).count other ≤ stateMaps.length := by
  rw [count_valuesAt, count_valuesAt]
  induction stateMaps with
  | nil => simp
  | cons map stateMaps ih =>
      rw [List.countP_cons, List.countP_cons, List.length_cons]
      by_cases held : map.get key = some id
      · simp [held, distinct]
        omega
      · by_cases heldOther : map.get key = some other
        · simp [heldOther, Ne.symm distinct]
          omega
        · simp [held, heldOther]
          omega

/-! ## The final loop -/

/-- The values of one key's counts that every map holds. -/
def unconflictedValues (stateSetCount : Nat) (counts : List (Id × Nat)) : List Id :=
  (counts.filter fun count => count.2 = stateSetCount).map Prod.fst

/-- The values of one key's counts that some map lacks. -/
def conflictedValues (stateSetCount : Nat) (counts : List (Id × Nat)) : List Id :=
  (counts.filter fun count => count.2 ≠ stateSetCount).map Prod.fst

section Loop

variable (stateSetCount : Nat)

omit [DecidableEq Key] [DecidableEq Id] in
@[simp]
theorem unconflictedValues_nil : unconflictedValues stateSetCount ([] : List (Id × Nat)) = [] := rfl

omit [DecidableEq Key] [DecidableEq Id] in
@[simp]
theorem conflictedValues_nil : conflictedValues stateSetCount ([] : List (Id × Nat)) = [] := rfl

omit [DecidableEq Key] [DecidableEq Id] in
theorem values_cons_of_full {count : Id × Nat} (counts : List (Id × Nat))
    (full : count.2 = stateSetCount) :
    unconflictedValues stateSetCount (count :: counts) =
        count.1 :: unconflictedValues stateSetCount counts ∧
      conflictedValues stateSetCount (count :: counts) = conflictedValues stateSetCount counts := by
  simp [unconflictedValues, conflictedValues, full]

omit [DecidableEq Key] [DecidableEq Id] in
theorem values_cons_of_lacking {count : Id × Nat} (counts : List (Id × Nat))
    (lacking : count.2 ≠ stateSetCount) :
    unconflictedValues stateSetCount (count :: counts) = unconflictedValues stateSetCount counts ∧
      conflictedValues stateSetCount (count :: counts) =
        count.1 :: conflictedValues stateSetCount counts := by
  simp [unconflictedValues, conflictedValues, lacking]

omit [DecidableEq Id] in
theorem lookup_placeCounts_unconflicted (key other : Key)
    (split : List (Key × Id) × List (Key × List Id)) (counts : List (Id × Nat)) :
    (placeCounts stateSetCount key split counts).1.lookup other =
      if other = key then (unconflictedValues stateSetCount counts).getLast?.or (split.1.lookup other)
      else split.1.lookup other := by
  induction counts generalizing split with
  | nil => simp [placeCounts]
  | cons count counts ih =>
      rw [placeCounts, List.foldl_cons, ← placeCounts, ih]
      unfold placeOccurrence
      by_cases full : count.2 = stateSetCount
      · -- the last value held by every map wins, as `BTreeMap::insert` replaces
        rw [(values_cons_of_full stateSetCount counts full).1]
        by_cases here : other = key <;> simp [here, full, lookup_modify, List.getLast?_cons]
      · rw [(values_cons_of_lacking stateSetCount counts full).1]
        simp [full]

omit [DecidableEq Id] in
theorem lookup_placeCounts_conflicted (key other : Key)
    (split : List (Key × Id) × List (Key × List Id)) (counts : List (Id × Nat)) :
    (placeCounts stateSetCount key split counts).2.lookup other =
      if other = key ∧ conflictedValues stateSetCount counts ≠ [] then
        some (AssocTable.get [] split.2 other ++ conflictedValues stateSetCount counts)
      else split.2.lookup other := by
  induction counts generalizing split with
  | nil => simp [placeCounts]
  | cons count counts ih =>
      rw [placeCounts, List.foldl_cons, ← placeCounts, ih]
      unfold placeOccurrence
      by_cases full : count.2 = stateSetCount
      · rw [(values_cons_of_full stateSetCount counts full).2]
        simp [full]
      · rw [(values_cons_of_lacking stateSetCount counts full).2]
        by_cases here : other = key
        · subst here
          by_cases more : conflictedValues stateSetCount counts = []
          · simp [full, more, lookup_modify]
          · simp [full, more, get_modify]
        · simp [full, here, lookup_modify]

omit [DecidableEq Id] in
/-- The outer loop: a key's entries in the result come from its own counts only. -/
theorem lookup_foldl_placeCounts (table : List (Key × List (Id × Nat)))
    (distinct : (table.map Prod.fst).Nodup) (split : List (Key × Id) × List (Key × List Id))
    (key : Key) :
    (table.foldl (fun split entry => placeCounts stateSetCount entry.1 split entry.2) split).1.lookup
        key =
      (unconflictedValues stateSetCount (AssocTable.get [] table key)).getLast?.or
        (split.1.lookup key) ∧
    (table.foldl (fun split entry => placeCounts stateSetCount entry.1 split entry.2) split).2.lookup
        key =
      if conflictedValues stateSetCount (AssocTable.get [] table key) ≠ [] then
        some (AssocTable.get [] split.2 key ++
          conflictedValues stateSetCount (AssocTable.get [] table key))
      else split.2.lookup key := by
  induction table generalizing split with
  | nil => simp
  | cons entry table ih =>
      obtain ⟨first, counts⟩ := entry
      obtain ⟨fresh, rest⟩ := List.nodup_cons.mp distinct
      rw [List.foldl_cons, (ih rest _).1, (ih rest _).2, get_cons,
        lookup_placeCounts_unconflicted, lookup_placeCounts_conflicted]
      by_cases here : key = first
      · -- the key's counts are this entry's; the rest of the table has none
        subst here
        have none : AssocTable.get [] table key = [] := get_of_not_mem fresh
        simp [none]
      · have untouched : AssocTable.get [] (placeCounts stateSetCount first split counts).2 key =
            AssocTable.get [] split.2 key := by
          simp [AssocTable.get, lookup_placeCounts_conflicted, here]
        simp [here, untouched]

end Loop

/-! ## The split -/

section Split

variable (stateMaps : List (StateMap Key Id))

theorem mem_valuesAt {key : Key} {id : Id} :
    id ∈ valuesAt stateMaps key ↔ ∃ map ∈ stateMaps, map.get key = some id := by
  rw [← List.count_pos_iff, count_valuesAt, List.countP_pos_iff]
  simp

theorem count_valuesAt_eq_length_iff {key : Key} {id : Id} :
    (valuesAt stateMaps key).count id = stateMaps.length ↔ ∀ map ∈ stateMaps, map.get key = some id := by
  rw [count_valuesAt, List.countP_eq_length]
  simp

theorem mem_unconflictedValues {key : Key} {id : Id} :
    id ∈ unconflictedValues stateMaps.length (tally (valuesAt stateMaps key)) ↔
      stateMaps ≠ [] ∧ ∀ map ∈ stateMaps, map.get key = some id := by
  simp only [unconflictedValues, List.mem_map, List.mem_filter, decide_eq_true_eq]
  constructor
  · rintro ⟨⟨value, count⟩, ⟨member, full⟩, rfl⟩
    obtain ⟨held, rfl⟩ := mem_tally.mp member
    obtain ⟨map, inMaps, _⟩ := (mem_valuesAt stateMaps).mp held
    exact ⟨List.ne_nil_of_mem inMaps, (count_valuesAt_eq_length_iff stateMaps).mp full⟩
  · rintro ⟨nonempty, every⟩
    obtain ⟨map, inMaps⟩ := List.exists_mem_of_ne_nil stateMaps nonempty
    refine ⟨(id, _), ⟨mem_tally.mpr ⟨(mem_valuesAt stateMaps).mpr ⟨map, inMaps, every map inMaps⟩, rfl⟩,
      (count_valuesAt_eq_length_iff stateMaps).mpr every⟩, rfl⟩

/-- Only one value of a key can be held by every map. -/
theorem unconflictedValues_subsingleton {key : Key} {id other : Id}
    (first : id ∈ unconflictedValues stateMaps.length (tally (valuesAt stateMaps key)))
    (second : other ∈ unconflictedValues stateMaps.length (tally (valuesAt stateMaps key))) :
    id = other := by
  by_contra distinct
  obtain ⟨nonempty, every⟩ := (mem_unconflictedValues stateMaps).mp first
  have both := count_add_count_le stateMaps key distinct
  rw [(count_valuesAt_eq_length_iff stateMaps).mpr every,
    (count_valuesAt_eq_length_iff stateMaps).mpr ((mem_unconflictedValues stateMaps).mp second).2] at both
  have : stateMaps.length ≠ 0 := by simpa using nonempty
  omega

theorem mem_conflictedValues {key : Key} {id : Id} :
    id ∈ conflictedValues stateMaps.length (tally (valuesAt stateMaps key)) ↔
      (∃ map ∈ stateMaps, map.get key = some id) ∧ ∃ map ∈ stateMaps, map.get key ≠ some id := by
  simp only [conflictedValues, List.mem_map, List.mem_filter, decide_eq_true_eq]
  constructor
  · rintro ⟨⟨value, count⟩, ⟨member, short⟩, rfl⟩
    obtain ⟨held, rfl⟩ := mem_tally.mp member
    refine ⟨(mem_valuesAt stateMaps).mp held, ?_⟩
    by_contra every
    push Not at every
    exact short ((count_valuesAt_eq_length_iff stateMaps).mpr every)
  · rintro ⟨held, ⟨map, inMaps, lacks⟩⟩
    refine ⟨(id, _), ⟨mem_tally.mpr ⟨(mem_valuesAt stateMaps).mpr held, rfl⟩, fun full => ?_⟩, rfl⟩
    exact lacks ((count_valuesAt_eq_length_iff stateMaps).mp full map inMaps)

theorem nodup_conflictedValues (key : Key) :
    (conflictedValues stateMaps.length (tally (valuesAt stateMaps key))).Nodup :=
  (nodup_keys_tally _).sublist ((List.filter_sublist).map _)

/-- The split's entries at one key, read off the key's counts. -/
theorem lookup_splitConflictedState (key : Key) :
    (splitConflictedState stateMaps).1.lookup key =
        (unconflictedValues stateMaps.length (tally (valuesAt stateMaps key))).getLast? ∧
      (splitConflictedState stateMaps).2.lookup key =
        if conflictedValues stateMaps.length (tally (valuesAt stateMaps key)) ≠ [] then
          some (conflictedValues stateMaps.length (tally (valuesAt stateMaps key)))
        else none := by
  have loop := lookup_foldl_placeCounts stateMaps.length (occurrences stateMaps)
    (nodup_keys_occurrences stateMaps) ([], []) key
  rw [get_occurrences] at loop
  simpa [splitConflictedState] using loop

theorem get_splitConflictedState_conflicted (key : Key) :
    AssocTable.get [] (splitConflictedState stateMaps).2 key =
      conflictedValues stateMaps.length (tally (valuesAt stateMaps key)) := by
  rw [AssocTable.get, (lookup_splitConflictedState stateMaps key).2]
  split
  · rfl
  · next empty => exact (not_not.mp empty).symm

/-- `split_conflicted_state`: a pair is unconflicted exactly when the list of maps is not empty
and every map holds it; a key's conflicted values are, once each, those some map holds and some
map lacks; and the two key sets are disjoint, their union the keys of the maps. -/
theorem split_conflicted_state_spec :
    (∀ key id, (splitConflictedState stateMaps).1.lookup key = some id ↔
        stateMaps ≠ [] ∧ ∀ map ∈ stateMaps, map.get key = some id) ∧
      (∀ key, (AssocTable.get [] (splitConflictedState stateMaps).2 key).Nodup ∧
        ∀ id, id ∈ AssocTable.get [] (splitConflictedState stateMaps).2 key ↔
          (∃ map ∈ stateMaps, map.get key = some id) ∧ ∃ map ∈ stateMaps, map.get key ≠ some id) ∧
      (∀ key, key ∈ (splitConflictedState stateMaps).1.map Prod.fst →
        key ∉ (splitConflictedState stateMaps).2.map Prod.fst) ∧
      (∀ key, key ∈ (splitConflictedState stateMaps).1.map Prod.fst ∨
          key ∈ (splitConflictedState stateMaps).2.map Prod.fst ↔
        ∃ map ∈ stateMaps, key ∈ map.entries.map Prod.fst) := by
  have unconflicted : ∀ key id, (splitConflictedState stateMaps).1.lookup key = some id ↔
      id ∈ unconflictedValues stateMaps.length (tally (valuesAt stateMaps key)) := by
    intro key id
    rw [(lookup_splitConflictedState stateMaps key).1]
    constructor
    · intro last
      exact List.mem_of_getLast? last
    · intro member
      obtain ⟨last, found⟩ := Option.isSome_iff_exists.mp
        (List.getLast?_isSome.mpr (List.ne_nil_of_mem member))
      rw [found, unconflictedValues_subsingleton stateMaps (List.mem_of_getLast? found) member]
  have unconflictedKey : ∀ key, key ∈ (splitConflictedState stateMaps).1.map Prod.fst ↔
      ∃ id, id ∈ unconflictedValues stateMaps.length (tally (valuesAt stateMaps key)) := by
    intro key
    rw [← lookup_isSome_iff, Option.isSome_iff_exists]
    simp only [unconflicted]
  have conflictedKey : ∀ key, key ∈ (splitConflictedState stateMaps).2.map Prod.fst ↔
      ∃ id, id ∈ conflictedValues stateMaps.length (tally (valuesAt stateMaps key)) := by
    intro key
    rw [← lookup_isSome_iff, (lookup_splitConflictedState stateMaps key).2]
    split
    · next present => simpa using List.exists_mem_of_ne_nil _ present
    · next empty =>
        rw [not_not] at empty
        simp [empty]
  refine ⟨fun key id => (unconflicted key id).trans (mem_unconflictedValues stateMaps), fun key => ?_,
    fun key inUnconflicted inConflicted => ?_, fun key => ?_⟩
  · rw [get_splitConflictedState_conflicted]
    exact ⟨nodup_conflictedValues stateMaps key, fun id => mem_conflictedValues stateMaps⟩
  · -- a value every map holds leaves no map holding another, or lacking it
    obtain ⟨id, full⟩ := (unconflictedKey key).mp inUnconflicted
    obtain ⟨other, contested⟩ := (conflictedKey key).mp inConflicted
    obtain ⟨-, every⟩ := (mem_unconflictedValues stateMaps).mp full
    obtain ⟨⟨map, inMaps, holds⟩, ⟨lacking, lackingIn, lacks⟩⟩ :=
      (mem_conflictedValues stateMaps).mp contested
    have same : id = other := by simpa [every map inMaps] using holds
    exact lacks (same ▸ every lacking lackingIn)
  · rw [unconflictedKey, conflictedKey]
    constructor
    · rintro (⟨id, full⟩ | ⟨id, contested⟩)
      · obtain ⟨nonempty, every⟩ := (mem_unconflictedValues stateMaps).mp full
        obtain ⟨map, inMaps⟩ := List.exists_mem_of_ne_nil stateMaps nonempty
        have present : (map.get key).isSome := by simp [every map inMaps]
        exact ⟨map, inMaps, (lookup_isSome_iff _ _).mp present⟩
      · obtain ⟨⟨map, inMaps, holds⟩, -⟩ := (mem_conflictedValues stateMaps).mp contested
        have present : (map.get key).isSome := by simp [holds]
        exact ⟨map, inMaps, (lookup_isSome_iff _ _).mp present⟩
    · rintro ⟨map, inMaps, present⟩
      obtain ⟨id, holds⟩ := Option.isSome_iff_exists.mp ((lookup_isSome_iff _ _).mpr present)
      by_cases every : ∀ map ∈ stateMaps, map.get key = some id
      · exact .inl ⟨id, (mem_unconflictedValues stateMaps).mpr ⟨List.ne_nil_of_mem inMaps, every⟩⟩
      · push Not at every
        exact .inr ⟨id, (mem_conflictedValues stateMaps).mpr ⟨⟨map, inMaps, holds⟩, every⟩⟩

/-- With no state maps, every map (of none) holds any pair, and yet the unconflicted map is
empty: the iff of the unconflicted pairs needs a map to hold them. -/
theorem split_conflicted_state_no_maps :
    (∀ map ∈ ([] : List (StateMap Nat Nat)), map.get 0 = some 0) ∧
      (splitConflictedState ([] : List (StateMap Nat Nat))).1.lookup 0 = none :=
  ⟨by simp, rfl⟩

end Split

end StateRes
end Tuwunel
