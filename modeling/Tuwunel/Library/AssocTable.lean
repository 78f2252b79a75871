import Mathlib

/-!
# Tables filled through `entry(key).or_default()`

A hash map that is only written through `entry(key).or_default()` and then iterated is an
association list here: `modify` updates the entry of the key, or appends one made from the
default, and leaves every other entry where it was.  The keys stay distinct (`nodup_keys_modify`),
so iterating the list visits each key once; the order of the visit is whatever the list holds,
and no statement below depends on it.

`tally` is the counting table of a list: every item maps to the number of its occurrences
(`mem_tally`).
-/

namespace AssocTable

variable {α β : Type*} [DecidableEq α]

/-- `entry(key).or_default()` followed by `update` on the value found or made. -/
def modify (default : β) (update : β → β) : List (α × β) → α → List (α × β)
  | [], key => [(key, update default)]
  | entry :: table, key =>
      if entry.1 = key then (entry.1, update entry.2) :: table
      else entry :: modify default update table key

/-- The value at `key`, or `default` where there is none. -/
def get (default : β) (table : List (α × β)) (key : α) : β :=
  (table.lookup key).getD default

theorem lookup_isSome_iff (table : List (α × β)) (key : α) :
    (table.lookup key).isSome ↔ key ∈ table.map Prod.fst := by
  induction table with
  | nil => simp
  | cons entry table ih =>
      obtain ⟨first, value⟩ := entry
      by_cases here : key = first
      · simp [here]
      · simp [List.lookup_cons, beq_false_of_ne here, ih, here]

@[simp]
theorem get_nil (default : β) (key : α) : get default ([] : List (α × β)) key = default := rfl

theorem get_cons (default : β) (first : α) (value : β) (table : List (α × β)) (key : α) :
    get default ((first, value) :: table) key = if key = first then value else get default table key := by
  by_cases here : key = first
  · simp [get, here]
  · simp [get, here, List.lookup_cons, beq_false_of_ne here]

theorem get_of_not_mem {default : β} {table : List (α × β)} {key : α}
    (absent : key ∉ table.map Prod.fst) : get default table key = default := by
  have none : table.lookup key = none := by
    simpa [← Option.not_isSome_iff_eq_none, lookup_isSome_iff] using absent
  simp [get, none]

section Modify

variable (default : β) (update : β → β)

theorem keys_modify (table : List (α × β)) (key : α) :
    (modify default update table key).map Prod.fst =
      if key ∈ table.map Prod.fst then table.map Prod.fst else table.map Prod.fst ++ [key] := by
  induction table with
  | nil => simp [modify]
  | cons entry table ih =>
      by_cases found : entry.1 = key
      · simp [modify, found]
      · by_cases later : key ∈ table.map Prod.fst
        · simp_all [modify]
        · simp_all [modify, Ne.symm found]

theorem mem_keys_modify {table : List (α × β)} {key other : α} :
    other ∈ (modify default update table key).map Prod.fst ↔
      other = key ∨ other ∈ table.map Prod.fst := by
  rw [keys_modify]
  split <;> grind

theorem nodup_keys_modify {table : List (α × β)} (distinct : (table.map Prod.fst).Nodup)
    (key : α) : ((modify default update table key).map Prod.fst).Nodup := by
  rw [keys_modify]
  split
  · exact distinct
  · next fresh =>
    refine List.nodup_append.mpr ⟨distinct, by simp, ?_⟩
    intro other member appended single
    rw [List.mem_singleton] at single
    rintro rfl
    exact fresh (single ▸ member)

theorem lookup_modify (table : List (α × β)) (key other : α) :
    (modify default update table key).lookup other =
      if other = key then some (update (get default table key)) else table.lookup other := by
  induction table with
  | nil => by_cases same : other = key <;> simp [modify, get, same]
  | cons entry table ih =>
      obtain ⟨first, value⟩ := entry
      by_cases here : other = first
      · subst here
        by_cases found : other = key <;> simp [modify, get, found]
      · have skip : (other == first) = false := beq_false_of_ne here
        by_cases found : first = key
        · subst found
          simp [modify, here, List.lookup_cons, skip]
        · have unrelated : (key == first) = false := beq_false_of_ne (Ne.symm found)
          simp [modify, get, found, ih, List.lookup_cons, skip, unrelated]

theorem get_modify (table : List (α × β)) (key other : α) :
    get default (modify default update table key) other =
      if other = key then update (get default table key) else get default table other := by
  unfold get
  rw [lookup_modify]
  split <;> rfl

end Modify

/-- On distinct keys, an entry is in the table exactly when the lookup of its key finds it. -/
theorem mem_iff_lookup {table : List (α × β)} (distinct : (table.map Prod.fst).Nodup)
    {key : α} {value : β} : (key, value) ∈ table ↔ table.lookup key = some value := by
  induction table with
  | nil => simp
  | cons entry table ih =>
      obtain ⟨first, stored⟩ := entry
      obtain ⟨fresh, rest⟩ := List.nodup_cons.mp distinct
      by_cases here : key = first
      · subst here
        -- the key's only entry is the head
        have absent : (key, value) ∉ table := fun member =>
          fresh (List.mem_map.mpr ⟨_, member, rfl⟩)
        simp [absent, eq_comm]
      · simp [List.lookup_cons, beq_false_of_ne here, here, ih rest]

/-- The counting table of a list: each item's entry counts its occurrences. -/
def tally (items : List α) : List (α × Nat) :=
  items.foldl (fun table item => modify 0 (· + 1) table item) []

theorem get_tally_foldl (items : List α) (table : List (α × Nat)) (item : α) :
    get 0 (items.foldl (fun table item => modify 0 (· + 1) table item) table) item =
      get 0 table item + items.count item := by
  induction items generalizing table with
  | nil => simp
  | cons first items ih =>
      rw [List.foldl_cons, ih, get_modify, List.count_cons]
      by_cases same : item = first
      · simp only [same, if_true, beq_self_eq_true]
        omega
      · simp [same, Ne.symm same]

theorem get_tally (items : List α) (item : α) : get 0 (tally items) item = items.count item := by
  unfold tally
  simpa [get] using get_tally_foldl items [] item

theorem keys_tally_foldl (items : List α) (table : List (α × Nat)) (item : α) :
    item ∈ (items.foldl (fun table item => modify 0 (· + 1) table item) table).map Prod.fst ↔
      item ∈ table.map Prod.fst ∨ item ∈ items := by
  induction items generalizing table with
  | nil => simp
  | cons first items ih =>
      rw [List.foldl_cons, ih, mem_keys_modify]
      grind

theorem nodup_keys_tally_foldl (items : List α) {table : List (α × Nat)}
    (distinct : (table.map Prod.fst).Nodup) :
    ((items.foldl (fun table item => modify 0 (· + 1) table item) table).map Prod.fst).Nodup := by
  induction items generalizing table with
  | nil => exact distinct
  | cons first items ih => exact ih (nodup_keys_modify 0 _ distinct first)

theorem nodup_keys_tally (items : List α) : ((tally items).map Prod.fst).Nodup :=
  nodup_keys_tally_foldl items List.nodup_nil

/-- The entries of the counting table: one per distinct item, with its count. -/
theorem mem_tally {items : List α} {item : α} {count : Nat} :
    (item, count) ∈ tally items ↔ item ∈ items ∧ count = items.count item := by
  have present : ((tally items).lookup item).isSome ↔ item ∈ items := by
    rw [lookup_isSome_iff, tally]
    simpa using keys_tally_foldl items [] item
  have counted := get_tally items item
  unfold get at counted
  rw [mem_iff_lookup (nodup_keys_tally items)]
  constructor
  · intro found
    rw [found] at counted present
    exact ⟨present.mp rfl, by simpa using counted⟩
  · rintro ⟨member, rfl⟩
    obtain ⟨value, found⟩ := Option.isSome_iff_exists.mp (present.mpr member)
    rw [found] at counted ⊢
    simpa using counted

omit [DecidableEq α] in
theorem filterMap_keys_eq (table : List (α × β)) (keep : α × β → Prop) [DecidablePred keep] :
    (table.filterMap fun entry => if keep entry then some entry.1 else none) =
      (table.filter fun entry => keep entry).map Prod.fst := by
  induction table with
  | nil => rfl
  | cons entry table ih => by_cases passes : keep entry <;> simp [passes, ih]

omit [DecidableEq α] in
/-- Iterating a table of distinct keys and keeping the keys whose entries pass a test yields
each such key once. -/
theorem nodup_filterMap_keys {table : List (α × β)} (distinct : (table.map Prod.fst).Nodup)
    (keep : α × β → Prop) [DecidablePred keep] :
    (table.filterMap fun entry => if keep entry then some entry.1 else none).Nodup := by
  rw [filterMap_keys_eq]
  exact distinct.sublist ((List.filter_sublist).map _)

omit [DecidableEq α] in
theorem mem_filterMap_keys {table : List (α × β)} {keep : α × β → Prop} [DecidablePred keep]
    {key : α} :
    key ∈ (table.filterMap fun entry => if keep entry then some entry.1 else none) ↔
      ∃ value, (key, value) ∈ table ∧ keep (key, value) := by
  rw [filterMap_keys_eq]
  simp

end AssocTable
