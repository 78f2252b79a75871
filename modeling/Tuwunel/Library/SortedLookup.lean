import Mathlib

/-!
# Lookups in a sorted, deduplicated vector

A vector of keyed entries becomes a map in which the last entry of each key wins in three steps:
a stable sort by key, a reversal, so that each key's last entry leads its run, and a pass that
keeps the first entry of each run (`lastByKey`).  A binary search over the now strictly
descending keys, with the comparator turned round to match, finds a key's entry.  On any vector
the search finds the last entry with the key, and fails exactly where there is none
(`find?_lastByKey`, `find?_eq_of_binarySearchBy_ok`).

The binary search is the one of `<[T]>::binary_search_by`: it halves a window of candidates,
moving up unless the middle one compares `Greater`, with no early exit, and decides at the one
candidate left.  It finds an entry that compares `Equal` wherever the comparator splits the
slice into `Less`, `Equal` and `Greater` in that order (`binarySearchBy_isOk`).
-/

namespace SortedLookup

/-! ## Binary search -/

section BinarySearch

variable {α : Type*}

/-- The loop of `binary_search_by`: `size` candidates from `base` on; while more than one is
left, `base` moves to the middle one unless it compares `Greater`.  The source reads without a
bounds check, so the loop carries the bound. -/
def binarySearchLoop (slice : List α) (f : α → Ordering) (base size : Nat)
    (inside : base + size ≤ slice.length) : Nat :=
  if more : 1 < size then
    have : base + size / 2 < slice.length := by omega
    binarySearchLoop slice f (if f slice[base + size / 2] = .gt then base else base + size / 2)
      (size - size / 2) (by split <;> omega)
  else base
termination_by size

/-- The loop ends on one of its candidates. -/
theorem binarySearchLoop_bounds (slice : List α) (f : α → Ordering) (base size : Nat)
    (inside : base + size ≤ slice.length) (nonempty : 0 < size) :
    base ≤ binarySearchLoop slice f base size inside ∧
      binarySearchLoop slice f base size inside < base + size := by
  fun_induction binarySearchLoop slice f base size inside with
  | case1 base size inside more _ ih =>
      simp only [dite_eq_ite] at ih
      obtain ⟨above, below⟩ := ih (by omega)
      -- the next window starts at `base` or at the middle
      have moved : base ≤ (if f slice[base + size / 2] = .gt then base else base + size / 2) ∧
          (if f slice[base + size / 2] = .gt then base else base + size / 2) ≤ base + size / 2 := by
        split <;> omega
      omega
  | case2 base size inside more => omega

/-- `<[T]>::binary_search_by`: `Ok` of a position whose entry compares `Equal`, or `Err` of the
position an entry comparing `Equal` would take. -/
def binarySearchBy (slice : List α) (f : α → Ordering) : Except Nat Nat :=
  if empty : slice.length = 0 then .error 0
  else
    have found := binarySearchLoop_bounds slice f 0 slice.length (by omega) (by omega)
    let base := binarySearchLoop slice f 0 slice.length (by omega)
    if f slice[base] = .eq then .ok base
    else .error (base + if f slice[base] = .lt then 1 else 0)

variable {slice : List α} {f : α → Ordering}

/-- What the search finds is a position of the slice whose entry compares `Equal`. -/
theorem binarySearchBy_eq_ok {index : Nat} (found : binarySearchBy slice f = .ok index) :
    ∃ inside : index < slice.length, f slice[index] = .eq := by
  unfold binarySearchBy at found
  split at found
  · cases found
  · dsimp only at found
    split at found
    · cases found
      exact ⟨_, ‹_›⟩
    · cases found

theorem binarySearchBy_lt {index : Nat} (found : binarySearchBy slice f = .ok index) :
    index < slice.length :=
  (binarySearchBy_eq_ok found).1

/-- The comparator splits the slice into `Less`, then `Equal`, then `Greater`. -/
def Partitioned (slice : List α) (f : α → Ordering) : Prop :=
  slice.Pairwise fun entry later => (f later = .lt → f entry = .lt) ∧ (f entry = .gt → f later = .gt)

theorem Partitioned.at (partitioned : Partitioned slice f) {i j : Nat} (before : i < j)
    (inside : j < slice.length) :
    (f slice[j] = .lt → f slice[i] = .lt) ∧ (f slice[i] = .gt → f slice[j] = .gt) :=
  List.pairwise_iff_getElem.mp partitioned i j (by omega) inside before

/-- A window holding an entry that compares `Equal` keeps holding one: the middle entry of a
partitioned slice tells on which side of it the entries comparing `Equal` lie. -/
theorem binarySearchLoop_eq (partitioned : Partitioned slice f) (base size : Nat)
    (inside : base + size ≤ slice.length)
    (window : ∃ j, ∃ _ : j < slice.length, base ≤ j ∧ j < base + size ∧ f slice[j] = .eq) :
    ∃ _ : binarySearchLoop slice f base size inside < slice.length,
      f slice[binarySearchLoop slice f base size inside] = .eq := by
  fun_induction binarySearchLoop slice f base size inside with
  | case1 base size inside more _ ih =>
      obtain ⟨j, inRange, low, high, equal⟩ := window
      simp only [dite_eq_ite] at ih
      apply ih
      by_cases greater : f slice[base + size / 2] = .gt
      · -- everything from the middle on compares `Greater`, so `j` lies below it
        have below : j < base + size / 2 := by
          by_contra notBelow
          rcases Nat.lt_or_eq_of_le (Nat.le_of_not_lt notBelow) with after | same
          · have := (partitioned.at after inRange).2 greater
            simp_all
          · simp_all
        exact ⟨j, inRange, by simp [greater]; omega, by simp [greater]; omega, equal⟩
      · by_cases less : f slice[base + size / 2] = .lt
        · -- everything up to the middle compares `Less`, so `j` lies above it
          have above : base + size / 2 ≤ j := by
            by_contra notAbove
            have := (partitioned.at (Nat.lt_of_not_le notAbove) (by omega)).1 less
            simp_all
          exact ⟨j, inRange, by simp [greater]; omega, by simp [greater]; omega, equal⟩
        · -- the middle entry compares `Equal` itself
          have middle : f slice[base + size / 2] = .eq := by
            cases h : f slice[base + size / 2] <;> simp_all
          exact ⟨base + size / 2, by omega, by simp [greater], by simp [greater]; omega, middle⟩
  | case2 base size inside more =>
      obtain ⟨j, inRange, low, high, equal⟩ := window
      have : j = base := by omega
      subst this
      exact ⟨inRange, equal⟩

/-- On a partitioned slice holding an entry that compares `Equal`, the search finds one. -/
theorem binarySearchBy_isOk (partitioned : Partitioned slice f) {entry : α}
    (member : entry ∈ slice) (equal : f entry = .eq) :
    ∃ index, binarySearchBy slice f = .ok index := by
  obtain ⟨j, inRange, rfl⟩ := List.getElem_of_mem member
  have nonempty : slice.length ≠ 0 := by omega
  obtain ⟨_, found⟩ := binarySearchLoop_eq partitioned 0 slice.length (by omega)
    ⟨j, inRange, Nat.zero_le j, by omega, equal⟩
  refine ⟨binarySearchLoop slice f 0 slice.length (by omega), ?_⟩
  simp [binarySearchBy, nonempty, found]

end BinarySearch

/-! ## Keys in descending order -/

section Keyed

variable {α κ : Type*} [LinearOrder κ] (key : α → κ)

/-- With the comparator turned round, a slice in strictly descending key order is partitioned
at every key. -/
theorem partitioned_of_descending {slice : List α}
    (descending : slice.Pairwise fun entry later => key later < key entry) (k : κ) :
    Partitioned slice fun entry => compare k (key entry) := by
  apply descending.imp
  intro entry later lower
  simp only [compare_lt_iff_lt, compare_gt_iff_gt]
  exact ⟨fun above => lt_trans above lower, fun below => lt_trans lower below⟩

variable {key}

/-- On a slice in strictly descending key order, the search for a key finds its one entry. -/
theorem find?_eq_of_binarySearchBy_ok {slice : List α}
    (descending : slice.Pairwise fun entry later => key later < key entry) {k : κ} {index : Nat}
    (found : binarySearchBy slice (fun entry => compare k (key entry)) = .ok index) :
    slice.find? (fun entry => key entry = k) = some (slice.get ⟨index, binarySearchBy_lt found⟩) := by
  obtain ⟨inside, equal⟩ := binarySearchBy_eq_ok found
  have keyed : key slice[index] = k := (compare_eq_iff_eq.mp equal).symm
  rw [List.find?_eq_some_iff_getElem]
  refine ⟨by simpa using keyed, index, inside, rfl, fun j before => ?_⟩
  -- every entry before it has a greater key
  have greater := List.pairwise_iff_getElem.mp descending j index (by omega) inside before
  simp only [Bool.not_eq_true', decide_eq_false_iff_not]
  intro same
  rw [same, ← keyed] at greater
  exact lt_irrefl _ greater

/-- On a slice in strictly descending key order, the search for a key fails only where no entry
has it. -/
theorem find?_eq_none_of_binarySearchBy_error {slice : List α}
    (descending : slice.Pairwise fun entry later => key later < key entry) {k : κ} {point : Nat}
    (missing : binarySearchBy slice (fun entry => compare k (key entry)) = .error point) :
    slice.find? (fun entry => key entry = k) = none := by
  rw [List.find?_eq_none]
  intro entry member keyed
  obtain ⟨index, found⟩ := binarySearchBy_isOk (partitioned_of_descending key descending k) member
    (compare_eq_iff_eq.mpr (of_decide_eq_true keyed).symm)
  rw [found] at missing
  cases missing

/-! ## Sorting, reversing, keeping the first of each run -/

/-- Keeping the first entry of each run of equal keys, after a kept entry `first`, leaves the
first entry with each key where it was. -/
theorem find?_destutter' (k : κ) (first : α) (entries : List α) :
    (entries.destutter' (fun entry later => key entry ≠ key later) first).find?
        (fun entry => key entry = k) =
      (first :: entries).find? (fun entry => key entry = k) := by
  induction entries generalizing first with
  | nil => rfl
  | cons next entries ih =>
      by_cases same : key first = key next
      · -- `next` is dropped; it has the key of `first`, which comes before it
        rw [List.destutter'_cons_neg _ (not_not.mpr same), ih first]
        by_cases found : key first = k <;> simp [found, ← same]
      · rw [List.destutter'_cons_pos _ same, List.find?_cons, ih next, List.find?_cons]
        simp [List.find?_cons]

theorem find?_destutter (k : κ) (entries : List α) :
    (entries.destutter fun entry later => key entry ≠ key later).find? (fun entry => key entry = k) =
      entries.find? (fun entry => key entry = k) := by
  cases entries with
  | nil => rfl
  | cons first entries => exact find?_destutter' k first entries

/-- Entries in descending key order whose neighbours differ in key descend strictly. -/
theorem pairwise_lt_of_isChain {entries : List α}
    (descending : entries.Pairwise fun entry later => key later ≤ key entry)
    (distinct : entries.IsChain fun entry later => key entry ≠ key later) :
    entries.Pairwise fun entry later => key later < key entry := by
  induction entries with
  | nil => exact List.Pairwise.nil
  | cons first entries ih =>
      rw [List.pairwise_cons] at descending ⊢
      have rest := ih descending.2 distinct.tail
      refine ⟨fun later member => ?_, rest⟩
      cases entries with
      | nil => cases member
      | cons next entries =>
          have step : key next < key first :=
            lt_of_le_of_ne (descending.1 next (by simp)) (List.isChain_cons_cons.mp distinct).1.symm
          rcases List.mem_cons.mp member with rfl | member
          · exact step
          · exact lt_trans (List.rel_of_pairwise_cons rest member) step

omit [LinearOrder κ] in
variable [LinearOrder κ] (key) in
/-- Comparing keys is transitive, as `mergeSort` needs of its order. -/
theorem keyLE_trans (a b c : α) (first : decide (key a ≤ key b) = true)
    (second : decide (key b ≤ key c) = true) : decide (key a ≤ key c) = true :=
  decide_eq_true (le_trans (of_decide_eq_true first) (of_decide_eq_true second))

omit [LinearOrder κ] in
variable [LinearOrder κ] (key) in
/-- Comparing keys is total, as `mergeSort` needs of its order. -/
theorem keyLE_total (a b : α) : (decide (key a ≤ key b) || decide (key b ≤ key a)) = true := by
  simpa using le_total (key a) (key b)

/-- `sort_by` is stable: the entries with one key keep their order. -/
theorem filter_mergeSort (entries : List α) (k : κ) :
    (entries.mergeSort fun entry later => key entry ≤ key later).filter (fun entry => key entry = k) =
      entries.filter (fun entry => key entry = k) := by
  -- the entries with the key are sorted already, so the sort keeps them in order
  have keyed : (entries.filter fun entry => key entry = k).Pairwise
      fun entry later => decide (key entry ≤ key later) = true := by
    apply List.Pairwise.imp_of_mem _ (List.pairwise_of_forall (R := fun _ _ => True) (by simp))
    intro entry later member member' _
    simp only [List.mem_filter, decide_eq_true_eq] at member member'
    simp [member.2, member'.2]
  have sublist := List.sublist_mergeSort (keyLE_trans key) (keyLE_total key) keyed
    List.filter_sublist
  have lengths := ((List.mergeSort_perm entries fun entry later => decide (key entry ≤ key later)).filter
    fun entry => decide (key entry = k)).length_eq
  refine (List.Sublist.eq_of_length ?_ lengths.symm).symm
  simpa using sublist.filter (fun entry => decide (key entry = k))

/-- `sort_by`, `reverse`, `dedup_by`: the entries sorted by key, each key's last entry first, and
only the first entry of each key kept. -/
def lastByKey (key : α → κ) (entries : List α) : List α :=
  ((entries.mergeSort fun entry later => key entry ≤ key later).reverse).destutter
    fun entry later => key entry ≠ key later

/-- The entries left descend strictly in key. -/
theorem lastByKey_descending (entries : List α) :
    (lastByKey key entries).Pairwise fun entry later => key later < key entry := by
  apply pairwise_lt_of_isChain _ (List.isChain_destutter _ _)
  apply List.Pairwise.sublist (List.destutter_sublist _ _)
  rw [List.pairwise_reverse]
  exact (List.pairwise_mergeSort (keyLE_trans key) (keyLE_total key) entries).imp
    fun ordered => of_decide_eq_true ordered

/-- The entry left with a key is the last entry with that key. -/
theorem find?_lastByKey (entries : List α) (k : κ) :
    (lastByKey key entries).find? (fun entry => key entry = k) =
      entries.reverse.find? (fun entry => key entry = k) := by
  rw [lastByKey, find?_destutter, ← List.head?_filter, ← List.head?_filter, List.filter_reverse,
    List.filter_reverse, filter_mergeSort]

end Keyed

/-- Entries made from keys by a value of each key hold, as the last entry with a key, the value of
that key, where it is one of the keys and has a value. -/
theorem find?_reverse_filterMap_pair {β γ : Type*} [DecidableEq β] (keys : List β)
    (value : β → Option γ) (key : β) :
    (keys.filterMap fun k => (value k).map ((k, ·))).reverse.find? (fun entry => entry.1 = key) =
      (if key ∈ keys then value key else none).map ((key, ·)) := by
  induction keys with
  | nil => simp
  | cons k keys ih =>
      rw [List.filterMap_cons]
      by_cases same : k = key
      · subst same
        cases found : value k with
        | none => simp [found, ih]
        | some v =>
            simp [found, List.find?_append, ih]
            split <;> rfl
      · cases value k with
        | none => simp [ih, Ne.symm same]
        | some v => simp [List.find?_append, ih, same, Ne.symm same]

end SortedLookup
