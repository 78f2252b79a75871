import Mathlib

/-!
# Binary search over a sorted slice

The search loop of the standard library's `binary_search_by`: a window `[base, base + size)`
halves on every probe, without an early exit on equality, and one last probe decides between
the index of a match and the insertion point.  On a strictly ascending slice the index of a
match is the position of the key, and that is the only fact a caller keeping its slice sorted
relies on.
-/

namespace SliceSearch

variable {α : Type*} [LinearOrder α]

/-- The halving loop of `binary_search_by`; returns the final `base` of the window. -/
def loop (slice : List α) (key : α) (base size : Nat) : Nat :=
  if 1 < size then
    let half := size / 2
    let mid := base + half
    -- `cmp == Greater` keeps the lower window, any other ordering moves it up to `mid`
    let next := match slice[mid]? with
      | some probe => if key < probe then base else mid
      | none => base
    loop slice key next (size - half)
  else
    base
termination_by size

/-- `binary_search`: `Ok` with the index of a matching element, `Err` with the insertion point. -/
def binarySearch (slice : List α) (key : α) : Except Nat Nat :=
  let base := loop slice key 0 slice.length
  match slice[base]? with
  | none => .error 0
  | some probe =>
      match compare probe key with
      | .eq => .ok base
      | .lt => .error (base + 1)
      | .gt => .error base

/-- A strictly ascending slice. -/
abbrev Ascending (slice : List α) : Prop := slice.Pairwise (· < ·)

theorem Ascending.lt_of_lt {slice : List α} (ascending : Ascending slice) {i j : Nat}
    (hi : i < slice.length) (hj : j < slice.length) (order : i < j) : slice[i] < slice[j] :=
  List.pairwise_iff_getElem.mp ascending i j hi hj order

theorem Ascending.le_of_le {slice : List α} (ascending : Ascending slice) {i j : Nat}
    (hi : i < slice.length) (hj : j < slice.length) (order : i ≤ j) : slice[i] ≤ slice[j] := by
  rcases Nat.lt_or_eq_of_le order with less | rfl
  · exact (ascending.lt_of_lt hi hj less).le
  · exact le_rfl

/-- The loop invariant: a key stored inside the window is never dropped from it. -/
theorem loop_eq_of_mem_window {slice : List α} (ascending : Ascending slice) {key : α}
    {index : Nat} (hindex : index < slice.length) (found : slice[index] = key) :
    ∀ size base, base ≤ index → index < base + size → base + size ≤ slice.length →
      loop slice key base size = index := by
  intro size
  induction size using Nat.strong_induction_on with
  | _ size ih =>
      intro base lower upper bound
      rw [loop]
      split
      case isTrue wide =>
          have midBound : base + size / 2 < slice.length := by omega
          simp only [List.getElem?_eq_getElem midBound]
          split
          case isTrue above =>
              have below : index < base + size / 2 := by
                by_contra notBelow
                have probeLe := ascending.le_of_le midBound hindex (by omega)
                rw [found] at probeLe
                exact absurd above (not_lt.mpr probeLe)
              exact ih (size - size / 2) (by omega) base lower (by omega) (by omega)
          case isFalse notAbove =>
              have atLeast : base + size / 2 ≤ index := by
                by_contra notAtLeast
                have keyLt := ascending.lt_of_lt hindex midBound (by omega)
                rw [found] at keyLt
                exact notAbove keyLt
              exact ih (size - size / 2) (by omega) (base + size / 2) atLeast (by omega)
                (by omega)
      case isFalse narrow => omega

/-- An `Ok` answer always names a matching element, sorted or not. -/
theorem getElem?_of_binarySearch_eq_ok {slice : List α} {key : α} {index : Nat}
    (search : binarySearch slice key = .ok index) : slice[index]? = some key := by
  dsimp only [binarySearch] at search
  split at search
  case h_1 => cases search
  case h_2 probe hprobe =>
      split at search
      case h_1 equal =>
          cases search
          rw [hprobe, compare_eq_iff_eq.mp equal]
      all_goals cases search

/-- On a strictly ascending slice the search finds exactly the position of the key. -/
theorem binarySearch_eq_ok_iff {slice : List α} (ascending : Ascending slice) {key : α}
    {index : Nat} : binarySearch slice key = .ok index ↔ slice[index]? = some key := by
  constructor
  · exact getElem?_of_binarySearch_eq_ok
  · intro stored
    obtain ⟨hindex, found⟩ := List.getElem?_eq_some_iff.mp stored
    have loopEq := loop_eq_of_mem_window ascending hindex found slice.length 0 (by omega)
      (by omega) (by omega)
    simp [binarySearch, loopEq, List.getElem?_eq_getElem hindex, found]

end SliceSearch
