import Mathlib
import Tuwunel.Core.Numbers

/-!
# Retry-streak caps

`exponential_backoff_streak_cap(min, max)` is meant to be the least streak `n` at which the
quadratic curve `min * n²` reaches `max`, so that a longer streak cannot raise a delay capped at
`max`.  It takes the ceiling square root of the quotient `max / min`, and the remainder of that
division is discarded before the root.  The bounds are whole seconds here, as the callers build
them with `Duration::from_secs`.

`streakCap_spec` says what the cap is: the ceiling square root of the quotient, and one for a
quotient of zero.  From it, `mul_streakCap_sq_lt_iff` says exactly when the curve at the cap stays
below `max`: when the quotient is a positive perfect square and the division leaves a remainder.
-/

namespace Tuwunel
namespace Utils

/-- `exponential_backoff_streak_cap`, on whole seconds. -/
def exponentialBackoffStreakCap (minSecs maxSecs : Nat) : Nat :=
  let minSecs := max minSecs 1
  let ratio := maxSecs / minSecs
  let floor := ratio.sqrt
  let ceil := if saturatingMul floor floor < ratio then saturatingAdd floor 1 else floor
  max (min ceil u32Max) 1

/-- The cap is the ceiling square root of the quotient, and one when the quotient is zero.  For a
`max` up to `2 ^ 62` seconds the saturating steps never saturate and the clamp to `u32` never
applies. -/
theorem streakCap_spec {window maxSecs : Nat} (positive : 0 < window) (fits : maxSecs ≤ 2 ^ 62) :
    ((maxSecs / window).sqrt * (maxSecs / window).sqrt < maxSecs / window →
        exponentialBackoffStreakCap window maxSecs = (maxSecs / window).sqrt + 1) ∧
      ((maxSecs / window).sqrt * (maxSecs / window).sqrt = maxSecs / window →
        exponentialBackoffStreakCap window maxSecs = max (maxSecs / window).sqrt 1) := by
  have bounded : maxSecs / window ≤ 2 ^ 62 := (Nat.div_le_self _ _).trans fits
  unfold exponentialBackoffStreakCap
  simp only [max_eq_left (show 1 ≤ window from positive)]
  generalize maxSecs / window = ratio at *
  have squareFits : ratio.sqrt * ratio.sqrt ≤ u64Max := by
    have := Nat.sqrt_le ratio
    unfold u64Max
    omega
  have rootBelow : ratio.sqrt < 2 ^ 31 + 1 := by
    rw [Nat.sqrt_lt']
    omega
  have square : saturatingMul ratio.sqrt ratio.sqrt = ratio.sqrt * ratio.sqrt :=
    min_eq_left squareFits
  have succ : saturatingAdd ratio.sqrt 1 = ratio.sqrt + 1 := by
    unfold saturatingAdd u64Max
    omega
  simp only [square, succ]
  constructor
  · intro below
    rw [if_pos below]
    unfold u32Max
    omega
  · intro exact
    rw [exact, if_neg (lt_irrefl ratio)]
    unfold u32Max
    omega

/-- The curve at the cap stays below `max` exactly when the quotient is a positive perfect square
and the division has a remainder: a root that is not exact is rounded up past the quotient, and
an exact one gives back the quotient, which falls short of `max` by the remainder. -/
theorem mul_streakCap_sq_lt_iff {window maxSecs : Nat} (positive : 0 < window)
    (fits : maxSecs ≤ 2 ^ 62) :
    window * exponentialBackoffStreakCap window maxSecs ^ 2 < maxSecs ↔
      0 < maxSecs / window ∧ (maxSecs / window).sqrt * (maxSecs / window).sqrt = maxSecs / window ∧
        maxSecs % window ≠ 0 := by
  obtain ⟨rounded, exact⟩ := streakCap_spec positive fits
  have split : window * (maxSecs / window) + maxSecs % window = maxSecs :=
    Nat.div_add_mod maxSecs window
  have remainder : maxSecs % window < window := Nat.mod_lt _ positive
  generalize maxSecs / window = ratio at *
  rcases (Nat.sqrt_le ratio).lt_or_eq with below | root
  · -- the root is rounded up, and the curve passes the quotient by a whole window
    have beyond : ratio + 1 ≤ (ratio.sqrt + 1) ^ 2 := by
      have := Nat.lt_succ_sqrt ratio
      nlinarith
    have grown : window * (ratio + 1) ≤ window * (ratio.sqrt + 1) ^ 2 :=
      Nat.mul_le_mul_left window beyond
    rw [rounded below]
    constructor
    · intro short
      nlinarith
    · rintro ⟨-, exact', -⟩
      omega
  · rw [exact root]
    rcases Nat.eq_zero_or_pos ratio with empty | nonempty
    · -- a window above `max`: the cap is one, and one window already reaches `max`
      subst empty
      constructor
      · intro short
        simp at short
        omega
      · rintro ⟨absurd, -⟩
        omega
    · have rootPositive : 1 ≤ ratio.sqrt := Nat.sqrt_pos.mpr nonempty
      rw [max_eq_left rootPositive, sq, root]
      constructor
      · intro short
        exact ⟨nonempty, rfl, by omega⟩
      · rintro ⟨-, -, leftover⟩
        omega

end Utils
end Tuwunel
