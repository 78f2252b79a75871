import Mathlib

/-!
# Fixed-width integers

The `u64` and `u32` arithmetic the services rely on, on `Nat` with the bound made explicit:
`checked!` additions fail past `u64::MAX` and `saturating_add` stops at the type's maximum.
-/

namespace Tuwunel

/-- `u64::MAX`. -/
def u64Max : Nat := 2 ^ 64 - 1

/-- `i64::MAX`. -/
def i64Max : Nat := 2 ^ 63 - 1

/-- `i64::MIN`. -/
def i64Min : Int := -2 ^ 63

/-- `signed as u64`: the two's complement bits of an `i64`. -/
def asU64 (signed : Int) : Nat := (signed % 2 ^ 64).toNat

/-- `unsigned as i64`: the bits of a `u64` read as two's complement. -/
def asI64 (unsigned : Nat) : Int := Int.bmod unsigned (2 ^ 64)

/-- `u64::saturating_add`. -/
def saturatingAdd (value increment : Nat) : Nat := min (value + increment) u64Max

/-- `u32::MAX`. -/
def u32Max : Nat := 2 ^ 32 - 1

/-- `u32::saturating_add`. -/
def saturatingAdd32 (value increment : Nat) : Nat := min (value + increment) u32Max

/-- `u64::saturating_mul`. -/
def saturatingMul (value factor : Nat) : Nat := min (value * factor) u64Max

/-- `i64::saturating_add`. -/
def saturatingAddI64 (value increment : Int) : Int := max i64Min (min (value + increment) i64Max)

/-- `i64::saturating_sub`. -/
def saturatingSubI64 (value decrement : Int) : Int := max i64Min (min (value - decrement) i64Max)

/-- A `checked!` addition of `usize` values, which are 64 bits wide on the server's targets. -/
def checkedAdd (value increment : Nat) : Option Nat :=
  if value + increment ≤ u64Max then some (value + increment) else none

/-- A `checked!` multiplication of `usize` values. -/
def checkedMul (value factor : Nat) : Option Nat :=
  if value * factor ≤ u64Max then some (value * factor) else none

theorem lt_of_le_u64Max {value : Nat} (fits : value ≤ u64Max) : value < 2 ^ 64 := by
  unfold u64Max at fits
  omega

theorem asU64_lt (signed : Int) : asU64 signed < 2 ^ 64 := by
  unfold asU64
  omega

theorem asU64_of_nonneg {signed : Int} (nonneg : 0 ≤ signed) (fits : signed < 2 ^ 64) :
    (asU64 signed : Int) = signed := by
  unfold asU64
  omega

/-- A negative `i64` has the bits of the number `2 ^ 64` above it. -/
theorem asU64_of_neg {signed : Int} (low : i64Min ≤ signed) (negative : signed < 0) :
    (asU64 signed : Int) = signed + 2 ^ 64 := by
  unfold asU64
  unfold i64Min at low
  omega

theorem asI64_of_le {unsigned : Nat} (fits : unsigned ≤ i64Max) : asI64 unsigned = unsigned := by
  unfold asI64
  unfold i64Max at fits
  apply Int.bmod_eq_of_le <;> omega

/-- Bits at or above `2 ^ 63` read as the negative number `2 ^ 64` below them. -/
theorem asI64_of_gt {unsigned : Nat} (above : i64Max < unsigned) (fits : unsigned < 2 ^ 64) :
    asI64 unsigned = unsigned - 2 ^ 64 := by
  unfold asI64
  unfold i64Max at above
  rw [Int.bmod_def]
  omega

/-- An `i64` cast to `u64` and back is itself. -/
theorem asI64_asU64 {signed : Int} (low : i64Min ≤ signed) (high : signed ≤ i64Max) :
    asI64 (asU64 signed) = signed := by
  unfold asI64 asU64
  unfold i64Min at low
  unfold i64Max at high
  rw [Int.toNat_of_nonneg (Int.emod_nonneg _ (by decide)), Int.bmod_def]
  omega

theorem saturatingAdd_of_le {value increment : Nat} (fits : value + increment ≤ u64Max) :
    saturatingAdd value increment = value + increment :=
  min_eq_left fits

/-- A saturating increment of a positive count is above one, `u64::MAX` being far above. -/
theorem one_lt_saturatingAdd {value : Nat} (positive : 0 < value) : 1 < saturatingAdd value 1 := by
  unfold saturatingAdd u64Max
  omega

/-- Saturating increments add up, whichever side of `u64::MAX` they reach. -/
theorem saturatingAdd_saturatingAdd (value first second : Nat) :
    saturatingAdd (saturatingAdd value first) second = saturatingAdd value (first + second) := by
  unfold saturatingAdd
  omega

theorem saturatingAdd32_of_le {value increment : Nat} (fits : value + increment ≤ u32Max) :
    saturatingAdd32 value increment = value + increment :=
  min_eq_left fits

end Tuwunel
