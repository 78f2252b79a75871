import Mathlib

/-!
# What a successful `Except` computation went through

A computation in `Except` that ends in `.ok` passed every step it sequenced: these lemmas turn
such a hypothesis into the successes of its parts, so that a proof about a validator can peel it
with `obtain` rather than unfold it.
-/

namespace Except

variable {ε α β : Type}

@[simp]
theorem bind_eq_ok {first : Except ε α} {rest : α → Except ε β} {result : β} :
    first >>= rest = .ok result ↔ ∃ value, first = .ok value ∧ rest value = .ok result := by
  cases first <;> simp [bind, Except.bind]

@[simp]
theorem map_eq_ok {first : Except ε α} {f : α → β} {result : β} :
    first.map f = .ok result ↔ ∃ value, first = .ok value ∧ f value = result := by
  cases first <;> simp [Except.map]

@[simp]
theorem pure_eq_ok {value result : α} : (pure value : Except ε α) = .ok result ↔ value = result := by
  simp [pure, Except.pure]

@[simp]
theorem throw_ne_ok {error : ε} {result : α} : (throw error : Except ε α) ≠ .ok result := by
  simp [throw, throwThe, MonadExceptOf.throw]

theorem throw_eq_error {error : ε} : (throw error : Except ε α) = .error error := rfl

theorem pure_eq_ok_self {value : α} : (pure value : Except ε α) = .ok value := rfl

/-- A guard that rejects where `condition` holds. -/
@[simp]
theorem ite_error_eq_ok {condition : Prop} [Decidable condition] {error : ε}
    {rest : Except ε α} {result : α} :
    (if condition then .error error else rest) = .ok result ↔ ¬condition ∧ rest = .ok result := by
  by_cases holds : condition <;> simp [holds]

/-- A guard that accepts where `condition` holds. -/
@[simp]
theorem ite_ok_error_eq_ok {condition : Prop} [Decidable condition] {value result : α}
    {error : ε} :
    (if condition then .ok value else .error error : Except ε α) = .ok result ↔
      condition ∧ value = result := by
  by_cases holds : condition <;> simp [holds]

end Except
