import Mathlib

/-!
# Runs of a partial step function

A system given by a partial step function `step : σ → α → Option σ` runs a list of actions
from a state; an action the system refuses in its current state ends the run with `none`.
The two rules proved here are the induction principles every state-machine argument of the
development goes through: an invariant that holds initially and is kept by every step holds
after every run, and a measure that no step lowers is monotone along every run.
-/

namespace StepRun

variable {σ α : Type*}

/-- Execute the actions in order, stopping at the first refused one. -/
def run (step : σ → α → Option σ) : σ → List α → Option σ
  | state, [] => some state
  | state, action :: actions => step state action >>= fun next => run step next actions

variable {step : σ → α → Option σ}

@[simp]
theorem run_nil (state : σ) : run step state [] = some state := rfl

@[simp]
theorem run_cons (state : σ) (action : α) (actions : List α) :
    run step state (action :: actions) =
      step state action >>= fun next => run step next actions := rfl

theorem run_append (state : σ) (front back : List α) :
    run step state (front ++ back) = run step state front >>= fun middle => run step middle back := by
  induction front generalizing state with
  | nil => simp
  | cons action front ih =>
      simp only [List.cons_append, run_cons]
      cases step state action with
      | none => rfl
      | some next => exact ih next

theorem run_concat (state : σ) (front : List α) (action : α) :
    run step state (front ++ [action]) = run step state front >>= fun middle => step middle action := by
  rw [run_append]
  cases run step state front with
  | none => rfl
  | some middle => simp

/-- A refused prefix refuses the whole run. -/
theorem run_of_run_append {state final : σ} {front back : List α}
    (whole : run step state (front ++ back) = some final) :
    ∃ middle, run step state front = some middle ∧ run step middle back = some final := by
  rw [run_append] at whole
  cases hfront : run step state front with
  | none => simp [hfront] at whole
  | some middle => exact ⟨middle, rfl, by simpa [hfront] using whole⟩

section Invariant

variable (Inv : σ → Prop)

/-- A property kept by every accepted step. -/
def Preserved (step : σ → α → Option σ) : Prop :=
  ∀ state action next, Inv state → step state action = some next → Inv next

/-- The induction rule for runs: a preserved property holds after every run from a state
that has it. -/
theorem run_invariant {step : σ → α → Option σ} (preserved : Preserved Inv step)
    {state final : σ} {actions : List α} (initial : Inv state)
    (ran : run step state actions = some final) : Inv final := by
  induction actions generalizing state with
  | nil =>
      simp only [run_nil, Option.some.injEq] at ran
      exact ran ▸ initial
  | cons action actions ih =>
      simp only [run_cons] at ran
      cases hstep : step state action with
      | none => simp [hstep] at ran
      | some next =>
          rw [hstep] at ran
          exact ih (preserved state action next initial hstep) ran

end Invariant

section Monotone

variable {β : Type*} [Preorder β]

/-- A measure that no step lowers, on the states satisfying `Inv`. -/
def Monotone (Inv : σ → Prop) (step : σ → α → Option σ) (measure : σ → β) : Prop :=
  ∀ state action next, Inv state → step state action = some next → measure state ≤ measure next

/-- A measure that no step lowers never decreases along a run that keeps `Inv`. -/
theorem run_monotone {Inv : σ → Prop} {measure : σ → β} (preserved : Preserved Inv step)
    (monotone : Monotone Inv step measure) {state final : σ} {actions : List α}
    (initial : Inv state) (ran : run step state actions = some final) :
    measure state ≤ measure final := by
  induction actions generalizing state with
  | nil =>
      simp only [run_nil, Option.some.injEq] at ran
      exact ran ▸ le_rfl
  | cons action actions ih =>
      simp only [run_cons] at ran
      cases hstep : step state action with
      | none => simp [hstep] at ran
      | some next =>
          rw [hstep] at ran
          exact (monotone state action next initial hstep).trans
            (ih (preserved state action next initial hstep) ran)

end Monotone

end StepRun
