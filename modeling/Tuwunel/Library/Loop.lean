import Mathlib

/-!
# Loops over fetched data

A loop whose body, from a state, fails, returns a result, or continues from a next state: a
`while let` loop, or a `try_unfold` collected with `try_collect` (`unfold`).  Nothing bounds such
a loop but the data it reads, so `run` takes fuel: one unit a round, and `none` when the fuel ran
out with the loop still going.

`Returns` is the loop's meaning without fuel.  A run that ends ends as `Returns` says
(`returns_of_run`), every result `Returns` gives is reached with enough fuel (`run_of_returns`),
and more fuel never changes an end (`run_mono`).  A loop that stays in a set of states its body
always continues from never ends, whatever the fuel (`run_eq_none_of_closed`).
-/

namespace Loop

variable {σ β ε : Type*} (body : σ → Except ε (β ⊕ σ))

/-- The loop for at most `fuel` rounds from `state`. -/
def run : Nat → σ → Option (Except ε β)
  | 0, _ => none
  | fuel + 1, state =>
      match body state with
      | .error error => some (.error error)
      | .ok (.inl result) => some (.ok result)
      | .ok (.inr next) => run fuel next

/-- The loop ends from `state` with `result`. -/
inductive Returns : σ → Except ε β → Prop
  | error {state : σ} {error : ε} : body state = .error error → Returns state (.error error)
  | done {state : σ} {result : β} : body state = .ok (.inl result) → Returns state (.ok result)
  | next {state next : σ} {result : Except ε β} :
      body state = .ok (.inr next) → Returns next result → Returns state result

variable {body}

@[simp]
theorem run_zero (state : σ) : run body 0 state = none := rfl

theorem run_succ_of_error {state : σ} {error : ε} (failed : body state = .error error)
    (fuel : Nat) : run body (fuel + 1) state = some (.error error) := by
  simp [run, failed]

theorem run_succ_of_done {state : σ} {result : β} (done : body state = .ok (.inl result))
    (fuel : Nat) : run body (fuel + 1) state = some (.ok result) := by
  simp [run, done]

theorem run_succ_of_next {state next : σ} (continues : body state = .ok (.inr next))
    (fuel : Nat) : run body (fuel + 1) state = run body fuel next := by
  simp [run, continues]

/-- What a round does, one case a way the body can go. -/
theorem run_succ_cases (body : σ → Except ε (β ⊕ σ)) (fuel : Nat) (state : σ) :
    (∃ error, body state = .error error ∧
      run body (fuel + 1) state = some (.error error)) ∨
    (∃ result, body state = .ok (.inl result) ∧
      run body (fuel + 1) state = some (.ok result)) ∨
    (∃ next, body state = .ok (.inr next) ∧
      run body (fuel + 1) state = run body fuel next) := by
  rcases outcome : body state with error | result | next
  · exact .inl ⟨error, rfl, run_succ_of_error outcome fuel⟩
  · exact .inr (.inl ⟨result, rfl, run_succ_of_done outcome fuel⟩)
  · exact .inr (.inr ⟨next, rfl, run_succ_of_next outcome fuel⟩)

theorem returns_of_run : ∀ {fuel : Nat} {state : σ} {result : Except ε β},
    run body fuel state = some result → Returns body state result
  | 0, _, _, ended => by simp at ended
  | fuel + 1, state, result, ended => by
      rcases run_succ_cases body fuel state with
        ⟨error, failed, round⟩ | ⟨done, finished, round⟩ | ⟨next, continues, round⟩
      · rw [round, Option.some.injEq] at ended
        subst ended
        exact .error failed
      · rw [round, Option.some.injEq] at ended
        subst ended
        exact .done finished
      · rw [round] at ended
        exact .next continues (returns_of_run ended)

theorem run_of_returns {state : σ} {result : Except ε β} (returns : Returns body state result) :
    ∃ fuel, run body fuel state = some result := by
  induction returns with
  | error failed => exact ⟨1, run_succ_of_error failed 0⟩
  | done finished => exact ⟨1, run_succ_of_done finished 0⟩
  | next continues _ ih =>
      obtain ⟨fuel, ended⟩ := ih
      exact ⟨fuel + 1, (run_succ_of_next continues fuel).trans ended⟩

/-- The loop is deterministic: it ends from a state in at most one way. -/
theorem Returns.functional {state : σ} {result result' : Except ε β}
    (returns : Returns body state result) (returns' : Returns body state result') :
    result = result' := by
  induction returns generalizing result' with
  | error failed =>
      cases returns' with
      | error failed' => rw [failed] at failed'; cases failed'; rfl
      | done finished => rw [failed] at finished; cases finished
      | next continues _ => rw [failed] at continues; cases continues
  | done finished =>
      cases returns' with
      | error failed => rw [finished] at failed; cases failed
      | done finished' => rw [finished] at finished'; cases finished'; rfl
      | next continues _ => rw [finished] at continues; cases continues
  | next continues _ ih =>
      cases returns' with
      | error failed => rw [continues] at failed; cases failed
      | done finished => rw [continues] at finished; cases finished
      | next continues' rest =>
          rw [continues, Except.ok.injEq, Sum.inr.injEq] at continues'
          subst continues'
          exact ih rest

/-- More fuel never changes how a run ended. -/
theorem run_mono {fuel fuel' : Nat} {state : σ} {result : Except ε β}
    (ended : run body fuel state = some result) (more : fuel ≤ fuel') :
    run body fuel' state = some result := by
  obtain ⟨extra, rfl⟩ := Nat.exists_eq_add_of_le more
  clear more
  induction fuel generalizing state with
  | zero => simp at ended
  | succ fuel ih =>
      rw [Nat.add_right_comm]
      rcases run_succ_cases body fuel state with
        ⟨error, failed, round⟩ | ⟨done, finished, round⟩ | ⟨next, continues, round⟩
      · rw [round] at ended
        rw [← ended, run_succ_of_error failed]
      · rw [round] at ended
        rw [← ended, run_succ_of_done finished]
      · rw [round] at ended
        rw [run_succ_of_next continues]
        exact ih ended

section Closed

variable (inside : σ → Prop)

/-- From a state in `inside` the body always continues, to a state in `inside` again. -/
def Closed (body : σ → Except ε (β ⊕ σ)) : Prop :=
  ∀ state, inside state → ∃ next, body state = .ok (.inr next) ∧ inside next

variable {inside}

/-- A loop that cannot leave a closed set of states runs out of every fuel. -/
theorem run_eq_none_of_closed (closed : Closed inside body) :
    ∀ (fuel : Nat) {state : σ}, inside state → run body fuel state = none
  | 0, _, _ => rfl
  | fuel + 1, state, within => by
      obtain ⟨next, continues, within'⟩ := closed state within
      rw [run_succ_of_next continues]
      exact run_eq_none_of_closed closed fuel within'

theorem not_returns_of_closed (closed : Closed inside body) {state : σ} (within : inside state)
    (result : Except ε β) : ¬Returns body state result := by
  intro returns
  obtain ⟨fuel, ended⟩ := run_of_returns returns
  rw [run_eq_none_of_closed closed fuel within] at ended
  cases ended

end Closed

section Unfold

variable {α : Type*} (step : σ → Except ε (Option (α × σ)))

/-- A round of `try_unfold(seed, step).try_collect()`, the items so far kept newest first. -/
def unfoldStep (state : σ × List α) : Except ε (List α ⊕ (σ × List α)) :=
  match step state.1 with
  | .error error => .error error
  | .ok none => .ok (.inl state.2.reverse)
  | .ok (some (item, next)) => .ok (.inr (next, item :: state.2))

/-- `try_unfold(seed, step).try_collect()`, for at most `fuel` items. -/
def unfold (fuel : Nat) (seed : σ) : Option (Except ε (List α)) :=
  run (unfoldStep step) fuel (seed, [])

variable {step}

/-- An unfold whose seeds stay in a set that `step` always continues from never ends. -/
theorem unfold_eq_none_of_closed (inside : σ → Prop)
    (closed : ∀ seed, inside seed →
      ∃ item next, step seed = .ok (some (item, next)) ∧ inside next)
    (fuel : Nat) {seed : σ} (within : inside seed) : unfold step fuel seed = none := by
  have closed' : Closed (fun state : σ × List α => inside state.1) (unfoldStep step) := by
    rintro ⟨seed, items⟩ within
    obtain ⟨item, next, yields, within'⟩ := closed seed within
    exact ⟨(next, item :: items), by simp [unfoldStep, yields], within'⟩
  exact run_eq_none_of_closed closed' fuel within

end Unfold

end Loop
