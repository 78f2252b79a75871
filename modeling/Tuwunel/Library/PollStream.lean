import Mathlib

/-!
# Polled streams

A stream is polled: each poll returns `Pending`, an item, or `Ready(None)` once it has ended.  An
input stream is modelled by the results of its successive polls while it has items, a list of
`Step`s; once they run out it returns `Ready(None)` at every poll, as a fused stream does.  Any
pattern of `Pending` results is such a list.

A stream built on inputs is a state machine with a `poll_next`.  `drain` polls it until it ends and
collects the items, given a measure that every poll not ending the stream lowers, so the stream
does end.  `drain_eq` is the refinement rule: if a view of the state lists the items still to come,
and each poll takes its item off the front of the view, then the drained items are the view.
-/

namespace PollStream

variable {α σ : Type*}

/-- A poll of an input that has not ended: `Pending`, or `Ready(Some(item))`. -/
inductive Step (α : Type*)
  | pending
  | ready (item : α)
  deriving DecidableEq, Repr

/-- `Poll<Option<α>>`. -/
inductive Poll (α : Type*)
  | pending
  | ready (item : Option α)
  deriving DecidableEq, Repr

/-- The items an input yields, in order. -/
def items : List (Step α) → List α
  | [] => []
  | .pending :: rest => items rest
  | .ready item :: rest => item :: items rest

@[simp]
theorem items_nil : items ([] : List (Step α)) = [] := rfl

@[simp]
theorem items_pending (rest : List (Step α)) : items (.pending :: rest) = items rest := rfl

@[simp]
theorem items_ready (item : α) (rest : List (Step α)) :
    items (.ready item :: rest) = item :: items rest := rfl

/-- An input that is ready at every poll yields its values. -/
@[simp]
theorem items_map_ready (values : List α) : items (values.map .ready) = values := by
  induction values with
  | nil => rfl
  | cons value values ih => rw [List.map_cons, items_ready, ih]

/-- The items a poll hands out: one for `Ready(Some(item))`, none otherwise. -/
def Poll.out : Poll α → List α
  | .ready (some item) => [item]
  | _ => []

/-- Whether a poll says the stream has ended. -/
def Poll.ended : Poll α → Bool
  | .ready none => true
  | _ => false

/-- A stream whose polls are `pollNext`, with a measure every poll that does not end it lowers. -/
structure Machine (σ α : Type*) where
  pollNext : σ → Poll α × σ
  size : σ → Nat
  decreases : ∀ state, (pollNext state).1.ended = false →
    size (pollNext state).2 < size state

/-- Poll until the stream ends, collecting its items. -/
def drain (machine : Machine σ α) (state : σ) : List α :=
  if _ended : (machine.pollNext state).1.ended then []
  else (machine.pollNext state).1.out ++ drain machine (machine.pollNext state).2
termination_by machine.size state
decreasing_by exact machine.decreases state (Bool.eq_false_iff.mpr _ended)

/-- A view of the states that each poll takes its item off, and that is empty where the stream
ends, is what the stream yields. -/
theorem drain_eq (machine : Machine σ α) (view : σ → List α)
    (ends : ∀ state, (machine.pollNext state).1.ended → view state = [])
    (takes : ∀ state, (machine.pollNext state).1.ended = false →
      view state = (machine.pollNext state).1.out ++ view (machine.pollNext state).2)
    (state : σ) : drain machine state = view state := by
  induction state using (measure machine.size).wf.induction with
  | h state ih =>
      rw [drain]
      split
      · rename_i ended
        exact (ends state ended).symm
      · rename_i going
        have going : (machine.pollNext state).1.ended = false := Bool.eq_false_iff.mpr going
        rw [ih _ (machine.decreases state going), ← takes state going]

/-! ## `poll_next` as a loop of rounds -/

/-- A `poll_next` written as a `loop`: each round returns a poll or goes round again, and the
measure drops when it goes round again and when it returns without ending the stream. -/
structure Rounds (σ α : Type*) where
  round : σ → (Poll α × σ) ⊕ σ
  size : σ → Nat
  again : ∀ state next, round state = .inr next → size next < size state
  returns : ∀ state poll next, round state = .inl (poll, next) → poll.ended = false →
    size next < size state

namespace Rounds

variable (rounds : Rounds σ α)

/-- The loop run to its return. -/
def pollNext (state : σ) : Poll α × σ :=
  match _found : rounds.round state with
  | .inl done => done
  | .inr next => pollNext next
termination_by rounds.size state
decreasing_by exact rounds.again state next _found

/-- The round from `state` goes round again at `next`. -/
def Again (state next : σ) : Prop := rounds.round state = .inr next

/-- The loop returns what a round returns, at a state its rounds go round to. -/
theorem pollNext_returns (state : σ) : ∃ reached, Relation.ReflTransGen rounds.Again state reached ∧
    rounds.round reached = .inl (rounds.pollNext state) := by
  induction state using (measure rounds.size).wf.induction with
  | h state ih =>
      rw [pollNext]
      split
      · rename_i done found
        exact ⟨state, .refl, found⟩
      · rename_i next found
        obtain ⟨reached, goes, returned⟩ := ih next (rounds.again state next found)
        exact ⟨reached, .head found goes, returned⟩

theorem size_le_of_again {state reached : σ} (goes : Relation.ReflTransGen rounds.Again state reached) :
    rounds.size reached ≤ rounds.size state := by
  induction goes with
  | refl => exact Nat.le_refl _
  | tail _ again ih => exact Nat.le_trans (Nat.le_of_lt (rounds.again _ _ again)) ih

theorem pollNext_size (state : σ) (going : (rounds.pollNext state).1.ended = false) :
    rounds.size (rounds.pollNext state).2 < rounds.size state := by
  obtain ⟨reached, goes, returned⟩ := rounds.pollNext_returns state
  exact Nat.lt_of_lt_of_le (rounds.returns reached _ _ returned going) (rounds.size_le_of_again goes)

/-- The stream the loop's polls make. -/
def machine : Machine σ α := ⟨rounds.pollNext, rounds.size, rounds.pollNext_size⟩

/-- A view that rounds going round again keep, that is empty where a round ends the stream, and
that a returned poll takes its item off, is what the stream yields. -/
theorem drain_eq (view : σ → List α)
    (kept : ∀ state next, rounds.round state = .inr next → view state = view next)
    (ends : ∀ state poll next, rounds.round state = .inl (poll, next) → poll.ended →
      view state = [])
    (takes : ∀ state poll next, rounds.round state = .inl (poll, next) → poll.ended = false →
      view state = poll.out ++ view next)
    (state : σ) : drain rounds.machine state = view state := by
  have same : ∀ {state reached}, Relation.ReflTransGen rounds.Again state reached →
      view state = view reached := by
    intro state reached goes
    induction goes with
    | refl => rfl
    | tail _ again ih => exact ih.trans (kept _ _ again)
  refine PollStream.drain_eq rounds.machine view (fun state ended => ?_) (fun state going => ?_) state
  · obtain ⟨reached, goes, returned⟩ := rounds.pollNext_returns state
    rw [same goes]
    exact ends reached _ _ returned ended
  · obtain ⟨reached, goes, returned⟩ := rounds.pollNext_returns state
    rw [same goes]
    exact takes reached _ _ returned going

end Rounds

end PollStream
