import Mathlib

/-!
# Epochs of a history

A history is a list of events, oldest first.  `since reset history` is its current epoch: the
events after the last one that `reset` marks.  Appending to a history extends the current epoch,
or, at a marked event, starts a new and empty one.
-/

namespace History

variable {ε : Type*} (reset : ε → Bool)

/-- The events after the last one that `reset` marks. -/
def since (history : List ε) : List ε :=
  history.foldl (fun epoch event => if reset event then [] else epoch ++ [event]) []

@[simp]
theorem since_nil : since reset ([] : List ε) = [] := rfl

theorem since_concat (history : List ε) (event : ε) :
    since reset (history ++ [event]) =
      if reset event then [] else since reset history ++ [event] := by
  simp [since, List.foldl_append]

@[simp]
theorem since_concat_of_reset {history : List ε} {event : ε} (marked : reset event = true) :
    since reset (history ++ [event]) = [] := by
  simp [since_concat, marked]

@[simp]
theorem since_concat_of_not_reset {history : List ε} {event : ε} (unmarked : reset event = false) :
    since reset (history ++ [event]) = since reset history ++ [event] := by
  simp [since_concat, unmarked]

/-- No event of the current epoch is marked. -/
theorem not_reset_of_mem_since {history : List ε} {event : ε} (member : event ∈ since reset history) :
    reset event = false := by
  induction history using List.reverseRecOn with
  | nil => cases member
  | append_singleton history last ih =>
      rw [since_concat] at member
      split_ifs at member with marked
      · cases member
      · rcases List.mem_append.mp member with earlier | here
        · exact ih earlier
        · rw [List.mem_singleton.mp here]
          simpa using marked

end History
