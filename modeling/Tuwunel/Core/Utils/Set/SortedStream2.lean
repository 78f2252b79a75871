import Mathlib
import Tuwunel.Library.PollStream

/-!
# Sorted stream merges

`intersection_sorted_stream2` and `difference_sorted_stream2` merge two ascending streams in one
hand-written `poll_next` each.  Each side keeps its peeked head across polls (`poll_head` fills it
only when the input is ready), and the `loop` drops the smaller head or yields.  A round of that
loop either returns a poll or goes round again with one head dropped (`intersectionRound`,
`differenceRound`), so `poll_next` is the loop run to its return.

What the machines compute is the sorted merge of the items their inputs still hold, counting the
peeked heads (`interItems`, `diffItems`): each round keeps "what was yielded, then the merge of
what is left" unchanged, so draining the stream gives the merge of the inputs' items, whatever
the pattern of `Pending` results (`drain_intersection`, `drain_difference`).  For ascending
inputs the merges are the multiset intersection and difference (`count_interItems`,
`count_diffItems`), in ascending order.
-/

namespace Tuwunel
namespace Utils

open PollStream

variable {α : Type*}

/-! ## The merges of two item lists -/

section Merges

variable [LinearOrder α]

/-- The sorted intersection: drop the smaller head, keep one of two equal heads. -/
def interItems : List α → List α → List α
  | [], _ => []
  | _ :: _, [] => []
  | x :: xs, y :: ys =>
      match compare x y with
      | .lt => interItems xs (y :: ys)
      | .gt => interItems (x :: xs) ys
      | .eq => x :: interItems xs ys
termination_by xs ys => xs.length + ys.length

/-- The sorted difference: keep a smaller head of the first list, drop one of two equal heads. -/
def diffItems : List α → List α → List α
  | [], _ => []
  | x :: xs, [] => x :: xs
  | x :: xs, y :: ys =>
      match compare x y with
      | .lt => x :: diffItems xs (y :: ys)
      | .gt => diffItems (x :: xs) ys
      | .eq => diffItems xs ys
termination_by xs ys => xs.length + ys.length

theorem interItems_lt {x y : α} (xs ys : List α) (less : x < y) :
    interItems (x :: xs) (y :: ys) = interItems xs (y :: ys) := by
  rw [interItems, compare_lt_iff_lt.mpr less]

theorem interItems_gt {x y : α} (xs ys : List α) (greater : y < x) :
    interItems (x :: xs) (y :: ys) = interItems (x :: xs) ys := by
  rw [interItems, compare_gt_iff_gt.mpr greater]

theorem interItems_eq (x : α) (xs ys : List α) : interItems (x :: xs) (x :: ys) = x :: interItems xs ys := by
  rw [interItems, compare_eq_iff_eq.mpr rfl]

@[simp]
theorem interItems_nil_right (xs : List α) : interItems xs [] = [] := by
  cases xs <;> rw [interItems]

theorem diffItems_lt {x y : α} (xs ys : List α) (less : x < y) :
    diffItems (x :: xs) (y :: ys) = x :: diffItems xs (y :: ys) := by
  rw [diffItems, compare_lt_iff_lt.mpr less]

theorem diffItems_gt {x y : α} (xs ys : List α) (greater : y < x) :
    diffItems (x :: xs) (y :: ys) = diffItems (x :: xs) ys := by
  rw [diffItems, compare_gt_iff_gt.mpr greater]

theorem diffItems_eq (x : α) (xs ys : List α) : diffItems (x :: xs) (x :: ys) = diffItems xs ys := by
  rw [diffItems, compare_eq_iff_eq.mpr rfl]

@[simp]
theorem diffItems_nil_right (xs : List α) : diffItems xs [] = xs := by
  cases xs <;> rw [diffItems]

/-- Three ways two heads compare, each with the merge step it takes. -/
theorem heads_cases (x y : α) : x < y ∨ y < x ∨ x = y := by
  rcases lt_trichotomy x y with less | same | greater
  · exact .inl less
  · exact .inr (.inr same)
  · exact .inr (.inl greater)

/-- Below the head of an ascending list a value does not occur in it. -/
theorem count_eq_zero_of_lt_head {v y : α} {ys : List α} (sorted : (y :: ys).Pairwise (· ≤ ·))
    (below : v < y) : (y :: ys).count v = 0 := by
  rw [List.count_eq_zero]
  intro held
  rcases List.mem_cons.mp held with same | later
  · exact absurd same (ne_of_lt below)
  · exact absurd (List.rel_of_pairwise_cons sorted later) (not_le_of_gt (below.trans_le le_rfl))

theorem interItems_sublist_left : ∀ xs ys : List α, (interItems xs ys).Sublist xs
  | [], _ => by simp only [interItems, List.Sublist.refl]
  | _ :: _, [] => by rw [interItems]; exact List.nil_sublist _
  | x :: xs, y :: ys => by
      rcases heads_cases x y with less | greater | rfl
      · rw [interItems_lt xs ys less]
        exact (interItems_sublist_left xs (y :: ys)).cons x
      · rw [interItems_gt xs ys greater]
        exact interItems_sublist_left (x :: xs) ys
      · rw [interItems_eq]
        exact (interItems_sublist_left xs ys).cons_cons x
termination_by xs ys => xs.length + ys.length

theorem diffItems_sublist_left : ∀ xs ys : List α, (diffItems xs ys).Sublist xs
  | [], _ => by simp only [diffItems, List.Sublist.refl]
  | xs, [] => by simp only [diffItems_nil_right, List.Sublist.refl]
  | x :: xs, y :: ys => by
      rcases heads_cases x y with less | greater | rfl
      · rw [diffItems_lt xs ys less]
        exact (diffItems_sublist_left xs (y :: ys)).cons_cons x
      · rw [diffItems_gt xs ys greater]
        exact diffItems_sublist_left (x :: xs) ys
      · rw [diffItems_eq]
        exact (diffItems_sublist_left xs ys).cons x
termination_by xs ys => xs.length + ys.length

/-- For ascending lists the intersection keeps each value as often as both lists hold it. -/
theorem count_interItems (v : α) :
    ∀ xs ys : List α, xs.Pairwise (· ≤ ·) → ys.Pairwise (· ≤ ·) →
      (interItems xs ys).count v = min (xs.count v) (ys.count v)
  | [], ys, _, _ => by rw [interItems]; simp
  | _ :: _, [], _, _ => by rw [interItems]; simp
  | x :: xs, y :: ys, sortedX, sortedY => by
      rcases heads_cases x y with less | greater | rfl
      · -- the smaller head `x` is dropped: it does not occur in `y :: ys`
        rw [interItems_lt xs ys less, count_interItems v xs (y :: ys) sortedX.of_cons sortedY]
        by_cases here : x = v
        · subst here
          rw [count_eq_zero_of_lt_head sortedY less]
          simp
        · rw [List.count_cons_of_ne here]
      · rw [interItems_gt xs ys greater, count_interItems v (x :: xs) ys sortedX sortedY.of_cons]
        by_cases here : y = v
        · subst here
          rw [count_eq_zero_of_lt_head sortedX greater]
          simp
        · rw [List.count_cons_of_ne here]
      · rw [interItems_eq, List.count_cons, List.count_cons, List.count_cons,
          count_interItems v xs ys sortedX.of_cons sortedY.of_cons]
        split <;> omega
termination_by xs ys => xs.length + ys.length

/-- For ascending lists the difference keeps each value as often as the first list holds it
beyond the second. -/
theorem count_diffItems (v : α) :
    ∀ xs ys : List α, xs.Pairwise (· ≤ ·) → ys.Pairwise (· ≤ ·) →
      (diffItems xs ys).count v = xs.count v - ys.count v
  | [], ys, _, _ => by rw [diffItems]; simp
  | xs, [], _, _ => by rw [diffItems_nil_right]; simp
  | x :: xs, y :: ys, sortedX, sortedY => by
      rcases heads_cases x y with less | greater | rfl
      · rw [diffItems_lt xs ys less]
        by_cases here : x = v
        · -- the kept head `x` does not occur in `y :: ys`
          subst here
          rw [List.count_cons_self, List.count_cons_self,
            count_diffItems x xs (y :: ys) sortedX.of_cons sortedY,
            count_eq_zero_of_lt_head sortedY less]
          rfl
        · rw [List.count_cons_of_ne here, List.count_cons_of_ne here,
            count_diffItems v xs (y :: ys) sortedX.of_cons sortedY]
      · -- the smaller head `y` is dropped: it does not occur in `x :: xs`
        rw [diffItems_gt xs ys greater, count_diffItems v (x :: xs) ys sortedX sortedY.of_cons]
        by_cases here : y = v
        · subst here
          rw [count_eq_zero_of_lt_head sortedX greater]
          simp
        · rw [List.count_cons_of_ne here]
      · rw [diffItems_eq, List.count_cons, List.count_cons,
          count_diffItems v xs ys sortedX.of_cons sortedY.of_cons, Nat.add_sub_add_right]
termination_by xs ys => xs.length + ys.length

end Merges

/-! ## `poll_head` -/

/-- What `poll_head` leaves: its poll, the input's remaining polls and the peeked head. -/
structure Head (α : Type*) where
  poll : Poll α
  input : List (Step α)
  peeked : Option α

/-- `poll_head`: a buffered head is returned without polling; otherwise the input is polled, and
a ready item is buffered. -/
def pollHead (input : List (Step α)) (peeked : Option α) : Head α :=
  match peeked with
  | some head => ⟨.ready (some head), input, some head⟩
  | none =>
      match input with
      | [] => ⟨.ready none, [], none⟩
      | .pending :: rest => ⟨.pending, rest, none⟩
      | .ready item :: rest => ⟨.ready (some item), rest, some item⟩

/-- The items still to come from a side: its peeked head, then what its input will yield. -/
def restOf (input : List (Step α)) (peeked : Option α) : List α := peeked.toList ++ items input

/-- The measure of a side: its remaining polls and its peeked head. -/
def sideSize (input : List (Step α)) (peeked : Option α) : Nat := input.length + peeked.toList.length

/-- `poll_head` keeps what a side has still to yield. -/
theorem restOf_pollHead (input : List (Step α)) (peeked : Option α) :
    restOf (pollHead input peeked).input (pollHead input peeked).peeked = restOf input peeked := by
  rcases peeked with _ | head
  · rcases input with _ | ⟨_ | item, rest⟩ <;> rfl
  · rfl

theorem peeked_of_pollHead {input : List (Step α)} {peeked : Option α} {head : α}
    (ready : (pollHead input peeked).poll = .ready (some head)) :
    (pollHead input peeked).peeked = some head := by
  rcases peeked with _ | buffered
  · rcases input with _ | ⟨_ | item, rest⟩
    · cases ready
    · cases ready
    · cases ready
      rfl
  · cases ready
    rfl

/-- `poll_head` ends only on a side with nothing left, and leaves nothing. -/
theorem restOf_of_pollHead_ended {input : List (Step α)} {peeked : Option α}
    (ended : (pollHead input peeked).poll = .ready none) :
    restOf input peeked = [] ∧
      (pollHead input peeked).input = [] ∧ (pollHead input peeked).peeked = none := by
  rcases peeked with _ | buffered
  · rcases input with _ | ⟨_ | item, rest⟩
    · exact ⟨rfl, rfl, rfl⟩
    · cases ended
    · cases ended
  · cases ended

theorem sideSize_pollHead_le (input : List (Step α)) (peeked : Option α) :
    sideSize (pollHead input peeked).input (pollHead input peeked).peeked ≤ sideSize input peeked := by
  rcases peeked with _ | head
  · rcases input with _ | ⟨_ | item, rest⟩ <;> simp [pollHead, sideSize]
  · exact Nat.le_refl _

/-- A `Pending` from `poll_head` used up one poll of the input. -/
theorem sideSize_pollHead_lt {input : List (Step α)} {peeked : Option α}
    (pending : (pollHead input peeked).poll = .pending) :
    sideSize (pollHead input peeked).input (pollHead input peeked).peeked < sideSize input peeked := by
  rcases peeked with _ | head
  · rcases input with _ | ⟨_ | item, rest⟩
    · cases pending
    · simp [pollHead, sideSize]
    · cases pending
  · cases pending

/-! ## The merge state machines -/

/-- The fields of `IntersectionSortedStream2` and `DifferenceSortedStream2`: each fused input, by
the polls it has left, and each peeked head. -/
structure Merge (α : Type*) where
  a : List (Step α)
  b : List (Step α)
  peekedA : Option α
  peekedB : Option α

/-- The state `intersection_sorted_stream2` and `difference_sorted_stream2` start from. -/
def Merge.fresh (a b : List (Step α)) : Merge α := ⟨a, b, none, none⟩

def Merge.size (merge : Merge α) : Nat := sideSize merge.a merge.peekedA + sideSize merge.b merge.peekedB

/-- The state after both sides' `poll_head`. -/
def Merge.polled (merge : Merge α) : Merge α :=
  ⟨(pollHead merge.a merge.peekedA).input, (pollHead merge.b merge.peekedB).input,
    (pollHead merge.a merge.peekedA).peeked, (pollHead merge.b merge.peekedB).peeked⟩

/-- The state after side `a`'s `poll_head` only. -/
def Merge.polledA (merge : Merge α) : Merge α :=
  { merge with a := (pollHead merge.a merge.peekedA).input,
               peekedA := (pollHead merge.a merge.peekedA).peeked }

theorem Merge.size_polled_le (merge : Merge α) : merge.polled.size ≤ merge.size :=
  Nat.add_le_add (sideSize_pollHead_le merge.a merge.peekedA) (sideSize_pollHead_le merge.b merge.peekedB)

theorem Merge.size_polledA_le (merge : Merge α) : merge.polledA.size ≤ merge.size :=
  Nat.add_le_add_right (sideSize_pollHead_le merge.a merge.peekedA) (sideSize merge.b merge.peekedB)

/-- What side `a` has still to yield. -/
def Merge.restA (merge : Merge α) : List α := restOf merge.a merge.peekedA

/-- What side `b` has still to yield. -/
def Merge.restB (merge : Merge α) : List α := restOf merge.b merge.peekedB

@[simp]
theorem Merge.restA_fresh (a b : List (Step α)) : (Merge.fresh a b).restA = items a := rfl

@[simp]
theorem Merge.restB_fresh (a b : List (Step α)) : (Merge.fresh a b).restB = items b := rfl

@[simp]
theorem Merge.restA_polled (merge : Merge α) : merge.polled.restA = merge.restA :=
  restOf_pollHead merge.a merge.peekedA

@[simp]
theorem Merge.restB_polled (merge : Merge α) : merge.polled.restB = merge.restB :=
  restOf_pollHead merge.b merge.peekedB

@[simp]
theorem Merge.restA_polledA (merge : Merge α) : merge.polledA.restA = merge.restA :=
  restOf_pollHead merge.a merge.peekedA

@[simp]
theorem Merge.restB_polledA (merge : Merge α) : merge.polledA.restB = merge.restB := rfl

/-- A side whose `poll_head` is ready has its head buffered in front of what its input yields. -/
theorem restOf_of_ready {input : List (Step α)} {peeked : Option α} {head : α}
    (ready : (pollHead input peeked).poll = .ready (some head)) :
    restOf input peeked = head :: items (pollHead input peeked).input := by
  rw [← restOf_pollHead, restOf, peeked_of_pollHead ready]
  rfl

theorem Merge.size_polled_lt_of_pendingB (merge : Merge α)
    (pending : (pollHead merge.b merge.peekedB).poll = .pending) : merge.polled.size < merge.size :=
  Nat.add_lt_add_of_le_of_lt (sideSize_pollHead_le merge.a merge.peekedA) (sideSize_pollHead_lt pending)

/-- Dropping a buffered head of `a` after polling lowers the measure. -/
theorem Merge.size_dropA_lt (merge : Merge α) {head : α}
    (ready : (pollHead merge.a merge.peekedA).poll = .ready (some head)) :
    ({ merge.polled with peekedA := none } : Merge α).size < merge.size := by
  have polled := merge.size_polled_le
  have buffered := peeked_of_pollHead ready
  simp only [Merge.size, Merge.polled, sideSize, buffered] at polled ⊢
  simp at polled ⊢
  omega

/-- Dropping a buffered head of `b` after polling lowers the measure. -/
theorem Merge.size_dropB_lt (merge : Merge α) {head : α}
    (ready : (pollHead merge.b merge.peekedB).poll = .ready (some head)) :
    ({ merge.polled with peekedB := none } : Merge α).size < merge.size := by
  have polled := merge.size_polled_le
  have buffered := peeked_of_pollHead ready
  simp only [Merge.size, Merge.polled, sideSize, buffered] at polled ⊢
  simp at polled ⊢
  omega

@[simp]
theorem Merge.restA_dropBoth (merge : Merge α) :
    ({ merge with peekedA := none, peekedB := none } : Merge α).restA = items merge.a := rfl

@[simp]
theorem Merge.restB_dropBoth (merge : Merge α) :
    ({ merge with peekedA := none, peekedB := none } : Merge α).restB = items merge.b := rfl

theorem Merge.size_polledA_lt_of_pending (merge : Merge α)
    (pending : (pollHead merge.a merge.peekedA).poll = .pending) : merge.polledA.size < merge.size :=
  Nat.add_lt_add_right (sideSize_pollHead_lt pending) _

/-- Dropping both buffered heads after polling lowers the measure. -/
theorem Merge.size_dropBoth_lt (merge : Merge α) {headA : α}
    (ready : (pollHead merge.a merge.peekedA).poll = .ready (some headA)) :
    ({ merge.polled with peekedA := none, peekedB := none } : Merge α).size < merge.size := by
  have polled := merge.size_polled_le
  have buffered := peeked_of_pollHead ready
  simp only [Merge.size, Merge.polled, sideSize, buffered] at polled ⊢
  simp at polled ⊢
  omega

@[simp]
theorem Merge.restA_dropB (merge : Merge α) : ({ merge with peekedB := none } : Merge α).restA = merge.restA :=
  rfl

@[simp]
theorem Merge.restB_dropB (merge : Merge α) : ({ merge with peekedB := none } : Merge α).restB = items merge.b :=
  rfl

@[simp]
theorem Merge.restA_dropA (merge : Merge α) : ({ merge with peekedA := none } : Merge α).restA = items merge.a :=
  rfl

@[simp]
theorem Merge.restB_dropA (merge : Merge α) : ({ merge with peekedA := none } : Merge α).restB = merge.restB :=
  rfl

section Rounds

variable [LinearOrder α]

/-- One round of the `loop` in `IntersectionSortedStream2::poll_next`: a poll to return, or the
state to go round again with.  `ready_some!` returns on `Pending` and on an ended side. -/
def intersectionRound (merge : Merge α) : (Poll α × Merge α) ⊕ Merge α :=
  match (pollHead merge.a merge.peekedA).poll with
  | .pending => .inl (.pending, merge.polledA)
  | .ready none => .inl (.ready none, merge.polledA)
  | .ready (some x) =>
      match (pollHead merge.b merge.peekedB).poll with
      | .pending => .inl (.pending, merge.polled)
      | .ready none => .inl (.ready none, merge.polled)
      | .ready (some y) =>
          match compare x y with
          | .gt => .inr { merge.polled with peekedB := none }
          | .lt => .inr { merge.polled with peekedA := none }
          | .eq => .inl (.ready merge.polled.peekedA,
              { merge.polled with peekedA := none, peekedB := none })

/-- One round of the `loop` in `DifferenceSortedStream2::poll_next`.  An ended `b` returns `a`'s
head, and so does a smaller `a` head; equal heads are both dropped. -/
def differenceRound (merge : Merge α) : (Poll α × Merge α) ⊕ Merge α :=
  match (pollHead merge.a merge.peekedA).poll with
  | .pending => .inl (.pending, merge.polledA)
  | .ready none => .inl (.ready none, merge.polledA)
  | .ready (some x) =>
      match (pollHead merge.b merge.peekedB).poll with
      | .pending => .inl (.pending, merge.polled)
      | .ready none => .inl (.ready merge.polled.peekedA, { merge.polled with peekedA := none })
      | .ready (some y) =>
          match compare x y with
          | .lt => .inl (.ready merge.polled.peekedA, { merge.polled with peekedA := none })
          | .gt => .inr { merge.polled with peekedB := none }
          | .eq => .inr { merge.polled with peekedA := none, peekedB := none }

/-- A round of the intersection that goes round again dropped the smaller of two heads. -/
theorem intersectionRound_again {merge next : Merge α} (again : intersectionRound merge = .inr next) :
    interItems merge.restA merge.restB = interItems next.restA next.restB ∧
      next.size < merge.size := by
  unfold intersectionRound at again
  split at again
  · cases again
  · cases again
  · rename_i x readyA
    split at again
    · cases again
    · cases again
    · rename_i y readyB
      have restA : merge.restA = x :: items merge.polled.a := restOf_of_ready readyA
      have restB : merge.restB = y :: items merge.polled.b := restOf_of_ready readyB
      split at again
      · -- `a`'s head is greater: `b`'s is dropped
        rename_i greater
        cases again
        refine ⟨?_, merge.size_dropB_lt readyB⟩
        rw [Merge.restA_dropB, Merge.restB_dropB, Merge.restA_polled, restA, restB,
          interItems_gt _ _ (compare_gt_iff_gt.mp greater)]
      · -- `a`'s head is smaller: it is dropped
        rename_i less
        cases again
        refine ⟨?_, merge.size_dropA_lt readyA⟩
        rw [Merge.restA_dropA, Merge.restB_dropA, Merge.restB_polled, restA, restB,
          interItems_lt _ _ (compare_lt_iff_lt.mp less)]
      · cases again

/-- A round of the intersection that returns: `Pending` keeps the view, an ended side ends it,
and equal heads yield one of them. -/
theorem intersectionRound_returns {merge next : Merge α} {poll : Poll α}
    (returned : intersectionRound merge = .inl (poll, next)) :
    (poll.ended → interItems merge.restA merge.restB = []) ∧
      (poll.ended = false → interItems merge.restA merge.restB =
        poll.out ++ interItems next.restA next.restB ∧ next.size < merge.size) := by
  unfold intersectionRound at returned
  split at returned
  · rename_i pendingA
    cases returned
    exact ⟨nofun, fun _ => ⟨by simp [Poll.out], merge.size_polledA_lt_of_pending pendingA⟩⟩
  · rename_i endedA
    cases returned
    refine ⟨fun _ => ?_, nofun⟩
    rw [Merge.restA, (restOf_of_pollHead_ended endedA).1, interItems]
  · rename_i x readyA
    split at returned
    · rename_i pendingB
      cases returned
      exact ⟨nofun, fun _ => ⟨by simp [Poll.out], merge.size_polled_lt_of_pendingB pendingB⟩⟩
    · rename_i endedB
      cases returned
      refine ⟨fun _ => ?_, nofun⟩
      rw [Merge.restB, (restOf_of_pollHead_ended endedB).1, interItems_nil_right]
    · rename_i y readyB
      have restA : merge.restA = x :: items merge.polled.a := restOf_of_ready readyA
      have restB : merge.restB = y :: items merge.polled.b := restOf_of_ready readyB
      split at returned
      · cases returned
      · cases returned
      · -- equal heads: `a`'s is yielded and both are dropped
        rename_i same
        cases returned
        have yielded : merge.polled.peekedA = some x := peeked_of_pollHead readyA
        obtain rfl : x = y := compare_eq_iff_eq.mp same
        refine ⟨by simp [yielded, Poll.ended], fun _ => ⟨?_, merge.size_dropBoth_lt readyA⟩⟩
        rw [yielded, restA, restB, interItems_eq, Merge.restA_dropBoth, Merge.restB_dropBoth]
        rfl

/-- A round of the difference that goes round again dropped a smaller `b` head, or two equal
heads. -/
theorem differenceRound_again {merge next : Merge α} (again : differenceRound merge = .inr next) :
    diffItems merge.restA merge.restB = diffItems next.restA next.restB ∧
      next.size < merge.size := by
  unfold differenceRound at again
  split at again
  · cases again
  · cases again
  · rename_i x readyA
    split at again
    · cases again
    · cases again
    · rename_i y readyB
      have restA : merge.restA = x :: items merge.polled.a := restOf_of_ready readyA
      have restB : merge.restB = y :: items merge.polled.b := restOf_of_ready readyB
      split at again
      · cases again
      · -- `b`'s head is smaller: it is dropped
        rename_i greater
        cases again
        refine ⟨?_, merge.size_dropB_lt readyB⟩
        rw [Merge.restA_dropB, Merge.restB_dropB, Merge.restA_polled, restA, restB,
          diffItems_gt _ _ (compare_gt_iff_gt.mp greater)]
      · -- equal heads cancel
        rename_i same
        cases again
        obtain rfl : x = y := compare_eq_iff_eq.mp same
        refine ⟨?_, merge.size_dropBoth_lt readyA⟩
        rw [restA, restB, diffItems_eq, Merge.restA_dropBoth, Merge.restB_dropBoth]

/-- A round of the difference that returns: `Pending` keeps the view, an ended `a` ends it, and
an `a` head with no smaller or equal `b` head left is yielded. -/
theorem differenceRound_returns {merge next : Merge α} {poll : Poll α}
    (returned : differenceRound merge = .inl (poll, next)) :
    (poll.ended → diffItems merge.restA merge.restB = []) ∧
      (poll.ended = false → diffItems merge.restA merge.restB =
        poll.out ++ diffItems next.restA next.restB ∧ next.size < merge.size) := by
  unfold differenceRound at returned
  split at returned
  · rename_i pendingA
    cases returned
    exact ⟨nofun, fun _ => ⟨by simp [Poll.out], merge.size_polledA_lt_of_pending pendingA⟩⟩
  · rename_i endedA
    cases returned
    refine ⟨fun _ => ?_, nofun⟩
    rw [Merge.restA, (restOf_of_pollHead_ended endedA).1, diffItems]
  · rename_i x readyA
    have restA : merge.restA = x :: items merge.polled.a := restOf_of_ready readyA
    have yielded : merge.polled.peekedA = some x := peeked_of_pollHead readyA
    split at returned
    · rename_i pendingB
      cases returned
      exact ⟨nofun, fun _ => ⟨by simp [Poll.out], merge.size_polled_lt_of_pendingB pendingB⟩⟩
    · -- `b` has ended: `a`'s head is yielded
      rename_i endedB
      cases returned
      have restB : merge.restB = [] := (restOf_of_pollHead_ended endedB).1
      refine ⟨by simp [yielded, Poll.ended], fun _ => ⟨?_, merge.size_dropA_lt readyA⟩⟩
      rw [yielded, Merge.restA_dropA, Merge.restB_dropA, Merge.restB_polled, restA, restB,
        diffItems_nil_right, diffItems_nil_right]
      rfl
    · rename_i y readyB
      have restB : merge.restB = y :: items merge.polled.b := restOf_of_ready readyB
      split at returned
      · -- `a`'s head is smaller: it is yielded
        rename_i less
        cases returned
        refine ⟨by simp [yielded, Poll.ended], fun _ => ⟨?_, merge.size_dropA_lt readyA⟩⟩
        rw [yielded, Merge.restA_dropA, Merge.restB_dropA, Merge.restB_polled, restA, restB,
          diffItems_lt _ _ (compare_lt_iff_lt.mp less)]
        rfl
      · cases returned
      · cases returned

end Rounds

/-! ## The streams -/

section Streams

variable [LinearOrder α]

/-- `IntersectionSortedStream2::poll_next` as its loop of rounds. -/
def intersectionRounds : Rounds (Merge α) α where
  round := intersectionRound
  size := Merge.size
  again _ _ again := (intersectionRound_again again).2
  returns _ _ _ returned going := ((intersectionRound_returns returned).2 going).2

/-- `DifferenceSortedStream2::poll_next` as its loop of rounds. -/
def differenceRounds : Rounds (Merge α) α where
  round := differenceRound
  size := Merge.size
  again _ _ again := (differenceRound_again again).2
  returns _ _ _ returned going := ((differenceRound_returns returned).2 going).2

/-- The intersection stream, drained from any state, yields the intersection of what the two
sides have still to yield. -/
theorem drain_intersection (merge : Merge α) :
    drain intersectionRounds.machine merge = interItems merge.restA merge.restB :=
  intersectionRounds.drain_eq (fun merge => interItems merge.restA merge.restB)
    (fun _ _ again => (intersectionRound_again again).1)
    (fun _ _ _ returned ended => (intersectionRound_returns returned).1 ended)
    (fun _ _ _ returned going => ((intersectionRound_returns returned).2 going).1) merge

/-- The difference stream, drained from any state, yields the difference of what the two sides
have still to yield. -/
theorem drain_difference (merge : Merge α) :
    drain differenceRounds.machine merge = diffItems merge.restA merge.restB :=
  differenceRounds.drain_eq (fun merge => diffItems merge.restA merge.restB)
    (fun _ _ again => (differenceRound_again again).1)
    (fun _ _ _ returned ended => (differenceRound_returns returned).1 ended)
    (fun _ _ _ returned going => ((differenceRound_returns returned).2 going).1) merge

/-- `intersection_sorted_stream2` over ascending inputs, whatever their `Pending` results: it ends,
its items ascend, and each value comes out as often as both inputs hold it. -/
theorem intersection_stream_counts (a b : List (Step α)) (sortedA : (items a).Pairwise (· ≤ ·))
    (sortedB : (items b).Pairwise (· ≤ ·)) :
    (drain intersectionRounds.machine (Merge.fresh a b)).Pairwise (· ≤ ·) ∧
      ∀ v, (drain intersectionRounds.machine (Merge.fresh a b)).count v =
        min ((items a).count v) ((items b).count v) := by
  rw [drain_intersection, Merge.restA_fresh, Merge.restB_fresh]
  exact ⟨sortedA.sublist (interItems_sublist_left _ _),
    fun v => count_interItems v _ _ sortedA sortedB⟩

theorem intersection_stream_counts_twos :
    (items [.ready 1, .pending, .ready 2, .ready 2]).Pairwise (· ≤ ·) ∧
      (items [.pending, .ready 2, .pending, .ready 3]).Pairwise (· ≤ ·) ∧
      (drain intersectionRounds.machine
          (Merge.fresh [.ready 1, .pending, .ready 2, .ready 2] [.pending, .ready 2, .pending, .ready 3])).Pairwise
        (· ≤ ·) ∧
      ∀ v, (drain intersectionRounds.machine
          (Merge.fresh [.ready 1, .pending, .ready 2, .ready 2] [.pending, .ready 2, .pending, .ready 3])).count v =
        min ((items [.ready 1, .pending, .ready 2, .ready 2]).count v)
          ((items [.pending, .ready 2, .pending, .ready (3 : Nat)]).count v) :=
  ⟨by decide, by decide, intersection_stream_counts _ _ (by decide) (by decide)⟩

/-- `difference_sorted_stream2` over ascending inputs, whatever their `Pending` results: it ends,
its items ascend, and each value comes out as often as `a` holds it beyond `b`. -/
theorem difference_stream_counts (a b : List (Step α)) (sortedA : (items a).Pairwise (· ≤ ·))
    (sortedB : (items b).Pairwise (· ≤ ·)) :
    (drain differenceRounds.machine (Merge.fresh a b)).Pairwise (· ≤ ·) ∧
      ∀ v, (drain differenceRounds.machine (Merge.fresh a b)).count v =
        (items a).count v - (items b).count v := by
  rw [drain_difference, Merge.restA_fresh, Merge.restB_fresh]
  exact ⟨sortedA.sublist (diffItems_sublist_left _ _),
    fun v => count_diffItems v _ _ sortedA sortedB⟩

theorem difference_stream_counts_twos :
    (items [.ready 1, .pending, .ready 2, .ready 2]).Pairwise (· ≤ ·) ∧
      (items [.pending, .ready 2, .pending, .ready 3]).Pairwise (· ≤ ·) ∧
      (drain differenceRounds.machine
          (Merge.fresh [.ready 1, .pending, .ready 2, .ready 2] [.pending, .ready 2, .pending, .ready 3])).Pairwise
        (· ≤ ·) ∧
      ∀ v, (drain differenceRounds.machine
          (Merge.fresh [.ready 1, .pending, .ready 2, .ready 2] [.pending, .ready 2, .pending, .ready 3])).count v =
        (items [.ready 1, .pending, .ready 2, .ready 2]).count v -
          (items [.pending, .ready 2, .pending, .ready (3 : Nat)]).count v :=
  ⟨by decide, by decide, difference_stream_counts _ _ (by decide) (by decide)⟩

end Streams

end Utils
end Tuwunel
