import Tuwunel.Library.SliceSearch
import Tuwunel.Library.StepRun
import Tuwunel.Core.Numbers

/-!
# The two-phase counter

`Counter` hands out sequence numbers and retires them as their permits are dropped; readers see
only the retirement frontier `current`, one below the oldest pending number.  `next` and
`Permit::drop` both run under the counter's write lock, so a concurrent execution is an
interleaving of these two atomic operations.  A `World` records the counter's state, the live
permits, and the history of the numbers handed out and of the values passed to the release
callback.

The invariant says that the pending list is exactly the list of live permits, strictly
ascending.  The frontier never passes a pending write, never moves back, and the values passed to
the release callback are monotone: all three follow from it.
-/

namespace Tuwunel
namespace TwoPhaseCounter

open SliceSearch

/-- The state behind the lock; the two callbacks are supplied by the caller of each operation. -/
structure State where
  /-- Monotonic counter; the next sequence number is one more than it. -/
  dispatched : Nat
  /-- Sequence numbers handed out and not yet retired. -/
  pending : List Nat
  deriving DecidableEq, Repr

/-- Why `dispatch` fails. -/
inductive Error
  /-- `checked!(prev + 1)` overflowed. -/
  | overflow
  /-- The commit callback returned an error. -/
  | commit
  deriving DecidableEq, Repr

namespace State

/-- `State::new`: `init` counts as retired and nothing is pending. -/
def new (init : Nat) : State := { dispatched := init, pending := [] }

/-- `retired`: one less than the oldest pending number, or `dispatched` when none is pending. -/
def retired (state : State) : Nat :=
  match state.pending.head? with
  | some val => val - 1
  | none => state.dispatched

/-- `pending_index`: the binary search for `id` in the pending list. -/
def pendingIndex (state : State) (id : Nat) : Option Nat :=
  match binarySearch state.pending id with
  | .ok index => some index
  | .error _ => none

/-- `dispatch`: persist the next number through `commit`, then record it as pending. Returns
the new state, the frontier sampled before the change, and the number. -/
def dispatch (state : State) (commit : Nat → Bool) : Except Error (State × Nat × Nat) :=
  let prev := state.dispatched
  let retired := state.retired
  if prev + 1 ≤ u64Max then
    let dispatched := prev + 1
    if commit dispatched then
      .ok ({ dispatched, pending := state.pending ++ [dispatched] }, retired, dispatched)
    else
      .error .commit
  else
    .error .overflow

/-- `retire`: the new state and the value passed to the release callback, if it is called. -/
def retire (state : State) (id : Nat) : State × Option Nat :=
  match state.pendingIndex id with
  -- not pending: logged and ignored
  | none => (state, none)
  | some index =>
      let pending := state.pending.eraseIdx index
      if index ≠ 0 then
        ({ state with pending }, none)
      else
        let release := if pending.isEmpty then state.dispatched else id
        ({ state with pending }, some release)

end State

/-- A permit: the frontier sampled when it was created, and its own sequence number. -/
structure Permit where
  /-- `retired`, computed as a courtesy under the lock. -/
  retired : Nat
  /-- The unique sequence number. -/
  id : Nat
  deriving DecidableEq, Repr

/-- `Counter::next`: the permit or the error, and the state after the call. -/
def next (state : State) (commit : Nat → Bool) : Except Error Permit × State :=
  match state.dispatch commit with
  | .ok (state', retired, id) => (.ok { retired, id }, state')
  | .error error => (.error error, state)

/-- `Counter::current`: the highest sequence number safe for reading. -/
def current (state : State) : Nat := state.retired

/-- `Counter::range`: the frontier and the dispatched value, read together. -/
def range (state : State) : Nat × Nat := (state.retired, state.dispatched)

/-- `Permit::drop`: retire the permit's number. -/
def drop (state : State) (permit : Permit) : State × Option Nat := state.retire permit.id

/-! ## Specification of the operations on an ascending pending list -/

section Spec

variable {state : State}

theorem retired_cons (dispatched head : Nat) (rest : List Nat) :
    State.retired { dispatched, pending := head :: rest } = head - 1 := rfl

theorem retired_nil (dispatched : Nat) :
    State.retired { dispatched, pending := [] } = dispatched := rfl

/-- Every pending number lies above the frontier. -/
theorem retired_lt_of_mem (ascending : Ascending state.pending)
    (positive : ∀ id ∈ state.pending, 0 < id) {id : Nat} (member : id ∈ state.pending) :
    state.retired < id := by
  obtain ⟨dispatched, pending⟩ := state
  cases pending with
  | nil => simp at member
  | cons head rest =>
      rw [retired_cons]
      have headPositive := positive head (by simp)
      rcases List.mem_cons.mp member with rfl | later
      · omega
      · have headLt := List.rel_of_pairwise_cons ascending later
        omega

theorem pendingIndex_eq_some_iff (ascending : Ascending state.pending) {id index : Nat} :
    state.pendingIndex id = some index ↔ state.pending[index]? = some id := by
  rw [← binarySearch_eq_ok_iff ascending]
  unfold State.pendingIndex
  cases binarySearch state.pending id <;> simp

/-- Retiring the oldest pending number calls the release callback. -/
theorem retire_head {dispatched head : Nat} {rest : List Nat}
    (ascending : Ascending (head :: rest)) :
    State.retire { dispatched, pending := head :: rest } head =
      ({ dispatched, pending := rest }, some (if rest = [] then dispatched else head)) := by
  have index : State.pendingIndex { dispatched, pending := head :: rest } head = some 0 :=
    (pendingIndex_eq_some_iff ascending).mpr rfl
  simp [State.retire, index, List.isEmpty_iff]

/-- Retiring any other pending number leaves the frontier where it is. -/
theorem retire_tail {dispatched head id : Nat} {rest : List Nat}
    (ascending : Ascending (head :: rest)) (member : id ∈ rest) :
    State.retire { dispatched, pending := head :: rest } id =
      ({ dispatched, pending := head :: rest.erase id }, none) := by
  obtain ⟨position, hposition, found⟩ := List.getElem_of_mem member
  have stored : (head :: rest)[position + 1]? = some id := by simp [hposition, found]
  have index : State.pendingIndex { dispatched, pending := head :: rest } id =
      some (position + 1) := (pendingIndex_eq_some_iff ascending).mpr stored
  have distinct : rest.Nodup := (List.pairwise_cons.mp ascending).2.imp ne_of_lt
  have erased : rest.eraseIdx position = rest.erase id := by
    rw [List.erase_eq_eraseIdx_of_idxOf]
    rw [← found]
    exact distinct.idxOf_getElem position hposition
  simp [State.retire, index, erased]

/-- A number that is not pending is ignored. -/
theorem retire_of_not_mem (ascending : Ascending state.pending) {id : Nat}
    (absent : id ∉ state.pending) : state.retire id = (state, none) := by
  have index : state.pendingIndex id = none := by
    cases hindex : state.pendingIndex id with
    | none => rfl
    | some index =>
        have stored := (pendingIndex_eq_some_iff ascending).mp hindex
        exact absurd (List.mem_of_getElem? stored) absent
  simp [State.retire, index]

/-- A refused increment or commit leaves the state untouched and reports the error. -/
theorem next_of_refused {commit : Nat → Bool}
    (refused : ¬(state.dispatched + 1 ≤ u64Max ∧ commit (state.dispatched + 1) = true)) :
    ∃ error, next state commit = (.error error, state) := by
  unfold next State.dispatch
  by_cases fits : state.dispatched + 1 ≤ u64Max
  · have rejected : commit (state.dispatched + 1) = false := by simpa [fits] using refused
    exact ⟨.commit, by simp [fits, rejected]⟩
  · exact ⟨.overflow, by simp [fits]⟩

theorem next_of_commit_fails {commit : Nat → Bool}
    (rejected : commit (state.dispatched + 1) = false) :
    ∃ error, next state commit = (.error error, state) :=
  next_of_refused (by simp [rejected])

/-- A drawn number is one past `dispatched`, which moves up to it. -/
theorem next_ok {commit : Nat → Bool} {permit : Permit} {state' : State}
    (drawn : next state commit = (.ok permit, state')) :
    permit.id = state.dispatched + 1 ∧ state'.dispatched = state.dispatched + 1 := by
  unfold next at drawn
  split at drawn
  · rename_i state'' retired id dispatched
    obtain ⟨issued, rfl⟩ := Prod.mk.inj drawn
    obtain rfl := Except.ok.inj issued
    simp only [State.dispatch] at dispatched
    split_ifs at dispatched
    obtain ⟨rfl, -, rfl⟩ := Except.ok.inj dispatched
    exact ⟨rfl, rfl⟩
  · cases (Prod.mk.inj drawn).1

theorem next_error {commit : Nat → Bool} {error : Error} {state' : State}
    (failed : next state commit = (.error error, state')) : state' = state := by
  unfold next at failed
  split at failed
  · simp at failed
  · exact (Prod.mk.inj failed).2.symm

/-- Retiring a number never moves `dispatched`. -/
@[simp]
theorem retire_dispatched (id : Nat) : (state.retire id).1.dispatched = state.dispatched := by
  unfold State.retire
  split
  · rfl
  · split_ifs <;> rfl

/-- `dispatched` never moves back. -/
theorem dispatched_le_next (commit : Nat → Bool) :
    state.dispatched ≤ (next state commit).2.dispatched := by
  cases drawn : next state commit with
  | mk result state' =>
      cases result with
      | ok permit => simp [(next_ok drawn).2]
      | error error => simp [next_error drawn]

theorem retired_dispatch (dispatched : Nat) (pending : List Nat) :
    State.retired { dispatched := dispatched + 1, pending := pending ++ [dispatched + 1] } =
      State.retired { dispatched, pending } := by
  cases pending with
  | nil => rfl
  | cons head rest => rfl

end Spec

/-! ## The concurrent system -/

/-- What the holders of one counter do: draw a permit, or drop one they hold. -/
inductive Action
  /-- `Counter::next`, with the commit callback's answer for each number. -/
  | next (commit : Nat → Bool)
  /-- `Permit::drop`. -/
  | drop (permit : Permit)

/-- One counter, the permits alive around it, and the history the safety claims talk about. -/
structure World where
  /-- The state behind the lock. -/
  counter : State
  /-- Permits not yet dropped, in the order they were drawn. -/
  permits : List Permit
  /-- Every number `next` handed out, in order. -/
  issued : List Nat
  /-- Every value passed to the release callback, in order. -/
  released : List Nat
  deriving DecidableEq

namespace World

/-- `Counter::new init`, before any permit is drawn. -/
def initial (init : Nat) : World :=
  { counter := State.new init, permits := [], issued := [], released := [] }

/-- One atomic operation. A permit is dropped at most once, so dropping one that is not alive is
not a step of the system. -/
def step (world : World) : Action → Option World
  | .next commit =>
      match next world.counter commit with
      | (.ok permit, counter) =>
          some { world with
            counter
            permits := world.permits ++ [permit]
            issued := world.issued ++ [permit.id] }
      | (.error _, counter) => some { world with counter }
  | .drop permit =>
      if permit ∈ world.permits then
        let (counter, release) := drop world.counter permit
        some { world with
          counter
          permits := world.permits.erase permit
          released := world.released ++ release.toList }
      else
        none

end World

/-- What holds of every world reachable from `Counter::new init`. -/
structure Invariant (init : Nat) (world : World) : Prop where
  /-- The pending numbers are exactly the live permits' numbers, in the same order. -/
  pending_eq : world.counter.pending = world.permits.map Permit.id
  ascending : Ascending world.counter.pending
  /-- Every pending number was handed out. -/
  pending_issued : ∀ id ∈ world.counter.pending, id ∈ world.issued
  issued_ascending : Ascending world.issued
  issued_bounds : ∀ id ∈ world.issued, init < id ∧ id ≤ world.counter.dispatched
  released_sorted : world.released.Pairwise (· ≤ ·)
  released_le : ∀ value ∈ world.released, value ≤ current world.counter
  init_le : init ≤ world.counter.dispatched
  dispatched_le : world.counter.dispatched ≤ u64Max

section Invariant

variable {init : Nat} {world : World}

theorem Invariant.pending_bounds (invariant : Invariant init world) {id : Nat}
    (member : id ∈ world.counter.pending) : init < id ∧ id ≤ world.counter.dispatched :=
  invariant.issued_bounds id (invariant.pending_issued id member)

/-- The frontier lies below every pending number. -/
theorem Invariant.current_lt (invariant : Invariant init world) {id : Nat}
    (member : id ∈ world.counter.pending) : current world.counter < id :=
  retired_lt_of_mem invariant.ascending
    (fun other otherMember => by have := (invariant.pending_bounds otherMember).1; omega) member

theorem invariant_initial (fits : init ≤ u64Max) : Invariant init (World.initial init) where
  pending_eq := rfl
  ascending := List.Pairwise.nil
  pending_issued := by simp [World.initial, State.new]
  issued_ascending := List.Pairwise.nil
  issued_bounds := by simp [World.initial]
  released_sorted := List.Pairwise.nil
  released_le := by simp [World.initial]
  init_le := le_rfl
  dispatched_le := fits

/-- Erasing an element whose image is unique erases exactly that image. -/
private theorem map_erase_of_nodup {f : Permit → Nat} {permits : List Permit} {permit : Permit}
    (distinct : (permits.map f).Nodup) (member : permit ∈ permits) :
    (permits.erase permit).map f = (permits.map f).erase (f permit) := by
  induction permits with
  | nil => simp at member
  | cons first rest ih =>
      rw [List.map_cons, List.nodup_cons] at distinct
      by_cases same : first = permit
      · subst same
        simp
      · have later : permit ∈ rest := by
          rcases List.mem_cons.mp member with rfl | later
          · exact absurd rfl same
          · exact later
        have imageDiffers : f first ≠ f permit := fun equal =>
          distinct.1 (equal ▸ List.mem_map_of_mem later)
        simp [same, imageDiffers, ih distinct.2 later]

/-- `next` keeps the invariant; on success the frontier does not move. -/
theorem invariant_next (invariant : Invariant init world) {commit : Nat → Bool}
    {next' : World} (stepped : world.step (.next commit) = some next') :
    Invariant init next' ∧ current world.counter ≤ current next'.counter := by
  obtain ⟨⟨dispatched, pending⟩, permits, issued, released⟩ := world
  by_cases succeeds : dispatched + 1 ≤ u64Max ∧ commit (dispatched + 1) = true
  · obtain ⟨fits, accepted⟩ := succeeds
    simp only [World.step, next, State.dispatch, fits, accepted, if_true,
      Option.some.injEq] at stepped
    subst stepped
    have pendingEq : pending = permits.map Permit.id := invariant.pending_eq
    have below : ∀ id ∈ pending, id < dispatched + 1 := fun id member =>
      Nat.lt_succ_of_le (invariant.pending_bounds member).2
    have issuedBelow : ∀ id ∈ issued, id < dispatched + 1 := fun id member =>
      Nat.lt_succ_of_le (invariant.issued_bounds id member).2
    refine ⟨⟨?_, ?_, ?_, ?_, ?_, invariant.released_sorted, ?_, ?_, fits⟩, ?_⟩
    · simp [pendingEq]
    · exact List.pairwise_append.mpr ⟨invariant.ascending, by simp,
        fun id member other otherMember => by simpa [List.mem_singleton.mp otherMember] using below id member⟩
    · intro id member
      rcases List.mem_append.mp member with old | fresh
      · exact List.mem_append_left _ (invariant.pending_issued id old)
      · exact List.mem_append_right _ fresh
    · exact List.pairwise_append.mpr ⟨invariant.issued_ascending, by simp,
        fun id member other otherMember => by simpa [List.mem_singleton.mp otherMember] using issuedBelow id member⟩
    · intro id member
      have initLe := invariant.init_le
      rcases List.mem_append.mp member with old | fresh
      · have bounds := invariant.issued_bounds id old
        exact ⟨bounds.1, by simp only at bounds ⊢; omega⟩
      · simp only [List.mem_singleton] at fresh
        subst fresh
        exact ⟨by simp only at initLe ⊢; omega, le_rfl⟩
    · intro value member
      simpa [current, retired_dispatch] using invariant.released_le value member
    · simp only at invariant ⊢
      have initLe := invariant.init_le
      simp only at initLe
      omega
    · simp [current, retired_dispatch]
  · obtain ⟨error, failed⟩ := @next_of_refused { dispatched, pending } commit succeeds
    simp only [World.step, failed, Option.some.injEq] at stepped
    subst stepped
    exact ⟨invariant, le_rfl⟩

/-- Retiring pending numbers keeps every field that does not mention the release history. -/
private theorem invariant_of_sublist (invariant : Invariant init world) {pending : List Nat}
    {permits : List Permit} {released : List Nat}
    (sublist : pending.Sublist world.counter.pending) (pendingEq : pending = permits.map Permit.id)
    (releasedSorted : released.Pairwise (· ≤ ·))
    (releasedLe : ∀ value ∈ released,
      value ≤ current { dispatched := world.counter.dispatched, pending }) :
    Invariant init
      { counter := { dispatched := world.counter.dispatched, pending }, permits,
        issued := world.issued, released } where
  pending_eq := pendingEq
  ascending := invariant.ascending.sublist sublist
  pending_issued := fun id member => invariant.pending_issued id (sublist.subset member)
  issued_ascending := invariant.issued_ascending
  issued_bounds := invariant.issued_bounds
  released_sorted := releasedSorted
  released_le := releasedLe
  init_le := invariant.init_le
  dispatched_le := invariant.dispatched_le

/-- `Permit::drop` keeps the invariant and never moves the frontier back. -/
theorem invariant_drop (invariant : Invariant init world) {permit : Permit} {next' : World}
    (stepped : world.step (.drop permit) = some next') :
    Invariant init next' ∧ current world.counter ≤ current next'.counter := by
  obtain ⟨⟨dispatched, pending⟩, permits, issued, released⟩ := world
  simp only [World.step] at stepped
  split at stepped
  case isFalse dead => cases stepped
  case isTrue live =>
  simp only [Option.some.injEq] at stepped
  subst stepped
  have pendingEq : pending = permits.map Permit.id := invariant.pending_eq
  have ascending : Ascending pending := invariant.ascending
  have distinct : (permits.map Permit.id).Nodup := pendingEq ▸ ascending.imp ne_of_lt
  have erasedIds : (permits.erase permit).map Permit.id = pending.erase permit.id := by
    rw [pendingEq]
    exact map_erase_of_nodup distinct live
  have idMember : permit.id ∈ pending := pendingEq ▸ List.mem_map_of_mem live
  have bounds : ∀ id ∈ pending, id ≤ dispatched := fun id member =>
    (invariant.pending_bounds member).2
  cases pending with
  | nil => simp at idMember
  | cons head rest =>
      have restAbove : ∀ id ∈ rest, head < id := fun id member =>
        List.rel_of_pairwise_cons ascending member
      by_cases atHead : permit.id = head
      · simp only [drop, atHead, retire_head ascending, Option.toList_some]
        rw [atHead, List.erase_cons_head] at erasedIds
        have headLe : head ≤ dispatched := bounds head (by simp)
        have advanced : head ≤ current { dispatched, pending := rest } := by
          cases rest with
          | nil => exact headLe
          | cons next later =>
              have := restAbove next (by simp)
              simp only [current, retired_cons]
              omega
        have release : (if rest = [] then dispatched else head) ≤
            current { dispatched, pending := rest } := by
          split
          case isTrue empty => subst empty; exact le_rfl
          case isFalse nonempty => exact advanced
        have oldLe : ∀ value ∈ released, value ≤ head - 1 := invariant.released_le
        refine ⟨invariant_of_sublist invariant (List.sublist_cons_self head rest) erasedIds.symm
          ?_ ?_, ?_⟩
        · refine List.pairwise_append.mpr ⟨invariant.released_sorted, by simp, ?_⟩
          intro value member other otherMember
          simp only [List.mem_singleton] at otherMember
          subst otherMember
          have := oldLe value member
          split <;> omega
        · intro value member
          rcases List.mem_append.mp member with old | fresh
          · show value ≤ current { dispatched, pending := rest }
            exact (oldLe value old).trans ((Nat.sub_le head 1).trans advanced)
          · simp only [List.mem_singleton] at fresh
            exact fresh ▸ release
        · show current { dispatched, pending := head :: rest } ≤ current { dispatched, pending := rest }
          exact (Nat.sub_le head 1).trans advanced
      · have later : permit.id ∈ rest := by
          rcases List.mem_cons.mp idMember with equal | later
          · exact absurd equal atHead
          · exact later
        simp only [drop, retire_tail ascending later, Option.toList_none, List.append_nil]
        rw [List.erase_cons_tail (by simpa using Ne.symm atHead)] at erasedIds
        refine ⟨invariant_of_sublist invariant (List.erase_sublist.cons_cons head) erasedIds.symm
          invariant.released_sorted invariant.released_le, le_rfl⟩

/-- Every step keeps the invariant and never moves the frontier back. -/
theorem invariant_step (invariant : Invariant init world) {action : Action} {next' : World}
    (stepped : world.step action = some next') :
    Invariant init next' ∧ current world.counter ≤ current next'.counter := by
  cases action with
  | next commit => exact invariant_next invariant stepped
  | drop permit => exact invariant_drop invariant stepped

theorem invariant_preserved : StepRun.Preserved (Invariant init) World.step :=
  fun _ _ _ holds stepped => (invariant_step holds stepped).1

end Invariant

/-- Safety of the counter in every interleaving of `next` and `Permit::drop` from any initial
value: numbers are handed out strictly increasing, the pending list stays strictly ascending
inside `(current, dispatched]`, no live permit is at or below the frontier, the frontier never
moves back, the released values are non-decreasing and never above the frontier, and a failed
commit changes nothing. -/
theorem counter_safety {init : Nat} (fits : init ≤ u64Max) {actions : List Action}
    {world : World} (ran : StepRun.run World.step (World.initial init) actions = some world) :
    world.issued.Pairwise (· < ·) ∧ world.issued.Nodup ∧
      world.counter.pending.Pairwise (· < ·) ∧
      (∀ id ∈ world.counter.pending,
        current world.counter < id ∧ id ≤ world.counter.dispatched) ∧
      (∀ id ∈ world.issued, id ≤ current world.counter → id ∉ world.permits.map Permit.id) ∧
      world.released.Pairwise (· ≤ ·) ∧
      (∀ value ∈ world.released, value ≤ current world.counter) ∧
      (∀ action next', world.step action = some next' →
        current world.counter ≤ current next'.counter) ∧
      (∀ commit : Nat → Bool, commit (world.counter.dispatched + 1) = false →
        ∃ error, next world.counter commit = (.error error, world.counter)) := by
  have invariant : Invariant init world :=
    StepRun.run_invariant (Invariant init) invariant_preserved (invariant_initial fits) ran
  refine ⟨invariant.issued_ascending, invariant.issued_ascending.imp ne_of_lt,
    invariant.ascending, ?_, ?_, invariant.released_sorted, invariant.released_le, ?_, ?_⟩
  · intro id member
    exact ⟨invariant.current_lt member, (invariant.pending_bounds member).2⟩
  · intro id _ atOrBelow live
    rw [← invariant.pending_eq] at live
    exact absurd (invariant.current_lt live) (not_lt.mpr atOrBelow)
  · intro action next' stepped
    exact (invariant_step invariant stepped).2
  · intro commit rejected
    exact next_of_commit_fails rejected

/-- Two permits drawn from `0`, the older one dropped: the release callback sees `1`. -/
theorem counter_safety_two_draws :
    (0 ≤ u64Max ∧
      StepRun.run World.step (World.initial 0)
          [.next (fun _ => true), .next (fun _ => true), .drop ⟨0, 1⟩] =
        some ⟨⟨2, [2]⟩, [⟨0, 2⟩], [1, 2], [1]⟩) ∧
      ([1, 2] : List Nat).Pairwise (· < ·) ∧ ([1, 2] : List Nat).Nodup ∧
      ([2] : List Nat).Pairwise (· < ·) ∧
      (∀ id ∈ ([2] : List Nat), current ⟨2, [2]⟩ < id ∧ id ≤ 2) ∧
      (∀ id ∈ ([1, 2] : List Nat), id ≤ current ⟨2, [2]⟩ →
        id ∉ ([⟨0, 2⟩] : List Permit).map Permit.id) ∧
      ([1] : List Nat).Pairwise (· ≤ ·) ∧
      (∀ value ∈ ([1] : List Nat), value ≤ current ⟨2, [2]⟩) ∧
      (∀ action next', World.step ⟨⟨2, [2]⟩, [⟨0, 2⟩], [1, 2], [1]⟩ action = some next' →
        current ⟨2, [2]⟩ ≤ current next'.counter) ∧
      (∀ commit : Nat → Bool, commit (2 + 1) = false →
        ∃ error, next ⟨2, [2]⟩ commit = (.error error, ⟨2, [2]⟩)) := by
  have ran : StepRun.run World.step (World.initial 0)
      [.next (fun _ => true), .next (fun _ => true), .drop ⟨0, 1⟩] =
        some ⟨⟨2, [2]⟩, [⟨0, 2⟩], [1, 2], [1]⟩ := by
    have dropped : State.retire ⟨2, [1, 2]⟩ 1 = (⟨2, [2]⟩, some 1) := by
      rw [retire_head (by decide)]
      rfl
    simp [StepRun.run, World.step, World.initial, State.new, next, State.dispatch, u64Max,
      State.retired, drop, dropped]
  exact ⟨⟨by decide, ran⟩, counter_safety (by decide) ran⟩

end TwoPhaseCounter
end Tuwunel
