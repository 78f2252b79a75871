import Tuwunel.Library.RefCount
import Tuwunel.Library.AssocTable
import Tuwunel.Library.StepRun

/-!
# Keyed mutexes

`MutexMap` maps each key to an `Arc` of a Tokio mutex.  An `Arc` is a pointer into `cells`, handed
out from `next`; a cell holds the mutex's lock bit and the strong references kept outside the map,
so `Arc::strong_count` is those and one more while the map holds the pointer (`strongCount`).  A
`Guard` is followed from `entry` to the end of its drop (`Phase`).  Each step of the source that
touches the map, a count or a lock bit is one action: `entry` under the map lock, the claim of
`Guard::lock`, `lock_owned` resolving, `Guard::try_lock`, dropping a lock that has not acquired,
and the two halves of `Drop`.  Any interleaving of them is a run of `step`.

Along every run the outside count of each cell is the references of the guards that name it, the
lock bit counts the guards holding it, and every entry of the map is referenced (`Invariant`).
So no two guards hold the mutex of one key, and the map has an entry for a key exactly while a
guard for it is not fully dropped (`mutex_map_exclusive_cleanup`).
-/

namespace Tuwunel
namespace MutexMap

open RefCount

/-- A Tokio mutex behind its `Arc`: the lock bit, and the strong references kept outside the
map. -/
structure Cell where
  locked : Bool
  outside : Nat
  deriving DecidableEq, Repr

/-- `Arc::clone`. -/
def Cell.clone (cell : Cell) : Cell := { cell with outside := cell.outside + 1 }

/-- Dropping an `Arc`. -/
def Cell.release (cell : Cell) : Cell := { cell with outside := cell.outside - 1 }

/-- The lock bit as a number. -/
def Cell.bit (cell : Cell) : Nat := if cell.locked then 1 else 0

@[simp] theorem Cell.outside_clone (cell : Cell) : cell.clone.outside = cell.outside + 1 := rfl

@[simp] theorem Cell.outside_release (cell : Cell) : cell.release.outside = cell.outside - 1 := rfl

@[simp] theorem Cell.bit_clone (cell : Cell) : cell.clone.bit = cell.bit := rfl

@[simp] theorem Cell.bit_release (cell : Cell) : cell.release.bit = cell.bit := rfl

/-- Where a `Guard` is between `entry` and the end of its drop. -/
inductive Phase
  /-- `entry` made it; it holds the `Arc` in `entry`. -/
  | pending
  /-- `Guard::lock` cloned its claim and awaits the mutex. -/
  | waiting
  /-- The owned mutex guard is in `val`. -/
  | holding
  /-- The claim or `val` is gone; the drop's turn at the map lock is next. -/
  | releasing
  /-- The drop took `entry` under the map lock. -/
  | dropped
  deriving DecidableEq, Repr

namespace Phase

/-- The references to its `Arc` a guard holds: `entry`, and the claim or the owned guard. -/
def refs : Phase → Nat
  | pending => 1
  | waiting => 2
  | holding => 2
  | releasing => 1
  | dropped => 0

/-- Whether the guard holds the mutex. -/
def holds : Phase → Nat
  | holding => 1
  | _ => 0

theorem refs_pos_iff (phase : Phase) : 0 < phase.refs ↔ phase ≠ dropped := by
  cases phase <;> simp [refs]

end Phase

/-- A `Guard`: the key it was made for (the source keeps it only through `entry`), the `Arc` in
`entry`, and where it is. -/
structure Guard (Key : Type) where
  key : Key
  entry : Nat
  phase : Phase
  deriving DecidableEq, Repr

namespace Guard

variable {Key : Type}

/-- The references the guard holds to the `Arc` behind `pointer`. -/
def refs (guard : Guard Key) (pointer : Nat) : Nat :=
  if guard.entry = pointer then guard.phase.refs else 0

/-- Whether the guard holds the mutex behind `pointer`. -/
def holds (guard : Guard Key) (pointer : Nat) : Nat :=
  if guard.entry = pointer then guard.phase.holds else 0

theorem refs_pos_iff (guard : Guard Key) (pointer : Nat) :
    0 < guard.refs pointer ↔ guard.entry = pointer ∧ guard.phase ≠ .dropped := by
  unfold refs
  split_ifs with named
  · simp [named, Phase.refs_pos_iff]
  · simp [named]

end Guard

/-- The map behind its mutex, the mutexes by pointer, the next fresh pointer, and every guard
made so far, by the order they were made in. -/
structure State (Key : Type) where
  map : List (Key × Nat)
  cells : Nat → Cell
  next : Nat
  guards : List (Guard Key)

variable {Key : Type}

/-- `MutexMap::new`. -/
def State.new : State Key := ⟨[], fun _ => ⟨false, 0⟩, 0, []⟩

namespace State

/-- `Arc::strong_count`: the map's reference while it holds the pointer, and the others. -/
def strongCount (state : State Key) (pointer : Nat) : Nat :=
  (if pointer ∈ state.map.map Prod.snd then 1 else 0) + (state.cells pointer).outside

/-- Write the cell behind `pointer`. -/
def setCell (state : State Key) (pointer : Nat) (cell : Cell) : State Key :=
  { state with cells := Function.update state.cells pointer cell }

/-- Move the guard at `index`, found there as `guard`, to `phase`. -/
def setPhase (state : State Key) (index : Nat) (guard : Guard Key) (phase : Phase) :
    State Key :=
  { state with guards := state.guards.set index { guard with phase } }

/-- `map.retain(|_, val| Arc::strong_count(val) > 1)`: an entry only the map holds goes, and the
map's reference with it. -/
def retain (state : State Key) : State Key :=
  { state with map := state.map.filter fun entry => 1 < state.strongCount entry.2 }

end State

/-! ## The steps -/

section Steps

variable [DecidableEq Key]

/-- `MutexMap::entry`, and `try_entry` when the map lock is free: under the map lock, the key's
`Arc`, made by `or_default` when absent, is cloned into a new guard. -/
def entry (state : State Key) (key : Key) : State Key :=
  match state.map.lookup key with
  | some pointer =>
      { state.setCell pointer (state.cells pointer).clone with
        guards := state.guards ++ [⟨key, pointer, .pending⟩] }
  | none =>
      { state with
        map := state.map ++ [(key, state.next)]
        cells := Function.update state.cells state.next (Cell.clone ⟨false, 0⟩)
        next := state.next + 1
        guards := state.guards ++ [⟨key, state.next, .pending⟩] }

/-- `Guard::lock` up to its await: `claim` clones the `Arc`. -/
def claim (state : State Key) (index : Nat) : Option (State Key) :=
  match state.guards[index]? with
  | some guard =>
      if guard.phase = .pending then
        some ((state.setCell guard.entry (state.cells guard.entry).clone).setPhase index guard
          .waiting)
      else none
  | none => none

/-- `lock_owned` resolves once the mutex is free; the owned guard keeps the claim's `Arc`. -/
def acquire (state : State Key) (index : Nat) : Option (State Key) :=
  match state.guards[index]? with
  | some guard =>
      if guard.phase = .waiting ∧ (state.cells guard.entry).locked = false then
        some ((state.setCell guard.entry { state.cells guard.entry with locked := true }).setPhase
          index guard .holding)
      else none
  | none => none

/-- `Guard::try_lock`: the claim takes the mutex if it is free; otherwise the claim is dropped,
and the error drops the guard. -/
def tryLock (state : State Key) (index : Nat) : Option (State Key) :=
  match state.guards[index]? with
  | some guard =>
      if guard.phase = .pending then
        let cell := state.cells guard.entry
        if cell.locked = false then
          some ((state.setCell guard.entry { cell.clone with locked := true }).setPhase index guard
            .holding)
        else
          some ((state.setCell guard.entry cell.clone.release).setPhase index guard .releasing)
      else none
  | none => none

/-- Dropping a lock that has not acquired: a waiting claim is dropped before the guard, so the
guard's drop finds it gone. -/
def cancel (state : State Key) (index : Nat) : Option (State Key) :=
  match state.guards[index]? with
  | some guard =>
      match guard.phase with
      | .waiting =>
          some ((state.setCell guard.entry (state.cells guard.entry).release).setPhase index guard
            .releasing)
      | .pending => some (state.setPhase index guard .releasing)
      | _ => none
  | none => none

/-- `Guard::drop`, `self.val.take()`: the owned guard unlocks the mutex and drops its `Arc`. -/
def unlock (state : State Key) (index : Nat) : Option (State Key) :=
  match state.guards[index]? with
  | some guard =>
      if guard.phase = .holding then
        some ((state.setCell guard.entry
          { (state.cells guard.entry).release with locked := false }).setPhase index guard
            .releasing)
      else none
  | none => none

/-- `Guard::drop` under the map lock: `entry.take()` is dropped after its count is read, and if
at most it and the map held the `Arc`, the map is retained. -/
def release (state : State Key) (index : Nat) : Option (State Key) :=
  match state.guards[index]? with
  | some guard =>
      if guard.phase = .releasing then
        let count := state.strongCount guard.entry
        let dropped := (state.setCell guard.entry (state.cells guard.entry).release).setPhase
          index guard .dropped
        some (if count ≤ 2 then dropped.retain else dropped)
      else none
  | none => none

/-- What a run can do next. -/
inductive Action (Key : Type)
  | entry (key : Key)
  | claim (index : Nat)
  | acquire (index : Nat)
  | tryLock (index : Nat)
  | cancel (index : Nat)
  | unlock (index : Nat)
  | release (index : Nat)
  deriving DecidableEq, Repr

/-- One action; `none` where the guard is not where the action needs it. -/
def step (state : State Key) : Action Key → Option (State Key)
  | .entry key => some (entry state key)
  | .claim index => claim state index
  | .acquire index => acquire state index
  | .tryLock index => tryLock state index
  | .cancel index => cancel state index
  | .unlock index => unlock state index
  | .release index => release state index

end Steps

/-! ## What every run keeps -/

/-- The invariant: keys and pointers are each in the map once, guards name allocated pointers,
each outside count is what the guards hold, each lock bit counts the holders, an undropped
guard's key maps to its `Arc`, and every `Arc` in the map is held outside it. -/
structure Invariant (state : State Key) : Prop where
  keys : (state.map.map Prod.fst).Nodup
  pointers : (state.map.map Prod.snd).Nodup
  fresh : ∀ guard ∈ state.guards, guard.entry < state.next
  counted : ∀ pointer, (state.cells pointer).outside = held Guard.refs state.guards pointer
  locked : ∀ pointer, held Guard.holds state.guards pointer = (state.cells pointer).bit
  named : ∀ guard ∈ state.guards, guard.phase ≠ .dropped → (guard.key, guard.entry) ∈ state.map
  referenced : ∀ entry ∈ state.map, 0 < (state.cells entry.2).outside

variable {state : State Key}

theorem invariant_new : Invariant (State.new : State Key) where
  keys := List.nodup_nil
  pointers := List.nodup_nil
  fresh := by simp [State.new]
  counted _ := rfl
  locked _ := rfl
  named := by simp [State.new]
  referenced := by simp [State.new]

/-- Every `Arc` in the map is referenced by an undropped guard. -/
theorem Invariant.exists_guard (inv : Invariant state) {entry : Key × Nat}
    (member : entry ∈ state.map) :
    ∃ guard ∈ state.guards, guard.entry = entry.2 ∧ guard.phase ≠ .dropped := by
  have positive := inv.referenced entry member
  rw [inv.counted] at positive
  obtain ⟨guard, listed, share⟩ := exists_of_held_pos Guard.refs positive
  exact ⟨guard, listed, (Guard.refs_pos_iff guard entry.2).mp share⟩

theorem Invariant.below (inv : Invariant state) {entry : Key × Nat} (member : entry ∈ state.map) :
    entry.2 < state.next := by
  obtain ⟨guard, listed, pointed, _⟩ := inv.exists_guard member
  exact pointed ▸ inv.fresh guard listed

theorem State.strongCount_of_mem {key : Key} {pointer : Nat} (member : (key, pointer) ∈ state.map) :
    state.strongCount pointer = 1 + (state.cells pointer).outside := by
  rw [State.strongCount, if_pos (List.mem_map.mpr ⟨(key, pointer), member, rfl⟩)]

/-! ### One guard moves -/

section Move

variable {index : Nat} {guard : Guard Key} {phase : Phase} {cell : Cell}

/-- The counts stay right when a guard moves and its cell's count moves with its references. -/
theorem counted_move
    (counted : ∀ pointer, (state.cells pointer).outside = held Guard.refs state.guards pointer)
    (found : state.guards[index]? = some guard)
    (count : cell.outside + guard.phase.refs = (state.cells guard.entry).outside + phase.refs)
    (pointer : Nat) :
    (((state.setCell guard.entry cell).setPhase index guard phase).cells pointer).outside =
      held Guard.refs ((state.setCell guard.entry cell).setPhase index guard phase).guards
        pointer := by
  have moved := held_set Guard.refs found { guard with phase } pointer
  have before := counted pointer
  simp only [State.setPhase, State.setCell]
  by_cases here : pointer = guard.entry
  · subst here
    simp only [Function.update_self, Guard.refs, if_true] at moved ⊢
    omega
  · simp only [Function.update_of_ne here, Guard.refs, if_neg (Ne.symm here)] at moved ⊢
    omega

/-- The lock bits stay right when a guard moves and its cell's bit moves with its holding. -/
theorem locked_move
    (locked : ∀ pointer, held Guard.holds state.guards pointer = (state.cells pointer).bit)
    (found : state.guards[index]? = some guard)
    (bit : cell.bit + guard.phase.holds = (state.cells guard.entry).bit + phase.holds)
    (pointer : Nat) :
    held Guard.holds ((state.setCell guard.entry cell).setPhase index guard phase).guards pointer =
      (((state.setCell guard.entry cell).setPhase index guard phase).cells pointer).bit := by
  have moved := held_set Guard.holds found { guard with phase } pointer
  have before := locked pointer
  simp only [State.setPhase, State.setCell]
  by_cases here : pointer = guard.entry
  · subst here
    simp only [Function.update_self, Guard.holds, if_true] at moved before ⊢
    omega
  · simp only [Function.update_of_ne here, Guard.holds, if_neg (Ne.symm here)] at moved ⊢
    omega

theorem fresh_move (fresh : ∀ guard ∈ state.guards, guard.entry < state.next)
    (found : state.guards[index]? = some guard) :
    ∀ other ∈ ((state.setCell guard.entry cell).setPhase index guard phase).guards,
      other.entry < ((state.setCell guard.entry cell).setPhase index guard phase).next := by
  intro other member
  rcases List.mem_or_eq_of_mem_set member with old | rfl
  · exact fresh other old
  · exact fresh guard (List.mem_of_getElem? found)

/-- A guard that stays undropped keeps the invariant when its cell's count and lock bit move
with it. -/
theorem Invariant.move (inv : Invariant state) (found : state.guards[index]? = some guard)
    (live : guard.phase ≠ .dropped) (live' : phase ≠ .dropped)
    (count : cell.outside + guard.phase.refs = (state.cells guard.entry).outside + phase.refs)
    (bit : cell.bit + guard.phase.holds = (state.cells guard.entry).bit + phase.holds) :
    Invariant ((state.setCell guard.entry cell).setPhase index guard phase) := by
  have counted := counted_move inv.counted found count
  refine ⟨inv.keys, inv.pointers, fresh_move inv.fresh found, counted,
    locked_move inv.locked found bit, ?_, ?_⟩
  · intro other member undropped
    rcases List.mem_or_eq_of_mem_set member with old | rfl
    · exact inv.named other old undropped
    · exact inv.named guard (List.mem_of_getElem? found) live
  · -- the moved guard still references its cell, and the other cells keep their counts
    intro entry member
    rw [counted]
    have positive := inv.referenced entry member
    have moved := held_set Guard.refs found { guard with phase } entry.2
    have within := le_held Guard.refs (List.mem_of_getElem? found) entry.2
    have share := (Phase.refs_pos_iff phase).mpr live'
    rw [inv.counted] at positive
    simp only [State.setPhase, State.setCell]
    by_cases here : guard.entry = entry.2
    · simp only [Guard.refs, here, if_true] at moved within ⊢
      omega
    · simp only [Guard.refs, here, if_false] at moved
      omega

end Move

theorem State.setCell_self (state : State Key) (pointer : Nat) :
    state.setCell pointer (state.cells pointer) = state := by
  simp [State.setCell]

/-- A guard's own references lie within its cell's outside count. -/
theorem Invariant.refs_le (inv : Invariant state) {index : Nat} {guard : Guard Key}
    (found : state.guards[index]? = some guard) :
    guard.phase.refs ≤ (state.cells guard.entry).outside := by
  have within := le_held Guard.refs (List.mem_of_getElem? found) guard.entry
  rw [← inv.counted] at within
  simpa [Guard.refs] using within

/-- A holding guard's cell is locked. -/
theorem Invariant.locked_of_holding (inv : Invariant state) {index : Nat} {guard : Guard Key}
    (found : state.guards[index]? = some guard) (holding : guard.phase = .holding) :
    (state.cells guard.entry).locked = true := by
  have within := le_held Guard.holds (List.mem_of_getElem? found) guard.entry
  rw [inv.locked] at within
  simp only [Guard.holds, if_true, holding, Phase.holds, Cell.bit] at within
  by_contra unlocked
  simp [unlocked] at within

/-! ### Each step keeps the invariant -/

section Preservation

variable {state' : State Key} {index : Nat}

theorem invariant_claim (inv : Invariant state) (stepped : claim state index = some state') :
    Invariant state' := by
  cases found : state.guards[index]? with
  | none => simp [claim, found] at stepped
  | some guard =>
      simp only [claim, found] at stepped
      split_ifs at stepped with pending
      cases stepped
      refine inv.move found (by simp [pending]) (by decide) ?_ ?_
      · simp [pending, Phase.refs]
      · simp [pending, Phase.holds]

theorem invariant_acquire (inv : Invariant state) (stepped : acquire state index = some state') :
    Invariant state' := by
  cases found : state.guards[index]? with
  | none => simp [acquire, found] at stepped
  | some guard =>
      simp only [acquire, found] at stepped
      split_ifs at stepped with ready
      obtain ⟨waiting, unlocked⟩ := ready
      cases stepped
      refine inv.move found (by simp [waiting]) (by decide) ?_ ?_
      · simp [waiting, Phase.refs]
      · simp [waiting, unlocked, Phase.holds, Cell.bit]

theorem invariant_tryLock (inv : Invariant state) (stepped : tryLock state index = some state') :
    Invariant state' := by
  cases found : state.guards[index]? with
  | none => simp [tryLock, found] at stepped
  | some guard =>
      simp only [tryLock, found] at stepped
      split_ifs at stepped with pending free
      · -- the mutex was free: the claim becomes the owned guard
        cases stepped
        refine inv.move found (by simp [pending]) (by decide) ?_ ?_
        · simp [Cell.clone, pending, Phase.refs]
        · simp [pending, free, Phase.holds, Cell.bit]
      · -- "would yield": the claim is dropped, and the guard after it
        cases stepped
        refine inv.move found (by simp [pending]) (by decide) ?_ ?_
        · simp [pending, Phase.refs]
        · simp [pending, Phase.holds]

theorem invariant_cancel (inv : Invariant state) (stepped : cancel state index = some state') :
    Invariant state' := by
  cases found : state.guards[index]? with
  | none => simp [cancel, found] at stepped
  | some guard =>
      simp only [cancel, found] at stepped
      have within := inv.refs_le found
      split at stepped
      · next waiting =>
          cases stepped
          refine inv.move found (by simp [waiting]) (by decide) ?_ ?_
          · simp only [Cell.outside_release, waiting, Phase.refs] at within ⊢
            omega
          · simp [waiting, Phase.holds]
      · next pending =>
          cases stepped
          rw [← State.setCell_self state guard.entry]
          refine inv.move found (by simp [pending]) (by decide) ?_ ?_
          · simp [pending, Phase.refs]
          · simp [pending, Phase.holds]
      · cases stepped

theorem invariant_unlock (inv : Invariant state) (stepped : unlock state index = some state') :
    Invariant state' := by
  cases found : state.guards[index]? with
  | none => simp [unlock, found] at stepped
  | some guard =>
      simp only [unlock, found] at stepped
      split_ifs at stepped with holding
      cases stepped
      have within := inv.refs_le found
      have locked := inv.locked_of_holding found holding
      refine inv.move found (by simp [holding]) (by decide) ?_ ?_
      · simp only [Cell.release, holding, Phase.refs] at within ⊢
        omega
      · simp [holding, locked, Phase.holds, Cell.bit]

/-! ### The drop under the map lock -/

section Release

variable {guard : Guard Key}

/-- The state a guard's drop leaves before the retain: its `entry` dropped, the guard done. -/
abbrev dropped (state : State Key) (index : Nat) (guard : Guard Key) : State Key :=
  (state.setCell guard.entry (state.cells guard.entry).release).setPhase index guard .dropped

theorem counted_dropped (inv : Invariant state) (found : state.guards[index]? = some guard)
    (releasing : guard.phase = .releasing) (pointer : Nat) :
    ((dropped state index guard).cells pointer).outside =
      held Guard.refs (dropped state index guard).guards pointer := by
  have within := inv.refs_le found
  refine counted_move inv.counted found ?_ pointer
  simp only [releasing, Phase.refs, Cell.outside_release] at within ⊢
  omega

theorem named_dropped (inv : Invariant state) :
    ∀ other ∈ (dropped state index guard).guards, other.phase ≠ .dropped →
      (other.key, other.entry) ∈ state.map := by
  intro other member undropped
  rcases List.mem_or_eq_of_mem_set member with old | rfl
  · exact inv.named other old undropped
  · exact absurd rfl undropped

/-- An undropped guard's cell is held outside the map after the drop too. -/
theorem outside_pos_dropped (inv : Invariant state) (found : state.guards[index]? = some guard)
    (releasing : guard.phase = .releasing) {other : Guard Key}
    (member : other ∈ (dropped state index guard).guards) (undropped : other.phase ≠ .dropped) :
    0 < ((dropped state index guard).cells other.entry).outside := by
  rw [counted_dropped inv found releasing]
  have share := le_held Guard.refs member other.entry
  have positive := (Guard.refs_pos_iff other other.entry).mpr ⟨rfl, undropped⟩
  omega

/-- With another reference left, the drop leaves the map as it is. -/
theorem invariant_release_kept (inv : Invariant state) (found : state.guards[index]? = some guard)
    (releasing : guard.phase = .releasing) (shared : ¬ state.strongCount guard.entry ≤ 2) :
    Invariant (dropped state index guard) := by
  have member := inv.named guard (List.mem_of_getElem? found) (by simp [releasing])
  rw [State.strongCount_of_mem member] at shared
  refine ⟨inv.keys, inv.pointers, fresh_move inv.fresh found,
    counted_dropped inv found releasing,
    locked_move inv.locked found (by simp [releasing, Phase.holds]), named_dropped inv, ?_⟩
  -- the guard's own cell keeps a reference of another
  intro entry listed
  have positive := inv.referenced entry listed
  simp only [State.setPhase, State.setCell]
  by_cases here : entry.2 = guard.entry
  · rw [here, Function.update_self, Cell.outside_release]
    omega
  · rw [Function.update_of_ne here]
    exact positive

/-- The last one out retains the map, and its entry goes. -/
theorem invariant_release_retained (inv : Invariant state)
    (found : state.guards[index]? = some guard) (releasing : guard.phase = .releasing) :
    Invariant (dropped state index guard).retain := by
  have kept : ∀ entry ∈ (dropped state index guard).retain.map, entry ∈ state.map ∧
      1 < (dropped state index guard).strongCount entry.2 := fun entry listed =>
    List.mem_filter.mp listed |>.imp_right of_decide_eq_true
  refine ⟨((List.filter_sublist).map Prod.fst).nodup inv.keys,
    ((List.filter_sublist).map Prod.snd).nodup inv.pointers, fresh_move inv.fresh found,
    counted_dropped inv found releasing,
    locked_move inv.locked found (by simp [releasing, Phase.holds]), ?_, ?_⟩
  · -- an undropped guard's entry is held outside the map, so the retain keeps it
    intro other member undropped
    have named := named_dropped inv other member undropped
    have positive := outside_pos_dropped inv found releasing member undropped
    refine List.mem_filter.mpr ⟨named, decide_eq_true ?_⟩
    rw [State.strongCount_of_mem (show (other.key, other.entry) ∈ (dropped state index guard).map
      from named)]
    omega
  · intro ⟨key, pointer⟩ listed
    obtain ⟨member, above⟩ := kept (key, pointer) listed
    rw [State.strongCount_of_mem (show (key, pointer) ∈ (dropped state index guard).map
      from member)] at above
    exact Nat.lt_of_add_lt_add_left above

theorem invariant_release (inv : Invariant state) (stepped : release state index = some state') :
    Invariant state' := by
  cases found : state.guards[index]? with
  | none => simp [release, found] at stepped
  | some guard =>
      simp only [release, found] at stepped
      split_ifs at stepped with releasing last
      · cases stepped
        exact invariant_release_retained inv found releasing
      · cases stepped
        exact invariant_release_kept inv found releasing last

end Release

section Entry

variable [DecidableEq Key]

/-- `entry` on a key the map holds clones the key's `Arc` into the new guard. -/
theorem invariant_entry_found (inv : Invariant state) {key : Key} {pointer : Nat}
    (found : state.map.lookup key = some pointer) : Invariant (entry state key) := by
  have member : (key, pointer) ∈ state.map := (AssocTable.mem_iff_lookup inv.keys).mpr found
  have below := inv.below member
  simp only [entry, found]
  refine ⟨inv.keys, inv.pointers, ?_, ?_, ?_, ?_, ?_⟩
  · intro other listed
    rcases List.mem_append.mp listed with old | new
    · exact inv.fresh other old
    · rw [List.mem_singleton.mp new]
      exact below
  · intro cell
    rw [held_append_singleton, ← inv.counted]
    by_cases here : cell = pointer
    · subst here
      simp [State.setCell, Guard.refs, Phase.refs]
    · simp [State.setCell, Function.update_of_ne here, Guard.refs, Ne.symm here]
  · intro cell
    rw [held_append_singleton, inv.locked]
    by_cases here : cell = pointer
    · subst here
      simp [State.setCell, Guard.holds, Phase.holds]
    · simp [State.setCell, Function.update_of_ne here, Guard.holds, Ne.symm here]
  · intro other listed undropped
    rcases List.mem_append.mp listed with old | new
    · exact inv.named other old undropped
    · rw [List.mem_singleton.mp new]
      exact member
  · intro entry listed
    have positive := inv.referenced entry listed
    by_cases here : entry.2 = pointer
    · simp [State.setCell, here]
    · simpa [State.setCell, Function.update_of_ne here] using positive

/-- `entry` on a key the map lacks makes a fresh `Arc` for it. -/
theorem invariant_entry_absent (inv : Invariant state) {key : Key}
    (absent : state.map.lookup key = none) : Invariant (entry state key) := by
  have unkeyed : key ∉ state.map.map Prod.fst := by
    rw [← AssocTable.lookup_isSome_iff]
    simp [absent]
  have unused : state.next ∉ state.map.map Prod.snd := by
    intro listed
    obtain ⟨⟨other, pointer⟩, member, pointed⟩ := List.mem_map.mp listed
    have below := inv.below member
    simp only at pointed below
    omega
  have untouched : ∀ guard ∈ state.guards, guard.entry ≠ state.next := fun guard listed =>
    Nat.ne_of_lt (inv.fresh guard listed)
  simp only [entry, absent]
  refine ⟨?_, ?_, ?_, ?_, ?_, ?_, ?_⟩
  · rw [List.map_append, List.map_singleton, ← List.concat_eq_append]
    exact inv.keys.concat unkeyed
  · rw [List.map_append, List.map_singleton, ← List.concat_eq_append]
    exact inv.pointers.concat unused
  · intro guard listed
    rcases List.mem_append.mp listed with old | new
    · exact Nat.lt_succ_of_lt (inv.fresh guard old)
    · rw [List.mem_singleton.mp new]
      exact Nat.lt_succ_self _
  · intro cell
    rw [held_append_singleton]
    by_cases here : cell = state.next
    · -- no guard made so far names the fresh pointer
      subst here
      rw [held_eq_zero Guard.refs fun guard listed => if_neg (untouched guard listed)]
      simp [Guard.refs, Phase.refs]
    · simp [Function.update_of_ne here, Guard.refs, Ne.symm here, inv.counted]
  · intro cell
    rw [held_append_singleton]
    by_cases here : cell = state.next
    · subst here
      rw [held_eq_zero Guard.holds fun guard listed => if_neg (untouched guard listed)]
      simp [Guard.holds, Phase.holds, Cell.bit, Cell.clone]
    · simp [Function.update_of_ne here, Guard.holds, Ne.symm here, inv.locked]
  · intro guard listed undropped
    rcases List.mem_append.mp listed with old | new
    · exact List.mem_append_left _ (inv.named guard old undropped)
    · rw [List.mem_singleton.mp new]
      exact List.mem_append_right _ (List.mem_singleton_self _)
  · intro entry listed
    rcases List.mem_append.mp listed with old | new
    · have fresh : entry.2 ≠ state.next := Nat.ne_of_lt (inv.below old)
      simpa [Function.update_of_ne fresh] using inv.referenced entry old
    · rw [List.mem_singleton.mp new]
      simp

theorem invariant_entry (inv : Invariant state) (key : Key) : Invariant (entry state key) := by
  cases found : state.map.lookup key with
  | none => exact invariant_entry_absent inv found
  | some pointer => exact invariant_entry_found inv found

theorem invariant_step (inv : Invariant state) {action : Action Key}
    (stepped : step state action = some state') : Invariant state' := by
  cases action with
  | entry key =>
      cases stepped
      exact invariant_entry inv key
  | claim index => exact invariant_claim inv stepped
  | acquire index => exact invariant_acquire inv stepped
  | tryLock index => exact invariant_tryLock inv stepped
  | cancel index => exact invariant_cancel inv stepped
  | unlock index => exact invariant_unlock inv stepped
  | release index => exact invariant_release inv stepped

theorem invariant_run {actions : List (Action Key)} {final : State Key}
    (ran : StepRun.run step State.new actions = some final) : Invariant final :=
  StepRun.run_invariant Invariant (fun _ _ _ inv stepped => invariant_step inv stepped)
    invariant_new ran

end Entry

end Preservation

/-! ## Exclusion and cleanup -/

/-- Two guards holding mutexes of one key are one guard. -/
theorem Invariant.exclusive (inv : Invariant state) {index index' : Nat}
    {guard guard' : Guard Key} (found : state.guards[index]? = some guard)
    (found' : state.guards[index']? = some guard') (holding : guard.phase = .holding)
    (holding' : guard'.phase = .holding) (same : guard.key = guard'.key) : index = index' := by
  by_contra distinct
  have named := inv.named guard (List.mem_of_getElem? found) (by simp [holding])
  have named' := inv.named guard' (List.mem_of_getElem? found') (by simp [holding'])
  -- one key maps to one `Arc`
  have entries : guard.entry = guard'.entry := by
    rw [same] at named
    have pair := List.inj_on_of_nodup_map inv.keys named named' rfl
    exact (Prod.mk.inj pair).2
  have two := add_le_held Guard.holds distinct found found' guard.entry
  have bit := inv.locked guard.entry
  simp only [Guard.holds, entries, if_true, holding, holding', Phase.holds] at two
  rw [entries] at bit
  simp only [Cell.bit] at bit
  split at bit <;> omega

/-- The map has an entry for a key exactly while a guard for it is not fully dropped. -/
theorem Invariant.mem_keys_iff (inv : Invariant state) (key : Key) :
    key ∈ state.map.map Prod.fst ↔ ∃ guard ∈ state.guards, guard.key = key ∧ guard.phase ≠ .dropped := by
  constructor
  · intro listed
    obtain ⟨⟨key, pointer⟩, member, rfl⟩ := List.mem_map.mp listed
    obtain ⟨guard, owner, pointed, undropped⟩ := inv.exists_guard member
    have named := inv.named guard owner undropped
    -- the guard's entry and the key's share their pointer, so they are one entry
    have pair := List.inj_on_of_nodup_map inv.pointers named member pointed
    exact ⟨guard, owner, (Prod.mk.inj pair).1, undropped⟩
  · rintro ⟨guard, owner, rfl, undropped⟩
    exact List.mem_map.mpr ⟨_, inv.named guard owner undropped, rfl⟩

/-- Along any interleaving of `lock`, `try_lock` and `try_try_lock`, drops of guards and
cancellations of lock futures, from `MutexMap::new`: no two guards hold the mutex of one key, and
the map has an entry for a key exactly while a guard for it, or an attempt that made one, is not
fully dropped. -/
theorem mutex_map_exclusive_cleanup [DecidableEq Key] {actions : List (Action Key)}
    {final : State Key} (ran : StepRun.run step State.new actions = some final) :
    (∀ (index index' : Nat) (guard guard' : Guard Key), final.guards[index]? = some guard →
        final.guards[index']? = some guard' → guard.phase = .holding →
        guard'.phase = .holding → guard.key = guard'.key → index = index') ∧
      ∀ key, key ∈ final.map.map Prod.fst ↔
        ∃ guard ∈ final.guards, guard.key = key ∧ guard.phase ≠ .dropped := by
  have inv := invariant_run ran
  exact ⟨fun _ _ _ _ found found' holding holding' same =>
    inv.exclusive found found' holding holding' same, inv.mem_keys_iff⟩

/-- Three contenders for key `1`, one of them giving up at `try_lock`, and a `try_lock` of key
`2` that is still held at the end. -/
def contendedRun : List (Action Nat) :=
  [.entry 1, .claim 0, .acquire 0, .entry 1, .claim 1, .entry 1, .tryLock 2, .release 2,
    .entry 2, .tryLock 3, .unlock 0, .release 0, .acquire 1, .unlock 1, .release 1]

theorem mutex_map_exclusive_cleanup_contended :
    ∃ final, StepRun.run step State.new contendedRun = some final ∧
      final.map = [(2, 1)] ∧
      final.guards.map Guard.phase = [.dropped, .dropped, .dropped, .holding] ∧
      (∀ (index index' : Nat) (guard guard' : Guard Nat), final.guards[index]? = some guard →
          final.guards[index']? = some guard' → guard.phase = .holding →
          guard'.phase = .holding → guard.key = guard'.key → index = index') ∧
        ∀ key, key ∈ final.map.map Prod.fst ↔
          ∃ guard ∈ final.guards, guard.key = key ∧ guard.phase ≠ .dropped := by
  have listed : (StepRun.run step State.new contendedRun).map
      (fun final => (final.map, final.guards.map Guard.phase)) =
        some ([(2, 1)], [.dropped, .dropped, .dropped, .holding]) := by
    decide
  obtain ⟨final, ran, same⟩ := Option.map_eq_some_iff.mp listed
  obtain ⟨mapped, phases⟩ := Prod.mk.inj same
  exact ⟨final, ran, mapped, phases, mutex_map_exclusive_cleanup ran⟩

end MutexMap
end Tuwunel
