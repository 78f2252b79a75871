import Mathlib
import Tuwunel.Library.KeyValue
import Tuwunel.Library.Loop

/-!
# Mainline ordering

`mainline_sort` orders events by where their power-levels ancestry meets the mainline of a
power-levels event `P`.  The mainline is `P`, its power-levels auth event, that event's, and so
on: a `try_unfold` (`mainline`).  An event's position is found by the `while let` loop of
`mainline_position`, which climbs the event's power-levels ancestors until one is on the mainline
(`positionSearch`).  Fetching is a function of the event id, so both loops are `Loop.run` over a
body that reads only the store; each takes fuel, and `none` is a loop still running.

Neither loop keeps a visited set.  A store whose power-levels auth events lead back to where they
started keeps either loop going for ever (`mainline_eq_none_of_cycle`,
`mainlinePosition_eq_none_of_cycle`).  When the sort does return, its output is the input events
that could be fetched and positioned, sorted by position, `origin_server_ts` and id
(`rows_eq_some`, `pairwise_sortRows`).

`broad_filter_map` may yield in any order; the rows are taken in input order here, which the
sort makes no difference to, the comparator being a total order on rows.
-/

namespace Tuwunel
namespace StateRes

open KeyValue

/-- `TimelineEventType`, with only the kind mainline ordering tests for kept apart. -/
inductive TimelineEventType
  | roomPowerLevels
  | other (kind : String)
  deriving DecidableEq, Repr

/-- The fields of an `Event` that mainline ordering reads. -/
structure Pdu (α : Type*) where
  eventId : α
  authEvents : List α
  originServerTs : Nat
  kind : TimelineEventType
  stateKey : Option String
  deriving DecidableEq, Repr

/-- `Event::is_type_and_state_key`. -/
def Pdu.isTypeAndStateKey {α : Type*} (event : Pdu α) (kind : TimelineEventType)
    (stateKey : String) : Bool :=
  event.kind == kind && event.stateKey == some stateKey

/-- A sorted row: `(event_id, (position, origin_server_ts))`. -/
structure Row (α : Type*) where
  eventId : α
  position : Nat
  originServerTs : Nat
  deriving DecidableEq, Repr

namespace Row

variable {α : Type*} [LinearOrder α]

/-- The comparator `sort_by` is given: position, `origin_server_ts`, then `a.cmp(b)` on the
whole rows, the tuples compared field by field. -/
def cmp (a b : Row α) : Ordering :=
  (compare a.position b.position).then ((compare a.originServerTs b.originServerTs).then
    ((compare a.eventId b.eventId).then
      ((compare a.position b.position).then (compare a.originServerTs b.originServerTs))))

/-- What `cmp` compares, lexicographically: position, timestamp, id. -/
def rank (row : Row α) : Nat ×ₗ Nat ×ₗ α :=
  toLex (row.position, toLex (row.originServerTs, row.eventId))

omit [LinearOrder α] in
theorem rank_injective : Function.Injective (rank (α := α)) := by
  rintro ⟨eventId, position, originServerTs⟩ ⟨eventId', position', originServerTs'⟩ same
  simp only [rank, toLex_inj, Prod.mk.injEq] at same
  simp [same]

/-- Comparing the position and timestamp again after the ids decides nothing more. -/
theorem then_then_then_self (position timestamp identity : Ordering) :
    position.then (timestamp.then (identity.then (position.then timestamp))) =
      position.then (timestamp.then identity) := by
  cases position <;> cases timestamp <;> cases identity <;> rfl

theorem cmp_eq_compare_rank (a b : Row α) : a.cmp b = compare a.rank b.rank :=
  then_then_then_self _ _ _

/-- `sort_by(cmp)` places `a` before `b` when `cmp` does not say `Greater`. -/
def le (a b : Row α) : Prop := a.cmp b ≠ .gt

instance : DecidableRel (le (α := α)) := fun a b => inferInstanceAs (Decidable (a.cmp b ≠ .gt))

theorem le_iff_rank_le {a b : Row α} : le a b ↔ a.rank ≤ b.rank := by
  rw [le, cmp_eq_compare_rank, Ne, compare_gt_iff_gt, not_lt]

instance : Std.Total (le (α := α)) :=
  ⟨fun a b => (le_total a.rank b.rank).imp le_iff_rank_le.mpr le_iff_rank_le.mpr⟩

instance : IsTrans (Row α) le :=
  ⟨fun _ _ _ first second =>
    le_iff_rank_le.mpr ((le_iff_rank_le.mp first).trans (le_iff_rank_le.mp second))⟩

end Row

section Model

variable {α ε : Type*} (fetch : α → Except ε (Pdu α))

/-- The stream of `get_power_levels_auth_event` over the remaining auth event ids: each is
fetched in turn, a failed fetch is the error, and the first power-levels state event ends it. -/
def powerLevelsAuthEventIn : List α → Except ε (Option (Pdu α))
  | [] => .ok none
  | authEventId :: authEventIds => do
      let authEvent ← fetch authEventId
      if authEvent.isTypeAndStateKey .roomPowerLevels "" then pure (some authEvent)
      else powerLevelsAuthEventIn authEventIds

/-- `get_power_levels_auth_event`. -/
def getPowerLevelsAuthEvent (event : Pdu α) : Except ε (Option (Pdu α)) :=
  powerLevelsAuthEventIn fetch event.authEvents

/-- The closure of the `try_unfold` that populates the mainline: the fetched event's id, and the
id of its power-levels auth event as the next seed. -/
def mainlineDescent (powerLevelEventId : Option α) : Except ε (Option (α × Option α)) :=
  match powerLevelEventId with
  | none => .ok none
  | some powerLevelEventId => do
      let powerLevelEvent ← fetch powerLevelEventId
      let nextEvent ← getPowerLevelsAuthEvent fetch powerLevelEvent
      pure (some (powerLevelEvent.eventId, nextEvent.map Pdu.eventId))

/-- The mainline of `mainline_sort`, newest first, for at most `fuel` events. -/
def mainline (fuel : Nat) (powerLevelEventId : Option α) : Option (Except ε (List α)) :=
  Loop.unfold (mainlineDescent fetch) fuel powerLevelEventId

section Positions

variable [DecidableEq α]

/-- `Positions`: each mainline event's index counted from the oldest, collected into a `HashMap`,
where a later index for the same id overwrites an earlier one. -/
def positions (mainline : List α) : Table α Nat :=
  mainline.reverse.zipIdx.foldl (fun table entry => table.put entry.1 entry.2) Table.empty

/-- On a mainline without repeats, an event's position is its index counted from the oldest. -/
theorem get_positions {mainline : List α} (distinct : mainline.Nodup) (eventId : α) :
    (positions mainline).get eventId =
      if eventId ∈ mainline then some (mainline.reverse.idxOf eventId) else none := by
  rw [positions, Table.get_foldl_put_zipIdx (List.nodup_reverse.mpr distinct)]
  simp

/-- A round of the `while let` loop of `mainline_position`. -/
def positionSearch (positions : Table α Nat) (currentEvent : Option (Pdu α)) :
    Except ε (Nat ⊕ Option (Pdu α)) :=
  match currentEvent with
  | none => .ok (.inl 0)
  | some event =>
      match positions.get event.eventId with
      -- `saturating_add(1)`: a position is an index of the mainline, far below `usize::MAX`
      | some position => .ok (.inl (position + 1))
      | none => (getPowerLevelsAuthEvent fetch event).map .inr

/-- `mainline_position`, for at most `fuel` rounds. -/
def mainlinePosition (positions : Table α Nat) (fuel : Nat) (event : Pdu α) :
    Option (Except ε Nat) :=
  Loop.run (positionSearch fetch positions) fuel (some event)

/-- The closure of `broad_filter_map`: the event's row, `none` inside when its fetch or its
position failed and the event is dropped, `none` outside when the position search ran out of
fuel. -/
def rowOf (positions : Table α Nat) (fuel : Nat) (eventId : α) : Option (Option (Row α)) :=
  match fetch eventId with
  | .error _ => some none
  | .ok event =>
      (mainlinePosition fetch positions fuel event).map fun
        | .error _ => none
        | .ok position => some ⟨eventId, position, event.originServerTs⟩

/-- The rows `broad_filter_map` keeps, in input order. -/
def rows (positions : Table α Nat) (fuel : Nat) : List α → Option (List (Row α))
  | [] => some []
  | eventId :: eventIds => do
      let row ← rowOf fetch positions fuel eventId
      let rest ← rows positions fuel eventIds
      pure (row.toList ++ rest)

end Positions

section Sorting

variable [LinearOrder α]

/-- `sort_by` the comparator, a stable sort, then the ids. -/
def sortRows (rows : List (Row α)) : List α :=
  (rows.insertionSort Row.le).map Row.eventId

/-- `mainline_sort`, each loop for at most `fuel` rounds. -/
def mainlineSort (fuel : Nat) (powerLevelEventId : Option α) (events : List α) :
    Option (Except ε (List α)) :=
  match mainline fetch fuel powerLevelEventId with
  | none => none
  | some (.error error) => some (.error error)
  | some (.ok mainline) => (rows fetch (positions mainline) fuel events).map (.ok ∘ sortRows)

end Sorting

/-! ## Power-levels chains that loop -/

/-- A set of event ids each of which fetches to an event whose power-levels auth event is in the
set again. -/
def PowerLevelsCycle (inside : α → Prop) : Prop :=
  ∀ eventId, inside eventId → ∃ event next, fetch eventId = .ok event ∧
    getPowerLevelsAuthEvent fetch event = .ok (some next) ∧ inside next.eventId

variable {fetch}

theorem mainlineDescent_some {powerLevelEventId : α} {event next : Pdu α}
    (fetched : fetch powerLevelEventId = .ok event)
    (climbs : getPowerLevelsAuthEvent fetch event = .ok (some next)) :
    mainlineDescent fetch (some powerLevelEventId) =
      .ok (some (event.eventId, some next.eventId)) := by
  simp [mainlineDescent, fetched, climbs, bind, Except.bind, pure, Except.pure]

/-- The `try_unfold` never ends from an event of a power-levels cycle. -/
theorem mainline_eq_none_of_cycle {inside : α → Prop} (cycle : PowerLevelsCycle fetch inside)
    {powerLevelEventId : α} (within : inside powerLevelEventId) (fuel : Nat) :
    mainline fetch fuel (some powerLevelEventId) = none := by
  refine Loop.unfold_eq_none_of_closed
    (fun seed => ∃ eventId, seed = some eventId ∧ inside eventId) ?_ fuel ⟨powerLevelEventId, rfl, within⟩
  rintro _ ⟨eventId, rfl, within⟩
  obtain ⟨event, next, fetched, climbs, within'⟩ := cycle eventId within
  exact ⟨event.eventId, some next.eventId, mainlineDescent_some fetched climbs, _, rfl, within'⟩

/-- The `while let` loop never ends from an event whose power-levels ancestors stay off the
mainline and never run out. -/
theorem mainlinePosition_eq_none_of_cycle {positions : Table α Nat} {inside : Pdu α → Prop}
    (cycle : ∀ event, inside event → positions.get event.eventId = none ∧
      ∃ next, getPowerLevelsAuthEvent fetch event = .ok (some next) ∧ inside next)
    {event : Pdu α} (within : inside event) (fuel : Nat) :
    mainlinePosition fetch positions fuel event = none := by
  have closed : Loop.Closed (fun current => ∃ event, current = some event ∧ inside event)
      (positionSearch fetch positions) := by
    rintro _ ⟨event, rfl, within⟩
    obtain ⟨absent, next, climbs, within'⟩ := cycle event within
    exact ⟨some next, by simp [positionSearch, absent, climbs, Except.map], next, rfl, within'⟩
  exact Loop.run_eq_none_of_closed closed fuel ⟨event, rfl, within⟩

end Model

/-- Two power-levels events, each naming the other as its power-levels auth event. -/
def powerLevelsLoop : Nat → Except Unit (Pdu Nat)
  | 0 => .ok ⟨0, [1], 0, .roomPowerLevels, some ""⟩
  | 1 => .ok ⟨1, [0], 0, .roomPowerLevels, some ""⟩
  | _ => .error ()

theorem mainline_sort_loops_forever :
    (∀ fuel events, mainlineSort powerLevelsLoop fuel (some 0) events = none) ∧
      ∀ fuel, mainlineSort powerLevelsLoop fuel none [0] = none := by
  have cycle : PowerLevelsCycle powerLevelsLoop (fun eventId => eventId = 0 ∨ eventId = 1) := by
    rintro _ (rfl | rfl)
    · exact ⟨_, _, rfl, rfl, .inr rfl⟩
    · exact ⟨_, _, rfl, rfl, .inl rfl⟩
  constructor
  · intro fuel events
    simp [mainlineSort, mainline_eq_none_of_cycle cycle (.inl rfl) fuel]
  · rintro (_ | fuel)
    · rfl
    -- with no mainline, the position search of event 0 climbs 0, 1, 0, ... for ever
    · have climbs : ∀ event, (∃ eventId, powerLevelsLoop eventId = .ok event) →
          (positions []).get event.eventId = none ∧
            ∃ next, getPowerLevelsAuthEvent powerLevelsLoop event = .ok (some next) ∧
              ∃ eventId, powerLevelsLoop eventId = .ok next := by
        rintro event ⟨_ | _ | _, fetched⟩ <;> cases fetched
        · exact ⟨rfl, _, rfl, 1, rfl⟩
        · exact ⟨rfl, _, rfl, 0, rfl⟩
      have searching := mainlinePosition_eq_none_of_cycle climbs ⟨0, rfl⟩ (fuel + 1)
      simp [mainlineSort, mainline, Loop.unfold, Loop.run, Loop.unfoldStep, mainlineDescent,
        rows, rowOf, powerLevelsLoop, searching]


/-! ## What a returned sort holds -/

section Order

variable {α ε : Type*} (fetch : α → Except ε (Pdu α)) [LinearOrder α]

open Classical in
/-- The row an event sorts as: when it can be fetched and its position search ends with a
position, that position and its timestamp. -/
noncomputable def rankedRow (mainline : List α) (eventId : α) : Option (Row α) :=
  match fetch eventId with
  | .error _ => none
  | .ok event =>
      if found : ∃ position, Loop.Returns (positionSearch fetch (positions mainline)) (some event)
          (.ok position) then
        some ⟨eventId, found.choose, event.originServerTs⟩
      else none

variable {fetch}

theorem rowOf_eq_some {mainline : List α} {fuel : Nat} {eventId : α} {row : Option (Row α)}
    (kept : rowOf fetch (positions mainline) fuel eventId = some row) :
    row = rankedRow fetch mainline eventId := by
  unfold rowOf at kept
  unfold rankedRow
  cases fetched : fetch eventId with
  | error _ =>
      rw [fetched, Option.some.injEq] at kept
      exact kept.symm
  | ok event =>
      rw [fetched, Option.map_eq_some_iff] at kept
      obtain ⟨result, ended, rfl⟩ := kept
      have returns := Loop.returns_of_run ended
      cases result with
      | error _ =>
          dsimp only
          rw [dif_neg]
          rintro ⟨position, returns'⟩
          cases returns.functional returns'
      | ok position =>
          have found : ∃ position, Loop.Returns (positionSearch fetch (positions mainline))
              (some event) (.ok position) := ⟨position, returns⟩
          dsimp only
          rw [dif_pos found, Except.ok.inj (returns.functional found.choose_spec)]

/-- The rows `broad_filter_map` keeps are the ranked rows of the events, in input order. -/
theorem rows_eq_some {mainline : List α} {fuel : Nat} :
    ∀ {events : List α} {picked : List (Row α)},
      rows fetch (positions mainline) fuel events = some picked →
        picked = events.filterMap (rankedRow fetch mainline)
  | [], picked, kept => by
      rw [rows, Option.some.injEq] at kept
      exact kept.symm
  | eventId :: events, picked, kept => by
      simp only [rows, Option.bind_eq_bind, Option.bind_eq_some_iff, Option.pure_def,
        Option.some.injEq] at kept
      obtain ⟨row, first, rest, others, rfl⟩ := kept
      rw [rowOf_eq_some first, rows_eq_some others, List.filterMap_cons]
      cases rankedRow fetch mainline eventId <;> rfl

/-- The sort returns its rows reordered, by position, timestamp and id. -/
theorem sortRows_spec (picked : List (Row α)) :
    ∃ sortedRows : List (Row α), sortedRows.Perm picked ∧
      sortedRows.Pairwise (fun a b => a.rank ≤ b.rank) ∧
      sortRows picked = sortedRows.map Row.eventId :=
  ⟨picked.insertionSort Row.le, List.perm_insertionSort _ picked,
    (List.pairwise_insertionSort _ picked).imp Row.le_iff_rank_le.mp, rfl⟩

theorem mainlineSort_eq_some_ok {fuel : Nat} {powerLevelEventId : Option α}
    {events sorted : List α}
    (ran : mainlineSort fetch fuel powerLevelEventId events = some (.ok sorted)) :
    ∃ mainline picked, StateRes.mainline fetch fuel powerLevelEventId = some (.ok mainline) ∧
      rows fetch (positions mainline) fuel events = some picked ∧ sorted = sortRows picked := by
  unfold mainlineSort at ran
  split at ran
  · cases ran
  · cases ran
  · rename_i mainline built
    obtain ⟨picked, kept, sorts⟩ := Option.map_eq_some_iff.mp ran
    exact ⟨mainline, picked, built, kept, (Except.ok.inj sorts).symm⟩

theorem mainline_sort_orders {fuel : Nat} {powerLevelEventId : Option α} {events sorted : List α}
    (ran : mainlineSort fetch fuel powerLevelEventId events = some (.ok sorted)) :
    ∃ mainline, Loop.Returns (Loop.unfoldStep (mainlineDescent fetch)) (powerLevelEventId, [])
        (.ok mainline) ∧
      ∃ sortedRows : List (Row α),
        sortedRows.Perm (events.filterMap (rankedRow fetch mainline)) ∧
        sortedRows.Pairwise (fun a b => a.rank ≤ b.rank) ∧
        sorted = sortedRows.map Row.eventId := by
  obtain ⟨mainline, picked, built, kept, rfl⟩ := mainlineSort_eq_some_ok ran
  obtain ⟨sortedRows, reordered, ascending, sorts⟩ := sortRows_spec picked
  refine ⟨mainline, Loop.returns_of_run built, sortedRows, ?_, ascending, sorts⟩
  rw [← rows_eq_some kept]
  exact reordered

end Order

/-- A room of two power-levels events over its create event, three messages, and an id the store
cannot fetch. -/
def sampleStore : Nat → Except Unit (Pdu Nat)
  | 0 => .ok ⟨0, [], 0, .other "m.room.create", some ""⟩
  | 1 => .ok ⟨1, [0], 1, .roomPowerLevels, some ""⟩
  | 2 => .ok ⟨2, [0, 1], 2, .roomPowerLevels, some ""⟩
  | 3 => .ok ⟨3, [2], 7, .other "m.room.message", none⟩
  | 4 => .ok ⟨4, [1], 9, .other "m.room.message", none⟩
  | 5 => .ok ⟨5, [0], 3, .other "m.room.message", none⟩
  | _ => .error ()

theorem mainline_sort_orders_sample :
    ∃ mainline, Loop.Returns (Loop.unfoldStep (mainlineDescent sampleStore)) (some 2, [])
        (.ok mainline) ∧
      ∃ sortedRows : List (Row Nat),
        sortedRows.Perm ([3, 4, 5, 6].filterMap (rankedRow sampleStore mainline)) ∧
        sortedRows.Pairwise (fun a b => a.rank ≤ b.rank) ∧
        [5, 4, 3] = sortedRows.map Row.eventId :=
  mainline_sort_orders
    (show mainlineSort sampleStore 4 (some 2) [3, 4, 5, 6] = some (.ok [5, 4, 3]) by rfl)

end StateRes
end Tuwunel
