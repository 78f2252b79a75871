import Mathlib
import Tuwunel.Library.ExceptOk
import Tuwunel.Library.KeyValue
import Tuwunel.Library.SortedLookup
import Tuwunel.Service.Rooms.StateRes.Events

/-!
# The iterative auth checks

`iterative_auth_check` folds the sorted power events into the partially resolved state: each
event is fetched, must have a state key, and goes through `auth_check`.  `auth_check` selects the
event's auth types (where `auth_types_for_event` fails, the event is passed over) and collects
the events the rules may read: the event's own auth events, with the create event its room id
names where the rules key rooms by their create event, each keyed by its type and state key;
then the events the partial state holds at the selected auth types.  Events that cannot be
fetched or were rejected are left out, and an own auth event without a state key fails the
check.  The collection is sorted by key, reversed and deduplicated, and `fetch_state` finds a
key in it by binary search.  An event that passes `check_state_dependent_auth_rules` with that
lookup is put into the state at its key.

For every state, event and fetch, `fetch_state` gives for a key the state's event where the key
is selected and its event can be fetched and was not rejected, else the last own auth event with
the key, else `NotFound` (`fetch_state_prefers_resolved_state`): the state's entries come last in
the collection, and the collection keeps the last entry of each key (`SortedLookup`).

The model is generic, as the source is over `Pdu: Event`: in the event ids, the PDUs, the state
event types and the state keys, of which only their linear orders are read.  The state-dependent
rules are any function of the event and the lookup (`EventAuth` models them).
-/

namespace Tuwunel
namespace StateRes
namespace IterativeAuthCheck

open KeyValue SortedLookup Events

/-- What the auth checks read of a PDU through `Event`. -/
structure PduReads (ι π τ σ : Type) where
  /-- `event_type()`, in the `StateEventType` spelling that `with_state_key` gives it. -/
  eventType : π → τ
  stateKey : π → Option σ
  rejected : π → Bool
  authEvents : π → List ι
  /-- `room_id().as_event_id().ok()`: the create event a room id names, if it names one. -/
  roomIdAsEventId : π → Option ι

/-- `Request(NotFound("Missing auth_event {ty:?},{key:?}"))`, with the key it prints. -/
structure MissingAuthEvent (τ σ : Type) where
  ty : τ
  key : σ
  deriving DecidableEq, Repr

variable {ι π τ σ : Type} [LinearOrder τ] [LinearOrder σ]

section AuthCheck

variable (reads : PduReads ι π τ σ)

/-- The entry of a fetched own auth event: under its type and state key unless it was rejected;
`Err` where it has no state key. -/
def ownAuthEntry (authEvent : π) : Except String (Option ((τ × σ) × π)) :=
  match reads.stateKey authEvent with
  | none => .error "Missing state_key"
  | some stateKey =>
      .ok (if reads.rejected authEvent = false then some ((reads.eventType authEvent, stateKey), authEvent)
        else none)

/-- The ids of the event's own auth events: its `auth_events`, then the create event its room id
names, where the rules key rooms by their create event and the event is not that create event. -/
def authEventIds (roomCreate : τ) (rules : AuthorizationRules) (event : π) : List ι :=
  let alsoNeedCreateEvent := decide (reads.eventType event ≠ roomCreate) && rules.roomCreateEventIdAsRoomId
  reads.authEvents event ++ (if alsoNeedCreateEvent then reads.roomIdAsEventId event else none).toList

/-- The entries of the own auth events in order, those that cannot be fetched left out. -/
def ownAuthEntries (fetch : ι → Except String π) (ids : List ι) :
    Except String (List ((τ × σ) × π)) :=
  ids.filterMapM fun id =>
    match fetch id with
    | .error _ => .ok none
    | .ok authEvent => ownAuthEntry reads authEvent

/-- `auth_types_events`: at each selected auth type the state holds, its event, where it can be
fetched and was not rejected. -/
def authTypesEntries (fetch : ι → Except String π) (state : Table (τ × σ) ι)
    (authTypes : List (τ × σ)) : List ((τ × σ) × π) :=
  authTypes.filterMap fun key =>
    (state.get key).bind fun id =>
      match fetch id with
      | .error _ => none
      | .ok authEvent => if reads.rejected authEvent = false then some (key, authEvent) else none

/-- The auth events `auth_check` hands to the rules: the own entries, then the state's, sorted by
key (the tuple order, type first), reversed, and deduplicated keeping the first of each key. -/
def collectAuthEvents (roomCreate : τ) (rules : AuthorizationRules) (fetch : ι → Except String π)
    (state : Table (τ × σ) ι) (event : π) (authTypes : List (τ × σ)) :
    Except String (List ((τ × σ) × π)) := do
  let own ← ownAuthEntries reads fetch (authEventIds reads roomCreate rules event)
  pure (lastByKey (fun entry => toLex entry.1) (own ++ authTypesEntries reads fetch state authTypes))

/-- `fetch_state`: a binary search of the collected auth events for a key, with the comparator
turned round to match their descending order. -/
def fetchState (authEvents : List ((τ × σ) × π)) (ty : τ) (key : σ) :
    Except (MissingAuthEvent τ σ) π :=
  match found : binarySearchBy authEvents
      (fun entry => (compare ty entry.1.1).then (compare key entry.1.2)) with
  | .ok index => .ok (authEvents.get ⟨index, binarySearchBy_lt found⟩).2
  | .error _ => .error ⟨ty, key⟩

/-- `auth_check`: the state with the event put at its key where the rules pass it with the
collected lookup, and unchanged where its auth types cannot be selected. -/
def authCheck (roomCreate : τ) (rules : AuthorizationRules)
    (authTypesForEvent : π → σ → Except String (List (τ × σ)))
    (checkStateDependentAuthRules : π → (τ → σ → Except (MissingAuthEvent τ σ) π) → Bool)
    (fetch : ι → Except String π) (state : Table (τ × σ) ι) (eventId : ι) (stateKey : σ)
    (event : π) : Except String (Table (τ × σ) ι) :=
  match authTypesForEvent event stateKey with
  | .error _ => .ok state
  | .ok authTypes => do
      let authEvents ← collectAuthEvents reads roomCreate rules fetch state event authTypes
      if checkStateDependentAuthRules event (fetchState authEvents) then
        pure (state.put (reads.eventType event, stateKey) eventId)
      else pure state

/-- `iterative_auth_check`: each event fetched, its state key required, and checked against the
state the earlier ones left. -/
def iterativeAuthCheck (roomCreate : τ) (rules : AuthorizationRules)
    (authTypesForEvent : π → σ → Except String (List (τ × σ)))
    (checkStateDependentAuthRules : π → (τ → σ → Except (MissingAuthEvent τ σ) π) → Bool)
    (events : List ι) (state : Table (τ × σ) ι) (fetch : ι → Except String π) :
    Except String (Table (τ × σ) ι) :=
  events.foldlM (fun state eventId => do
      let event ← fetch eventId
      let stateKey ← match reads.stateKey event with
        | some stateKey => pure stateKey
        | none => throw "Missing state_key"
      authCheck reads roomCreate rules authTypesForEvent checkStateDependentAuthRules fetch state
        eventId stateKey event)
    state

end AuthCheck

/-! ## The lookup handed to the rules -/

section Lookup

variable (reads : PduReads ι π τ σ)

/-- The entry an own auth event gives once the check has let it through. -/
def ownEntry (authEvent : π) : Option ((τ × σ) × π) :=
  if reads.rejected authEvent = false then
    (reads.stateKey authEvent).map fun stateKey => ((reads.eventType authEvent, stateKey), authEvent)
  else none

variable {reads}

omit [LinearOrder τ] [LinearOrder σ] in
theorem ownAuthEntry_eq_ok {authEvent : π} {entry : Option ((τ × σ) × π)}
    (passed : ownAuthEntry reads authEvent = .ok entry) : entry = ownEntry reads authEvent := by
  unfold ownAuthEntry at passed
  unfold ownEntry
  split at passed
  · cases passed
  · rename_i stateKey keyed
    cases passed
    simp [keyed]

omit [LinearOrder τ] [LinearOrder σ] in
/-- Where no own auth event lacks a state key, the own entries are the entries of the fetched
own auth events. -/
theorem ownAuthEntries_eq_ok {fetch : ι → Except String π} {ids : List ι}
    {own : List ((τ × σ) × π)} (passed : ownAuthEntries reads fetch ids = .ok own) :
    own = ids.filterMap fun id => (fetch id).toOption.bind (ownEntry reads) := by
  induction ids generalizing own with
  | nil =>
      simp only [ownAuthEntries, List.filterMapM_nil, Except.pure_eq_ok] at passed
      simp [passed]
  | cons id ids ih =>
      simp only [ownAuthEntries, List.filterMapM_cons, Except.bind_eq_ok] at passed
      obtain ⟨entry, entered, rest⟩ := passed
      have entry_eq : entry = (fetch id).toOption.bind (ownEntry reads) := by
        cases fetched : fetch id with
        | error _ =>
            -- an own auth event that cannot be fetched is skipped
            simp only [fetched, Except.ok.injEq] at entered
            simp [← entered, Except.toOption]
        | ok authEvent =>
            simp only [fetched] at entered
            rw [ownAuthEntry_eq_ok entered]
            rfl
      rw [List.filterMap_cons, ← entry_eq]
      cases entry with
      | none => exact ih rest
      | some entry =>
          obtain ⟨later, laterOk, built⟩ := Except.bind_eq_ok.mp rest
          rw [Except.pure_eq_ok] at built
          simp [← built, ih laterOk]

omit [LinearOrder τ] [LinearOrder σ] in
/-- The state's entries: at each selected key, the state's event there, fetched and not
rejected. -/
theorem authTypesEntries_eq (fetch : ι → Except String π) (state : Table (τ × σ) ι)
    (authTypes : List (τ × σ)) :
    authTypesEntries reads fetch state authTypes = authTypes.filterMap fun key =>
      (((state.get key).bind fun id => (fetch id).toOption).filter fun pdu => !reads.rejected pdu).map
        ((key, ·)) := by
  apply List.filterMap_congr
  intro key _
  cases state.get key with
  | none => rfl
  | some id =>
      simp only [Option.bind_some]
      cases fetch id with
      | error _ => simp [Except.toOption]
      | ok authEvent =>
          cases rejected : reads.rejected authEvent <;> simp [rejected, Except.toOption, Option.filter]

/-- The last own entry with a key is the last fetched own auth event that passed and carries the
key. -/
theorem find?_reverse_ownEntries (fetched : List π) (ty : τ) (key : σ) :
    ((fetched.filterMap (ownEntry reads)).reverse.find? fun entry => entry.1 = (ty, key)).map
        Prod.snd =
      fetched.reverse.find? fun pdu =>
        reads.rejected pdu = false ∧ reads.eventType pdu = ty ∧ reads.stateKey pdu = some key := by
  rw [← List.filterMap_reverse, List.find?_filterMap]
  -- an own auth event has an entry with the key exactly when it passes and carries the key
  have keyed : (fun pdu => (ownEntry reads pdu).any fun entry => decide (entry.1 = (ty, key))) =
      fun pdu => decide (reads.rejected pdu = false ∧ reads.eventType pdu = ty ∧
        reads.stateKey pdu = some key) := by
    funext pdu
    unfold ownEntry
    cases reads.rejected pdu <;> cases reads.stateKey pdu <;> simp [and_comm]
  rw [keyed]
  cases found : fetched.reverse.find? fun pdu =>
      reads.rejected pdu = false ∧ reads.eventType pdu = ty ∧ reads.stateKey pdu = some key with
  | none => rfl
  | some pdu =>
      have test := List.find?_some found
      simp only [decide_eq_true_eq] at test
      obtain ⟨passed, -, keyOf⟩ := test
      simp [ownEntry, passed, keyOf]

/-- On auth events in strictly descending key order, `fetch_state` gives the entry with the key. -/
theorem fetchState_eq_find? {authEvents : List ((τ × σ) × π)}
    (descending : authEvents.Pairwise fun entry later => toLex later.1 < toLex entry.1)
    (ty : τ) (key : σ) :
    fetchState authEvents ty key =
      match authEvents.find? (fun entry => entry.1 = (ty, key)) with
      | some entry => .ok entry.2
      | none => .error ⟨ty, key⟩ := by
  -- the search's comparator is the tuple order turned round
  have lexed : (fun entry : (τ × σ) × π => decide (entry.1 = (ty, key))) =
      fun entry => decide (toLex entry.1 = toLex (ty, key)) := by
    simp
  unfold fetchState
  split
  · rename_i index found
    rw [lexed, find?_eq_of_binarySearchBy_ok (k := toLex (ty, key)) descending found]
  · rename_i point missing
    rw [lexed, find?_eq_none_of_binarySearchBy_error (k := toLex (ty, key)) descending missing]

/-- The lookup `auth_check` hands to the rules gives, for a key, the event the partial state
holds there where the key is a selected auth type and the event can be fetched and was not
rejected; otherwise the last of the event's own auth events (with the create event its room id
names, where the rules add it) that can be fetched, was not rejected and has the key; otherwise
`NotFound`. -/
theorem fetch_state_prefers_resolved_state (reads : PduReads ι π τ σ) (roomCreate : τ)
    (rules : AuthorizationRules) (fetch : ι → Except String π) (state : Table (τ × σ) ι)
    (event : π) (authTypes : List (τ × σ)) {authEvents : List ((τ × σ) × π)}
    (collected : collectAuthEvents reads roomCreate rules fetch state event authTypes =
      .ok authEvents) (ty : τ) (key : σ) :
    fetchState authEvents ty key =
      match (if (ty, key) ∈ authTypes then
          ((state.get (ty, key)).bind fun id => (fetch id).toOption).filter
            fun pdu => !reads.rejected pdu
        else none) with
      | some pdu => .ok pdu
      | none =>
          match ((authEventIds reads roomCreate rules event).filterMap
              fun id => (fetch id).toOption).reverse.find?
              fun pdu => reads.rejected pdu = false ∧ reads.eventType pdu = ty ∧
                reads.stateKey pdu = some key with
          | some pdu => .ok pdu
          | none => .error ⟨ty, key⟩ := by
  obtain ⟨own, ownOk, built⟩ := Except.bind_eq_ok.mp collected
  rw [Except.pure_eq_ok] at built
  subst built
  have lexed : (fun entry : (τ × σ) × π => decide (toLex entry.1 = toLex (ty, key))) =
      fun entry => decide (entry.1 = (ty, key)) := by
    simp
  rw [fetchState_eq_find? (lastByKey_descending _) ty key, ← lexed, find?_lastByKey, lexed,
    List.reverse_append, List.find?_append, authTypesEntries_eq, find?_reverse_filterMap_pair,
    ownAuthEntries_eq_ok ownOk, ← List.filterMap_filterMap, ← find?_reverse_ownEntries]
  -- the state's entries come last in the collection, so its event wins where it has one
  have fallback : ∀ (stateEvent : Option π) (ownEvent : Option ((τ × σ) × π)),
      (match (stateEvent.map (((ty, key), ·))).or ownEvent with
        | some entry => (.ok entry.2 : Except (MissingAuthEvent τ σ) π)
        | none => .error ⟨ty, key⟩) =
      match stateEvent with
      | some pdu => .ok pdu
      | none =>
          match ownEvent.map Prod.snd with
          | some pdu => .ok pdu
          | none => .error ⟨ty, key⟩ := by
    intro stateEvent ownEvent
    cases stateEvent <;> cases ownEvent <;> rfl
  rw [fallback]
  by_cases selected : (ty, key) ∈ authTypes <;> simp only [selected, if_true, if_false]

/-- PDUs named by numbers: `1` is the create event (type `0`) and every other one sets power
levels (type `3`); each has state key `0` and cites `1` and `2` as its auth events. -/
def samplePduReads : PduReads Nat Nat Nat Nat where
  eventType pdu := if pdu = 1 then 0 else 3
  stateKey _ := some 0
  rejected _ := false
  authEvents _ := [1, 2]
  roomIdAsEventId _ := none

/-- Event `7` cites power levels `2`, while the partial state holds power levels `5`: the rules
see `5`. -/
theorem fetch_state_prefers_resolved_state_powerLevels :
    collectAuthEvents samplePduReads 0 RoomVersion.v11.rules (fun id => .ok id)
        (Table.empty.put (3, 0) 5) 7 [(3, 0)] = .ok [((3, 0), 5), ((0, 0), 1)] ∧
      fetchState [((3, 0), 5), ((0, 0), 1)] 3 0 = .ok 5 := by
  have own : ownAuthEntries samplePduReads (fun id => .ok id)
      (authEventIds samplePduReads 0 RoomVersion.v11.rules 7) = .ok [((0, 0), 1), ((3, 0), 2)] := by
    decide
  have fromState : authTypesEntries samplePduReads (fun id => .ok id) (Table.empty.put (3, 0) 5)
      [(3, 0)] = [((3, 0), 5)] := by
    decide
  -- the three entries are in key order already, so the sort keeps them
  have collected : collectAuthEvents samplePduReads 0 RoomVersion.v11.rules (fun id => .ok id)
      (Table.empty.put (3, 0) 5) 7 [(3, 0)] = .ok [((3, 0), 5), ((0, 0), 1)] := by
    simp only [collectAuthEvents, own, fromState, bind, Except.bind, pure, Except.pure]
    rw [lastByKey, List.mergeSort_of_pairwise (by decide)]
    decide
  exact ⟨collected, (fetch_state_prefers_resolved_state samplePduReads 0 RoomVersion.v11.rules _ _ 7
    [(3, 0)] collected 3 0).trans (by decide)⟩

end Lookup

end IterativeAuthCheck
end StateRes
end Tuwunel
