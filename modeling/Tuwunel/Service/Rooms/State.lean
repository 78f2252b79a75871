import Mathlib
import Tuwunel.Library.StepRun
import Tuwunel.Service.Rooms.StateCompressor

/-!
# Room states

`save_state`, `set_event_state` and `append_to_state` give an entry set of one room a
shortstatehash: one `statehash_shortstatehash` already has for the set's hash, or a fresh one
whose diff on the room's current state `save_state_from_diff` writes.  Between calls the room's
current shortstatehash moves to any shortstatehash a call returned.

A run records each returned shortstatehash with the entry set it was created for: the set
`save_state` or `set_event_state` was given, and for `append_to_state` the room's state with the
entry for the event's shortstatekey replaced by the event (`replaceEntry`), or that state itself
for an event without a state key.  `Invariant` holds after every run: each recorded
shortstatehash loads to its set, every stored diff has a stack of at most four frames, each a
minimal delta on the one below, and the cache holds only such stacks.  It rests on the hash of
an entry set telling sets apart, which is the assumption the server makes of `calculate_hash`.
-/

namespace Tuwunel
namespace State

open KeyValue StateCompressor

/-- `HashSetCompressStateEvent`, the answer of `save_state`. -/
structure HashSetCompressStateEvent where
  shortstatehash : ShortStateHash
  added : CompressedState
  removed : CompressedState

/-- What `append_to_state` reads of its `PduEvent`, as short ids: the event's, and for a state
event that of its type and state key. -/
structure Pdu where
  shorteventid : ShortEventId
  shortstatekey : Option ShortStateKey
  deriving DecidableEq

/-- The rows one room's state calls read and write, and the record of a run. -/
structure World (Digest : Type) where
  compressor : StateCompressor.Service
  statehashShortstatehash : Table Digest ShortStateHash
  shorteventidShortstatehash : Table ShortEventId ShortStateHash
  /-- The room's row of `roomid_shortstatehash`. -/
  roomidShortstatehash : Option ShortStateHash
  /-- The global counter `next_count` draws from. -/
  count : Nat
  /-- Each shortstatehash a call returned, with the entry set it was created for; a record of
  the run, not a table of the server. -/
  returned : List (ShortStateHash × CompressedState)

/-- At most one entry per shortstatekey. -/
def Keyed (state : CompressedState) : Prop :=
  ∀ a ∈ state, ∀ b ∈ state, (ofLex a).1 = (ofLex b).1 → a = b

instance : DecidablePred Keyed := fun state =>
  inferInstanceAs (Decidable (∀ a ∈ state, ∀ b ∈ state, (ofLex a).1 = (ofLex b).1 → a = b))

/-- The entry set with the entry for `event`'s shortstatekey replaced by `event`. -/
def replaceEntry (state : CompressedState) (event : CompressedStateEvent) : CompressedState :=
  insert event (state.filter fun other => (ofLex other).1 ≠ (ofLex event).1)

/-- The first entry, in byte order, of the shortstatekey: `append_to_state`'s search of the full
state. -/
def findStateKey (state : CompressedState) (shortstatekey : ShortStateKey) :
    Option CompressedStateEvent :=
  (state.sort (· ≤ ·)).find? (startsWith · shortstatekey)

/-- The `shorteventid_shortstatehash` row of an event, written where there is a shortstatehash to
write. -/
def World.putShortstatehash {Digest : Type} (world : World Digest) (shorteventid : ShortEventId) :
    Option ShortStateHash → World Digest
  | some shortstatehash =>
      { world with
        shorteventidShortstatehash := world.shorteventidShortstatehash.put shorteventid
          shortstatehash }
  | none => world

section PutShortstatehash

variable {Digest : Type} (world : World Digest) (shorteventid : ShortEventId)
  (shortstatehash : Option ShortStateHash)

@[simp]
theorem World.putShortstatehash_compressor :
    (world.putShortstatehash shorteventid shortstatehash).compressor = world.compressor := by
  cases shortstatehash <;> rfl

@[simp]
theorem World.putShortstatehash_statehashShortstatehash :
    (world.putShortstatehash shorteventid shortstatehash).statehashShortstatehash =
      world.statehashShortstatehash := by
  cases shortstatehash <;> rfl

@[simp]
theorem World.putShortstatehash_roomidShortstatehash :
    (world.putShortstatehash shorteventid shortstatehash).roomidShortstatehash =
      world.roomidShortstatehash := by
  cases shortstatehash <;> rfl

@[simp]
theorem World.putShortstatehash_count :
    (world.putShortstatehash shorteventid shortstatehash).count = world.count := by
  cases shortstatehash <;> rfl

@[simp]
theorem World.putShortstatehash_returned :
    (world.putShortstatehash shorteventid shortstatehash).returned = world.returned := by
  cases shortstatehash <;> rfl

end PutShortstatehash

section Calls

variable {Digest : Type} [DecidableEq Digest] (calculateHash : CompressedState → Digest)

/-- The stack of the room's current state, loaded as the three calls load it; a room without
state has none. -/
def loadStatesParents (world : World Digest) :
    Option (List ShortStateInfo) × StateCompressor.Service :=
  match world.roomidShortstatehash with
  | some previous => world.compressor.loadShortstatehashInfo previous
  | none => (some [], world.compressor)

/-- The diff `save_state` and `set_event_state` compute against the stack's top state. -/
def statediffAgainst (statesParents : List ShortStateInfo) (state : CompressedState) :
    CompressedState × CompressedState :=
  match statesParents with
  | parent :: _ => (state \ parent.fullState, parent.fullState \ state)
  | [] => (state, ∅)

/-- `short::create_shortstatehash` with `save_state_from_diff` as its `write_statediff`: it draws a
count, and commits the `statehash_shortstatehash` row with the diff, or nothing where the diff
fails. -/
def createShortstatehash (world : World Digest) (stateHash : Digest)
    (statediffnew statediffremoved : CompressedState) (diffToSibling : Nat)
    (statesParents : List ShortStateInfo) : Option ShortStateHash × World Digest :=
  let shortstatehash := world.count + 1
  let world := { world with count := shortstatehash }
  match saveStateFromDiff world.compressor.shortstatehashStatediff shortstatehash statediffnew
      statediffremoved diffToSibling statesParents with
  | some statediffs =>
      (some shortstatehash,
        { world with
          compressor := { world.compressor with shortstatehashStatediff := statediffs }
          statehashShortstatehash := world.statehashShortstatehash.put stateHash shortstatehash })
  | none => (none, world)

/-- `state_compressor::save_state`; `none` is an error. -/
def saveState (world : World Digest) (newStateIdsCompressed : CompressedState) :
    Option HashSetCompressStateEvent × World Digest :=
  let previousShortstatehash := world.roomidShortstatehash
  let stateHash := calculateHash newStateIdsCompressed
  let existingShortstatehash := world.statehashShortstatehash.get stateHash
  match existingShortstatehash.filter (previousShortstatehash == some ·) with
  | some newShortstatehash => (some ⟨newShortstatehash, ∅, ∅⟩, world)
  | none =>
      -- a failed load is `unwrap_or_default`: no parents
      let (loaded, compressor) := loadStatesParents world
      let statesParents := loaded.getD []
      let world := { world with compressor }
      let (statediffnew, statediffremoved) := statediffAgainst statesParents newStateIdsCompressed
      match existingShortstatehash with
      | some newShortstatehash => (some ⟨newShortstatehash, statediffnew, statediffremoved⟩, world)
      | none =>
          -- `get_or_create_shortstatehash` misses again, and creates
          let (created, world) := createShortstatehash world stateHash statediffnew
            statediffremoved 2 statesParents
          (created.map (⟨·, statediffnew, statediffremoved⟩), world)

/-- `state::set_event_state` for the event with short id `shorteventid`. -/
def setEventState (world : World Digest) (shorteventid : ShortEventId)
    (stateIdsCompressed : CompressedState) : Option ShortStateHash × World Digest :=
  let stateHash := calculateHash stateIdsCompressed
  match world.statehashShortstatehash.get stateHash with
  | some shortstatehash =>
      (some shortstatehash, world.putShortstatehash shorteventid (some shortstatehash))
  | none =>
      let (loaded, compressor) := loadStatesParents world
      let world := { world with compressor }
      match loaded with
      -- the load's error
      | none => (none, world)
      | some statesParents =>
          let (statediffnew, statediffremoved) := statediffAgainst statesParents stateIdsCompressed
          match createShortstatehash world stateHash statediffnew statediffremoved 1000000
              statesParents with
          | (some shortstatehash, world) =>
              (some shortstatehash, world.putShortstatehash shorteventid (some shortstatehash))
          | (none, world) => (none, world)

/-- `state::append_to_state`. -/
def appendToState (world : World Digest) (newPdu : Pdu) : Option ShortStateHash × World Digest :=
  let previousShortstatehash := world.roomidShortstatehash
  let world := world.putShortstatehash newPdu.shorteventid previousShortstatehash
  match newPdu.shortstatekey with
  -- `expect("first event in room must be a state event")` where the room has no state
  | none => (previousShortstatehash, world)
  | some shortstatekey =>
      let (loaded, compressor) := loadStatesParents world
      let world := { world with compressor }
      match loaded with
      | none => (none, world)
      | some statesParents =>
          let new := compressStateEvent shortstatekey newPdu.shorteventid
          let replaces := statesParents.head?.bind fun info => findStateKey info.fullState shortstatekey
          if some new = replaces then (previousShortstatehash, world)
          else
            let shortstatehash := world.count + 1
            let world := { world with count := shortstatehash }
            match saveStateFromDiff world.compressor.shortstatehashStatediff shortstatehash {new}
                replaces.toFinset 2 statesParents with
            | some statediffs =>
                (some shortstatehash,
                  { world with
                    compressor := { world.compressor with shortstatehashStatediff := statediffs } })
            | none => (none, world)

end Calls

/-! ## Runs of calls -/

/-- The calls on the room, and the cache's evictions. -/
inductive Operation
  | saveState (state : CompressedState)
  | setEventState (shorteventid : ShortEventId) (state : CompressedState)
  | appendToState (pdu : Pdu)
  /-- `set_room_state`. -/
  | setRoomState (shortstatehash : ShortStateHash)
  /-- `stateinfo_cache` dropping an entry. -/
  | evictStateinfo (shortstatehash : ShortStateHash)

namespace World

variable {Digest : Type}

/-- No rows, and the counter at zero. -/
def empty : World Digest :=
  ⟨⟨Table.empty, Table.empty⟩, Table.empty, Table.empty, none, 0, []⟩

/-- Record that a call answered `result` for the entry set `state`. -/
def record (world : World Digest) (result : Option ShortStateHash) (state : CompressedState) :
    World Digest :=
  { world with returned := world.returned ++ (result.map (·, state)).toList }

/-- The entry set the room's current shortstatehash was created for, by the record. -/
def roomState (world : World Digest) : CompressedState :=
  (world.roomidShortstatehash.bind fun shortstatehash => List.lookup shortstatehash world.returned).getD ∅

end World

/-- The calls the room's callers make: entry sets with at most one entry per shortstatekey, and
the room moved only to a shortstatehash some call returned. -/
def Admissible {Digest : Type} (world : World Digest) : Operation → Prop
  | .saveState state => Keyed state
  | .setEventState _ state => Keyed state
  | .appendToState _ => True
  | .setRoomState shortstatehash => shortstatehash ∈ world.returned.map Prod.fst
  | .evictStateinfo _ => True

instance {Digest : Type} (world : World Digest) : DecidablePred (Admissible world)
  | .saveState state => inferInstanceAs (Decidable (Keyed state))
  | .setEventState _ state => inferInstanceAs (Decidable (Keyed state))
  | .appendToState _ => instDecidableTrue
  | .setRoomState shortstatehash =>
      inferInstanceAs (Decidable (shortstatehash ∈ world.returned.map Prod.fst))
  | .evictStateinfo _ => instDecidableTrue

section Step

variable {Digest : Type} [DecidableEq Digest] (calculateHash : CompressedState → Digest)

/-- The entry set `append_to_state` creates its shortstatehash for. -/
def appendedState (world : World Digest) (pdu : Pdu) : CompressedState :=
  match pdu.shortstatekey with
  | some shortstatekey => replaceEntry world.roomState (compressStateEvent shortstatekey pdu.shorteventid)
  | none => world.roomState

/-- One call, with its answer recorded. -/
def perform (world : World Digest) : Operation → World Digest
  | .saveState state =>
      let (result, world') := saveState calculateHash world state
      world'.record (result.map (·.shortstatehash)) state
  | .setEventState shorteventid state =>
      let (result, world') := setEventState calculateHash world shorteventid state
      world'.record result state
  | .appendToState pdu =>
      let (result, world') := appendToState world pdu
      world'.record result (appendedState world pdu)
  | .setRoomState shortstatehash => { world with roomidShortstatehash := some shortstatehash }
  | .evictStateinfo shortstatehash =>
      { world with
        compressor := { world.compressor with
          stateinfoCache := world.compressor.stateinfoCache.remove shortstatehash } }

/-- A call the room's callers make. -/
def step (world : World Digest) (operation : Operation) : Option (World Digest) :=
  if Admissible world operation then some (perform calculateHash world operation) else none

end Step

end State
end Tuwunel
