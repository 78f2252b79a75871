import Tuwunel.Library.KeyValue
import Tuwunel.Library.Interleaving
import Tuwunel.Core.TwoPhaseCounter

/-!
# Short ids

`get_or_create_shorteventid`, `get_or_create_shortstatekey` and `get_or_create_shortstatehash`
give an event id, a state key (an event type and a state key) or a state hash its short id.  Each
reads the forward column, and on a miss runs `create_*`: it locks the identity in its `MutexMap` of
`Creating`, reads again, draws a number from the global counter, and writes the forward column
and, for events and state keys, the reverse one in one transaction.  `get_or_create_shortstatehash`
also lets `write_statediff` add to that transaction, and its failure drops the transaction.
`multi_get_or_create_shorteventid` reads every event id of its batch and creates each missing one
on its own, concurrently, yielding the results in order.

Each call is a task of an `Interleaving.Program`.  The result of a read is taken when the read
completes (`got`, `regot`) and acted on at a later poll, so other calls may run in between; the
`MutexMap` is the program's lock on the identity.  Every other caller of `next_count` is the
environment, drawing and dropping permits of the counter.
-/

namespace Tuwunel
namespace Short

open KeyValue

variable {EventId Key Digest : Type}

/-- What a short id is allocated for: the three kinds have their own columns and `MutexMap`. -/
inductive Identity (EventId Key Digest : Type)
  /-- An event id, in `eventid_shorteventid`. -/
  | event (eventId : EventId)
  /-- An `(event_type, state_key)` pair, in `statekey_shortstatekey`. -/
  | stateKey (key : Key)
  /-- A state hash, in `statehash_shortstatehash`. -/
  | stateHash (stateHash : Digest)
  deriving DecidableEq, Repr

/-- The short-id columns, and the global counter `next_count` draws from. -/
structure Store (EventId Key Digest : Type) where
  eventidShorteventid : Table EventId Nat
  shorteventidEventid : Table Nat EventId
  statekeyShortstatekey : Table Key Nat
  shortstatekeyStatekey : Table Nat Key
  statehashShortstatehash : Table Digest Nat
  counter : TwoPhaseCounter.State

namespace Store

/-- The forward column of an identity's kind, read at the identity. -/
def lookup (store : Store EventId Key Digest) : Identity EventId Key Digest → Option Nat
  | .event eventId => store.eventidShorteventid.get eventId
  | .stateKey key => store.statekeyShortstatekey.get key
  | .stateHash stateHash => store.statehashShortstatehash.get stateHash

/-- Empty columns over the counter. -/
def empty (counter : TwoPhaseCounter.State) : Store EventId Key Digest :=
  ⟨Table.empty, Table.empty, Table.empty, Table.empty, Table.empty, counter⟩

/-- `get_shorteventid`. -/
def getShorteventid (store : Store EventId Key Digest) (eventId : EventId) : Option Nat :=
  store.lookup (.event eventId)

/-- `get_shortstatekey`. -/
def getShortstatekey (store : Store EventId Key Digest) (key : Key) : Option Nat :=
  store.lookup (.stateKey key)

/-- `get_shortstatehash`. -/
def getShortstatehash (store : Store EventId Key Digest) (stateHash : Digest) : Option Nat :=
  store.lookup (.stateHash stateHash)

variable [DecidableEq EventId] [DecidableEq Key] [DecidableEq Digest]

/-- The transaction of `create_*` for the short id `short`: the forward column, and the reverse one
for events and state keys. -/
def insert (store : Store EventId Key Digest) (short : Nat) :
    Identity EventId Key Digest → Store EventId Key Digest
  | .event eventId =>
      { store with
        shorteventidEventid := store.shorteventidEventid.put short eventId
        eventidShorteventid := store.eventidShorteventid.put eventId short }
  | .stateKey key =>
      { store with
        shortstatekeyStatekey := store.shortstatekeyStatekey.put short key
        statekeyShortstatekey := store.statekeyShortstatekey.put key short }
  | .stateHash stateHash =>
      { store with statehashShortstatehash := store.statehashShortstatehash.put stateHash short }

@[simp]
theorem insert_counter (store : Store EventId Key Digest) (short : Nat)
    (identity : Identity EventId Key Digest) : (store.insert short identity).counter = store.counter := by
  cases identity <;> rfl

/-- The transaction adds one row to the forward columns, at the identity. -/
@[simp]
theorem lookup_insert (store : Store EventId Key Digest) (short : Nat)
    (identity other : Identity EventId Key Digest) :
    (store.insert short identity).lookup other =
      if other = identity then some short else store.lookup other := by
  cases identity <;> cases other <;> simp [insert, lookup, Table.get_put]

end Store

/-- A call's request: the identity, and for `get_or_create_shortstatehash` whether
`write_statediff` succeeds for each short id it may be given. -/
inductive Request (EventId Key Digest : Type)
  | shorteventid (eventId : EventId)
  | shortstatekey (key : Key)
  | shortstatehash (stateHash : Digest) (writeStatediff : Nat → Bool)

/-- The identity a request allocates for. -/
def Request.identity : Request EventId Key Digest → Identity EventId Key Digest
  | .shorteventid eventId => .event eventId
  | .shortstatekey key => .stateKey key
  | .shortstatehash stateHash _ => .stateHash stateHash

/-- Whether the transaction executes once `short` is drawn: only `write_statediff` can fail it. -/
def Request.commits : Request EventId Key Digest → Nat → Bool
  | .shortstatehash _ writeStatediff => writeStatediff
  | _ => fun _ => true

/-- The await at which a call is suspended, with what it has read. -/
inductive Phase
  /-- Not polled yet. -/
  | start
  /-- The first read of the forward column completed with `found`. -/
  | got (found : Option Nat)
  /-- Awaiting the identity's lock in `Creating`. -/
  | lock
  /-- Holding the lock; the read again completed with `found`. -/
  | regot (found : Option Nat)
  /-- Returned `short`; `existed` is whether it was read rather than drawn, which
  `get_or_create_shortstatehash` returns with it. -/
  | done (short : Nat) (existed : Bool)
  /-- `write_statediff` failed: `create_shortstatehash` returned its error, writing nothing. -/
  | failed
  /-- `next_count` panicked: the counter is exhausted. -/
  | panicked
  /-- Dropped at an await. -/
  | cancelled
  deriving DecidableEq, Repr

/-- A call in flight. -/
structure Task (EventId Key Digest : Type) where
  request : Request EventId Key Digest
  phase : Phase

/-- `get_or_create_shorteventid(event_id)`, not polled yet. -/
def getOrCreateShorteventid (eventId : EventId) : Task EventId Key Digest :=
  ⟨.shorteventid eventId, .start⟩

/-- `multi_get_or_create_shorteventid(event_ids)`: for each event id in order, its read and, on a
miss, its own `create_shorteventid`; `wide_then` runs them concurrently. -/
def multiGetOrCreateShorteventid (eventIds : List EventId) : List (Task EventId Key Digest) :=
  eventIds.map getOrCreateShorteventid

/-- `get_or_create_shortstatekey(event_type, state_key)`, not polled yet. -/
def getOrCreateShortstatekey (key : Key) : Task EventId Key Digest :=
  ⟨.shortstatekey key, .start⟩

/-- `get_or_create_shortstatehash(state_hash, write_statediff)`, not polled yet. -/
def getOrCreateShortstatehash (stateHash : Digest) (writeStatediff : Nat → Bool) :
    Task EventId Key Digest :=
  ⟨.shortstatehash stateHash writeStatediff, .start⟩

variable [DecidableEq EventId] [DecidableEq Key] [DecidableEq Digest]

/-- `create_*` after its read again found nothing: `next_count`, the transaction, and the permit
dropped on return, after the transaction or its error. -/
def Request.create (request : Request EventId Key Digest) (store : Store EventId Key Digest) :
    Store EventId Key Digest × Phase :=
  match TwoPhaseCounter.next store.counter (fun _ => true) with
  | (.ok permit, counter) =>
      let counter := (TwoPhaseCounter.drop counter permit).1
      if request.commits permit.id then
        ({ store.insert permit.id request.identity with counter }, .done permit.id false)
      else ({ store with counter }, .failed)
  | (.error _, counter) => ({ store with counter }, .panicked)

/-- A poll of a call: the code from its await to the next one. -/
def Task.advance (store : Store EventId Key Digest) (task : Task EventId Key Digest) :
    Store EventId Key Digest × Phase :=
  match task.phase with
  | .start => (store, .got (store.lookup task.request.identity))
  | .got (some short) => (store, .done short true)
  | .got none => (store, .lock)
  | .lock => (store, .regot (store.lookup task.request.identity))
  | .regot (some short) => (store, .done short true)
  | .regot none => task.request.create store
  | phase => (store, phase)

/-- The lock a call awaits. -/
def Phase.awaits (identity : Identity EventId Key Digest) : Phase → Option (Identity EventId Key Digest)
  | .lock => some identity
  | _ => none

/-- The lock a call holds: its guard `_lock`. -/
def Phase.holds (identity : Identity EventId Key Digest) : Phase → List (Identity EventId Key Digest)
  | .regot _ => [identity]
  | _ => []

/-- The call has not returned and was not dropped. -/
def Phase.live : Phase → Bool
  | .done _ _ | .failed | .panicked | .cancelled => false
  | _ => true

/-- Another caller of `next_count`, drawing a permit or dropping one. -/
def Store.other (store : Store EventId Key Digest) : TwoPhaseCounter.Action → Store EventId Key Digest
  | .next commit => { store with counter := (TwoPhaseCounter.next store.counter commit).2 }
  | .drop permit => { store with counter := (TwoPhaseCounter.drop store.counter permit).1 }

/-- The short-id calls, interleaved at their awaits, among other callers of `next_count`. -/
def program : Interleaving.Program (Store EventId Key Digest) (Task EventId Key Digest)
    (Identity EventId Key Digest) TwoPhaseCounter.Action where
  awaits task := task.phase.awaits task.request.identity
  holds task := task.phase.holds task.request.identity
  live task := task.phase.live
  resume store task := ((task.advance store).1, { task with phase := (task.advance store).2 })
  cancel task := { task with phase := .cancelled }
  env store action := some (store.other action)

/-! ## What a poll writes -/

namespace Store

omit [DecidableEq EventId] [DecidableEq Key] [DecidableEq Digest] in
@[simp]
theorem lookup_withCounter (store : Store EventId Key Digest) (counter : TwoPhaseCounter.State)
    (identity : Identity EventId Key Digest) :
    ({ store with counter } : Store EventId Key Digest).lookup identity = store.lookup identity := by
  cases identity <;> rfl

omit [DecidableEq EventId] [DecidableEq Key] [DecidableEq Digest] in
@[simp]
theorem lookup_other (store : Store EventId Key Digest) (action : TwoPhaseCounter.Action)
    (identity : Identity EventId Key Digest) : (store.other action).lookup identity = store.lookup identity := by
  cases action <;> simp [other]

omit [DecidableEq EventId] [DecidableEq Key] [DecidableEq Digest] in
/-- Other callers of `next_count` write only the counter. -/
theorem other_eq (store : Store EventId Key Digest) (action : TwoPhaseCounter.Action) :
    store.other action = { store with counter := (store.other action).counter } := by
  cases action <;> rfl

omit [DecidableEq EventId] [DecidableEq Key] [DecidableEq Digest] in
/-- Other callers of `next_count` never move the counter back. -/
theorem dispatched_le_other (store : Store EventId Key Digest) (action : TwoPhaseCounter.Action) :
    store.counter.dispatched ≤ (store.other action).counter.dispatched := by
  cases action with
  | next commit => exact TwoPhaseCounter.dispatched_le_next commit
  | drop permit => simp [other, TwoPhaseCounter.drop]

end Store

/-- `create_*` draws `dispatched + 1` and writes it at the identity, or writes nothing and fails or
panics; either way the counter does not move back. -/
theorem Request.create_cases (request : Request EventId Key Digest)
    (store : Store EventId Key Digest) :
    (∃ counter : TwoPhaseCounter.State, counter.dispatched = store.counter.dispatched + 1 ∧
        request.create store =
          ({ store.insert (store.counter.dispatched + 1) request.identity with counter },
            .done (store.counter.dispatched + 1) false)) ∨
      ∃ counter : TwoPhaseCounter.State, store.counter.dispatched ≤ counter.dispatched ∧
        ((request.create store).1 = { store with counter } ∧
          ((request.create store).2 = .failed ∨ (request.create store).2 = .panicked)) := by
  unfold Request.create
  cases drawn : TwoPhaseCounter.next store.counter (fun _ => true) with
  | mk result counter =>
      cases result with
      | ok permit =>
          obtain ⟨issued, dispatched⟩ := TwoPhaseCounter.next_ok drawn
          dsimp only
          split_ifs
          · refine .inl ⟨(TwoPhaseCounter.drop counter permit).1,
              by simp [TwoPhaseCounter.drop, dispatched], ?_⟩
            rw [issued]
          · exact .inr ⟨(TwoPhaseCounter.drop counter permit).1,
              by simp [TwoPhaseCounter.drop, dispatched], rfl, .inl rfl⟩
      | error error =>
          exact .inr ⟨counter, by simp [TwoPhaseCounter.next_error drawn], rfl, .inr rfl⟩

/-- A poll holds the lock only after awaiting it, and only until its next poll. -/
theorem Task.advance_holds (store : Store EventId Key Digest) (task : Task EventId Key Digest)
    {key : Identity EventId Key Digest} (held : key ∈ (task.advance store).2.holds task.request.identity) :
    key ∈ task.phase.holds task.request.identity ∨ task.phase.awaits task.request.identity = some key := by
  obtain ⟨request, phase⟩ := task
  cases phase with
  | lock =>
      simp only [Task.advance, Phase.holds, List.mem_singleton] at held
      exact .inr (by rw [held]; rfl)
  | regot found =>
      cases found with
      | some short => simp [Task.advance, Phase.holds] at held
      | none =>
          -- `create_*` returns, releasing the lock
          rcases request.create_cases store with ⟨_, -, created⟩ | ⟨_, -, -, failed | panicked⟩
          · simp [Task.advance, created, Phase.holds] at held
          · simp [Task.advance, failed, Phase.holds] at held
          · simp [Task.advance, panicked, Phase.holds] at held
  | got found => cases found <;> simp [Task.advance, Phase.holds] at held
  | _ => exact .inl held

/-! ## Consistent columns -/

/-- The columns agree with each other and with the counter. -/
structure Consistent (store : Store EventId Key Digest) : Prop where
  /-- `eventid_shorteventid` and `shorteventid_eventid` undo each other. -/
  events : Table.Inverse store.eventidShorteventid store.shorteventidEventid
  /-- `statekey_shortstatekey` and `shortstatekey_statekey` undo each other. -/
  stateKeys : Table.Inverse store.statekeyShortstatekey store.shortstatekeyStatekey
  /-- Every short id was drawn from the counter. -/
  drawn : ∀ identity short, store.lookup identity = some short → short ≤ store.counter.dispatched
  /-- No short id is given to two identities, of one kind or of two. -/
  injective : ∀ identity identity' short, store.lookup identity = some short →
    store.lookup identity' = some short → identity = identity'

namespace Consistent

variable {store : Store EventId Key Digest}

omit [DecidableEq EventId] [DecidableEq Key] [DecidableEq Digest] in
/-- The empty columns, with the counter anywhere. -/
theorem empty (counter : TwoPhaseCounter.State) :
    Consistent (Store.empty counter : Store EventId Key Digest) where
  events _ _ := by simp [Store.empty]
  stateKeys _ _ := by simp [Store.empty]
  drawn identity _ found := by cases identity <;> simp [Store.empty, Store.lookup] at found
  injective identity _ _ found := by cases identity <;> simp [Store.empty, Store.lookup] at found

omit [DecidableEq EventId] [DecidableEq Key] [DecidableEq Digest] in
/-- The counter may move up under the columns. -/
theorem withCounter (consistent : Consistent store) {counter : TwoPhaseCounter.State}
    (later : store.counter.dispatched ≤ counter.dispatched) :
    Consistent { store with counter } where
  events := consistent.events
  stateKeys := consistent.stateKeys
  drawn identity short found := by
    have := consistent.drawn identity short (by simpa using found)
    show short ≤ counter.dispatched
    omega
  injective identity identity' short found found' :=
    consistent.injective identity identity' short (by simpa using found) (by simpa using found')

/-- `create_*`'s transaction of the number just drawn, at an identity without a short id. -/
theorem allocate (consistent : Consistent store) {identity : Identity EventId Key Digest}
    (absent : store.lookup identity = none) {counter : TwoPhaseCounter.State}
    (drawn : counter.dispatched = store.counter.dispatched + 1) :
    Consistent { store.insert (store.counter.dispatched + 1) identity with counter } := by
  -- the drawn number is above every short id in use
  have unused : ∀ other, store.lookup other ≠ some (store.counter.dispatched + 1) :=
    fun other found => by
      have := consistent.drawn other _ found
      omega
  refine ⟨?_, ?_, fun other short found => ?_, fun other other' short found found' => ?_⟩
  · cases identity with
    | event eventId => exact consistent.events.put absent fun other => unused (.event other)
    | _ => exact consistent.events
  · cases identity with
    | stateKey key => exact consistent.stateKeys.put absent fun other => unused (.stateKey other)
    | _ => exact consistent.stateKeys
  · simp only [Store.lookup_withCounter, Store.lookup_insert] at found
    split_ifs at found
    · simp [← Option.some.inj found, drawn]
    · have := consistent.drawn other short found
      show short ≤ counter.dispatched
      omega
  · simp only [Store.lookup_withCounter, Store.lookup_insert] at found found'
    split_ifs at found found' with here here'
    · rw [here, here']
    · exact absurd (Option.some.inj found ▸ found') (unused other')
    · exact absurd (Option.some.inj found' ▸ found) (unused other)
    · exact consistent.injective other other' short found found'

end Consistent

/-! ## The laws of the program -/

theorem program_disciplined : Interleaving.Disciplined (program : Interleaving.Program
    (Store EventId Key Digest) (Task EventId Key Digest) (Identity EventId Key Digest)
    TwoPhaseCounter.Action) where
  resume_holds store task _ held := task.advance_holds store held
  cancel_holds _ := rfl

/-- Only the holder of an identity's lock writes its forward row, and other callers of
`next_count` write none. -/
theorem program_guards : Interleaving.Guards (program : Interleaving.Program
    (Store EventId Key Digest) (Task EventId Key Digest) (Identity EventId Key Digest)
    TwoPhaseCounter.Action) Store.lookup where
  resume_view store task key changed := by
    obtain ⟨request, phase⟩ := task
    simp only [program] at changed ⊢
    cases phase with
    | regot found =>
        cases found with
        | some short => exact absurd rfl changed
        | none =>
            rcases request.create_cases store with ⟨_, -, created⟩ | ⟨_, -, unchanged, -⟩
            · -- the transaction writes the forward row of the locked identity only
              left
              by_contra outside
              simp only [Phase.holds, List.mem_singleton] at outside
              simp [Task.advance, created, outside] at changed
            · simp [Task.advance, unchanged] at changed
    | got found => cases found <;> exact absurd rfl changed
    | _ => exact absurd rfl changed
  env_view store action store' moved key := by
    obtain rfl := Option.some.inj moved
    exact store.lookup_other action key

end Short
end Tuwunel
