import Tuwunel.Service.Rooms.State

/-!
# Every returned shortstatehash loads to its entry set

`Stored` is what every run leaves in the compressor: each stored diff hangs off a parent with a
smaller shortstatehash, below the counter, and has a stack of at most four frames, each a minimal
delta on the frame below; the cache holds only such stacks.  `Invariant` adds that each
`statehash_shortstatehash` row and each recorded answer names a shortstatehash that loads to the
entry set hashed or recorded.

Writing a diff keeps `Stored` (`Stored.write`), by `StateCompressor.stack_saveStateFromDiff`; a
load keeps it (`Stored.load`).  Each call then keeps `Invariant` and answers a shortstatehash that
loads to the entry set it was created for: `saveState_spec`, `setEventState_spec` and
`appendToState_spec`.  The run theorem `states_rebuild_exactly` follows by `StepRun.run_invariant`.
-/

namespace Tuwunel
namespace State

open KeyValue StateCompressor

/-! ## Entry sets -/

theorem findStateKey_some {state : CompressedState} {shortstatekey : ShortStateKey}
    {found : CompressedStateEvent} (search : findStateKey state shortstatekey = some found) :
    found ∈ state ∧ (ofLex found).1 = shortstatekey := by
  refine ⟨(Finset.mem_sort _).mp (List.mem_of_find?_eq_some search), ?_⟩
  simpa [startsWith] using List.find?_some search

theorem findStateKey_none {state : CompressedState} {shortstatekey : ShortStateKey}
    (search : findStateKey state shortstatekey = none) :
    ∀ event ∈ state, (ofLex event).1 ≠ shortstatekey := by
  intro event member same
  have unmatched := List.find?_eq_none.mp search event ((Finset.mem_sort _).mpr member)
  simp [startsWith, same] at unmatched

theorem findStateKey_empty (shortstatekey : ShortStateKey) :
    findStateKey ∅ shortstatekey = none := by
  simp [findStateKey, Finset.sort_empty]

/-- `append_to_state` searches the top frame's full state, the state under the new diff. -/
theorem head_findStateKey (statesParents : List ShortStateInfo) (shortstatekey : ShortStateKey) :
    (statesParents.head?.bind fun info => findStateKey info.fullState shortstatekey) =
      findStateKey (below statesParents) shortstatekey := by
  cases statesParents with
  | nil => simp [below, findStateKey_empty]
  | cons top rest => rfl

theorem Keyed.replaceEntry {state : CompressedState} (keyed : Keyed state)
    (event : CompressedStateEvent) : Keyed (replaceEntry state event) := by
  intro a aIn b bIn same
  simp only [State.replaceEntry, Finset.mem_insert, Finset.mem_filter] at aIn bIn
  rcases aIn with rfl | ⟨aIn, aKey⟩ <;> rcases bIn with rfl | ⟨bIn, bKey⟩
  · rfl
  · exact absurd same.symm bKey
  · exact absurd same aKey
  · exact keyed a aIn b bIn same

theorem Keyed.empty : Keyed ∅ := by
  simp [Keyed]

/-- Replacing an entry by itself changes nothing. -/
theorem replaceEntry_of_mem {state : CompressedState} (keyed : Keyed state)
    {event : CompressedStateEvent} (member : event ∈ state) : replaceEntry state event = state := by
  ext other
  simp only [replaceEntry, Finset.mem_insert, Finset.mem_filter]
  constructor
  · rintro (rfl | ⟨inState, -⟩)
    · exact member
    · exact inState
  · intro inState
    by_cases same : other = event
    · exact .inl same
    · exact .inr ⟨inState, fun sameKey => same (keyed other inState event member sameKey)⟩

/-- On a keyed state, the diff `append_to_state` writes for a new entry is minimal and replaces
the entry of its shortstatekey. -/
theorem appended_delta {state : CompressedState} (keyed : Keyed state)
    {event : CompressedStateEvent} (fresh : some event ≠ findStateKey state (ofLex event).1) :
    SetDelta.Minimal state {event} (findStateKey state (ofLex event).1).toFinset ∧
      SetDelta.apply state {event} (findStateKey state (ofLex event).1).toFinset =
        replaceEntry state event := by
  cases search : findStateKey state (ofLex event).1 with
  | none =>
      -- no entry of the shortstatekey: the event is added
      have absent := findStateKey_none search
      refine ⟨⟨by simpa using fun member => absent event member rfl, by simp⟩, ?_⟩
      ext other
      simp only [SetDelta.mem_apply, Option.toFinset_none, replaceEntry, Finset.mem_insert,
        Finset.mem_filter, Finset.mem_singleton, Finset.notMem_empty, not_false_eq_true, and_true]
      constructor
      · rintro (inState | rfl)
        · exact .inr ⟨inState, absent other inState⟩
        · exact .inl rfl
      · rintro (rfl | ⟨inState, -⟩)
        · exact .inr rfl
        · exact .inl inState
  | some found =>
      -- the found entry is the only one of the shortstatekey, and is not the event
      rw [search] at fresh
      obtain ⟨foundIn, foundKey⟩ := findStateKey_some search
      have distinct : event ≠ found := fun same => fresh (congrArg some same)
      have ofKey : ∀ other ∈ state, (ofLex other).1 = (ofLex event).1 → other = found :=
        fun other inState sameKey => keyed other inState found foundIn (sameKey.trans foundKey.symm)
      refine ⟨⟨by simpa using fun member => distinct (ofKey event member rfl), by simpa using foundIn⟩,
        ?_⟩
      ext other
      simp only [SetDelta.mem_apply, Option.toFinset_some, replaceEntry, Finset.mem_insert,
        Finset.mem_filter, Finset.mem_singleton]
      constructor
      · rintro ⟨inState | rfl, notFound⟩
        · exact .inr ⟨inState, fun sameKey => notFound (ofKey other inState sameKey)⟩
        · exact .inl rfl
      · rintro (rfl | ⟨inState, otherKey⟩)
        · exact ⟨.inr rfl, distinct⟩
        · exact ⟨.inl inState, fun same => otherKey (same ▸ foundKey.trans (by rfl))⟩

/-- The diff `save_state` and `set_event_state` compute is minimal and rebuilds the state. -/
theorem statediffAgainst_spec (statesParents : List ShortStateInfo) (state : CompressedState) :
    SetDelta.Minimal (below statesParents) (statediffAgainst statesParents state).1
        (statediffAgainst statesParents state).2 ∧
      SetDelta.apply (below statesParents) (statediffAgainst statesParents state).1
        (statediffAgainst statesParents state).2 = state := by
  cases statesParents with
  | nil => exact ⟨SetDelta.minimal_empty state, (SetDelta.minimal_empty state).apply_empty⟩
  | cons parent rest =>
      exact ⟨SetDelta.minimal_sdiff parent.fullState state, SetDelta.apply_sdiff parent.fullState state⟩

/-! ## What the compressor stores -/

/-- The stored diffs load `shortstatehash` to a stack whose top frame holds `state`. -/
def StoresAs (statediffs : Table ShortStateHash StateDiff) (shortstatehash : ShortStateHash)
    (state : CompressedState) : Prop :=
  ∃ frame rest, Stack statediffs shortstatehash (frame :: rest) ∧ frame.fullState = state

theorem StoresAs.functional {statediffs : Table ShortStateHash StateDiff}
    {shortstatehash : ShortStateHash} {state state' : CompressedState}
    (stores : StoresAs statediffs shortstatehash state)
    (stores' : StoresAs statediffs shortstatehash state') : state = state' := by
  obtain ⟨frame, rest, stacked, rfl⟩ := stores
  obtain ⟨frame', rest', stacked', rfl⟩ := stores'
  cases stacked.functional stacked'
  rfl

/-- The compressor as every run leaves it. -/
structure Stored (compressor : StateCompressor.Service) (count : Nat) : Prop where
  parent_lt : ∀ shortstatehash diff parent,
    compressor.shortstatehashStatediff.get shortstatehash = some diff →
    diff.parent = some parent → parent < shortstatehash
  le_count : ∀ shortstatehash diff,
    compressor.shortstatehashStatediff.get shortstatehash = some diff → shortstatehash ≤ count
  layered : ∀ shortstatehash diff,
    compressor.shortstatehashStatediff.get shortstatehash = some diff →
    ∃ stack, Stack compressor.shortstatehashStatediff shortstatehash stack ∧ stack.length ≤ 4 ∧
      Replays stack
  coherent : Coherent compressor.shortstatehashStatediff compressor.stateinfoCache

namespace Stored

variable {compressor : StateCompressor.Service} {count : Nat}

theorem empty : Stored ⟨Table.empty, Table.empty⟩ 0 where
  parent_lt := by simp
  le_count := by simp
  layered := by simp
  coherent := Coherent.empty

/-- A count drawn without a write. -/
theorem bump (stored : Stored compressor count) : Stored compressor (count + 1) :=
  { stored with
    le_count := fun shortstatehash diff found =>
      (stored.le_count shortstatehash diff found).trans (Nat.le_succ count) }

theorem evict (stored : Stored compressor count) (shortstatehash : ShortStateHash) :
    Stored { compressor with stateinfoCache := compressor.stateinfoCache.remove shortstatehash }
      count :=
  { stored with coherent := stored.coherent.remove shortstatehash }

/-- The stack of a stored state is the one `layered` describes. -/
theorem replays {shortstatehash : ShortStateHash} {stack : List ShortStateInfo}
    (stored : Stored compressor count)
    (stacked : Stack compressor.shortstatehashStatediff shortstatehash stack) :
    stack.length ≤ 4 ∧ Replays stack := by
  obtain ⟨diff, found⟩ := Option.isSome_iff_exists.mp stacked.isSome
  obtain ⟨stack', stacked', short, replays⟩ := stored.layered shortstatehash diff found
  cases stacked.functional stacked'
  exact ⟨short, replays⟩

/-- A load of a stored state returns its stack, and leaves the compressor stored. -/
theorem load (stored : Stored compressor count) {shortstatehash : ShortStateHash}
    {stack : List ShortStateInfo}
    (stacked : Stack compressor.shortstatehashStatediff shortstatehash stack) :
    ∃ compressor', compressor.loadShortstatehashInfo shortstatehash = (some stack, compressor') ∧
      compressor'.shortstatehashStatediff = compressor.shortstatehashStatediff ∧
      Stored compressor' count := by
  obtain ⟨cache, loaded, coherent⟩ :=
    loadShortstatehashInfo_of_stack stored.parent_lt stored.coherent stacked
  exact ⟨_, loaded, rfl, { stored with coherent }⟩

/-- Writing a diff at the next count on the stack of a stored state, or on none, keeps the
compressor stored, keeps every stored state, and stores the new one as the diff's result. -/
theorem write (stored : Stored compressor count) {parents : List ShortStateInfo}
    (loaded : parents = [] ∨ ∃ previous, Stack compressor.shortstatehashStatediff previous parents)
    (replays : Replays parents) {statediffnew statediffremoved : CompressedState}
    (minimal : SetDelta.Minimal (below parents) statediffnew statediffremoved)
    {diffToSibling : Nat} {statediffs : Table ShortStateHash StateDiff}
    (saved : saveStateFromDiff compressor.shortstatehashStatediff (count + 1) statediffnew
      statediffremoved diffToSibling parents = some statediffs) :
    Stored { compressor with shortstatehashStatediff := statediffs } (count + 1) ∧
      (∀ shortstatehash state, StoresAs compressor.shortstatehashStatediff shortstatehash state →
        StoresAs statediffs shortstatehash state) ∧
      StoresAs statediffs (count + 1) (SetDelta.apply (below parents) statediffnew statediffremoved) := by
  have fresh : compressor.shortstatehashStatediff.get (count + 1) = none := by
    cases found : compressor.shortstatehashStatediff.get (count + 1) with
    | none => rfl
    | some diff => exact absurd (stored.le_count _ diff found) (Nat.not_succ_le_self count)
  obtain ⟨diff, rfl, parentStored, frame, rest, stacked, short, replaysNew, full⟩ :=
    stack_saveStateFromDiff fresh loaded replays minimal saved
  refine ⟨⟨?_, ?_, ?_, stored.coherent.put_fresh fresh diff⟩,
    fun shortstatehash state ⟨frame, rest, old, held⟩ => ⟨frame, rest, old.put_fresh fresh diff, held⟩,
    ⟨frame, rest, stacked, full⟩⟩
  · -- the new diff's parent is stored, so below the new count
    intro shortstatehash found parent row named
    rw [Table.get_put] at row
    split_ifs at row with same
    · cases row
      obtain ⟨parentDiff, parentRow⟩ := Option.isSome_iff_exists.mp (parentStored parent named)
      exact same ▸ Nat.lt_succ_of_le (stored.le_count parent parentDiff parentRow)
    · exact stored.parent_lt shortstatehash found parent row named
  · intro shortstatehash found row
    rw [Table.get_put] at row
    split_ifs at row with same
    · exact same.le
    · exact (stored.le_count shortstatehash found row).trans (Nat.le_succ count)
  · intro shortstatehash found row
    rw [Table.get_put] at row
    split_ifs at row with same
    · subst same
      exact ⟨frame :: rest, stacked, by simp only [List.length_cons]; omega, replaysNew⟩
    · obtain ⟨stack, old, oldShort, oldReplays⟩ := stored.layered shortstatehash found row
      exact ⟨stack, old.put_fresh fresh diff, oldShort, oldReplays⟩

end Stored

/-! ## The invariant of a room's runs -/

section Invariant

variable {Digest : Type} (calculateHash : CompressedState → Digest)

/-- What every run of calls leaves. -/
structure Invariant (world : World Digest) : Prop where
  stored : Stored world.compressor world.count
  statehash : ∀ stateHash shortstatehash,
    world.statehashShortstatehash.get stateHash = some shortstatehash →
    ∃ state, calculateHash state = stateHash ∧
      StoresAs world.compressor.shortstatehashStatediff shortstatehash state
  returned : ∀ shortstatehash state, (shortstatehash, state) ∈ world.returned →
    StoresAs world.compressor.shortstatehashStatediff shortstatehash state ∧ Keyed state
  room : ∀ shortstatehash, world.roomidShortstatehash = some shortstatehash →
    shortstatehash ∈ world.returned.map Prod.fst

variable {calculateHash}

theorem invariant_empty : Invariant calculateHash (World.empty : World Digest) where
  stored := Stored.empty
  statehash := by simp [World.empty]
  returned := by simp [World.empty]
  room := by simp [World.empty]

/-- A world that keeps the stored states, the record and the room, and whose new
`statehash_shortstatehash` rows store what they hash, keeps the invariant. -/
theorem Invariant.extend {world world' : World Digest} (invariant : Invariant calculateHash world)
    (stored : Stored world'.compressor world'.count)
    (keeps : ∀ shortstatehash state,
      StoresAs world.compressor.shortstatehashStatediff shortstatehash state →
      StoresAs world'.compressor.shortstatehashStatediff shortstatehash state)
    (rows : ∀ stateHash shortstatehash,
      world'.statehashShortstatehash.get stateHash = some shortstatehash →
      world.statehashShortstatehash.get stateHash = some shortstatehash ∨
        ∃ state, calculateHash state = stateHash ∧
          StoresAs world'.compressor.shortstatehashStatediff shortstatehash state)
    (room : world'.roomidShortstatehash = world.roomidShortstatehash)
    (returned : world'.returned = world.returned) : Invariant calculateHash world' where
  stored := stored
  statehash stateHash shortstatehash row := by
    rcases rows stateHash shortstatehash row with old | new
    · obtain ⟨state, hashed, stores⟩ := invariant.statehash stateHash shortstatehash old
      exact ⟨state, hashed, keeps shortstatehash state stores⟩
    · exact new
  returned shortstatehash state recorded := by
    rw [returned] at recorded
    obtain ⟨stores, keyed⟩ := invariant.returned shortstatehash state recorded
    exact ⟨keeps shortstatehash state stores, keyed⟩
  room shortstatehash current := by
    rw [returned]
    exact invariant.room shortstatehash (room ▸ current)

/-- A load's compressor, with the stored rows unchanged. -/
theorem Invariant.withCompressor {world : World Digest} (invariant : Invariant calculateHash world)
    {compressor : StateCompressor.Service}
    (rows : compressor.shortstatehashStatediff = world.compressor.shortstatehashStatediff)
    (stored : Stored compressor world.count) :
    Invariant calculateHash { world with compressor } :=
  invariant.extend stored (fun _ _ stores => rows ▸ stores) (fun _ _ row => .inl row) rfl rfl

theorem Invariant.putShortstatehash {world : World Digest} (invariant : Invariant calculateHash world)
    (shorteventid : ShortEventId) (shortstatehash : Option ShortStateHash) :
    Invariant calculateHash (world.putShortstatehash shorteventid shortstatehash) := by
  cases shortstatehash with
  | none => exact invariant
  | some shortstatehash =>
      exact invariant.extend invariant.stored (fun _ _ => id) (fun _ _ row => .inl row) rfl rfl

@[simp]
theorem roomState_putShortstatehash (world : World Digest) (shorteventid : ShortEventId)
    (shortstatehash : Option ShortStateHash) :
    (world.putShortstatehash shorteventid shortstatehash).roomState = world.roomState := by
  simp [World.roomState]

/-- The room's current state stores the entry set the record has for it. -/
theorem Invariant.roomState {world : World Digest} (invariant : Invariant calculateHash world) :
    Keyed world.roomState ∧ ∀ shortstatehash, world.roomidShortstatehash = some shortstatehash →
      StoresAs world.compressor.shortstatehashStatediff shortstatehash world.roomState := by
  cases current : world.roomidShortstatehash with
  | none => simpa [World.roomState, current] using Keyed.empty
  | some shortstatehash =>
      have recorded := invariant.room shortstatehash current
      obtain ⟨state, found⟩ : ∃ state, List.lookup shortstatehash world.returned = some state := by
        refine Option.ne_none_iff_exists'.mp fun missing => ?_
        obtain ⟨⟨key, state⟩, member, rfl⟩ := List.mem_map.mp recorded
        simpa using List.lookup_eq_none_iff.mp missing _ member
      obtain ⟨front, back, split, -⟩ := List.lookup_eq_some_iff.mp found
      have member : (shortstatehash, state) ∈ world.returned := by simp [split]
      have roomState : world.roomState = state := by simp [World.roomState, current, found]
      obtain ⟨stores, keyed⟩ := invariant.returned shortstatehash state member
      refine ⟨roomState ▸ keyed, fun other same => ?_⟩
      cases same
      exact roomState ▸ stores

/-- The three calls load the stack of the room's current state, which replays to the recorded
state, and keep the compressor stored. -/
theorem Invariant.loadStatesParents {world : World Digest}
    (invariant : Invariant calculateHash world) :
    ∃ parents compressor, State.loadStatesParents world = (some parents, compressor) ∧
      compressor.shortstatehashStatediff = world.compressor.shortstatehashStatediff ∧
      Stored compressor world.count ∧
      (parents = [] ∨ ∃ previous, Stack world.compressor.shortstatehashStatediff previous parents) ∧
      Replays parents ∧ below parents = world.roomState := by
  obtain ⟨-, roomStores⟩ := invariant.roomState
  cases current : world.roomidShortstatehash with
  | none =>
      refine ⟨[], world.compressor, by simp [State.loadStatesParents, current], rfl,
        invariant.stored, .inl rfl, trivial, ?_⟩
      simp [below, World.roomState, current]
  | some previous =>
      obtain ⟨frame, rest, stacked, full⟩ := roomStores previous current
      obtain ⟨compressor, loaded, rows, stored⟩ := invariant.stored.load stacked
      exact ⟨frame :: rest, compressor, by simp [State.loadStatesParents, current, loaded], rows,
        stored, .inr ⟨previous, stacked⟩, (invariant.stored.replays stacked).2, full⟩

end Invariant

/-! ## Each call -/

section Calls

variable {Digest : Type} [DecidableEq Digest] {calculateHash : CompressedState → Digest}

/-- `create_shortstatehash` on the loaded stack keeps the invariant and stores its answer as the
state the diff rebuilds. -/
theorem Invariant.createShortstatehash {world : World Digest}
    (invariant : Invariant calculateHash world) {parents : List ShortStateInfo}
    (loaded : parents = [] ∨
      ∃ previous, Stack world.compressor.shortstatehashStatediff previous parents)
    (replays : Replays parents) {statediffnew statediffremoved state : CompressedState}
    (minimal : SetDelta.Minimal (below parents) statediffnew statediffremoved)
    (target : SetDelta.apply (below parents) statediffnew statediffremoved = state)
    {diffToSibling : Nat} {result : Option ShortStateHash} {world' : World Digest}
    (called : State.createShortstatehash world (calculateHash state) statediffnew statediffremoved
      diffToSibling parents = (result, world')) :
    Invariant calculateHash world' ∧ ∀ shortstatehash, result = some shortstatehash →
      StoresAs world'.compressor.shortstatehashStatediff shortstatehash state := by
  unfold State.createShortstatehash at called
  cases saved : saveStateFromDiff world.compressor.shortstatehashStatediff (world.count + 1)
      statediffnew statediffremoved diffToSibling parents with
  | none =>
      -- the count is drawn, nothing is written
      simp only [saved, Prod.mk.injEq] at called
      obtain ⟨rfl, rfl⟩ := called
      exact ⟨invariant.extend invariant.stored.bump (fun _ _ => id) (fun _ _ row => .inl row) rfl rfl,
        by simp⟩
  | some statediffs =>
      simp only [saved, Prod.mk.injEq] at called
      obtain ⟨rfl, rfl⟩ := called
      obtain ⟨stored, keeps, stores⟩ := invariant.stored.write loaded replays minimal saved
      refine ⟨invariant.extend stored keeps ?_ rfl rfl, ?_⟩
      · -- the one new row hashes the state its shortstatehash stores
        intro stateHash shortstatehash row
        rw [Table.get_put] at row
        split_ifs at row with same
        · cases row
          exact .inr ⟨state, same.symm, target ▸ stores⟩
        · exact .inl row
      · rintro shortstatehash ⟨⟩
        exact target ▸ stores

omit [DecidableEq Digest] in
/-- A `statehash_shortstatehash` row for a state's hash stores that state. -/
theorem Invariant.row_stores (injective : Function.Injective calculateHash) {world : World Digest}
    (invariant : Invariant calculateHash world) {state : CompressedState}
    {shortstatehash : ShortStateHash}
    (row : world.statehashShortstatehash.get (calculateHash state) = some shortstatehash) :
    StoresAs world.compressor.shortstatehashStatediff shortstatehash state := by
  obtain ⟨hashed, same, stores⟩ := invariant.statehash _ _ row
  exact injective same ▸ stores

/-- `save_state` keeps the invariant and answers a shortstatehash storing the state. -/
theorem saveState_spec (injective : Function.Injective calculateHash) {world : World Digest}
    (invariant : Invariant calculateHash world) {state : CompressedState}
    {result : Option HashSetCompressStateEvent} {world' : World Digest}
    (called : saveState calculateHash world state = (result, world')) :
    Invariant calculateHash world' ∧ ∀ answer, result = some answer →
      StoresAs world'.compressor.shortstatehashStatediff answer.shortstatehash state := by
  obtain ⟨parents, compressor, loaded, rows, stored, stacked, replays, -⟩ :=
    invariant.loadStatesParents
  have loadedInvariant := invariant.withCompressor rows stored
  unfold saveState at called
  cases existing : world.statehashShortstatehash.get (calculateHash state) with
  | some shortstatehash =>
      -- an existing row is answered, after a load unless it is the room's current state
      have stores := invariant.row_stores injective existing
      by_cases current : world.roomidShortstatehash = some shortstatehash
      · simp only [existing, current, Option.filter_some, beq_self_eq_true, if_true,
          Prod.mk.injEq] at called
        obtain ⟨rfl, rfl⟩ := called
        exact ⟨invariant, by rintro answer ⟨⟩; exact stores⟩
      · simp only [existing, Option.filter_some, beq_iff_eq, current, if_false, loaded,
          Option.getD_some, Prod.mk.injEq] at called
        obtain ⟨rfl, rfl⟩ := called
        exact ⟨loadedInvariant, by rintro answer ⟨⟩; exact rows ▸ stores⟩
  | none =>
      -- no row: the diff against the loaded stack is written under a new shortstatehash
      simp only [existing, Option.filter_none, loaded, Option.getD_some] at called
      obtain ⟨minimal, target⟩ := statediffAgainst_spec parents state
      rcases created : State.createShortstatehash { world with compressor } (calculateHash state)
        (statediffAgainst parents state).1 (statediffAgainst parents state).2 2 parents with
        ⟨answer, createdWorld⟩
      obtain ⟨createdInvariant, answers⟩ :=
        loadedInvariant.createShortstatehash (rows ▸ stacked) replays minimal target created
      simp only [created, Prod.mk.injEq] at called
      obtain ⟨rfl, rfl⟩ := called
      refine ⟨createdInvariant, fun answered mapped => ?_⟩
      obtain ⟨shortstatehash, rfl, rfl⟩ := Option.map_eq_some_iff.mp mapped
      exact answers shortstatehash rfl

/-- `set_event_state` keeps the invariant and answers a shortstatehash storing the state. -/
theorem setEventState_spec (injective : Function.Injective calculateHash) {world : World Digest}
    (invariant : Invariant calculateHash world) {shorteventid : ShortEventId}
    {state : CompressedState} {result : Option ShortStateHash} {world' : World Digest}
    (called : setEventState calculateHash world shorteventid state = (result, world')) :
    Invariant calculateHash world' ∧ ∀ shortstatehash, result = some shortstatehash →
      StoresAs world'.compressor.shortstatehashStatediff shortstatehash state := by
  unfold setEventState at called
  cases existing : world.statehashShortstatehash.get (calculateHash state) with
  | some shortstatehash =>
      simp only [existing, Prod.mk.injEq] at called
      obtain ⟨rfl, rfl⟩ := called
      refine ⟨invariant.putShortstatehash shorteventid _, ?_⟩
      rintro shortstatehash ⟨⟩
      exact invariant.row_stores injective existing
  | none =>
      obtain ⟨parents, compressor, loaded, rows, stored, stacked, replays, -⟩ :=
        invariant.loadStatesParents
      obtain ⟨minimal, target⟩ := statediffAgainst_spec parents state
      simp only [existing, loaded] at called
      rcases created : State.createShortstatehash { world with compressor } (calculateHash state)
        (statediffAgainst parents state).1 (statediffAgainst parents state).2 1000000 parents with
        ⟨answer, createdWorld⟩
      obtain ⟨createdInvariant, answers⟩ := (invariant.withCompressor rows stored).createShortstatehash
        (rows ▸ stacked) replays minimal target created
      rw [created] at called
      cases answer with
      | none =>
          simp only [Prod.mk.injEq] at called
          obtain ⟨rfl, rfl⟩ := called
          exact ⟨createdInvariant, by simp⟩
      | some shortstatehash =>
          simp only [Prod.mk.injEq] at called
          obtain ⟨rfl, rfl⟩ := called
          exact ⟨createdInvariant.putShortstatehash shorteventid _, answers⟩

omit [DecidableEq Digest] in
/-- The entry set recorded for `append_to_state` is keyed. -/
theorem Invariant.keyed_appendedState {world : World Digest}
    (invariant : Invariant calculateHash world) (pdu : Pdu) : Keyed (appendedState world pdu) := by
  obtain ⟨keyed, -⟩ := invariant.roomState
  cases keyOf : pdu.shortstatekey with
  | none => simpa [appendedState, keyOf] using keyed
  | some shortstatekey => simpa [appendedState, keyOf] using keyed.replaceEntry _

omit [DecidableEq Digest] in
/-- `append_to_state` keeps the invariant and answers a shortstatehash storing the room's state
with the event's entry in place. -/
theorem appendToState_spec {world : World Digest} (invariant : Invariant calculateHash world)
    {pdu : Pdu} {result : Option ShortStateHash} {world' : World Digest}
    (called : appendToState world pdu = (result, world')) :
    Invariant calculateHash world' ∧ ∀ shortstatehash, result = some shortstatehash →
      StoresAs world'.compressor.shortstatehashStatediff shortstatehash (appendedState world pdu) := by
  obtain ⟨keyed, roomStores⟩ := invariant.roomState
  have marked := invariant.putShortstatehash pdu.shorteventid world.roomidShortstatehash
  unfold appendToState at called
  cases keyOf : pdu.shortstatekey with
  | none =>
      -- no state key: the room's shortstatehash is answered
      simp only [keyOf, Prod.mk.injEq] at called
      obtain ⟨rfl, rfl⟩ := called
      refine ⟨marked, fun shortstatehash current => ?_⟩
      simpa [appendedState, keyOf] using roomStores shortstatehash current
  | some shortstatekey =>
      obtain ⟨parents, compressor, loaded, rows, stored, stacked, replays, full⟩ :=
        marked.loadStatesParents
      have loadedInvariant := marked.withCompressor rows stored
      simp only [roomState_putShortstatehash] at full
      simp only [World.putShortstatehash_compressor,
        World.putShortstatehash_count] at rows stored stacked loadedInvariant
      simp only [keyOf, loaded, head_findStateKey, World.putShortstatehash_count] at called
      have keyedBelow : Keyed (below parents) := full ▸ keyed
      have intended : appendedState world pdu =
          replaceEntry (below parents) (compressStateEvent shortstatekey pdu.shorteventid) := by
        simp [appendedState, keyOf, full]
      split_ifs at called with unchanged
      · -- the event's entry is already in the state: the room's shortstatehash is answered
        simp only [Prod.mk.injEq] at called
        obtain ⟨rfl, rfl⟩ := called
        obtain ⟨member, -⟩ := findStateKey_some unchanged.symm
        refine ⟨loadedInvariant, fun shortstatehash current => ?_⟩
        rw [intended, replaceEntry_of_mem keyedBelow member, full]
        exact rows ▸ roomStores shortstatehash current
      · -- a diff replacing the entry is written under the next count
        obtain ⟨minimal, target⟩ := appended_delta keyedBelow unchanged
        cases saved : saveStateFromDiff compressor.shortstatehashStatediff (world.count + 1)
            {compressStateEvent shortstatekey pdu.shorteventid}
            (findStateKey (below parents) shortstatekey).toFinset 2 parents with
        | none =>
            simp only [saved, Prod.mk.injEq] at called
            obtain ⟨rfl, rfl⟩ := called
            exact ⟨loadedInvariant.extend stored.bump (fun _ _ => id) (fun _ _ row => .inl row)
              rfl rfl, by simp⟩
        | some statediffs =>
            simp only [saved, Prod.mk.injEq] at called
            obtain ⟨rfl, rfl⟩ := called
            obtain ⟨written, keeps, stores⟩ := stored.write (rows ▸ stacked) replays minimal saved
            refine ⟨loadedInvariant.extend written keeps (fun _ _ row => .inl row) rfl rfl, ?_⟩
            rintro shortstatehash ⟨⟩
            rw [intended, ← target]
            exact stores

end Calls

/-! ## Runs -/

section Runs

variable {Digest : Type} [DecidableEq Digest] {calculateHash : CompressedState → Digest}

omit [DecidableEq Digest] in
/-- Recording an answer that stores a keyed entry set keeps the invariant. -/
theorem Invariant.record {world : World Digest} (invariant : Invariant calculateHash world)
    {result : Option ShortStateHash} {state : CompressedState}
    (answers : ∀ shortstatehash, result = some shortstatehash →
      StoresAs world.compressor.shortstatehashStatediff shortstatehash state)
    (keyed : Keyed state) : Invariant calculateHash (world.record result state) where
  stored := invariant.stored
  statehash := invariant.statehash
  returned shortstatehash recordedState member := by
    simp only [World.record, List.mem_append] at member
    rcases member with old | new
    · exact invariant.returned shortstatehash recordedState old
    · obtain ⟨answered, rfl⟩ : result = some shortstatehash ∧ recordedState = state := by
        cases result <;> simp_all
      exact ⟨answers shortstatehash answered, keyed⟩
  room shortstatehash current := by
    simp only [World.record, List.map_append, List.mem_append]
    exact .inl (invariant.room shortstatehash current)

/-- Every call the room's callers make keeps the invariant. -/
theorem invariant_step (injective : Function.Injective calculateHash) :
    StepRun.Preserved (Invariant calculateHash) (step calculateHash) := by
  intro world operation next invariant stepped
  unfold step at stepped
  split_ifs at stepped with admissible
  cases stepped
  cases operation with
  | saveState state =>
      rcases called : saveState calculateHash world state with ⟨result, world'⟩
      obtain ⟨invariant', answers⟩ := saveState_spec injective invariant called
      simp only [perform, called]
      refine invariant'.record (fun shortstatehash mapped => ?_) admissible
      obtain ⟨answer, answered, rfl⟩ := Option.map_eq_some_iff.mp mapped
      exact answers answer answered
  | setEventState shorteventid state =>
      rcases called : setEventState calculateHash world shorteventid state with ⟨result, world'⟩
      obtain ⟨invariant', answers⟩ := setEventState_spec injective invariant called
      simp only [perform, called]
      exact invariant'.record answers admissible
  | appendToState pdu =>
      rcases called : appendToState world pdu with ⟨result, world'⟩
      obtain ⟨invariant', answers⟩ := appendToState_spec invariant called
      simp only [perform, called]
      exact invariant'.record answers (invariant.keyed_appendedState pdu)
  | setRoomState shortstatehash =>
      -- the room moves to a recorded shortstatehash
      exact { invariant with
        room := fun other current => (Option.some.inj current) ▸ admissible }
  | evictStateinfo shortstatehash =>
      exact invariant.extend (invariant.stored.evict shortstatehash) (fun _ _ => id)
        (fun _ _ row => .inl row) rfl rfl

/-- After any run of the room's calls from empty tables, every shortstatehash a call returned
loads to a stack whose top frame holds the entry set it was created for, and every stored diff
loads to a stack of at most four frames. -/
theorem states_rebuild_exactly (injective : Function.Injective calculateHash)
    {operations : List Operation} {final : World Digest}
    (ran : StepRun.run (step calculateHash) World.empty operations = some final) :
    (∀ shortstatehash state, (shortstatehash, state) ∈ final.returned →
      ∃ frame rest compressor,
        final.compressor.loadShortstatehashInfo shortstatehash = (some (frame :: rest), compressor) ∧
        frame.fullState = state) ∧
    ∀ shortstatehash diff, final.compressor.shortstatehashStatediff.get shortstatehash = some diff →
      ∃ stack compressor,
        final.compressor.loadShortstatehashInfo shortstatehash = (some stack, compressor) ∧
        stack.length ≤ 4 := by
  have invariant := StepRun.run_invariant (Invariant calculateHash) (invariant_step injective)
    invariant_empty ran
  constructor
  · intro shortstatehash state recorded
    obtain ⟨⟨frame, rest, stacked, full⟩, -⟩ := invariant.returned shortstatehash state recorded
    obtain ⟨compressor, loaded, -⟩ := invariant.stored.load stacked
    exact ⟨frame, rest, compressor, loaded, full⟩
  · intro shortstatehash diff row
    obtain ⟨stack, stacked, short, -⟩ := invariant.stored.layered shortstatehash diff row
    obtain ⟨compressor, loaded, -⟩ := invariant.stored.load stacked
    exact ⟨stack, compressor, loaded, short⟩

/-- A room's state saved, the room moved to it, and one state event appended. -/
def sampleRun : List Operation :=
  [.saveState {compressStateEvent 1 10}, .setRoomState 1, .appendToState ⟨11, some 2⟩]

theorem states_rebuild_exactly_sampleRun :
    ∃ final : World CompressedState, StepRun.run (step id) World.empty sampleRun = some final ∧
      (∀ shortstatehash state, (shortstatehash, state) ∈ final.returned →
        ∃ frame rest compressor,
          final.compressor.loadShortstatehashInfo shortstatehash =
            (some (frame :: rest), compressor) ∧ frame.fullState = state) ∧
      ∀ shortstatehash diff,
        final.compressor.shortstatehashStatediff.get shortstatehash = some diff →
        ∃ stack compressor,
          final.compressor.loadShortstatehashInfo shortstatehash = (some stack, compressor) ∧
          stack.length ≤ 4 := by
  obtain ⟨final, ran⟩ : ∃ final : World CompressedState,
      StepRun.run (step id) World.empty sampleRun = some final := by
    simp [sampleRun, step, Admissible, Keyed, perform, saveState, World.empty, loadStatesParents,
      statediffAgainst, createShortstatehash, saveStateFromDiff, checkedAdd, u64Max, World.record]
  exact ⟨final, ran, states_rebuild_exactly Function.injective_id ran⟩

end Runs

end State
end Tuwunel
