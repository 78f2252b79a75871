import Mathlib
import Tuwunel.Library.Ledger
import Tuwunel.Service.Rooms.EventHandler.StateLocalBuild.Consumers
import Tuwunel.Service.Rooms.EventHandler.StateLocalBuild.Spec

/-!
# What holds while the walk builds

`Building` is what holds of the walk between the steps of `walk_build`, once discovery has left
`d`.  The classes and the nodes are discovery's.  The counters count the reads still to come.
Every map kept is the specified state after its event (`SpecAfter`).  A map is kept for every
read still to come of an event whose map the build has already made: this is what `release`
must not break.  And `live_entries` is the sum of the sizes of the maps kept.

Each operation of the build has an inversion lemma saying what a successful call did; the
preservation lemmas are stated over those, one per operation.
-/

namespace Tuwunel
namespace EventHandler

open KeyValue

/-! ## What a successful call did -/

section Inversion

variable {services : LocalServices} {walk after : Walk}

theorem Walk.retain_eq_true {eventId : EventId} {state : StateIds}
    (kept : walk.retain eventId state = (true, after)) :
    walk.liveEntries + state.entries.length ≤ maxLiveEntries ∧
      after = { walk with
        liveEntries := walk.liveEntries + state.entries.length
        resolved := walk.resolved.insert eventId state } := by
  unfold Walk.retain at kept
  dsimp only at kept
  split_ifs at kept with exceeds
  · simp at kept
  · exact ⟨Nat.le_of_not_lt exceeds, (Prod.mk.inj kept).2.symm⟩

/-- The tail of `state_after`: a loaded map is returned when `retain` keeps it. -/
theorem retained_of_loaded {eventId : EventId} {loaded : Option StateIds × Walk}
    {state : StateIds}
    (read : (match loaded with
      | (none, walk) => (none, walk)
      | (some state, walk) =>
          match walk.retain eventId state with
          | (true, walk) => (some state, walk)
          | (false, walk) => (none, walk)) = (some state, after)) :
    loaded.1 = some state ∧ loaded.2.retain eventId state = (true, after) := by
  obtain ⟨_ | state', loadedWalk⟩ := loaded
  · simp at read
  · rcases kept : loadedWalk.retain eventId state' with ⟨_ | _, retained⟩
    · simp [kept] at read
    · simp only [kept, Prod.mk.injEq, Option.some.injEq] at read
      obtain ⟨rfl, rfl⟩ := read
      exact ⟨rfl, kept⟩

/-- A read is a hit on a kept map, or a frontier event loaded and then kept. -/
theorem stateAfter_eq_some {eventId : EventId} {state : StateIds}
    (read : stateAfter services walk eventId = (some state, after)) :
    (walk.resolved.lookup eventId = some state ∧ after = walk) ∨
      (walk.resolved.lookup eventId = none ∧
        ((∃ shortstatehash, walk.«class».get eventId = some (.committed shortstatehash) ∧
          committedState services eventId shortstatehash = some state) ∨
          (walk.«class».get eventId = some .memoized ∧ memoizedState services eventId = .ok state)) ∧
        walk.retain eventId state = (true, after)) := by
  unfold stateAfter at read
  split at read
  · simp only [Prod.mk.injEq, Option.some.injEq] at read
    obtain ⟨rfl, rfl⟩ := read
    exact .inl ⟨‹_›, rfl⟩
  · refine .inr ⟨‹_›, ?_⟩
    obtain ⟨loaded, kept⟩ := retained_of_loaded read
    -- only the frontier classes load; a held or unclassified event fails the walk
    rcases found : walk.«class».get eventId with _ | hash | _ | index
    · simp [found, Walk.fail] at loaded
    · simp only [found, committedStateAfter] at loaded kept
      rcases committed : committedState services eventId hash with _ | state'
      · simp [committed] at loaded
      · simp only [committed, Option.some.injEq] at loaded kept
        subst loaded
        exact ⟨.inl ⟨_, rfl, committed⟩, kept⟩
    · simp only [found, memoizedStateAfter] at loaded kept
      rcases memoized : memoizedState services eventId with _ | state'
      · simp [memoized] at loaded
      · simp only [memoized, Option.some.injEq] at loaded kept
        subst loaded
        exact ⟨.inr ⟨rfl, rfl⟩, kept⟩
    · simp [found, Walk.fail] at loaded

theorem stateAfters_nil_eq_some {afters : List StateIds}
    (read : stateAfters services walk [] = (some afters, after)) : afters = [] ∧ after = walk := by
  simp only [stateAfters, Prod.mk.injEq, Option.some.injEq] at read
  exact ⟨read.1.symm, read.2.symm⟩

theorem stateAfters_cons_eq_some {prev : EventId} {prevs : List EventId} {afters : List StateIds}
    (read : stateAfters services walk (prev :: prevs) = (some afters, after)) :
    ∃ first middle rest, stateAfter services walk prev = (some first, middle) ∧
      stateAfters services middle prevs = (some rest, after) ∧ afters = first :: rest := by
  simp only [stateAfters] at read
  rcases one : stateAfter services walk prev with ⟨_ | first, middle⟩
  · simp [one] at read
  · rcases others : stateAfters services middle prevs with ⟨_ | rest, last⟩
    · simp [one, others] at read
    · simp only [one, others, Prod.mk.injEq, Option.some.injEq] at read
      obtain ⟨rfl, rfl⟩ := read
      exact ⟨first, middle, rest, rfl, others, rfl⟩

theorem forkResolve_eq_some {prevs : List EventId} {state : StateIds}
    (read : forkResolve services walk prevs = (some state, after)) :
    ∃ afters, stateAfters services walk prevs = (some afters, after) ∧
      services.stateResolution afters = some state := by
  unfold forkResolve at read
  rcases all : stateAfters services walk prevs with ⟨_ | afters, middle⟩
  · simp [all] at read
  · rcases resolved : services.stateResolution afters with _ | state'
    · simp [all, resolved, Walk.fail] at read
    · simp only [all, resolved, Prod.mk.injEq, Option.some.injEq] at read
      obtain ⟨rfl, rfl⟩ := read
      exact ⟨afters, rfl, resolved⟩

theorem stateBefore_singleton (prev : EventId) :
    stateBefore services walk [prev] = stateAfter services walk prev := rfl

theorem stateBefore_of_ne_singleton {prevs : List EventId} (several : ∀ prev, prevs ≠ [prev]) :
    stateBefore services walk prevs = forkResolve services walk prevs := by
  unfold stateBefore
  split
  · exact absurd rfl (several _)
  · rfl

/-- A node built: the state before it, its own fold kept, and its prevs released. -/
theorem walkNode_eq_true {index : Nat} (built : walkNode services walk index = (true, after)) :
    ∃ node before middle retained, walk.nodes[index]? = some node ∧
      stateBefore services walk node.pdu.prevEvents = (some before, middle) ∧
      middle.retain node.pdu.eventId (foldOwnState services node.pdu before) = (true, retained) ∧
      after = retained.release node.pdu.prevEvents := by
  unfold walkNode at built
  rcases stored : walk.nodes[index]? with _ | node
  · simp [stored] at built
  · rcases read : stateBefore services walk node.pdu.prevEvents with ⟨_ | before, middle⟩
    · simp [stored, read] at built
    · rcases kept : middle.retain node.pdu.eventId (foldOwnState services node.pdu before) with
        ⟨_ | _, retained⟩
      · simp [stored, read, kept] at built
      · simp only [stored, read, kept, Prod.mk.injEq, true_and] at built
        exact ⟨node, before, middle, retained, rfl, read, kept, built.symm⟩

theorem walkNodes_cons_eq_true {index : Nat} {order : List Nat}
    (built : walkNodes services walk (index :: order) = (true, after)) :
    ∃ middle, walkNode services walk index = (true, middle) ∧
      walkNodes services middle order = (true, after) := by
  simp only [walkNodes] at built
  rcases one : walkNode services walk index with ⟨_ | _, middle⟩
  · simp [one] at built
  · simp only [one] at built
    exact ⟨middle, rfl, built⟩

theorem walkNodes_append_eq_true {first second : List Nat}
    (built : walkNodes services walk (first ++ second) = (true, after)) :
    ∃ middle, walkNodes services walk first = (true, middle) ∧
      walkNodes services middle second = (true, after) := by
  induction first generalizing walk with
  | nil => exact ⟨walk, rfl, built⟩
  | cons index first induction =>
      simp only [List.cons_append, walkNodes] at built
      rcases one : walkNode services walk index with ⟨_ | _, middle⟩
      · simp [one] at built
      · simp only [one] at built
        obtain ⟨last, firstBuilt, secondBuilt⟩ := induction built
        exact ⟨last, by simp [walkNodes, one, firstBuilt], secondBuilt⟩

theorem releaseCount_held {prev : EventId} {index : Nat} {node : Node}
    (held : walk.«class».get prev = some (.held index)) (stored : walk.nodes[index]? = some node) :
    walk.releaseCount prev = some (node.consumers - 1,
      { walk with nodes := walk.nodes.set index { node with consumers := node.consumers - 1 } }) := by
  simp [Walk.releaseCount, held, stored]

theorem releaseCount_frontier {prev : EventId} {found : Class} {consumers : Nat}
    (classified : walk.«class».get prev = some found) (frontier : ∀ index, found ≠ .held index)
    (counted : walk.frontier.get prev = some consumers) :
    walk.releaseCount prev =
      some (consumers - 1, { walk with frontier := walk.frontier.put prev (consumers - 1) }) := by
  cases found with
  | held index => exact absurd rfl (frontier index)
  | committed => simp [Walk.releaseCount, classified, counted]
  | memoized => simp [Walk.releaseCount, classified, counted]

theorem releaseOne_keep {prev : EventId} {remaining : Nat} {counted : Walk}
    (released : walk.releaseCount prev = some (remaining, counted))
    (awaited : remaining ≠ 0 ∨ counted.resolved.lookup prev = none) :
    walk.releaseOne prev = counted := by
  unfold Walk.releaseOne
  rw [released]
  rcases awaited with awaited | absent
  · simp [awaited]
  · simp [absent]

theorem releaseOne_drop {prev : EventId} {counted : Walk} {state : StateIds}
    (released : walk.releaseCount prev = some (0, counted))
    (found : counted.resolved.lookup prev = some state) :
    walk.releaseOne prev = { counted with
      resolved := counted.resolved.erase prev
      liveEntries := counted.liveEntries - state.entries.length } := by
  unfold Walk.releaseOne
  simp [released, found]

end Inversion

/-! ## The invariant -/

variable (services : LocalServices)

/-- The entries `live_entries` counts for a map. -/
def liveSize (state : StateIds) : Nat := state.entries.length

/-- An event whose map the build has read or made: a prev of a built node, or a built node. -/
def Materialized (d : Walk) (done : List Nat) (eventId : EventId) : Prop :=
  ∃ index ∈ done, eventId ∈ d.prevsOf index ∨ d.«class».get eventId = some (.held index)

/-- The walk while it builds from discovery's `d`, the nodes of `done` built and `reads` still to
come.  `tops` is the walk's own list of the incoming event's prevs, which `walk_build` takes
for the final combination. -/
structure Building (d : Walk) (tops : List EventId) (done : List Nat) (reads : List EventId)
    (walk : Walk) : Prop where
  sameClass : walk.«class» = d.«class»
  samePdus : walk.pdus = d.pdus
  topPrevs : walk.topPrevs = tops
  consumers : ∀ (index : Nat) (node : Node), walk.nodes[index]? = some node →
    node.consumers = reads.count node.pdu.eventId
  frontier : ∀ eventId found, d.«class».get eventId = some found → (∀ index, found ≠ .held index) →
    eventId ∈ d.edges → walk.frontier.get eventId = some (reads.count eventId)
  sound : ∀ eventId state, walk.resolved.lookup eventId = some state →
    SpecAfter services eventId state
  keys : ∀ eventId ∈ walk.resolved, ∀ index, d.«class».get eventId = some (.held index) →
    index ∈ done
  keep : ∀ eventId ∈ reads, Materialized d done eventId → eventId ∈ walk.resolved
  ledger : walk.liveEntries = Ledger.total liveSize walk.resolved

variable {services} {d : Walk} {tops : List EventId} {done : List Nat} {reads : List EventId}
  {walk after : Walk}

theorem mem_resolved_of_retain {eventId : EventId} {state : StateIds}
    (retained : walk.retain eventId state = (true, after)) (other : EventId) :
    other ∈ after.resolved ↔ other = eventId ∨ other ∈ walk.resolved := by
  obtain ⟨-, rfl⟩ := Walk.retain_eq_true retained
  rw [AList.mem_insert]

/-- `retain` of a map not yet kept: the ledger grows by its size.  The caller says which nodes
count as built afterwards, and that every read to come of what they made is kept or is this map. -/
theorem Building.retain (inv : Building services d tops done reads walk) (done' : List Nat)
    {eventId : EventId} {state : StateIds}
    (grown : ∀ index ∈ done, index ∈ done') (absent : eventId ∉ walk.resolved)
    (spec : SpecAfter services eventId state)
    (placed : ∀ index, d.«class».get eventId = some (.held index) → index ∈ done')
    (kept : ∀ other ∈ reads, Materialized d done' other → other ∈ walk.resolved ∨ other = eventId)
    (retained : walk.retain eventId state = (true, after)) :
    Building services d tops done' reads after := by
  have members := mem_resolved_of_retain retained
  obtain ⟨-, rfl⟩ := Walk.retain_eq_true retained
  refine ⟨inv.sameClass, inv.samePdus, inv.topPrevs, inv.consumers, inv.frontier, ?sound, ?keys,
    ?keep, ?ledger⟩
  case sound =>
    intro other found stored
    by_cases same : other = eventId
    · subst same
      rw [AList.lookup_insert, Option.some.injEq] at stored
      exact stored ▸ spec
    · rw [AList.lookup_insert_ne same] at stored
      exact inv.sound other found stored
  case keys =>
    intro other member index held
    rcases (members other).mp member with rfl | old
    · exact placed index held
    · exact grown index (inv.keys other old index held)
  case keep =>
    intro other member made
    rcases kept other member made with old | rfl
    · exact (members other).mpr (.inr old)
    · exact (members other).mpr (.inl rfl)
  case ledger =>
    simp only
    rw [Ledger.total_insert_of_notMem _ absent, inv.ledger]
    rfl

/-- A frontier event loaded into the walk is its specified state after. -/
theorem Discovered.specAfter_loaded (discovered : Discovered services d) {eventId : EventId}
    {state : StateIds}
    (loaded : (∃ shortstatehash, d.«class».get eventId = some (.committed shortstatehash) ∧
        committedState services eventId shortstatehash = some state) ∨
      (d.«class».get eventId = some .memoized ∧ memoizedState services eventId = .ok state)) :
    SpecAfter services eventId state := by
  rcases loaded with ⟨shortstatehash, classified, committed⟩ | ⟨classified, memoized⟩
  · exact .committed (discovered.classOk eventId _ classified) committed
  · have ok := discovered.classOk eventId _ classified
    exact .memoized ok.1 ok.2 memoized

/-- A read returns the specified state after its event, and leaves that event's map kept. -/
theorem Building.stateAfter (discovered : Discovered services d)
    (inv : Building services d tops done reads walk) {eventId : EventId} {state : StateIds}
    (read : stateAfter services walk eventId = (some state, after)) :
    Building services d tops done reads after ∧ SpecAfter services eventId state ∧
      eventId ∈ after.resolved ∧ ∀ other ∈ walk.resolved, other ∈ after.resolved := by
  rcases stateAfter_eq_some read with ⟨hit, rfl⟩ | ⟨miss, loaded, retained⟩
  · exact ⟨inv, inv.sound eventId state hit, AList.lookup_isSome.mp (by simp [hit]),
      fun _ member => member⟩
  · rw [inv.sameClass] at loaded
    have absent : eventId ∉ walk.resolved := fun member =>
      by simpa [miss] using AList.lookup_isSome.mpr member
    -- a frontier event is no node, so it counts against no built index
    have frontier : ∀ index, d.«class».get eventId = some (.held index) → index ∈ done := by
      intro index held
      rcases loaded with ⟨_, classified, -⟩ | ⟨classified, -⟩ <;> simp [classified] at held
    refine ⟨inv.retain done (fun _ built => built) absent (discovered.specAfter_loaded loaded) frontier
      (fun other member made => .inl (inv.keep other member made)) retained,
      discovered.specAfter_loaded loaded, (mem_resolved_of_retain retained _).mpr (.inl rfl),
      fun other member => (mem_resolved_of_retain retained other).mpr (.inr member)⟩

/-- Reading a list of prevs in turn: each one's state after, all of them kept. -/
theorem Building.stateAfters (discovered : Discovered services d) :
    ∀ {prevs : List EventId} {walk : Walk} {afters : List StateIds},
      Building services d tops done reads walk →
      stateAfters services walk prevs = (some afters, after) →
      Building services d tops done reads after ∧ List.Forall₂ (SpecAfter services) prevs afters ∧
        (∀ prev ∈ prevs, prev ∈ after.resolved) ∧ ∀ other ∈ walk.resolved, other ∈ after.resolved
  | [], _, _, inv, read => by
      obtain ⟨rfl, rfl⟩ := stateAfters_nil_eq_some read
      exact ⟨inv, .nil, by simp, fun _ member => member⟩
  | prev :: prevs, _, _, inv, read => by
      obtain ⟨first, middle, rest, one, others, rfl⟩ := stateAfters_cons_eq_some read
      obtain ⟨inv, spec, kept, grown⟩ := inv.stateAfter discovered one
      obtain ⟨inv, specs, keptAll, grownAll⟩ := inv.stateAfters discovered others
      refine ⟨inv, .cons spec specs, ?_, fun other member => grownAll other (grown other member)⟩
      rintro other (_ | ⟨_, later⟩)
      · exact grownAll _ kept
      · exact keptAll other later

/-- The state before a node, or the final combination: the specified state before its prevs,
all of them kept. -/
theorem Building.stateBefore (discovered : Discovered services d)
    (inv : Building services d tops done reads walk) {prevs : List EventId} {before : StateIds}
    (read : stateBefore services walk prevs = (some before, after)) :
    Building services d tops done reads after ∧ SpecBefore services prevs before ∧
      (∀ prev ∈ prevs, prev ∈ after.resolved) ∧ ∀ other ∈ walk.resolved, other ∈ after.resolved := by
  by_cases single : ∃ prev, prevs = [prev]
  · obtain ⟨prev, rfl⟩ := single
    rw [stateBefore_singleton] at read
    obtain ⟨inv, spec, kept, grown⟩ := inv.stateAfter discovered read
    exact ⟨inv, ⟨[before], .cons spec .nil, rfl⟩, by simpa using kept, grown⟩
  · have several : ∀ prev, prevs ≠ [prev] := fun prev same => single ⟨prev, same⟩
    rw [stateBefore_of_ne_singleton several] at read
    obtain ⟨afters, all, resolved⟩ := forkResolve_eq_some read
    obtain ⟨inv, specs, kept, grown⟩ := inv.stateAfters discovered all
    exact ⟨inv, ⟨afters, specs, by rw [combine_of_ne_singleton several]; exact resolved⟩,
      kept, grown⟩

/-! ## Releasing -/

/-- A node whose pdu the walk holds at an index. -/
theorem node_of_pdus {index : Nat} {pdu : Pdu} (stored : walk.pdus[index]? = some pdu) :
    ∃ node, walk.nodes[index]? = some node ∧ node.pdu = pdu := by
  simp only [Walk.pdus, List.getElem?_map, Option.map_eq_some_iff] at stored
  exact stored

/-- Writing a node's counter leaves the pdus as they were. -/
theorem pdus_set_consumers {index : Nat} {node : Node} (stored : walk.nodes[index]? = some node)
    (consumers : Nat) :
    (walk.nodes.set index { node with consumers }).map (·.pdu) = walk.pdus := by
  have pdu : walk.pdus[index]? = some node.pdu := by simp [Walk.pdus, stored]
  obtain ⟨bound, same⟩ := List.getElem?_eq_some_iff.mp pdu
  rw [List.map_set]
  change walk.pdus.set index node.pdu = walk.pdus
  rw [← same]
  exact List.set_getElem_self bound

/-- The counter of a node other than `prev`'s does not count `prev`. -/
theorem Discovered.count_cons_of_other_node (discovered : Discovered services d)
    (samePdus : walk.pdus = d.pdus) {index : Nat} {node : Node}
    (stored : walk.nodes[index]? = some node) {prev : EventId}
    (other : d.«class».get prev ≠ some (.held index)) (reads : List EventId) :
    (prev :: reads).count node.pdu.eventId = reads.count node.pdu.eventId := by
  have pdu : d.pdus[index]? = some node.pdu := by
    rw [← samePdus]
    simp [Walk.pdus, stored]
  have distinct : prev ≠ node.pdu.eventId := fun same =>
    other ((discovered.held_iff pdu prev).mpr same)
  exact List.count_cons_of_ne distinct

/-- Releasing a held prev: its node's counter goes down to the reads left. -/
theorem Building.releaseCount_held (discovered : Discovered services d) {prev : EventId}
    {index : Nat} (inv : Building services d tops done (prev :: reads) walk)
    (classified : d.«class».get prev = some (.held index)) :
    ∃ counted, walk.releaseCount prev = some (reads.count prev, counted) ∧
      counted.resolved = walk.resolved ∧ counted.liveEntries = walk.liveEntries ∧
      Building services d tops done reads counted := by
  obtain ⟨pdu, stored, named, -⟩ := discovered.classOk prev _ classified
  obtain ⟨node, nodeStored, rfl⟩ := node_of_pdus (inv.samePdus ▸ stored)
  have counted := inv.consumers index node nodeStored
  rw [named, List.count_cons_self] at counted
  have decremented : node.consumers - 1 = reads.count prev := by omega
  refine ⟨{ walk with nodes := walk.nodes.set index { node with consumers := node.consumers - 1 } },
    by rw [← decremented]; exact EventHandler.releaseCount_held (inv.sameClass ▸ classified) nodeStored,
    rfl, rfl, inv.sameClass, by rw [← inv.samePdus]; exact pdus_set_consumers nodeStored _,
    inv.topPrevs, ?consumers, ?frontier, inv.sound, inv.keys,
    fun other member => inv.keep other (List.mem_cons_of_mem _ member), inv.ledger⟩
  case consumers =>
    intro index' node' stored'
    rw [List.getElem?_set] at stored'
    by_cases same : index = index'
    · subst same
      have bound := (List.getElem?_eq_some_iff.mp nodeStored).1
      simp only [bound, if_true, Option.some.injEq] at stored'
      subst stored'
      simp [decremented, named]
    · simp only [same, if_false] at stored'
      rw [inv.consumers index' node' stored', discovered.count_cons_of_other_node inv.samePdus
        stored' (by rw [classified]; simpa using same)]
  case frontier =>
    intro eventId found classified' frontier member
    have distinct : eventId ≠ prev := by
      rintro rfl
      rw [classified] at classified'
      exact frontier index (Option.some.inj classified').symm
    rw [inv.frontier eventId found classified' frontier member,
      List.count_cons_of_ne (Ne.symm distinct)]

/-- Releasing a frontier prev: its entry goes down to the reads left. -/
theorem Building.releaseCount_frontier (discovered : Discovered services d) {prev : EventId}
    {found : Class} (inv : Building services d tops done (prev :: reads) walk)
    (classified : d.«class».get prev = some found) (frontier : ∀ index, found ≠ .held index)
    (edge : prev ∈ d.edges) :
    ∃ counted, walk.releaseCount prev = some (reads.count prev, counted) ∧
      counted.resolved = walk.resolved ∧ counted.liveEntries = walk.liveEntries ∧
      Building services d tops done reads counted := by
  have counted := inv.frontier prev found classified frontier edge
  rw [List.count_cons_self] at counted
  refine ⟨{ walk with frontier := walk.frontier.put prev (reads.count prev) },
    by simpa using EventHandler.releaseCount_frontier (inv.sameClass ▸ classified) frontier counted,
    rfl, rfl, inv.sameClass, inv.samePdus, inv.topPrevs, ?consumers, ?frontier, inv.sound,
    inv.keys, fun other member => inv.keep other (List.mem_cons_of_mem _ member), inv.ledger⟩
  case consumers =>
    intro index node stored
    rw [inv.consumers index node stored, discovered.count_cons_of_other_node inv.samePdus stored
      (by rw [classified]; simpa using frontier index)]
  case frontier =>
    intro eventId found' classified' frontier' member
    by_cases same : eventId = prev
    · subst same
      simp
    · rw [Table.get_put_of_ne _ _ same, inv.frontier eventId found' classified' frontier' member,
        List.count_cons_of_ne (Ne.symm same)]

/-- Dropping the map of a prev no read to come needs: the ledger loses its size. -/
theorem Building.drop (inv : Building services d tops done reads walk) {prev : EventId}
    {state : StateIds} (unread : prev ∉ reads) (found : walk.resolved.lookup prev = some state) :
    Building services d tops done reads { walk with
      resolved := walk.resolved.erase prev
      liveEntries := walk.liveEntries - state.entries.length } := by
  refine ⟨inv.sameClass, inv.samePdus, inv.topPrevs, inv.consumers, inv.frontier, ?sound, ?keys,
    ?keep, ?ledger⟩
  case sound =>
    intro eventId state' stored
    by_cases same : eventId = prev
    · subst same
      simp at stored
    · rw [AList.lookup_erase_ne same] at stored
      exact inv.sound eventId state' stored
  case keys =>
    intro eventId member
    exact inv.keys eventId (AList.mem_erase.mp member).2
  case keep =>
    intro eventId member made
    have distinct : eventId ≠ prev := fun same => unread (same ▸ member)
    exact AList.mem_erase.mpr ⟨distinct, inv.keep eventId member made⟩
  case ledger =>
    have erased : Ledger.total liveSize (walk.resolved.erase prev) + liveSize state =
        Ledger.total liveSize walk.resolved := Ledger.total_erase found
    simp only [inv.ledger]
    unfold liveSize at erased ⊢
    omega

/-- `release`'s loop body: one consumption of `prev`, its map dropped once none is left. -/
theorem Building.releaseOne (discovered : Discovered services d) {prev : EventId}
    (inv : Building services d tops done (prev :: reads) walk)
    (classified : (d.«class».get prev).isSome) (edge : prev ∈ d.edges) :
    Building services d tops done reads (walk.releaseOne prev) := by
  obtain ⟨found, classified⟩ := Option.isSome_iff_exists.mp classified
  obtain ⟨counted, released, resolved, live, inv⟩ : ∃ counted,
      walk.releaseCount prev = some (reads.count prev, counted) ∧
      counted.resolved = walk.resolved ∧ counted.liveEntries = walk.liveEntries ∧
      Building services d tops done reads counted := by
    cases found with
    | held index => exact inv.releaseCount_held discovered classified
    | committed => exact inv.releaseCount_frontier discovered classified (fun _ => nofun) edge
    | memoized => exact inv.releaseCount_frontier discovered classified (fun _ => nofun) edge
  by_cases awaited : reads.count prev = 0
  · rcases found : counted.resolved.lookup prev with _ | state
    · rw [releaseOne_keep released (.inr found)]
      exact inv
    · rw [awaited] at released
      rw [releaseOne_drop released found]
      exact inv.drop (List.count_eq_zero.mp awaited) found
  · rw [releaseOne_keep released (.inl awaited)]
    exact inv

/-- `release`: one consumption of each prev, in turn. -/
theorem Building.release (discovered : Discovered services d) :
    ∀ {prevs : List EventId} {walk : Walk},
      Building services d tops done (prevs ++ reads) walk →
      (∀ prev ∈ prevs, (d.«class».get prev).isSome ∧ prev ∈ d.edges) →
      Building services d tops done reads (walk.release prevs)
  | [], _, inv, _ => inv
  | prev :: prevs, _, inv, edges => by
      have first := inv.releaseOne discovered (edges prev List.mem_cons_self).1
        (edges prev List.mem_cons_self).2
      exact first.release discovered fun other member => edges other (List.mem_cons_of_mem _ member)

/-! ## Nodes built -/

/-- Building a node: the reads of its prevs are done, and its own map is kept. -/
theorem Building.walkNode (discovered : Discovered services d) {rest : List Nat} {index : Nat}
    (split : d.order = done ++ index :: rest)
    (inv : Building services d tops done (d.reads (index :: rest)) walk)
    (built : walkNode services walk index = (true, after)) :
    Building services d tops (done ++ [index]) (d.reads rest) after := by
  obtain ⟨node, before, middle, retained, stored, read, kept, rfl⟩ := walkNode_eq_true built
  have pdu : d.pdus[index]? = some node.pdu := by
    rw [← inv.samePdus]
    simp [Walk.pdus, stored]
  have prevs : d.prevsOf index = node.pdu.prevEvents := Walk.prevsOf_of_getElem? pdu
  have own : d.«class».get node.pdu.eventId = some (.held index) :=
    discovered.named index node.pdu pdu
  have held : services.Held node.pdu.eventId node.pdu := by
    obtain ⟨pdu', stored', -, held⟩ := discovered.classOk _ _ own
    rw [pdu, Option.some.injEq] at stored'
    exact stored' ▸ held
  -- the state before the node, from its prevs
  obtain ⟨inv, spec, readAll, -⟩ := inv.stateBefore discovered read
  have spec : SpecAfter services node.pdu.eventId (foldOwnState services node.pdu before) := by
    obtain ⟨afters, related, combined⟩ := spec
    obtain ⟨length, pairs⟩ := List.forall₂_iff_zip.mp related
    exact .held held length pairs combined
  -- the node is built once, so its own map is not kept yet
  have fresh : index ∉ done := fun member =>
    (List.nodup_append.mp (split ▸ discovered.orderNodup)).2.2 index member index
      List.mem_cons_self rfl
  have absent : node.pdu.eventId ∉ middle.resolved := fun member =>
    fresh (inv.keys _ member index own)
  have inv := inv.retain (done ++ [index]) (fun _ old => List.mem_append_left _ old)
    absent spec (fun index' same => by
      rw [own, Option.some.injEq, Class.held.injEq] at same
      exact same ▸ List.mem_append_right _ (List.mem_singleton_self _))
    (fun other member made => by
      obtain ⟨index', built', made⟩ := made
      rcases List.mem_append.mp built' with old | new
      · exact .inl (inv.keep other member ⟨index', old, made⟩)
      · obtain rfl := List.mem_singleton.mp new
        rcases made with prev | same
        · exact .inl (readAll other (prevs ▸ prev))
        · exact .inr ((discovered.held_iff pdu other).mp same))
    kept
  -- then one consumption of each prev
  rw [Walk.reads_cons, prevs] at inv
  exact inv.release discovered fun prev member =>
    ⟨discovered.prev_classified pdu member, Walk.mem_edges_of_prev pdu member⟩

/-- Building the nodes of `first` in turn, after those of `done`. -/
theorem Building.walkNodes (discovered : Discovered services d) :
    ∀ {done first rest : List Nat} {walk : Walk}, d.order = done ++ first ++ rest →
      Building services d tops done (d.reads (first ++ rest)) walk →
      walkNodes services walk first = (true, after) →
      Building services d tops (done ++ first) (d.reads rest) after
  | done, [], rest, walk, _, inv, built => by
      simp only [EventHandler.walkNodes, Prod.mk.injEq, true_and] at built
      subst built
      simpa using inv
  | done, index :: first, rest, walk, split, inv, built => by
      obtain ⟨middle, one, others⟩ := walkNodes_cons_eq_true built
      have inv := inv.walkNode discovered (by simpa using split) one
      simpa using Building.walkNodes discovered (by simpa using split) inv others

end EventHandler
end Tuwunel
