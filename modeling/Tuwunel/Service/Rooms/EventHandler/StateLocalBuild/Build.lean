import Mathlib
import Tuwunel.Service.Rooms.EventHandler.StateLocalBuild.Building

/-!
# The local walk meets its specification

The whole walk from `Walk::new`: discovery runs to the end (`discover_new`), the counters start
at the reads of the whole order (`Building.start`), every node keeps `Building`
(`Building.walkNodes`), and the final combination reads the incoming event's prevs
(`Building.finalState`).  A state the walk returns is therefore the specified state before the
incoming event.  Between any two nodes, the maps still to be read are kept and `live_entries`
is exact (`WalkMeetsSpec`).

`walk_build` ends by clearing `resolved` without touching `live_entries`, which nothing reads
afterwards; the ledger holds until that clear and not after it.
-/

namespace Tuwunel
namespace EventHandler

open KeyValue

variable {services : LocalServices}

/-! ## Discovery from a new walk -/

/-- Discovery from a new walk that runs to the end leaves its invariant, and nothing else
written. -/
theorem discover_new (named : services.PdusNamed) {createEventId : EventId} {maxNodes : Nat}
    {topPrevs : List EventId} (acyclic : services.HeldAcyclic topPrevs) {walk : Walk}
    (finished : discover services (topPrevs.reverse.map (·, false))
      (Walk.new createEventId maxNodes topPrevs) = .ok walk) :
    Discovered services walk ∧ walk.topPrevs = topPrevs ∧ walk.frontier = Table.empty ∧
      walk.resolved = ∅ ∧ walk.liveEntries = 0 := by
  have initial : Discovering services _ _ := Discovering.initial createEventId maxNodes topPrevs
  have discovered := (initial.run named acyclic finished).finish
  obtain ⟨_, _, _, rfl⟩ := discover_frame finished
  exact ⟨discovered, rfl, rfl, rfl, rfl⟩

/-! ## The build -/

/-- The counters `count_consumers` leaves are the reads of the whole order, and nothing is kept
yet. -/
theorem Building.start {walk : Walk} (discovered : Discovered services walk)
    (empty : walk.frontier = Table.empty) (nothingKept : walk.resolved = ∅)
    (noEntries : walk.liveEntries = 0) :
    Building services walk.countConsumers walk.topPrevs []
      (walk.countConsumers.reads walk.countConsumers.order)
      { walk.countConsumers with order := [] } := by
  have reads := fun eventId =>
    (discovered.countConsumers.reads_order_perm.count_eq eventId).trans
      (congrArg (List.count eventId) edges_countConsumers)
  refine ⟨rfl, rfl, rfl, ?consumers, ?frontier, ?sound, ?keys, ?keep, ?ledger⟩
  case consumers =>
    intro index node stored
    rw [reads]
    exact discovered.consumers_countConsumers stored
  case frontier =>
    intro eventId found classified frontier member
    rw [reads]
    rw [edges_countConsumers] at member
    exact frontier_countConsumers empty classified frontier member
  case sound =>
    intro eventId state stored
    change walk.resolved.lookup eventId = some state at stored
    simp [nothingKept] at stored
  case keys =>
    intro eventId member
    change eventId ∈ walk.resolved at member
    simp [nothingKept] at member
  case keep =>
    rintro eventId - ⟨index, built, -⟩
    exact absurd built List.not_mem_nil
  case ledger =>
    change walk.liveEntries = Ledger.total liveSize walk.resolved
    rw [nothingKept, noEntries, Ledger.total_empty]

/-- The final combination reads the incoming event's prevs: the specified state before it. -/
theorem Building.finalState {d : Walk} (discovered : Discovered services d) {walk final : Walk}
    {tops : List EventId} {state : StateIds}
    (inv : Building services d tops d.order (d.reads []) walk)
    (read : EventHandler.stateBefore services { walk with topPrevs := [] } walk.topPrevs =
      (some state, final)) :
    SpecBefore services tops state ∧ Building services d [] d.order (d.reads []) final := by
  have cleared : Building services d [] d.order (d.reads []) { walk with topPrevs := [] } :=
    ⟨inv.sameClass, inv.samePdus, rfl, inv.consumers, inv.frontier, inv.sound, inv.keys, inv.keep,
      inv.ledger⟩
  rw [inv.topPrevs] at read
  obtain ⟨inv, spec, -, -⟩ := cleared.stateBefore discovered read
  exact ⟨spec, inv⟩

theorem walkBuild_eq_some {walk after : Walk} {state : StateIds}
    (built : walkBuild services walk = (some state, after)) :
    ∃ nodesBuilt final,
      walkNodes services { walk with order := [] } walk.order = (true, nodesBuilt) ∧
      stateBefore services { nodesBuilt with topPrevs := [] } nodesBuilt.topPrevs =
        (some state, final) ∧
      createIntact services final.createEventId state = true ∧
      after = { final with resolved := ∅ } := by
  unfold walkBuild at built
  rcases nodes : walkNodes services { walk with order := [] } walk.order with ⟨_ | _, nodesBuilt⟩
  · simp [nodes] at built
  · rcases combined :
      stateBefore services { nodesBuilt with topPrevs := [] } nodesBuilt.topPrevs with
      ⟨_ | state', final⟩
    · simp [nodes, combined] at built
    · simp only [nodes, combined] at built
      split_ifs at built with intact
      · simp only [Prod.mk.injEq, Option.some.injEq] at built
        obtain ⟨rfl, rfl⟩ := built
        exact ⟨nodesBuilt, final, rfl, combined, intact, rfl⟩
      · simp at built

theorem walkState_eq_some {walk after : Walk} {state : StateIds}
    (built : walkState services walk = (some state, after)) :
    (walkDiscover services walk).fallback = none ∧
      walkBuild services (walkDiscover services walk) = (some state, after) := by
  unfold walkState at built
  dsimp only at built
  split_ifs at built with fellBack
  · simp at built
  · exact ⟨Option.not_isSome_iff_eq_none.mp fellBack, built⟩

/-- Discovery that does not fall back, then every node built in order: the walk between nodes. -/
theorem Building.ofWalkNodes (named : services.PdusNamed) {createEventId : EventId}
    {maxNodes : Nat} {topPrevs : List EventId} (acyclic : services.HeldAcyclic topPrevs)
    (proceeds : (walkDiscover services (Walk.new createEventId maxNodes topPrevs)).fallback = none)
    {done rest : List Nat} {walk : Walk} :
    let d := walkDiscover services (Walk.new createEventId maxNodes topPrevs)
    d.order = done ++ rest →
      EventHandler.walkNodes services { d with order := [] } done = (true, walk) →
      Discovered services d ∧ d.topPrevs = topPrevs ∧
        Building services d topPrevs done (d.reads rest) walk := by
  intro d split built
  obtain ⟨found, finished, counted⟩ := walkDiscover_of_fallback_none proceeds
  obtain ⟨discovered, tops, empty, nothingKept, noEntries⟩ := discover_new named acyclic finished
  -- `d` is the counted walk; the nodes built so far are a prefix of its order
  have same : d = found.countConsumers := counted
  rw [same] at split built ⊢
  have start := Building.start discovered empty nothingKept noEntries
  rw [split, tops] at start
  have prefixed : found.countConsumers.order = [] ++ done ++ rest := by simpa using split
  refine ⟨discovered.countConsumers, tops, ?_⟩
  simpa using Building.walkNodes discovered.countConsumers prefixed start built

/-! ## The walk meets its specification -/

variable (services)

/-- What the local walk from `start` does.  The state it returns is the specified one.  Unless
discovery falls back, it emits every held ancestor once, after the nodes of its held prevs.
Between nodes, every map still to be read of what the build made is kept, and `live_entries`
is the sum of the sizes of the maps kept; so it is after the final combination too, up to the
clear of `resolved`. -/
structure WalkMeetsSpec (start : Walk) : Prop where
  sound : ∀ state after, walkState services start = (some state, after) →
    SpecBefore services start.topPrevs state
  emitted : (walkDiscover services start).fallback = none →
    let d := walkDiscover services start
    d.order.Nodup ∧ (∀ index, index ∈ d.order ↔ index < d.nodes.length) ∧
      TopologicalOrder.SortedFrom (List.range d.nodes.length) d.heldPrevs [] d.order
  nodes : (walkDiscover services start).fallback = none →
    ∀ eventId pdu, services.Held eventId pdu →
      (services.Ancestor start.topPrevs eventId ↔
        ∃ index : Nat, (walkDiscover services start).pdus[index]? = some pdu)
  kept : (walkDiscover services start).fallback = none →
    let d := walkDiscover services start
    ∀ done rest walk, d.order = done ++ rest →
      walkNodes services { d with order := [] } done = (true, walk) →
      ∀ eventId ∈ d.reads rest, Materialized d done eventId → eventId ∈ walk.resolved
  ledger : (walkDiscover services start).fallback = none →
    let d := walkDiscover services start
    ∀ done rest walk, d.order = done ++ rest →
      walkNodes services { d with order := [] } done = (true, walk) →
      walk.liveEntries = Ledger.total liveSize walk.resolved
  ledgerCombined : (walkDiscover services start).fallback = none →
    let d := walkDiscover services start
    ∀ built final state, walkNodes services { d with order := [] } d.order = (true, built) →
      stateBefore services { built with topPrevs := [] } built.topPrevs = (some state, final) →
      final.liveEntries = Ledger.total liveSize final.resolved

theorem walkState_meets_spec (createEventId : EventId) (maxNodes : Nat) (topPrevs : List EventId)
    (named : services.PdusNamed) (acyclic : services.HeldAcyclic topPrevs) :
    WalkMeetsSpec services (Walk.new createEventId maxNodes topPrevs) := by
  -- unless it falls back, discovery leaves its invariant on the counted walk
  have discovered : (walkDiscover services (Walk.new createEventId maxNodes topPrevs)).fallback =
      none → Discovered services (walkDiscover services (Walk.new createEventId maxNodes topPrevs)) ∧
        (walkDiscover services (Walk.new createEventId maxNodes topPrevs)).topPrevs = topPrevs := by
    intro proceeds
    obtain ⟨found, finished, counted⟩ := walkDiscover_of_fallback_none proceeds
    obtain ⟨discovered, tops, -⟩ := discover_new named acyclic finished
    rw [counted]
    exact ⟨discovered.countConsumers, tops⟩
  refine ⟨?sound, ?emitted, ?nodes, ?kept, ?ledger, ?ledgerCombined⟩
  case sound =>
    intro state after built
    obtain ⟨proceeds, built⟩ := walkState_eq_some built
    obtain ⟨nodesBuilt, final, nodes, combined, -, -⟩ := walkBuild_eq_some built
    obtain ⟨done, -, inv⟩ := Building.ofWalkNodes named acyclic proceeds (List.append_nil _).symm nodes
    exact (inv.finalState done combined).1
  case emitted =>
    intro proceeds
    obtain ⟨done, -⟩ := discovered proceeds
    exact ⟨done.orderNodup, done.complete, done.sorted⟩
  case nodes =>
    intro proceeds eventId pdu held
    obtain ⟨done, tops⟩ := discovered proceeds
    constructor
    · intro ancestor
      rw [← tops] at ancestor
      exact done.node_of_ancestor ancestor held
    · rintro ⟨index, stored⟩
      have ancestor := done.nodeAncestors pdu (List.mem_of_getElem? stored)
      rw [named eventId pdu held.2.2, tops] at ancestor
      exact ancestor
  case kept =>
    intro proceeds d done rest walk split built
    exact (Building.ofWalkNodes named acyclic proceeds split built).2.2.keep
  case ledger =>
    intro proceeds d done rest walk split built
    exact (Building.ofWalkNodes named acyclic proceeds split built).2.2.ledger
  case ledgerCombined =>
    intro proceeds d built final state nodes combined
    obtain ⟨done, -, inv⟩ := Building.ofWalkNodes named acyclic proceeds (List.append_nil _).symm nodes
    exact (inv.finalState done combined).2.ledger

/-! ## A walk over one held event -/

/-- A held message `$h` whose one prev is the committed create event `$c`. -/
def exampleHeld : Pdu := ⟨"$h", "m.room.message", none, ["$c"], none, none⟩

/-- The create event `$c`. -/
def exampleCreate : Pdu := ⟨"$c", "m.room.create", some "", [], none, none⟩

/-- Services that hold `$h` as an outlier and have committed `$c` with an empty state hash. -/
def exampleServices : LocalServices where
  pduShortstatehash eventId := if eventId = "$c" then some 0 else none
  resolvedStateExists _ := false
  getPdu eventId :=
    if eventId = "$h" then some exampleHeld else if eventId = "$c" then some exampleCreate else none
  walkAuthPresent _ := true
  stateFullIds _ := ∅
  cachedResolvedState _ := none
  shortstatekey _ _ := 0
  createShortstatekey := some 0
  authCheck _ _ := true
  stateResolution _ := none

theorem exampleServices_named : exampleServices.PdusNamed := by
  intro eventId pdu found
  simp only [exampleServices] at found
  split_ifs at found with held create
  · cases found
    exact held.symm
  · cases found
    exact create.symm

/-- The one edge of the example's held ancestry: `$h` to `$c`. -/
theorem exampleServices_prevEdge {event prev : EventId}
    (edge : exampleServices.PrevEdge event prev) : event = "$h" ∧ prev = "$c" := by
  obtain ⟨pdu, ⟨unhashed, -, found⟩, member⟩ := edge
  simp only [exampleServices] at unhashed found
  split_ifs at unhashed found with create held
  cases found
  exact ⟨held, by simpa [exampleHeld] using member⟩

theorem exampleServices_acyclic : exampleServices.HeldAcyclic ["$h"] := by
  intro eventId _ cycle
  -- the first edge leaves `$h` for `$c`, which has no edge back
  obtain ⟨next, first, rest⟩ := Relation.TransGen.head'_iff.mp cycle
  obtain ⟨rfl, rfl⟩ := exampleServices_prevEdge first
  rcases rest.cases_head with same | ⟨after, edge, -⟩
  · simp at same
  · simpa using (exampleServices_prevEdge edge).1

theorem exampleWalk_meets_spec :
    exampleServices.PdusNamed ∧ exampleServices.HeldAcyclic ["$h"] ∧
      WalkMeetsSpec exampleServices (Walk.new "$c" 10 ["$h"]) :=
  ⟨exampleServices_named, exampleServices_acyclic,
    walkState_meets_spec exampleServices "$c" 10 ["$h"] exampleServices_named exampleServices_acyclic⟩

/-- The example walk returns a state, and ends with `resolved` cleared and one live entry
counted: the map of `$h`, which no release dropped. -/
theorem exampleWalk_ledger_stale :
    let result := walkState exampleServices (Walk.new "$c" 10 ["$h"])
    result.1.isSome ∧ Ledger.total liveSize result.2.resolved = 0 ∧ result.2.liveEntries = 1 := by
  simp [walkState, walkDiscover, discover, Walk.new, exampleServices, expandStack,
    Walk.countConsumers, exampleHeld, exampleCreate, walkBuild, walkNodes, walkNode, stateBefore,
    stateAfter, Walk.retain, Walk.release, Walk.releaseOne, Walk.releaseCount, committedStateAfter,
    committedState, Walk.edges, Walk.countEdge, foldOwnState, createIntact, maxLiveEntries,
    AList.lookup, AList.singleton_entries, AList.erase, AList.entries_insert]

end EventHandler
end Tuwunel
