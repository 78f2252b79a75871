import Mathlib
import Tuwunel.Service.Rooms.EventHandler.StateLocalBuild.Proceeds

/-!
# The local walk falls back only where it must

`WalkMeetsSpec` says what a state returned by the walk is.  This module says when the walk
returns one.  Suppose discovery does not fall back, and neither the frontier loaders nor state
resolution fail.  Then the build never reaches its `Fallback::Error` branches.  In particular the
`debug_assert` of `state_after` cannot fire: it is the case of a held node read before it is
built.  Discovery emits every prev of a node before the node, and the build keeps that prev's
map until its last read.  So the build stops only at the live-entries ceiling, or at the
create canary when the specified state has lost the create event (`walkState_ends`).

Each operation of the build has a lemma saying that it fails only at the ceiling.  Its success
arm is the `Building` preservation lemma of the same operation.
-/

namespace Tuwunel
namespace EventHandler

open KeyValue

namespace LocalServices

variable (services : LocalServices)

/-- The frontier loaders do not fail: a committed event's pdu is stored, and a memoized
event's memo row and pdu are. -/
def Loads : Prop :=
  (∀ eventId shortstatehash, services.pduShortstatehash eventId = some shortstatehash →
      (services.getPdu eventId).isSome) ∧
    ∀ eventId, services.pduShortstatehash eventId = none →
      services.resolvedStateExists eventId = true →
        (services.cachedResolvedState eventId).isSome ∧ (services.getPdu eventId).isSome

/-- State resolution does not fail at a fork. -/
def ResolvesForks : Prop :=
  ∀ afters : List StateIds, afters.length ≠ 1 → (services.stateResolution afters).isSome

variable {services}

theorem Loads.committed (loads : services.Loads) {eventId : EventId}
    {shortstatehash : ShortStateHash} (hashed : services.pduShortstatehash eventId = some shortstatehash) :
    ∃ state, committedState services eventId shortstatehash = some state := by
  obtain ⟨pdu, stored⟩ := Option.isSome_iff_exists.mp (loads.1 eventId shortstatehash hashed)
  simp [committedState, stored]

theorem Loads.memoized (loads : services.Loads) {eventId : EventId}
    (unhashed : services.pduShortstatehash eventId = none)
    (memo : services.resolvedStateExists eventId = true) :
    ∃ state, memoizedState services eventId = .ok state := by
  obtain ⟨row, stored⟩ := loads.2 eventId unhashed memo
  obtain ⟨state, found⟩ := Option.isSome_iff_exists.mp row
  obtain ⟨pdu, loaded⟩ := Option.isSome_iff_exists.mp stored
  exact ⟨foldOwnState services pdu state, by simp [memoizedState, found, loaded]⟩

end LocalServices

/-! ## The build keeps the walk's create event

`walk_build` checks the state it built against the walk's `create_event_id`, which no operation
writes.  Only the calls that succeed matter here, so the lemmas read the inversion lemmas of
`Building`.
-/

section Frame

variable {services : LocalServices} {walk after : Walk}

theorem Walk.releaseCount_createEventId {prev : EventId} {remaining : Nat} {counted : Walk}
    (released : walk.releaseCount prev = some (remaining, counted)) :
    counted.createEventId = walk.createEventId := by
  unfold Walk.releaseCount at released
  split at released
  · split at released
    · cases released
      rfl
    · cases released
  · split at released
    · cases released
      rfl
    · cases released

@[simp]
theorem Walk.releaseOne_createEventId (walk : Walk) (prev : EventId) :
    (walk.releaseOne prev).createEventId = walk.createEventId := by
  unfold Walk.releaseOne
  rcases released : walk.releaseCount prev with _ | ⟨remaining, counted⟩
  · rfl
  · have frame := Walk.releaseCount_createEventId released
    dsimp only
    split_ifs
    · split <;> exact frame
    · exact frame

@[simp]
theorem Walk.release_createEventId (walk : Walk) (prevs : List EventId) :
    (walk.release prevs).createEventId = walk.createEventId := by
  induction prevs generalizing walk with
  | nil => rfl
  | cons prev prevs induction =>
      exact (induction (walk.releaseOne prev)).trans (walk.releaseOne_createEventId prev)

theorem stateAfter_createEventId {eventId : EventId} {state : StateIds}
    (read : stateAfter services walk eventId = (some state, after)) :
    after.createEventId = walk.createEventId := by
  rcases stateAfter_eq_some read with ⟨-, rfl⟩ | ⟨-, -, retained⟩
  · rfl
  · obtain ⟨-, rfl⟩ := Walk.retain_eq_true retained
    rfl

theorem stateAfters_createEventId :
    ∀ {prevs : List EventId} {walk : Walk} {afters : List StateIds},
      stateAfters services walk prevs = (some afters, after) →
      after.createEventId = walk.createEventId
  | [], _, _, read => by
      obtain ⟨-, rfl⟩ := stateAfters_nil_eq_some read
      rfl
  | prev :: prevs, _, _, read => by
      obtain ⟨first, middle, rest, one, others, -⟩ := stateAfters_cons_eq_some read
      rw [stateAfters_createEventId others, stateAfter_createEventId one]

theorem stateBefore_createEventId {prevs : List EventId} {before : StateIds}
    (read : stateBefore services walk prevs = (some before, after)) :
    after.createEventId = walk.createEventId := by
  by_cases single : ∃ prev, prevs = [prev]
  · obtain ⟨prev, rfl⟩ := single
    exact stateAfter_createEventId read
  · rw [stateBefore_of_ne_singleton fun prev same => single ⟨prev, same⟩] at read
    obtain ⟨afters, all, -⟩ := forkResolve_eq_some read
    exact stateAfters_createEventId all

theorem walkNodes_createEventId :
    ∀ {order : List Nat} {walk : Walk}, walkNodes services walk order = (true, after) →
      after.createEventId = walk.createEventId
  | [], _, built => by
      simp only [walkNodes, Prod.mk.injEq, true_and] at built
      rw [built]
  | index :: order, _, built => by
      obtain ⟨middle, one, others⟩ := walkNodes_cons_eq_true built
      obtain ⟨node, before, readWalk, retained, -, read, kept, rfl⟩ := walkNode_eq_true one
      obtain ⟨-, rfl⟩ := Walk.retain_eq_true kept
      have frame : readWalk.createEventId = _ := stateBefore_createEventId read
      rw [walkNodes_createEventId others, Walk.release_createEventId]
      exact frame

theorem walkDiscover_createEventId (proceeds : (walkDiscover services walk).fallback = none) :
    (walkDiscover services walk).createEventId = walk.createEventId := by
  obtain ⟨found, finished, counted⟩ := walkDiscover_of_fallback_none proceeds
  obtain ⟨_, _, _, rfl⟩ := discover_frame finished
  rw [counted]
  rfl

end Frame

/-! ## Each operation fails only at the ceiling -/

section Ceiling

variable {services : LocalServices} {walk after : Walk}

theorem Walk.retain_eq_false {eventId : EventId} {state : StateIds}
    (refused : walk.retain eventId state = (false, after)) : after.fallback = some .entries := by
  unfold Walk.retain at refused
  dsimp only at refused
  split_ifs at refused
  · cases refused
    rfl
  · cases refused

/-- The tail of `state_after`, once a frontier map is loaded: it fails only where `retain`
refuses the map. -/
theorem ceiling_of_retained {eventId : EventId} {state : StateIds}
    (failed : (match walk.retain eventId state with
      | (true, walk) => (some state, walk)
      | (false, walk) => (none, walk)) = (none, after)) :
    after.fallback = some .entries := by
  rcases kept : walk.retain eventId state with ⟨_ | _, retained⟩
  · simp only [kept, Prod.mk.injEq, true_and] at failed
    exact failed ▸ Walk.retain_eq_false kept
  · simp [kept] at failed

variable {d : Walk} {tops : List EventId} {done : List Nat} {reads : List EventId}

/-- A read of a finished event still to be read fails only at the ceiling: a built node's map is
kept, and a frontier map loads. -/
theorem Building.stateAfter_ceiling (discovered : Discovered services d) (loads : services.Loads)
    (inv : Building services d tops done reads walk) {eventId : EventId} (read : eventId ∈ reads)
    (finished : Finished d done eventId)
    (failed : EventHandler.stateAfter services walk eventId = (none, after)) :
    after.fallback = some .entries := by
  obtain ⟨found, classified, placed⟩ := finished
  have miss : walk.resolved.lookup eventId = none := by
    rcases hit : walk.resolved.lookup eventId with _ | state
    · rfl
    · simp [EventHandler.stateAfter, hit] at failed
  have ok := discovered.classOk eventId found classified
  rw [← inv.sameClass] at classified
  cases found with
  | held index =>
      -- the `debug_assert` branch: the node is built, so its map is kept for this read
      have kept := inv.keep eventId read ⟨index, placed index rfl, .inr (inv.sameClass ▸ classified)⟩
      simp [← AList.lookup_isSome, miss] at kept
  | committed shortstatehash =>
      obtain ⟨state, loaded⟩ := loads.committed ok
      simp only [EventHandler.stateAfter, miss, classified, committedStateAfter, loaded] at failed
      exact ceiling_of_retained failed
  | memoized =>
      obtain ⟨state, loaded⟩ := loads.memoized ok.1 ok.2
      simp only [EventHandler.stateAfter, miss, classified, memoizedStateAfter, loaded] at failed
      exact ceiling_of_retained failed

/-- The reads of a fork, in turn: the first that fails stops at the ceiling. -/
theorem Building.stateAfters_ceiling (discovered : Discovered services d) (loads : services.Loads) :
    ∀ {prevs : List EventId} {walk after : Walk}, Building services d tops done reads walk →
      (∀ prev ∈ prevs, prev ∈ reads ∧ Finished d done prev) →
      EventHandler.stateAfters services walk prevs = (none, after) → after.fallback = some .entries
  | [], _, _, _, _, failed => by simp [EventHandler.stateAfters] at failed
  | prev :: prevs, walk, _, inv, ready, failed => by
      have first := ready prev List.mem_cons_self
      rcases one : EventHandler.stateAfter services walk prev with ⟨_ | state, middle⟩
      · simp only [EventHandler.stateAfters, one, Prod.mk.injEq, true_and] at failed
        exact failed ▸ inv.stateAfter_ceiling discovered loads first.1 first.2 one
      · rcases others : EventHandler.stateAfters services middle prevs with ⟨_ | afters, last⟩
        · simp only [EventHandler.stateAfters, one, others, Prod.mk.injEq, true_and] at failed
          exact failed ▸ Building.stateAfters_ceiling discovered loads
            (inv.stateAfter discovered one).1 (fun other member => ready other (.tail _ member)) others
        · simp [EventHandler.stateAfters, one, others] at failed

/-- The state before a node, or the final combination, fails only at the ceiling. -/
theorem Building.stateBefore_ceiling (discovered : Discovered services d) (loads : services.Loads)
    (resolves : services.ResolvesForks) (inv : Building services d tops done reads walk)
    {prevs : List EventId} (ready : ∀ prev ∈ prevs, prev ∈ reads ∧ Finished d done prev)
    (failed : EventHandler.stateBefore services walk prevs = (none, after)) :
    after.fallback = some .entries := by
  by_cases single : ∃ prev, prevs = [prev]
  · obtain ⟨prev, rfl⟩ := single
    have first := ready prev List.mem_cons_self
    exact inv.stateAfter_ceiling discovered loads first.1 first.2 failed
  · have several : ∀ prev, prevs ≠ [prev] := fun prev same => single ⟨prev, same⟩
    rw [stateBefore_of_ne_singleton several] at failed
    unfold forkResolve at failed
    rcases all : EventHandler.stateAfters services walk prevs with ⟨_ | afters, middle⟩
    · simp only [all, Prod.mk.injEq, true_and] at failed
      exact failed ▸ inv.stateAfters_ceiling discovered loads ready all
    · -- a fork reads one map per prev, never exactly one
      obtain ⟨-, specs, -, -⟩ := inv.stateAfters discovered all
      have forked : afters.length ≠ 1 := by
        rw [← specs.length_eq]
        intro one
        obtain ⟨prev, rfl⟩ := List.length_eq_one_iff.mp one
        exact several prev rfl
      obtain ⟨state, resolved⟩ := Option.isSome_iff_exists.mp (resolves afters forked)
      simp [all, resolved] at failed

/-- Building a node fails only at the ceiling: it is stored, and its prevs are finished reads. -/
theorem Building.walkNode_ceiling (discovered : Discovered services d) (loads : services.Loads)
    (resolves : services.ResolvesForks) {rest : List Nat} {index : Nat}
    (split : d.order = done ++ index :: rest)
    (inv : Building services d tops done (d.reads (index :: rest)) walk)
    (failed : EventHandler.walkNode services walk index = (false, after)) :
    after.fallback = some .entries := by
  -- the node is stored, since its index is in the order
  have bound : index < walk.nodes.length := by
    have emitted := (discovered.complete index).mp (split ▸ List.mem_append_right _ List.mem_cons_self)
    have lengths := congrArg List.length inv.samePdus
    simp only [Walk.pdus, List.length_map] at lengths
    omega
  have stored : walk.nodes[index]? = some walk.nodes[index] := List.getElem?_eq_getElem bound
  have pdu : d.pdus[index]? = some walk.nodes[index].pdu := by
    rw [← inv.samePdus]
    simp [Walk.pdus, stored]
  have ready : ∀ prev ∈ walk.nodes[index].pdu.prevEvents,
      prev ∈ d.reads (index :: rest) ∧ Finished d done prev := fun prev member =>
    ⟨by rw [Walk.reads_cons, Walk.prevsOf_of_getElem? pdu]; exact List.mem_append_left _ member,
      discovered.emitted done index rest split _ pdu prev member⟩
  unfold EventHandler.walkNode at failed
  rw [stored] at failed
  rcases read : EventHandler.stateBefore services walk walk.nodes[index].pdu.prevEvents with
    ⟨_ | before, middle⟩
  · simp only [read, Prod.mk.injEq, true_and] at failed
    exact failed ▸ inv.stateBefore_ceiling discovered loads resolves ready read
  · rcases kept : middle.retain walk.nodes[index].pdu.eventId
      (foldOwnState services walk.nodes[index].pdu before) with ⟨_ | _, retained⟩
    · simp only [read, kept, Prod.mk.injEq, true_and] at failed
      exact failed ▸ Walk.retain_eq_false kept
    · simp [read, kept] at failed

/-- Building the nodes of `first` in turn fails only at the ceiling. -/
theorem Building.walkNodes_ceiling (discovered : Discovered services d) (loads : services.Loads)
    (resolves : services.ResolvesForks) :
    ∀ {done first rest : List Nat} {walk after : Walk}, d.order = done ++ first ++ rest →
      Building services d tops done (d.reads (first ++ rest)) walk →
      EventHandler.walkNodes services walk first = (false, after) → after.fallback = some .entries
  | _, [], _, _, _, _, _, failed => by simp [EventHandler.walkNodes] at failed
  | done, index :: first, rest, walk, _, split, inv, failed => by
      have split : d.order = done ++ index :: (first ++ rest) := by simpa using split
      rcases one : EventHandler.walkNode services walk index with ⟨_ | _, middle⟩
      · simp only [EventHandler.walkNodes, one, Prod.mk.injEq, true_and] at failed
        exact failed ▸ inv.walkNode_ceiling discovered loads resolves split one
      · simp only [EventHandler.walkNodes, one] at failed
        exact Building.walkNodes_ceiling discovered loads resolves (by simpa using split)
          (inv.walkNode discovered split one) failed

end Ceiling

/-! ## How the walk ends -/

/-- Clearing the walk's own list of top prevs, as `walk_build` takes it, keeps `Building`. -/
theorem Building.clearTops {services : LocalServices} {d : Walk} {tops : List EventId}
    {done : List Nat} {reads : List EventId} {walk : Walk}
    (inv : Building services d tops done reads walk) :
    Building services d [] done reads { walk with topPrevs := [] } :=
  ⟨inv.sameClass, inv.samePdus, rfl, inv.consumers, inv.frontier, inv.sound, inv.keys, inv.keep,
    inv.ledger⟩

variable (services : LocalServices)

/-- How a walk from `start` ends when its loaders and state resolution do not fail. -/
inductive WalkEnds (start : Walk) : Option StateIds × Walk → Prop
  /-- The specified state before the incoming event, which holds the create event. -/
  | resolved {state : StateIds} {after : Walk} : SpecBefore services start.topPrevs state →
      createIntact services start.createEventId state = true → WalkEnds start (some state, after)
  /-- Discovery fell back, and the build did not run. -/
  | discovery : (walkDiscover services start).fallback.isSome →
      WalkEnds start (none, walkDiscover services start)
  /-- A map would have passed the live-entries ceiling. -/
  | entries {after : Walk} : after.fallback = some .entries → WalkEnds start (none, after)
  /-- The specified state has lost the create event. -/
  | createMismatch {state : StateIds} {after : Walk} : SpecBefore services start.topPrevs state →
      createIntact services start.createEventId state = false →
      after.fallback = some .createMismatch → WalkEnds start (none, after)

variable {services}

theorem walkState_ends (createEventId : EventId) (maxNodes : Nat) (topPrevs : List EventId)
    (named : services.PdusNamed) (acyclic : services.HeldAcyclic topPrevs)
    (loads : services.Loads) (resolves : services.ResolvesForks) :
    WalkEnds services (Walk.new createEventId maxNodes topPrevs)
      (walkState services (Walk.new createEventId maxNodes topPrevs)) := by
  unfold walkState
  dsimp only
  by_cases fellBack : (walkDiscover services (Walk.new createEventId maxNodes topPrevs)).fallback.isSome
  · rw [if_pos fellBack]
    exact .discovery fellBack
  rw [if_neg fellBack]
  have proceeds := Option.not_isSome_iff_eq_none.mp fellBack
  set d := walkDiscover services (Walk.new createEventId maxNodes topPrevs) with discovering
  -- the build starts from the counted walk, nothing built
  obtain ⟨discovered, tops, start⟩ :=
    Building.ofWalkNodes named acyclic proceeds (List.nil_append d.order).symm rfl
  have frame : d.createEventId = createEventId := walkDiscover_createEventId proceeds
  have whole : d.order = [] ++ d.order ++ [] := by simp
  replace start : Building services d topPrevs [] (d.reads (d.order ++ [])) { d with order := [] } := by
    simpa using start
  unfold walkBuild
  rcases nodes : walkNodes services { d with order := [] } d.order with ⟨_ | _, built⟩
  · exact .entries (start.walkNodes_ceiling discovered loads resolves whole nodes)
  dsimp only
  have inv := Building.walkNodes discovered whole start nodes
  rw [List.nil_append] at inv
  have builtFrame : built.createEventId = createEventId :=
    (walkNodes_createEventId nodes).trans frame
  -- the final combination reads the incoming event's prevs, all classified
  have ready : ∀ top ∈ built.topPrevs, top ∈ d.reads [] ∧ Finished d d.order top := by
    intro top member
    rw [inv.topPrevs, ← tops] at member
    obtain ⟨found, classified⟩ := Option.isSome_iff_exists.mp (discovered.tops top member)
    exact ⟨by simpa [Walk.reads] using member, discovered.finished classified⟩
  rcases combined : stateBefore services { built with topPrevs := [] } built.topPrevs with
    ⟨_ | state, final⟩
  · exact .entries (inv.clearTops.stateBefore_ceiling discovered loads resolves ready combined)
  dsimp only
  obtain ⟨spec, -⟩ := inv.finalState discovered combined
  have finalFrame : final.createEventId = createEventId :=
    (stateBefore_createEventId combined).trans builtFrame
  rw [finalFrame]
  cases intact : createIntact services createEventId state
  · exact .createMismatch spec intact rfl
  · exact .resolved spec intact

/-- The example's services, with a state resolution that keeps the first state. -/
def exampleResolving : LocalServices :=
  { exampleServices with stateResolution := fun afters => some (afters.headD ∅) }

theorem exampleResolving_loads : exampleResolving.Loads := by
  refine ⟨fun eventId shortstatehash hashed => ?_, fun eventId _ memo => ?_⟩
  · simp only [exampleResolving, exampleServices] at hashed ⊢
    split_ifs at hashed with create
    simp [create]
  · simp [exampleResolving, exampleServices] at memo

theorem exampleWalk_ends :
    exampleResolving.PdusNamed ∧ exampleResolving.HeldAcyclic ["$h"] ∧ exampleResolving.Loads ∧
      exampleResolving.ResolvesForks ∧
      WalkEnds exampleResolving (Walk.new "$c" 10 ["$h"])
        (walkState exampleResolving (Walk.new "$c" 10 ["$h"])) :=
  ⟨exampleServices_named, exampleServices_acyclic, exampleResolving_loads, fun _ _ => rfl,
    walkState_ends "$c" 10 ["$h"] exampleServices_named exampleServices_acyclic
      exampleResolving_loads fun _ _ => rfl⟩

end EventHandler
end Tuwunel
