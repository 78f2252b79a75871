import Mathlib
import Tuwunel.Service.Rooms.EventHandler.StateLocalBuild.Build

/-!
# When discovery falls back

`walk_discover` gives up on an ancestor it cannot pass: one the server does not hold, a held
event without prevs, or one whose auth events are not all stored.  It also gives up when the
held ancestors outnumber `max_nodes`, and when there is none.  These are the only ways it falls
back (`walkDiscover_proceeds_iff`).  In particular the `debug_assert` on an expanded entry
cannot fire, since an expanded entry is always a node still to be emitted (`Discovering.marked`).

The order of the depth-first search decides which fallback is reported, never whether one is.
-/

namespace Tuwunel
namespace EventHandler

open KeyValue

namespace LocalServices

variable (services : LocalServices)

/-- An event discovery can pass: committed, memoized, or held with prevs and with its auth
events stored. -/
def Walkable (eventId : EventId) : Prop :=
  (services.pduShortstatehash eventId).isSome ∨ services.resolvedStateExists eventId = true ∨
    ∃ pdu, services.getPdu eventId = some pdu ∧ pdu.prevEvents ≠ [] ∧
      services.walkAuthPresent pdu = true

/-- At most `maxNodes` held ancestors: a list that long holds them all. -/
def HeldWithin (topPrevs : List EventId) (maxNodes : Nat) : Prop :=
  ∃ held : List EventId, held.length ≤ maxNodes ∧
    ∀ eventId pdu, services.Ancestor topPrevs eventId → services.Held eventId pdu → eventId ∈ held

variable {services}

/-- A walkable event with no state hash and no memo row is held with prevs and its auth events. -/
theorem Walkable.held {eventId : EventId} (walkable : services.Walkable eventId)
    (uncommitted : services.pduShortstatehash eventId = none)
    (unmemoized : ¬ services.resolvedStateExists eventId = true) :
    ∃ pdu, services.getPdu eventId = some pdu ∧ pdu.prevEvents ≠ [] ∧
      services.walkAuthPresent pdu = true := by
  rcases walkable with hashed | memoized | stored
  · simp [uncommitted] at hashed
  · exact absurd memoized unmemoized
  · exact stored

end LocalServices

variable (services : LocalServices)

/-- What the checks of discovery leave on its nodes: no more than the ceiling, each with prevs
and with its auth events stored. -/
structure NodesChecked (walk : Walk) : Prop where
  bound : walk.nodes.length ≤ walk.maxNodes
  checked : ∀ pdu ∈ walk.pdus, pdu.prevEvents ≠ [] ∧ services.walkAuthPresent pdu = true

variable {services}

theorem discover_nodesChecked {stack : List (EventId × Bool)} {walk result : Walk}
    (checked : NodesChecked services walk) (finished : discover services stack walk = .ok result) :
    NodesChecked services result := by
  fun_induction discover services stack walk with
  | case1 walk =>
      cases finished
      exact checked
  | case2 _ _ _ _ _ ih | case4 _ _ _ _ _ _ ih | case5 _ _ _ _ _ _ _ _ ih
  | case6 _ _ _ _ _ _ _ _ ih => exact ih ⟨checked.bound, checked.checked⟩ finished
  | case11 eventId expanded stack walk _ _ _ _ pdu _ room prevs present ih =>
      -- the one step that adds a node has passed the ceiling and both checks
      refine ih ⟨?_, ?_⟩ finished
      · simp only [List.length_append, List.length_singleton]
        omega
      · intro other member
        simp only [Walk.pdus, List.map_append, List.map_singleton, List.mem_append,
          List.mem_singleton] at member
        rcases member with old | rfl
        · exact checked.checked other old
        · exact ⟨prevs, by simpa using present⟩
  | case3 | case7 | case8 | case9 | case10 => cases finished

namespace Discovering

variable {stack : List (EventId × Bool)} {walk : Walk}

/-- The nodes are distinct events: each is held at its own index. -/
theorem eventIds_nodup (inv : Discovering services stack walk) :
    (walk.pdus.map (·.eventId)).Nodup := by
  refine List.nodup_iff_getElem?_ne_getElem?.mpr fun first second ordered bound same => ?_
  simp only [List.getElem?_map] at same
  have firstBound : first < walk.pdus.length := by simp at bound; omega
  rw [List.getElem?_eq_getElem firstBound, List.getElem?_eq_getElem (by simpa using bound)] at same
  have heldFirst := inv.named first _ (List.getElem?_eq_getElem firstBound)
  have heldSecond := inv.named second _ (List.getElem?_eq_getElem (by simpa using bound))
  rw [Option.map_some, Option.map_some, Option.some.injEq] at same
  rw [same, heldSecond, Option.some.injEq, Class.held.injEq] at heldFirst
  omega

/-- Each node is a held ancestor of the incoming event. -/
theorem held_of_node (inv : Discovering services stack walk) {pdu : Pdu} (member : pdu ∈ walk.pdus) :
    services.Ancestor walk.topPrevs pdu.eventId ∧ services.Held pdu.eventId pdu := by
  obtain ⟨index, stored⟩ := List.mem_iff_getElem?.mp member
  obtain ⟨pdu', stored', -, held⟩ := inv.classOk _ _ (inv.named index pdu stored)
  rw [stored, Option.some.injEq] at stored'
  exact ⟨inv.nodeAncestors pdu member, stored' ▸ held⟩

/-- Where every ancestor is walkable and the held ones fit under the ceiling, discovery runs to
the end: no step of it falls back. -/
theorem proceeds (named : services.PdusNamed) (acyclic : services.HeldAcyclic walk.topPrevs)
    (walkable : ∀ eventId, services.Ancestor walk.topPrevs eventId → services.Walkable eventId)
    (within : services.HeldWithin walk.topPrevs walk.maxNodes)
    (inv : Discovering services stack walk) : ∃ result, discover services stack walk = .ok result := by
  fun_induction discover services stack walk with
  | case1 walk => exact ⟨walk, rfl⟩
  | case2 eventId stack walk index found ih => exact ih acyclic walkable within (inv.emit found)
  | case3 eventId stack walk notHeld =>
      obtain ⟨index, found, -⟩ := inv.expanded_emits
      exact absurd found (notHeld index)
  | case4 eventId expanded stack walk unexpanded classified ih =>
      obtain rfl : expanded = false := by simpa using unexpanded
      exact ih acyclic walkable within (inv.skip acyclic classified)
  | case5 eventId expanded stack walk unexpanded unclassified shortstatehash committed ih =>
      obtain rfl : expanded = false := by simpa using unexpanded
      exact ih acyclic walkable within (inv.classify (Option.not_isSome_iff_eq_none.mp unclassified)
        committed fun _ same => by cases same)
  | case6 eventId expanded stack walk unexpanded unclassified uncommitted memoized ih =>
      obtain rfl : expanded = false := by simpa using unexpanded
      exact ih acyclic walkable within (inv.classify (Option.not_isSome_iff_eq_none.mp unclassified)
        ⟨uncommitted, memoized⟩ fun _ same => by cases same)
  | case7 eventId expanded stack walk _ _ uncommitted unmemoized absent =>
      obtain ⟨pdu, found, -⟩ :=
        (walkable eventId (inv.ancestors _ List.mem_cons_self)).held uncommitted unmemoized
      simp [found] at absent
  | case8 eventId expanded stack walk _ unclassified uncommitted unmemoized pdu found full =>
      -- the nodes and this event are distinct held ancestors, more than the ceiling allows
      obtain ⟨held, short, covers⟩ := within
      have fresh : eventId ∉ walk.pdus.map (·.eventId) := by
        intro member
        obtain ⟨node, nodeMember, same⟩ := List.mem_map.mp member
        obtain ⟨index, stored⟩ := List.mem_iff_getElem?.mp nodeMember
        have classified := inv.named index node stored
        rw [same] at classified
        simp [classified] at unclassified
      have distinct : (eventId :: walk.pdus.map (·.eventId)).Nodup :=
        List.nodup_cons.mpr ⟨fresh, inv.eventIds_nodup⟩
      have covered : eventId :: walk.pdus.map (·.eventId) ⊆ held := by
        intro other member
        rcases List.mem_cons.mp member with rfl | member
        · exact covers _ pdu (inv.ancestors _ List.mem_cons_self)
            ⟨uncommitted, by simpa using unmemoized, found⟩
        · obtain ⟨node, nodeMember, rfl⟩ := List.mem_map.mp member
          obtain ⟨ancestor, heldNode⟩ := inv.held_of_node nodeMember
          exact covers _ _ ancestor heldNode
      have counted := (distinct.subperm covered).length_le
      simp only [List.length_cons, List.length_map, Walk.pdus] at counted
      omega
  | case9 eventId expanded stack walk _ _ uncommitted unmemoized pdu found _ noPrevs =>
      obtain ⟨pdu', found', prevs, -⟩ :=
        (walkable eventId (inv.ancestors _ List.mem_cons_self)).held uncommitted unmemoized
      rw [found, Option.some.injEq] at found'
      exact absurd (found' ▸ noPrevs) prevs
  | case10 eventId expanded stack walk _ _ uncommitted unmemoized pdu found _ _ missing =>
      obtain ⟨pdu', found', -, present⟩ :=
        (walkable eventId (inv.ancestors _ List.mem_cons_self)).held uncommitted unmemoized
      rw [found, Option.some.injEq] at found'
      simp [found', present] at missing
  | case11 eventId expanded stack walk unexpanded unclassified uncommitted unmemoized pdu found
      _ _ _ ih =>
      obtain rfl : expanded = false := by simpa using unexpanded
      exact ih acyclic walkable within (inv.expand named (Option.not_isSome_iff_eq_none.mp unclassified)
        ⟨uncommitted, by simpa using unmemoized, found⟩)

end Discovering

/-- Discovery from a new walk that runs to the end: its invariant, the checks on its nodes, and
nothing but the classes, nodes and order written. -/
theorem discover_new_checked (named : services.PdusNamed) {createEventId : EventId}
    {maxNodes : Nat} {topPrevs : List EventId} (acyclic : services.HeldAcyclic topPrevs)
    {walk : Walk}
    (finished : discover services (topPrevs.reverse.map (·, false))
      (Walk.new createEventId maxNodes topPrevs) = .ok walk) :
    Discovering services [] walk ∧ NodesChecked services walk ∧ walk.topPrevs = topPrevs ∧
      walk.maxNodes = maxNodes ∧ walk.fallback = none := by
  have initial : Discovering services _ _ := Discovering.initial createEventId maxNodes topPrevs
  have checked : NodesChecked services (Walk.new createEventId maxNodes topPrevs) :=
    ⟨Nat.zero_le _, by simp [Walk.new, Walk.pdus]⟩
  obtain ⟨_, _, _, rfl⟩ := discover_frame finished
  exact ⟨initial.run named acyclic finished, discover_nodesChecked checked finished, rfl, rfl, rfl⟩

theorem walkDiscover_proceeds_iff (createEventId : EventId) (maxNodes : Nat)
    (topPrevs : List EventId) (named : services.PdusNamed)
    (acyclic : services.HeldAcyclic topPrevs) :
    (walkDiscover services (Walk.new createEventId maxNodes topPrevs)).fallback = none ↔
      (∀ eventId, services.Ancestor topPrevs eventId → services.Walkable eventId) ∧
        services.HeldWithin topPrevs maxNodes ∧
        ∃ eventId pdu, services.Ancestor topPrevs eventId ∧ services.Held eventId pdu := by
  constructor
  · intro proceeds
    obtain ⟨found, finished, counted⟩ := walkDiscover_of_fallback_none proceeds
    obtain ⟨inv, checked, tops, ceiling, -⟩ := discover_new_checked named acyclic finished
    have discovered := inv.finish
    -- discovery did not fall back for want of a node
    have nonempty : found.nodes ≠ [] := by
      intro empty
      unfold walkDiscover at proceeds
      rw [finished] at proceeds
      simp [empty, Walk.fail] at proceeds
    refine ⟨fun eventId ancestor => ?walkable, ⟨found.pdus.map (·.eventId), ?within⟩, ?some⟩
    case walkable =>
      obtain ⟨found, classified⟩ :=
        Option.isSome_iff_exists.mp (discovered.classified_of_ancestor (by rw [tops]; exact ancestor))
      have ok := discovered.classOk eventId found classified
      cases found with
      | committed shortstatehash => exact .inl (by simp [ClassOk] at ok; simp [ok])
      | memoized => exact .inr (.inl ok.2)
      | held index =>
          obtain ⟨pdu, stored, named, held⟩ := ok
          exact .inr (.inr ⟨pdu, held.2.2, checked.checked pdu (List.mem_of_getElem? stored)⟩)
    case within =>
      refine ⟨by simpa [Walk.pdus, ← ceiling] using checked.bound, fun eventId pdu ancestor held => ?_⟩
      obtain ⟨index, stored⟩ := discovered.node_of_ancestor (by rw [tops]; exact ancestor) held
      exact List.mem_map.mpr ⟨pdu, List.mem_of_getElem? stored, named eventId pdu held.2.2⟩
    case some =>
      obtain ⟨node, member⟩ := List.exists_mem_of_ne_nil _ nonempty
      have pduMember : node.pdu ∈ found.pdus := List.mem_map_of_mem member
      exact ⟨node.pdu.eventId, node.pdu, tops ▸ inv.held_of_node pduMember⟩
  · rintro ⟨walkable, within, eventId, pdu, ancestor, held⟩
    have initial : Discovering services _ _ := Discovering.initial createEventId maxNodes topPrevs
    obtain ⟨found, finished⟩ := initial.proceeds named acyclic walkable within
    obtain ⟨inv, -, tops, -, unset⟩ := discover_new_checked named acyclic finished
    -- a held ancestor is a node, so the walk is not all committed
    obtain ⟨index, stored⟩ := inv.finish.node_of_ancestor (by rw [tops]; exact ancestor) held
    have nonempty : found.nodes ≠ [] := fun empty => by simp [Walk.pdus, empty] at stored
    have finished : discover services ((Walk.new createEventId maxNodes topPrevs).topPrevs.reverse.map
        (·, false)) (Walk.new createEventId maxNodes topPrevs) = .ok found := finished
    unfold walkDiscover
    rw [finished]
    simp [nonempty, Walk.countConsumers, unset]

theorem exampleWalk_proceeds_iff :
    exampleServices.PdusNamed ∧ exampleServices.HeldAcyclic ["$h"] ∧
      ((walkDiscover exampleServices (Walk.new "$c" 10 ["$h"])).fallback = none ↔
        (∀ eventId, exampleServices.Ancestor ["$h"] eventId → exampleServices.Walkable eventId) ∧
          exampleServices.HeldWithin ["$h"] 10 ∧
          ∃ eventId pdu, exampleServices.Ancestor ["$h"] eventId ∧ exampleServices.Held eventId pdu) :=
  ⟨exampleServices_named, exampleServices_acyclic,
    walkDiscover_proceeds_iff "$c" 10 ["$h"] exampleServices_named exampleServices_acyclic⟩

end EventHandler
end Tuwunel
