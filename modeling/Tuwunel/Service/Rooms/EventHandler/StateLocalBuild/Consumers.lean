import Mathlib
import Tuwunel.Service.Rooms.EventHandler.StateLocalBuild.Discover

/-!
# Consumer counts

`count_consumers` counts, for each node and each frontier event, the edges that read it.  Those
are the prevs of the nodes, each as often as it is listed, and the incoming event's own prevs.
Once the nodes of `rest` remain to be built, the reads still to come are `Walk.reads rest`.
Discovery having emitted every node, the reads of the whole order count the same events as
the edges do (`Discovered.reads_order_perm`), so the counters start at what the build will release.
-/

namespace Tuwunel
namespace EventHandler

open KeyValue

/-- The prevs of node `index`. -/
def Walk.prevsOf (walk : Walk) (index : Nat) : List EventId :=
  (walk.pdus[index]?.map (·.prevEvents)).getD []

/-- The reads still to come while the nodes of `rest` remain: their prevs, then the incoming
event's own, which the combination at the end reads. -/
def Walk.reads (walk : Walk) (rest : List Nat) : List EventId :=
  rest.flatMap walk.prevsOf ++ walk.topPrevs

theorem Walk.reads_cons (walk : Walk) (index : Nat) (rest : List Nat) :
    walk.reads (index :: rest) = walk.prevsOf index ++ walk.reads rest := by
  simp [Walk.reads]

theorem Walk.prevsOf_of_getElem? {walk : Walk} {index : Nat} {pdu : Pdu}
    (stored : walk.pdus[index]? = some pdu) : walk.prevsOf index = pdu.prevEvents := by
  simp [Walk.prevsOf, stored]

theorem Walk.edges_eq (walk : Walk) :
    walk.edges = walk.pdus.flatMap (·.prevEvents) ++ walk.topPrevs := by
  simp [Walk.edges, Walk.pdus, List.flatMap_map]

theorem Walk.mem_edges_of_prev {walk : Walk} {index : Nat} {pdu : Pdu}
    (stored : walk.pdus[index]? = some pdu) {prev : EventId} (member : prev ∈ pdu.prevEvents) :
    prev ∈ walk.edges := by
  rw [Walk.edges_eq]
  exact List.mem_append_left _ (List.mem_flatMap.mpr ⟨pdu, List.mem_of_getElem? stored, member⟩)

/-! ## One edge counted -/

section Count

variable (walk : Walk)

theorem countEdge_held {counted : List Nat × Table EventId Nat} {prev : EventId} {index : Nat}
    (held : walk.«class».get prev = some (.held index)) :
    walk.countEdge counted prev = (counted.1.modify index (· + 1), counted.2) := by
  simp [Walk.countEdge, held]

theorem countEdge_frontier {counted : List Nat × Table EventId Nat} {prev : EventId}
    {found : Class} (classified : walk.«class».get prev = some found)
    (frontier : ∀ index, found ≠ .held index) :
    walk.countEdge counted prev =
      (counted.1, counted.2.put prev ((counted.2.get prev).getD 0 + 1)) := by
  cases found with
  | held index => exact absurd rfl (frontier index)
  | committed => simp [Walk.countEdge, classified]
  | memoized => simp [Walk.countEdge, classified]

theorem countEdge_unclassified {counted : List Nat × Table EventId Nat} {prev : EventId}
    (unclassified : walk.«class».get prev = none) : walk.countEdge counted prev = counted := by
  simp [Walk.countEdge, unclassified]

theorem length_foldl_countEdge :
    ∀ (edges : List EventId) (counted : List Nat × Table EventId Nat),
      (edges.foldl walk.countEdge counted).1.length = counted.1.length
  | [], _ => rfl
  | prev :: edges, counted => by
      rw [List.foldl_cons, length_foldl_countEdge edges]
      rcases found : walk.«class».get prev with _ | _ | _ | index
      · rw [countEdge_unclassified walk found]
      · rw [countEdge_frontier walk found fun _ same => by cases same]
      · rw [countEdge_frontier walk found fun _ same => by cases same]
      · rw [countEdge_held walk found, List.length_modify]

/-- A node's counter grows by the edges whose prev is held at its index. -/
theorem getElem?_foldl_countEdge :
    ∀ (edges : List EventId) (counted : List Nat × Table EventId Nat) (index : Nat),
      (edges.foldl walk.countEdge counted).1[index]? =
        counted.1[index]?.map
          (· + edges.countP fun prev => walk.«class».get prev = some (.held index))
  | [], counted, index => by simp
  | prev :: edges, counted, index => by
      rw [List.foldl_cons, getElem?_foldl_countEdge edges, List.countP_cons]
      rcases found : walk.«class».get prev with _ | _ | _ | held
      · rw [countEdge_unclassified walk found]
        simp
      · rw [countEdge_frontier walk found fun _ same => by cases same]
        simp
      · rw [countEdge_frontier walk found fun _ same => by cases same]
        simp
      · rw [countEdge_held walk found, List.getElem?_modify]
        by_cases same : held = index
        · subst same
          cases counted.1[held]? <;> simp [Nat.add_assoc, Nat.add_comm 1]
        · simp [same]

/-- A frontier event's entry counts its edges, once it has any. -/
theorem get_foldl_countEdge {eventId : EventId} {found : Class}
    (classified : walk.«class».get eventId = some found) (frontier : ∀ index, found ≠ .held index) :
    ∀ (edges : List EventId) (counted : List Nat × Table EventId Nat),
      (edges.foldl walk.countEdge counted).2.get eventId =
        if eventId ∈ edges then some ((counted.2.get eventId).getD 0 + edges.count eventId)
        else counted.2.get eventId
  | [], counted => by simp
  | prev :: edges, counted => by
      rw [List.foldl_cons, get_foldl_countEdge classified frontier edges]
      by_cases same : prev = eventId
      · subst same
        rw [countEdge_frontier walk classified frontier]
        by_cases later : prev ∈ edges
        · simp [later, Nat.add_assoc, Nat.add_comm 1]
        · simp [later, List.count_eq_zero.mpr later]
      · -- another edge leaves this entry as it was
        have kept : (walk.countEdge counted prev).2.get eventId = counted.2.get eventId := by
          rcases found' : walk.«class».get prev with _ | _ | _ | index
          · rw [countEdge_unclassified walk found']
          · rw [countEdge_frontier walk found' (fun _ same => by cases same),
              Table.get_put_of_ne _ _ (Ne.symm same)]
          · rw [countEdge_frontier walk found' (fun _ same => by cases same),
              Table.get_put_of_ne _ _ (Ne.symm same)]
          · rw [countEdge_held walk found']
        have other : eventId ≠ prev := Ne.symm same
        simp [kept, same, other]

end Count

/-! ## The counters discovery leaves -/

section Counted

variable {services : LocalServices} {walk : Walk}

theorem countConsumers_pdus : walk.countConsumers.pdus = walk.pdus := by
  have length := length_foldl_countEdge walk walk.edges (List.replicate walk.nodes.length 0, walk.frontier)
  simp only [Walk.countConsumers, Walk.pdus, List.length_replicate] at length ⊢
  apply List.ext_getElem
  · simp [length]
  · intro index _ _
    simp

/-- A discovery that does not fall back ran to the end and counted the consumers. -/
theorem walkDiscover_of_fallback_none (proceeds : (walkDiscover services walk).fallback = none) :
    ∃ discovered, discover services (walk.topPrevs.reverse.map (·, false)) walk = .ok discovered ∧
      walkDiscover services walk = discovered.countConsumers := by
  unfold walkDiscover at proceeds ⊢
  rcases run : discover services (walk.topPrevs.reverse.map (·, false)) walk with
    stopped | discovered
  · simp only [run] at proceeds
    have stoppedFallback := discover_error_fallback run
    simp [proceeds] at stoppedFallback
  · simp only [run] at proceeds ⊢
    split_ifs at proceeds ⊢ with empty
    · simp [Walk.fail] at proceeds
    · exact ⟨discovered, rfl, rfl⟩

theorem edges_countConsumers : walk.countConsumers.edges = walk.edges := by
  rw [Walk.edges_eq, Walk.edges_eq, countConsumers_pdus]
  rfl

theorem countConsumers_length : walk.countConsumers.nodes.length = walk.nodes.length := by
  have pdus : walk.countConsumers.pdus = walk.pdus := countConsumers_pdus
  simpa [Walk.pdus] using congrArg List.length pdus

theorem Discovered.countConsumers (done : Discovered services walk) :
    Discovered services walk.countConsumers := by
  have pdus : walk.countConsumers.pdus = walk.pdus := countConsumers_pdus
  refine ⟨?classOk, ?named, ?nodeAncestors, done.tops, done.orderNodup, ?complete, ?emitted⟩
  case classOk =>
    intro eventId found classified
    rw [pdus]
    exact done.classOk eventId found classified
  case named =>
    intro index pdu stored
    rw [pdus] at stored
    exact done.named index pdu stored
  case nodeAncestors =>
    intro pdu member
    rw [pdus] at member
    exact done.nodeAncestors pdu member
  case complete =>
    intro index
    rw [countConsumers_length]
    exact done.complete index
  case emitted =>
    intro before index after split pdu stored
    rw [pdus] at stored
    exact done.emitted before index after split pdu stored

/-- An event is held at an index exactly when it is that node's event. -/
theorem Discovered.held_iff (done : Discovered services walk) {index : Nat} {pdu : Pdu}
    (stored : walk.pdus[index]? = some pdu) (eventId : EventId) :
    walk.«class».get eventId = some (.held index) ↔ eventId = pdu.eventId := by
  constructor
  · intro held
    obtain ⟨pdu', stored', named, -⟩ := done.classOk eventId _ held
    rw [stored] at stored'
    cases stored'
    exact named.symm
  · rintro rfl
    exact done.named index pdu stored

/-- Each node's counter is the number of edges naming its event. -/
theorem Discovered.consumers_countConsumers (done : Discovered services walk) {index : Nat}
    {node : Node} (stored : walk.countConsumers.nodes[index]? = some node) :
    node.consumers = walk.edges.count node.pdu.eventId := by
  have counted := getElem?_foldl_countEdge walk walk.edges
    (List.replicate walk.nodes.length 0, walk.frontier) index
  simp only [Walk.countConsumers, List.getElem?_zipWith] at stored
  rcases within : walk.nodes[index]? with _ | original
  · simp [within] at stored
  · have pdu : walk.pdus[index]? = some original.pdu := by simp [Walk.pdus, within]
    have bound : index < walk.nodes.length := (List.getElem?_eq_some_iff.mp within).1
    simp only [List.getElem?_replicate, bound, if_true, Option.map_some, zero_add] at counted
    rw [within, counted] at stored
    simp only [Option.some.injEq] at stored
    subst stored
    simp only [List.count_eq_countP]
    exact List.countP_congr fun eventId _ => by simpa using done.held_iff pdu eventId

/-- Each frontier event among the edges starts counted by its edges, the frontier being empty
before. -/
theorem frontier_countConsumers (empty : walk.frontier = Table.empty) {eventId : EventId}
    {found : Class} (classified : walk.«class».get eventId = some found)
    (frontier : ∀ index, found ≠ .held index) (member : eventId ∈ walk.edges) :
    walk.countConsumers.frontier.get eventId = some (walk.edges.count eventId) := by
  simp [Walk.countConsumers, get_foldl_countEdge walk classified frontier, member, empty]

/-- A list's `flatMap` as the `flatMap` of its indices. -/
theorem flatMap_eq_flatMap_range {α β : Type} (f : α → List β) :
    ∀ items : List α,
      items.flatMap f = (List.range items.length).flatMap fun index => (items[index]?.map f).getD []
  | [] => rfl
  | item :: items => by
      rw [List.length_cons, List.range_succ_eq_map, List.flatMap_cons, List.flatMap_cons,
        List.flatMap_map, flatMap_eq_flatMap_range f items]
      simp

/-- Every node emitted once, the reads of the whole order are the edges, reordered. -/
theorem Discovered.reads_order_perm (done : Discovered services walk) :
    (walk.reads walk.order).Perm walk.edges := by
  have order : walk.order.Perm (List.range walk.nodes.length) :=
    (List.perm_ext_iff_of_nodup done.orderNodup List.nodup_range).mpr fun index => by
      rw [List.mem_range]
      exact done.complete index
  have edges : walk.nodes.flatMap (·.pdu.prevEvents) =
      (List.range walk.nodes.length).flatMap walk.prevsOf := by
    rw [flatMap_eq_flatMap_range]
    congr 1
    funext index
    simp [Walk.prevsOf, Walk.pdus, Function.comp_def]
  rw [Walk.reads, Walk.edges, edges]
  exact (order.flatMap_right _).append_right _

end Counted

end EventHandler
end Tuwunel
