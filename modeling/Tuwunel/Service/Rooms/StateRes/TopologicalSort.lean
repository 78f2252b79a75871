import Mathlib
import Tuwunel.Library.AssocTable
import Tuwunel.Library.TopologicalOrder

/-!
# The reverse topological power ordering

`topological_sort` orders an event graph by Kahn's algorithm.  Among the events whose present
references have all been placed, a min-heap of `TieBreaker`s yields the one whose sender has the
greatest power level, then the earliest `origin_server_ts`, then the least id.  A reference to an
event absent from the graph is no edge.

The heap is a list popped at its least element under the order `TieBreaker::cmp` defines
(`TieBreaker.instLinearOrder` is that order: `cmp_eq_compare_rank`).  The `HashMap`s are
association lists.  The graph's keys are never removed; only its reference lists shrink.
`try_unfold` runs until the heap is empty.  `kahnSort` takes a number of rounds, and one more
than there are events always suffices (`kahnSort_greedy`).

Each round keeps `Invariant`: the reference lists hold exactly the references not yet placed,
and the heap holds each available event once.  A run of `kahnSort` is therefore a greedy run of
`TopologicalOrder`.
-/

namespace Tuwunel
namespace StateRes

open AssocTable TopologicalOrder

variable {α P : Type*}

/-- `TieBreaker`: an event with its sender's power level and its `origin_server_ts`. -/
structure TieBreaker (α P : Type*) where
  eventId : α
  powerLevel : P
  originServerTs : Nat

namespace TieBreaker

variable [LinearOrder α] [LinearOrder P]

/-- `TieBreaker::cmp`: the power levels are compared the other way round. -/
def cmp (self other : TieBreaker α P) : Ordering :=
  (compare other.powerLevel self.powerLevel).then
    ((compare self.originServerTs other.originServerTs).then (compare self.eventId other.eventId))

instance : Ord (TieBreaker α P) := ⟨cmp⟩

/-- What `cmp` compares, lexicographically: the power level reversed, the timestamp, the id. -/
def rank (self : TieBreaker α P) : Pᵒᵈ ×ₗ Nat ×ₗ α :=
  toLex (OrderDual.toDual self.powerLevel, toLex (self.originServerTs, self.eventId))

omit [LinearOrder α] [LinearOrder P] in
theorem rank_injective : Function.Injective (rank (α := α) (P := P)) := by
  rintro ⟨eventId, powerLevel, originServerTs⟩ ⟨eventId', powerLevel', originServerTs'⟩ same
  simp only [rank, toLex_inj, Prod.mk.injEq, OrderDual.toDual_inj] at same
  simp [same]

theorem cmp_eq_compare_rank (self other : TieBreaker α P) :
    self.cmp other = compare self.rank other.rank := rfl

/-- The order of the heap, the one `cmp` defines. -/
instance instLinearOrder : LinearOrder (TieBreaker α P) :=
  LinearOrder.liftWithOrd' rank rank_injective cmp_eq_compare_rank

end TieBreaker

/-- The `query` closure of `topological_sort`: an event's `TieBreaker`. -/
def tieBreaker (query : α → P × Nat) (eventId : α) : TieBreaker α P :=
  ⟨eventId, (query eventId).1, (query eventId).2⟩

/-- The graph `topological_sort` sorts: each event's referenced ids, the keys distinct as in a
`HashMap`. -/
structure Graph (α : Type*) where
  entries : List (α × List α)
  nodupKeys : (entries.map Prod.fst).Nodup

namespace Graph

variable [DecidableEq α]

def keys (graph : Graph α) : List α := graph.entries.map Prod.fst

/-- `graph.contains_key`. -/
def containsKey (graph : Graph α) (eventId : α) : Bool := graph.keys.contains eventId

/-- `graph.get(event_id)`, an absent event having no references. -/
def references (graph : Graph α) (eventId : α) : List α := get [] graph.entries eventId

/-- `graph.get_mut(&parent_id).expect(..).retain(is_not_equal_to!(&event_id))`. -/
def retain (graph : Graph α) (parentId eventId : α) : Graph α :=
  ⟨modify [] (fun ids => ids.filter (· != eventId)) graph.entries parentId,
    nodup_keys_modify _ _ graph.nodupKeys parentId⟩

/-- The references among the graph's events form no cycle. -/
def Acyclic (graph : Graph α) : Prop :=
  TopologicalOrder.Acyclic graph.keys graph.references

end Graph

section Build

variable [DecidableEq α]

/-- The pairs `(event_id, reference)` the `incoming` fold visits. -/
def edges (graph : Graph α) : List (α × α) :=
  graph.entries.flatMap fun entry => entry.2.map fun reference => (entry.1, reference)

/-- The body of the `incoming` fold: the referencing event is pushed unless it is there. -/
def addIncoming (incoming : List (α × List α)) (edge : α × α) : List (α × List α) :=
  modify [] (fun events => if events.contains edge.1 then events else events ++ [edge.1])
    incoming edge.2

/-- The `incoming` map: for each referenced id, the events referencing it, each once. -/
def incoming (graph : Graph α) : List (α × List α) :=
  (edges graph).foldl addIncoming []

/-- The initial heap: the events with no present reference. -/
def horizon (graph : Graph α) (query : α → P × Nat) : List (TieBreaker α P) :=
  (graph.entries.filter fun entry => !entry.2.any graph.containsKey).map
    fun entry => tieBreaker query entry.1

/-- The body of `kahn_sort`'s fold over the events referencing the popped `eventId`: the
reference is removed, and the parent is pushed once it has no present reference left. -/
def releaseParent (query : α → P × Nat) (eventId : α)
    (state : List (TieBreaker α P) × Graph α) (parentId : α) :
    List (TieBreaker α P) × Graph α :=
  let graph := state.2.retain parentId eventId
  if !(graph.references parentId).any graph.containsKey then
    (state.1 ++ [tieBreaker query parentId], graph)
  else (state.1, graph)

/-- The body of `is_topologically_sorted`'s fold: the event's present references were seen. -/
def checkSeen (graph : Graph α) (seen : List α) (eventId : α) : Option (List α) :=
  if ((graph.references eventId).filter graph.containsKey).all seen.contains then
    some (seen ++ [eventId])
  else none

/-- `is_topologically_sorted`: every event comes after its present references. -/
def isTopologicallySorted (order : List α) (graph : Graph α) : Bool :=
  (order.foldlM (checkSeen graph) []).isSome

end Build

section Kahn

variable [LinearOrder α] [LinearOrder P]

/-- `kahn_sort` over `fuel` rounds: pop the least `TieBreaker`, release the events referencing
it, yield it, and go on until the heap is empty; `none` once the rounds run out. -/
def kahnSort (query : α → P × Nat) (incoming : List (α × List α)) :
    Nat → List (TieBreaker α P) → Graph α → Option (List α)
  | 0, _, _ => none
  | fuel + 1, heap, graph =>
      match heap.min? with
      | none => some []
      | some item =>
          let state := (get [] incoming item.eventId).foldl (releaseParent query item.eventId)
            (heap.erase item, graph)
          (kahnSort query incoming fuel state.1 state.2).map (item.eventId :: ·)

/-- `topological_sort`, with a round for each event and one to find the heap empty. -/
def topologicalSort (graph : Graph α) (query : α → P × Nat) : Option (List α) :=
  kahnSort query (incoming graph) (graph.entries.length + 1) (horizon graph query) graph

end Kahn

/-! ## The graph -/

section Lemmas

variable [DecidableEq α]

namespace Graph

@[simp]
theorem containsKey_eq_true (graph : Graph α) (eventId : α) :
    graph.containsKey eventId = true ↔ eventId ∈ graph.keys := by
  simp [containsKey]

theorem references_of_mem {graph : Graph α} {entry : α × List α}
    (member : entry ∈ graph.entries) : graph.references entry.1 = entry.2 := by
  rw [references, AssocTable.get, (mem_iff_lookup graph.nodupKeys).mp member]
  rfl

theorem mem_keys_of_mem_references {graph : Graph α} {eventId reference : α}
    (member : reference ∈ graph.references eventId) : eventId ∈ graph.keys := by
  by_contra absent
  rw [references, get_of_not_mem absent] at member
  exact List.not_mem_nil member

theorem keys_retain {graph : Graph α} {parentId : α} (present : parentId ∈ graph.keys)
    (eventId : α) : (graph.retain parentId eventId).keys = graph.keys := by
  simp only [keys, retain, keys_modify]
  exact if_pos present

theorem containsKey_retain {graph : Graph α} {parentId : α} (present : parentId ∈ graph.keys)
    (eventId : α) : (graph.retain parentId eventId).containsKey = graph.containsKey := by
  funext reference
  simp [containsKey, keys_retain present]

theorem references_retain (graph : Graph α) (parentId eventId other : α) :
    (graph.retain parentId eventId).references other =
      if other = parentId then (graph.references other).filter (· != eventId)
      else graph.references other := by
  simp only [references, retain, get_modify]
  split
  · next same => rw [same]
  · rfl

/-- Removing a reference twice removes it once. -/
theorem filter_references_retain (graph : Graph α) (parentId eventId other : α) :
    ((graph.retain parentId eventId).references other).filter (· != eventId) =
      (graph.references other).filter (· != eventId) := by
  rw [references_retain]
  split <;> simp [List.filter_filter]

end Graph

theorem mem_edges {graph : Graph α} {eventId reference : α} :
    (eventId, reference) ∈ edges graph ↔
      eventId ∈ graph.keys ∧ reference ∈ graph.references eventId := by
  simp only [edges, List.mem_flatMap, List.mem_map, Prod.mk.injEq]
  constructor
  · rintro ⟨entry, member, _, found, rfl, rfl⟩
    exact ⟨List.mem_map_of_mem member, (Graph.references_of_mem member).symm ▸ found⟩
  · rintro ⟨present, found⟩
    obtain ⟨entry, member, rfl⟩ := List.mem_map.mp present
    exact ⟨entry, member, reference, (Graph.references_of_mem member) ▸ found, rfl, rfl⟩

/-! ## The `incoming` map -/

theorem get_addIncoming (table : List (α × List α)) (edge : α × α) (reference : α) :
    get [] (addIncoming table edge) reference =
      if reference = edge.2 then
        (if (get [] table edge.2).contains edge.1 then get [] table edge.2
          else get [] table edge.2 ++ [edge.1])
      else get [] table reference := by
  rw [addIncoming, get_modify]

theorem mem_get_foldl_addIncoming (edges : List (α × α)) (table : List (α × List α))
    (reference eventId : α) :
    eventId ∈ get [] (edges.foldl addIncoming table) reference ↔
      eventId ∈ get [] table reference ∨ (eventId, reference) ∈ edges := by
  induction edges generalizing table with
  | nil => simp
  | cons edge edges ih =>
      obtain ⟨source, target⟩ := edge
      rw [List.foldl_cons, ih, get_addIncoming, List.mem_cons, Prod.mk.injEq]
      dsimp only
      by_cases same : reference = target
      · -- the edge's target is the entry looked at: the source is pushed unless it is there
        subst same
        rw [if_pos rfl]
        split
        · next found =>
          have found : source ∈ get [] table reference := by simpa using found
          by_cases here : eventId = source
          · subst here
            simp [found]
          · simp [here]
        · by_cases here : eventId = source <;> simp [here]
      · simp [same]

theorem nodup_get_foldl_addIncoming (edges : List (α × α)) {table : List (α × List α)}
    (distinct : ∀ reference, (get [] table reference).Nodup) (reference : α) :
    (get [] (edges.foldl addIncoming table) reference).Nodup := by
  induction edges generalizing table with
  | nil => exact distinct reference
  | cons edge edges ih =>
      refine ih fun other => ?_
      rw [get_addIncoming]
      split
      · split
        · exact distinct _
        · next found =>
          have absent : edge.1 ∉ get [] table edge.2 := by simpa using found
          simpa [List.nodup_append] using
            ⟨distinct edge.2, fun other member same => absent (same ▸ member)⟩
      · exact distinct other

/-- The parents `kahn_sort` releases are the graph's events with the reference; so the
`expect("contains all parent_ids")` never fails. -/
theorem mem_incoming {graph : Graph α} {reference eventId : α} :
    eventId ∈ get [] (incoming graph) reference ↔
      eventId ∈ graph.keys ∧ reference ∈ graph.references eventId := by
  rw [incoming, mem_get_foldl_addIncoming, mem_edges]
  simp

theorem nodup_incoming (graph : Graph α) (reference : α) :
    (get [] (incoming graph) reference).Nodup :=
  nodup_get_foldl_addIncoming _ (fun _ => by simp) reference

/-! ## Releasing the parents of a popped event -/

section Release

variable {query : α → P × Nat} {eventId : α}

theorem releaseParent_eq {graph : Graph α} {parentId : α} (present : parentId ∈ graph.keys)
    (heap : List (TieBreaker α P)) :
    releaseParent query eventId (heap, graph) parentId =
      (if !((graph.references parentId).filter (· != eventId)).any graph.containsKey then
        heap ++ [tieBreaker query parentId] else heap, graph.retain parentId eventId) := by
  rw [releaseParent]
  dsimp only
  rw [Graph.containsKey_retain present, Graph.references_retain, if_pos rfl]
  split <;> rfl

variable {parents : List α}

theorem keys_foldl_releaseParent {graph : Graph α} (present : ∀ parentId ∈ parents,
      parentId ∈ graph.keys) (heap : List (TieBreaker α P)) :
    (parents.foldl (releaseParent query eventId) (heap, graph)).2.keys = graph.keys := by
  induction parents generalizing heap graph with
  | nil => rfl
  | cons parentId parents ih =>
      have here := present parentId (by simp)
      rw [List.foldl_cons, releaseParent_eq here, ih, Graph.keys_retain here]
      intro other member
      rw [Graph.keys_retain here]
      exact present other (by simp [member])

theorem references_foldl_releaseParent {graph : Graph α} (present : ∀ parentId ∈ parents,
      parentId ∈ graph.keys) (heap : List (TieBreaker α P)) (other : α) :
    (parents.foldl (releaseParent query eventId) (heap, graph)).2.references other =
      if other ∈ parents then (graph.references other).filter (· != eventId)
      else graph.references other := by
  induction parents generalizing heap graph with
  | nil => simp
  | cons parentId parents ih =>
      have here := present parentId (by simp)
      have later : ∀ next ∈ parents, next ∈ (graph.retain parentId eventId).keys := by
        intro later member
        rw [Graph.keys_retain here]
        exact present later (by simp [member])
      rw [List.foldl_cons, releaseParent_eq here, ih later]
      by_cases member : other ∈ parents
      · simp [member, Graph.filter_references_retain]
      · rw [Graph.references_retain]
        by_cases same : other = parentId <;> simp [member, same]

theorem heap_foldl_releaseParent {graph : Graph α} (present : ∀ parentId ∈ parents,
      parentId ∈ graph.keys) (heap : List (TieBreaker α P)) :
    (parents.foldl (releaseParent query eventId) (heap, graph)).1 =
      heap ++ (parents.filter fun parentId =>
        !((graph.references parentId).filter (· != eventId)).any graph.containsKey).map
          (tieBreaker query) := by
  induction parents generalizing heap graph with
  | nil => simp
  | cons parentId parents ih =>
      have here := present parentId (by simp)
      have later : ∀ next ∈ parents, next ∈ (graph.retain parentId eventId).keys := by
        intro later member
        rw [Graph.keys_retain here]
        exact present later (by simp [member])
      rw [List.foldl_cons, releaseParent_eq here, ih later]
      -- the parents still to come see the same references, and the same keys
      simp only [Graph.filter_references_retain, Graph.containsKey_retain here]
      split <;> simp_all

end Release

/-! ## The parents a placed event releases -/

/-- The parents whose last reference not yet placed is `eventId`: those a round placing `eventId`
pushes, after `placed`. -/
def releasedParents (graph : Graph α) (placed : List α) (eventId : α) : List α :=
  (get [] (incoming graph) eventId).filter fun parentId =>
    !(((graph.references parentId).filter (· ∉ placed)).filter (· != eventId)).any
      graph.containsKey

theorem Graph.containsKey_congr {graph graph' : Graph α} (same : graph.keys = graph'.keys) :
    graph.containsKey = graph'.containsKey := by
  funext eventId
  simp [Graph.containsKey, same]

/-- The release check: no present reference is left once `eventId` is placed after `placed`. -/
theorem released_iff {graph : Graph α} {placed : List α} {eventId parentId : α} :
    (!(((graph.references parentId).filter (· ∉ placed)).filter (· != eventId)).any
        graph.containsKey) = true ↔
      Ready graph.keys graph.references (placed ++ [eventId]) parentId := by
  simp only [Bool.not_eq_true', List.any_eq_false, List.mem_filter, Graph.containsKey_eq_true,
    decide_eq_true_eq, bne_iff_ne, ne_eq, Ready, List.mem_append, List.mem_singleton]
  constructor
  · intro none dep member present
    by_contra missing
    rw [not_or] at missing
    exact none dep ⟨⟨member, missing.1⟩, missing.2⟩ present
  · rintro ready dep ⟨⟨member, fresh⟩, other⟩ present
    exact (ready dep member present).elim fresh other

theorem mem_releasedParents {graph : Graph α} {placed : List α} {eventId parentId : α} :
    parentId ∈ releasedParents graph placed eventId ↔
      (parentId ∈ graph.keys ∧ eventId ∈ graph.references parentId) ∧
        Ready graph.keys graph.references (placed ++ [eventId]) parentId := by
  rw [releasedParents, List.mem_filter, mem_incoming, released_iff]

theorem nodup_releasedParents (graph : Graph α) (placed : List α) (eventId : α) :
    (releasedParents graph placed eventId).Nodup :=
  (nodup_incoming graph eventId).filter _

/-! ## The order check -/

theorem all_contains_iff {graph : Graph α} {seen : List α} {eventId : α} :
    ((graph.references eventId).filter graph.containsKey).all seen.contains = true ↔
      Ready graph.keys graph.references seen eventId := by
  simp [Ready, or_iff_not_imp_left]

theorem isSome_foldlM_checkSeen (graph : Graph α) :
    ∀ order seen : List α, (order.foldlM (checkSeen graph) seen).isSome = true ↔
      SortedFrom graph.keys graph.references seen order
  | [], _ => by simp [SortedFrom]
  | eventId :: order, seen => by
      rw [List.foldlM_cons, SortedFrom]
      by_cases ready : Ready graph.keys graph.references seen eventId
      · have check : checkSeen graph seen eventId = some (seen ++ [eventId]) := by
          rw [checkSeen, if_pos (all_contains_iff.mpr ready)]
        simp [check, ready, isSome_foldlM_checkSeen graph order]
      · have check : checkSeen graph seen eventId = none := by
          rw [checkSeen, if_neg (mt all_contains_iff.mp ready)]
        simp [check, ready]

/-- `is_topologically_sorted` holds exactly of the orders that keep present references first. -/
theorem isTopologicallySorted_iff {graph : Graph α} {order : List α} :
    isTopologicallySorted order graph = true ↔ SortedFrom graph.keys graph.references [] order :=
  isSome_foldlM_checkSeen graph order []

end Lemmas

/-! ## The rounds of `kahn_sort` -/

section Round

variable [LinearOrder α] [LinearOrder P] {graph : Graph α} {query : α → P × Nat}

/-- What holds between the rounds of `kahn_sort` on `graph` once `placed` has been yielded: the
reference lists hold the references not yet placed, and the heap holds each available event
once. -/
structure Invariant (graph : Graph α) (query : α → P × Nat) (placed : List α)
    (heap : List (TieBreaker α P)) (current : Graph α) : Prop where
  keys : current.keys = graph.keys
  references : ∀ eventId,
    current.references eventId = (graph.references eventId).filter (· ∉ placed)
  queried : ∀ item ∈ heap, item = tieBreaker query item.eventId
  nodup : (heap.map TieBreaker.eventId).Nodup
  available : ∀ eventId, eventId ∈ heap.map TieBreaker.eventId ↔
    Available graph.keys graph.references placed eventId
  closed : ∀ eventId ∈ placed, Ready graph.keys graph.references placed eventId

omit [LinearOrder P] in
theorem invariant_horizon (graph : Graph α) (query : α → P × Nat) :
    Invariant graph query [] (horizon graph query) graph where
  keys := rfl
  references eventId := by simp
  queried item member := by
    obtain ⟨entry, -, rfl⟩ := List.mem_map.mp member
    rfl
  nodup := by
    rw [horizon, List.map_map]
    exact (List.filter_sublist.map Prod.fst).nodup graph.nodupKeys
  available eventId := by
    simp only [horizon, List.map_map, Function.comp_def, tieBreaker]
    constructor
    · intro member
      obtain ⟨entry, kept, rfl⟩ := List.mem_map.mp member
      obtain ⟨member, none⟩ := List.mem_filter.mp kept
      refine ⟨List.mem_map_of_mem member, List.not_mem_nil, fun dep found present => ?_⟩
      rw [Graph.references_of_mem member] at found
      simp only [Bool.not_eq_true', List.any_eq_false, Graph.containsKey_eq_true] at none
      exact absurd present (none dep found)
    · rintro ⟨present, -, ready⟩
      obtain ⟨entry, member, rfl⟩ := List.mem_map.mp present
      refine List.mem_map.mpr ⟨entry, List.mem_filter.mpr ⟨member, ?_⟩, rfl⟩
      simp only [Bool.not_eq_true', List.any_eq_false, Graph.containsKey_eq_true]
      intro dep found present
      exact List.not_mem_nil (ready dep ((Graph.references_of_mem member).symm ▸ found) present)
  closed := by simp

variable {placed : List α} {heap : List (TieBreaker α P)} {current : Graph α}
  {item : TieBreaker α P}

/-- The popped item is the least `TieBreaker` of an available event. -/
theorem Invariant.popped (invariant : Invariant graph query placed heap current)
    (popped : heap.min? = some item) :
    item = tieBreaker query item.eventId ∧
      Available graph.keys graph.references placed item.eventId ∧
      ∀ other, Available graph.keys graph.references placed other →
        item ≤ tieBreaker query other := by
  obtain ⟨member, least⟩ := List.min?_eq_some_iff.mp popped
  refine ⟨invariant.queried item member,
    (invariant.available _).mp (List.mem_map_of_mem member), fun other available => ?_⟩
  obtain ⟨found, inHeap, rfl⟩ := List.mem_map.mp ((invariant.available other).mpr available)
  rw [← invariant.queried found inHeap]
  exact least found inHeap

/-- On a heap of queried items, removing an item removes its event. -/
theorem map_eventId_erase (queried : ∀ item ∈ heap, item = tieBreaker query item.eventId)
    (queriedItem : item = tieBreaker query item.eventId) :
    (heap.erase item).map TieBreaker.eventId =
      (heap.map TieBreaker.eventId).erase item.eventId := by
  induction heap with
  | nil => rfl
  | cons head heap ih =>
      have rest := ih fun other member => queried other (List.mem_cons_of_mem _ member)
      by_cases same : head = item
      · subst same
        simp
      · have other : head.eventId ≠ item.eventId := fun equal => same <|
          calc head = tieBreaker query head.eventId := queried head List.mem_cons_self
            _ = tieBreaker query item.eventId := by rw [equal]
            _ = item := queriedItem.symm
        rw [List.erase_cons_tail (by simpa using same), List.map_cons, List.map_cons,
          List.erase_cons_tail (by simpa using other), rest]

/-- One round keeps the invariant, with the popped event placed. -/
theorem Invariant.release (invariant : Invariant graph query placed heap current)
    (popped : heap.min? = some item) :
    Invariant graph query (placed ++ [item.eventId])
      ((get [] (incoming graph) item.eventId).foldl (releaseParent query item.eventId)
        (heap.erase item, current)).1
      ((get [] (incoming graph) item.eventId).foldl (releaseParent query item.eventId)
        (heap.erase item, current)).2 := by
  obtain ⟨queriedItem, available, -⟩ := invariant.popped popped
  have present : ∀ parentId ∈ get [] (incoming graph) item.eventId, parentId ∈ current.keys :=
    fun parentId member => invariant.keys ▸ (mem_incoming.mp member).1
  have pushed : ((get [] (incoming graph) item.eventId).foldl (releaseParent query item.eventId)
      (heap.erase item, current)).1 =
      heap.erase item ++ (releasedParents graph placed item.eventId).map (tieBreaker query) := by
    rw [heap_foldl_releaseParent present, releasedParents, Graph.containsKey_congr invariant.keys]
    simp only [invariant.references]
  have ids : (heap.erase item ++ (releasedParents graph placed item.eventId).map
      (tieBreaker query)).map TieBreaker.eventId =
      (heap.map TieBreaker.eventId).erase item.eventId ++
        releasedParents graph placed item.eventId := by
    rw [List.map_append, map_eventId_erase invariant.queried queriedItem, List.map_map]
    simp [Function.comp_def, tieBreaker]
  constructor
  · rw [keys_foldl_releaseParent present, invariant.keys]
  · -- the released parents lose the popped event; no other event refers to it
    intro other
    rw [references_foldl_releaseParent present, invariant.references]
    split
    · rw [List.filter_filter]
      refine List.filter_congr fun dep _ => ?_
      by_cases same : dep = item.eventId <;> simp [same]
    · next unrelated =>
      refine List.filter_congr fun dep found => ?_
      have : dep ≠ item.eventId := fun same => unrelated
        (mem_incoming.mpr ⟨Graph.mem_keys_of_mem_references found, same ▸ found⟩)
      simp [this]
  · rw [pushed]
    intro pushedItem member
    rcases List.mem_append.mp member with kept | released
    · exact invariant.queried _ (List.mem_of_mem_erase kept)
    · obtain ⟨parentId, -, rfl⟩ := List.mem_map.mp released
      rfl
  · -- a released parent refers to the popped event, so it was not available before
    rw [pushed, ids, List.nodup_append]
    refine ⟨invariant.nodup.erase _, nodup_releasedParents _ _ _, ?_⟩
    rintro eventId erased _ released rfl
    have ready := ((invariant.available eventId).mp (List.mem_of_mem_erase erased)).2.2
    obtain ⟨⟨-, reference⟩, -⟩ := mem_releasedParents.mp released
    exact available.2.1 (ready _ reference available.1)
  · intro eventId
    rw [pushed, ids, List.mem_append, invariant.nodup.mem_erase_iff, invariant.available,
      mem_releasedParents]
    constructor
    · rintro (⟨other, present, fresh, ready⟩ | ⟨⟨present, reference⟩, ready⟩)
      · exact ⟨present, by simp [fresh, other], ready.append _⟩
      · -- a placed event, or the popped one, would have had the popped event placed before it
        refine ⟨present, ?_, ready⟩
        simp only [List.mem_append, List.mem_singleton, not_or]
        refine ⟨fun before => available.2.1 (invariant.closed eventId before _ reference
          available.1), ?_⟩
        rintro rfl
        exact available.2.1 (available.2.2 _ reference available.1)
    · rintro ⟨present, fresh, ready⟩
      simp only [List.mem_append, List.mem_singleton, not_or] at fresh
      by_cases reference : item.eventId ∈ graph.references eventId
      · exact Or.inr ⟨⟨present, reference⟩, ready⟩
      · refine Or.inl ⟨fresh.2, present, fresh.1, fun dep found depPresent => ?_⟩
        rcases List.mem_append.mp (ready dep found depPresent) with before | last
        · exact before
        · exact absurd (List.mem_singleton.mp last ▸ found) reference
  · intro eventId placedNow
    rcases List.mem_append.mp placedNow with before | last
    · exact (invariant.closed eventId before).append _
    · exact (List.mem_singleton.mp last ▸ available.2.2).append _

omit [LinearOrder P] in
/-- Placing an event not placed before leaves fewer events to place. -/
theorem length_filter_not_mem_lt {keys : List α} {eventId : α} (present : eventId ∈ keys)
    (fresh : eventId ∉ placed) :
    (keys.filter (· ∉ placed ++ [eventId])).length < (keys.filter (· ∉ placed)).length := by
  have split : keys.filter (· ∉ placed ++ [eventId]) =
      (keys.filter (· ∉ placed)).filter (· != eventId) := by
    rw [List.filter_filter]
    refine List.filter_congr fun dep _ => ?_
    by_cases same : dep = eventId <;> simp [same]
  rw [split, List.length_filter_lt_length_iff_exists]
  exact ⟨eventId, List.mem_filter.mpr ⟨present, by simpa using fresh⟩, by simp⟩

/-- A run with more rounds than events left to place ends with the heap empty, and what it
yields is the greedy run from `placed`. -/
theorem kahnSort_greedy : ∀ (fuel : Nat) {placed : List α} {heap : List (TieBreaker α P)}
    {current : Graph α}, Invariant graph query placed heap current →
    (graph.keys.filter (· ∉ placed)).length < fuel →
    ∃ order, kahnSort query (incoming graph) fuel heap current = some order ∧
      GreedyFrom graph.keys graph.references (tieBreaker query) placed order
  | 0, _, _, _, _, enough => absurd enough (Nat.not_lt_zero _)
  | fuel + 1, placed, heap, current, invariant, enough => by
      cases popped : heap.min? with
      | none =>
          -- the heap is empty, and so nothing is available
          refine ⟨[], by rw [kahnSort, popped], fun eventId available => ?_⟩
          have member := (invariant.available eventId).mpr available
          simp [List.min?_eq_none_iff.mp popped] at member
      | some item =>
          obtain ⟨queriedItem, available, least⟩ := invariant.popped popped
          have shorter := length_filter_not_mem_lt available.1 available.2.1
          obtain ⟨order, run, greedy⟩ :=
            kahnSort_greedy fuel (invariant.release popped) (by omega)
          refine ⟨item.eventId :: order, ?_, available, fun other ready => ?_, greedy⟩
          · rw [kahnSort, popped]
            simp only [run, Option.map_some]
          · rw [← queriedItem]
            exact least other ready

theorem topologicalSort_greedy (graph : Graph α) (query : α → P × Nat) :
    ∃ order, topologicalSort graph query = some order ∧
      GreedyFrom graph.keys graph.references (tieBreaker query) [] order :=
  kahnSort_greedy _ (invariant_horizon graph query) (by simp [Graph.keys])

/-- `topological_sort` returns every event at most once, each after its present references;
without cycles it returns every event, in the lexicographically least such order under
`TieBreaker`. -/
theorem topological_sort_lexicographically_least (graph : Graph α) (query : α → P × Nat) :
    ∃ order, topologicalSort graph query = some order ∧ order.Nodup ∧
      (∀ eventId ∈ order, eventId ∈ graph.keys) ∧
      isTopologicallySorted order graph = true ∧
      (graph.Acyclic →
        (∀ eventId, eventId ∈ order ↔ eventId ∈ graph.keys) ∧
        ∀ other : List α, other.Nodup →
          (∀ eventId, eventId ∈ other ↔ eventId ∈ graph.keys) →
          isTopologicallySorted other graph = true →
          order.map (tieBreaker query) ≤ other.map (tieBreaker query)) := by
  obtain ⟨order, sorted, greedy⟩ := topologicalSort_greedy graph query
  refine ⟨order, sorted, greedy.nodup, greedy.mem_keys,
    isTopologicallySorted_iff.mpr greedy.sortedFrom, fun acyclic => ⟨fun eventId => ?_, ?_⟩⟩
  · refine ⟨greedy.mem_keys eventId, fun present => ?_⟩
    simpa using greedy.complete acyclic eventId present
  · intro other distinct exact topological
    -- distinct events have distinct tie-breakers
    have injective : ∀ eventId ∈ graph.keys, ∀ other ∈ graph.keys,
        tieBreaker query eventId = tieBreaker query other → eventId = other :=
      fun _ _ _ _ same => congrArg TieBreaker.eventId same
    exact greedy.map_le injective (isTopologicallySorted_iff.mp topological) distinct
      (by simpa using exact)

/-- The graph of the source's `reverse_topological_power_sort` test, `l m n o p` as `12 .. 16`. -/
def reverseTopologicalPowerGraph : Graph Nat :=
  ⟨[(12, [15]), (13, [14, 15]), (14, [15]), (15, []), (16, [15])], by decide⟩

example : topologicalSort reverseTopologicalPowerGraph (fun _ => ((0 : Int), 0)) =
    some [15, 12, 14, 13, 16] := by
  decide

/-- The graph of `topological_sort_dangling_references`: `1` refers to the absent `24`. -/
def danglingReferenceGraph : Graph Nat :=
  ⟨[(1, [24]), (2, [1]), (3, [])], by decide⟩

example : topologicalSort danglingReferenceGraph (fun _ => ((0 : Int), 0)) = some [1, 2, 3] := by
  decide

end Round

end StateRes
end Tuwunel
