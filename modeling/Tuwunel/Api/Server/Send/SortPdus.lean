import Tuwunel.Core.Identifiers
import Tuwunel.Library.KeyValue
import Tuwunel.Service.Rooms.StateRes.TopologicalSort

/-!
# Ordering a transaction's PDUs

`sort_pdus` puts a room's transaction PDUs in causal order before they are handled: a batch that
`is_topologically_sorted_in_place` already finds in order is returned as it is; otherwise each
PDU's `prev_events` that are events of the batch become the references of a graph, which
`topological_sort` orders with constant tie-break inputs, and the PDUs are stably sorted by their
event's position in that order, events missing from it first.

The result is always a permutation of the batch.  When PDUs with one event id list the same
`prev_events` (`Consistent`) and the in-batch `prev_events` relation has no cycle
(`BatchAcyclic`), it is sorted in place: the graph is then the batch's relation, its order places
every event after its references (`SortedFrom.idxOf_lt`), and the sort by position carries that
over to the PDUs (`sortedInPlaceFrom_of_before`).

A PDU's JSON value enters by `prev_event_ids`: the string entries of its `prev_events` array,
in order.
-/

namespace Tuwunel
namespace Federation

open KeyValue AssocTable TopologicalOrder StateRes

/-- A transaction PDU `(ri, (room_id, event_id, value))`, its value by what `prev_event_ids`
yields of it. -/
structure TxnPdu (α : Type*) where
  ri : Nat
  roomId : RoomId
  eventId : α
  prevEvents : List α

section InPlace

variable {β α : Type*} [DecidableEq α] (id : β → α) (references : β → List α)

/-- The check of `is_topologically_sorted_in_place` from an item on: no reference of the item is
the id of the item or of one after it. -/
def sortedInPlaceFrom : List β → Bool
  | [] => true
  | item :: rest =>
      (references item).all
          (fun reference => (item :: rest).all fun other => id other != reference) &&
        sortedInPlaceFrom rest

/-- `is_topologically_sorted_in_place`. -/
def isTopologicallySortedInPlace (items : List β) : Bool :=
  if items.length < 2 then true else sortedInPlaceFrom id references items

/-- Items ordered by a key under which every item comes after the items its references name
pass the check. -/
theorem sortedInPlaceFrom_of_before {γ : Type*} [Preorder γ] (key : β → γ) :
    ∀ {items : List β}, items.Pairwise (fun item other => key item ≤ key other) →
      (∀ item ∈ items, ∀ reference ∈ references item, ∀ other ∈ items,
        id other = reference → key other < key item) →
      sortedInPlaceFrom id references items = true
  | [], _, _ => rfl
  | item :: rest, ascending, before => by
      rw [List.pairwise_cons] at ascending
      simp only [sortedInPlaceFrom, Bool.and_eq_true, List.all_eq_true, bne_iff_ne, ne_eq]
      refine ⟨fun reference listed other later same => ?_,
        sortedInPlaceFrom_of_before key ascending.2
          fun other member reference listed other' later =>
            before other (List.mem_cons_of_mem _ member) reference listed other'
              (List.mem_cons_of_mem _ later)⟩
      have earlier := before item List.mem_cons_self reference listed other later same
      rcases List.mem_cons.mp later with rfl | later
      · exact lt_irrefl _ earlier
      · exact lt_irrefl _ (earlier.trans_le (ascending.1 other later))

end InPlace

section Batch

variable {α : Type*} [DecidableEq α]

/-- The in-batch `prev_events` relation: a PDU of the batch with id `eventId` lists `prevId`,
itself an event of the batch. -/
def ListsPrev (pdus : List (TxnPdu α)) (eventId prevId : α) : Prop :=
  ∃ pdu ∈ pdus, pdu.eventId = eventId ∧ prevId ∈ pdu.prevEvents ∧
    prevId ∈ pdus.map TxnPdu.eventId

/-- The in-batch `prev_events` relation has no cycle. -/
def BatchAcyclic (pdus : List (TxnPdu α)) : Prop :=
  ∀ eventId, ¬Relation.TransGen (ListsPrev pdus) eventId eventId

/-- PDUs sharing an event id list the same `prev_events`. -/
def Consistent (pdus : List (TxnPdu α)) : Prop :=
  ∀ pdu ∈ pdus, ∀ other ∈ pdus, pdu.eventId = other.eventId →
    pdu.prevEvents = other.prevEvents

instance (pdus : List (TxnPdu α)) : Decidable (Consistent pdus) :=
  inferInstanceAs (Decidable (∀ pdu ∈ pdus, ∀ other ∈ pdus, _))

/-- `already_sorted`. -/
def alreadySorted (pdus : List (TxnPdu α)) : Bool :=
  isTopologicallySortedInPlace TxnPdu.eventId TxnPdu.prevEvents pdus

/-- The `event_ids` map: each PDU's event id under itself. -/
def eventIds (pdus : List (TxnPdu α)) : List (α × α) :=
  pdus.map fun pdu => (pdu.eventId, pdu.eventId)

/-- The references a PDU gives the graph: its `prev_events` found in `event_ids`. -/
def batchReferences (eventIds : List (α × α)) (pdu : TxnPdu α) : List α :=
  pdu.prevEvents.filterMap fun prev => eventIds.lookup prev

/-- The body of the `collect` into the graph: a PDU's references replace those an earlier PDU
with its event id gave. -/
def insertReferences (eventIds : List (α × α)) (entries : List (α × List α))
    (pdu : TxnPdu α) : List (α × List α) :=
  modify [] (fun _ => batchReferences eventIds pdu) entries pdu.eventId

theorem nodup_keys_foldl_insertReferences (eventIds : List (α × α)) :
    ∀ (pdus : List (TxnPdu α)) {entries : List (α × List α)}, (entries.map Prod.fst).Nodup →
      ((pdus.foldl (insertReferences eventIds) entries).map Prod.fst).Nodup
  | [], _, distinct => distinct
  | pdu :: pdus, _, distinct =>
      nodup_keys_foldl_insertReferences eventIds pdus (nodup_keys_modify _ _ distinct pdu.eventId)

/-- The `graph` `sort_pdus` hands to `topological_sort`. -/
def batchGraph (pdus : List (TxnPdu α)) : Graph α :=
  ⟨pdus.foldl (insertReferences (eventIds pdus)) [],
    nodup_keys_foldl_insertReferences _ pdus List.nodup_nil⟩

/-- The `position` map: each event of the order at its index. -/
def position (order : List α) : Table α Nat :=
  order.zipIdx.foldl (fun table entry => table.put entry.1 entry.2) Table.empty

/-- The key `sort_by_key` sorts by, `None` below every position. -/
def positionKey (position : Table α Nat) (pdu : TxnPdu α) : WithBot Nat :=
  position.get pdu.eventId

/-- `sort_by_key` places `pdu` before `other` when its key is not above `other`'s. -/
def positionLe (position : Table α Nat) (pdu other : TxnPdu α) : Prop :=
  positionKey position pdu ≤ positionKey position other

instance (position : Table α Nat) : DecidableRel (positionLe position) :=
  fun pdu other =>
    inferInstanceAs (Decidable (positionKey position pdu ≤ positionKey position other))

instance (position : Table α Nat) : Std.Total (positionLe position) :=
  ⟨fun pdu other => le_total (positionKey position pdu) (positionKey position other)⟩

instance (position : Table α Nat) : IsTrans (TxnPdu α) (positionLe position) :=
  ⟨fun _ _ _ first second => le_trans first second⟩

end Batch

/-- `sort_pdus`. -/
def sortPdus {α : Type*} [LinearOrder α] (pdus : List (TxnPdu α)) : List (TxnPdu α) :=
  if alreadySorted pdus then pdus
  else
    -- causal order alone matters, so the tie-break inputs are constant
    match topologicalSort (batchGraph pdus) (fun _ => ((0 : Int), 0)) with
    | none => pdus
    | some order => pdus.insertionSort (positionLe (position order))

/-! ## The graph of a batch -/

section Graph

variable {α : Type*} [DecidableEq α] {pdus : List (TxnPdu α)}

theorem lookup_eventIds (pdus : List (TxnPdu α)) (prev : α) :
    (eventIds pdus).lookup prev = if prev ∈ pdus.map TxnPdu.eventId then some prev else none := by
  induction pdus with
  | nil => rfl
  | cons pdu pdus ih =>
      by_cases here : prev = pdu.eventId
      · subst here
        simp [eventIds]
      · rw [eventIds, List.map_cons, List.lookup_cons, beq_false_of_ne here]
        simpa [here, eventIds] using ih

theorem mem_batchReferences {pdu : TxnPdu α} {reference : α} :
    reference ∈ batchReferences (eventIds pdus) pdu ↔
      reference ∈ pdu.prevEvents ∧ reference ∈ pdus.map TxnPdu.eventId := by
  simp only [batchReferences, List.mem_filterMap, lookup_eventIds]
  constructor
  · rintro ⟨prev, listed, found⟩
    by_cases present : prev ∈ pdus.map TxnPdu.eventId
    · rw [if_pos present, Option.some.injEq] at found
      exact found ▸ ⟨listed, present⟩
    · rw [if_neg present] at found
      cases found
  · rintro ⟨listed, present⟩
    exact ⟨reference, listed, by rw [if_pos present]⟩

/-- Folding PDUs into the graph: an event id of theirs holds the references they agree on. -/
theorem get_foldl_insertReferences (eventIds : List (α × α)) {eventId : α}
    {references : List α} : ∀ (pdus : List (TxnPdu α)) (entries : List (α × List α)),
      (∀ pdu ∈ pdus, pdu.eventId = eventId → batchReferences eventIds pdu = references) →
      get [] (pdus.foldl (insertReferences eventIds) entries) eventId =
        if eventId ∈ pdus.map TxnPdu.eventId then references else get [] entries eventId
  | [], entries, _ => by simp
  | pdu :: pdus, entries, agree => by
      rw [List.foldl_cons, get_foldl_insertReferences eventIds pdus _
        fun other member => agree other (List.mem_cons_of_mem _ member), insertReferences,
        get_modify]
      by_cases later : eventId ∈ pdus.map TxnPdu.eventId
      · simp [later]
      · by_cases here : eventId = pdu.eventId
        · simp [here, agree pdu List.mem_cons_self here.symm]
        · simp [later, here]

theorem mem_keys_foldl_insertReferences (eventIds : List (α × α)) :
    ∀ (pdus : List (TxnPdu α)) (entries : List (α × List α)) (eventId : α),
      eventId ∈ (pdus.foldl (insertReferences eventIds) entries).map Prod.fst ↔
        eventId ∈ pdus.map TxnPdu.eventId ∨ eventId ∈ entries.map Prod.fst
  | [], entries, eventId => by simp
  | pdu :: pdus, entries, eventId => by
      rw [List.foldl_cons, mem_keys_foldl_insertReferences, insertReferences, mem_keys_modify]
      simp only [List.map_cons, List.mem_cons]
      tauto

theorem mem_keys_batchGraph {eventId : α} :
    eventId ∈ (batchGraph pdus).keys ↔ eventId ∈ pdus.map TxnPdu.eventId := by
  simp [batchGraph, Graph.keys, mem_keys_foldl_insertReferences]

theorem references_batchGraph (consistent : Consistent pdus) {pdu : TxnPdu α}
    (member : pdu ∈ pdus) :
    (batchGraph pdus).references pdu.eventId = batchReferences (eventIds pdus) pdu := by
  have agree : ∀ other ∈ pdus, other.eventId = pdu.eventId →
      batchReferences (eventIds pdus) other = batchReferences (eventIds pdus) pdu :=
    fun other otherMember sameId => by
      rw [batchReferences, batchReferences, consistent other otherMember pdu member sameId]
  rw [Graph.references, batchGraph, get_foldl_insertReferences _ pdus [] agree,
    if_pos (List.mem_map_of_mem member)]

/-- Over a consistent batch, the graph's dependencies are the in-batch `prev_events`
relation. -/
theorem listsPrev_of_dependsOn (consistent : Consistent pdus) {eventId prevId : α}
    (depends : DependsOn (batchGraph pdus).keys (batchGraph pdus).references eventId prevId) :
    ListsPrev pdus eventId prevId := by
  obtain ⟨present, -, listed⟩ := depends
  obtain ⟨pdu, member, rfl⟩ := List.mem_map.mp (mem_keys_batchGraph.mp present)
  rw [references_batchGraph consistent member, mem_batchReferences] at listed
  exact ⟨pdu, member, rfl, listed⟩

theorem acyclic_batchGraph (consistent : Consistent pdus) (acyclic : BatchAcyclic pdus) :
    (batchGraph pdus).Acyclic :=
  fun eventId cycle =>
    acyclic eventId
      (Relation.TransGen.mono (fun _ _ depends => listsPrev_of_dependsOn consistent depends) _ _
        cycle)

theorem get_position {order : List α} (distinct : order.Nodup) (eventId : α) :
    (position order).get eventId =
      if eventId ∈ order then some (order.idxOf eventId) else none := by
  rw [position, Table.get_foldl_put_zipIdx distinct]
  simp

end Graph

/-! ## What `sort_pdus` returns -/

section Sorting

variable {α : Type*} [LinearOrder α] {pdus : List (TxnPdu α)}

theorem sortPdus_perm (pdus : List (TxnPdu α)) : (sortPdus pdus).Perm pdus := by
  unfold sortPdus
  split
  · exact .refl pdus
  · split
    · exact .refl pdus
    · exact List.perm_insertionSort _ pdus

theorem sortPdus_of_alreadySorted (sorted : alreadySorted pdus = true) : sortPdus pdus = pdus := by
  simp [sortPdus, sorted]

/-- Sorted by their position in a complete topological order of the graph, the PDUs of a
consistent batch come after the PDUs their `prev_events` name. -/
theorem positionKey_lt {order : List α} (consistent : Consistent pdus)
    (sorted : SortedFrom (batchGraph pdus).keys (batchGraph pdus).references [] order)
    (distinct : order.Nodup)
    (complete : ∀ eventId, eventId ∈ order ↔ eventId ∈ pdus.map TxnPdu.eventId)
    {pdu other : TxnPdu α} (member : pdu ∈ pdus) (otherMember : other ∈ pdus)
    (listed : other.eventId ∈ pdu.prevEvents) :
    positionKey (position order) other < positionKey (position order) pdu := by
  have present : other.eventId ∈ pdus.map TxnPdu.eventId := List.mem_map_of_mem otherMember
  have placed : pdu.eventId ∈ order := (complete _).mpr (List.mem_map_of_mem member)
  have needed : other.eventId ∈ (batchGraph pdus).references pdu.eventId := by
    rw [references_batchGraph consistent member, mem_batchReferences]
    exact ⟨listed, present⟩
  have earlier := sorted.idxOf_lt distinct placed needed (mem_keys_batchGraph.mpr present)
  simp only [positionKey, get_position distinct, if_pos ((complete _).mpr present), if_pos placed]
  exact WithBot.coe_lt_coe.mpr earlier

theorem alreadySorted_sortPdus (consistent : Consistent pdus) (acyclic : BatchAcyclic pdus) :
    alreadySorted (sortPdus pdus) = true := by
  unfold sortPdus
  split
  · assumption
  · obtain ⟨order, ordered, greedy⟩ :=
      topologicalSort_greedy (batchGraph pdus) (fun _ => ((0 : Int), 0))
    rw [ordered]
    dsimp only
    -- without cycles the order holds every event of the batch
    have complete : ∀ eventId, eventId ∈ order ↔ eventId ∈ pdus.map TxnPdu.eventId :=
      fun eventId => ⟨fun placed => mem_keys_batchGraph.mp (greedy.mem_keys eventId placed),
        fun present => by
          simpa using greedy.complete (acyclic_batchGraph consistent acyclic) eventId
            (mem_keys_batchGraph.mpr present)⟩
    have reordered := List.perm_insertionSort (positionLe (position order)) pdus
    unfold alreadySorted isTopologicallySortedInPlace
    split
    · rfl
    · refine sortedInPlaceFrom_of_before TxnPdu.eventId TxnPdu.prevEvents
        (positionKey (position order)) (List.pairwise_insertionSort _ pdus) ?_
      intro pdu member reference listed other otherMember named
      subst named
      exact positionKey_lt consistent greedy.sortedFrom greedy.nodup complete
        (reordered.subset member) (reordered.subset otherMember) listed

theorem sort_pdus_reorders_without_loss (pdus : List (TxnPdu α)) (consistent : Consistent pdus) :
    (sortPdus pdus).Perm pdus ∧ (alreadySorted pdus = true → sortPdus pdus = pdus) ∧
      (BatchAcyclic pdus → alreadySorted (sortPdus pdus) = true) :=
  ⟨sortPdus_perm pdus, sortPdus_of_alreadySorted, alreadySorted_sortPdus consistent⟩

/-- A batch that arrived with an event before the one it follows, the last PDU also naming an
event outside the batch. -/
def sampleBatch : List (TxnPdu Nat) :=
  [⟨0, "!r:h", 2, [1]⟩, ⟨1, "!r:h", 1, []⟩, ⟨2, "!r:h", 3, [2, 9]⟩]

theorem sort_pdus_reorders_without_loss_sample :
    Consistent sampleBatch ∧ ((sortPdus sampleBatch).Perm sampleBatch ∧
      (alreadySorted sampleBatch = true → sortPdus sampleBatch = sampleBatch) ∧
      (BatchAcyclic sampleBatch → alreadySorted (sortPdus sampleBatch) = true)) :=
  ⟨by decide, sort_pdus_reorders_without_loss sampleBatch (by decide)⟩

example : (sortPdus sampleBatch).map TxnPdu.eventId = [1, 2, 3] := by
  decide

end Sorting

end Federation
end Tuwunel
