import Mathlib
import Tuwunel.Library.AListTotal
import Tuwunel.Library.DepthFirst
import Tuwunel.Service.Rooms.StateRes.Resolve.ConflictedSubgraph

/-!
# The conflicted subgraph walk yields only subgraph events, each once

Whatever order the fetches complete in and whatever widths the window takes, every event the
stream of `conflicted_subgraph_dfs` has yielded lies on an `auth_events` path between two
members of the conflicted set, and no event is yielded twice (`conflictedSubgraph_safe`).

The argument is an invariant of the shared state (`Safe`).  A node is `Subgraph` only once it is
known to be in the conflicted subgraph, and it never leaves that state; `insert_path_filter`
lets a node through only on its way into `Subgraph`.  A walker's path is a chain of auth edges
up from its seed.  Every reference the shared state holds to a walker is a ticket: a fetch in
`todo` or `deferred`, a place in `waiters`, or one in a wake of `ready`.  A ticket aims at an
auth event of the walker's top node, and each walker holds at most one ticket.  So whichever
ticket is served next, the walker it serves is the one the ticket was issued for.

The walker being served is taken out of the count while it runs: it is in `hand`, and its
current state is written over `walkers`, the view of every walker the tickets refer to.
-/

namespace Tuwunel
namespace StateRes

open KeyValue

variable (fetch : EventId → Option (List EventId)) (conflictedSet : List EventId)

/-- An `auth_events` edge of the events `fetch` returns. -/
def AuthEdge (event auth : EventId) : Prop :=
  ∃ authEvents, fetch event = some authEvents ∧ auth ∈ authEvents

/-- The conflicted subgraph: the events on an `auth_events` path of length at least one from a
conflicted event to a conflicted event. -/
def InConflictedSubgraph (eventId : EventId) : Prop :=
  ∃ first ∈ conflictedSet, ∃ last ∈ conflictedSet,
    Relation.ReflTransGen (AuthEdge fetch) first eventId ∧
      Relation.ReflTransGen (AuthEdge fetch) eventId last ∧
      Relation.TransGen (AuthEdge fetch) first last

/-! ## Walkers -/

/-- What holds of one walker: its path, top first, is a chain of auth edges up from a conflicted
seed, and each node of the path has a frame of its own auth events. -/
structure WalkerOk (walker : Local) : Prop where
  seeded : ∀ seed, walker.path.getLast? = some seed → seed ∈ conflictedSet
  chain : walker.path.IsChain fun above below => AuthEdge fetch below above
  framed : List.Forall₂ (fun node frame => ∀ auth ∈ frame, AuthEdge fetch node auth)
    walker.path walker.stack

/-- Where a ticket may send a walker: to a conflicted seed when its path is empty, and to an auth
event of its top node otherwise. -/
def Aims (walker : Local) (eventId : EventId) : Prop :=
  match walker.path with
  | [] => eventId ∈ conflictedSet
  | top :: _ => AuthEdge fetch top eventId

variable {fetch conflictedSet}

theorem WalkerOk.default : WalkerOk fetch conflictedSet Local.default :=
  ⟨fun _ last => by simp [Local.default] at last, .nil, .nil⟩

/-- The nodes `insert_path` lets through are in the conflicted subgraph: the path runs up from a
conflicted seed to an event that reaches a conflicted event. -/
theorem WalkerOk.insertPath_sound {walker : Local} (ok : WalkerOk fetch conflictedSet walker)
    {eventId : EventId} (aims : Aims fetch conflictedSet walker eventId)
    {last : EventId} (conflicted : last ∈ conflictedSet)
    (reaches : Relation.ReflTransGen (AuthEdge fetch) eventId last)
    (alone : walker.path = [] → InConflictedSubgraph fetch conflictedSet eventId) :
    ∀ node, node ∈ walker.path ∨ node = eventId → InConflictedSubgraph fetch conflictedSet node := by
  rcases path : walker.path with _ | ⟨top, rest⟩
  · rintro node (member | rfl)
    · exact absurd member List.not_mem_nil
    · exact alone path
  -- the seed at the bottom reaches the top, and the top has an edge to the event
  obtain ⟨seed, bottom⟩ := Option.isSome_iff_exists.mp
    (List.getLast?_isSome.mpr (List.cons_ne_nil top rest))
  have chain := ok.chain
  rw [path] at chain
  have seeded := ok.seeded seed (path ▸ bottom)
  have edge : AuthEdge fetch top eventId := by simpa only [Aims, path] using aims
  have toTop := DepthFirst.reached_from_bottom chain bottom top List.mem_cons_self
  have toEvent : Relation.TransGen (AuthEdge fetch) seed eventId := .tail' toTop edge
  rintro node (member | rfl)
  · exact ⟨seed, seeded, last, conflicted, DepthFirst.reached_from_bottom chain bottom node member,
      ((DepthFirst.reaches_top chain node member).tail edge).trans reaches, toEvent.trans_left reaches⟩
  · exact ⟨seed, seeded, last, conflicted, toEvent.to_reflTransGen, reaches,
      toEvent.trans_left reaches⟩

/-! ## What the shared-state operations leave alone -/

section Frame

variable {global : Global} {eventId : EventId}

theorem wakeWaiters_of_lookup_none (result : Resolution)
    (absent : global.waiters.lookup eventId = none) : wakeWaiters global eventId result = global := by
  simp [wakeWaiters, absent]

theorem wakeWaiters_of_lookup {ids : List Nat} (result : Resolution)
    (found : global.waiters.lookup eventId = some ids) :
    wakeWaiters global eventId result =
      { global with
        waiters := global.waiters.erase eventId
        parked := global.parked - ids.length
        ready := ⟨eventId, ids, result⟩ :: global.ready } := by
  simp [wakeWaiters, found]

@[simp]
theorem wakeWaiters_locals (result : Resolution) :
    (wakeWaiters global eventId result).locals = global.locals := by
  unfold wakeWaiters
  split <;> rfl

@[simp]
theorem wakeWaiters_subgraph (result : Resolution) :
    (wakeWaiters global eventId result).subgraph = global.subgraph := by
  unfold wakeWaiters
  split <;> rfl

@[simp]
theorem wakeWaiters_outputs (result : Resolution) :
    (wakeWaiters global eventId result).outputs = global.outputs := by
  unfold wakeWaiters
  split <;> rfl

@[simp]
theorem completePending_locals (result : Resolution) :
    (completePending global eventId result).locals = global.locals := by
  unfold completePending
  split <;> simp

@[simp]
theorem insertPathFilter_locals : (insertPathFilter global eventId).2.locals = global.locals := by
  unfold insertPathFilter
  split <;> simp

@[simp]
theorem insertPathFilter_outputs : (insertPathFilter global eventId).2.outputs = global.outputs := by
  unfold insertPathFilter
  split <;> simp

theorem insertPathFilter_subgraph_self :
    (insertPathFilter global eventId).2.subgraph.get eventId = some .subgraph := by
  unfold insertPathFilter
  split
  case h_2 found => exact found
  all_goals simp

@[simp]
theorem insertNodes_locals : ∀ {nodes : List EventId} {global : Global},
    (insertNodes nodes global).locals = global.locals
  | [], _ => rfl
  | eventId :: nodes, global => by
      have filtered : (insertPathFilter global eventId).2.locals = global.locals :=
        insertPathFilter_locals
      unfold insertNodes
      split
      all_goals
        rename_i filter
        rw [filter] at filtered
        simpa [insertNodes_locals] using filtered

end Frame

/-! ## Tickets -/

/-- The references the shared state holds to walkers: fetches in flight or deferred, places in
`waiters`, and places in the wakes of `ready`. -/
def Global.tickets (global : Global) : Multiset Nat :=
  (((global.todo ++ global.deferred).map Prod.fst : List Nat) : Multiset Nat) +
    AListTotal.total (fun ids : List Nat => (ids : Multiset Nat)) global.waiters +
    (global.ready.map fun wake => (wake.locals : Multiset Nat)).sum

theorem waiters_le_total {waiters : AList fun _ : EventId => List Nat} {eventId : EventId}
    {ids : List Nat} (found : waiters.lookup eventId = some ids) :
    (ids : Multiset Nat) ≤ AListTotal.total (fun ids : List Nat => (ids : Multiset Nat)) waiters := by
  rw [← AListTotal.total_erase_add found]
  exact le_add_self

theorem Global.mem_tickets_of_fetching {global : Global} {id : Nat} {eventId : EventId}
    (member : (id, eventId) ∈ global.todo ++ global.deferred) : id ∈ global.tickets := by
  unfold Global.tickets
  exact Multiset.mem_add.mpr (.inl (Multiset.mem_add.mpr
    (.inl (Multiset.mem_coe.mpr (List.mem_map.mpr ⟨_, member, rfl⟩)))))

theorem Global.mem_tickets_of_waiting {global : Global} {eventId : EventId} {ids : List Nat}
    (found : global.waiters.lookup eventId = some ids) {id : Nat} (member : id ∈ ids) :
    id ∈ global.tickets := by
  unfold Global.tickets
  exact Multiset.mem_add.mpr (.inl (Multiset.mem_add.mpr
    (.inr (Multiset.mem_of_le (waiters_le_total found) (Multiset.mem_coe.mpr member)))))

theorem Global.mem_tickets_of_woken {global : Global} {wake : Wake} (woken : wake ∈ global.ready)
    {id : Nat} (member : id ∈ wake.locals) : id ∈ global.tickets := by
  unfold Global.tickets
  have within : (wake.locals : Multiset Nat) ≤ (global.ready.map fun wake => (wake.locals : Multiset Nat)).sum :=
    List.le_sum_of_mem (List.mem_map.mpr ⟨wake, woken, rfl⟩)
  exact Multiset.mem_add.mpr (.inr (Multiset.mem_of_le within (Multiset.mem_coe.mpr member)))

/-- A wake moves a node's waiters from `waiters` to `ready`: the tickets stay. -/
theorem Global.tickets_wakeWaiters (global : Global) (eventId : EventId) (result : Resolution) :
    (wakeWaiters global eventId result).tickets = global.tickets := by
  rcases found : global.waiters.lookup eventId with _ | ids
  · rw [wakeWaiters_of_lookup_none result found]
  rw [wakeWaiters_of_lookup result found]
  simp only [Global.tickets, List.map_cons, List.sum_cons]
  rw [← AListTotal.total_erase_add found]
  abel

/-- A walker parking takes its ticket from hand into `waiters`. -/
theorem Global.tickets_park (global : Global) (eventId : EventId) (id : Nat) (hand : Multiset Nat) :
    ({ global with
      waiters := global.waiters.insert eventId ((global.waiters.lookup eventId).getD [] ++ [id])
      parked := global.parked + 1 } : Global).tickets + hand = global.tickets + id ::ₘ hand := by
  have waiters : AListTotal.total (fun ids : List Nat => (ids : Multiset Nat))
      (global.waiters.insert eventId ((global.waiters.lookup eventId).getD [] ++ [id])) =
      id ::ₘ AListTotal.total (fun ids : List Nat => (ids : Multiset Nat)) global.waiters := by
    rw [AListTotal.total_insert]
    rcases found : global.waiters.lookup eventId with _ | ids
    · rw [AListTotal.total_erase_of_lookup_eq_none found]
      simp
    · rw [← AListTotal.total_erase_add found]
      simp only [Option.getD_some, ← Multiset.coe_add, Multiset.coe_singleton,
        ← Multiset.singleton_add]
      abel
  simp only [Global.tickets, waiters, Multiset.add_cons, Multiset.cons_add]

/-- The wake on top of `ready` leaves it, its walkers' tickets into hand. -/
theorem Global.tickets_takeWake {global : Global} {wake : Wake} {ready : List Wake}
    (popped : global.ready = wake :: ready) (hand : Multiset Nat) :
    ({ global with ready } : Global).tickets + (↑wake.locals + hand) = global.tickets + hand := by
  simp only [Global.tickets, popped, List.map_cons, List.sum_cons]
  abel

/-! ## The invariant -/

variable (fetch conflictedSet)

/-- What holds of the shared state between the steps of the walk.  `walkers` is the view of the
walkers the tickets refer to, and `hand` the walkers being served, which hold no ticket. -/
structure Safe (walkers : Nat → Local) (hand : Multiset Nat) (global : Global) : Prop where
  conflicted : ∀ eventId, global.subgraph.get eventId = some .conflicted →
    eventId ∈ conflictedSet
  sound : ∀ eventId, global.subgraph.get eventId = some .subgraph →
    InConflictedSubgraph fetch conflictedSet eventId
  emitted : ∀ eventId ∈ global.outputs, global.subgraph.get eventId = some .subgraph
  distinct : global.outputs.Nodup
  walkersOk : ∀ id, WalkerOk fetch conflictedSet (walkers id)
  seeds : ∀ seed ∈ global.inputs, seed ∈ conflictedSet
  fetching : ∀ id eventId, (id, eventId) ∈ global.todo ++ global.deferred →
    Aims fetch conflictedSet (walkers id) eventId
  waiting : ∀ eventId ids, global.waiters.lookup eventId = some ids → ∀ id ∈ ids,
    Aims fetch conflictedSet (walkers id) eventId
  woken : ∀ wake ∈ global.ready,
    (∀ id ∈ wake.locals, Aims fetch conflictedSet (walkers id) wake.eventId) ∧
      (wake.result = .subgraph → InConflictedSubgraph fetch conflictedSet wake.eventId)
  single : (global.tickets + hand).Nodup
  bounded : ∀ id ∈ global.tickets + hand, id < global.locals.length

variable {fetch conflictedSet}

section Shared

variable {walkers : Nat → Local} {hand : Multiset Nat} {global : Global}

/-- A walker in hand holds no ticket, so its view can be rewritten. -/
theorem Safe.update (safe : Safe fetch conflictedSet walkers hand global) {id : Nat}
    (held : id ∈ hand) {walker : Local} (ok : WalkerOk fetch conflictedSet walker) :
    Safe fetch conflictedSet (Function.update walkers id walker) hand global := by
  have untouched : ∀ other ∈ global.tickets, Function.update walkers id walker other = walkers other := by
    intro other member
    refine Function.update_of_ne (fun same => ?_) _ _
    subst same
    exact Multiset.disjoint_left.mp (Multiset.nodup_add.mp safe.single).2.2 member held
  refine ⟨safe.conflicted, safe.sound, safe.emitted, safe.distinct, ?_, safe.seeds, ?_, ?_, ?_,
    safe.single, safe.bounded⟩
  · intro other
    by_cases same : other = id
    · subst same
      simpa using ok
    · simpa [same] using safe.walkersOk other
  · intro other eventId member
    rw [untouched other (Global.mem_tickets_of_fetching member)]
    exact safe.fetching other eventId member
  · intro eventId ids found other member
    rw [untouched other (Global.mem_tickets_of_waiting found member)]
    exact safe.waiting eventId ids found other member
  · intro wake woken
    refine ⟨fun other member => ?_, (safe.woken wake woken).2⟩
    rw [untouched other (Global.mem_tickets_of_woken woken member)]
    exact (safe.woken wake woken).1 other member

/-- Waking a node's waiters moves their tickets from `waiters` to `ready`. -/
theorem Safe.wakeWaiters (safe : Safe fetch conflictedSet walkers hand global) {eventId : EventId}
    {result : Resolution}
    (resolved : result = .subgraph → InConflictedSubgraph fetch conflictedSet eventId) :
    Safe fetch conflictedSet walkers hand (wakeWaiters global eventId result) := by
  rcases found : global.waiters.lookup eventId with _ | ids
  · rw [wakeWaiters_of_lookup_none result found]
    exact safe
  have tickets := Global.tickets_wakeWaiters global eventId result
  rw [wakeWaiters_of_lookup result found] at tickets ⊢
  refine ⟨safe.conflicted, safe.sound, safe.emitted, safe.distinct, safe.walkersOk, safe.seeds,
    safe.fetching, ?waiting, ?woken, tickets ▸ safe.single, tickets ▸ safe.bounded⟩
  case waiting =>
    intro other others stored
    have distinct : other ≠ eventId := by
      rintro rfl
      simp at stored
    rw [AList.lookup_erase_ne distinct] at stored
    exact safe.waiting other others stored
  case woken =>
    rintro wake (_ | ⟨_, old⟩)
    · exact ⟨safe.waiting eventId ids found, resolved⟩
    · exact safe.woken wake old

/-- Marking a node that is not in the subgraph with a state that is neither `Subgraph` nor
`Conflicted`. -/
theorem Safe.put_unmarked (safe : Safe fetch conflictedSet walkers hand global)
    {eventId : EventId} {state : Substate} (outside : global.subgraph.get eventId ≠ some .subgraph)
    (fresh : state ≠ .subgraph) (plain : state ≠ .conflicted) :
    Safe fetch conflictedSet walkers hand
      { global with subgraph := global.subgraph.put eventId state } := by
  -- the subgraph nodes, which the outputs and the woken nodes are, keep their state
  have kept : ∀ other, global.subgraph.get other = some .subgraph →
      (global.subgraph.put eventId state).get other = some .subgraph := by
    intro other marked
    have distinct : other ≠ eventId := by
      rintro rfl
      exact outside marked
    rwa [Table.get_put_of_ne _ _ distinct]
  refine ⟨?conflicted, ?sound, fun other member => kept other (safe.emitted other member),
    safe.distinct, safe.walkersOk, safe.seeds, safe.fetching, safe.waiting, safe.woken,
    safe.single, safe.bounded⟩
  case conflicted =>
    intro other marked
    by_cases same : other = eventId
    · subst same
      simp [plain] at marked
    · exact safe.conflicted other (by rwa [Table.get_put_of_ne _ _ same] at marked)
  case sound =>
    intro other marked
    by_cases same : other = eventId
    · subst same
      simp [fresh] at marked
    · exact safe.sound other (by rwa [Table.get_put_of_ne _ _ same] at marked)

/-- Marking a node of the conflicted subgraph as `Subgraph`. -/
theorem Safe.put_subgraph (safe : Safe fetch conflictedSet walkers hand global)
    {eventId : EventId} (inside : InConflictedSubgraph fetch conflictedSet eventId) :
    Safe fetch conflictedSet walkers hand
      { global with subgraph := global.subgraph.put eventId .subgraph } := by
  have kept : ∀ other, global.subgraph.get other = some .subgraph →
      (global.subgraph.put eventId .subgraph).get other = some .subgraph := by
    intro other marked
    by_cases same : other = eventId
    · subst same
      simp
    · rwa [Table.get_put_of_ne _ _ same]
  refine ⟨?conflicted, ?sound, fun other member => kept other (safe.emitted other member),
    safe.distinct, safe.walkersOk, safe.seeds, safe.fetching, safe.waiting, safe.woken,
    safe.single, safe.bounded⟩
  case conflicted =>
    intro other marked
    by_cases same : other = eventId
    · subst same
      simp at marked
    · exact safe.conflicted other (by rwa [Table.get_put_of_ne _ _ same] at marked)
  case sound =>
    intro other marked
    by_cases same : other = eventId
    · subst same
      exact inside
    · exact safe.sound other (by rwa [Table.get_put_of_ne _ _ same] at marked)

theorem Safe.completePending_dead (safe : Safe fetch conflictedSet walkers hand global)
    (eventId : EventId) :
    Safe fetch conflictedSet walkers hand (completePending global eventId .dead) := by
  unfold completePending
  split
  case h_1 owner pending =>
    have outside : global.subgraph.get eventId ≠ some .subgraph := by simp [pending]
    exact Safe.wakeWaiters (safe.put_unmarked outside (by simp [Resolution.substate])
      (by simp [Resolution.substate])) fun same => by cases same
  case h_2 => exact safe

theorem Safe.insertPathFilter (safe : Safe fetch conflictedSet walkers hand global)
    {eventId : EventId} (inside : InConflictedSubgraph fetch conflictedSet eventId) :
    Safe fetch conflictedSet walkers hand (insertPathFilter global eventId).2 := by
  unfold StateRes.insertPathFilter
  split
  case h_2 => exact safe
  case h_3 owner pending =>
    exact (safe.put_subgraph inside).wakeWaiters fun _ => inside
  all_goals exact safe.put_subgraph inside

/-- A node the filter lets through has not been yielded yet: every yielded node is `Subgraph`. -/
theorem Safe.fresh_of_insertPathFilter (safe : Safe fetch conflictedSet walkers hand global)
    {eventId : EventId} (kept : (StateRes.insertPathFilter global eventId).1 = true) :
    eventId ∉ global.outputs := by
  intro member
  simp [StateRes.insertPathFilter, safe.emitted eventId member] at kept

/-- Yielding a `Subgraph` node not yielded before. -/
theorem Safe.emit (safe : Safe fetch conflictedSet walkers hand global) {eventId : EventId}
    (marked : global.subgraph.get eventId = some .subgraph) (fresh : eventId ∉ global.outputs) :
    Safe fetch conflictedSet walkers hand { global with outputs := global.outputs ++ [eventId] } := by
  refine ⟨safe.conflicted, safe.sound, ?_, List.nodup_append.mpr ⟨safe.distinct, by simp, ?_⟩,
    safe.walkersOk, safe.seeds, safe.fetching, safe.waiting, safe.woken, safe.single,
    safe.bounded⟩
  · intro other member
    rcases List.mem_append.mp member with old | new
    · exact safe.emitted other old
    · rw [List.mem_singleton.mp new]
      exact marked
  · intro other old added new
    rw [List.mem_singleton.mp new]
    rintro rfl
    exact fresh old

/-- `insert_path`'s filter and `extend` over nodes of the conflicted subgraph. -/
theorem Safe.insertNodes : ∀ {nodes : List EventId} {global : Global},
    Safe fetch conflictedSet walkers hand global →
    (∀ node ∈ nodes, InConflictedSubgraph fetch conflictedSet node) →
    Safe fetch conflictedSet walkers hand (StateRes.insertNodes nodes global)
  | [], _, safe, _ => safe
  | eventId :: nodes, global, safe, inside => by
      have filtered := safe.insertPathFilter (inside eventId List.mem_cons_self)
      have marked : (StateRes.insertPathFilter global eventId).2.subgraph.get eventId =
          some .subgraph := insertPathFilter_subgraph_self
      have outputs : (StateRes.insertPathFilter global eventId).2.outputs = global.outputs :=
        insertPathFilter_outputs
      have fresh : (StateRes.insertPathFilter global eventId).1 = true →
          eventId ∉ global.outputs := safe.fresh_of_insertPathFilter
      have rest : ∀ node ∈ nodes, InConflictedSubgraph fetch conflictedSet node :=
        fun node member => inside node (List.mem_cons_of_mem _ member)
      unfold StateRes.insertNodes
      rcases filter : StateRes.insertPathFilter global eventId with ⟨_ | _, after⟩
      all_goals rw [filter] at filtered marked outputs fresh
      · exact Safe.insertNodes filtered rest
      · exact Safe.insertNodes (filtered.emit marked (outputs ▸ fresh rfl)) rest

/-- A walker served and done with holds no ticket any more. -/
theorem Safe.release (safe : Safe fetch conflictedSet walkers hand global) {id : Nat}
    {rest : Multiset Nat} (split : hand = id ::ₘ rest) : Safe fetch conflictedSet walkers rest global := by
  subst split
  have within : global.tickets + rest ≤ global.tickets + id ::ₘ rest :=
    add_le_add le_rfl (Multiset.le_cons_self rest id)
  exact ⟨safe.conflicted, safe.sound, safe.emitted, safe.distinct, safe.walkersOk, safe.seeds,
    safe.fetching, safe.waiting, safe.woken, Multiset.nodup_of_le within safe.single,
    fun other member => safe.bounded other (Multiset.mem_of_le within member)⟩

/-- A walker that meets a node another walker owns parks: its ticket goes into `waiters`. -/
theorem Safe.park {id : Nat} (safe : Safe fetch conflictedSet walkers (id ::ₘ hand) global)
    {eventId : EventId} (aims : Aims fetch conflictedSet (walkers id) eventId) :
    Safe fetch conflictedSet walkers hand
      { global with
        waiters := global.waiters.insert eventId ((global.waiters.lookup eventId).getD [] ++ [id])
        parked := global.parked + 1 } := by
  have tickets := Global.tickets_park global eventId id hand
  refine ⟨safe.conflicted, safe.sound, safe.emitted, safe.distinct, safe.walkersOk, safe.seeds,
    safe.fetching, ?waiting, safe.woken, tickets ▸ safe.single, tickets ▸ safe.bounded⟩
  case waiting =>
    intro other ids stored member memberId
    by_cases same : other = eventId
    · subst same
      rw [AList.lookup_insert, Option.some.injEq] at stored
      subst stored
      rcases List.mem_append.mp memberId with old | new
      · rcases found : global.waiters.lookup other with _ | olds
        · simp [found] at old
        · rw [found, Option.getD_some] at old
          exact safe.waiting other olds found member old
      · rw [List.mem_singleton.mp new]
        exact aims
    · rw [AList.lookup_insert_ne same] at stored
      exact safe.waiting other ids stored member memberId

end Shared

/-! ## One walker's descent -/

section Descent

theorem WalkerOk.tail {node : EventId} {path : List EventId} {frame : List EventId}
    {stack : List (List EventId)} {marked : Nat}
    (ok : WalkerOk fetch conflictedSet ⟨node :: path, frame :: stack, marked⟩) (marked' : Nat) :
    WalkerOk fetch conflictedSet ⟨path, stack, marked'⟩ := by
  refine ⟨fun seed last => ok.seeded seed ?_, ok.chain.tail, (List.forall₂_cons.mp ok.framed).2⟩
  -- the bottom of a nonempty tail is the bottom of the whole path
  cases path with
  | nil => simp at last
  | cons next rest => simpa [List.getLast?_cons_cons] using last

/-- The event a fetch returns for joins the top of the path, with its auth events as a frame. -/
theorem WalkerOk.push {walker : Local} (ok : WalkerOk fetch conflictedSet walker)
    {eventId : EventId} (aims : Aims fetch conflictedSet walker eventId)
    {authEvents : List EventId} (fetched : fetch eventId = some authEvents) :
    WalkerOk fetch conflictedSet
      { walker with path := eventId :: walker.path, stack := authEvents.reverse :: walker.stack } := by
  have frame : ∀ auth ∈ authEvents.reverse, AuthEdge fetch eventId auth :=
    fun auth member => ⟨authEvents, fetched, List.mem_reverse.mp member⟩
  obtain ⟨path, stack, marked⟩ := walker
  refine ⟨fun seed last => ?seeded, ?chain, .cons frame ok.framed⟩
  case seeded =>
    cases path with
    | nil =>
        simp only [List.getLast?_singleton, Option.some.injEq] at last
        subst last
        exact aims
    | cons top rest => exact ok.seeded seed (by simpa [List.getLast?_cons_cons] using last)
  case chain =>
    cases path with
    | nil => exact .singleton _
    | cons top rest => exact ok.chain.cons_cons aims

/-- The next auth event of the top frame: the walker keeps its shape, and the ticket aims there. -/
theorem WalkerOk.popFrame {path : List EventId} {eventId : EventId} {frame : List EventId}
    {frames : List (List EventId)} {marked : Nat}
    (ok : WalkerOk fetch conflictedSet ⟨path, (eventId :: frame) :: frames, marked⟩)
    (marked' : Nat) :
    WalkerOk fetch conflictedSet ⟨path, frame :: frames, marked'⟩ ∧
      Aims fetch conflictedSet ⟨path, frame :: frames, marked'⟩ eventId ∧ path ≠ [] := by
  have framed := ok.framed
  cases path with
  | nil => cases framed
  | cons top rest =>
      obtain ⟨edges, restFramed⟩ := List.forall₂_cons.mp framed
      exact ⟨⟨ok.seeded, ok.chain, .cons (fun auth member => edges auth (.tail _ member))
        restFramed⟩, edges eventId List.mem_cons_self, List.cons_ne_nil top rest⟩

theorem WalkerOk.dropExhausted (global : Global) (path : List EventId)
    (stack : List (List EventId)) {marked : Nat} :
    WalkerOk fetch conflictedSet ⟨path, stack, marked⟩ → ∀ marked',
      WalkerOk fetch conflictedSet ⟨(StateRes.dropExhausted path stack global).1,
        (StateRes.dropExhausted path stack global).2.1, marked'⟩ := by
  fun_induction StateRes.dropExhausted path stack global with
  | case1 eventId path frames global ih => exact fun ok => ih (ok.tail marked)
  | case2 frames global ih => exact fun ok => absurd ok.framed (by simp)
  | case3 => exact fun ok _ => ⟨ok.seeded, ok.chain, ok.framed⟩

@[simp]
theorem dropExhausted_locals (path : List EventId) (stack : List (List EventId)) (global : Global) :
    (StateRes.dropExhausted path stack global).2.2.locals = global.locals := by
  fun_induction StateRes.dropExhausted path stack global with
  | case1 eventId path frames global ih => simp [ih]
  | case2 frames global ih => exact ih
  | case3 => rfl

theorem Safe.dropExhausted {walkers : Nat → Local} {hand : Multiset Nat} (path : List EventId)
    (stack : List (List EventId)) {global : Global} :
    Safe fetch conflictedSet walkers hand global →
      Safe fetch conflictedSet walkers hand (StateRes.dropExhausted path stack global).2.2 := by
  fun_induction StateRes.dropExhausted path stack global with
  | case1 eventId path frames global ih => exact fun safe => ih (safe.completePending_dead eventId)
  | case2 frames global ih => exact ih
  | case3 => exact id

theorem Local.pop_global (walker : Local) (global : Global) :
    (walker.pop global).2.2 = (dropExhausted walker.path walker.stack global).2.2 := by
  unfold Local.pop
  rcases dropExhausted walker.path walker.stack global with ⟨path, _ | ⟨_ | ⟨eventId, frame⟩, frames⟩, after⟩
  all_goals rfl

/-- `Local::pop` keeps the walker's shape, and the event it pops is one its ticket may aim at. -/
theorem WalkerOk.pop {walker : Local} (ok : WalkerOk fetch conflictedSet walker) (global : Global) :
    WalkerOk fetch conflictedSet (walker.pop global).2.1 ∧
      ∀ eventId, (walker.pop global).1 = some eventId →
        Aims fetch conflictedSet (walker.pop global).2.1 eventId ∧ (walker.pop global).2.1.path ≠ [] := by
  obtain ⟨path, stack, marked⟩ := walker
  have dropped := ok.dropExhausted global path stack
  unfold Local.pop
  rcases result : StateRes.dropExhausted path stack global with
    ⟨path', _ | ⟨_ | ⟨eventId, frame⟩, frames⟩, after⟩
  all_goals
    rw [result] at dropped
    dsimp only at dropped ⊢
  case cons.cons =>
    obtain ⟨popped, aims, nonempty⟩ := (dropped 0).popFrame (min marked path'.length)
    exact ⟨popped, fun _ same => Option.some.inj same ▸ ⟨aims, nonempty⟩⟩
  all_goals exact ⟨dropped _, fun _ none => by cases none⟩

@[simp]
theorem Local.pop_locals (walker : Local) (global : Global) :
    (walker.pop global).2.2.locals = global.locals := by
  rw [Local.pop_global, dropExhausted_locals]

theorem Safe.pop {walkers : Nat → Local} {hand : Multiset Nat} {global : Global}
    (safe : Safe fetch conflictedSet walkers hand global) (walker : Local) :
    Safe fetch conflictedSet walkers hand (walker.pop global).2.2 := by
  rw [Local.pop_global]
  exact safe.dropExhausted walker.path walker.stack

section Served

variable {walkers : Nat → Local} {hand : Multiset Nat} {global : Global} {id : Nat}
  {walker : Local}

theorem Safe.served_ok (safe : Safe fetch conflictedSet (Function.update walkers id walker) hand global) :
    WalkerOk fetch conflictedSet walker := by
  simpa using safe.walkersOk id

/-- The walker in hand may change, as long as it keeps its shape. -/
theorem Safe.reassign
    (safe : Safe fetch conflictedSet (Function.update walkers id walker) (id ::ₘ hand) global)
    {walker' : Local} (ok : WalkerOk fetch conflictedSet walker') :
    Safe fetch conflictedSet (Function.update walkers id walker') (id ::ₘ hand) global := by
  have updated := safe.update (Multiset.mem_cons_self id hand) ok
  rwa [Function.update_idem] at updated

/-- `insert_path` by the walker in hand: its unmarked nodes and the event join the subgraph. -/
theorem Safe.insertPath
    (safe : Safe fetch conflictedSet (Function.update walkers id walker) (id ::ₘ hand) global)
    {eventId : EventId} (aims : Aims fetch conflictedSet walker eventId)
    {last : EventId} (conflicted : last ∈ conflictedSet)
    (reaches : Relation.ReflTransGen (AuthEdge fetch) eventId last)
    (alone : walker.path = [] → InConflictedSubgraph fetch conflictedSet eventId) :
    Safe fetch conflictedSet (Function.update walkers id (walker.insertPath global eventId).1)
      (id ::ₘ hand) (walker.insertPath global eventId).2 := by
  have ok := safe.served_ok
  have inside := ok.insertPath_sound aims conflicted reaches alone
  have nodes : ∀ node ∈ (walker.path.take (walker.path.length - walker.marked)).reverse ++ [eventId],
      InConflictedSubgraph fetch conflictedSet node := by
    intro node member
    rcases List.mem_append.mp member with kept | added
    · exact inside node (.inl (List.mem_of_mem_take (List.mem_reverse.mp kept)))
    · exact inside node (.inr (List.mem_singleton.mp added))
  have marked : WalkerOk fetch conflictedSet (walker.insertPath global eventId).1 :=
    ⟨ok.seeded, ok.chain, ok.framed⟩
  exact (safe.insertNodes nodes).reassign marked

/-- `Local::eval` by the walker in hand keeps the invariant, and its outcome says where the
walker's ticket goes: back to the walker, to `waiters`, or to a fetch its top node has an edge
to. -/
theorem Safe.eval
    (safe : Safe fetch conflictedSet (Function.update walkers id walker) (id ::ₘ hand) global)
    {eventId : EventId} (aims : Aims fetch conflictedSet walker eventId)
    (nonempty : walker.path ≠ []) :
    match walker.eval id global eventId with
    | (.continue, walker', global') =>
        Safe fetch conflictedSet (Function.update walkers id walker') (id ::ₘ hand) global'
    | (.fetch next, walker', global') =>
        Safe fetch conflictedSet (Function.update walkers id walker') (id ::ₘ hand) global' ∧
          Aims fetch conflictedSet walker' next
    | (.park, walker', global') =>
        Safe fetch conflictedSet (Function.update walkers id walker') hand global' := by
  unfold Local.eval
  rcases marked : global.subgraph.get eventId with _ | state
  case none =>
    exact ⟨safe.put_unmarked (by simp [marked]) (by simp) (by simp), aims⟩
  cases state with
  | subgraph =>
      obtain ⟨_, _, last, conflicted, _, reaches, _⟩ := safe.sound eventId marked
      exact safe.insertPath aims conflicted reaches fun _ => safe.sound eventId marked
  | dead => exact safe
  | pending owner =>
      dsimp only
      split_ifs with same
      · exact safe
      · exact safe.park (by rwa [Function.update_self])
  | conflicted =>
      -- the event is a seed: the path up to it is in the subgraph
      have inserted := safe.insertPath aims (safe.conflicted eventId marked) .refl
        fun empty => absurd empty nonempty
      dsimp only [Local.insertPath] at inserted ⊢
      split_ifs with seed
      · exact inserted
      · exact ⟨inserted, aims⟩

@[simp]
theorem Local.eval_locals (walker : Local) (id : Nat) (global : Global) (eventId : EventId) :
    (walker.eval id global eventId).2.2.locals = global.locals := by
  unfold Local.eval Local.insertPath
  split
  case h_3 => split <;> rfl
  all_goals simp

/-- A pop and an evaluation by the walker in hand, the body of the loop of `advance`. -/
theorem Safe.popEval
    (safe : Safe fetch conflictedSet (Function.update walkers id walker) (id ::ₘ hand) global)
    {eventId : EventId} {popped : Local} {global' : Global}
    (taken : walker.pop global = (some eventId, popped, global')) :
    match popped.eval id global' eventId with
    | (.continue, walker', global') =>
        Safe fetch conflictedSet (Function.update walkers id walker') (id ::ₘ hand) global'
    | (.fetch next, walker', global') =>
        Safe fetch conflictedSet (Function.update walkers id walker') (id ::ₘ hand) global' ∧
          Aims fetch conflictedSet walker' next
    | (.park, walker', global') =>
        Safe fetch conflictedSet (Function.update walkers id walker') hand global' := by
  obtain ⟨ok, aimed⟩ := safe.served_ok.pop global
  have after := safe.pop walker
  rw [taken] at ok aimed after
  obtain ⟨aims, nonempty⟩ := aimed eventId rfl
  exact (after.reassign ok).eval aims nonempty

theorem Local.popEval_locals {walker : Local} {global : Global} {eventId : EventId}
    {popped : Local} {global' : Global} (taken : walker.pop global = (some eventId, popped, global'))
    {outcome : Evaluation} {walker' : Local} {global'' : Global}
    (evaluated : popped.eval id global' eventId = (outcome, walker', global'')) :
    global''.locals = global.locals := by
  have popLocals := Local.pop_locals walker global
  have evalLocals := Local.eval_locals popped id global' eventId
  rw [taken] at popLocals
  rw [evaluated] at evalLocals
  exact evalLocals.trans popLocals

@[simp]
theorem Local.descend_locals (id : Nat) (walker : Local) (global : Global) :
    (Local.descend id walker global).2.2.locals = global.locals := by
  fun_induction Local.descend id walker global with
  | case1 walker global walker' global' taken =>
      have popLocals := Local.pop_locals walker global
      rw [taken] at popLocals
      exact popLocals
  | case2 walker global eventId popped global' taken walker' global'' evaluated ih =>
      rw [ih, Local.popEval_locals taken evaluated]
  | case3 walker global eventId popped global' taken next walker' global'' evaluated =>
      exact Local.popEval_locals taken evaluated
  | case4 walker global eventId popped global' taken walker' global'' evaluated =>
      exact Local.popEval_locals taken evaluated

/-- The loop of `advance` by the walker in hand, by induction on the loop: the walker ends
fetching an auth event of its top node with its ticket in hand, or done or parked with no
ticket in hand. -/
theorem Safe.descend (walker : Local) (global : Global) :
    Safe fetch conflictedSet (Function.update walkers id walker) (id ::ₘ hand) global →
    match Local.descend id walker global with
    | (some next, walker', global') =>
        Safe fetch conflictedSet (Function.update walkers id walker') (id ::ₘ hand) global' ∧
          Aims fetch conflictedSet walker' next
    | (none, walker', global') =>
        Safe fetch conflictedSet (Function.update walkers id walker') hand global' := by
  fun_induction Local.descend id walker global with
  | case1 walker global walker' global' taken =>
      -- the stack ran out: the walker holds no ticket any more
      intro safe
      have ok := (safe.served_ok.pop global).1
      have after := safe.pop walker
      rw [taken] at ok after
      have reset : WalkerOk fetch conflictedSet
          (if walker'.stack = [] then Local.default else walker') := by
        split
        · exact WalkerOk.default
        · exact ok
      exact (after.reassign reset).release rfl
  | case2 walker global eventId popped global' taken walker' global'' evaluated ih =>
      intro safe
      have step := safe.popEval taken
      rw [evaluated] at step
      exact ih step
  | case3 walker global eventId popped global' taken next walker' global'' evaluated =>
      intro safe
      have step := safe.popEval taken
      rw [evaluated] at step
      exact step
  | case4 walker global eventId popped global' taken walker' global'' evaluated =>
      intro safe
      have step := safe.popEval taken
      rw [evaluated] at step
      exact step

end Served

end Descent

/-! ## Turns -/

section Views

variable {global global' : Global}

theorem Global.walker_congr (same : global'.locals = global.locals) : global'.walker = global.walker := by
  funext id
  simp only [Global.walker, same]

theorem Global.setWalker_walker_of_ne (global : Global) {id other : Nat} (walker : Local)
    (distinct : other ≠ id) : (global.setWalker id walker).walker other = global.walker other := by
  simp [Global.walker, Global.setWalker, List.getD_eq_getElem?_getD,
    List.getElem?_set_ne (Ne.symm distinct)]

theorem Global.walker_setWalker (global : Global) {id : Nat} (walker : Local)
    (valid : id < global.locals.length) :
    (global.setWalker id walker).walker = Function.update global.walker id walker := by
  funext other
  rcases eq_or_ne other id with rfl | distinct
  · simp [Global.walker, Global.setWalker, List.getD_eq_getElem?_getD, valid]
  · rw [Function.update_of_ne distinct, global.setWalker_walker_of_ne walker distinct]

/-- A walker appended to `locals` as `Local::default` changes no walker. -/
theorem Global.walker_of_append_default (grown : global'.locals = global.locals ++ [Local.default]) :
    global'.walker = global.walker := by
  funext id
  simp only [Global.walker, grown, List.getD_eq_getElem?_getD, List.getElem?_append,
    List.getElem?_singleton]
  split
  · rfl
  · split <;> simp_all

end Views

section Turns

variable {walkers : Nat → Local} {hand : Multiset Nat} {global : Global} {id : Nat}

theorem Safe.valid (safe : Safe fetch conflictedSet walkers (id ::ₘ hand) global) :
    id < global.locals.length :=
  safe.bounded id (Multiset.mem_add.mpr (.inr (Multiset.mem_cons_self id hand)))

theorem Safe.setWalker (safe : Safe fetch conflictedSet walkers hand global) (id : Nat)
    (walker : Local) : Safe fetch conflictedSet walkers hand (global.setWalker id walker) :=
  ⟨safe.conflicted, safe.sound, safe.emitted, safe.distinct, safe.walkersOk, safe.seeds,
    safe.fetching, safe.waiting, safe.woken, safe.single, fun other member => by
      simpa [Global.setWalker] using safe.bounded other member⟩

/-- The walker in hand written back to `locals`. -/
theorem Safe.setServed {global' : Global} {walker : Local} {hand' : Multiset Nat}
    (safe : Safe fetch conflictedSet (Function.update global.walker id walker) hand' global')
    (same : global'.locals = global.locals) (valid : id < global.locals.length) :
    Safe fetch conflictedSet (global'.setWalker id walker).walker hand'
      (global'.setWalker id walker) := by
  rw [Global.walker_setWalker global' walker (same ▸ valid), Global.walker_congr same]
  exact safe.setWalker id walker

/-- Fetches moved between `todo`, `deferred` and the walkers in hand, each ticket kept. -/
theorem Safe.withFetches (safe : Safe fetch conflictedSet walkers hand global)
    {todo deferred : List (Nat × EventId)} {hand' : Multiset Nat}
    (counted : (((todo ++ deferred).map Prod.fst : List Nat) : Multiset Nat) + hand' =
      (((global.todo ++ global.deferred).map Prod.fst : List Nat) : Multiset Nat) + hand)
    (aims : ∀ id eventId, (id, eventId) ∈ todo ++ deferred →
      Aims fetch conflictedSet (walkers id) eventId) :
    Safe fetch conflictedSet walkers hand' { global with todo, deferred } := by
  have regroup : ∀ {fetches fetches' rest rest' : Multiset Nat}, fetches' + hand' = fetches + hand →
      fetches' + rest + rest' + hand' = fetches + rest + rest' + hand := by
    intro fetches fetches' rest rest' moved
    calc fetches' + rest + rest' + hand' = (fetches' + hand') + rest + rest' := by abel
      _ = (fetches + hand) + rest + rest' := by rw [moved]
      _ = fetches + rest + rest' + hand := by abel
  have tickets : ({ global with todo, deferred } : Global).tickets + hand' =
      global.tickets + hand := regroup counted
  exact ⟨safe.conflicted, safe.sound, safe.emitted, safe.distinct, safe.walkersOk, safe.seeds,
    aims, safe.waiting, safe.woken, tickets ▸ safe.single, tickets ▸ safe.bounded⟩

/-- The front of `deferred` moves to the back of `todo`. -/
theorem Safe.shiftDeferred (safe : Safe fetch conflictedSet walkers hand global)
    {eventId : EventId} {deferred : List (Nat × EventId)}
    (front : global.deferred = (id, eventId) :: deferred) :
    Safe fetch conflictedSet walkers hand
      { global with todo := global.todo ++ [(id, eventId)], deferred } := by
  have same : (global.todo ++ [(id, eventId)]) ++ deferred = global.todo ++ global.deferred := by
    simp [front]
  exact safe.withFetches (by rw [same]) fun other eventId member =>
    safe.fetching other eventId (same ▸ member)

variable (fetch conflictedSet) in
/-- Where the walker a turn serves ends: fetching with its ticket in hand, or holding none. -/
def Served (hand : Multiset Nat) (id : Nat) : Option EventId × Global → Prop
  | (some next, global) => Safe fetch conflictedSet global.walker (id ::ₘ hand) global ∧
      Aims fetch conflictedSet (global.walker id) next
  | (none, global) => Safe fetch conflictedSet global.walker hand global

/-- A fetch joins the window: the ticket in hand goes into `todo` or `deferred`. -/
theorem Safe.addFetch (safe : Safe fetch conflictedSet walkers (id ::ₘ hand) global)
    {next : EventId} (aims : Aims fetch conflictedSet (walkers id) next)
    {todo deferred : List (Nat × EventId)}
    (perm : (todo ++ deferred).Perm ((id, next) :: (global.todo ++ global.deferred))) :
    Safe fetch conflictedSet walkers hand { global with todo, deferred } := by
  have counted : (((todo ++ deferred).map Prod.fst : List Nat) : Multiset Nat) + hand =
      (((global.todo ++ global.deferred).map Prod.fst : List Nat) : Multiset Nat) + id ::ₘ hand := by
    rw [Multiset.coe_eq_coe.mpr (perm.map Prod.fst), List.map_cons, ← Multiset.cons_coe,
      Multiset.cons_add, Multiset.add_cons]
  refine safe.withFetches counted fun other eventId member => ?_
  rcases List.mem_cons.mp (perm.mem_iff.mp member) with added | old
  · obtain ⟨rfl, rfl⟩ := Prod.mk.inj added
    exact aims
  · exact safe.fetching other eventId old

/-- A fetch leaves the window: its ticket goes into hand. -/
theorem Safe.takeFetch (safe : Safe fetch conflictedSet walkers hand global) {eventId : EventId}
    {todo deferred : List (Nat × EventId)}
    (perm : (global.todo ++ global.deferred).Perm ((id, eventId) :: (todo ++ deferred))) :
    Safe fetch conflictedSet walkers (id ::ₘ hand) { global with todo, deferred } ∧
      Aims fetch conflictedSet (walkers id) eventId := by
  have counted : (((todo ++ deferred).map Prod.fst : List Nat) : Multiset Nat) + id ::ₘ hand =
      (((global.todo ++ global.deferred).map Prod.fst : List Nat) : Multiset Nat) + hand := by
    rw [Multiset.coe_eq_coe.mpr (perm.map Prod.fst), List.map_cons, ← Multiset.cons_coe,
      Multiset.cons_add, Multiset.add_cons]
  exact ⟨safe.withFetches counted fun other eventId member =>
      safe.fetching other eventId (perm.mem_iff.mpr (List.mem_cons_of_mem _ member)),
    safe.fetching id eventId (perm.mem_iff.mpr List.mem_cons_self)⟩

/-- A walker's next fetch takes its ticket into `todo` or `deferred`. -/
theorem Safe.launch (width : Nat) {next : Option EventId}
    (served : Served fetch conflictedSet hand id (next, global)) :
    Safe fetch conflictedSet (launch width global id next).walker hand
      (launch width global id next) := by
  cases next with
  | none => exact served
  | some next =>
      obtain ⟨safe, aims⟩ := served
      dsimp only [StateRes.launch]
      split
      · refine safe.addFetch aims ?_
        simp
      · refine safe.addFetch aims ?_
        rw [← List.append_assoc]
        exact List.perm_append_singleton _ _

/-- `advance`: the walker in hand descends and is written back. -/
theorem Safe.advance (safe : Safe fetch conflictedSet global.walker (id ::ₘ hand) global) :
    Served fetch conflictedSet hand id (advance global id) := by
  have valid := safe.valid
  have start : Safe fetch conflictedSet (Function.update global.walker id (global.walker id))
      (id ::ₘ hand) global := by
    rwa [Function.update_eq_self]
  have descended := start.descend (global.walker id) global
  have locals := Local.descend_locals id (global.walker id) global
  unfold StateRes.advance
  rcases result : Local.descend id (global.walker id) global with ⟨_ | next, walker, global'⟩
  all_goals
    rw [result] at descended locals
    dsimp only at descended locals ⊢
  · exact descended.setServed locals valid
  · have written : (global'.setWalker id walker).walker id = walker := by
      rw [Global.walker_setWalker global' walker (locals ▸ valid), Function.update_self]
    refine ⟨descended.1.setServed locals valid, ?_⟩
    rw [written]
    exact descended.2

theorem advance_walker_of_ne (global : Global) {other : Nat} (distinct : other ≠ id) :
    (advance global id).2.walker other = global.walker other := by
  have locals := Local.descend_locals id (global.walker id) global
  unfold StateRes.advance
  rcases result : Local.descend id (global.walker id) global with ⟨next, walker, global'⟩
  rw [result] at locals
  dsimp only at locals ⊢
  rw [global'.setWalker_walker_of_ne walker distinct, Global.walker_congr locals]

/-- `process_fetch`: the fetched event is pushed with its auth events, or completed as dead
where the fetch failed, and the walker advances. -/
theorem Safe.processFetch (safe : Safe fetch conflictedSet global.walker (id ::ₘ hand) global)
    {eventId : EventId} (aims : Aims fetch conflictedSet (global.walker id) eventId) :
    Served fetch conflictedSet hand id (processFetch global id eventId (fetch eventId)) := by
  unfold StateRes.processFetch
  rcases fetched : fetch eventId with _ | authEvents
  · apply Safe.advance
    dsimp only
    rw [Global.walker_congr (completePending_locals .dead)]
    exact safe.completePending_dead eventId
  · apply Safe.advance
    have pushed := (safe.walkersOk id).push aims fetched
    exact (safe.update (Multiset.mem_cons_self id hand) pushed).setServed rfl safe.valid

/-- `resume`: a woken walker whose node joined the subgraph inserts its path, and advances. -/
theorem Safe.resume (safe : Safe fetch conflictedSet global.walker (id ::ₘ hand) global)
    {eventId : EventId} {result : Resolution}
    (aims : Aims fetch conflictedSet (global.walker id) eventId)
    (resolved : result = .subgraph → InConflictedSubgraph fetch conflictedSet eventId) :
    Served fetch conflictedSet hand id (resume global id eventId result) := by
  unfold StateRes.resume
  cases result with
  | dead => exact safe.advance
  | subgraph =>
      have inside := resolved rfl
      obtain ⟨_, _, last, conflicted, _, reaches, _⟩ := resolved rfl
      have start : Safe fetch conflictedSet (Function.update global.walker id (global.walker id))
          (id ::ₘ hand) global := by
        rwa [Function.update_eq_self]
      have inserted := start.insertPath aims conflicted reaches fun _ => inside
      apply Safe.advance
      exact inserted.setServed insertNodes_locals safe.valid

theorem resume_walker_of_ne (global : Global) (eventId : EventId) (result : Resolution)
    {other : Nat} (distinct : other ≠ id) :
    (resume global id eventId result).2.walker other = global.walker other := by
  unfold StateRes.resume
  rw [advance_walker_of_ne _ distinct]
  cases result with
  | dead => rfl
  | subgraph =>
      dsimp only [Local.insertPath]
      rw [Global.setWalker_walker_of_ne _ _ distinct, Global.walker_congr insertNodes_locals]

@[simp]
theorem launch_locals (width : Nat) (global : Global) (id : Nat) (next : Option EventId) :
    (launch width global id next).locals = global.locals := by
  unfold StateRes.launch
  split
  · rfl
  · split <;> rfl

/-- The first walker of a wake resumes and launches its next fetch: the others keep their
tickets and what they aim at. -/
theorem Safe.resumeOne (width : Nat) {eventId : EventId} {result : Resolution}
    (resolved : result = .subgraph → InConflictedSubgraph fetch conflictedSet eventId)
    {ids : List Nat}
    (safe : Safe fetch conflictedSet global.walker (↑(id :: ids) + hand) global)
    (aims : ∀ other ∈ id :: ids, Aims fetch conflictedSet (global.walker other) eventId) :
    Safe fetch conflictedSet
        (StateRes.launch width (StateRes.resume global id eventId result).2 id
          (StateRes.resume global id eventId result).1).walker
        (↑ids + hand)
        (StateRes.launch width (StateRes.resume global id eventId result).2 id
          (StateRes.resume global id eventId result).1) ∧
      ∀ other ∈ ids, Aims fetch conflictedSet
        ((StateRes.launch width (StateRes.resume global id eventId result).2 id
          (StateRes.resume global id eventId result).1).walker
          other) eventId := by
  have distinct : (id :: ids).Nodup :=
    Multiset.coe_nodup.mp (Multiset.nodup_add.mp (Multiset.nodup_add.mp safe.single).2.1).1
  rw [← Multiset.cons_coe, Multiset.cons_add] at safe
  have served := safe.resume (aims id List.mem_cons_self) resolved
  have others : ∀ other, other ≠ id →
      (StateRes.resume global id eventId result).2.walker other = global.walker other :=
    fun _ distinct => resume_walker_of_ne global eventId result distinct
  rcases resumed : StateRes.resume global id eventId result with ⟨next, global'⟩
  rw [resumed] at served others
  refine ⟨Safe.launch width served, fun other member => ?_⟩
  have unchanged : other ≠ id := fun same => (List.nodup_cons.mp distinct).1 (same ▸ member)
  rw [Global.walker_congr (launch_locals width global' id next), others other unchanged]
  exact aims other (List.mem_cons_of_mem id member)

/-- The walkers of a wake resume one after another, by induction on the list of them: each one's
ticket stays in hand until it resumes, and the others are left as they were. -/
theorem Safe.resumeWaiters (width : Nat) {eventId : EventId} {result : Resolution}
    (resolved : result = .subgraph → InConflictedSubgraph fetch conflictedSet eventId) :
    ∀ (ids : List Nat) (global : Global),
      Safe fetch conflictedSet global.walker (↑ids + hand) global →
      (∀ id ∈ ids, Aims fetch conflictedSet (global.walker id) eventId) →
      Safe fetch conflictedSet (resumeWaiters width eventId result ids global).walker hand
        (resumeWaiters width eventId result ids global)
  | [], global, safe, _ => by simpa [StateRes.resumeWaiters] using safe
  | id :: ids, global, safe, aims => by
      obtain ⟨resumed, aimed⟩ := Safe.resumeOne width resolved safe aims
      unfold StateRes.resumeWaiters
      rcases step : StateRes.resume global id eventId result with ⟨next, global'⟩
      rw [step] at resumed aimed
      exact Safe.resumeWaiters width resolved ids _ resumed aimed

/-- The wake on top of `ready` leaves it: its walkers' tickets go into hand. -/
theorem Safe.takeWake (safe : Safe fetch conflictedSet walkers hand global) {wake : Wake}
    {ready : List Wake} (popped : global.ready = wake :: ready) :
    Safe fetch conflictedSet walkers (↑wake.locals + hand) { global with ready } := by
  have tickets := Global.tickets_takeWake popped hand
  refine ⟨safe.conflicted, safe.sound, safe.emitted, safe.distinct, safe.walkersOk, safe.seeds,
    safe.fetching, safe.waiting, fun other member => safe.woken other ?_, tickets ▸ safe.single,
    tickets ▸ safe.bounded⟩
  rw [popped]
  exact List.mem_cons_of_mem wake member

/-- The drain of `ready`, by induction on it: each wake in turn resumes its walkers. -/
theorem Safe.drains {width : Nat} {final : Global} (drains : Drains width global final) :
    Safe fetch conflictedSet global.walker 0 global → Safe fetch conflictedSet final.walker 0 final := by
  induction drains with
  | done => exact id
  | @wake global final wake ready popped _ ih =>
      intro safe
      have woken := safe.woken wake (by rw [popped]; exact List.mem_cons_self)
      exact ih (Safe.resumeWaiters width woken.2 wake.locals _ (safe.takeWake popped) woken.1)

/-- A walker starts at the next seed as `Local::default`, with a fresh id and a fetch of the
seed. -/
theorem Safe.startSeed (safe : Safe fetch conflictedSet global.walker hand global) {seed : EventId}
    {inputs : List EventId} (next : global.inputs = seed :: inputs) :
    Safe fetch conflictedSet
      (Global.walker { global with
        locals := global.locals ++ [Local.default]
        todo := global.todo ++ [(global.locals.length, seed)]
        inputs })
      hand
      { global with
        locals := global.locals ++ [Local.default]
        todo := global.todo ++ [(global.locals.length, seed)]
        inputs } := by
  rw [Global.walker_of_append_default rfl]
  -- the fresh id is in hand first, then its fetch takes it into `todo`
  have fresh : global.locals.length ∉ global.tickets + hand := fun held =>
    lt_irrefl _ (safe.bounded _ held)
  have grown : Safe fetch conflictedSet global.walker (global.locals.length ::ₘ hand)
      { global with locals := global.locals ++ [Local.default], inputs } := by
    have tickets : global.tickets + global.locals.length ::ₘ hand =
        global.locals.length ::ₘ (global.tickets + hand) := Multiset.add_cons _ _ _
    refine ⟨safe.conflicted, safe.sound, safe.emitted, safe.distinct, safe.walkersOk,
      fun other member => safe.seeds other (by simp [next, member]), safe.fetching, safe.waiting,
      safe.woken, ?single, ?bounded⟩
    case single =>
      show (global.tickets + global.locals.length ::ₘ hand).Nodup
      rw [tickets]
      exact Multiset.nodup_cons.mpr ⟨fresh, safe.single⟩
    case bounded =>
      intro other member
      change other ∈ global.tickets + global.locals.length ::ₘ hand at member
      rw [tickets, Multiset.mem_cons] at member
      simp only [List.length_append, List.length_singleton]
      rcases member with rfl | held
      · exact Nat.lt_succ_self _
      · exact Nat.lt_succ_of_lt (safe.bounded other held)
  have aims : Aims fetch conflictedSet (global.walker global.locals.length) seed := by
    have seeded : seed ∈ conflictedSet := safe.seeds seed (by simp [next])
    simpa [Global.walker, Aims, Local.default] using seeded
  exact grown.addFetch aims (by simp)

/-- The first loop of a turn, by induction on it: the window takes deferred fetches, then seeds. -/
theorem Safe.fill (width : Nat) (global : Global) :
    Safe fetch conflictedSet global.walker hand global →
      Safe fetch conflictedSet (fill width global).walker hand (fill width global) := by
  fun_induction StateRes.fill width global with
  | case1 global _ id eventId deferred front ih => exact fun safe => ih (safe.shiftDeferred front)
  | case2 global _ _ seed inputs next ih => exact fun safe => ih (safe.startSeed next)
  | case3 => exact id
  | case4 => exact id

theorem refill_locals (width : Nat) (global : Global) :
    (refill width global).locals = global.locals := by
  fun_induction StateRes.refill width global with
  | case1 global _ id eventId deferred front ih => exact ih
  | case2 => rfl
  | case3 => rfl

theorem Safe.refill (width : Nat) (global : Global) :
    Safe fetch conflictedSet global.walker hand global →
      Safe fetch conflictedSet (refill width global).walker hand (refill width global) := by
  fun_induction StateRes.refill width global with
  | case1 global _ id eventId deferred front ih => exact fun safe => ih (safe.shiftDeferred front)
  | case2 => exact id
  | case3 => exact id

/-- The element at `pick` taken out of the front part of a list. -/
theorem perm_eraseIdx_append {α : Type*} {l r : List α} {pick : Nat} {x : α}
    (picked : l[pick]? = some x) : (l ++ r).Perm (x :: (l.eraseIdx pick ++ r)) := by
  obtain ⟨bound, found⟩ := List.getElem?_eq_some_iff.mp picked
  have front := List.getElem_cons_eraseIdx_perm bound
  rw [found] at front
  exact (front.append_right r).symm

/-- The first part of a turn: the window is filled, the fetch at `pick` leaves it with its
ticket into hand, and the window is refilled. -/
theorem Safe.pick (safe : Safe fetch conflictedSet global.walker 0 global) {width pick : Nat}
    {eventId : EventId} (picked : (StateRes.fill width global).todo[pick]? = some (id, eventId)) :
    Safe fetch conflictedSet
        (StateRes.refill width { StateRes.fill width global with
          todo := (StateRes.fill width global).todo.eraseIdx pick }).walker (id ::ₘ 0)
        (StateRes.refill width { StateRes.fill width global with
          todo := (StateRes.fill width global).todo.eraseIdx pick }) ∧
      Aims fetch conflictedSet
        ((StateRes.refill width { StateRes.fill width global with
          todo := (StateRes.fill width global).todo.eraseIdx pick }).walker id) eventId := by
  have filled := safe.fill width global
  obtain ⟨taken, aims⟩ := filled.takeFetch (perm_eraseIdx_append picked)
  refine ⟨Safe.refill width
    { StateRes.fill width global with todo := (StateRes.fill width global).todo.eraseIdx pick } taken,
    ?_⟩
  rw [Global.walker_congr (refill_locals width _)]
  exact aims

/-- A turn up to its drain: the fetch picked from the window completes and its walker is served. -/
theorem Safe.turnStart (safe : Safe fetch conflictedSet global.walker 0 global)
    {width pick : Nat} {started : Global}
    (start : turnStart fetch width pick global = some started) :
    Safe fetch conflictedSet started.walker 0 started := by
  unfold StateRes.turnStart at start
  rcases picked : (StateRes.fill width global).todo[pick]? with _ | ⟨id, eventId⟩
  all_goals simp only [picked] at start
  · cases start
  obtain ⟨refilled, aimed⟩ := safe.pick picked
  have served := refilled.processFetch aimed
  rcases processed : StateRes.processFetch (StateRes.refill width { StateRes.fill width global with
      todo := (StateRes.fill width global).todo.eraseIdx pick }) id eventId (fetch eventId) with
    ⟨next, global'⟩
  rw [processed] at start served
  cases start
  exact Safe.launch width served

/-- One turn of the unfold keeps the invariant. -/
theorem Safe.turn (safe : Safe fetch conflictedSet global.walker 0 global) {final : Global}
    (turn : Turn fetch global final) : Safe fetch conflictedSet final.walker 0 final := by
  obtain ⟨width, pick, start, drains⟩ := turn
  exact Safe.drains drains (safe.turnStart start)

end Turns

/-! ## Every run -/

/-- The table the unfold starts from holds `Conflicted` at the conflicted events and nothing
else. -/
theorem foldl_put_conflicted : ∀ (events : List EventId) (table : Table EventId Substate)
    (eventId : EventId) (state : Substate),
    (events.foldl (fun table eventId => table.put eventId .conflicted) table).get eventId =
      some state →
    table.get eventId = some state ∨ (state = .conflicted ∧ eventId ∈ events)
  | [], _, _, _, found => .inl found
  | event :: events, table, eventId, state, found => by
      rcases foldl_put_conflicted events _ eventId state found with earlier | later
      · rcases eq_or_ne eventId event with rfl | distinct
        · rw [Table.get_put_self, Option.some.injEq] at earlier
          exact .inr ⟨earlier.symm, List.mem_cons_self⟩
        · rw [Table.get_put_of_ne _ _ distinct] at earlier
          exact .inl earlier
      · exact .inr ⟨later.1, List.mem_cons_of_mem event later.2⟩

theorem Global.init_subgraph {conflictedSet : List EventId} {eventId : EventId} {state : Substate}
    (found : (Global.init conflictedSet).subgraph.get eventId = some state) :
    state = .conflicted ∧ eventId ∈ conflictedSet := by
  rcases foldl_put_conflicted conflictedSet Table.empty eventId state found with empty | seeded
  · simp [Table.get_empty] at empty
  · exact seeded

theorem Safe.init (conflictedSet : List EventId) :
    Safe fetch conflictedSet (Global.init conflictedSet).walker 0 (Global.init conflictedSet) where
  conflicted _ found := (Global.init_subgraph found).2
  sound _ found := absurd (Global.init_subgraph found).1 (by simp)
  emitted _ member := absurd member List.not_mem_nil
  distinct := List.nodup_nil
  walkersOk _ := by simpa [Global.walker, Global.init] using WalkerOk.default
  seeds _ member := member
  fetching _ _ member := by simp [Global.init] at member
  waiting _ _ found := by simp [Global.init] at found
  woken _ woken := absurd woken List.not_mem_nil
  single := by simp [Global.tickets, Global.init]
  bounded _ member := by simp [Global.tickets, Global.init] at member

theorem Safe.reachable {global : Global} (reachable : Reachable fetch conflictedSet global) :
    Safe fetch conflictedSet global.walker 0 global := by
  unfold Reachable at reachable
  induction reachable with
  | refl => exact Safe.init conflictedSet
  | tail _ turn safe => exact safe.turn turn

/-- Under any order of fetch completions and any window widths, the stream of
`conflicted_subgraph_dfs` yields no event twice, and every event it yields lies on an
`auth_events` path between two conflicted events. -/
theorem conflictedSubgraph_safe {global : Global} (reachable : Reachable fetch conflictedSet global) :
    global.outputs.Nodup ∧
      ∀ eventId ∈ global.outputs, InConflictedSubgraph fetch conflictedSet eventId := by
  have safe := Safe.reachable reachable
  exact ⟨safe.distinct, fun eventId member => safe.sound eventId (safe.emitted eventId member)⟩

/-! ## A run that parks a walker

Three conflicted events `$a`, `$b` and `$c`; `$b` and `$c` both have the auth event `$x`, which
has `$a`.  At width 3 the fetch of `$b` completes first, and its walker claims `$x`.  The fetch of
`$c` completes next, and its walker parks on `$x`.  The fetch of `$x` then reaches `$a`: the walk
yields `$b`, `$x` and `$a`, and wakes the parked walker, which yields `$c`.  Two last fetches of
`$a` end the walkers still out, and the stream ends. -/

/-- The auth events of the run. -/
def parkingAuthEvents (eventId : EventId) : Option (List EventId) :=
  if eventId = "$b" ∨ eventId = "$c" then some ["$x"]
  else if eventId = "$x" then some ["$a"] else some []

def parkingStart : Global := Global.init ["$a", "$b", "$c"]

/-- After the fetch of `$b`: walker 1 owns `$x` and fetches it. -/
def parkingFetching : Global :=
  { parkingStart with
    subgraph := parkingStart.subgraph.put "$x" (.pending 1)
    todo := [(0, "$a"), (2, "$c"), (1, "$x")]
    locals := [Local.default, ⟨["$b"], [[]], 0⟩, Local.default]
    inputs := [] }

/-- After the fetch of `$c`: walker 2 waits on `$x`. -/
def parkingParked : Global :=
  { parkingFetching with
    todo := [(0, "$a"), (1, "$x")]
    locals := [Local.default, ⟨["$b"], [[]], 0⟩, ⟨["$c"], [[]], 0⟩]
    waiters := AList.singleton "$x" [2]
    parked := 1 }

/-- After the fetch of `$x`, before the drain: the path from `$b` to `$a` is in the subgraph, and
the wake of `$x` is ready. -/
def parkingWaking : Global :=
  { parkingParked with
    subgraph := ((parkingParked.subgraph.put "$b" .subgraph).put "$x" .subgraph).put "$a" .subgraph
    todo := [(0, "$a"), (1, "$a")]
    locals := [Local.default, ⟨["$x", "$b"], [[], []], 2⟩, ⟨["$c"], [[]], 0⟩]
    waiters := parkingParked.waiters.erase "$x"
    ready := [⟨"$x", [2], .subgraph⟩]
    parked := 0
    outputs := ["$b", "$x", "$a"] }

/-- After the drain: walker 2 has joined its path to `$x` and is done. -/
def parkingJoined : Global :=
  { parkingWaking with
    subgraph := parkingWaking.subgraph.put "$c" .subgraph
    locals := [Local.default, ⟨["$x", "$b"], [[], []], 2⟩, Local.default]
    ready := []
    outputs := ["$b", "$x", "$a", "$c"] }

def parkingClosing : Global := { parkingJoined with todo := [(1, "$a")] }

def parkingDone : Global :=
  { parkingJoined with
    todo := []
    locals := [Local.default, Local.default, Local.default] }

theorem parkingStart_turn : Turn parkingAuthEvents parkingStart parkingFetching := by
  refine Turn.mk 3 1 ?_ (Drains.done rfl)
  -- the first loop starts the three walkers
  unfold turnStart
  rw [fill]
  simp [parkingStart, Global.init]
  rw [fill]
  simp
  rw [fill]
  simp
  rw [fill_of_idle _ _ rfl rfl, refill_of_idle _ _ rfl]
  simp [processFetch, parkingAuthEvents, advance, Global.walker, Global.setWalker, Local.default]
  rw [Local.descend_eq]
  simp [Local.pop, dropExhausted, Local.eval]
  simp [launch, parkingFetching, parkingStart, Global.init, Local.default]

theorem parkingFetching_turn : Turn parkingAuthEvents parkingFetching parkingParked := by
  refine Turn.mk 3 1 ?_ (Drains.done rfl)
  unfold turnStart
  rw [fill_of_idle 3 parkingFetching rfl rfl]
  simp [parkingFetching, parkingStart, Global.init]
  rw [refill_of_idle _ _ rfl]
  simp [processFetch, parkingAuthEvents, advance, Global.walker, Global.setWalker, Local.default]
  rw [Local.descend_eq]
  simp [Local.pop, dropExhausted, Local.eval]
  simp [launch, parkingParked, parkingFetching, parkingStart, Global.init, Local.default]

theorem parkingParked_turnStart :
    turnStart parkingAuthEvents 3 1 parkingParked = some parkingWaking := by
  unfold turnStart
  rw [fill_of_idle 3 parkingParked rfl rfl]
  simp [parkingParked, parkingFetching, parkingStart, Global.init]
  rw [refill_of_idle _ _ rfl]
  simp [processFetch, parkingAuthEvents, advance, Global.walker, Global.setWalker, Local.default]
  rw [Local.descend_eq]
  simp [Local.pop, dropExhausted, Local.eval, Local.insertPath, insertNodes, insertPathFilter,
    wakeWaiters, AList.lookup, AList.singleton_entries]
  simp [launch, parkingWaking, parkingParked, parkingFetching, parkingStart, Global.init,
    Local.default]

theorem parkingWaking_resume :
    resumeWaiters 3 "$x" .subgraph [2] { parkingWaking with ready := [] } = parkingJoined := by
  simp [resumeWaiters, resume, Global.walker, Global.setWalker, Local.insertPath, parkingWaking,
    insertNodes, insertPathFilter, advance, parkingParked, parkingFetching, parkingStart,
    Global.init]
  rw [Local.descend_eq]
  simp [Local.pop, dropExhausted, completePending]
  simp [launch, parkingJoined, parkingWaking, parkingParked, parkingFetching, parkingStart,
    Global.init, Local.default]

theorem parkingParked_turn : Turn parkingAuthEvents parkingParked parkingJoined := by
  refine Turn.mk 3 1 parkingParked_turnStart (Drains.wake rfl ?_)
  rw [parkingWaking_resume]
  exact Drains.done rfl

-- the last two turns each end a walker at `$a`, which the walk has yielded
theorem parkingJoined_turn : Turn parkingAuthEvents parkingJoined parkingClosing := by
  refine Turn.mk 3 0 ?_ (Drains.done rfl)
  unfold turnStart
  rw [fill_of_idle 3 parkingJoined rfl rfl]
  simp [parkingJoined, parkingWaking, parkingParked, parkingFetching, parkingStart, Global.init]
  rw [refill_of_idle _ _ rfl]
  simp [processFetch, parkingAuthEvents, advance, Global.walker, Global.setWalker, Local.default]
  rw [Local.descend_eq]
  simp [Local.pop, dropExhausted, completePending]
  simp [launch, parkingClosing, parkingJoined, parkingWaking, parkingParked, parkingFetching,
    parkingStart, Global.init, Local.default]

theorem parkingClosing_turn : Turn parkingAuthEvents parkingClosing parkingDone := by
  refine Turn.mk 3 0 ?_ (Drains.done rfl)
  unfold turnStart
  rw [fill_of_idle 3 parkingClosing rfl rfl]
  simp [parkingClosing, parkingJoined, parkingWaking, parkingParked, parkingFetching, parkingStart,
    Global.init]
  rw [refill_of_idle _ _ rfl]
  simp [processFetch, parkingAuthEvents, advance, Global.walker, Global.setWalker, Local.default]
  rw [Local.descend_eq]
  simp [Local.pop, dropExhausted, completePending]
  simp [launch, parkingDone, parkingJoined, parkingWaking, parkingParked, parkingFetching,
    parkingStart, Global.init, Local.default]

theorem parkingParked_reachable :
    Reachable parkingAuthEvents ["$a", "$b", "$c"] parkingParked :=
  (Relation.ReflTransGen.single parkingStart_turn).tail parkingFetching_turn

theorem parkingDone_reachable : Reachable parkingAuthEvents ["$a", "$b", "$c"] parkingDone :=
  ((parkingParked_reachable.tail parkingParked_turn).tail parkingJoined_turn).tail
    parkingClosing_turn

/-- The run's stream yields `$b`, `$x`, `$a` and `$c`, each once and each in the subgraph. -/
theorem parkingRun_safe :
    parkingDone.outputs = ["$b", "$x", "$a", "$c"] ∧ (parkingDone.outputs.Nodup ∧
      ∀ eventId ∈ parkingDone.outputs,
        InConflictedSubgraph parkingAuthEvents ["$a", "$b", "$c"] eventId) :=
  ⟨rfl, conflictedSubgraph_safe parkingDone_reachable⟩

end StateRes
end Tuwunel
