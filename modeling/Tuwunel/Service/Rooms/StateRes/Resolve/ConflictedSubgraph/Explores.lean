import Mathlib
import Tuwunel.Library.DepthFirst
import Tuwunel.Service.Rooms.StateRes.Resolve.ConflictedSubgraph.Safety
import Tuwunel.Service.Rooms.StateRes.Resolve.ConflictedSubgraph.Quiescence

/-!
# What the walk has explored

The half of the walk's correctness that `Safe` leaves open: on an auth graph with no infinite
descending chain, every event of the conflicted subgraph is yielded by the time the stream ends.
The argument is the invariant of a depth-first search (`Explores`).

A walker's path is a stack of levels.  Each auth event of a level's node is still in the level's
frame, done with (`Handled`: `Dead`, or in the subgraph with the node), or the one the walker is
on: for a node below the top, the node above it; for the top, one the walker holds a ticket for
or is being served on.  A node is marked `Dead` only when its frame has run out with every auth
event done with, so nothing conflicted is reachable from a `Dead` node.  Every conflicted or
subgraph node has been explored, or is still to be: not started, on a path, or fetched.
-/

namespace Tuwunel
namespace StateRes

open KeyValue

variable (fetch : EventId → Option (List EventId)) (conflictedSet : List EventId)

/-- Some conflicted event is reachable along `auth_events` edges. -/
def ReachesConflicted (eventId : EventId) : Prop :=
  DepthFirst.Leads (AuthEdge fetch) {last | last ∈ conflictedSet} eventId

/-- An auth event of `node` done with: it is `Dead`, or it and `node` are in the subgraph. -/
def Handled (global : Global) (node auth : EventId) : Prop :=
  global.subgraph.get auth = some .dead ∨
    global.subgraph.get auth = some .subgraph ∧ global.subgraph.get node = some .subgraph

/-- Every auth event of `node` is done with. -/
def Explored (global : Global) (node : EventId) : Prop :=
  ∀ authEvents, fetch node = some authEvents → ∀ auth ∈ authEvents, Handled global node auth

/-- The levels of a descent, top first: each node on the path has been fetched, and each of its
auth events is still in the node's frame, done with, or the one the walker is on: for the top
node one `except` allows, for a node below the top the node above it.  The path and the stack
have a level each. -/
def Levels (global : Global) : (EventId → Prop) → List EventId → List (List EventId) → Prop
  | _, [], [] => True
  | except, node :: path, frame :: stack =>
      (∃ authEvents, fetch node = some authEvents ∧
        ∀ auth ∈ authEvents, auth ∈ frame ∨ Handled global node auth ∨ except auth) ∧
      Levels global (· = node) path stack
  | _, _, _ => False

/-- Walker `id` holds a ticket for `eventId`: a fetch of it out, a place among its waiters, or a
place in a wake of it. -/
def Ticketed (global : Global) (flights : List (Nat × EventId)) (id : Nat) (eventId : EventId) :
    Prop :=
  (id, eventId) ∈ global.fetches flights ∨
    (∃ ids, global.waiters.lookup eventId = some ids ∧ id ∈ ids) ∨
    ∃ wake ∈ global.ready, wake.eventId = eventId ∧ id ∈ wake.locals

/-- Node states only move on: a `Dead` node and a `Subgraph` node keep their state, and a
`Conflicted` node can only join the subgraph. -/
def Progress (before after : Global) : Prop :=
  ∀ eventId, (before.subgraph.get eventId = some .dead → after.subgraph.get eventId = some .dead) ∧
    (before.subgraph.get eventId = some .subgraph → after.subgraph.get eventId = some .subgraph) ∧
    (before.subgraph.get eventId = some .conflicted →
      after.subgraph.get eventId = some .conflicted ∨ after.subgraph.get eventId = some .subgraph)

/-- What a step of walker `id` leaves of the others: node states move on, and a node another
walker owns stays its `Pending` node. -/
structure Spares (id : Nat) (before after : Global) : Prop where
  progress : Progress before after
  owned : ∀ eventId owner, owner ≠ id → before.subgraph.get eventId = some (.pending owner) →
    after.subgraph.get eventId = some (.pending owner)

/-- What holds of the descent of walker `id`, for `except` the auth events of its top node it is
still to come back to: its levels; the path climbs into the subgraph, so that below a `Subgraph`
node there is only the subgraph; the `marked` bottom of the path is in the subgraph; each node
above the seed is the walker's own `Pending` node or in the subgraph; and the seed is
conflicted. -/
structure Descent (global : Global) (id : Nat) (except : EventId → Prop) (walker : Local) :
    Prop where
  levels : Levels fetch global except walker.path walker.stack
  climbs : walker.path.IsChain fun above below =>
    global.subgraph.get above = some .subgraph → global.subgraph.get below = some .subgraph
  bounded : walker.marked ≤ walker.path.length
  markedIn : ∀ eventId ∈ walker.path.drop (walker.path.length - walker.marked),
    global.subgraph.get eventId = some .subgraph
  live : ∀ eventId ∈ walker.path.dropLast,
    global.subgraph.get eventId = some (.pending id) ∨ global.subgraph.get eventId = some .subgraph
  seeded : ∀ seed, walker.path.getLast? = some seed → seed ∈ conflictedSet

/-- Where a fetch out by walker `id` may lead: from an empty path to a conflicted seed, and
otherwise to the walker's own `Pending` node, or to a node of the subgraph with the top node in
it. -/
def Aimed (global : Global) (id : Nat) (walker : Local) (eventId : EventId) : Prop :=
  match walker.path with
  | [] => eventId ∈ conflictedSet
  | top :: _ => global.subgraph.get eventId = some (.pending id) ∨
      global.subgraph.get eventId = some .subgraph ∧ global.subgraph.get top = some .subgraph

/-- Nothing conflicted is reachable from a `Dead` node. -/
def DeadEnds (global : Global) : Prop :=
  ∀ eventId, global.subgraph.get eventId = some .dead → ¬ ReachesConflicted fetch conflictedSet eventId

/-- Each conflicted event is `Conflicted` or in the subgraph. -/
def Members (global : Global) : Prop :=
  ∀ eventId ∈ conflictedSet, global.subgraph.get eventId = some .conflicted ∨
    global.subgraph.get eventId = some .subgraph

/-- A node explored, or still to be: a seed not started, on a path, or fetched. -/
def Covered (walkers : Nat → Local) (flights : List (Nat × EventId)) (global : Global)
    (eventId : EventId) : Prop :=
  Explored fetch global eventId ∨ eventId ∈ global.inputs ∨ (∃ id, eventId ∈ (walkers id).path) ∨
    ∃ id, (id, eventId) ∈ global.fetches flights

/-- Each wake in `ready` reports the state its node is in. -/
def Woken (global : Global) : Prop :=
  ∀ wake ∈ global.ready, global.subgraph.get wake.eventId = some wake.result.substate

/-- Each node of the subgraph has been yielded. -/
def Emitted (global : Global) : Prop :=
  ∀ eventId, global.subgraph.get eventId = some .subgraph → eventId ∈ global.outputs

/-- What holds of the shared state between the steps of the walk, for the walkers `walkers`,
`except` the auth events each walker's top node is still to come back to, and `flights` the
fetches walkers in hand have out, as in `Owned`.  `Dead` nodes reach no conflicted event.  A
conflicted or subgraph node is explored, or is still to be: a seed not started, on a path, or
fetched.  A wake's node is in the state the wake reports, and a subgraph node has been yielded. -/
structure Explores (walkers : Nat → Local) (except : Nat → EventId → Prop)
    (flights : List (Nat × EventId)) (global : Global) : Prop where
  descents : ∀ id, Descent fetch conflictedSet global id (except id) (walkers id)
  aimed : ∀ id eventId, (id, eventId) ∈ global.fetches flights →
    Aimed conflictedSet global id (walkers id) eventId
  dead : DeadEnds fetch conflictedSet global
  members : Members conflictedSet global
  woken : Woken global
  explored : ∀ eventId, eventId ∈ conflictedSet ∨ global.subgraph.get eventId = some .subgraph →
    Covered fetch walkers flights global eventId
  emitted : Emitted global

/-- Each exception is a ticket: what a walker's top node is to come back to, the walker holds a
fetch, a place among waiters or a place in a wake for. -/
def Justified (except : Nat → EventId → Prop) (global : Global) (flights : List (Nat × EventId)) :
    Prop :=
  ∀ id auth, except id auth → Ticketed global flights id auth

variable {fetch conflictedSet}

/-! ## Node states moving on -/

section Progress

variable {global global' global'' : Global} {node auth : EventId}

theorem Progress.refl (global : Global) : Progress global global :=
  fun _ => ⟨id, id, .inl⟩

theorem Progress.trans (first : Progress global global') (second : Progress global' global'') :
    Progress global global'' := by
  intro eventId
  obtain ⟨dead, inside, conflicted⟩ := first eventId
  obtain ⟨dead', inside', conflicted'⟩ := second eventId
  refine ⟨fun marked => dead' (dead marked), fun marked => inside' (inside marked),
    fun marked => ?_⟩
  rcases conflicted marked with kept | joined
  · exact conflicted' kept
  · exact .inr (inside' joined)

/-- With its node states unchanged, the shared state makes progress. -/
theorem Progress.of_subgraph (same : global'.subgraph = global.subgraph) : Progress global global' :=
  fun eventId => by simpa only [same] using Progress.refl global eventId

theorem Handled.progress (handled : Handled global node auth) (progress : Progress global global') :
    Handled global' node auth := by
  rcases handled with dead | ⟨inside, parent⟩
  · exact .inl ((progress auth).1 dead)
  · exact .inr ⟨(progress auth).2.1 inside, (progress node).2.1 parent⟩

theorem Explored.progress (explored : Explored fetch global node) (progress : Progress global global') :
    Explored fetch global' node :=
  fun authEvents fetched auth member => (explored authEvents fetched auth member).progress progress

/-- The levels keep as node states move on, with the exceptions at the top turned into others or
done with. -/
theorem Levels.mono (progress : Progress global global') :
    ∀ {except except' : EventId → Prop} {path : List EventId} {stack : List (List EventId)},
      Levels fetch global except path stack →
      (∀ top ∈ path.head?, ∀ auth, except auth → except' auth ∨ Handled global' top auth) →
      Levels fetch global' except' path stack
  | _, _, [], [], _, _ => trivial
  | except, except', node :: path, frame :: stack, ⟨⟨authEvents, fetched, each⟩, below⟩, moved => by
      refine ⟨⟨authEvents, fetched, fun auth member => ?_⟩,
        Levels.mono progress below fun _ _ _ same => .inl same⟩
      rcases each auth member with inFrame | handled | excepted
      · exact .inl inFrame
      · exact .inr (.inl (handled.progress progress))
      · rcases moved node rfl auth excepted with kept | handled
        · exact .inr (.inr kept)
        · exact .inr (.inl handled)
  | _, _, [], _ :: _, levels, _ => levels.elim
  | _, _, _ :: _, [], levels, _ => levels.elim

theorem Levels.length_eq :
    ∀ {except : EventId → Prop} {path : List EventId} {stack : List (List EventId)},
      Levels fetch global except path stack → path.length = stack.length
  | _, [], [], _ => rfl
  | _, _ :: _, _ :: _, ⟨_, below⟩ => by simp [Levels.length_eq below]
  | _, [], _ :: _, levels => levels.elim
  | _, _ :: _, [], levels => levels.elim

end Progress

/-! ## Tickets kept -/

section Tickets

variable {global : Global} {flights : List (Nat × EventId)} {id : Nat} {eventId : EventId}

theorem Ticketed.wakeWaiters (ticketed : Ticketed global flights id eventId) (node : EventId)
    (result : Resolution) : Ticketed (wakeWaiters global node result) flights id eventId := by
  rcases found : global.waiters.lookup node with _ | ids
  · rwa [wakeWaiters_of_lookup_none result found]
  rw [wakeWaiters_of_lookup result found]
  rcases ticketed with fetching | ⟨others, stored, member⟩ | ⟨wake, woken, same, member⟩
  · exact .inl fetching
  · by_cases here : eventId = node
    · subst here
      rw [found, Option.some.injEq] at stored
      subst stored
      exact .inr (.inr ⟨⟨eventId, ids, result⟩, List.mem_cons_self, rfl, member⟩)
    · exact .inr (.inl ⟨others, by rwa [AList.lookup_erase_ne here], member⟩)
  · exact .inr (.inr ⟨wake, List.mem_cons_of_mem _ woken, same, member⟩)

theorem Ticketed.completePending (ticketed : Ticketed global flights id eventId) (node : EventId)
    (result : Resolution) : Ticketed (completePending global node result) flights id eventId := by
  unfold StateRes.completePending
  split
  · apply Ticketed.wakeWaiters
    exact ticketed
  · exact ticketed

end Tickets

/-! ## What resolving and `insert_path` do to the shared state -/

section Insert

variable {global : Global} {flights : List (Nat × EventId)} {id : Nat} {eventId : EventId}

/-- `complete_pending` moves a `Pending` node to its result, and no other node. -/
theorem completePending_get_of_pending {owner : Nat}
    (pending : global.subgraph.get eventId = some (.pending owner)) (result : Resolution) :
    (completePending global eventId result).subgraph.get eventId = some result.substate := by
  simp [StateRes.completePending, pending]

theorem completePending_of_settled (unsettled : ∀ owner, global.subgraph.get eventId ≠ some (.pending owner))
    (result : Resolution) : completePending global eventId result = global := by
  unfold StateRes.completePending
  split
  case h_1 owner pending => exact absurd pending (unsettled owner)
  case h_2 => rfl

theorem completePending_get_of_ne (result : Resolution) {other : EventId} (distinct : other ≠ eventId) :
    (completePending global eventId result).subgraph.get other = global.subgraph.get other := by
  unfold StateRes.completePending
  split
  · rw [wakeWaiters_subgraph, Table.get_put_of_ne _ _ distinct]
  · rfl

/-- `insert_path_filter` puts its node in the subgraph, and no other node changes. -/
theorem insertPathFilter_get (global : Global) (eventId other : EventId) :
    (StateRes.insertPathFilter global eventId).2.subgraph.get other =
      if other = eventId then some .subgraph else global.subgraph.get other := by
  unfold StateRes.insertPathFilter
  split
  case h_2 marked =>
    split_ifs with same
    · rw [same]
      exact marked
    · rfl
  all_goals simp only [wakeWaiters_subgraph, Table.get_put]

/-- The filter keeps out only a node already in the subgraph. -/
theorem subgraph_of_insertPathFilter (skipped : (StateRes.insertPathFilter global eventId).1 = false) :
    global.subgraph.get eventId = some .subgraph := by
  unfold StateRes.insertPathFilter at skipped
  split at skipped
  case h_2 marked => exact marked
  all_goals simp at skipped

theorem insertNodes_get : ∀ (nodes : List EventId) (global : Global) (other : EventId),
    (StateRes.insertNodes nodes global).subgraph.get other =
      if other ∈ nodes then some .subgraph else global.subgraph.get other
  | [], _, _ => by simp [StateRes.insertNodes]
  | eventId :: nodes, global, other => by
      have filtered := insertPathFilter_get global eventId other
      unfold StateRes.insertNodes
      rcases filter : StateRes.insertPathFilter global eventId with ⟨_ | _, after⟩
      all_goals
        rw [filter] at filtered
        rw [insertNodes_get nodes _ other]
        dsimp only at filtered ⊢
        rw [filtered]
        by_cases later : other ∈ nodes
        · simp [later]
        · by_cases here : other = eventId
          · simp [here]
          · simp [later, here]

theorem Ticketed.insertPathFilter (ticketed : Ticketed global flights id eventId) (node : EventId) :
    Ticketed (StateRes.insertPathFilter global node).2 flights id eventId := by
  unfold StateRes.insertPathFilter
  split
  case h_3 =>
    apply Ticketed.wakeWaiters
    exact ticketed
  all_goals exact ticketed

theorem Ticketed.insertNodes : ∀ (nodes : List EventId) {global : Global},
    Ticketed global flights id eventId →
      Ticketed (StateRes.insertNodes nodes global) flights id eventId
  | [], _, ticketed => ticketed
  | node :: nodes, global, ticketed => by
      have filtered := ticketed.insertPathFilter node
      unfold StateRes.insertNodes
      rcases filter : StateRes.insertPathFilter global node with ⟨_ | _, after⟩
      all_goals rw [filter] at filtered
      · exact Ticketed.insertNodes nodes filtered
      · exact Ticketed.insertNodes nodes filtered

/-- `insert_path` yields each node it lets in: every node it is given ends up yielded, unless it
was in the subgraph before. -/
theorem insertNodes_outputs : ∀ (nodes : List EventId) (global : Global) (other : EventId),
    other ∈ global.outputs ∨ other ∈ nodes ∧ global.subgraph.get other ≠ some .subgraph →
      other ∈ (StateRes.insertNodes nodes global).outputs
  | [], _, _, given => by
      rcases given with yielded | ⟨member, _⟩
      · exact yielded
      · exact absurd member List.not_mem_nil
  | eventId :: nodes, global, other, given => by
      have marked := insertPathFilter_get global eventId other
      have outputs : (StateRes.insertPathFilter global eventId).2.outputs = global.outputs :=
        insertPathFilter_outputs
      unfold StateRes.insertNodes
      rcases filter : StateRes.insertPathFilter global eventId with ⟨_ | _, after⟩
      all_goals
        rw [filter] at marked outputs
        dsimp only at marked outputs
      · have inside : global.subgraph.get eventId = some .subgraph :=
          subgraph_of_insertPathFilter (by rw [filter])
        refine insertNodes_outputs nodes after other ?_
        rcases given with yielded | ⟨member, fresh⟩
        · exact .inl (outputs ▸ yielded)
        · rcases List.mem_cons.mp member with rfl | later
          · exact absurd inside fresh
          · refine .inr ⟨later, ?_⟩
            rw [marked]
            split_ifs with same
            · exact absurd (same ▸ inside) fresh
            · exact fresh
      · refine insertNodes_outputs nodes _ other ?_
        rcases given with yielded | ⟨member, fresh⟩
        · exact .inl (List.mem_append_left _ (outputs ▸ yielded))
        · rcases List.mem_cons.mp member with rfl | later
          · exact .inl (List.mem_append_right _ (List.mem_singleton_self _))
          · by_cases same : other = eventId
            · exact .inl (List.mem_append_right _ (by simp [same]))
            · refine .inr ⟨later, ?_⟩
              show after.subgraph.get other ≠ some .subgraph
              rw [marked, if_neg same]
              exact fresh

end Insert

/-! ## Steps that spare the other walkers -/

/-- A node walker `id` may move on: not `Dead`, and not another walker's `Pending` node. -/
def Movable (global : Global) (id : Nat) (eventId : EventId) : Prop :=
  global.subgraph.get eventId ≠ some .dead ∧
    ∀ owner, global.subgraph.get eventId = some (.pending owner) → owner = id

section Spares

variable {global global' global'' : Global} {id : Nat} {eventId : EventId}

theorem Spares.refl (id : Nat) (global : Global) : Spares id global global :=
  ⟨Progress.refl global, fun _ _ _ pending => pending⟩

theorem Spares.trans (first : Spares id global global') (second : Spares id global' global'') :
    Spares id global global'' :=
  ⟨first.progress.trans second.progress, fun eventId owner other pending =>
    second.owned eventId owner other (first.owned eventId owner other pending)⟩

theorem Spares.of_subgraph (same : global'.subgraph = global.subgraph) : Spares id global global' :=
  ⟨Progress.of_subgraph same, fun _ _ _ pending => by rwa [same]⟩

/-- A node that is unmarked or the walker's own takes any state, and a `Conflicted` node joins
the subgraph. -/
theorem Spares.put {state : Substate}
    (movable : global.subgraph.get eventId = none ∨ global.subgraph.get eventId = some (.pending id) ∨
      global.subgraph.get eventId = some .conflicted ∧ state = .subgraph) :
    Spares id global { global with subgraph := global.subgraph.put eventId state } := by
  refine ⟨fun other => ?_, fun other owner distinct pending => ?_⟩
  · by_cases same : other = eventId
    · subst same
      simp only [Table.get_put_self]
      rcases movable with unmarked | own | ⟨conflicted, joined⟩
      · simp [unmarked]
      · simp [own]
      · simp [conflicted, joined]
    · simp only [Table.get_put_of_ne _ _ same]
      exact Progress.refl global other
  · have moved : other ≠ eventId := by
      rintro rfl
      rcases movable with unmarked | own | ⟨conflicted, _⟩
      · simp [unmarked] at pending
      · rw [own, Option.some.injEq, Substate.pending.injEq] at pending
        exact distinct pending.symm
      · simp [conflicted] at pending
    rwa [Table.get_put_of_ne _ _ moved]

theorem Spares.completePending (own : ∀ owner, global.subgraph.get eventId = some (.pending owner) →
    owner = id) (result : Resolution) : Spares id global (completePending global eventId result) := by
  unfold StateRes.completePending
  split
  case h_1 owner pending =>
    refine (Spares.put (.inr (.inl ?_))).trans (Spares.of_subgraph (wakeWaiters_subgraph result))
    rw [pending, own owner pending]
  case h_2 => exact Spares.refl id global

theorem Spares.insertPathFilter (movable : Movable global id eventId) :
    Spares id global (StateRes.insertPathFilter global eventId).2 := by
  obtain ⟨alive, own⟩ := movable
  unfold StateRes.insertPathFilter
  split
  case h_1 unmarked => exact Spares.put (.inl unmarked)
  case h_2 => exact Spares.refl id global
  case h_3 owner pending =>
    refine (Spares.put (.inr (.inl ?_))).trans (Spares.of_subgraph (wakeWaiters_subgraph _))
    rw [pending, own owner pending]
  case h_4 state marked unsettled found =>
    refine Spares.put (.inr (.inr ⟨?_, rfl⟩))
    cases state with
    | conflicted => exact found
    | pending owner => exact absurd rfl (unsettled owner)
    | dead => exact absurd found alive
    | subgraph => exact absurd rfl marked

/-- `insert_path`'s filter over nodes the walker may move on. -/
theorem Spares.insertNodes : ∀ (nodes : List EventId) {global : Global},
    (∀ node ∈ nodes, Movable global id node) → Spares id global (StateRes.insertNodes nodes global)
  | [], global, _ => Spares.refl id global
  | node :: nodes, global, movable => by
      have first := Spares.insertPathFilter (movable node List.mem_cons_self)
      -- the filter moves its own node only, so the rest stay movable
      have rest : ∀ other ∈ nodes, Movable (StateRes.insertPathFilter global node).2 id other := by
        intro other member
        obtain ⟨alive, own⟩ := movable other (List.mem_cons_of_mem _ member)
        rw [Movable, insertPathFilter_get]
        split_ifs
        · simp
        · exact ⟨alive, own⟩
      unfold StateRes.insertNodes
      rcases filter : StateRes.insertPathFilter global node with ⟨_ | _, after⟩
      all_goals rw [filter] at first rest
      · exact first.trans (Spares.insertNodes nodes rest)
      · have yielded : Spares id after { after with outputs := after.outputs ++ [node] } :=
          Spares.of_subgraph rfl
        exact first.trans (yielded.trans (Spares.insertNodes nodes rest))

end Spares

/-! ## One walker's descent under the others' steps -/

section Others

variable {global global' : Global} {id other : Nat} {except except' : EventId → Prop}
  {walker : Local}

/-- Another walker's step leaves a walker's descent as it was, with the auth events its top node
is to come back to kept or done with. -/
theorem Descent.spare (descent : Descent fetch conflictedSet global id except walker)
    (spares : Spares other global global') (distinct : id ≠ other)
    (moved : ∀ top ∈ walker.path.head?, ∀ auth, except auth → except' auth ∨ Handled global' top auth) :
    Descent fetch conflictedSet global' id except' walker := by
  -- the other walker can put none of this walker's own nodes in the subgraph
  have kept : ∀ eventId, global.subgraph.get eventId = some (.pending id) →
      global'.subgraph.get eventId = some (.pending id) :=
    fun eventId pending => spares.owned eventId id distinct pending
  refine ⟨descent.levels.mono spares.progress moved, ?_, descent.bounded,
    fun eventId member => (spares.progress eventId).2.1 (descent.markedIn eventId member),
    fun eventId member => ?_, descent.seeded⟩
  · refine DepthFirst.isChain_of_dropLast descent.climbs fun above below member climbs joined => ?_
    rcases descent.live above member with own | inside
    · rw [kept above own] at joined
      cases joined
    · exact (spares.progress below).2.1 (climbs inside)
  · rcases descent.live eventId member with own | inside
    · exact .inl (kept eventId own)
    · exact .inr ((spares.progress eventId).2.1 inside)

end Others


/-! ## The walker in hand -/

section Own

variable {global global' : Global} {id : Nat} {except except' : EventId → Prop} {walker : Local}
  {eventId : EventId}

/-- A step of the walker's own that leaves the states of its path's nodes as they were. -/
theorem Descent.stable (descent : Descent fetch conflictedSet global id except walker)
    (progress : Progress global global')
    (same : ∀ node ∈ walker.path, global'.subgraph.get node = global.subgraph.get node)
    (moved : ∀ top ∈ walker.path.head?, ∀ auth, except auth → except' auth ∨ Handled global' top auth) :
    Descent fetch conflictedSet global' id except' walker := by
  refine ⟨descent.levels.mono progress moved, ?_, descent.bounded, fun node member => ?_,
    fun node member => ?_, descent.seeded⟩
  · refine DepthFirst.isChain_of_dropLast descent.climbs fun above below member climbs joined => ?_
    rw [same above (List.mem_of_mem_dropLast member)] at joined
    exact (progress below).2.1 (climbs joined)
  · rw [same node (List.mem_of_mem_drop member)]
    exact descent.markedIn node member
  · rw [same node (List.mem_of_mem_dropLast member)]
    exact descent.live node member

/-- The descent below the top node, which the node below comes back to. -/
theorem Descent.tail {top : EventId} {path : List EventId} {frame : List EventId}
    {frames : List (List EventId)} {marked : Nat}
    (descent : Descent fetch conflictedSet global id except ⟨top :: path, frame :: frames, marked⟩) :
    Descent fetch conflictedSet global id (· = top) ⟨path, frames, min marked path.length⟩ := by
  have bounded : marked ≤ path.length + 1 := descent.bounded
  refine ⟨descent.levels.2, descent.climbs.tail, min_le_right _ _, fun node member => ?_,
    fun node member => descent.live node ?_, fun seed bottom => descent.seeded seed ?_⟩
  · -- the marked bottom of the rest lies in the marked bottom of the whole path
    apply descent.markedIn node
    dsimp only at member ⊢
    rw [show path.length - min marked path.length = path.length - marked by omega] at member
    rw [List.length_cons]
    by_cases below : marked ≤ path.length
    · rwa [show path.length + 1 - marked = (path.length - marked) + 1 by omega, List.drop_succ_cons]
    · rw [show path.length + 1 - marked = 0 by omega, List.drop_zero]
      exact List.mem_cons_of_mem _ (List.mem_of_mem_drop member)
  · cases path with
    | nil => simp at member
    | cons next rest => exact List.mem_cons_of_mem _ member
  · cases path with
    | nil => simp at bottom
    | cons next rest => rwa [List.getLast?_cons_cons]

/-- `process_fetch`'s push: the fetched event joins the top of the path with its auth events as
its frame, and the node below comes back to it. -/
theorem Descent.push (descent : Descent fetch conflictedSet global id (· = eventId) walker)
    {authEvents : List EventId} (fetched : fetch eventId = some authEvents)
    (aimed : Aimed conflictedSet global id walker eventId) (except' : EventId → Prop) :
    Descent fetch conflictedSet global id except'
      { walker with path := eventId :: walker.path, stack := authEvents.reverse :: walker.stack } := by
  have bounded := descent.bounded
  have levels : Levels fetch global except' (eventId :: walker.path)
      (authEvents.reverse :: walker.stack) :=
    ⟨⟨authEvents, fetched, fun auth member => .inl (List.mem_reverse.mpr member)⟩, descent.levels⟩
  have markedIn : ∀ node ∈ (eventId :: walker.path).drop
      ((eventId :: walker.path).length - walker.marked), global.subgraph.get node = some .subgraph := by
    intro node member
    apply descent.markedIn node
    rwa [List.length_cons, show walker.path.length + 1 - walker.marked =
      (walker.path.length - walker.marked) + 1 by omega, List.drop_succ_cons] at member
  unfold Aimed at aimed
  rcases path : walker.path with _ | ⟨top, rest⟩
  all_goals rw [path] at aimed markedIn levels
  · -- a seed fetched from an empty path starts it
    refine ⟨levels, .singleton _, ?_, markedIn, fun node member => by simp at member, ?_⟩
    · rw [path] at bounded
      simp only [List.length_cons, List.length_nil] at bounded ⊢
      omega
    · simp only [List.getLast?_singleton, Option.some.injEq]
      rintro _ rfl
      exact aimed
  · have climbs := descent.climbs
    have live := descent.live
    have seeded := descent.seeded
    rw [path] at climbs live seeded bounded
    refine ⟨levels, List.isChain_cons_cons.mpr ⟨fun joined => ?_, climbs⟩, ?_, markedIn,
      fun node member => ?_, fun seed bottom => seeded seed ?_⟩
    · rcases aimed with own | ⟨_, top⟩
      · rw [own] at joined
        cases joined
      · exact top
    · simp only [List.length_cons] at bounded ⊢
      omega
    · rw [List.dropLast_cons_cons] at member
      rcases List.mem_cons.mp member with rfl | below
      · rcases aimed with own | ⟨inside, _⟩
        · exact .inl own
        · exact .inr inside
      · exact live node below
    · rwa [List.getLast?_cons_cons] at bottom

/-- `Local::pop` taking the next auth event off the top frame: the top node is to come back to
it. -/
theorem Descent.popFrame {path : List EventId} {frame : List EventId} {frames : List (List EventId)}
    {marked : Nat}
    (descent : Descent fetch conflictedSet global id except ⟨path, (eventId :: frame) :: frames, marked⟩)
    (kept : ∀ auth, except auth → except' auth) (popped : except' eventId) :
    Descent fetch conflictedSet global id except' ⟨path, frame :: frames, marked⟩ := by
  refine ⟨?_, descent.climbs, descent.bounded, descent.markedIn, descent.live, descent.seeded⟩
  cases path with
  | nil => exact descent.levels.elim
  | cons top path =>
      obtain ⟨⟨authEvents, fetched, each⟩, below⟩ := descent.levels
      refine ⟨⟨authEvents, fetched, fun auth member => ?_⟩, below⟩
      rcases each auth member with inFrame | handled | excepted
      · rcases List.mem_cons.mp inFrame with rfl | rest
        · exact .inr (.inr popped)
        · exact .inl rest
      · exact .inr (.inl handled)
      · exact .inr (.inr (kept auth excepted))

/-- The states of a path's nodes: those above the seed are the walker's own or in the subgraph,
and the seed is conflicted or in the subgraph. -/
theorem Descent.state_of_mem (descent : Descent fetch conflictedSet global id except walker)
    (members : Members conflictedSet global) :
    ∀ node ∈ walker.path, global.subgraph.get node = some (.pending id) ∨
      global.subgraph.get node = some .subgraph ∨ global.subgraph.get node = some .conflicted := by
  intro node member
  have split : node ∈ walker.path.dropLast ∨ walker.path.getLast? = some node := by
    have nonempty := List.ne_nil_of_mem member
    rw [← List.dropLast_append_getLast nonempty] at member
    rcases List.mem_append.mp member with above | bottom
    · exact .inl above
    · rw [List.mem_singleton.mp bottom, List.getLast?_eq_some_getLast nonempty]
      exact .inr rfl
  rcases split with above | bottom
  · rcases descent.live node above with own | inside
    · exact .inl own
    · exact .inr (.inl inside)
  · rcases members node (descent.seeded node bottom) with conflicted | inside
    · exact .inr (.inr conflicted)
    · exact .inr (.inl inside)

/-- The nodes of a path are ones the walker may move on. -/
theorem Descent.movable (descent : Descent fetch conflictedSet global id except walker)
    (members : Members conflictedSet global) :
    ∀ node ∈ walker.path, Movable global id node := by
  intro node member
  rcases descent.state_of_mem members node member with state | state | state
  all_goals exact ⟨by simp [state], fun owner pending => by simp_all⟩

/-- After `insert_path`, the whole path and the event it was called on are in the subgraph: the
unmarked part is inserted, and the marked part was in it. -/
theorem Descent.insertPath_subgraph (descent : Descent fetch conflictedSet global id except walker) :
    ∀ node, node ∈ walker.path ∨ node = eventId →
      (walker.insertPath global eventId).2.subgraph.get node = some .subgraph := by
  intro node member
  simp only [Local.insertPath, insertNodes_get]
  split_ifs with inserted
  · rfl
  · rcases member with onPath | rfl
    · rw [← List.take_append_drop (walker.path.length - walker.marked) walker.path] at onPath
      rcases List.mem_append.mp onPath with unmarked | marked
      · exact absurd (List.mem_append_left _ (List.mem_reverse.mpr unmarked)) inserted
      · exact descent.markedIn node marked
    · exact absurd (List.mem_append_right _ (List.mem_singleton_self node)) inserted

/-- After `insert_path`, the event is done with for the top node: both are in the subgraph. -/
theorem Descent.insertPath_handled (descent : Descent fetch conflictedSet global id except walker) :
    ∀ top ∈ walker.path.head?, Handled (walker.insertPath global eventId).2 top eventId :=
  fun top head => .inr ⟨descent.insertPath_subgraph eventId (.inr rfl),
    descent.insertPath_subgraph top (.inl (List.mem_of_mem_head? head))⟩

/-- `Local::insert_path`: the whole path joins the subgraph and is marked. -/
theorem Descent.insertPath (descent : Descent fetch conflictedSet global id except walker)
    (movable : ∀ node, node ∈ walker.path ∨ node = eventId → Movable global id node)
    (moved : ∀ top ∈ walker.path.head?, ∀ auth, except auth →
      except' auth ∨ Handled (walker.insertPath global eventId).2 top auth) :
    Descent fetch conflictedSet (walker.insertPath global eventId).2 id except'
      (walker.insertPath global eventId).1 := by
  have inside : ∀ node, node ∈ walker.path ∨ node = eventId →
      (walker.insertPath global eventId).2.subgraph.get node = some .subgraph :=
    descent.insertPath_subgraph
  have spares : Spares id global (walker.insertPath global eventId).2 := by
    refine Spares.insertNodes _ fun node member => movable node ?_
    rcases List.mem_append.mp member with unmarked | added
    · exact .inl (List.mem_of_mem_take (List.mem_reverse.mp unmarked))
    · exact .inr (List.mem_singleton.mp added)
  refine ⟨descent.levels.mono spares.progress moved, ?_, le_refl _, fun node member => ?_,
    fun node member => ?_, descent.seeded⟩
  · refine List.Pairwise.isChain (List.pairwise_of_forall_mem_list fun above _ below member _ => ?_)
    exact inside below (.inl member)
  · exact inside node (.inl (List.mem_of_mem_drop member))
  · exact .inr (inside node (.inl (List.mem_of_mem_dropLast member)))

end Own

end StateRes
end Tuwunel
