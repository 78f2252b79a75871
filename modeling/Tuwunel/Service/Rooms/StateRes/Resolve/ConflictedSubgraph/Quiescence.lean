import Mathlib
import Tuwunel.Library.AListTotal
import Tuwunel.Service.Rooms.StateRes.Resolve.ConflictedSubgraph.Safety
import Tuwunel.Service.Rooms.StateRes.Resolve.ConflictedSubgraph.Parked

/-!
# The walk ends with every walker done

The unfold ends the stream when the window is empty after the first loop of a turn, and asserts
there, in debug builds, that `waiters`, `ready` and `deferred` are empty and that `parked` is zero.
On an auth graph with no infinite descending chain, as a finite acyclic one has none, these hold
whatever order the fetches completed in, and no node is left `Pending`
(`conflictedSubgraph_quiescent`).

A parked walker waits on the owner of a `Pending` node, and the owner holds that node: it is on
the owner's path, or the owner has a fetch of it out (`Owned`).  A walker with a path holds a
ticket.  So once no fetch is out, the owner is parked too, on an auth event below the node, and
the chain of waits would descend the auth graph for ever.
-/

namespace Tuwunel
namespace StateRes

open KeyValue

/-- The fetches out: those in `todo` and `deferred`, and `flights`, the ones a walker in hand has
taken out of the window or is about to put in. -/
def Global.fetches (global : Global) (flights : List (Nat × EventId)) : List (Nat × EventId) :=
  global.todo ++ global.deferred ++ flights

/-- What holds of the shared state between the steps of the walk, for the walkers `walkers` and
the walkers in hand `hand`, as in `Safe`: a `Pending` node is held by its owner, a node with
waiters is `Pending`, and a walker with a path holds a ticket. -/
structure Owned (walkers : Nat → Local) (hand : Multiset Nat) (flights : List (Nat × EventId))
    (global : Global) : Prop where
  held : ∀ eventId owner, global.subgraph.get eventId = some (.pending owner) →
    eventId ∈ (walkers owner).path ∨ (owner, eventId) ∈ global.fetches flights
  parkedOn : ∀ eventId ids, global.waiters.lookup eventId = some ids →
    ∃ owner, global.subgraph.get eventId = some (.pending owner)
  ticketed : ∀ id, (walkers id).path ≠ [] → id ∈ global.tickets + hand

theorem Resolution.substate_ne_pending (result : Resolution) (owner : Nat) :
    result.substate ≠ .pending owner := by
  cases result <;> simp [Resolution.substate]

/-! ## Resolving nodes -/

section Resolving

variable {walkers : Nat → Local} {hand : Multiset Nat} {flights : List (Nat × EventId)}
  {global : Global} {eventId : EventId}

/-- Putting a state that is not `Pending` leaves every other node as it was. -/
theorem pending_of_put {table : Table EventId Substate} {state : Substate}
    (settled : ∀ owner, state ≠ .pending owner) {other : EventId} {owner : Nat}
    (pending : (table.put eventId state).get other = some (.pending owner)) :
    other ≠ eventId ∧ table.get other = some (.pending owner) := by
  by_cases same : other = eventId
  · subst same
    rw [Table.get_put_self, Option.some.injEq] at pending
    exact absurd pending (settled owner)
  · exact ⟨same, by rwa [Table.get_put_of_ne _ _ same] at pending⟩

theorem Owned.noWaiters (owned : Owned walkers hand flights global)
    (settled : ∀ owner, global.subgraph.get eventId ≠ some (.pending owner)) :
    global.waiters.lookup eventId = none := by
  rcases found : global.waiters.lookup eventId with _ | ids
  · rfl
  · obtain ⟨owner, pending⟩ := owned.parkedOn eventId ids found
    exact absurd pending (settled owner)

/-- A node with no waiters put in a state that is not `Pending`. -/
theorem Owned.put (owned : Owned walkers hand flights global) {state : Substate}
    (settled : ∀ owner, state ≠ .pending owner) (unwaited : global.waiters.lookup eventId = none) :
    Owned walkers hand flights { global with subgraph := global.subgraph.put eventId state } := by
  refine ⟨fun other owner pending => owned.held other owner (pending_of_put settled pending).2,
    fun other ids found => ?_, owned.ticketed⟩
  have distinct : other ≠ eventId := by
    rintro rfl
    simp [unwaited] at found
  obtain ⟨owner, pending⟩ := owned.parkedOn other ids found
  exact ⟨owner, by rwa [Table.get_put_of_ne _ _ distinct]⟩

/-- A node put in a state that is not `Pending`, and its waiters woken. -/
theorem Owned.settle (owned : Owned walkers hand flights global) {state : Substate}
    (settled : ∀ owner, state ≠ .pending owner) (result : Resolution) :
    Owned walkers hand flights
      (wakeWaiters { global with subgraph := global.subgraph.put eventId state } eventId result) := by
  rcases found : global.waiters.lookup eventId with _ | ids
  · have absent : ({ global with subgraph := global.subgraph.put eventId state } : Global).waiters.lookup
        eventId = none := found
    rw [wakeWaiters_of_lookup_none result absent]
    exact owned.put settled found
  have present : ({ global with subgraph := global.subgraph.put eventId state } : Global).waiters.lookup
      eventId = some ids := found
  have tickets := Global.tickets_wakeWaiters
    { global with subgraph := global.subgraph.put eventId state } eventId result
  rw [wakeWaiters_of_lookup result present] at tickets ⊢
  refine ⟨fun other owner pending => owned.held other owner (pending_of_put settled pending).2,
    fun other others stored => ?_, fun id nonempty => ?_⟩
  · have distinct : other ≠ eventId := by
      rintro rfl
      simp at stored
    rw [AList.lookup_erase_ne distinct] at stored
    obtain ⟨owner, pending⟩ := owned.parkedOn other others stored
    exact ⟨owner, by rwa [Table.get_put_of_ne _ _ distinct]⟩
  · rw [tickets]
    exact owned.ticketed id nonempty

theorem Owned.completePending (owned : Owned walkers hand flights global) (eventId : EventId)
    (result : Resolution) : Owned walkers hand flights (completePending global eventId result) := by
  unfold StateRes.completePending
  split
  · exact owned.settle (Resolution.substate_ne_pending result) result
  · exact owned

/-- Whatever state it was in, the node `complete_pending` is called on is not `Pending` after. -/
theorem completePending_settled (global : Global) (eventId : EventId) (result : Resolution)
    (owner : Nat) : (completePending global eventId result).subgraph.get eventId ≠ some (.pending owner) := by
  unfold StateRes.completePending
  split
  · rw [wakeWaiters_subgraph]
    simpa using Resolution.substate_ne_pending result owner
  · next unsettled => exact unsettled owner

theorem Owned.insertPathFilter (owned : Owned walkers hand flights global) (eventId : EventId) :
    Owned walkers hand flights (StateRes.insertPathFilter global eventId).2 := by
  unfold StateRes.insertPathFilter
  split
  case h_1 unmarked => exact owned.put (by simp) (owned.noWaiters (by simp [unmarked]))
  case h_2 => exact owned
  case h_3 => exact owned.settle (by simp) .subgraph
  case h_4 state _ unsettled marked =>
    have settled : ∀ owner, global.subgraph.get eventId ≠ some (.pending owner) := by
      intro owner pending
      rw [marked, Option.some.injEq] at pending
      exact unsettled owner pending
    exact owned.put (by simp) (owned.noWaiters settled)

theorem Owned.insertNodes : ∀ (nodes : List EventId) {global : Global},
    Owned walkers hand flights global →
      Owned walkers hand flights (StateRes.insertNodes nodes global)
  | [], _, owned => owned
  | eventId :: nodes, global, owned => by
      have filtered := owned.insertPathFilter eventId
      unfold StateRes.insertNodes
      rcases filter : StateRes.insertPathFilter global eventId with ⟨_ | _, after⟩
      all_goals rw [filter] at filtered
      · exact Owned.insertNodes nodes filtered
      · exact Owned.insertNodes nodes ⟨filtered.held, filtered.parkedOn, filtered.ticketed⟩

end Resolving

/-! ## The walker in hand -/

section Served

variable {walkers : Nat → Local} {hand : Multiset Nat} {flights : List (Nat × EventId)}
  {global : Global} {id : Nat} {walker : Local} {eventId : EventId}

theorem Owned.ticketed_update (owned : Owned walkers (id ::ₘ hand) flights global) (walker : Local)
    {other : Nat} (nonempty : (Function.update walkers id walker other).path ≠ []) :
    other ∈ global.tickets + id ::ₘ hand := by
  by_cases here : other = id
  · subst here
    exact Multiset.mem_add.mpr (.inr (Multiset.mem_cons_self other hand))
  · rw [Function.update_of_ne here] at nonempty
    exact owned.ticketed other nonempty

/-- The walker in hand may change, as long as it keeps on its path the `Pending` nodes it holds
there. -/
theorem Owned.reassign (owned : Owned (Function.update walkers id walker) (id ::ₘ hand) flights global)
    {walker' : Local}
    (kept : ∀ eventId, global.subgraph.get eventId = some (.pending id) → eventId ∈ walker.path →
      eventId ∈ walker'.path) :
    Owned (Function.update walkers id walker') (id ::ₘ hand) flights global := by
  refine ⟨fun eventId owner pending => ?_, owned.parkedOn,
    fun other nonempty => owned.ticketed_update walker' (by rwa [Function.update_idem])⟩
  rcases owned.held eventId owner pending with onPath | fetching
  · by_cases here : owner = id
    · subst here
      rw [Function.update_self] at onPath ⊢
      exact .inl (kept eventId pending onPath)
    · rw [Function.update_of_ne here] at onPath ⊢
      exact .inl onPath
  · exact .inr fetching

/-- A walker done and out of hand holds nothing. -/
theorem Owned.release (owned : Owned walkers (id ::ₘ hand) flights global)
    (done : (walkers id).path = []) : Owned walkers hand flights global := by
  refine ⟨owned.held, owned.parkedOn, fun other nonempty => ?_⟩
  have distinct : other ≠ id := by
    rintro rfl
    exact nonempty done
  have ticket := owned.ticketed other nonempty
  rw [Multiset.add_cons, Multiset.mem_cons] at ticket
  exact ticket.resolve_left distinct

/-- A fetch out is one more place a node is held. -/
theorem Owned.fly (owned : Owned walkers hand [] global) (flights : List (Nat × EventId)) :
    Owned walkers hand flights global := by
  refine ⟨fun eventId owner pending => ?_, owned.parkedOn, owned.ticketed⟩
  rcases owned.held eventId owner pending with onPath | fetching
  · exact .inl onPath
  · simp only [Global.fetches, List.append_nil] at fetching
    exact .inr (List.mem_append_left flights fetching)

/-- A fetch back from the window holds its node no more, once the node is not `Pending`. -/
theorem Owned.land (owned : Owned walkers hand [(id, eventId)] global)
    (settled : ∀ owner, global.subgraph.get eventId ≠ some (.pending owner)) :
    Owned walkers hand [] global := by
  refine ⟨fun other owner pending => ?_, owned.parkedOn, owned.ticketed⟩
  rcases owned.held other owner pending with onPath | fetching
  · exact .inl onPath
  simp only [Global.fetches, List.mem_append, List.mem_singleton, List.append_nil] at fetching ⊢
  rcases fetching with old | flight
  · exact .inr old
  · obtain ⟨rfl, rfl⟩ := Prod.mk.inj flight
    exact absurd pending (settled owner)

/-- The event a fetch returns for joins the top of the path of the walker that fetched it. -/
theorem Owned.push (owned : Owned walkers (id ::ₘ hand) [(id, eventId)] global)
    (authEvents : List EventId) :
    Owned (Function.update walkers id { walkers id with
        path := eventId :: (walkers id).path, stack := authEvents.reverse :: (walkers id).stack })
      (id ::ₘ hand) [] global := by
  refine ⟨fun other owner pending => ?_, owned.parkedOn,
    fun other nonempty => owned.ticketed_update _ nonempty⟩
  rcases owned.held other owner pending with onPath | fetching
  · by_cases here : owner = id
    · subst here
      simp [onPath]
    · rw [Function.update_of_ne here]
      exact .inl onPath
  simp only [Global.fetches, List.mem_append, List.mem_singleton, List.append_nil] at fetching ⊢
  rcases fetching with old | flight
  · exact .inr old
  · obtain ⟨rfl, rfl⟩ := Prod.mk.inj flight
    simp

/-- The loop of `Local::pop`, by induction on it: each node dropped from the path is completed,
so it is no longer `Pending`, and the walker holds the rest of its path. -/
theorem Owned.dropExhausted (path : List EventId) (stack : List (List EventId)) (global : Global) :
    ∀ walker walker' : Local, walker.path = path →
      walker'.path = (StateRes.dropExhausted path stack global).1 →
      Owned (Function.update walkers id walker) (id ::ₘ hand) flights global →
      Owned (Function.update walkers id walker') (id ::ₘ hand) flights
        (StateRes.dropExhausted path stack global).2.2 := by
  fun_induction StateRes.dropExhausted path stack global with
  | case1 eventId path frames global ih =>
      intro walker walker' top rest owned
      have kept : ∀ other, (StateRes.completePending global eventId .dead).subgraph.get other =
          some (.pending id) → other ∈ walker.path → other ∈ (Local.mk path frames 0).path := by
        intro other pending member
        rw [top] at member
        rcases List.mem_cons.mp member with rfl | below
        · exact absurd pending (completePending_settled global other .dead id)
        · exact below
      exact ih ⟨path, frames, 0⟩ walker' rfl rest
        ((owned.completePending eventId .dead).reassign kept)
  | case2 frames global ih =>
      intro walker walker' top rest owned
      exact ih ⟨[], frames, 0⟩ walker' rfl rest
        (owned.reassign fun other _ member => absurd (top ▸ member) List.not_mem_nil)
  | case3 path stack global =>
      intro walker walker' top rest owned
      exact owned.reassign fun other _ member => by rwa [rest, ← top]

theorem Local.pop_path (walker : Local) (global : Global) :
    (walker.pop global).2.1.path = (dropExhausted walker.path walker.stack global).1 := by
  unfold Local.pop
  rcases dropExhausted walker.path walker.stack global with
    ⟨path, _ | ⟨_ | ⟨eventId, frame⟩, frames⟩, after⟩
  all_goals rfl

theorem Owned.pop (owned : Owned (Function.update walkers id walker) (id ::ₘ hand) flights global) :
    Owned (Function.update walkers id (walker.pop global).2.1) (id ::ₘ hand) flights
      (walker.pop global).2.2 := by
  rw [Local.pop_global]
  exact Owned.dropExhausted walker.path walker.stack global walker _ rfl (Local.pop_path walker global)
    owned

/-- A node met for the first time becomes `Pending`, owned by the walker in hand, which is to
fetch it. -/
theorem Owned.claim (owned : Owned walkers hand [] global)
    (unmarked : global.subgraph.get eventId = none) (id : Nat) :
    Owned walkers hand [(id, eventId)]
      { global with subgraph := global.subgraph.put eventId (.pending id) } := by
  refine ⟨fun other owner pending => ?_, fun other ids found => ?_, owned.ticketed⟩
  · by_cases same : other = eventId
    · subst same
      rw [Table.get_put_self, Option.some.injEq, Substate.pending.injEq] at pending
      subst pending
      exact .inr (by simp [Global.fetches])
    · rw [Table.get_put_of_ne _ _ same] at pending
      exact (owned.fly [(id, eventId)]).held other owner pending
  · obtain ⟨owner, pending⟩ := owned.parkedOn other ids found
    have distinct : other ≠ eventId := by
      rintro rfl
      simp [unmarked] at pending
    exact ⟨owner, by rwa [Table.get_put_of_ne _ _ distinct]⟩

/-- A walker meeting a node another walker owns parks on it: its ticket goes into `waiters`. -/
theorem Owned.park (owned : Owned walkers (id ::ₘ hand) [] global) {owner : Nat}
    (pending : global.subgraph.get eventId = some (.pending owner)) :
    Owned walkers hand []
      { global with
        waiters := global.waiters.insert eventId ((global.waiters.lookup eventId).getD [] ++ [id])
        parked := global.parked + 1 } := by
  have tickets := Global.tickets_park global eventId id hand
  refine ⟨owned.held, fun other ids found => ?_, fun other nonempty => ?_⟩
  · by_cases same : other = eventId
    · subst same
      exact ⟨owner, pending⟩
    · rw [AList.lookup_insert_ne same] at found
      exact owned.parkedOn other ids found
  · rw [tickets]
    exact owned.ticketed other nonempty

theorem Owned.insertPath (owned : Owned (Function.update walkers id walker) (id ::ₘ hand) flights global)
    (eventId : EventId) :
    Owned (Function.update walkers id (walker.insertPath global eventId).1) (id ::ₘ hand) flights
      (walker.insertPath global eventId).2 :=
  (owned.insertNodes _).reassign fun _ _ member => member

/-- `Local::eval` by the walker in hand, with its outcome: a fetch the walker now has out, or a
ticket taken into `waiters`. -/
theorem Owned.eval (owned : Owned (Function.update walkers id walker) (id ::ₘ hand) [] global)
    (eventId : EventId) :
    match walker.eval id global eventId with
    | (.continue, walker', global') =>
        Owned (Function.update walkers id walker') (id ::ₘ hand) [] global'
    | (.fetch next, walker', global') =>
        Owned (Function.update walkers id walker') (id ::ₘ hand) [(id, next)] global'
    | (.park, walker', global') => Owned (Function.update walkers id walker') hand [] global' := by
  unfold Local.eval
  rcases marked : global.subgraph.get eventId with _ | state
  case none => exact owned.claim marked id
  cases state with
  | subgraph => exact owned.insertPath eventId
  | dead => exact owned
  | pending owner =>
      dsimp only
      split_ifs
      · exact owned
      · exact owned.park marked
  | conflicted =>
      have inserted := owned.insertPath eventId
      dsimp only [Local.insertPath] at inserted ⊢
      split_ifs
      · exact inserted
      · exact inserted.fly _

theorem Owned.popEval (owned : Owned (Function.update walkers id walker) (id ::ₘ hand) [] global)
    {popped : Local} {global' : Global} (taken : walker.pop global = (some eventId, popped, global')) :
    match popped.eval id global' eventId with
    | (.continue, walker', global') =>
        Owned (Function.update walkers id walker') (id ::ₘ hand) [] global'
    | (.fetch next, walker', global') =>
        Owned (Function.update walkers id walker') (id ::ₘ hand) [(id, next)] global'
    | (.park, walker', global') => Owned (Function.update walkers id walker') hand [] global' := by
  have after := owned.pop
  rw [taken] at after
  exact after.eval eventId

/-! What `Local::pop` keeps of a walker whose path and stack are as long as each other: it yields
nothing only once both have run out. -/

theorem dropExhausted_aligned (path : List EventId) (stack : List (List EventId)) (global : Global) :
    path.length = stack.length →
      (dropExhausted path stack global).1.length = (dropExhausted path stack global).2.1.length := by
  fun_induction dropExhausted path stack global with
  | case1 eventId path frames global ih =>
      intro aligned
      exact ih (by simpa using aligned)
  | case2 frames global ih =>
      intro aligned
      simp at aligned
  | case3 => exact id

theorem dropExhausted_stack_ne (path : List EventId) (stack : List (List EventId)) (global : Global)
    (frames : List (List EventId)) : (dropExhausted path stack global).2.1 ≠ [] :: frames := by
  fun_induction dropExhausted path stack global with
  | case1 eventId path frames' global ih => exact ih
  | case2 frames' global ih => exact ih
  | case3 path stack global notTop notBottom =>
      rintro rfl
      cases path with
      | nil => exact notBottom frames rfl rfl
      | cons eventId path => exact notTop eventId path frames rfl rfl

theorem Local.pop_aligned (walker : Local) (global : Global)
    (aligned : walker.path.length = walker.stack.length) :
    (walker.pop global).2.1.path.length = (walker.pop global).2.1.stack.length := by
  have dropped := dropExhausted_aligned walker.path walker.stack global aligned
  unfold Local.pop
  rcases result : dropExhausted walker.path walker.stack global with
    ⟨path, _ | ⟨_ | ⟨eventId, frame⟩, frames⟩, after⟩
  all_goals
    rw [result] at dropped
    simpa using dropped

theorem Local.pop_eq_none_stack {walker walker' : Local} {global global' : Global}
    (taken : walker.pop global = (none, walker', global')) : walker'.stack = [] := by
  have unpopped := dropExhausted_stack_ne walker.path walker.stack global
  unfold Local.pop at taken
  rcases result : dropExhausted walker.path walker.stack global with
    ⟨path, _ | ⟨_ | ⟨eventId, frame⟩, frames⟩, after⟩
  all_goals rw [result] at taken unpopped
  · simp only [Prod.mk.injEq] at taken
    rw [← taken.2.1]
  · exact absurd rfl (unpopped frames)
  · simp at taken

theorem Local.eval_path (walker : Local) (id : Nat) (global : Global) (eventId : EventId) :
    (walker.eval id global eventId).2.1.path = walker.path := by
  unfold Local.eval Local.insertPath
  split
  case h_3 => split <;> rfl
  all_goals rfl

/-- The loop of `advance` by the walker in hand, by induction on the loop: the walker ends with a
fetch out and its ticket in hand, or parked, or done, with no ticket in hand. -/
theorem Owned.descend (walker : Local) (global : Global) :
    walker.path.length = walker.stack.length →
    Owned (Function.update walkers id walker) (id ::ₘ hand) [] global →
    match Local.descend id walker global with
    | (some next, walker', global') =>
        Owned (Function.update walkers id walker') (id ::ₘ hand) [(id, next)] global'
    | (none, walker', global') => Owned (Function.update walkers id walker') hand [] global' := by
  fun_induction Local.descend id walker global with
  | case1 walker global walker' global' taken =>
      -- the stack ran out, and the path with it: the walker starts over, holding nothing
      intro aligned owned
      have popped := owned.pop
      have poppedAligned := Local.pop_aligned walker global aligned
      rw [taken] at popped poppedAligned
      have exhausted := Local.pop_eq_none_stack taken
      have empty : walker'.path = [] :=
        List.eq_nil_of_length_eq_zero (by simpa [exhausted] using poppedAligned)
      rw [if_pos exhausted]
      exact (popped.reassign fun _ _ member => absurd (empty ▸ member) List.not_mem_nil).release
        (by simp [Local.default])
  | case2 walker global eventId popped global' taken walker' global'' evaluated ih =>
      intro aligned owned
      have step := owned.popEval taken
      have poppedAligned := Local.pop_aligned walker global aligned
      have path := Local.eval_path popped id global' eventId
      have stack := Local.eval_stack popped id global' eventId
      rw [taken] at poppedAligned
      rw [evaluated] at step path stack
      exact ih (by rw [path, stack]; exact poppedAligned) step
  | case3 walker global eventId popped global' taken next walker' global'' evaluated =>
      intro _ owned
      have step := owned.popEval taken
      rw [evaluated] at step
      exact step
  | case4 walker global eventId popped global' taken walker' global'' evaluated =>
      intro _ owned
      have step := owned.popEval taken
      rw [evaluated] at step
      exact step

end Served

/-! ## Turns -/

section Turns

variable {walkers : Nat → Local} {hand : Multiset Nat} {flights : List (Nat × EventId)}
  {global : Global} {id : Nat} {eventId : EventId}

/-- Where the walker a turn serves ends: with a fetch out and its ticket in hand, or holding no
ticket in hand. -/
def Owned.Served (hand : Multiset Nat) (id : Nat) : Option EventId × Global → Prop
  | (some next, global) => Owned global.walker (id ::ₘ hand) [(id, next)] global
  | (none, global) => Owned global.walker hand [] global

/-- The walker in hand written back to `locals`. -/
theorem Owned.setServed {global' : Global} {walker : Local} {hand' : Multiset Nat}
    (owned : Owned (Function.update global.walker id walker) hand' flights global')
    (same : global'.locals = global.locals) (valid : id < global.locals.length) :
    Owned (global'.setWalker id walker).walker hand' flights (global'.setWalker id walker) := by
  rw [Global.walker_setWalker global' walker (same ▸ valid), Global.walker_congr same]
  exact ⟨owned.held, owned.parkedOn, owned.ticketed⟩

/-- A step that only moves fetches between `todo`, `deferred` and hand, and tickets with them. -/
theorem Owned.refetch (owned : Owned walkers hand flights global) {global' : Global}
    {hand' : Multiset Nat} {flights' : List (Nat × EventId)}
    (subgraph : global'.subgraph = global.subgraph) (waiters : global'.waiters = global.waiters)
    (ready : global'.ready = global.ready)
    (fetches : ∀ out ∈ global.fetches flights, out ∈ global'.fetches flights')
    (counted : (((global.todo ++ global.deferred).map Prod.fst : List Nat) : Multiset Nat) + hand ≤
      (((global'.todo ++ global'.deferred).map Prod.fst : List Nat) : Multiset Nat) + hand') :
    Owned walkers hand' flights' global' := by
  have regroup : ∀ fetched rest rest' held : Multiset Nat,
      fetched + rest + rest' + held = (fetched + held) + (rest + rest') := by
    intros
    abel
  have tickets : global.tickets + hand ≤ global'.tickets + hand' := by
    simp only [Global.tickets, waiters, ready, regroup]
    exact add_le_add_left counted _
  refine ⟨fun other owner pending => ?_, fun other ids found => ?_,
    fun other nonempty => Multiset.mem_of_le tickets (owned.ticketed other nonempty)⟩
  · rw [subgraph] at pending
    rcases owned.held other owner pending with onPath | fetching
    · exact .inl onPath
    · exact .inr (fetches _ fetching)
  · rw [waiters] at found
    rw [subgraph]
    exact owned.parkedOn other ids found

/-- A fetch joins the window: from hand into `todo` or `deferred`. -/
theorem Owned.addFetch {next : EventId} (owned : Owned walkers (id ::ₘ hand) [(id, next)] global)
    {todo deferred : List (Nat × EventId)}
    (perm : (todo ++ deferred).Perm ((id, next) :: (global.todo ++ global.deferred))) :
    Owned walkers hand [] { global with todo, deferred } := by
  refine owned.refetch rfl rfl rfl (fun out member => ?_) (le_of_eq ?_)
  · simp only [Global.fetches, List.append_nil] at member ⊢
    refine perm.mem_iff.mpr ?_
    rcases List.mem_append.mp member with old | flight
    · exact List.mem_cons_of_mem _ old
    · rw [List.mem_singleton.mp flight]
      exact List.mem_cons_self
  · rw [Multiset.coe_eq_coe.mpr (perm.map Prod.fst), List.map_cons, ← Multiset.cons_coe,
      Multiset.cons_add, Multiset.add_cons]

/-- A walker's next fetch joins the window: from hand into `todo` or `deferred`. -/
theorem Owned.launch (width : Nat) {next : Option EventId} (served : Owned.Served hand id (next, global)) :
    Owned (launch width global id next).walker hand [] (launch width global id next) := by
  cases next with
  | none => exact served
  | some next =>
      dsimp only [StateRes.launch]
      split
      · refine Owned.addFetch served ?_
        simp
      · refine Owned.addFetch served ?_
        rw [← List.append_assoc]
        exact List.perm_append_singleton _ _

/-- `advance`: the walker in hand descends and is written back. -/
theorem Owned.advance (owned : Owned global.walker (id ::ₘ hand) [] global)
    (valid : id < global.locals.length)
    (aligned : (global.walker id).path.length = (global.walker id).stack.length) :
    Owned.Served hand id (advance global id) := by
  have start : Owned (Function.update global.walker id (global.walker id)) (id ::ₘ hand) [] global := by
    rwa [Function.update_eq_self]
  have descended := Owned.descend (global.walker id) global aligned start
  have locals := Local.descend_locals id (global.walker id) global
  unfold StateRes.advance
  rcases result : Local.descend id (global.walker id) global with ⟨_ | next, walker, global'⟩
  all_goals
    rw [result] at descended locals
    dsimp only at descended locals ⊢
  · exact descended.setServed locals valid
  · exact descended.setServed locals valid

/-- `process_fetch`: the fetched event joins the top of the path, or is completed as dead where
the fetch failed; either way the fetch holds it no more, and the walker advances. -/
theorem Owned.processFetch (owned : Owned global.walker (id ::ₘ hand) [(id, eventId)] global)
    (valid : id < global.locals.length)
    (aligned : (global.walker id).path.length = (global.walker id).stack.length)
    (event : Option (List EventId)) :
    Owned.Served hand id (processFetch global id eventId event) := by
  unfold StateRes.processFetch
  cases event with
  | none =>
      have same : (StateRes.completePending global eventId .dead).walker = global.walker :=
        Global.walker_congr (completePending_locals .dead)
      apply Owned.advance
      · rw [same]
        exact (owned.completePending eventId .dead).land (completePending_settled global eventId .dead)
      · simpa using valid
      · rw [same]
        exact aligned
  | some authEvents =>
      apply Owned.advance
      · exact (owned.push authEvents).setServed rfl valid
      · simpa [Global.setWalker] using valid
      · rw [Global.walker_setWalker global _ valid, Function.update_self]
        simpa using aligned

/-- `resume`: a woken walker whose node joined the subgraph inserts its path, and advances. -/
theorem Owned.resume (owned : Owned global.walker (id ::ₘ hand) [] global)
    (valid : id < global.locals.length)
    (aligned : (global.walker id).path.length = (global.walker id).stack.length)
    (eventId : EventId) (result : Resolution) :
    Owned.Served hand id (resume global id eventId result) := by
  unfold StateRes.resume
  cases result with
  | dead => exact owned.advance valid aligned
  | subgraph =>
      have start : Owned (Function.update global.walker id (global.walker id)) (id ::ₘ hand) [] global := by
        rwa [Function.update_eq_self]
      have inserted := start.insertPath eventId
      have locals : ((global.walker id).insertPath global eventId).2.locals = global.locals :=
        insertNodes_locals
      apply Owned.advance
      · exact inserted.setServed locals valid
      · simpa [Global.setWalker, locals] using valid
      · rw [Global.walker_setWalker _ _ (locals ▸ valid), Function.update_self]
        exact aligned

/-- The wake on top of `ready` leaves it: its walkers' tickets go into hand. -/
theorem Owned.takeWake (owned : Owned walkers hand flights global) {wake : Wake} {ready : List Wake}
    (popped : global.ready = wake :: ready) :
    Owned walkers (↑wake.locals + hand) flights { global with ready } := by
  have tickets := Global.tickets_takeWake popped hand
  refine ⟨owned.held, owned.parkedOn, fun other nonempty => ?_⟩
  rw [tickets]
  exact owned.ticketed other nonempty

/-- The first walker of a wake resumes and launches its next fetch. -/
theorem Owned.resumeOne (width : Nat) {fetch : EventId → Option (List EventId)}
    {conflictedSet : List EventId} {ids : List Nat}
    (safe : Safe fetch conflictedSet global.walker (↑(id :: ids) + hand) global)
    (owned : Owned global.walker (↑(id :: ids) + hand) [] global) (eventId : EventId)
    (result : Resolution) :
    Owned (StateRes.launch width (StateRes.resume global id eventId result).2 id
        (StateRes.resume global id eventId result).1).walker (↑ids + hand) []
      (StateRes.launch width (StateRes.resume global id eventId result).2 id
        (StateRes.resume global id eventId result).1) := by
  rw [← Multiset.cons_coe, Multiset.cons_add] at safe owned
  have served := owned.resume safe.valid (safe.walkersOk id).framed.length_eq eventId result
  rcases resumed : StateRes.resume global id eventId result with ⟨next, global'⟩
  rw [resumed] at served
  exact Owned.launch width served

/-- The walkers of a wake resume one after another, by induction on the list of them, with `Safe`
to say where each one's ticket aims. -/
theorem Owned.resumeWaiters (width : Nat) {fetch : EventId → Option (List EventId)}
    {conflictedSet : List EventId} {result : Resolution}
    (resolved : result = .subgraph → InConflictedSubgraph fetch conflictedSet eventId) :
    ∀ (ids : List Nat) (global : Global),
      Safe fetch conflictedSet global.walker (↑ids + hand) global →
      (∀ id ∈ ids, Aims fetch conflictedSet (global.walker id) eventId) →
      Owned global.walker (↑ids + hand) [] global →
      Owned (resumeWaiters width eventId result ids global).walker hand []
        (resumeWaiters width eventId result ids global)
  | [], global, _, _, owned => by simpa [StateRes.resumeWaiters] using owned
  | id :: ids, global, safe, aims, owned => by
      obtain ⟨resumedSafe, aimed⟩ := Safe.resumeOne width resolved safe aims
      have resumedOwned := Owned.resumeOne width safe owned eventId result
      unfold StateRes.resumeWaiters
      rcases step : StateRes.resume global id eventId result with ⟨next, global'⟩
      rw [step] at resumedSafe aimed resumedOwned
      exact Owned.resumeWaiters width resolved ids _ resumedSafe aimed resumedOwned

/-- The drain of `ready`, by induction on it. -/
theorem Owned.drains {fetch : EventId → Option (List EventId)} {conflictedSet : List EventId}
    {width : Nat} {final : Global} (drains : Drains width global final) :
    Safe fetch conflictedSet global.walker 0 global → Owned global.walker 0 [] global →
      Owned final.walker 0 [] final := by
  induction drains with
  | done => exact fun _ owned => owned
  | @wake global final wake ready popped _ ih =>
      intro safe owned
      have woken := safe.woken wake (by rw [popped]; exact List.mem_cons_self)
      exact ih (Safe.resumeWaiters width woken.2 wake.locals _ (safe.takeWake popped) woken.1)
        (Owned.resumeWaiters width woken.2 wake.locals _ (safe.takeWake popped) woken.1
          (owned.takeWake popped))

/-- A walker starts at the next seed as `Local::default`, with a fetch of the seed out. -/
theorem Owned.startSeed (owned : Owned global.walker hand [] global) {seed : EventId}
    {inputs : List EventId} :
    Owned
      (Global.walker { global with
        locals := global.locals ++ [Local.default]
        todo := global.todo ++ [(global.locals.length, seed)]
        inputs })
      hand []
      { global with
        locals := global.locals ++ [Local.default]
        todo := global.todo ++ [(global.locals.length, seed)]
        inputs } := by
  rw [Global.walker_of_append_default rfl]
  refine owned.refetch rfl rfl rfl (fun out member => ?_) ?_
  · simp only [Global.fetches, List.mem_append, List.mem_singleton] at member ⊢
    tauto
  · simp only [List.append_assoc, List.singleton_append, List.map_append, List.map_cons,
      ← Multiset.coe_add, ← Multiset.cons_coe, Multiset.add_cons, Multiset.cons_add]
    exact Multiset.le_cons_self _ _

/-- The front of `deferred` moves to the back of `todo`. -/
theorem Owned.shiftDeferred (owned : Owned walkers hand flights global)
    {deferred : List (Nat × EventId)} (front : global.deferred = (id, eventId) :: deferred) :
    Owned walkers hand flights { global with todo := global.todo ++ [(id, eventId)], deferred } := by
  have same : global.todo ++ [(id, eventId)] ++ deferred = global.todo ++ global.deferred := by
    simp [front]
  refine owned.refetch rfl rfl rfl (fun out member => ?_) (le_of_eq ?_)
  · simpa only [Global.fetches, same] using member
  · rw [same]

theorem Owned.fill (width : Nat) (global : Global) :
    Owned global.walker hand [] global →
      Owned (fill width global).walker hand [] (fill width global) := by
  fun_induction StateRes.fill width global with
  | case1 global _ id eventId deferred front ih => exact fun owned => ih (owned.shiftDeferred front)
  | case2 global _ _ seed inputs next ih => exact fun owned => ih owned.startSeed
  | case3 => exact id
  | case4 => exact id

theorem Owned.refill (width : Nat) (global : Global) :
    Owned global.walker hand flights global →
      Owned (refill width global).walker hand flights (refill width global) := by
  fun_induction StateRes.refill width global with
  | case1 global _ id eventId deferred front ih => exact fun owned => ih (owned.shiftDeferred front)
  | case2 => exact id
  | case3 => exact id

/-- The fetch at `pick` taken out of `todo` into hand: the fetches out are the same. -/
theorem Global.fetches_eraseIdx {pick : Nat} {taken : Nat × EventId}
    (picked : global.todo[pick]? = some taken) (out : Nat × EventId) :
    out ∈ ({ global with todo := global.todo.eraseIdx pick } : Global).fetches [taken] ↔
      out ∈ global.fetches [] := by
  have perm : (global.todo ++ global.deferred).Perm
      (taken :: (global.todo.eraseIdx pick ++ global.deferred)) := perm_eraseIdx_append picked
  simp only [Global.fetches, List.append_nil]
  rw [perm.mem_iff, List.mem_cons, List.mem_append, List.mem_singleton]
  exact or_comm

/-- The first part of a turn: the window is filled, the fetch at `pick` leaves it with its walker
into hand, and the window is refilled. -/
theorem Owned.pick (owned : Owned global.walker 0 [] global) {width pick : Nat}
    (picked : (StateRes.fill width global).todo[pick]? = some (id, eventId)) :
    Owned (StateRes.refill width { StateRes.fill width global with
        todo := (StateRes.fill width global).todo.eraseIdx pick }).walker (id ::ₘ 0) [(id, eventId)]
      (StateRes.refill width { StateRes.fill width global with
        todo := (StateRes.fill width global).todo.eraseIdx pick }) := by
  have perm : ((StateRes.fill width global).todo ++ (StateRes.fill width global).deferred).Perm
      ((id, eventId) :: ((StateRes.fill width global).todo.eraseIdx pick ++
        (StateRes.fill width global).deferred)) := perm_eraseIdx_append picked
  have taken : Owned (StateRes.fill width global).walker (id ::ₘ 0) [(id, eventId)]
      { StateRes.fill width global with todo := (StateRes.fill width global).todo.eraseIdx pick } := by
    refine (Owned.fill width global owned).refetch rfl rfl rfl
      (fun out member => (Global.fetches_eraseIdx picked out).mpr member) (le_of_eq ?_)
    rw [Multiset.coe_eq_coe.mpr (perm.map Prod.fst), List.map_cons, ← Multiset.cons_coe,
      Multiset.cons_add, Multiset.add_cons]
  exact Owned.refill width _ taken

/-- A turn up to its drain: the picked fetch leaves the window with its walker into hand, the
window is refilled, and the walker is served. -/
theorem Owned.turnStart {fetch : EventId → Option (List EventId)} {conflictedSet : List EventId}
    (safe : Safe fetch conflictedSet global.walker 0 global) (owned : Owned global.walker 0 [] global)
    {width pick : Nat} {started : Global} (start : turnStart fetch width pick global = some started) :
    Owned started.walker 0 [] started := by
  unfold StateRes.turnStart at start
  rcases picked : (StateRes.fill width global).todo[pick]? with _ | ⟨id, eventId⟩
  all_goals simp only [picked] at start
  · cases start
  obtain ⟨refilledSafe, _⟩ := safe.pick picked
  have served := (owned.pick picked).processFetch refilledSafe.valid
    (refilledSafe.walkersOk id).framed.length_eq (fetch eventId)
  rcases processed : StateRes.processFetch (StateRes.refill width { StateRes.fill width global with
      todo := (StateRes.fill width global).todo.eraseIdx pick }) id eventId (fetch eventId) with
    ⟨next, global'⟩
  rw [processed] at start served
  cases start
  exact Owned.launch width served

theorem Owned.turn {fetch : EventId → Option (List EventId)} {conflictedSet : List EventId}
    (safe : Safe fetch conflictedSet global.walker 0 global) (owned : Owned global.walker 0 [] global)
    {final : Global} (turn : Turn fetch global final) : Owned final.walker 0 [] final := by
  obtain ⟨width, pick, start, drains⟩ := turn
  exact Owned.drains drains (safe.turnStart start) (owned.turnStart safe start)

end Turns

/-! ## Every run -/

theorem Owned.init (conflictedSet : List EventId) :
    Owned (Global.init conflictedSet).walker 0 [] (Global.init conflictedSet) where
  held _ _ found := absurd (Global.init_subgraph found).1 (by simp)
  parkedOn _ _ found := by simp [Global.init] at found
  ticketed _ nonempty := absurd (by simp [Global.walker, Global.init, Local.default]) nonempty

section Ended

variable {fetch : EventId → Option (List EventId)} {conflictedSet : List EventId} {global : Global}

theorem Owned.reachable (reachable : Reachable fetch conflictedSet global) :
    Owned global.walker 0 [] global := by
  unfold Reachable at reachable
  induction reachable with
  | refl => exact Owned.init conflictedSet
  | tail reached turn owned => exact owned.turn (Safe.reachable reached) turn

theorem Drains.ready_eq_nil {width : Nat} {final : Global} (drains : Drains width global final) :
    final.ready = [] := by
  induction drains with
  | done empty => exact empty
  | wake _ _ ih => exact ih

theorem ready_of_reachable (reachable : Reachable fetch conflictedSet global) : global.ready = [] := by
  unfold Reachable at reachable
  cases reachable with
  | refl => rfl
  | tail _ turn =>
      obtain ⟨_, _, _, drains⟩ := turn
      exact drains.ready_eq_nil

theorem fill_ready (width : Nat) (global : Global) : (fill width global).ready = global.ready := by
  fun_induction StateRes.fill width global with
  | case1 global _ id eventId deferred front ih => exact ih
  | case2 global _ _ seed inputs next ih => exact ih
  | case3 => rfl
  | case4 => rfl

/-- The first loop stops short of the width only once `deferred` is empty. -/
theorem fill_drained (width : Nat) (global : Global) :
    (fill width global).todo.length < width → (fill width global).deferred = [] := by
  fun_induction StateRes.fill width global with
  | case1 global _ id eventId deferred front ih => exact ih
  | case2 global _ _ seed inputs next ih => exact ih
  | case3 global _ empty _ => exact fun _ => empty
  | case4 global full => exact fun short => absurd short full

/-- With no fetch out and no wake in `ready`, a walker with a path is parked. -/
theorem Owned.parked_of_path (owned : Owned global.walker 0 [] global) (ready : global.ready = [])
    (idle : global.todo ++ global.deferred = []) {id : Nat} (nonempty : (global.walker id).path ≠ []) :
    ∃ eventId ids, global.waiters.lookup eventId = some ids ∧ id ∈ ids := by
  have ticket := owned.ticketed id nonempty
  simp only [Global.tickets, idle, ready, List.map_nil, Multiset.coe_nil, zero_add, List.sum_nil,
    add_zero] at ticket
  obtain ⟨eventId, ids, found, member⟩ := AListTotal.mem_total ticket
  exact ⟨eventId, ids, found, Multiset.mem_coe.mp member⟩

/-- On an auth graph with no infinite descending chain, no node has waiters once no fetch is out
and `ready` is drained, by well-founded induction down the auth graph: the owner of a node with
waiters has it on its path, so it is parked on an auth event below. -/
theorem Owned.unwaited (acyclic : WellFounded (flip (AuthEdge fetch)))
    (safe : Safe fetch conflictedSet global.walker 0 global) (owned : Owned global.walker 0 [] global)
    (ready : global.ready = []) (idle : global.todo ++ global.deferred = []) (eventId : EventId) :
    global.waiters.lookup eventId = none := by
  induction eventId using acyclic.transGen.induction with
  | _ eventId below =>
  rcases found : global.waiters.lookup eventId with _ | ids
  · rfl
  obtain ⟨owner, pending⟩ := owned.parkedOn eventId ids found
  have onPath : eventId ∈ (global.walker owner).path := by
    rcases owned.held eventId owner pending with onPath | fetching
    · exact onPath
    · simp [Global.fetches, idle] at fetching
  obtain ⟨next, waiting, stored, member⟩ :=
    owned.parked_of_path ready idle (List.ne_nil_of_mem onPath)
  -- the owner waits on an auth event of its top node, which the node reaches
  have aims := safe.waiting next waiting stored owner member
  have chain := (safe.walkersOk owner).chain
  rcases path : (global.walker owner).path with _ | ⟨top, rest⟩
  · rw [path] at onPath
    exact absurd onPath List.not_mem_nil
  have edge : AuthEdge fetch top next := by simpa only [Aims, path] using aims
  rw [path] at onPath chain
  have deeper : Relation.TransGen (AuthEdge fetch) eventId next :=
    .tail' (DepthFirst.reaches_top chain eventId onPath) edge
  rw [below next (Relation.transGen_swap.mpr deeper)] at stored
  cases stored

theorem waiters_eq_empty {waiters : AList fun _ : EventId => List Nat}
    (unwaited : ∀ eventId, waiters.lookup eventId = none) : waiters = ∅ := by
  apply AList.ext
  rcases entries : waiters.entries with _ | ⟨⟨eventId, ids⟩, rest⟩
  · rfl
  · have stored : ids ∈ waiters.lookup eventId :=
      AList.mem_lookup_iff.mpr (by rw [entries]; exact List.mem_cons_self)
    rw [unwaited eventId] at stored
    cases stored

/-- On an auth graph with no infinite descending chain, whatever order the fetches completed in
and whatever widths the window took, when the window is empty after the first loop of a turn,
`waiters`, `ready` and `deferred` are empty and `parked` is zero, as the unfold asserts before it
ends the stream, and no node is left `Pending`. -/
theorem conflictedSubgraph_quiescent (acyclic : WellFounded (flip (AuthEdge fetch)))
    (reachable : Reachable fetch conflictedSet global) {width : Nat} (wide : 0 < width)
    (ended : (fill width global).todo = []) :
    (fill width global).waiters = ∅ ∧ (fill width global).ready = [] ∧
      (fill width global).deferred = [] ∧ (fill width global).parked = 0 ∧
      ∀ eventId owner, (fill width global).subgraph.get eventId ≠ some (.pending owner) := by
  have safe := Safe.fill width global (Safe.reachable reachable)
  have owned := Owned.fill width global (Owned.reachable reachable)
  have counted := Global.Counted.fill width global (Global.Counted.reachable reachable)
  have ready : (fill width global).ready = [] :=
    (fill_ready width global).trans (ready_of_reachable reachable)
  have deferred : (fill width global).deferred = [] :=
    fill_drained width global (by rw [ended]; exact wide)
  have idle : (fill width global).todo ++ (fill width global).deferred = [] := by
    rw [ended, deferred]
    rfl
  have unwaited := owned.unwaited acyclic safe ready idle
  have empty := waiters_eq_empty unwaited
  refine ⟨empty, ready, deferred, ?_, fun eventId owner pending => ?_⟩
  · calc (fill width global).parked = (fill width global).waiting := counted
      _ = 0 := by rw [Global.waiting, empty, AListTotal.total_empty]
  · rcases owned.held eventId owner pending with onPath | fetching
    · obtain ⟨next, waiting, stored, _⟩ :=
        owned.parked_of_path ready idle (List.ne_nil_of_mem onPath)
      rw [unwaited next] at stored
      cases stored
    · simp [Global.fetches, idle] at fetching

theorem parkingAuthEvents_wellFounded : WellFounded (flip (AuthEdge parkingAuthEvents)) := by
  -- `$a` has no auth event, `$x` only `$a`, and `$b` and `$c` only `$x`
  have bottom : Acc (flip (AuthEdge parkingAuthEvents)) "$a" := by
    constructor
    rintro auth ⟨authEvents, fetched, member⟩
    simp [parkingAuthEvents] at fetched
    subst fetched
    simp at member
  have middle : Acc (flip (AuthEdge parkingAuthEvents)) "$x" := by
    constructor
    rintro auth ⟨authEvents, fetched, member⟩
    simp [parkingAuthEvents] at fetched
    subst fetched
    rw [List.mem_singleton.mp member]
    exact bottom
  constructor
  intro event
  constructor
  rintro auth ⟨authEvents, fetched, member⟩
  unfold parkingAuthEvents at fetched
  split_ifs at fetched
  · cases fetched
    rw [List.mem_singleton.mp member]
    exact middle
  · cases fetched
    rw [List.mem_singleton.mp member]
    exact bottom
  · cases fetched
    simp at member

/-- The run's last state starts no fetch: nothing is deferred and no seed is left. -/
theorem parkingDone_fill : fill 3 parkingDone = parkingDone :=
  fill_of_idle 3 parkingDone rfl rfl

theorem parkingDone_ended : (fill 3 parkingDone).todo = [] := by
  rw [parkingDone_fill]
  rfl

/-- The run that parks a walker ends with no walker parked or waiting and no node pending. -/
theorem parkingRun_quiescent :
    (fill 3 parkingDone).waiters = ∅ ∧ (fill 3 parkingDone).ready = [] ∧
      (fill 3 parkingDone).deferred = [] ∧ (fill 3 parkingDone).parked = 0 ∧
      ∀ eventId owner, (fill 3 parkingDone).subgraph.get eventId ≠ some (.pending owner) :=
  conflictedSubgraph_quiescent parkingAuthEvents_wellFounded parkingDone_reachable (by decide)
    parkingDone_ended

end Ended

end StateRes
end Tuwunel
