import Mathlib
import Tuwunel.Service.Rooms.StateRes.Resolve.ConflictedSubgraph.Explores

/-!
# The walker in hand keeps what the walk has explored

`advance` runs the loop of `Local::pop` and `Local::eval` for one walker, and every other walker
stays where it is.  Each step of the loop keeps `Explores`, with the walker's own exceptions
traced: none while it runs, the event it pops while it evaluates it, and the event it ends up
fetching or parked on.  A node whose frame runs out has each auth event done with, so it is
explored, and if it was `Pending` every auth event is `Dead`: it is marked `Dead` soundly.  On an
auth graph with no cycle, the walker never meets its own `Pending` node again, so no auth event
is skipped.
-/

namespace Tuwunel
namespace StateRes

open KeyValue

variable {fetch : EventId → Option (List EventId)} {conflictedSet : List EventId}

/-! ## What the shared-state operations keep -/

section Shared

variable {global global' : Global} {eventId : EventId}

theorem Progress.completePending (global : Global) (eventId : EventId) (result : Resolution) :
    Progress global (completePending global eventId result) := by
  unfold StateRes.completePending
  split
  case h_1 owner pending =>
    exact ((Spares.put (.inr (.inl pending))).trans
      (Spares.of_subgraph (wakeWaiters_subgraph result))).progress
  case h_2 => exact Progress.refl global

theorem Progress.dropExhausted (path : List EventId) (stack : List (List EventId)) (global : Global) :
    Progress global (dropExhausted path stack global).2.2 := by
  fun_induction StateRes.dropExhausted path stack global with
  | case1 top path frames global ih => exact (Progress.completePending global top .dead).trans ih
  | case2 frames global ih => exact ih
  | case3 path stack global => exact Progress.refl global

theorem Progress.pop (walker : Local) (global : Global) : Progress global (walker.pop global).2.2 := by
  rw [Local.pop_global]
  exact Progress.dropExhausted _ _ _

/-- A resolved node keeps its state as node states move on. -/
theorem Progress.resolved (progress : Progress global global') {result : Resolution}
    (state : global.subgraph.get eventId = some result.substate) :
    global'.subgraph.get eventId = some result.substate := by
  cases result with
  | dead => exact (progress eventId).1 state
  | subgraph => exact (progress eventId).2.1 state

theorem Woken.progress (woken : Woken global) (progress : Progress global global')
    (ready : global'.ready = global.ready) : Woken global' := by
  intro wake member
  rw [ready] at member
  exact progress.resolved (woken wake member)

theorem Woken.wakeWaiters (woken : Woken global) {result : Resolution}
    (resolved : global.subgraph.get eventId = some result.substate) :
    Woken (StateRes.wakeWaiters global eventId result) := by
  intro wake member
  rw [wakeWaiters_subgraph]
  rcases found : global.waiters.lookup eventId with _ | ids
  · rw [wakeWaiters_of_lookup_none result found] at member
    exact woken wake member
  · rw [wakeWaiters_of_lookup result found] at member
    rcases List.mem_cons.mp member with rfl | old
    · exact resolved
    · exact woken wake old

/-- A node put in a state that moves it on, and its waiters woken with that state. -/
theorem Woken.settle (woken : Woken global) (result : Resolution)
    (progress : Progress global { global with subgraph := global.subgraph.put eventId result.substate }) :
    Woken (StateRes.wakeWaiters { global with subgraph := global.subgraph.put eventId result.substate }
      eventId result) := by
  apply Woken.wakeWaiters
  · exact woken.progress progress rfl
  · exact Table.get_put_self _ _ _

theorem Woken.completePending (woken : Woken global) (result : Resolution) :
    Woken (StateRes.completePending global eventId result) := by
  unfold StateRes.completePending
  split
  case h_1 owner pending => exact woken.settle result (Spares.put (.inr (.inl pending))).progress
  case h_2 => exact woken

theorem Woken.insertPathFilter (woken : Woken global) (alive : global.subgraph.get eventId ≠ some .dead) :
    Woken (StateRes.insertPathFilter global eventId).2 := by
  have progress : Progress global { global with subgraph := global.subgraph.put eventId .subgraph } := by
    intro other
    by_cases same : other = eventId
    · subst same
      simp [alive]
    · simpa [Table.get_put_of_ne _ _ same] using Progress.refl global other
  unfold StateRes.insertPathFilter
  split
  case h_2 => exact woken
  case h_3 => exact woken.settle .subgraph progress
  all_goals exact woken.progress progress rfl

theorem Woken.insertNodes : ∀ (nodes : List EventId) {global : Global}, Woken global →
    (∀ node ∈ nodes, global.subgraph.get node ≠ some .dead) → Woken (StateRes.insertNodes nodes global)
  | [], _, woken, _ => woken
  | node :: nodes, global, woken, alive => by
      have first := woken.insertPathFilter (alive node List.mem_cons_self)
      have rest : ∀ other ∈ nodes, (StateRes.insertPathFilter global node).2.subgraph.get other ≠
          some .dead := by
        intro other member
        rw [insertPathFilter_get]
        split_ifs
        · simp
        · exact alive other (List.mem_cons_of_mem _ member)
      unfold StateRes.insertNodes
      rcases filter : StateRes.insertPathFilter global node with ⟨_ | _, after⟩
      all_goals rw [filter] at first rest
      · exact Woken.insertNodes nodes first rest
      · have written : Woken { after with outputs := after.outputs ++ [node] } := first
        exact Woken.insertNodes nodes written rest

theorem Members.progress (members : Members conflictedSet global) (progress : Progress global global') :
    Members conflictedSet global' := by
  intro eventId member
  rcases members eventId member with conflicted | inside
  · exact (progress eventId).2.2 conflicted
  · exact .inr ((progress eventId).2.1 inside)

theorem DeadEnds.insertNodes (dead : DeadEnds fetch conflictedSet global) (nodes : List EventId) :
    DeadEnds fetch conflictedSet (StateRes.insertNodes nodes global) := by
  intro eventId marked
  rw [insertNodes_get] at marked
  split_ifs at marked
  · cases marked
  · exact dead eventId marked

theorem Emitted.insertNodes (emitted : Emitted global) (nodes : List EventId) :
    Emitted (StateRes.insertNodes nodes global) := by
  intro eventId inside
  rw [insertNodes_get] at inside
  apply insertNodes_outputs
  split_ifs at inside with member
  · by_cases before : global.subgraph.get eventId = some .subgraph
    · exact .inl (emitted eventId before)
    · exact .inr ⟨member, before⟩
  · exact .inl (emitted eventId inside)

@[simp]
theorem wakeWaiters_fetches (result : Resolution) (flights : List (Nat × EventId)) :
    (wakeWaiters global eventId result).fetches flights = global.fetches flights := by
  unfold wakeWaiters
  split <;> rfl

@[simp]
theorem wakeWaiters_inputs (result : Resolution) :
    (wakeWaiters global eventId result).inputs = global.inputs := by
  unfold wakeWaiters
  split <;> rfl

@[simp]
theorem completePending_fetches (result : Resolution) (flights : List (Nat × EventId)) :
    (completePending global eventId result).fetches flights = global.fetches flights := by
  unfold StateRes.completePending
  split
  · rw [wakeWaiters_fetches]
    rfl
  · rfl

@[simp]
theorem completePending_inputs (result : Resolution) :
    (completePending global eventId result).inputs = global.inputs := by
  unfold StateRes.completePending
  split <;> simp

@[simp]
theorem completePending_outputs (result : Resolution) :
    (completePending global eventId result).outputs = global.outputs := by
  unfold StateRes.completePending
  split <;> simp

theorem insertNodes_fetches : ∀ (nodes : List EventId) (global : Global) (flights : List (Nat × EventId)),
    (StateRes.insertNodes nodes global).fetches flights = global.fetches flights ∧
      (StateRes.insertNodes nodes global).inputs = global.inputs
  | [], _, _ => ⟨rfl, rfl⟩
  | node :: nodes, global, flights => by
      have filtered : (StateRes.insertPathFilter global node).2.fetches flights = global.fetches flights ∧
          (StateRes.insertPathFilter global node).2.inputs = global.inputs := by
        unfold StateRes.insertPathFilter
        split
        case h_3 => exact ⟨(wakeWaiters_fetches _ _).trans rfl, wakeWaiters_inputs _⟩
        all_goals exact ⟨rfl, rfl⟩
      unfold StateRes.insertNodes
      rcases filter : StateRes.insertPathFilter global node with ⟨_ | _, after⟩
      all_goals
        rw [filter] at filtered
        obtain ⟨fetches, inputs⟩ := insertNodes_fetches nodes _ flights
      · exact ⟨fetches.trans filtered.1, inputs.trans filtered.2⟩
      · exact ⟨fetches.trans filtered.1, inputs.trans filtered.2⟩

theorem Emitted.completePending (emitted : Emitted global) :
    Emitted (StateRes.completePending global eventId .dead) := by
  intro other inside
  rw [completePending_outputs]
  by_cases same : other = eventId
  · subst same
    rcases found : global.subgraph.get other with _ | ⟨_ | owner | _ | _⟩
    all_goals first
      | exact emitted other found
      | rw [completePending_get_of_pending found] at inside; cases inside
      | rw [completePending_of_settled (by simp [found])] at inside; rw [found] at inside; cases inside
  · rw [completePending_get_of_ne .dead same] at inside
    exact emitted other inside

end Shared

/-! ## Covered nodes -/

section Covered

variable {walkers walkers' : Nat → Local} {flights flights' : List (Nat × EventId)}
  {global global' : Global} {eventId : EventId}

/-- A covered node stays covered through a step where node states move on and whatever covered
it before still does. -/
theorem Covered.mono (covered : Covered fetch walkers flights global eventId)
    (progress : Progress global global')
    (inputs : eventId ∈ global.inputs → Covered fetch walkers' flights' global' eventId)
    (paths : ∀ id, eventId ∈ (walkers id).path → Covered fetch walkers' flights' global' eventId)
    (fetches : ∀ id, (id, eventId) ∈ global.fetches flights →
      Covered fetch walkers' flights' global' eventId) :
    Covered fetch walkers' flights' global' eventId := by
  rcases covered with explored | seed | ⟨id, onPath⟩ | ⟨id, fetching⟩
  · exact .inl (explored.progress progress)
  · exact inputs seed
  · exact paths id onPath
  · exact fetches id fetching

/-- A covered node stays covered through a step that moves node states on and keeps the seeds,
the paths and the fetches. -/
theorem Covered.keep (covered : Covered fetch walkers flights global eventId)
    (progress : Progress global global') (inputs : global'.inputs = global.inputs)
    (paths : ∀ id, (walkers' id).path = (walkers id).path)
    (fetches : ∀ out ∈ global.fetches flights, out ∈ global'.fetches flights') :
    Covered fetch walkers' flights' global' eventId := by
  refine covered.mono progress (fun seed => .inr (.inl (inputs ▸ seed)))
    (fun id onPath => .inr (.inr (.inl ⟨id, (paths id).symm ▸ onPath⟩)))
    (fun id fetching => .inr (.inr (.inr ⟨id, fetches _ fetching⟩)))

end Covered

/-! ## Steps of the walker in hand -/

section Step

variable {walkers : Nat → Local} {except : Nat → EventId → Prop}
  {flights flights' : List (Nat × EventId)} {global global' : Global} {id : Nat}
  {walker walker' : Local} {eventId : EventId}

theorem Aimed.spare {other : Nat} (aimed : Aimed conflictedSet global other walker eventId)
    (spares : Spares id global global') (distinct : other ≠ id) :
    Aimed conflictedSet global' other walker eventId := by
  rcases path : walker.path with _ | ⟨top, rest⟩
  all_goals simp only [Aimed, path] at aimed ⊢
  · exact aimed
  · rcases aimed with own | ⟨inside, top⟩
    · exact .inl (spares.owned eventId other distinct own)
    · exact .inr ⟨(spares.progress eventId).2.1 inside, (spares.progress _).2.1 top⟩

/-- The descents after a step of walker `id`: its own as given, the others' spared. -/
theorem Explores.descents_step
    (explores : Explores fetch conflictedSet (Function.update walkers id walker) except flights global)
    (spares : Spares id global global') {own : EventId → Prop}
    (descent : Descent fetch conflictedSet global' id own walker') (other : Nat) :
    Descent fetch conflictedSet global' other (Function.update except id own other)
      (Function.update walkers id walker' other) := by
  by_cases same : other = id
  · subst same
    simpa using descent
  · have old := explores.descents other
    rw [Function.update_of_ne same] at old ⊢
    rw [Function.update_of_ne same]
    exact old.spare spares same fun _ _ auth excepted => .inl excepted

/-- The aims of the fetches out after a step of walker `id`: its own as given, the others'
spared. -/
theorem Explores.aimed_step
    (explores : Explores fetch conflictedSet (Function.update walkers id walker) except flights global)
    (spares : Spares id global global')
    (kept : ∀ other eventId, other ≠ id → (other, eventId) ∈ global'.fetches flights' →
      (other, eventId) ∈ global.fetches flights)
    (own : ∀ eventId, (id, eventId) ∈ global'.fetches flights' →
      Aimed conflictedSet global' id walker' eventId) :
    ∀ other eventId, (other, eventId) ∈ global'.fetches flights' →
      Aimed conflictedSet global' other (Function.update walkers id walker' other) eventId := by
  intro other eventId fetching
  by_cases same : other = id
  · subst same
    rw [Function.update_self]
    exact own eventId fetching
  · rw [Function.update_of_ne same]
    have aimed := explores.aimed other eventId (kept other eventId same fetching)
    rw [Function.update_of_ne same] at aimed
    exact aimed.spare spares same

theorem update_paths (same : walker'.path = walker.path) (other : Nat) :
    (Function.update walkers id walker' other).path = (Function.update walkers id walker other).path := by
  by_cases here : other = id
  · subst here
    simpa using same
  · simp [Function.update_of_ne here]

/-- A `Pending` node is on no path but its owner's. -/
theorem Explores.owner_of_mem_path (explores : Explores fetch conflictedSet walkers except flights global)
    {owner other : Nat} (pending : global.subgraph.get eventId = some (.pending owner))
    (member : eventId ∈ (walkers other).path) : other = owner := by
  rcases (explores.descents other).state_of_mem explores.members eventId member with
    theirs | inside | conflicted
  · rw [pending] at theirs
    exact (Substate.pending.inj (Option.some.inj theirs)).symm
  · rw [pending] at inside
    cases inside
  · rw [pending] at conflicted
    cases conflicted

/-- Only its owner has a fetch of a `Pending` node out: a fetch from an empty path is of a seed,
which is never `Pending`. -/
theorem Explores.owner_of_fetching (explores : Explores fetch conflictedSet walkers except flights global)
    {owner other : Nat} (pending : global.subgraph.get eventId = some (.pending owner))
    (fetching : (other, eventId) ∈ global.fetches flights) : other = owner := by
  have aimed := explores.aimed other eventId fetching
  rcases path : (walkers other).path with _ | ⟨top, rest⟩
  all_goals simp only [Aimed, path] at aimed
  · rcases explores.members eventId aimed with state | state
    all_goals
      rw [pending] at state
      cases state
  · rw [pending] at aimed
    rcases aimed with same | ⟨inside, _⟩
    · exact (Substate.pending.inj (Option.some.inj same)).symm
    · cases inside

/-- The walker in hand's own `Pending` node dies once it is explored, on no path and fetched by no
one: each of its auth events is `Dead`, so it reaches nothing conflicted. -/
theorem Explores.completeDead (explores : Explores fetch conflictedSet walkers except flights global)
    (pending : global.subgraph.get eventId = some (.pending id))
    (explored : Explored fetch global eventId) (offPath : ∀ other, eventId ∉ (walkers other).path)
    (unfetched : ∀ other, (other, eventId) ∉ global.fetches flights)
    {except' : Nat → EventId → Prop}
    (moved : ∀ other, ∀ top ∈ (walkers other).path.head?, ∀ auth, except other auth →
      except' other auth ∨ Handled (completePending global eventId .dead) top auth) :
    Explores fetch conflictedSet walkers except' flights (completePending global eventId .dead) := by
  have progress := Progress.completePending global eventId .dead
  have same : ∀ node, node ≠ eventId →
      (completePending global eventId .dead).subgraph.get node = global.subgraph.get node :=
    fun node distinct => completePending_get_of_ne .dead distinct
  have died := completePending_get_of_pending pending .dead
  refine ⟨fun other => (explores.descents other).stable progress
      (fun node member => same node fun here => offPath other (here ▸ member)) (moved other),
    fun other node fetching => ?_, fun node marked => ?_, explores.members.progress progress,
    explores.woken.completePending .dead, fun node inside => ?_, explores.emitted.completePending⟩
  · rw [completePending_fetches] at fetching
    have aimed := explores.aimed other node fetching
    have distinct : node ≠ eventId := fun here => unfetched other (here ▸ fetching)
    rcases path : (walkers other).path with _ | ⟨top, rest⟩
    all_goals simp only [Aimed, path] at aimed ⊢
    · exact aimed
    · have below : top ≠ eventId := fun here =>
        offPath other (by rw [path, here]; exact List.mem_cons_self)
      rw [same node distinct, same top below]
      exact aimed
  · by_cases here : node = eventId
    · subst here
      -- each auth event of the node is `Dead`, and the node is not conflicted
      refine DepthFirst.not_leads_of_forall (fun member => ?_) fun auth edge => ?_
      · rcases explores.members node member with conflicted | inside
        · rw [pending] at conflicted
          cases conflicted
        · rw [pending] at inside
          cases inside
      · obtain ⟨authEvents, fetched, member⟩ := edge
        rcases explored authEvents fetched auth member with dead | ⟨_, parent⟩
        · exact explores.dead auth dead
        · rw [pending] at parent
          cases parent
    · rw [same node here] at marked
      exact explores.dead node marked
  · have before : node ∈ conflictedSet ∨ global.subgraph.get node = some .subgraph := by
      rcases inside with member | joined
      · exact .inl member
      · by_cases here : node = eventId
        · rw [here, died] at joined
          cases joined
        · rw [same node here] at joined
          exact .inr joined
    exact (explores.explored node before).keep progress (completePending_inputs .dead)
      (fun _ => rfl) fun out member => by rwa [completePending_fetches]

theorem Movable.of_covered (members : Members conflictedSet global)
    (covered : eventId ∈ conflictedSet ∨ global.subgraph.get eventId = some .subgraph) :
    Movable global id eventId := by
  have settled : global.subgraph.get eventId = some .conflicted ∨
      global.subgraph.get eventId = some .subgraph := by
    rcases covered with member | inside
    · exact members eventId member
    · exact .inr inside
  rcases settled with state | state
  all_goals exact ⟨by simp [state], fun owner pending => by simp [state] at pending⟩

/-- The nodes `insert_path` by the walker in hand moves into the subgraph, on an event that is
conflicted or in the subgraph, are nodes it may move on. -/
theorem Explores.insertPath_movable
    (explores : Explores fetch conflictedSet (Function.update walkers id walker) except flights global)
    (covered : eventId ∈ conflictedSet ∨ global.subgraph.get eventId = some .subgraph) :
    ∀ node ∈ (walker.path.take (walker.path.length - walker.marked)).reverse ++ [eventId],
      Movable global id node := by
  have descent := explores.descents id
  simp only [Function.update_self] at descent
  intro node member
  rcases List.mem_append.mp member with unmarked | added
  · exact descent.movable explores.members node (List.mem_of_mem_take (List.mem_reverse.mp unmarked))
  · rw [List.mem_singleton.mp added]
    exact Movable.of_covered explores.members covered

theorem Explores.insertPath_spares
    (explores : Explores fetch conflictedSet (Function.update walkers id walker) except flights global)
    (covered : eventId ∈ conflictedSet ∨ global.subgraph.get eventId = some .subgraph) :
    Spares id global (walker.insertPath global eventId).2 :=
  Spares.insertNodes _ (explores.insertPath_movable covered)

/-- `Local::insert_path` by the walker in hand, on an event that is conflicted or in the subgraph:
the path and the event join the subgraph, and each node new to it is yielded. -/
theorem Explores.insertPath
    (explores : Explores fetch conflictedSet (Function.update walkers id walker) except flights global)
    (covered : eventId ∈ conflictedSet ∨ global.subgraph.get eventId = some .subgraph)
    (idle : ∀ other, (id, other) ∉ global.fetches flights) (own : EventId → Prop)
    (moved : ∀ top ∈ walker.path.head?, ∀ auth, except id auth →
      own auth ∨ Handled (walker.insertPath global eventId).2 top auth) :
    Explores fetch conflictedSet (Function.update walkers id (walker.insertPath global eventId).1)
      (Function.update except id own) flights (walker.insertPath global eventId).2 := by
  have descent := explores.descents id
  simp only [Function.update_self] at descent
  have nodes := explores.insertPath_movable covered
  have movable : ∀ node, node ∈ walker.path ∨ node = eventId → Movable global id node := by
    rintro node (member | rfl)
    · exact descent.movable explores.members node member
    · exact nodes node (List.mem_append_right _ (List.mem_singleton_self node))
  have spares := explores.insertPath_spares covered
  obtain ⟨fetches, inputs⟩ := insertNodes_fetches
    ((walker.path.take (walker.path.length - walker.marked)).reverse ++ [eventId]) global flights
  have paths : ∀ other, (Function.update walkers id (walker.insertPath global eventId).1 other).path =
      (Function.update walkers id walker other).path := update_paths rfl
  refine ⟨explores.descents_step spares (descent.insertPath movable moved),
    explores.aimed_step spares (fun other node _ fetching => ?_) (fun node fetching => ?_),
    explores.dead.insertNodes _, explores.members.progress spares.progress,
    explores.woken.insertNodes _ fun node member => (nodes node member).1, fun node inside => ?_,
    explores.emitted.insertNodes _⟩
  · rwa [Local.insertPath, fetches] at fetching
  · rw [Local.insertPath, fetches] at fetching
    exact absurd fetching (idle node)
  · have keep : ∀ node, node ∈ conflictedSet ∨ global.subgraph.get node = some .subgraph →
        Covered fetch (Function.update walkers id (walker.insertPath global eventId).1) flights
          (walker.insertPath global eventId).2 node := fun node before =>
      (explores.explored node before).keep spares.progress inputs paths
        fun out member => by rwa [Local.insertPath, fetches]
    rcases inside with member | joined
    · exact keep node (.inl member)
    rw [Local.insertPath, insertNodes_get] at joined
    split_ifs at joined with added
    · rcases List.mem_append.mp added with unmarked | event
      · -- a node of the path is covered by the path
        refine .inr (.inr (.inl ⟨id, ?_⟩))
        rw [Function.update_self]
        exact List.mem_of_mem_take (List.mem_reverse.mp unmarked)
      · rw [List.mem_singleton.mp event]
        exact keep eventId covered
    · exact keep node (.inr joined)

/-- A node met for the first time becomes the walker's own `Pending` node, fetched by it. -/
theorem Explores.claim
    (explores : Explores fetch conflictedSet (Function.update walkers id walker) except [] global)
    (unmarked : global.subgraph.get eventId = none) (nonempty : walker.path ≠ [])
    (idle : ∀ other, (id, other) ∉ global.fetches []) :
    Explores fetch conflictedSet (Function.update walkers id walker) except [(id, eventId)]
      { global with subgraph := global.subgraph.put eventId (.pending id) } := by
  have spares : Spares id global { global with subgraph := global.subgraph.put eventId (.pending id) } :=
    Spares.put (.inl unmarked)
  have same : ∀ node, node ≠ eventId →
      (global.subgraph.put eventId (.pending id)).get node = global.subgraph.get node :=
    fun node distinct => Table.get_put_of_ne _ _ distinct
  have descent := explores.descents id
  simp only [Function.update_self] at descent
  -- the node was unmarked, so it is on no path
  have offPath : eventId ∉ walker.path := fun member => by
    rcases descent.state_of_mem explores.members eventId member with state | state | state
    all_goals simp [unmarked] at state
  have descents := explores.descents_step spares (descent.stable spares.progress
    (fun node member => same node fun here => offPath (here ▸ member)) fun _ _ _ kept => .inl kept)
  rw [Function.update_eq_self] at descents
  refine ⟨descents, explores.aimed_step spares (fun other node distinct fetching => ?_)
      (fun node fetching => ?_), fun node marked => ?_, explores.members.progress spares.progress,
    explores.woken.progress spares.progress rfl, fun node inside => ?_, fun node inside => ?_⟩
  · simp only [Global.fetches, List.append_nil, List.mem_append, List.mem_singleton,
      Prod.mk.injEq] at fetching ⊢
    rcases fetching with old | ⟨rfl, _⟩
    · exact old
    · exact absurd rfl distinct
  · simp only [Global.fetches, List.mem_append, List.mem_singleton, Prod.mk.injEq] at fetching
    rcases fetching with old | ⟨_, rfl⟩
    · exact absurd (by simpa [Global.fetches] using old) (idle node)
    · rcases path : walker.path with _ | ⟨top, rest⟩
      · exact absurd path nonempty
      · simp only [Aimed, path]
        exact .inl (Table.get_put_self _ _ _)
  · have distinct : node ≠ eventId := by
      rintro rfl
      simp at marked
    rw [same node distinct] at marked
    exact explores.dead node marked
  · have before : node ∈ conflictedSet ∨ global.subgraph.get node = some .subgraph := by
      rcases inside with member | joined
      · exact .inl member
      · have distinct : node ≠ eventId := by
          rintro rfl
          simp at joined
        rw [same node distinct] at joined
        exact .inr joined
    exact (explores.explored node before).keep spares.progress rfl (fun _ => rfl)
      fun out member => List.mem_append_left _ (by simpa [Global.fetches] using member)
  · have distinct : node ≠ eventId := by
      rintro rfl
      simp at inside
    rw [same node distinct] at inside
    exact explores.emitted node inside

/-- The walker in hand's stack or mark changes, and its path does not. -/
theorem Explores.restack
    (explores : Explores fetch conflictedSet (Function.update walkers id walker) except flights global)
    {own : EventId → Prop} (descent : Descent fetch conflictedSet global id own walker')
    (same : walker'.path = walker.path) :
    Explores fetch conflictedSet (Function.update walkers id walker') (Function.update except id own)
      flights global := by
  have paths : ∀ other, (Function.update walkers id walker' other).path =
      (Function.update walkers id walker other).path := update_paths same
  refine ⟨explores.descents_step (Spares.refl id global) descent, fun other eventId fetching => ?_,
    explores.dead, explores.members, explores.woken, fun eventId inside =>
      (explores.explored eventId inside).keep (Progress.refl global) rfl paths fun _ member => member,
    explores.emitted⟩
  have aimed := explores.aimed other eventId fetching
  unfold Aimed at aimed ⊢
  rwa [paths other]

/-- The auth events the walker in hand's top node is to come back to, traded for others or done
with. -/
theorem Explores.discharge
    (explores : Explores fetch conflictedSet (Function.update walkers id walker) except flights global)
    (own : EventId → Prop)
    (moved : ∀ top ∈ walker.path.head?, ∀ auth, except id auth → own auth ∨ Handled global top auth) :
    Explores fetch conflictedSet (Function.update walkers id walker) (Function.update except id own)
      flights global := by
  have descent := explores.descents id
  simp only [Function.update_self] at descent
  exact explores.restack (descent.stable (Progress.refl global) (fun _ _ => rfl) moved) rfl

/-- `Local::pop` dropping an exhausted frame: the node it was for has each auth event done with,
so it is explored, and the node below comes back to it. -/
theorem Explores.dropTop {top : EventId} {path : List EventId} {frames : List (List EventId)}
    {marked : Nat}
    (explores : Explores fetch conflictedSet
      (Function.update walkers id ⟨top :: path, [] :: frames, marked⟩) except flights global)
    (clear : ∀ auth, ¬ except id auth) (idle : ∀ other, (id, other) ∉ global.fetches flights) :
    Explores fetch conflictedSet (Function.update walkers id ⟨path, frames, min marked path.length⟩)
      (Function.update except id (· = top)) flights global ∧ Explored fetch global top := by
  have descent := explores.descents id
  simp only [Function.update_self] at descent
  have explored : Explored fetch global top := by
    obtain ⟨⟨authEvents, fetched, each⟩, _⟩ := descent.levels
    intro authEvents' fetched' auth member
    rw [fetched, Option.some.injEq] at fetched'
    subst fetched'
    rcases each auth member with inFrame | handled | excepted
    · exact absurd inFrame List.not_mem_nil
    · exact handled
    · exact absurd excepted (clear auth)
  refine ⟨⟨explores.descents_step (Spares.refl id global) descent.tail,
    explores.aimed_step (Spares.refl id global) (fun _ _ _ fetching => fetching)
      (fun eventId fetching => absurd fetching (idle eventId)),
    explores.dead, explores.members, explores.woken, fun eventId inside => ?_, explores.emitted⟩,
    explored⟩
  refine (explores.explored eventId inside).mono (Progress.refl global)
    (fun seed => .inr (.inl seed)) (fun other onPath => ?_)
    (fun other fetching => .inr (.inr (.inr ⟨other, fetching⟩)))
  by_cases here : other = id
  · subst here
    rw [Function.update_self] at onPath
    rcases List.mem_cons.mp onPath with rfl | below
    · exact .inl explored
    · exact .inr (.inr (.inl ⟨other, by simpa using below⟩))
  · rw [Function.update_of_ne here] at onPath
    exact .inr (.inr (.inl ⟨other, by simpa [Function.update_of_ne here] using onPath⟩))

/-- The invariant reads node states, fetches, `ready`, `inputs` and `outputs` only. -/
theorem Explores.congr (explores : Explores fetch conflictedSet walkers except flights global)
    (subgraph : global'.subgraph = global.subgraph)
    (fetches : ∀ out, out ∈ global'.fetches flights' ↔ out ∈ global.fetches flights)
    (ready : global'.ready = global.ready) (inputs : global'.inputs = global.inputs)
    (outputs : global'.outputs = global.outputs) :
    Explores fetch conflictedSet walkers except flights' global' := by
  have progress := Progress.of_subgraph subgraph
  refine ⟨fun id => (explores.descents id).stable progress (fun node _ => by rw [subgraph])
      fun _ _ _ kept => .inl kept,
    fun id eventId fetching => ?_, fun eventId marked => explores.dead eventId (subgraph ▸ marked),
    explores.members.progress progress, explores.woken.progress progress ready,
    fun eventId inside => ?_, fun eventId inside => ?_⟩
  · have aimed := explores.aimed id eventId ((fetches _).mp fetching)
    unfold Aimed at aimed ⊢
    rwa [subgraph]
  · rw [subgraph] at inside
    exact (explores.explored eventId inside).keep progress inputs (fun _ => rfl)
      fun out member => (fetches out).mpr member
  · rw [subgraph] at inside
    rw [outputs]
    exact explores.emitted eventId inside

/-- A walker parking changes `waiters` and `parked` only. -/
theorem Explores.park (explores : Explores fetch conflictedSet walkers except flights global)
    (waiters : AList fun _ : EventId => List Nat) (parked : Nat) :
    Explores fetch conflictedSet walkers except flights { global with waiters, parked } :=
  explores.congr rfl (fun _ => Iff.rfl) rfl rfl rfl

/-- A fetch the walker in hand puts out, with its aim. -/
theorem Explores.fly (explores : Explores fetch conflictedSet walkers except [] global)
    (aimed : Aimed conflictedSet global id (walkers id) eventId) :
    Explores fetch conflictedSet walkers except [(id, eventId)] global := by
  refine ⟨explores.descents, fun other node fetching => ?_, explores.dead, explores.members,
    explores.woken, fun node inside => (explores.explored node inside).keep (Progress.refl global) rfl
      (fun _ => rfl) fun out member => ?_, explores.emitted⟩
  · simp only [Global.fetches, List.mem_append, List.mem_singleton, Prod.mk.injEq] at fetching
    rcases fetching with old | ⟨rfl, rfl⟩
    · exact explores.aimed other node (by simpa [Global.fetches] using old)
    · exact aimed
  · exact List.mem_append_left _ (by simpa [Global.fetches] using member)

/-- `Local::eval` by the walker in hand only moves node states on. -/
theorem Explores.eval_progress
    (explores : Explores fetch conflictedSet (Function.update walkers id walker) except flights global)
    (conflicted : global.subgraph.get eventId = some .conflicted → eventId ∈ conflictedSet) :
    Progress global (walker.eval id global eventId).2.2 := by
  unfold Local.eval
  rcases marked : global.subgraph.get eventId with _ | state
  case none =>
    have claimed : Spares id global { global with subgraph := global.subgraph.put eventId (.pending id) } :=
      Spares.put (.inl marked)
    exact claimed.progress
  cases state with
  | subgraph => exact (explores.insertPath_spares (.inr marked)).progress
  | dead => exact Progress.refl global
  | pending owner =>
      dsimp only
      split_ifs
      · exact Progress.refl global
      · exact Progress.of_subgraph rfl
  | conflicted => exact (explores.insertPath_spares (.inl (conflicted marked))).progress

theorem dropExhausted_length_le (path : List EventId) (stack : List (List EventId))
    (global : Global) : (dropExhausted path stack global).1.length ≤ path.length := by
  fun_induction dropExhausted path stack global with
  | case1 eventId path frames global ih =>
      simp only [List.length_cons]
      omega
  | case2 frames global ih => exact ih
  | case3 => exact le_refl _

variable (acyclic : WellFounded (flip (AuthEdge fetch)))
include acyclic

/-- The loop of `Local::pop`, by induction on it: each exhausted frame's node is explored, and if
it was the walker's own `Pending` node it dies, each of its auth events being `Dead`. -/
theorem Explores.dropExhausted (path : List EventId) (stack : List (List EventId)) (global : Global) :
    ∀ marked, (path.IsChain fun above below => AuthEdge fetch below above) →
      (∀ other, (id, other) ∉ global.fetches flights) →
      Explores fetch conflictedSet (Function.update walkers id ⟨path, stack, marked⟩)
        (Function.update except id fun _ => False) flights global →
      Explores fetch conflictedSet
        (Function.update walkers id ⟨(StateRes.dropExhausted path stack global).1,
          (StateRes.dropExhausted path stack global).2.1,
          min marked (StateRes.dropExhausted path stack global).1.length⟩)
        (Function.update except id fun _ => False) flights
        (StateRes.dropExhausted path stack global).2.2 := by
  fun_induction StateRes.dropExhausted path stack global with
  | case1 top path frames global ih =>
      intro marked chain idle explores
      have descent := explores.descents id
      simp only [Function.update_self] at descent
      obtain ⟨dropped, explored⟩ := explores.dropTop (by simp) idle
      have unrepeated : top ∉ path :=
        (List.nodup_cons.mp (DepthFirst.nodup_of_isChain acyclic chain)).1
      -- the node below comes back to the dropped node no more
      have settled : Explores fetch conflictedSet
          (Function.update walkers id ⟨path, frames, min marked path.length⟩)
          (Function.update except id fun _ => False) flights
          (StateRes.completePending global top .dead) := by
        by_cases pending : global.subgraph.get top = some (.pending id)
        · have died := completePending_get_of_pending pending .dead
          refine dropped.completeDead pending explored (fun other member => ?_)
            (fun other fetching => idle top (dropped.owner_of_fetching pending fetching ▸ fetching))
            fun other below head auth excepted => ?_
          · by_cases here : other = id
            · subst here
              simp only [Function.update_self] at member
              exact unrepeated member
            · exact here (dropped.owner_of_mem_path pending member)
          · by_cases here : other = id
            · subst here
              simp only [Function.update_self] at excepted ⊢
              subst excepted
              exact .inr (.inl died)
            · simp only [Function.update_of_ne here] at excepted ⊢
              exact .inl excepted
        · have unsettled : ∀ owner, global.subgraph.get top ≠ some (.pending owner) := by
            intro owner found
            have own := (descent.movable dropped.members top List.mem_cons_self).2 owner found
            exact pending (own ▸ found)
          rw [completePending_of_settled unsettled]
          -- a node kept by its frame is in the subgraph, and so is the node below it
          have done : Explores fetch conflictedSet
              (Function.update walkers id ⟨path, frames, min marked path.length⟩)
              (Function.update (Function.update (Function.update except id fun _ => False) id (· = top))
                id fun _ => False) flights global := by
            refine dropped.discharge _ fun below head auth excepted => .inr (.inr ?_)
            simp only [Function.update_self] at excepted
            subst excepted
            cases path with
            | nil => simp at head
            | cons next rest =>
                simp only [List.head?_cons, Option.mem_def, Option.some.injEq] at head
                subst head
                rcases descent.live auth (by simp) with own | inside
                · exact absurd own pending
                · exact ⟨inside, (List.isChain_cons_cons.mp descent.climbs).1 inside⟩
          rwa [Function.update_idem, Function.update_idem] at done
      have idle' : ∀ other, (id, other) ∉ (StateRes.completePending global top .dead).fetches flights := by
        simpa using idle
      have loop := ih (min marked path.length) chain.tail idle' settled
      rwa [min_assoc, min_eq_right (dropExhausted_length_le _ _ _)] at loop
  | case2 frames global ih =>
      intro marked _ _ explores
      have descent := explores.descents id
      simp only [Function.update_self] at descent
      exact descent.levels.elim
  | case3 path stack global =>
      intro marked _ _ explores
      have descent := explores.descents id
      simp only [Function.update_self] at descent
      rwa [min_eq_left descent.bounded]

/-- `Local::pop` by the walker in hand: the auth event it takes off the top frame is the one its
top node is to come back to. -/
theorem Explores.pop (explores : Explores fetch conflictedSet (Function.update walkers id walker)
      (Function.update except id fun _ => False) flights global)
    (chain : walker.path.IsChain fun above below => AuthEdge fetch below above)
    (idle : ∀ other, (id, other) ∉ global.fetches flights) :
    match walker.pop global with
    | (some eventId, popped, global') => Explores fetch conflictedSet (Function.update walkers id popped)
        (Function.update except id (· = eventId)) flights global'
    | (none, popped, global') => Explores fetch conflictedSet (Function.update walkers id popped)
        (Function.update except id fun _ => False) flights global' := by
  obtain ⟨path, stack, marked⟩ := walker
  have dropped := Explores.dropExhausted acyclic path stack global marked chain idle explores
  unfold Local.pop
  rcases result : StateRes.dropExhausted path stack global with
    ⟨path', _ | ⟨_ | ⟨eventId, frame⟩, frames⟩, after⟩
  all_goals
    rw [result] at dropped
    dsimp only at dropped ⊢
  · exact dropped
  · exact dropped
  · have descent := dropped.descents id
    simp only [Function.update_self] at descent
    have framed : Descent fetch conflictedSet after id (· = eventId)
        ⟨path', frame :: frames, min marked path'.length⟩ :=
      descent.popFrame (fun _ clear => clear.elim) rfl
    have popped := dropped.restack framed rfl
    rwa [Function.update_idem] at popped

/-- On an acyclic auth graph, an event a walker may be sent to from its top node is not on its
path. -/
theorem WalkerOk.not_mem_of_aims (ok : WalkerOk fetch conflictedSet walker)
    (aims : Aims fetch conflictedSet walker eventId) (nonempty : walker.path ≠ []) :
    eventId ∉ walker.path := by
  intro member
  have chain := ok.chain
  rcases path : walker.path with _ | ⟨top, rest⟩
  · exact nonempty path
  simp only [Aims, path] at aims
  rw [path] at chain member
  exact DepthFirst.not_transGen_self acyclic eventId
    (.tail' (DepthFirst.reaches_top chain eventId member) aims)

/-- `Local::eval` by the walker in hand, on the auth event its top node is to come back to.  The
event is done with, or is what the walker now fetches or is parked on.  On an acyclic auth graph
it is never the walker's own `Pending` node, which would be on its path. -/
theorem Explores.eval
    (explores : Explores fetch conflictedSet (Function.update walkers id walker)
      (Function.update except id (· = eventId)) [] global)
    (ok : WalkerOk fetch conflictedSet walker) (aims : Aims fetch conflictedSet walker eventId)
    (nonempty : walker.path ≠ [])
    (held : global.subgraph.get eventId = some (.pending id) →
      eventId ∈ walker.path ∨ (id, eventId) ∈ global.fetches [])
    (conflicted : global.subgraph.get eventId = some .conflicted → eventId ∈ conflictedSet)
    (idle : ∀ other, (id, other) ∉ global.fetches []) :
    match walker.eval id global eventId with
    | (.continue, walker', global') => Explores fetch conflictedSet (Function.update walkers id walker')
        (Function.update except id fun _ => False) [] global'
    | (.fetch next, walker', global') => Explores fetch conflictedSet
        (Function.update walkers id walker') (Function.update except id (· = next)) [(id, next)] global'
    | (.park, walker', global') => Explores fetch conflictedSet (Function.update walkers id walker')
        (Function.update except id (· = eventId)) [] global' := by
  have descent := explores.descents id
  simp only [Function.update_self] at descent
  -- after `insert_path`, the event and the top node are both in the subgraph
  have joined : ∀ top ∈ walker.path.head?, ∀ auth, auth = eventId →
      Handled (walker.insertPath global eventId).2 top auth := by
    rintro top head auth rfl
    exact descent.insertPath_handled top head
  unfold Local.eval
  rcases marked : global.subgraph.get eventId with _ | state
  case none => exact explores.claim marked nonempty idle
  cases state with
  | subgraph =>
      have inserted := explores.insertPath (.inr marked) idle (fun _ => False)
        fun top head auth excepted => .inr (joined top head auth (by simpa using excepted))
      rwa [Function.update_idem] at inserted
  | dead =>
      have done := explores.discharge (fun _ => False) fun top _ auth excepted => .inr (.inl (by
        simp only [Function.update_self] at excepted
        rwa [excepted]))
      rwa [Function.update_idem] at done
  | pending owner =>
      dsimp only
      split_ifs with own
      · -- the walker's own node is on its path, and the auth graph would have a cycle
        subst own
        rcases held marked with onPath | fetching
        · exact absurd onPath (ok.not_mem_of_aims acyclic aims nonempty)
        · exact absurd fetching (idle eventId)
      · exact explores.park _ _
  | conflicted =>
      have inside := conflicted marked
      have continued := explores.insertPath (.inl inside) idle (fun _ => False)
        fun top head auth excepted => .inr (joined top head auth (by simpa using excepted))
      have fetching := explores.insertPath (.inl inside) idle (· = eventId)
        fun top head auth excepted => .inl (by simpa using excepted)
      have atEvent : (walker.insertPath global eventId).2.subgraph.get eventId = some .subgraph :=
        descent.insertPath_subgraph eventId (.inr rfl)
      have atPath : ∀ node ∈ walker.path,
          (walker.insertPath global eventId).2.subgraph.get node = some .subgraph :=
        fun node member => descent.insertPath_subgraph node (.inl member)
      have samePath : (walker.insertPath global eventId).1.path = walker.path := rfl
      rw [Function.update_idem] at continued fetching
      rcases result : walker.insertPath global eventId with ⟨walker', global'⟩
      rw [result] at continued fetching atEvent atPath samePath
      dsimp only
      split_ifs with seed
      · exact continued
      · -- the walker fetches the conflicted event, now in the subgraph with its top node
        refine fetching.fly ?_
        rw [Function.update_self]
        unfold Aimed
        rw [samePath]
        rcases path : walker.path with _ | ⟨top, rest⟩
        · exact absurd path nonempty
        · exact .inr ⟨atEvent, atPath top (by rw [path]; exact List.mem_cons_self)⟩

end Step

/-! ## The loop of `advance` -/

section Loop

variable {walkers : Nat → Local} {except : Nat → EventId → Prop} {hand : Multiset Nat}
  {global : Global} {id : Nat} {walker : Local} {eventId : EventId}

/-- A walker in hand holds no other ticket. -/
theorem Safe.free (safe : Safe fetch conflictedSet walkers (id ::ₘ hand) global) :
    id ∉ global.tickets := fun counted =>
  Multiset.disjoint_left.mp (Multiset.nodup_add.mp safe.single).2.2 counted
    (Multiset.mem_cons_self id hand)

/-- A walker in hand holds no fetch out. -/
theorem Safe.idle (safe : Safe fetch conflictedSet walkers (id ::ₘ hand) global) (eventId : EventId) :
    (id, eventId) ∉ global.fetches [] := by
  intro member
  simp only [Global.fetches, List.append_nil] at member
  exact safe.free (Global.mem_tickets_of_fetching member)

theorem Descent.default (global : Global) (id : Nat) (except : EventId → Prop) :
    Descent fetch conflictedSet global id except Local.default :=
  ⟨trivial, .nil, le_refl 0, fun _ member => by simp [Local.default] at member,
    fun _ member => by simp [Local.default] at member, fun _ bottom => by simp [Local.default] at bottom⟩

/-- A walker that parks holds a place among the waiters of the event it parked on. -/
theorem Local.eval_park {walker walker' : Local} {global' : Global}
    (parked : walker.eval id global eventId = (.park, walker', global')) :
    ∃ ids, global'.waiters.lookup eventId = some ids ∧ id ∈ ids := by
  unfold Local.eval at parked
  split at parked
  case h_3 owner _ =>
    split_ifs at parked
    · simp at parked
    · simp only [Prod.mk.injEq] at parked
      rw [← parked.2.2]
      exact ⟨_, AList.lookup_insert _, List.mem_append_right _ (List.mem_singleton_self id)⟩
  case h_4 =>
    rcases inserted : walker.insertPath global eventId with ⟨walker'', global''⟩
    rw [inserted] at parked
    dsimp only at parked
    split_ifs at parked <;> simp at parked
  all_goals simp at parked

variable (acyclic : WellFounded (flip (AuthEdge fetch)))
include acyclic

/-- A pop and an evaluation by the walker in hand, the body of the loop of `advance`. -/
theorem Explores.popEval
    (explores : Explores fetch conflictedSet (Function.update walkers id walker)
      (Function.update except id fun _ => False) [] global)
    (safe : Safe fetch conflictedSet (Function.update walkers id walker) (id ::ₘ hand) global)
    (owned : Owned (Function.update walkers id walker) (id ::ₘ hand) [] global)
    {popped : Local} {global' : Global} (taken : walker.pop global = (some eventId, popped, global')) :
    Progress global (popped.eval id global' eventId).2.2 ∧
    match popped.eval id global' eventId with
    | (.continue, walker', global'') => Explores fetch conflictedSet
        (Function.update walkers id walker') (Function.update except id fun _ => False) [] global''
    | (.fetch next, walker', global'') => Explores fetch conflictedSet
        (Function.update walkers id walker') (Function.update except id (· = next)) [(id, next)] global''
    | (.park, walker', global'') => Explores fetch conflictedSet (Function.update walkers id walker')
        (Function.update except id (· = eventId)) [] global'' := by
  have ok := safe.served_ok
  have poppedExplores := explores.pop acyclic ok.chain safe.idle
  obtain ⟨poppedOk, aimed⟩ := ok.pop global
  have poppedSafe := safe.pop walker
  have poppedOwned := owned.pop
  have progress := Progress.pop walker global
  rw [taken] at poppedExplores poppedOk aimed poppedSafe poppedOwned progress
  obtain ⟨aims, nonempty⟩ := aimed eventId rfl
  refine ⟨progress.trans (poppedExplores.eval_progress (poppedSafe.conflicted eventId)),
    poppedExplores.eval acyclic poppedOk aims nonempty (fun pending => ?_)
      (poppedSafe.conflicted eventId) poppedSafe.idle⟩
  simpa using poppedOwned.held eventId id pending

/-- The loop of `advance` by the walker in hand, by induction on the loop: the walker ends with its
top node to come back to the one event it holds a ticket for, a fetch out or a place among
waiters, or with an empty path. -/
theorem Explores.descend (walker : Local) (global : Global) :
    Safe fetch conflictedSet (Function.update walkers id walker) (id ::ₘ hand) global →
    Owned (Function.update walkers id walker) (id ::ₘ hand) [] global →
    Explores fetch conflictedSet (Function.update walkers id walker)
      (Function.update except id fun _ => False) [] global →
    Progress global (Local.descend id walker global).2.2 ∧
    match Local.descend id walker global with
    | (some next, walker', global') => Explores fetch conflictedSet (Function.update walkers id walker')
        (Function.update except id (Ticketed global' [(id, next)] id)) [(id, next)] global'
    | (none, walker', global') => Explores fetch conflictedSet (Function.update walkers id walker')
        (Function.update except id (Ticketed global' [] id)) [] global' := by
  fun_induction Local.descend id walker global with
  | case1 walker global popped global' taken =>
      -- the stack ran out, and the path with it: the walker starts over
      intro safe _ explores
      have after := explores.pop acyclic safe.served_ok.chain safe.idle
      have progress := Progress.pop walker global
      rw [taken] at after progress
      have exhausted := Local.pop_eq_none_stack taken
      have descent := after.descents id
      simp only [Function.update_self] at descent
      have empty : popped.path = [] :=
        List.eq_nil_of_length_eq_zero (by rw [descent.levels.length_eq, exhausted]; rfl)
      rw [if_pos exhausted]
      have reset := after.restack (Descent.default global' id (Ticketed global' [] id))
        (by rw [empty]; rfl)
      rw [Function.update_idem] at reset
      exact ⟨progress, reset⟩
  | case2 walker global eventId popped global' taken walker' global'' evaluated ih =>
      intro safe owned explores
      have safeStep := safe.popEval taken
      have ownedStep := owned.popEval taken
      have step := explores.popEval acyclic safe owned taken
      rw [evaluated] at safeStep ownedStep step
      have rest := ih safeStep ownedStep step.2
      exact ⟨step.1.trans rest.1, rest.2⟩
  | case3 walker global eventId popped global' taken next walker' global'' evaluated =>
      intro safe owned explores
      have step := explores.popEval acyclic safe owned taken
      rw [evaluated] at step
      have ticketed := step.2.discharge (Ticketed global'' [(id, next)] id) fun _ _ auth excepted => by
        simp only [Function.update_self] at excepted
        subst excepted
        exact .inl (.inl (List.mem_append_right _ (List.mem_singleton_self _)))
      rw [Function.update_idem] at ticketed
      exact ⟨step.1, ticketed⟩
  | case4 walker global eventId popped global' taken walker' global'' evaluated =>
      intro safe owned explores
      have step := explores.popEval acyclic safe owned taken
      rw [evaluated] at step
      obtain ⟨ids, found, member⟩ := Local.eval_park evaluated
      have ticketed := step.2.discharge (Ticketed global'' [] id) fun _ _ auth excepted => by
        simp only [Function.update_self] at excepted
        subst excepted
        exact .inl (.inr (.inl ⟨ids, found, member⟩))
      rw [Function.update_idem] at ticketed
      exact ⟨step.1, ticketed⟩

end Loop

end StateRes
end Tuwunel
