import Mathlib
import Tuwunel.Service.Rooms.StateRes.Resolve.ConflictedSubgraph.Advance

/-!
# The walk yields the whole conflicted subgraph

On an auth graph with no infinite descending chain, whatever order the fetches complete in and
whatever widths the window takes, the stream has yielded exactly the conflicted subgraph when it
ends (`conflictedSubgraph_complete`).  With `conflictedSubgraph_safe` this is the walk's
correctness: nothing outside the subgraph is yielded, nothing twice, and nothing is missed.

The argument is `Explores` over every reachable state, each walker's exceptions being the one
event it holds a ticket for.  When the stream ends no ticket is left, so no walker has a path,
and every conflicted or subgraph node is explored.  From a conflicted event, a path to another
conflicted event then stays in the subgraph: its nodes are explored, and none of them is `Dead`,
since a `Dead` node reaches nothing conflicted.
-/

namespace Tuwunel
namespace StateRes

open KeyValue

variable {fetch : EventId → Option (List EventId)} {conflictedSet : List EventId}

/-! ## Tickets -/

section Tickets

variable {global global' : Global} {flights flights' : List (Nat × EventId)} {id : Nat}
  {eventId : EventId}

/-- A ticket is counted among the tickets, or is a fetch in hand. -/
theorem Ticketed.mem_tickets (ticketed : Ticketed global flights id eventId) :
    id ∈ global.tickets ∨ (id, eventId) ∈ flights := by
  rcases ticketed with fetching | ⟨ids, found, member⟩ | ⟨wake, woken, _, member⟩
  · simp only [Global.fetches, List.mem_append] at fetching
    rcases fetching with (queued | deferred) | flight
    · exact .inl (Global.mem_tickets_of_fetching (List.mem_append_left _ queued))
    · exact .inl (Global.mem_tickets_of_fetching (List.mem_append_right _ deferred))
    · exact .inr flight
  · exact .inl (Global.mem_tickets_of_waiting found member)
  · exact .inl (Global.mem_tickets_of_woken woken member)

/-- A walker holding no ticket but a fetch in hand is to come back to the fetched event only. -/
theorem Ticketed.eq_of_flight (free : id ∉ global.tickets)
    (ticketed : Ticketed global [(id, eventId)] id eventId') : eventId' = eventId := by
  rcases ticketed.mem_tickets with counted | flight
  · exact absurd counted free
  · exact (Prod.mk.inj (List.mem_singleton.mp flight)).2

/-- Tickets kept as fetches, places among waiters and wakes are kept. -/
theorem Ticketed.mono (ticketed : Ticketed global flights id eventId)
    (fetches : ∀ out ∈ global.fetches flights, out ∈ global'.fetches flights')
    (waiters : ∀ node ids, global.waiters.lookup node = some ids →
      ∃ ids', global'.waiters.lookup node = some ids' ∧ ∀ other ∈ ids, other ∈ ids')
    (ready : ∀ wake ∈ global.ready, wake ∈ global'.ready) :
    Ticketed global' flights' id eventId := by
  rcases ticketed with fetching | ⟨ids, found, member⟩ | ⟨wake, woken, same, member⟩
  · exact .inl (fetches _ fetching)
  · obtain ⟨ids', found', kept⟩ := waiters eventId ids found
    exact .inr (.inl ⟨ids', found', kept id member⟩)
  · exact .inr (.inr ⟨wake, ready wake woken, same, member⟩)

/-- A step that only moves fetches keeps every ticket. -/
theorem Ticketed.refetch (ticketed : Ticketed global flights id eventId)
    (fetches : ∀ out ∈ global.fetches flights, out ∈ global'.fetches flights')
    (waiters : global'.waiters = global.waiters) (ready : global'.ready = global.ready) :
    Ticketed global' flights' id eventId :=
  ticketed.mono fetches (fun _ ids found => ⟨ids, waiters ▸ found, fun _ member => member⟩)
    fun _ woken => ready ▸ woken

/-- A fetch put out keeps every ticket. -/
theorem Ticketed.grow (ticketed : Ticketed global [] id eventId) (flights : List (Nat × EventId)) :
    Ticketed global flights id eventId :=
  ticketed.refetch (fun out member => List.mem_append_left _ (by simpa [Global.fetches] using member))
    rfl rfl

theorem Ticketed.dropExhausted (path : List EventId) (stack : List (List EventId)) (global : Global) :
    Ticketed global flights id eventId →
      Ticketed (StateRes.dropExhausted path stack global).2.2 flights id eventId := by
  fun_induction StateRes.dropExhausted path stack global with
  | case1 top path frames global ih => exact fun ticketed => ih (ticketed.completePending top .dead)
  | case2 frames global ih => exact ih
  | case3 path stack global => exact fun ticketed => ticketed

/-- A walker parking keeps every ticket, and holds a new one. -/
theorem Ticketed.park (ticketed : Ticketed global flights id eventId) (node : EventId) (other : Nat) :
    Ticketed { global with
      waiters := global.waiters.insert node ((global.waiters.lookup node).getD [] ++ [other])
      parked := global.parked + 1 } flights id eventId := by
  refine ticketed.mono (fun _ member => member) (fun waited ids found => ?_) fun _ woken => woken
  by_cases same : waited = node
  · subst same
    refine ⟨_, AList.lookup_insert _, fun member inside => ?_⟩
    rw [found]
    exact List.mem_append_left _ inside
  · exact ⟨ids, by rwa [AList.lookup_insert_ne same], fun _ inside => inside⟩

/-- `Local::eval` keeps every ticket. -/
theorem Ticketed.eval (walker : Local) (other : Nat) (node : EventId)
    (ticketed : Ticketed global [] id eventId) (flights : List (Nat × EventId)) :
    Ticketed (walker.eval other global node).2.2 flights id eventId := by
  have grown := ticketed.grow flights
  unfold Local.eval
  rcases global.subgraph.get node with _ | ⟨_ | owner | _ | _⟩
  · exact grown
  · exact Ticketed.insertNodes _ grown
  · dsimp only
    split_ifs
    · exact grown
    · exact grown.park node other
  · exact grown
  · exact Ticketed.insertNodes _ grown

theorem Ticketed.pop (ticketed : Ticketed global flights id eventId) (walker : Local) :
    Ticketed (walker.pop global).2.2 flights id eventId := by
  rw [Local.pop_global]
  exact ticketed.dropExhausted walker.path walker.stack global

/-- The loop of `advance` keeps every ticket, by induction on it. -/
theorem Ticketed.descend (other : Nat) (walker : Local) (global : Global) :
    Ticketed global [] id eventId → ∀ flights : List (Nat × EventId),
      Ticketed (Local.descend other walker global).2.2 flights id eventId := by
  fun_induction Local.descend other walker global with
  | case1 walker global popped global' taken =>
      intro ticketed flights
      have dropped := (ticketed.grow flights).pop walker
      rw [taken] at dropped
      exact dropped
  | case2 walker global eventId popped global' taken walker' global'' evaluated ih =>
      intro ticketed flights
      have dropped := ticketed.pop walker
      rw [taken] at dropped
      have step := dropped.eval popped other eventId []
      rw [evaluated] at step
      exact ih step flights
  | case3 walker global eventId popped global' taken next walker' global'' evaluated =>
      intro ticketed flights
      have dropped := ticketed.pop walker
      rw [taken] at dropped
      have step := dropped.eval popped other eventId flights
      rw [evaluated] at step
      exact step
  | case4 walker global eventId popped global' taken walker' global'' evaluated =>
      intro ticketed flights
      have dropped := ticketed.pop walker
      rw [taken] at dropped
      have step := dropped.eval popped other eventId flights
      rw [evaluated] at step
      exact step

theorem Ticketed.advance (ticketed : Ticketed global [] id eventId) (other : Nat) :
    Ticketed (StateRes.advance global other).2 [] id eventId := by
  have descended := ticketed.descend other (global.walker other) global []
  unfold StateRes.advance
  rcases result : Local.descend other (global.walker other) global with ⟨next, walker, global'⟩
  rw [result] at descended
  exact descended

theorem Ticketed.processFetch (ticketed : Ticketed global [] id eventId) (other : Nat)
    (node : EventId) (event : Option (List EventId)) :
    Ticketed (StateRes.processFetch global other node event).2 [] id eventId := by
  unfold StateRes.processFetch
  cases event with
  | none => exact (ticketed.completePending node .dead).advance other
  | some authEvents =>
      have written : Ticketed (global.setWalker other { global.walker other with
          path := node :: (global.walker other).path,
          stack := authEvents.reverse :: (global.walker other).stack }) [] id eventId := ticketed
      exact written.advance other

theorem Ticketed.resume (ticketed : Ticketed global [] id eventId) (other : Nat) (node : EventId)
    (result : Resolution) : Ticketed (StateRes.resume global other node result).2 [] id eventId := by
  unfold StateRes.resume
  cases result with
  | dead => exact ticketed.advance other
  | subgraph =>
      have inserted : Ticketed (((global.walker other).insertPath global node).2.setWalker other
          ((global.walker other).insertPath global node).1) [] id eventId :=
        Ticketed.insertNodes _ ticketed
      exact inserted.advance other

/-- A fetch another walker has in hand is no ticket of this one. -/
theorem Ticketed.dropFlight {other : Nat} {next : EventId}
    (ticketed : Ticketed global [(other, next)] id eventId) (distinct : id ≠ other) :
    Ticketed global [] id eventId := by
  rcases ticketed with fetching | waiting | woken
  · simp only [Global.fetches, List.mem_append, List.mem_singleton, Prod.mk.injEq] at fetching
    rcases fetching with old | ⟨same, _⟩
    · exact .inl (by simpa [Global.fetches] using old)
    · exact absurd same distinct
  · exact .inr (.inl waiting)
  · exact .inr (.inr woken)

/-- The wake on top of `ready` leaves it: a ticket that was a place in it is now the walker's to
be served on. -/
theorem Ticketed.takeWake (ticketed : Ticketed global flights id eventId) {wake : Wake}
    {ready : List Wake} (popped : global.ready = wake :: ready) :
    Ticketed { global with ready } flights id eventId ∨ id ∈ wake.locals ∧ eventId = wake.eventId := by
  rcases ticketed with fetching | waiting | ⟨woken, member, same, inside⟩
  · exact .inl (.inl fetching)
  · exact .inl (.inr (.inl waiting))
  · rw [popped] at member
    rcases List.mem_cons.mp member with rfl | rest
    · exact .inr ⟨inside, same.symm⟩
    · exact .inl (.inr (.inr ⟨woken, rest, same, inside⟩))

end Tickets

/-! ## The walker a turn serves -/

section Served

variable {walkers : Nat → Local} {except : Nat → EventId → Prop} {hand : Multiset Nat}
  {flights : List (Nat × EventId)} {global : Global} {id : Nat} {eventId : EventId}

theorem Explores.setWalker (explores : Explores fetch conflictedSet walkers except flights global)
    (id : Nat) (walker : Local) :
    Explores fetch conflictedSet walkers except flights (global.setWalker id walker) :=
  explores.congr rfl (fun _ => Iff.rfl) rfl rfl rfl

/-- `process_fetch` pushing the fetched event: the fetch lands on the walker's path, the top
node below comes back to it, and the new top node has all its auth events in its frame. -/
theorem Explores.push
    (explores : Explores fetch conflictedSet walkers except [(id, eventId)] global)
    (own : ∀ auth, except id auth → auth = eventId) {authEvents : List EventId}
    (fetched : fetch eventId = some authEvents) (idle : ∀ other, (id, other) ∉ global.fetches []) :
    Explores fetch conflictedSet
      (Function.update walkers id { walkers id with
        path := eventId :: (walkers id).path, stack := authEvents.reverse :: (walkers id).stack })
      (Function.update except id fun _ => False) [] global := by
  rw [← Function.update_eq_self id walkers] at explores
  have descent := explores.descents id
  have aimed := explores.aimed id eventId (List.mem_append_right _ (List.mem_singleton_self _))
  simp only [Function.update_self] at descent aimed
  have onto : Descent fetch conflictedSet global id (· = eventId) (walkers id) :=
    descent.stable (Progress.refl global) (fun _ _ => rfl) fun _ _ auth excepted => .inl (own auth excepted)
  have fetches : ∀ other node, (other, node) ∈ global.fetches [] →
      (other, node) ∈ global.fetches [(id, eventId)] :=
    fun _ _ member => List.mem_append_left _ (by simpa [Global.fetches] using member)
  refine ⟨explores.descents_step (Spares.refl id global) (onto.push fetched aimed _),
    explores.aimed_step (Spares.refl id global) (fun other node _ member => fetches other node member)
      (fun node member => absurd member (idle node)),
    explores.dead, explores.members, explores.woken, fun node inside => ?_, explores.emitted⟩
  refine (explores.explored node inside).mono (Progress.refl global) (fun seed => .inr (.inl seed))
    (fun other onPath => .inr (.inr (.inl ⟨other, ?_⟩))) fun other fetching => ?_
  · by_cases here : other = id
    · subst here
      simp only [Function.update_self] at onPath ⊢
      exact List.mem_cons_of_mem _ onPath
    · simpa [Function.update_of_ne here] using onPath
  · -- the fetch in hand lands on the top of the walker's path
    simp only [Global.fetches, List.mem_append, List.mem_singleton, Prod.mk.injEq] at fetching
    rcases fetching with old | ⟨rfl, rfl⟩
    · exact .inr (.inr (.inr ⟨other, by simpa [Global.fetches] using old⟩))
    · exact .inr (.inr (.inl ⟨other, by simp⟩))

variable (fetch conflictedSet) in
/-- Where the walker a turn serves ends, for `Explores`: its top node is to come back to what it
holds a ticket for, its fetch in hand or its place among waiters. -/
def Explores.Served (except : Nat → EventId → Prop) (id : Nat) : Option EventId × Global → Prop
  | (some next, global) => Explores fetch conflictedSet global.walker
      (Function.update except id (Ticketed global [(id, next)] id)) [(id, next)] global
  | (none, global) => Explores fetch conflictedSet global.walker
      (Function.update except id (Ticketed global [] id)) [] global

variable (acyclic : WellFounded (flip (AuthEdge fetch)))
include acyclic

/-- `process_fetch` on a failed fetch: its event has no auth events, so it is explored, and it
dies if it was the walker's own `Pending` node. -/
theorem Explores.fail
    (explores : Explores fetch conflictedSet walkers except [(id, eventId)] global)
    (own : ∀ auth, except id auth → auth = eventId) (failed : fetch eventId = none)
    (idle : ∀ other, (id, other) ∉ global.fetches []) (ok : WalkerOk fetch conflictedSet (walkers id))
    (aims : Aims fetch conflictedSet (walkers id) eventId) :
    Explores fetch conflictedSet walkers (Function.update except id fun _ => False) []
      (completePending global eventId .dead) := by
  have explored : Explored fetch global eventId := fun authEvents fetched => by
    rw [failed] at fetched
    cases fetched
  have aimed := explores.aimed id eventId (List.mem_append_right _ (List.mem_singleton_self _))
  -- the fetch lands: its event is explored
  have landed : Explores fetch conflictedSet walkers except [] global := by
    refine ⟨explores.descents, fun other node member => explores.aimed other node
        (List.mem_append_left _ (by simpa [Global.fetches] using member)),
      explores.dead, explores.members, explores.woken, fun node inside => ?_, explores.emitted⟩
    refine (explores.explored node inside).mono (Progress.refl global) (fun seed => .inr (.inl seed))
      (fun other onPath => .inr (.inr (.inl ⟨other, onPath⟩))) fun other fetching => ?_
    simp only [Global.fetches, List.mem_append, List.mem_singleton, Prod.mk.injEq] at fetching
    rcases fetching with old | ⟨rfl, rfl⟩
    · exact .inr (.inr (.inr ⟨other, by simpa [Global.fetches] using old⟩))
    · exact .inl explored
  by_cases pending : global.subgraph.get eventId = some (.pending id)
  · have died := completePending_get_of_pending pending .dead
    refine landed.completeDead pending explored (fun other member => ?_)
      (fun other fetching => idle eventId (landed.owner_of_fetching pending fetching ▸ fetching))
      fun other top head auth excepted => ?_
    · by_cases here : other = id
      · -- the walker's own path does not hold the event it fetched
        subst here
        exact ok.not_mem_of_aims acyclic aims (List.ne_nil_of_mem member) member
      · exact here (landed.owner_of_mem_path pending member)
    · by_cases here : other = id
      · subst here
        rw [own auth excepted]
        exact .inr (.inl died)
      · simp only [Function.update_of_ne here]
        exact .inl excepted
  · have unsettled : ∀ owner, global.subgraph.get eventId ≠ some (.pending owner) := by
      intro owner found
      have mine := explores.owner_of_fetching found
        (List.mem_append_right _ (List.mem_singleton_self (id, eventId)))
      exact pending (by rw [found, mine])
    rw [completePending_of_settled unsettled]
    rw [← Function.update_eq_self id walkers] at landed
    -- the event is in the subgraph with the top node, or there is no top node
    have discharged := landed.discharge (fun _ => False) fun top head auth excepted => .inr (by
      rw [own auth excepted]
      rcases path : (walkers id).path with _ | ⟨top', rest⟩
      · simp [path] at head
      · simp only [path, List.head?_cons, Option.mem_def, Option.some.injEq] at head
        subst head
        simp only [Aimed, path] at aimed
        rcases aimed with same | inside
        · exact absurd same pending
        · exact .inr inside)
    rwa [Function.update_eq_self] at discharged

/-- `advance`: the walker in hand descends and is written back, node states moving on. -/
theorem Explores.advance
    (explores : Explores fetch conflictedSet global.walker (Function.update except id fun _ => False) []
      global)
    (safe : Safe fetch conflictedSet global.walker (id ::ₘ hand) global)
    (owned : Owned global.walker (id ::ₘ hand) [] global) :
    Progress global (advance global id).2 ∧
      Explores.Served fetch conflictedSet except id (advance global id) := by
  have valid := safe.valid
  rw [← Function.update_eq_self id global.walker] at explores safe owned
  have descended := Explores.descend acyclic (global.walker id) global safe owned explores
  have locals := Local.descend_locals id (global.walker id) global
  unfold StateRes.advance
  rcases result : Local.descend id (global.walker id) global with ⟨_ | next, walker, global'⟩
  all_goals
    rw [result] at descended locals
    dsimp only at descended locals ⊢
    have written : (global'.setWalker id walker).walker = Function.update global.walker id walker := by
      rw [Global.walker_setWalker global' walker (locals ▸ valid), Global.walker_congr locals]
    refine ⟨descended.1.trans (Progress.of_subgraph rfl), ?_⟩
    simp only [Explores.Served]
    rw [written]
    exact descended.2.setWalker id walker

/-- `process_fetch`: the fetched event is pushed, or dies where the fetch failed, and the walker
advances. -/
theorem Explores.processFetch
    (explores : Explores fetch conflictedSet global.walker except [(id, eventId)] global)
    (own : ∀ auth, except id auth → auth = eventId)
    (safe : Safe fetch conflictedSet global.walker (id ::ₘ hand) global)
    (owned : Owned global.walker (id ::ₘ hand) [(id, eventId)] global)
    (aims : Aims fetch conflictedSet (global.walker id) eventId) :
    Progress global (processFetch global id eventId (fetch eventId)).2 ∧
      Explores.Served fetch conflictedSet except id (processFetch global id eventId (fetch eventId)) := by
  have valid := safe.valid
  unfold StateRes.processFetch
  rcases fetched : fetch eventId with _ | authEvents
  · have same : (completePending global eventId .dead).walker = global.walker :=
      Global.walker_congr (completePending_locals .dead)
    have failed := explores.fail acyclic own fetched safe.idle (safe.walkersOk id) aims
    have settled := (owned.completePending eventId .dead).land
      (completePending_settled global eventId .dead)
    rw [← same] at failed settled
    have advanced := Explores.advance acyclic failed
      (by rw [same]; exact safe.completePending_dead eventId) settled
    exact ⟨(Progress.completePending global eventId .dead).trans advanced.1, advanced.2⟩
  · have pushed := explores.push own fetched safe.idle
    have written := Global.walker_setWalker global { global.walker id with
      path := eventId :: (global.walker id).path,
      stack := authEvents.reverse :: (global.walker id).stack } valid
    have advanced := Explores.advance acyclic (by rw [written]; exact pushed.setWalker id _)
      ((safe.update (Multiset.mem_cons_self id hand) ((safe.walkersOk id).push aims fetched)).setServed
        rfl valid)
      ((owned.push authEvents).setServed rfl valid)
    exact ⟨(Progress.of_subgraph rfl).trans advanced.1, advanced.2⟩

/-- `resume`: a woken walker whose node joined the subgraph inserts its path, one whose node died
has it done with, and it advances. -/
theorem Explores.resume
    (explores : Explores fetch conflictedSet global.walker except [] global)
    (own : ∀ auth, except id auth → auth = eventId) {result : Resolution}
    (resolved : global.subgraph.get eventId = some result.substate)
    (safe : Safe fetch conflictedSet global.walker (id ::ₘ hand) global)
    (owned : Owned global.walker (id ::ₘ hand) [] global)
    (aims : Aims fetch conflictedSet (global.walker id) eventId)
    (inside : result = .subgraph → InConflictedSubgraph fetch conflictedSet eventId) :
    Progress global (resume global id eventId result).2 ∧
      Explores.Served fetch conflictedSet except id (resume global id eventId result) := by
  have valid := safe.valid
  rw [← Function.update_eq_self id global.walker] at explores safe owned
  unfold StateRes.resume
  cases result with
  | dead =>
      have done := explores.discharge (fun _ => False) fun top _ auth excepted =>
        .inr (.inl (by rw [own auth excepted]; exact resolved))
      rw [Function.update_eq_self] at done safe owned
      exact Explores.advance acyclic done safe owned
  | subgraph =>
      have descent := explores.descents id
      simp only [Function.update_self] at descent
      -- the woken walker's path joins the subgraph with the event
      have inserted := explores.insertPath (.inr resolved) safe.idle (fun _ => False)
        fun top head auth excepted => .inr (by
          rw [own auth excepted]
          exact descent.insertPath_handled top head)
      have spares := explores.insertPath_spares (.inr resolved)
      obtain ⟨_, _, last, conflicted, _, reaches, _⟩ := inside rfl
      have insertedSafe := safe.insertPath aims conflicted reaches fun _ => inside rfl
      have insertedOwned := owned.insertPath eventId
      have locals : ((global.walker id).insertPath global eventId).2.locals = global.locals :=
        insertNodes_locals
      have written := Global.walker_setWalker ((global.walker id).insertPath global eventId).2
        ((global.walker id).insertPath global eventId).1 (locals ▸ valid)
      rw [Global.walker_congr locals] at written
      have advanced := Explores.advance acyclic
        (by rw [written]; exact inserted.setWalker id _)
        (insertedSafe.setServed locals valid) (insertedOwned.setServed locals valid)
      exact ⟨spares.progress.trans ((Progress.of_subgraph rfl).trans advanced.1), advanced.2⟩

end Served

/-! ## The window -/

section Window

variable {walkers : Nat → Local} {except : Nat → EventId → Prop} {flights : List (Nat × EventId)}
  {global : Global} {id : Nat} {eventId : EventId}

/-- `launch` puts the walker's next fetch into `todo` or `deferred`, and changes nothing else. -/
theorem launch_eq (width : Nat) (global : Global) (id : Nat) (next : EventId) :
    ∃ todo deferred, launch width global id (some next) = { global with todo, deferred } ∧
      ∀ out, out ∈ ({ global with todo, deferred } : Global).fetches [] ↔
        out ∈ global.fetches [(id, next)] := by
  dsimp only [StateRes.launch]
  split
  all_goals
    refine ⟨_, _, rfl, fun out => ?_⟩
    simp only [Global.fetches, List.append_nil, List.mem_append, List.mem_singleton]
    tauto

@[simp]
theorem launch_subgraph (width : Nat) (global : Global) (id : Nat) (next : Option EventId) :
    (launch width global id next).subgraph = global.subgraph := by
  unfold StateRes.launch
  split
  · rfl
  · split <;> rfl

/-- A walker's fetch joining the window keeps its ticket. -/
theorem Ticketed.launchOwn (width : Nat) {other : Nat} {next : EventId}
    (ticketed : Ticketed global [(other, next)] id eventId) :
    Ticketed (StateRes.launch width global other (some next)) [] id eventId := by
  obtain ⟨todo, deferred, launched, moved⟩ := launch_eq width global other next
  rw [launched]
  exact ticketed.refetch (fun out member => (moved out).mpr member) rfl rfl

/-- Another walker's fetch joining the window keeps every ticket. -/
theorem Ticketed.launch (ticketed : Ticketed global [] id eventId) (width other : Nat) :
    ∀ next : Option EventId, Ticketed (StateRes.launch width global other next) [] id eventId
  | none => ticketed
  | some _ => (ticketed.grow _).launchOwn width

theorem Ticketed.shiftDeferred (ticketed : Ticketed global flights id eventId) {other : Nat}
    {node : EventId} {deferred : List (Nat × EventId)}
    (front : global.deferred = (other, node) :: deferred) :
    Ticketed { global with todo := global.todo ++ [(other, node)], deferred } flights id eventId :=
  ticketed.refetch (fun out member => by simpa [Global.fetches, front] using member) rfl rfl

theorem Ticketed.startSeed (ticketed : Ticketed global flights id eventId) (seed : EventId)
    (inputs : List EventId) :
    Ticketed { global with
        locals := global.locals ++ [Local.default]
        todo := global.todo ++ [(global.locals.length, seed)]
        inputs } flights id eventId := by
  refine ticketed.refetch (fun out member => ?_) rfl rfl
  simp only [Global.fetches, List.mem_append] at member ⊢
  tauto

theorem Ticketed.refill (width : Nat) (global : Global) :
    Ticketed global flights id eventId → Ticketed (StateRes.refill width global) flights id eventId := by
  fun_induction StateRes.refill width global with
  | case1 global _ other node deferred front ih =>
      exact fun ticketed => ih (ticketed.shiftDeferred front)
  | case2 => exact fun ticketed => ticketed
  | case3 => exact fun ticketed => ticketed

theorem Ticketed.fill (width : Nat) (global : Global) :
    Ticketed global flights id eventId → Ticketed (StateRes.fill width global) flights id eventId := by
  fun_induction StateRes.fill width global with
  | case1 global _ other node deferred front ih =>
      exact fun ticketed => ih (ticketed.shiftDeferred front)
  | case2 global _ _ seed inputs next ih => exact fun ticketed => ih (ticketed.startSeed seed inputs)
  | case3 => exact fun ticketed => ticketed
  | case4 => exact fun ticketed => ticketed

/-- The front of `deferred` moves to the back of `todo`. -/
theorem Explores.shiftDeferred (explores : Explores fetch conflictedSet walkers except flights global)
    {other : Nat} {node : EventId} {deferred : List (Nat × EventId)}
    (front : global.deferred = (other, node) :: deferred) :
    Explores fetch conflictedSet walkers except flights
      { global with todo := global.todo ++ [(other, node)], deferred } :=
  explores.congr rfl (fun out => by simp [Global.fetches, front]) rfl rfl rfl

/-- A walker starts at the next seed: the seed leaves `inputs` for `todo`, fetched by a walker
with no path. -/
theorem Explores.startSeed (explores : Explores fetch conflictedSet global.walker except [] global)
    {seed : EventId} (seeded : seed ∈ conflictedSet) {inputs : List EventId}
    (next : global.inputs = seed :: inputs) :
    Explores fetch conflictedSet
      (Global.walker { global with
        locals := global.locals ++ [Local.default]
        todo := global.todo ++ [(global.locals.length, seed)]
        inputs })
      except []
      { global with
        locals := global.locals ++ [Local.default]
        todo := global.todo ++ [(global.locals.length, seed)]
        inputs } := by
  rw [Global.walker_of_append_default rfl]
  have progress : Progress global { global with
      locals := global.locals ++ [Local.default]
      todo := global.todo ++ [(global.locals.length, seed)]
      inputs } := Progress.of_subgraph rfl
  refine ⟨fun other => (explores.descents other).stable progress (fun _ _ => rfl)
      fun _ _ _ kept => .inl kept, fun other node fetching => ?_, explores.dead, explores.members,
    explores.woken, fun node inside => ?_, explores.emitted⟩
  · simp only [Global.fetches, List.append_nil, List.mem_append, List.mem_singleton,
      Prod.mk.injEq] at fetching
    rcases fetching with (queued | ⟨rfl, rfl⟩) | deferred
    · exact explores.aimed other node (by simp [Global.fetches, queued])
    · -- the new walker is `Local::default`, with no path
      have fresh : global.walker global.locals.length = Local.default := by simp [Global.walker]
      rw [fresh]
      exact seeded
    · exact explores.aimed other node (by simp [Global.fetches, deferred])
  · refine (explores.explored node inside).mono progress (fun member => ?_)
      (fun other onPath => .inr (.inr (.inl ⟨other, onPath⟩)))
      fun other fetching => .inr (.inr (.inr ⟨other, ?_⟩))
    · -- the seed started is fetched
      rw [next] at member
      rcases List.mem_cons.mp member with rfl | later
      · exact .inr (.inr (.inr ⟨global.locals.length, by simp [Global.fetches]⟩))
      · exact .inr (.inl later)
    · simp only [Global.fetches, List.mem_append] at fetching ⊢
      tauto

theorem Explores.refill (width : Nat) (global : Global) :
    Explores fetch conflictedSet global.walker except flights global →
      Explores fetch conflictedSet (StateRes.refill width global).walker except flights
        (StateRes.refill width global) := by
  fun_induction StateRes.refill width global with
  | case1 global _ other node deferred front ih =>
      exact fun explores => ih (explores.shiftDeferred front)
  | case2 => exact fun explores => explores
  | case3 => exact fun explores => explores

/-- The first loop of a turn, by induction on it: deferred fetches join the window, then seeds,
each a conflicted event. -/
theorem Explores.fill (width : Nat) (global : Global) :
    (∀ seed ∈ global.inputs, seed ∈ conflictedSet) →
      Explores fetch conflictedSet global.walker except [] global →
      Explores fetch conflictedSet (StateRes.fill width global).walker except []
        (StateRes.fill width global) := by
  fun_induction StateRes.fill width global with
  | case1 global _ other node deferred front ih =>
      exact fun seeds explores => ih seeds (explores.shiftDeferred front)
  | case2 global _ _ seed inputs next ih =>
      intro seeds explores
      have first : seed ∈ conflictedSet := seeds seed (by rw [next]; exact List.mem_cons_self)
      exact ih (fun other member => seeds other (by rw [next]; exact List.mem_cons_of_mem seed member))
        (explores.startSeed first next)
  | case3 => exact fun _ explores => explores
  | case4 => exact fun _ explores => explores

/-- A served walker's next fetch joins the window: what the walker is to come back to is a ticket
it holds. -/
theorem Explores.launch (width : Nat) {next : Option EventId}
    (served : Explores.Served fetch conflictedSet except id (next, global)) :
    ∃ own : EventId → Prop, Explores fetch conflictedSet (StateRes.launch width global id next).walker
        (Function.update except id own) [] (StateRes.launch width global id next) ∧
      ∀ auth, own auth → Ticketed (StateRes.launch width global id next) [] id auth := by
  cases next with
  | none => exact ⟨Ticketed global [] id, served, fun _ ticketed => ticketed⟩
  | some next =>
      refine ⟨Ticketed global [(id, next)] id, ?_, fun _ ticketed => ticketed.launchOwn width⟩
      obtain ⟨todo, deferred, launched, moved⟩ := launch_eq width global id next
      rw [launched]
      exact Explores.congr served rfl moved rfl rfl rfl

/-- The wake on top of `ready` leaves it. -/
theorem Explores.takeWake (explores : Explores fetch conflictedSet walkers except flights global)
    {wake : Wake} {ready : List Wake} (popped : global.ready = wake :: ready) :
    Explores fetch conflictedSet walkers except flights { global with ready } :=
  ⟨fun other => (explores.descents other).stable (Progress.of_subgraph rfl) (fun _ _ => rfl)
      fun _ _ _ kept => .inl kept,
    explores.aimed, explores.dead, explores.members,
    fun woken member => explores.woken woken (by rw [popped]; exact List.mem_cons_of_mem wake member),
    explores.explored, explores.emitted⟩

end Window

/-! ## Every turn -/

section Turns

variable {except : Nat → EventId → Prop} {hand : Multiset Nat} {global : Global} {id : Nat}
  {eventId : EventId}

variable (fetch conflictedSet) in
/-- What holds between the turns: the walk explores as `Explores` says, each walker's exceptions
being what it holds a ticket for. -/
def Exploring (global : Global) : Prop :=
  ∃ except, Explores fetch conflictedSet global.walker except [] global ∧ Justified except global []

theorem Exploring.fill (exploring : Exploring fetch conflictedSet global) (width : Nat)
    (seeds : ∀ seed ∈ global.inputs, seed ∈ conflictedSet) :
    Exploring fetch conflictedSet (StateRes.fill width global) := by
  obtain ⟨except, explores, justified⟩ := exploring
  exact ⟨except, Explores.fill width global seeds explores,
    fun other auth excepted => Ticketed.fill width global (justified other auth excepted)⟩

/-- `put` of `Conflicted` over a list of events keeps a `Conflicted` node. -/
theorem foldl_put_conflicted_of_get : ∀ (events : List EventId) (table : Table EventId Substate)
    {eventId : EventId}, table.get eventId = some .conflicted →
      (events.foldl (fun table eventId => table.put eventId .conflicted) table).get eventId =
        some .conflicted
  | [], _, _, found => found
  | event :: events, table, eventId, found => by
      apply foldl_put_conflicted_of_get events
      rcases eq_or_ne eventId event with rfl | distinct
      · exact Table.get_put_self _ _ _
      · rw [Table.get_put_of_ne _ _ distinct]
        exact found

theorem foldl_put_conflicted_of_mem : ∀ (events : List EventId) (table : Table EventId Substate)
    {eventId : EventId}, eventId ∈ events →
      (events.foldl (fun table eventId => table.put eventId .conflicted) table).get eventId =
        some .conflicted
  | [], _, _, member => absurd member List.not_mem_nil
  | event :: events, table, eventId, member => by
      rcases List.mem_cons.mp member with rfl | later
      · exact foldl_put_conflicted_of_get events _ (Table.get_put_self _ _ _)
      · exact foldl_put_conflicted_of_mem events _ later

/-- The unfold starts with every conflicted event a seed not started, and nothing explored. -/
theorem Exploring.init (conflictedSet : List EventId) :
    Exploring fetch conflictedSet (Global.init conflictedSet) := by
  refine ⟨fun _ _ => False, ⟨fun id => ?_, fun _ _ fetching => ?_, fun _ marked => ?_,
    fun _ member => .inl (foldl_put_conflicted_of_mem conflictedSet Table.empty member),
    fun _ woken => absurd woken List.not_mem_nil, fun _ inside => ?_, fun _ inside => ?_⟩,
    fun _ _ excepted => excepted.elim⟩
  · have fresh : (Global.init conflictedSet).walker id = Local.default := by
      simp [Global.walker, Global.init]
    rw [fresh]
    exact Descent.default _ id _
  · simp [Global.fetches, Global.init] at fetching
  · exact absurd (Global.init_subgraph marked).1 (by simp)
  · rcases inside with member | inside
    · exact .inr (.inl member)
    · exact absurd (Global.init_subgraph inside).1 (by simp)
  · exact absurd (Global.init_subgraph inside).1 (by simp)

variable (acyclic : WellFounded (flip (AuthEdge fetch)))
include acyclic

/-- The first walker of a wake resumes and launches its next fetch; the others are still to come
back to the wake's event. -/
theorem Explores.resumeOne (width : Nat) {result : Resolution}
    (resolved : result = .subgraph → InConflictedSubgraph fetch conflictedSet eventId)
    {ids : List Nat} (explores : Explores fetch conflictedSet global.walker except [] global)
    (justified : ∀ other auth, except other auth →
      Ticketed global [] other auth ∨ other ∈ id :: ids ∧ auth = eventId)
    (state : global.subgraph.get eventId = some result.substate)
    (safe : Safe fetch conflictedSet global.walker (↑(id :: ids) + hand) global)
    (owned : Owned global.walker (↑(id :: ids) + hand) [] global)
    (aims : Aims fetch conflictedSet (global.walker id) eventId) :
    ∃ except', Explores fetch conflictedSet
        (StateRes.launch width (StateRes.resume global id eventId result).2 id
          (StateRes.resume global id eventId result).1).walker except' []
        (StateRes.launch width (StateRes.resume global id eventId result).2 id
          (StateRes.resume global id eventId result).1) ∧
      (∀ other auth, except' other auth →
        Ticketed (StateRes.launch width (StateRes.resume global id eventId result).2 id
          (StateRes.resume global id eventId result).1) [] other auth ∨
          other ∈ ids ∧ auth = eventId) ∧
      (StateRes.launch width (StateRes.resume global id eventId result).2 id
        (StateRes.resume global id eventId result).1).subgraph.get eventId = some result.substate := by
  rw [← Multiset.cons_coe, Multiset.cons_add] at safe owned
  -- the walker resumed is to come back to the wake's event only: it holds no other ticket
  have own : ∀ auth, except id auth → auth = eventId := fun auth excepted => by
    rcases justified id auth excepted with ticketed | ⟨_, same⟩
    · rcases ticketed.mem_tickets with counted | flight
      · exact absurd counted safe.free
      · exact absurd flight List.not_mem_nil
    · exact same
  have resumed := explores.resume acyclic own state safe owned aims resolved
  have kept : ∀ other auth, Ticketed global [] other auth →
      Ticketed (StateRes.resume global id eventId result).2 [] other auth :=
    fun other auth ticketed => ticketed.resume id eventId result
  rcases step : StateRes.resume global id eventId result with ⟨next, global'⟩
  rw [step] at resumed kept
  obtain ⟨own', launched, ownTicketed⟩ := Explores.launch width resumed.2
  refine ⟨_, launched, fun other auth excepted => ?_, ?_⟩
  · by_cases here : other = id
    · subst here
      rw [Function.update_self] at excepted
      exact .inl (ownTicketed auth excepted)
    · rw [Function.update_of_ne here] at excepted
      rcases justified other auth excepted with ticketed | ⟨member, same⟩
      · exact .inl ((kept other auth ticketed).launch width id next)
      · exact .inr ⟨(List.mem_cons.mp member).resolve_left here, same⟩
  · rw [launch_subgraph]
    exact resumed.1.resolved state

/-- The walkers of a wake resume one after another, by induction on the list of them: the wake's
event keeps its state, and those still to resume are to come back to it. -/
theorem Explores.resumeWaiters (width : Nat) {result : Resolution}
    (resolved : result = .subgraph → InConflictedSubgraph fetch conflictedSet eventId) :
    ∀ (ids : List Nat) (global : Global) (except : Nat → EventId → Prop),
      Explores fetch conflictedSet global.walker except [] global →
      (∀ other auth, except other auth →
        Ticketed global [] other auth ∨ other ∈ ids ∧ auth = eventId) →
      global.subgraph.get eventId = some result.substate →
      Safe fetch conflictedSet global.walker (↑ids + hand) global →
      Owned global.walker (↑ids + hand) [] global →
      (∀ id ∈ ids, Aims fetch conflictedSet (global.walker id) eventId) →
      Exploring fetch conflictedSet (StateRes.resumeWaiters width eventId result ids global)
  | [], global, except, explores, justified, _, _, _, _ =>
      ⟨except, explores, fun other auth excepted =>
        (justified other auth excepted).resolve_right fun ⟨member, _⟩ => absurd member List.not_mem_nil⟩
  | id :: ids, global, except, explores, justified, state, safe, owned, aims => by
      obtain ⟨resumedSafe, aimed⟩ := Safe.resumeOne width resolved safe aims
      have resumedOwned := Owned.resumeOne width safe owned eventId result
      obtain ⟨except', resumed, justified', state'⟩ := explores.resumeOne acyclic width resolved
        justified state safe owned (aims id List.mem_cons_self)
      unfold StateRes.resumeWaiters
      rcases step : StateRes.resume global id eventId result with ⟨next, global'⟩
      rw [step] at resumedSafe aimed resumedOwned resumed justified' state'
      exact Explores.resumeWaiters width resolved ids _ except' resumed justified' state' resumedSafe
        resumedOwned aimed

/-- The drain of `ready`, by induction on it: each wake in turn resumes its walkers. -/
theorem Exploring.drains {width : Nat} {final : Global} (drains : Drains width global final) :
    Safe fetch conflictedSet global.walker 0 global → Owned global.walker 0 [] global →
      Exploring fetch conflictedSet global → Exploring fetch conflictedSet final := by
  induction drains with
  | done => exact fun _ _ exploring => exploring
  | @wake global final wake ready popped _ ih =>
      rintro safe owned ⟨except, explores, justified⟩
      have top : wake ∈ global.ready := by
        rw [popped]
        exact List.mem_cons_self
      have woken := safe.woken wake top
      have takenSafe := safe.takeWake popped
      have takenOwned := owned.takeWake popped
      exact ih (Safe.resumeWaiters width woken.2 wake.locals _ takenSafe woken.1)
        (Owned.resumeWaiters width woken.2 wake.locals _ takenSafe woken.1 takenOwned)
        (Explores.resumeWaiters acyclic width woken.2 wake.locals _ except (explores.takeWake popped)
          (fun other auth excepted => (justified other auth excepted).takeWake popped)
          (explores.woken wake top) takenSafe takenOwned woken.1)

/-- A turn up to its drain: the fetch picked from the window completes, its walker is served, and
its next fetch joins the window. -/
theorem Exploring.turnStart (exploring : Exploring fetch conflictedSet global)
    (safe : Safe fetch conflictedSet global.walker 0 global) (owned : Owned global.walker 0 [] global)
    {width pick : Nat} {started : Global} (start : turnStart fetch width pick global = some started) :
    Exploring fetch conflictedSet started := by
  obtain ⟨except, explores, justified⟩ := exploring.fill width safe.seeds
  unfold StateRes.turnStart at start
  rcases picked : (StateRes.fill width global).todo[pick]? with _ | ⟨id, eventId⟩
  all_goals simp only [picked] at start
  · cases start
  obtain ⟨refilledSafe, aimed⟩ := safe.pick picked
  have moved := Global.fetches_eraseIdx picked
  have taken : Explores fetch conflictedSet (StateRes.fill width global).walker except
      [(id, eventId)]
      { StateRes.fill width global with todo := (StateRes.fill width global).todo.eraseIdx pick } :=
    explores.congr rfl moved rfl rfl rfl
  -- each exception is still a ticket, the fetch picked in hand
  have carried : ∀ other auth, except other auth →
      Ticketed (StateRes.refill width { StateRes.fill width global with
        todo := (StateRes.fill width global).todo.eraseIdx pick }) [(id, eventId)] other auth :=
    fun other auth excepted => Ticketed.refill width _
      ((justified other auth excepted).refetch (fun out member => (moved out).mpr member) rfl rfl)
  have own : ∀ auth, except id auth → auth = eventId := fun auth excepted =>
    (carried id auth excepted).eq_of_flight refilledSafe.free
  have processed := Explores.processFetch acyclic (Explores.refill width _ taken) own refilledSafe
    (owned.pick picked) aimed
  rcases step : StateRes.processFetch (StateRes.refill width { StateRes.fill width global with
      todo := (StateRes.fill width global).todo.eraseIdx pick }) id eventId (fetch eventId) with
    ⟨next, global'⟩
  rw [step] at start processed
  cases start
  obtain ⟨own', launched, ownTicketed⟩ := Explores.launch width processed.2
  refine ⟨_, launched, fun other auth excepted => ?_⟩
  by_cases here : other = id
  · subst here
    rw [Function.update_self] at excepted
    exact ownTicketed auth excepted
  · rw [Function.update_of_ne here] at excepted
    have kept := ((carried other auth excepted).dropFlight here).processFetch id eventId (fetch eventId)
    rw [step] at kept
    exact kept.launch width id next

/-- One turn of the unfold keeps the walk explored. -/
theorem Exploring.turn (exploring : Exploring fetch conflictedSet global)
    (safe : Safe fetch conflictedSet global.walker 0 global) (owned : Owned global.walker 0 [] global)
    {final : Global} (turn : Turn fetch global final) : Exploring fetch conflictedSet final := by
  obtain ⟨width, pick, start, drains⟩ := turn
  exact Exploring.drains acyclic drains (safe.turnStart start) (owned.turnStart safe start)
    (exploring.turnStart acyclic safe owned start)

theorem Exploring.reachable (reachable : Reachable fetch conflictedSet global) :
    Exploring fetch conflictedSet global := by
  unfold Reachable at reachable
  induction reachable with
  | refl => exact Exploring.init conflictedSet
  | tail reached turn exploring =>
      exact exploring.turn acyclic (Safe.reachable reached) (Owned.reachable reached) turn

end Turns

/-! ## When the stream ends -/

section Ended

variable {global : Global}

/-- The first loop stops short of the width only once every seed has started. -/
theorem fill_started (width : Nat) (global : Global) :
    (fill width global).todo.length < width → (fill width global).inputs = [] := by
  fun_induction StateRes.fill width global with
  | case1 global _ other node deferred front ih => exact ih
  | case2 global _ _ seed inputs next ih => exact ih
  | case3 global _ _ empty => exact fun _ => empty
  | case4 global full => exact fun short => absurd short full

/-- Once every conflicted or subgraph node is explored, the conflicted subgraph is in the
subgraph.  A node on a path from a conflicted event to another is explored, by induction on the
path; its auth event on the path reaches a conflicted event, so it is not `Dead`, and the two are
in the subgraph. -/
theorem subgraph_of_explored (dead : DeadEnds fetch conflictedSet global)
    (explored : ∀ node, node ∈ conflictedSet ∨ global.subgraph.get node = some .subgraph →
      Explored fetch global node)
    {eventId : EventId} (inside : InConflictedSubgraph fetch conflictedSet eventId) :
    global.subgraph.get eventId = some .subgraph := by
  -- an explored node's auth event that reaches a conflicted event joined the subgraph with it
  have joins : ∀ node auth, node ∈ conflictedSet ∨ global.subgraph.get node = some .subgraph →
      AuthEdge fetch node auth → ReachesConflicted fetch conflictedSet auth →
      global.subgraph.get auth = some .subgraph ∧ global.subgraph.get node = some .subgraph := by
    rintro node auth covered ⟨authEvents, fetched, member⟩ leads
    rcases explored node covered authEvents fetched auth member with marked | both
    · exact absurd leads (dead auth marked)
    · exact both
  have closed : ∀ node ∈ {node | node ∈ conflictedSet ∨ global.subgraph.get node = some .subgraph},
      ∀ auth, AuthEdge fetch node auth → ReachesConflicted fetch conflictedSet auth →
        auth ∈ {node | node ∈ conflictedSet ∨ global.subgraph.get node = some .subgraph} :=
    fun node covered auth edge leads => .inr (joins node auth covered edge leads).1
  obtain ⟨first, firstIn, last, lastIn, down, up, between⟩ := inside
  rcases Relation.ReflTransGen.cases_head up with same | ⟨auth, edge, rest⟩
  · -- the event is the last conflicted event: the node before it on the path is explored
    rw [same]
    obtain ⟨node, reached, edge⟩ := Relation.TransGen.tail'_iff.mp between
    have covered := DepthFirst.mem_of_closed closed (.inl firstIn) reached
      (DepthFirst.Leads.head edge (DepthFirst.leads_of_mem lastIn))
    exact (joins node last covered edge (DepthFirst.leads_of_mem lastIn)).1
  · have covered := DepthFirst.mem_of_closed closed (.inl firstIn) down
      ⟨last, lastIn, .head edge rest⟩
    exact (joins eventId auth covered edge ⟨last, lastIn, rest⟩).2

variable (acyclic : WellFounded (flip (AuthEdge fetch)))
include acyclic

/-- On an auth graph with no infinite descending chain, whatever order the fetches completed in
and whatever widths the window took, when the window is empty after the first loop of a turn the
stream has yielded exactly the conflicted subgraph: the events on an `auth_events` path between
two conflicted events. -/
theorem conflictedSubgraph_complete (reachable : Reachable fetch conflictedSet global)
    {width : Nat} (wide : 0 < width) (ended : (fill width global).todo = []) :
    ∀ eventId, eventId ∈ (fill width global).outputs ↔
      InConflictedSubgraph fetch conflictedSet eventId := by
  have safe := Safe.fill width global (Safe.reachable reachable)
  have owned := Owned.fill width global (Owned.reachable reachable)
  obtain ⟨except, explores, _⟩ :=
    (Exploring.reachable acyclic reachable).fill width (Safe.reachable reachable).seeds
  have ready : (fill width global).ready = [] :=
    (fill_ready width global).trans (ready_of_reachable reachable)
  have short : (fill width global).todo.length < width := by
    rw [ended]
    exact wide
  have idle : (fill width global).todo ++ (fill width global).deferred = [] := by
    rw [ended, fill_drained width global short]
    rfl
  -- no walker has a path: it would be parked, and no node has waiters
  have unwaited := owned.unwaited acyclic safe ready idle
  have pathless : ∀ id, ((fill width global).walker id).path = [] := fun id => by
    by_contra nonempty
    obtain ⟨next, _, stored, _⟩ := owned.parked_of_path ready idle nonempty
    rw [unwaited next] at stored
    cases stored
  -- so every conflicted or subgraph node is explored: no seed, path or fetch is left
  have explored : ∀ node, node ∈ conflictedSet ∨
      (fill width global).subgraph.get node = some .subgraph →
      Explored fetch (fill width global) node := fun node covered => by
    rcases explores.explored node covered with done | seed | ⟨id, onPath⟩ | ⟨id, fetching⟩
    · exact done
    · rw [fill_started width global short] at seed
      exact absurd seed List.not_mem_nil
    · rw [pathless id] at onPath
      exact absurd onPath List.not_mem_nil
    · simp [Global.fetches, idle] at fetching
  intro eventId
  constructor
  · intro member
    exact safe.sound eventId (safe.emitted eventId member)
  · intro inside
    exact explores.emitted eventId (subgraph_of_explored explores.dead explored inside)

end Ended

/-- The run that parks a walker ends having yielded `$b`, `$x`, `$a` and `$c`; `$x`, which is not
conflicted, is yielded because it lies on the path from `$b` to `$a`. -/
theorem parkingRun_complete :
    (fill 3 parkingDone).outputs = ["$b", "$x", "$a", "$c"] ∧
      ("$x" ∈ (fill 3 parkingDone).outputs ↔
        InConflictedSubgraph parkingAuthEvents ["$a", "$b", "$c"] "$x") := by
  refine ⟨by rw [parkingDone_fill]; rfl, ?_⟩
  exact conflictedSubgraph_complete parkingAuthEvents_wellFounded parkingDone_reachable (by decide)
    parkingDone_ended "$x"

end StateRes
end Tuwunel
