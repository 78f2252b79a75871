import Mathlib
import Tuwunel.Library.AListTotal
import Tuwunel.Service.Rooms.StateRes.Resolve.ConflictedSubgraph.Safety

/-!
# The parked count

`parked` counts the walkers waiting in `waiters`.  The walk reads it only in its debug
assertions: `complete_pending` and `insert_path_filter` assert `*parked >= locals.len()` before a
wake takes a node's waiters away, and the unfold asserts `parked == 0` when the stream ends.

Every step keeps `parked` equal to the number of walker ids `waiters` holds (`Global.Counted`):
a walker that parks adds one id and one to the count, a wake takes a node's ids and as much off
the count, and nothing else touches either.  So in every reachable state the count is the
number of parked walkers and covers every node's waiters (`parked_eq_waiting`).
-/

namespace Tuwunel
namespace StateRes

/-- The walker ids `waiters` holds. -/
def Global.waiting (global : Global) : Nat :=
  AListTotal.total List.length global.waiters

/-- `parked` is the number of walker ids `waiters` holds. -/
def Global.Counted (global : Global) : Prop :=
  global.parked = global.waiting

section Steps

variable {global : Global}

theorem Global.Counted.wakeWaiters (counted : global.Counted) (eventId : EventId)
    (result : Resolution) : (StateRes.wakeWaiters global eventId result).Counted := by
  rcases found : global.waiters.lookup eventId with _ | ids
  · rwa [wakeWaiters_of_lookup_none result found]
  rw [wakeWaiters_of_lookup result found]
  -- the wake takes the node's ids out of `waiters` and as many off the count
  have taken : AListTotal.total List.length (global.waiters.erase eventId) + ids.length =
      global.waiting := AListTotal.total_erase_add found
  show global.parked - ids.length = AListTotal.total List.length (global.waiters.erase eventId)
  unfold Global.Counted at counted
  omega

/-- A walker parking on a node: one more id in the node's waiters, and one more on the count. -/
theorem Global.Counted.park (counted : global.Counted) (eventId : EventId) (id : Nat) :
    Global.Counted { global with
      waiters := global.waiters.insert eventId ((global.waiters.lookup eventId).getD [] ++ [id])
      parked := global.parked + 1 } := by
  unfold Global.Counted Global.waiting at *
  dsimp only
  rw [AListTotal.total_insert]
  rcases found : global.waiters.lookup eventId with _ | ids
  · rw [AListTotal.total_erase_of_lookup_eq_none found]
    simp only [Option.getD_none, List.nil_append, List.length_singleton]
    omega
  · have taken : AListTotal.total List.length (global.waiters.erase eventId) + ids.length =
        AListTotal.total List.length global.waiters := AListTotal.total_erase_add found
    simp only [Option.getD_some, List.length_append, List.length_singleton]
    omega

theorem Global.Counted.completePending (counted : global.Counted) (eventId : EventId)
    (result : Resolution) : (StateRes.completePending global eventId result).Counted := by
  unfold StateRes.completePending
  split
  · apply Global.Counted.wakeWaiters
    exact counted
  · exact counted

theorem Global.Counted.insertPathFilter (counted : global.Counted) (eventId : EventId) :
    (StateRes.insertPathFilter global eventId).2.Counted := by
  unfold StateRes.insertPathFilter
  split
  case h_2 => exact counted
  case h_3 =>
    apply Global.Counted.wakeWaiters
    exact counted
  all_goals exact counted

theorem Global.Counted.insertNodes : ∀ (nodes : List EventId) {global : Global},
    global.Counted → (StateRes.insertNodes nodes global).Counted
  | [], _, counted => counted
  | eventId :: nodes, global, counted => by
      have filtered := counted.insertPathFilter eventId
      unfold StateRes.insertNodes
      rcases filter : StateRes.insertPathFilter global eventId with ⟨_ | _, after⟩
      all_goals rw [filter] at filtered
      · exact Global.Counted.insertNodes nodes filtered
      · exact Global.Counted.insertNodes nodes filtered

theorem Global.Counted.dropExhausted (path : List EventId) (stack : List (List EventId)) :
    global.Counted → (StateRes.dropExhausted path stack global).2.2.Counted := by
  fun_induction StateRes.dropExhausted path stack global with
  | case1 eventId path frames global ih =>
      exact fun counted => ih (counted.completePending eventId .dead)
  | case2 frames global ih => exact ih
  | case3 => exact id

theorem Global.Counted.pop (counted : global.Counted) (walker : Local) :
    (walker.pop global).2.2.Counted := by
  rw [Local.pop_global]
  exact counted.dropExhausted walker.path walker.stack

theorem Global.Counted.eval (counted : global.Counted) (walker : Local) (id : Nat)
    (eventId : EventId) : (walker.eval id global eventId).2.2.Counted := by
  unfold Local.eval
  rcases marked : global.subgraph.get eventId with _ | state
  case none => exact counted
  cases state with
  | subgraph => exact counted.insertNodes _
  | dead => exact counted
  | pending owner =>
      dsimp only
      split_ifs
      · exact counted
      · exact counted.park eventId id
  | conflicted => exact counted.insertNodes _

/-- A pop that yields an event, and the evaluation of that event. -/
theorem Global.Counted.popEval (counted : global.Counted) {walker popped : Local}
    {global' : Global} {eventId : EventId} (taken : walker.pop global = (some eventId, popped, global'))
    (id : Nat) : (popped.eval id global' eventId).2.2.Counted := by
  have step := counted.pop walker
  rw [taken] at step
  exact step.eval popped id eventId

/-- The loop of `advance`, by induction on it: each pop and evaluation keeps the count. -/
theorem Global.Counted.descend (id : Nat) (walker : Local) (global : Global) :
    global.Counted → (Local.descend id walker global).2.2.Counted := by
  fun_induction Local.descend id walker global with
  | case1 walker global walker' global' taken =>
      intro counted
      have popped := counted.pop walker
      rw [taken] at popped
      exact popped
  | case2 walker global eventId popped global' taken walker' global'' evaluated ih =>
      intro counted
      have step := counted.popEval taken id
      rw [evaluated] at step
      exact ih step
  | case3 walker global eventId popped global' taken next walker' global'' evaluated =>
      intro counted
      have step := counted.popEval taken id
      rw [evaluated] at step
      exact step
  | case4 walker global eventId popped global' taken walker' global'' evaluated =>
      intro counted
      have step := counted.popEval taken id
      rw [evaluated] at step
      exact step

theorem Global.Counted.advance (counted : global.Counted) (id : Nat) :
    (StateRes.advance global id).2.Counted := by
  have descended := counted.descend id (global.walker id) global
  unfold StateRes.advance
  rcases result : Local.descend id (global.walker id) global with ⟨next, walker, global'⟩
  rw [result] at descended
  exact descended

theorem Global.Counted.processFetch (counted : global.Counted) (id : Nat) (eventId : EventId)
    (event : Option (List EventId)) :
    (StateRes.processFetch global id eventId event).2.Counted := by
  unfold StateRes.processFetch
  cases event with
  | some authEvents =>
      apply Global.Counted.advance
      exact counted
  | none =>
      apply Global.Counted.advance
      exact counted.completePending eventId .dead

theorem Global.Counted.resume (counted : global.Counted) (id : Nat) (eventId : EventId)
    (result : Resolution) : (StateRes.resume global id eventId result).2.Counted := by
  unfold StateRes.resume
  cases result with
  | subgraph =>
      apply Global.Counted.advance
      exact counted.insertNodes _
  | dead => exact counted.advance id

theorem Global.Counted.launch (counted : global.Counted) (width id : Nat)
    (next : Option EventId) : (StateRes.launch width global id next).Counted := by
  unfold StateRes.launch
  split
  · exact counted
  · split
    · exact counted
    · exact counted

theorem Global.Counted.resumeWaiters (width : Nat) (eventId : EventId) (result : Resolution) :
    ∀ (ids : List Nat) {global : Global}, global.Counted →
      (StateRes.resumeWaiters width eventId result ids global).Counted
  | [], _, counted => counted
  | id :: ids, global, counted => by
      have resumed := counted.resume id eventId result
      unfold StateRes.resumeWaiters
      rcases step : StateRes.resume global id eventId result with ⟨next, global'⟩
      rw [step] at resumed
      exact Global.Counted.resumeWaiters width eventId result ids (resumed.launch width id next)

theorem Global.Counted.fill (width : Nat) (global : Global) :
    global.Counted → (StateRes.fill width global).Counted := by
  fun_induction StateRes.fill width global with
  | case1 global _ id eventId deferred front ih => exact fun counted => ih counted
  | case2 global _ _ seed inputs next ih => exact fun counted => ih counted
  | case3 => exact id
  | case4 => exact id

theorem Global.Counted.refill (width : Nat) (global : Global) :
    global.Counted → (StateRes.refill width global).Counted := by
  fun_induction StateRes.refill width global with
  | case1 global _ id eventId deferred front ih => exact fun counted => ih counted
  | case2 => exact id
  | case3 => exact id

theorem Global.Counted.turnStart (counted : global.Counted)
    (fetch : EventId → Option (List EventId)) {width pick : Nat} {started : Global}
    (start : turnStart fetch width pick global = some started) : started.Counted := by
  have filled := Global.Counted.fill width global counted
  unfold StateRes.turnStart at start
  rcases picked : (StateRes.fill width global).todo[pick]? with _ | ⟨id, eventId⟩
  all_goals simp only [picked] at start
  · cases start
  have refilled := Global.Counted.refill width
    { StateRes.fill width global with todo := (StateRes.fill width global).todo.eraseIdx pick }
    filled
  have processed := refilled.processFetch id eventId (fetch eventId)
  rcases result : StateRes.processFetch (StateRes.refill width { StateRes.fill width global with
      todo := (StateRes.fill width global).todo.eraseIdx pick }) id eventId (fetch eventId) with
    ⟨next, global'⟩
  rw [result] at start processed
  cases start
  exact processed.launch width id next

/-- The drain, by induction on it: each wake leaves `ready` and resumes its walkers. -/
theorem Global.Counted.drains {width : Nat} {final : Global} (drains : Drains width global final) :
    global.Counted → final.Counted := by
  induction drains with
  | done => exact id
  | @wake global final wake ready popped _ ih =>
      exact fun counted => ih (Global.Counted.resumeWaiters width wake.eventId wake.result
        wake.locals counted)

theorem Global.Counted.turn (counted : global.Counted) {fetch : EventId → Option (List EventId)}
    {final : Global} (turn : Turn fetch global final) : final.Counted := by
  obtain ⟨width, pick, start, drains⟩ := turn
  exact Global.Counted.drains drains (counted.turnStart fetch start)

end Steps

/-! ## The wakes a turn makes

The functions below list the wakes each function of the walk makes, call for call: the state
`wakeWaiters` is called on, and the node it wakes.  `complete_pending` and `insert_path_filter`
assert `*parked >= locals.len()` there, with `locals` the waiters the wake takes
(`Global.WakeBound`). -/

/-- The assertion of a wake of `eventId` from `global`: the node's waiters are no more than the
walkers `parked` counts. -/
def Global.WakeBound (global : Global) (eventId : EventId) : Prop :=
  ∀ ids, global.waiters.lookup eventId = some ids → ids.length ≤ global.parked

/-- A call of `wakeWaiters`: the state it is called on, and the node it wakes. -/
abbrev WakeCall := Global × EventId

def completePendingWakes (global : Global) (eventId : EventId) (result : Resolution) :
    List WakeCall :=
  match global.subgraph.get eventId with
  | some (.pending _) =>
      [({ global with subgraph := global.subgraph.put eventId result.substate }, eventId)]
  | _ => []

def insertPathFilterWakes (global : Global) (eventId : EventId) : List WakeCall :=
  match global.subgraph.get eventId with
  | some (.pending _) => [({ global with subgraph := global.subgraph.put eventId .subgraph }, eventId)]
  | _ => []

def insertNodesWakes : List EventId → Global → List WakeCall
  | [], _ => []
  | eventId :: eventIds, global =>
      insertPathFilterWakes global eventId ++
        match insertPathFilter global eventId with
        | (true, global) =>
            insertNodesWakes eventIds { global with outputs := global.outputs ++ [eventId] }
        | (false, global) => insertNodesWakes eventIds global

def Local.insertPathWakes (walker : Local) (global : Global) (eventId : EventId) :
    List WakeCall :=
  insertNodesWakes ((walker.path.take (walker.path.length - walker.marked)).reverse ++ [eventId])
    global

def dropExhaustedWakes : List EventId → List (List EventId) → Global → List WakeCall
  | [], [] :: frames, global => dropExhaustedWakes [] frames global
  | eventId :: path, [] :: frames, global =>
      completePendingWakes global eventId .dead ++
        dropExhaustedWakes path frames (completePending global eventId .dead)
  | _, _, _ => []

def Local.popWakes (walker : Local) (global : Global) : List WakeCall :=
  dropExhaustedWakes walker.path walker.stack global

def Local.evalWakes (walker : Local) (global : Global) (eventId : EventId) : List WakeCall :=
  match global.subgraph.get eventId with
  | some .subgraph => walker.insertPathWakes global eventId
  | some .conflicted => walker.insertPathWakes global eventId
  | _ => []

def Local.descendWakes (id : Nat) (walker : Local) (global : Global) : List WakeCall :=
  match _popped : walker.pop global with
  | (none, _, _) => walker.popWakes global
  | (some eventId, popped', global') =>
      match _evaluated : popped'.eval id global' eventId with
      | (.continue, walker'', global'') =>
          walker.popWakes global ++ popped'.evalWakes global' eventId ++
            Local.descendWakes id walker'' global''
      | (.fetch _, _, _) => walker.popWakes global ++ popped'.evalWakes global' eventId
      | (.park, _, _) => walker.popWakes global ++ popped'.evalWakes global' eventId
termination_by walker.weight
decreasing_by
  have same := Local.eval_stack popped' id global' eventId
  rw [_evaluated] at same
  dsimp only at same
  simpa [Local.weight, same] using Local.pop_weight _popped

/-- `Local.descendWakes` unfolded once, with matches `simp` can run, as `Local.descend_eq`. -/
theorem Local.descendWakes_eq (id : Nat) (walker : Local) (global : Global) :
    Local.descendWakes id walker global =
      match walker.pop global with
      | (none, _, _) => walker.popWakes global
      | (some eventId, popped, global') =>
          match popped.eval id global' eventId with
          | (.continue, walker'', global'') =>
              walker.popWakes global ++ popped.evalWakes global' eventId ++
                Local.descendWakes id walker'' global''
          | (.fetch _, _, _) => walker.popWakes global ++ popped.evalWakes global' eventId
          | (.park, _, _) => walker.popWakes global ++ popped.evalWakes global' eventId := by
  rw [Local.descendWakes]
  split
  · next popped => rw [popped]
  · next eventId popped' global' popped =>
      rw [popped]
      dsimp only
      split <;> next evaluated => rw [evaluated]

def advanceWakes (global : Global) (id : Nat) : List WakeCall :=
  Local.descendWakes id (global.walker id) global

def processFetchWakes (global : Global) (id : Nat) (eventId : EventId) :
    Option (List EventId) → List WakeCall
  | some authEvents =>
      let walker := global.walker id
      advanceWakes (global.setWalker id
        { walker with path := eventId :: walker.path, stack := authEvents.reverse :: walker.stack })
        id
  | none =>
      completePendingWakes global eventId .dead ++
        advanceWakes (completePending global eventId .dead) id

def resumeWakes (global : Global) (id : Nat) (eventId : EventId) : Resolution → List WakeCall
  | .subgraph =>
      (global.walker id).insertPathWakes global eventId ++
        match (global.walker id).insertPath global eventId with
        | (walker, global) => advanceWakes (global.setWalker id walker) id
  | .dead => advanceWakes global id

def resumeWaitersWakes (width : Nat) (eventId : EventId) (result : Resolution) :
    List Nat → Global → List WakeCall
  | [], _ => []
  | id :: ids, global =>
      resumeWakes global id eventId result ++
        match resume global id eventId result with
        | (next, global) => resumeWaitersWakes width eventId result ids (launch width global id next)

def turnStartWakes (fetch : EventId → Option (List EventId)) (width pick : Nat) (global : Global) :
    List WakeCall :=
  let global := fill width global
  match global.todo[pick]? with
  | none => []
  | some (id, eventId) =>
      processFetchWakes (refill width { global with todo := global.todo.eraseIdx pick }) id eventId
        (fetch eventId)

/-- A wake the drain from `global` makes: while resuming the walkers of the wake it pops, or
later. -/
inductive DrainWake (width : Nat) : Global → WakeCall → Prop
  | resumed {global : Global} {wake : Wake} {ready : List Wake} {call : WakeCall} :
      global.ready = wake :: ready →
      call ∈ resumeWaitersWakes width wake.eventId wake.result wake.locals { global with ready } →
      DrainWake width global call
  | later {global : Global} {wake : Wake} {ready : List Wake} {call : WakeCall} :
      global.ready = wake :: ready →
      DrainWake width (resumeWaiters width wake.eventId wake.result wake.locals { global with ready })
        call →
      DrainWake width global call

/-- A wake a turn from `global` makes, in its first part or in its drain. -/
def TurnWake (fetch : EventId → Option (List EventId)) (global : Global) (call : WakeCall) :
    Prop :=
  ∃ width pick started, turnStart fetch width pick global = some started ∧
    (call ∈ turnStartWakes fetch width pick global ∨ DrainWake width started call)

section Wakes

variable {global : Global}

/-- The count covers each node's waiters. -/
theorem Global.Counted.wakeBound (counted : global.Counted) (eventId : EventId) :
    global.WakeBound eventId := by
  intro ids found
  have taken : AListTotal.total List.length (global.waiters.erase eventId) + ids.length =
      global.waiting := AListTotal.total_erase_add found
  unfold Global.Counted at counted
  omega

/-- Each wake of `complete_pending` starts from the state it is given, with one node's state
changed. -/
theorem Global.Counted.completePendingWakes (counted : global.Counted) (eventId : EventId)
    (result : Resolution) : ∀ call ∈ StateRes.completePendingWakes global eventId result,
      call.1.Counted := by
  unfold StateRes.completePendingWakes
  split
  · -- the wake's state differs from `global` in `subgraph` only
    exact List.forall_mem_singleton.mpr counted
  · simp

theorem Global.Counted.insertPathFilterWakes (counted : global.Counted) (eventId : EventId) :
    ∀ call ∈ StateRes.insertPathFilterWakes global eventId, call.1.Counted := by
  unfold StateRes.insertPathFilterWakes
  split
  · exact List.forall_mem_singleton.mpr counted
  · simp

theorem Global.Counted.insertNodesWakes : ∀ (nodes : List EventId) {global : Global},
    global.Counted → ∀ call ∈ StateRes.insertNodesWakes nodes global, call.1.Counted
  | [], _, _ => by simp [StateRes.insertNodesWakes]
  | eventId :: nodes, global, counted => by
      have filtered := counted.insertPathFilter eventId
      unfold StateRes.insertNodesWakes
      rcases filter : StateRes.insertPathFilter global eventId with ⟨_ | _, after⟩
      all_goals rw [filter] at filtered
      all_goals
        refine List.forall_mem_append.mpr ⟨counted.insertPathFilterWakes eventId, ?_⟩
        exact Global.Counted.insertNodesWakes nodes filtered

theorem Global.Counted.dropExhaustedWakes (path : List EventId) (stack : List (List EventId)) :
    global.Counted → ∀ call ∈ StateRes.dropExhaustedWakes path stack global, call.1.Counted := by
  fun_induction StateRes.dropExhaustedWakes path stack global with
  | case1 frames global ih => exact ih
  | case2 eventId path frames global ih =>
      intro counted call member
      rcases List.mem_append.mp member with here | later
      · exact counted.completePendingWakes eventId .dead call here
      · exact ih (counted.completePending eventId .dead) call later
  | case3 => simp

theorem Global.Counted.evalWakes (counted : global.Counted) (walker : Local) (eventId : EventId) :
    ∀ call ∈ walker.evalWakes global eventId, call.1.Counted := by
  unfold Local.evalWakes Local.insertPathWakes
  split
  · exact counted.insertNodesWakes _
  · exact counted.insertNodesWakes _
  · simp

/-- The wakes of one pop that yields `eventId`, and of its evaluation. -/
theorem Global.Counted.popEvalWakes (counted : global.Counted) (walker : Local)
    {eventId : EventId} {popped : Local} {global' : Global}
    (taken : walker.pop global = (some eventId, popped, global')) :
    ∀ call ∈ walker.popWakes global ++ popped.evalWakes global' eventId, call.1.Counted := by
  have afterPop := counted.pop walker
  rw [taken] at afterPop
  exact List.forall_mem_append.mpr
    ⟨counted.dropExhaustedWakes _ _, afterPop.evalWakes popped eventId⟩

/-- The loop of `advance`, by induction on it: the wakes of each pop and evaluation start from
states that keep the count. -/
theorem Global.Counted.descendWakes (id : Nat) (walker : Local) (global : Global) :
    global.Counted → ∀ call ∈ Local.descendWakes id walker global, call.1.Counted := by
  fun_induction Local.descendWakes id walker global with
  | case1 walker global => exact fun counted => counted.dropExhaustedWakes _ _
  | case2 walker global eventId popped global' taken walker' global'' evaluated ih =>
      intro counted
      have step := counted.popEval taken id
      rw [evaluated] at step
      exact List.forall_mem_append.mpr ⟨counted.popEvalWakes walker taken, ih step⟩
  | case3 walker global eventId popped global' taken _ _ _ _
  | case4 walker global eventId popped global' taken _ _ _ =>
      exact fun counted => counted.popEvalWakes walker taken

theorem Global.Counted.processFetchWakes (counted : global.Counted) (id : Nat) (eventId : EventId)
    (event : Option (List EventId)) :
    ∀ call ∈ StateRes.processFetchWakes global id eventId event, call.1.Counted := by
  cases event with
  | some authEvents => exact Global.Counted.descendWakes id _ _ counted
  | none =>
      intro call member
      rcases List.mem_append.mp member with here | later
      · exact counted.completePendingWakes eventId .dead call here
      · exact Global.Counted.descendWakes id _ _ (counted.completePending eventId .dead) call later

theorem Global.Counted.resumeWakes (counted : global.Counted) (id : Nat) (eventId : EventId)
    (result : Resolution) : ∀ call ∈ StateRes.resumeWakes global id eventId result, call.1.Counted := by
  cases result with
  | subgraph =>
      refine List.forall_mem_append.mpr ⟨counted.insertNodesWakes _, ?_⟩
      exact Global.Counted.descendWakes id _ _ (counted.insertNodes _)
  | dead => exact Global.Counted.descendWakes id _ _ counted

theorem Global.Counted.resumeWaitersWakes (width : Nat) (eventId : EventId) (result : Resolution) :
    ∀ (ids : List Nat) {global : Global}, global.Counted →
      ∀ call ∈ StateRes.resumeWaitersWakes width eventId result ids global, call.1.Counted
  | [], _, _ => by simp [StateRes.resumeWaitersWakes]
  | id :: ids, global, counted => by
      have resumed := counted.resume id eventId result
      unfold StateRes.resumeWaitersWakes
      rcases step : StateRes.resume global id eventId result with ⟨next, global'⟩
      rw [step] at resumed
      intro call member
      rcases List.mem_append.mp member with here | later
      · exact counted.resumeWakes id eventId result call here
      · exact Global.Counted.resumeWaitersWakes width eventId result ids
          (resumed.launch width id next) call later

theorem Global.Counted.turnStartWakes (counted : global.Counted)
    (fetch : EventId → Option (List EventId)) (width pick : Nat) :
    ∀ call ∈ StateRes.turnStartWakes fetch width pick global, call.1.Counted := by
  have filled := Global.Counted.fill width global counted
  -- the fetch that completes leaves the window, which changes neither the count nor `waiters`
  have erased : Global.Counted
      { StateRes.fill width global with todo := (StateRes.fill width global).todo.eraseIdx pick } :=
    filled
  dsimp only [StateRes.turnStartWakes]
  rcases picked : (StateRes.fill width global).todo[pick]? with _ | ⟨id, eventId⟩
  · simp
  · exact (Global.Counted.refill width _ erased).processFetchWakes id eventId (fetch eventId)

theorem Global.Counted.drainWake {width : Nat} {call : WakeCall} (drain : DrainWake width global call) :
    global.Counted → call.1.Counted := by
  induction drain with
  | @resumed global wake ready call _ member =>
      intro counted
      have popped : Global.Counted { global with ready } := counted
      exact popped.resumeWaitersWakes width wake.eventId wake.result wake.locals call member
  | @later global wake ready call _ _ ih =>
      intro counted
      have popped : Global.Counted { global with ready } := counted
      exact ih (Global.Counted.resumeWaiters width wake.eventId wake.result wake.locals popped)

/-- Every wake a turn makes starts from a state that keeps the count. -/
theorem Global.Counted.turnWake (counted : global.Counted) {fetch : EventId → Option (List EventId)}
    {call : WakeCall} (wake : TurnWake fetch global call) : call.1.Counted := by
  obtain ⟨width, pick, started, start, made⟩ := wake
  rcases made with first | drained
  · exact counted.turnStartWakes fetch width pick call first
  · exact Global.Counted.drainWake drained (counted.turnStart fetch start)

end Wakes

theorem Global.init_counted (conflictedSet : List EventId) : (Global.init conflictedSet).Counted :=
  rfl

theorem Global.Counted.reachable {fetch : EventId → Option (List EventId)}
    {conflictedSet : List EventId} {global : Global}
    (reachable : Reachable fetch conflictedSet global) : global.Counted := by
  unfold Reachable at reachable
  induction reachable with
  | refl => exact Global.init_counted conflictedSet
  | tail _ turn counted => exact counted.turn turn

/-- Whatever order the fetches complete in, `parked` is the number of walkers parked in
`waiters`, and no node has more waiters than `parked` counts: the debug assertions of
`complete_pending` and `insert_path_filter` hold, at every wake of the turn that follows too. -/
theorem parked_eq_waiting {fetch : EventId → Option (List EventId)} {conflictedSet : List EventId}
    {global : Global} (reachable : Reachable fetch conflictedSet global) :
    global.parked = global.waiting ∧
      (∀ eventId ids, global.waiters.lookup eventId = some ids → ids.length ≤ global.parked) ∧
      ∀ call, TurnWake fetch global call → call.1.WakeBound call.2 := by
  have counted := Global.Counted.reachable reachable
  exact ⟨counted, counted.wakeBound, fun call wake => (counted.turnWake wake).wakeBound call.2⟩

/-- The turn after the fetch of `$c` in the run that parks a walker wakes `$x`. -/
theorem parkingParked_wakes :
    ∃ call ∈ turnStartWakes parkingAuthEvents 3 1 parkingParked, call.2 = "$x" := by
  unfold turnStartWakes
  rw [fill_of_idle 3 parkingParked rfl rfl]
  simp [parkingParked, parkingFetching, parkingStart, Global.init]
  rw [refill_of_idle _ _ rfl]
  simp [processFetchWakes, parkingAuthEvents, advanceWakes, Global.walker, Global.setWalker,
    Local.default]
  rw [Local.descendWakes_eq]
  simp [Local.pop, dropExhausted, Local.eval, Local.popWakes, dropExhaustedWakes, Local.evalWakes,
    Local.insertPathWakes, insertNodesWakes, insertPathFilterWakes, insertPathFilter,
    Local.insertPath, insertNodes]

/-- In the run, after the fetch of `$c` one walker is parked on `$x`, and the count says so; the
turn that follows wakes `$x`. -/
theorem parkingRun_parked :
    parkingParked.parked = 1 ∧ parkingParked.waiters.lookup "$x" = some [2] ∧
      (∃ call, TurnWake parkingAuthEvents parkingParked call ∧ call.2 = "$x") ∧
      (parkingParked.parked = parkingParked.waiting ∧
        (∀ eventId ids, parkingParked.waiters.lookup eventId = some ids →
          ids.length ≤ parkingParked.parked) ∧
        ∀ call, TurnWake parkingAuthEvents parkingParked call → call.1.WakeBound call.2) := by
  obtain ⟨call, made, woken⟩ := parkingParked_wakes
  refine ⟨rfl, rfl, ⟨call, ⟨3, 1, parkingWaking, parkingParked_turnStart, .inl made⟩, woken⟩, ?_⟩
  exact parked_eq_waiting parkingParked_reachable

end StateRes
end Tuwunel
