import Mathlib
import Tuwunel.Library.KeyValue
import Tuwunel.Core.Identifiers

/-!
# The conflicted subgraph walk

`conflicted_subgraph_dfs` streams the events that lie on an `auth_events` path between two
members of the conflicted set.  One walker starts at each conflicted event and runs a
depth-first descent with its own `path` and `stack`.  The walkers share the `subgraph` map of
node states.  A node first met by a walker is `Pending`, with that walker as owner, until its
descent ends (`Dead`) or reaches the conflicted set (`Subgraph`).  A walker that meets a node
another walker owns parks in `waiters`; when the owner resolves the node, it pushes a `Wake` to
`ready`.  Each turn of the unfold completes one fetch and lets its walker advance.  Then it
resumes every woken walker.

The fetches in flight complete in any order: a turn names the one that completes.  The width of
the fetch window is `automatic_width`, read again at every turn, so a turn names it too.  The
stream's items are collected in `outputs`, turn after turn, as the `flatten` yields them.
`fetch` is the closure the caller passes: an event's `auth_events`, or `none` where it fails.

The source pushes and pops `path`, `stack` and each frame at their ends.  Here all three are kept
top first, so a frame is its event's `auth_events` reversed, and `ready` is kept top first too.
-/

namespace Tuwunel
namespace StateRes

open KeyValue

/-- `Resolution`. -/
inductive Resolution
  | dead
  | subgraph
  deriving DecidableEq, Repr

/-- `Substate`. -/
inductive Substate
  | conflicted
  | pending (owner : Nat)
  | dead
  | subgraph
  deriving DecidableEq, Repr

/-- `Evaluation`. -/
inductive Evaluation
  | continue
  | fetch (eventId : EventId)
  | park
  deriving DecidableEq, Repr

/-- The state a resolution leaves its node in. -/
def Resolution.substate : Resolution → Substate
  | .dead => .dead
  | .subgraph => .subgraph

/-- `Local`, top first. -/
structure Local where
  path : List EventId
  stack : List (List EventId)
  marked : Nat
  deriving DecidableEq, Repr

/-- `Local::default`. -/
def Local.default : Local := ⟨[], [], 0⟩

/-- `Wake`. -/
structure Wake where
  eventId : EventId
  locals : List Nat
  result : Resolution
  deriving DecidableEq, Repr

/-- `Global`, with the unfold's `inputs` (the seeds not yet started) and the items the stream
has yielded.  `todo` lists the fetches in flight by walker and event. -/
structure Global where
  subgraph : Table EventId Substate
  todo : List (Nat × EventId)
  locals : List Local
  waiters : AList fun _ : EventId => List Nat
  ready : List Wake
  deferred : List (Nat × EventId)
  parked : Nat
  inputs : List EventId
  outputs : List EventId

/-- `locals[id]`. -/
def Global.walker (global : Global) (id : Nat) : Local :=
  global.locals.getD id Local.default

/-- `locals[id]` replaced. -/
def Global.setWalker (global : Global) (id : Nat) (walker : Local) : Global :=
  { global with locals := global.locals.set id walker }

/-- The state the unfold starts from: every conflicted event seeded as `Conflicted`. -/
def Global.init (conflictedSet : List EventId) : Global where
  subgraph := conflictedSet.foldl (fun subgraph eventId => subgraph.put eventId .conflicted)
    Table.empty
  todo := []
  locals := []
  waiters := ∅
  ready := []
  deferred := []
  parked := 0
  inputs := conflictedSet
  outputs := []

/-! ## Resolving nodes -/

/-- The block `complete_pending` and `insert_path_filter` share: the node's waiters leave
`waiters` and are pushed to `ready` as one wake.  An empty `waiters` has no entry to remove,
which is the source's early return. -/
def wakeWaiters (global : Global) (eventId : EventId) (result : Resolution) : Global :=
  match global.waiters.lookup eventId with
  | none => global
  | some locals =>
      { global with
        waiters := global.waiters.erase eventId
        parked := global.parked - locals.length
        ready := ⟨eventId, locals, result⟩ :: global.ready }

/-- `complete_pending`: only a pending node is resolved. -/
def completePending (global : Global) (eventId : EventId) (result : Resolution) : Global :=
  match global.subgraph.get eventId with
  | some (.pending _) =>
      wakeWaiters { global with subgraph := global.subgraph.put eventId result.substate }
        eventId result
  | _ => global

/-- `insert_path_filter`: whether the node joins the subgraph now.  The source only asserts, in
debug builds, that the node is not `Dead`. -/
def insertPathFilter (global : Global) (eventId : EventId) : Bool × Global :=
  match global.subgraph.get eventId with
  | none => (true, { global with subgraph := global.subgraph.put eventId .subgraph })
  | some .subgraph => (false, global)
  | some (.pending _) =>
      (true, wakeWaiters { global with subgraph := global.subgraph.put eventId .subgraph }
        eventId .subgraph)
  | some _ => (true, { global with subgraph := global.subgraph.put eventId .subgraph })

/-- The filter of `insert_path` and the `extend` of `outputs` by the nodes it keeps. -/
def insertNodes : List EventId → Global → Global
  | [], global => global
  | eventId :: eventIds, global =>
      match insertPathFilter global eventId with
      | (true, global) => insertNodes eventIds { global with outputs := global.outputs ++ [eventId] }
      | (false, global) => insertNodes eventIds global

/-- `Local::insert_path`: the unmarked part of the path, bottom to top, then `eventId`. -/
def Local.insertPath (walker : Local) (global : Global) (eventId : EventId) : Local × Global :=
  ({ walker with marked := walker.path.length },
    insertNodes ((walker.path.take (walker.path.length - walker.marked)).reverse ++ [eventId])
      global)

/-! ## One walker's descent -/

/-- The loop of `Local::pop`: each exhausted frame is dropped, and the node it was for is
completed as dead. -/
def dropExhausted : List EventId → List (List EventId) → Global →
    List EventId × List (List EventId) × Global
  | eventId :: path, [] :: frames, global =>
      dropExhausted path frames (completePending global eventId .dead)
  | [], [] :: frames, global => dropExhausted [] frames global
  | path, stack, global => (path, stack, global)

/-- `Local::pop`. -/
def Local.pop (walker : Local) (global : Global) : Option EventId × Local × Global :=
  match dropExhausted walker.path walker.stack global with
  | (path, (eventId :: frame) :: frames, global) =>
      (some eventId, ⟨path, frame :: frames, min walker.marked path.length⟩, global)
  | (path, stack, global) => (none, ⟨path, stack, min walker.marked path.length⟩, global)

/-- `Local::eval`. -/
def Local.eval (walker : Local) (id : Nat) (global : Global) (eventId : EventId) :
    Evaluation × Local × Global :=
  match global.subgraph.get eventId with
  | some .subgraph =>
      match walker.insertPath global eventId with
      | (walker, global) => (.continue, walker, global)
  | some .dead => (.continue, walker, global)
  | some (.pending owner) =>
      if owner = id then (.continue, walker, global)
      else
        (.park, walker,
          { global with
            waiters := global.waiters.insert eventId ((global.waiters.lookup eventId).getD [] ++ [id])
            parked := global.parked + 1 })
  | some .conflicted =>
      match walker.insertPath global eventId with
      | (walker, global) =>
          -- the walker's own seed is not fetched again
          (if walker.path.getLast? = some eventId then .continue else .fetch eventId, walker, global)
  | none =>
      (.fetch eventId, walker, { global with subgraph := global.subgraph.put eventId (.pending id) })

/-- The entries left on a walker's stack, with one for each frame. -/
def Local.weight (walker : Local) : Nat :=
  (walker.stack.map fun frame => frame.length + 1).sum

theorem dropExhausted_weight (path : List EventId) (stack : List (List EventId))
    (global : Global) :
    ((dropExhausted path stack global).2.1.map fun frame => frame.length + 1).sum ≤
      (stack.map fun frame => frame.length + 1).sum := by
  fun_induction dropExhausted path stack global with
  | case1 eventId path frames global ih =>
      simp only [List.map_cons, List.length_nil, List.sum_cons] at ih ⊢
      omega
  | case2 frames global ih =>
      simp only [List.map_cons, List.length_nil, List.sum_cons] at ih ⊢
      omega
  | case3 => exact le_rfl

theorem Local.pop_weight {walker popped : Local} {global global' : Global} {eventId : EventId}
    (taken : walker.pop global = (some eventId, popped, global')) :
    popped.weight < walker.weight := by
  have bound := dropExhausted_weight walker.path walker.stack global
  unfold Local.pop at taken
  split at taken
  · next path event frame frames middle dropped =>
      simp only [Option.some.injEq, Prod.mk.injEq] at taken
      obtain ⟨rfl, rfl, rfl⟩ := taken
      rw [dropped] at bound
      simp only [List.map_cons, List.sum_cons, List.length_cons] at bound
      simp only [Local.weight, List.map_cons, List.sum_cons]
      omega
  · simp at taken

theorem Local.eval_stack (walker : Local) (id : Nat) (global : Global) (eventId : EventId) :
    (walker.eval id global eventId).2.1.stack = walker.stack := by
  unfold Local.eval Local.insertPath
  split
  case h_3 => split <;> rfl
  all_goals rfl

/-- The loop of `advance`: the walker pops and evaluates auth events until it must fetch one or
park; a walker whose stack runs out starts over as `Local::default`. -/
def Local.descend (id : Nat) (walker : Local) (global : Global) :
    Option EventId × Local × Global :=
  match _popped : walker.pop global with
  | (none, walker, global) => (none, if walker.stack = [] then Local.default else walker, global)
  | (some eventId, popped', global') =>
      match _evaluated : popped'.eval id global' eventId with
      | (.continue, walker'', global'') => Local.descend id walker'' global''
      | (.fetch next, walker'', global'') => (some next, walker'', global'')
      | (.park, walker'', global'') => (none, walker'', global'')
termination_by walker.weight
decreasing_by
  have same := Local.eval_stack popped' id global' eventId
  rw [_evaluated] at same
  dsimp only at same
  simpa [Local.weight, same] using Local.pop_weight _popped

/-- The loop of `advance` unfolded once, with its matches on the pop and on the evaluation
free of the hypotheses the termination proof names, so that `simp` can run it. -/
theorem Local.descend_eq (id : Nat) (walker : Local) (global : Global) :
    Local.descend id walker global =
      match walker.pop global with
      | (none, walker, global) => (none, if walker.stack = [] then Local.default else walker, global)
      | (some eventId, popped, global') =>
          match popped.eval id global' eventId with
          | (.continue, walker'', global'') => Local.descend id walker'' global''
          | (.fetch next, walker'', global'') => (some next, walker'', global'')
          | (.park, walker'', global'') => (none, walker'', global'') := by
  rw [Local.descend]
  split
  · next popped => rw [popped]
  · next eventId popped' global' popped =>
      rw [popped]
      dsimp only
      split <;> next evaluated => rw [evaluated]

/-- `advance`. -/
def advance (global : Global) (id : Nat) : Option EventId × Global :=
  match Local.descend id (global.walker id) global with
  | (next, walker, global) => (next, global.setWalker id walker)

/-- `process_fetch`; `event` is the fetch's result. -/
def processFetch (global : Global) (id : Nat) (eventId : EventId)
    (event : Option (List EventId)) : Option EventId × Global :=
  let global := match event with
    | some authEvents =>
        let walker := global.walker id
        global.setWalker id
          { walker with path := eventId :: walker.path, stack := authEvents.reverse :: walker.stack }
    | none => completePending global eventId .dead
  advance global id

/-- `resume`. -/
def resume (global : Global) (id : Nat) (eventId : EventId) (result : Resolution) :
    Option EventId × Global :=
  let global := match result with
    | .subgraph =>
        match (global.walker id).insertPath global eventId with
        | (walker, global) => global.setWalker id walker
    | .dead => global
  advance global id

/-! ## Turns of the unfold -/

/-- A walker's next fetch joins `todo` while the window has room, and `deferred` otherwise. -/
def launch (width : Nat) (global : Global) (id : Nat) : Option EventId → Global
  | none => global
  | some next =>
      if global.todo.length < width then { global with todo := global.todo ++ [(id, next)] }
      else { global with deferred := global.deferred ++ [(id, next)] }

/-- The first loop of a turn: the window is filled from `deferred`, then by starting a walker
at each next seed. -/
def fill (width : Nat) (global : Global) : Global :=
  if global.todo.length < width then
    match global.deferred with
    | (id, eventId) :: deferred =>
        fill width { global with todo := global.todo ++ [(id, eventId)], deferred := deferred }
    | [] =>
        match global.inputs with
        | seed :: inputs =>
            fill width
              { global with
                locals := global.locals ++ [Local.default]
                todo := global.todo ++ [(global.locals.length, seed)]
                inputs := inputs }
        | [] => global
  else global
termination_by width - global.todo.length

/-- The loop after a fetch completes: the window is refilled from `deferred` only. -/
def refill (width : Nat) (global : Global) : Global :=
  if global.todo.length < width then
    match global.deferred with
    | (id, eventId) :: deferred =>
        refill width { global with todo := global.todo ++ [(id, eventId)], deferred := deferred }
    | [] => global
  else global
termination_by width - global.todo.length

/-- With nothing deferred and no seed left, the first loop leaves the state as it is. -/
theorem fill_of_idle (width : Nat) (global : Global) (deferred : global.deferred = [])
    (inputs : global.inputs = []) : fill width global = global := by
  rw [fill]
  split
  · simp only [deferred, inputs]
  · rfl

/-- With nothing deferred, the refill leaves the state as it is. -/
theorem refill_of_idle (width : Nat) (global : Global) (deferred : global.deferred = []) :
    refill width global = global := by
  rw [refill]
  split
  · simp only [deferred]
  · rfl

/-- The inner loop of the drain: each walker of a wake resumes, and its next fetch launches. -/
def resumeWaiters (width : Nat) (eventId : EventId) (result : Resolution) :
    List Nat → Global → Global
  | [], global => global
  | id :: ids, global =>
      match resume global id eventId result with
      | (next, global) => resumeWaiters width eventId result ids (launch width global id next)

/-- `while let Some(wake) = ready.pop()`: the drain relates the state it starts from to the one
it ends in, with `ready` empty. -/
inductive Drains (width : Nat) : Global → Global → Prop
  | done {global : Global} : global.ready = [] → Drains width global global
  | wake {global final : Global} {wake : Wake} {ready : List Wake} :
      global.ready = wake :: ready →
      Drains width (resumeWaiters width wake.eventId wake.result wake.locals { global with ready })
        final →
      Drains width global final

/-- A turn up to its drain, at window width `width`, the fetch at position `pick` of the window
completing with the result `fetch` gives.  `none` where the window is empty after the first
loop, which ends the stream. -/
def turnStart (fetch : EventId → Option (List EventId)) (width pick : Nat) (global : Global) :
    Option Global :=
  let global := fill width global
  match global.todo[pick]? with
  | none => none
  | some (id, eventId) =>
      let global := refill width { global with todo := global.todo.eraseIdx pick }
      match processFetch global id eventId (fetch eventId) with
      | (next, global) => some (launch width global id next)

/-- One turn of the unfold: its first part, then the drain. -/
inductive Turn (fetch : EventId → Option (List EventId)) : Global → Global → Prop
  | mk {global started final : Global} (width pick : Nat) :
      turnStart fetch width pick global = some started → Drains width started final →
      Turn fetch global final

/-- The states the unfold reaches from the conflicted set, under any order of fetch completions
and any window widths. -/
def Reachable (fetch : EventId → Option (List EventId)) (conflictedSet : List EventId)
    (global : Global) : Prop :=
  Relation.ReflTransGen (Turn fetch) (Global.init conflictedSet) global

end StateRes
end Tuwunel
