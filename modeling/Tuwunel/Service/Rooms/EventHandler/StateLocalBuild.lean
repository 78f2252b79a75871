import Mathlib
import Tuwunel.Library.KeyValue
import Tuwunel.Service.Rooms.EventHandler.UpgradeOutlierPdu

/-!
# Building the state before an event from held ancestors

`state_at_incoming_local` builds the state before an incoming event from events the server holds.
`walk_discover` classifies the ancestry below the event's `prev_events` with point reads.  An
ancestor is committed when it has a state hash, memoized when a resolved-state row exists, and
held otherwise, when its pdu is stored.  Held nodes are emitted in post-order by an iterative
depth-first search: the stack holds `(event_id, expanded)` pairs, and a node's entry comes back
`expanded` once its prevs above it are done.  `count_consumers` then counts, for every held node
and frontier event, the edges that read its state.

`walk_build` folds state through the held nodes in that order: the state before a node is the
state after its one prev, or the resolution of the states after its prevs; a state event then
folds itself in when the auth gate passes.  The map of each node and each materialized frontier
event stays in `resolved` until its last consumer releases it, and `live_entries` counts the
entries of the maps held there.

The services are lookups (`LocalServices`).  The walk's diagnostic counters (`forks`,
`gate_drops`, `memo_hits`, `peak_entries`), the shadow mode and the memo rows written at forks
are left out: nothing the walk reads depends on them.
-/

namespace Tuwunel
namespace EventHandler

open KeyValue

/-- `StateIds`, a state by its shortstatekeys: a `HashMap<ShortStateKey, OwnedEventId>`. -/
abbrev StateIds := AList fun _ : ShortStateKey => EventId

/-- The lookups a walk makes. -/
structure LocalServices where
  /-- `state.pdu_shortstatehash`: the state hash of a committed event. -/
  pduShortstatehash : EventId → Option ShortStateHash
  /-- `eventid_resolvedstate.exists`. -/
  resolvedStateExists : EventId → Bool
  /-- `timeline.get_pdu`. -/
  getPdu : EventId → Option Pdu
  /-- `walk_auth_present`: every auth event of the pdu, and a hydra room's create event, is
  stored. -/
  walkAuthPresent : Pdu → Bool
  /-- `state_accessor.state_full_ids`. -/
  stateFullIds : ShortStateHash → StateIds
  /-- `cached_resolved_state`: the memo row of an event, its state before. -/
  cachedResolvedState : EventId → Option StateIds
  /-- `short.get_or_create_shortstatekey` of an event type and state key. -/
  shortstatekey : String → String → ShortStateKey
  /-- `short.get_shortstatekey` of the create event's type and empty state key. -/
  createShortstatekey : Option ShortStateKey
  /-- `auth_check` of a pdu whose `state_fetch` reads the given state. -/
  authCheck : Pdu → StateIds → Bool
  /-- `state_resolution` of the states after the prevs of a fork, with their auth chains,
  translated back to shortstatekeys. -/
  stateResolution : List StateIds → Option StateIds

/-- `Class`: how discovery classified an ancestor. -/
inductive Class
  /-- Committed to the timeline with resolved state at the event. -/
  | committed (shortstatehash : ShortStateHash)
  /-- Uncommitted, but an `eventid_resolvedstate` row exists. -/
  | memoized
  /-- An uncommitted outlier the server holds, by its index into `nodes`. -/
  | held (index : Nat)
  deriving DecidableEq, Repr

/-- `Fallback`: why a walk gave up. -/
inductive Fallback
  | absent
  | ceiling
  | authMissing
  | allCommitted
  | entries
  | canary
  | createMismatch
  | error
  deriving DecidableEq, Repr

/-- `Node`: a held outlier and the number of edges that still read its state. -/
structure Node where
  pdu : Pdu
  consumers : Nat

/-- `Walk`: the state one walk threads through discovery and build. -/
structure Walk where
  createEventId : EventId
  maxNodes : Nat
  topPrevs : List EventId
  «class» : Table EventId Class
  nodes : List Node
  order : List Nat
  frontier : Table EventId Nat
  resolved : AList fun _ : EventId => StateIds
  liveEntries : Nat
  fallback : Option Fallback

/-- `MAX_LIVE_ENTRIES`. -/
def maxLiveEntries : Nat := 2 ^ 19

/-- `Walk::new`. -/
def Walk.new (createEventId : EventId) (maxNodes : Nat) (topPrevs : List EventId) : Walk :=
  ⟨createEventId, maxNodes, topPrevs, Table.empty, [], [], Table.empty, ∅, 0, none⟩

/-- The same walk with its fallback set. -/
def Walk.fail (walk : Walk) (fallback : Fallback) : Walk := { walk with fallback := some fallback }

/-! ## Discovery -/

/-- The stack once a node is expanded, the top first: its prevs as pushed, then its own entry
again, expanded. -/
def expandStack (eventId : EventId) (prevs : List EventId) (stack : List (EventId × Bool)) :
    List (EventId × Bool) :=
  prevs.reverse.map (·, false) ++ (eventId, true) :: stack

/-- The loop of `walk_discover`, the stack top first: `.error` where it returns early with the
fallback set, `.ok` once the stack is empty.  A node is expanded at most `max_nodes` times, and
every other step pops an entry. -/
def discover (services : LocalServices) : List (EventId × Bool) → Walk → Except Walk Walk
  | [], walk => .ok walk
  | (eventId, expanded) :: stack, walk =>
      if expanded then
        -- post-order emission: every prev of this node is classified
        match walk.«class».get eventId with
        | some (.held index) => discover services stack { walk with order := walk.order ++ [index] }
        | _ => .error (walk.fail .error)
      else if (walk.«class».get eventId).isSome then discover services stack walk
      else
        match services.pduShortstatehash eventId with
        | some shortstatehash =>
            discover services stack
              { walk with «class» := walk.«class».put eventId (.committed shortstatehash) }
        | none =>
            if services.resolvedStateExists eventId then
              discover services stack { walk with «class» := walk.«class».put eventId .memoized }
            else
              match services.getPdu eventId with
              | none => .error (walk.fail .absent)
              | some pdu =>
                  if walk.maxNodes ≤ walk.nodes.length then .error (walk.fail .ceiling)
                  else if pdu.prevEvents = [] then .error (walk.fail .error)
                  else if !services.walkAuthPresent pdu then .error (walk.fail .authMissing)
                  else
                    -- the node's entry goes back below its prevs, to come up expanded
                    discover services (expandStack eventId pdu.prevEvents stack)
                      { walk with
                        «class» := walk.«class».put eventId (.held walk.nodes.length)
                        nodes := walk.nodes ++ [⟨pdu, 0⟩] }
termination_by stack walk => (walk.maxNodes - walk.nodes.length, stack.length)
decreasing_by
  all_goals simp only [List.length_cons, List.length_append]
  · exact Prod.Lex.right _ (Nat.lt_succ_self _)
  · exact Prod.Lex.right _ (Nat.lt_succ_self _)
  · exact Prod.Lex.right _ (Nat.lt_succ_self _)
  · exact Prod.Lex.right _ (Nat.lt_succ_self _)
  · exact Prod.Lex.left _ _ (by omega)

/-- The edges `count_consumers` counts: each node's prevs, then the incoming event's own. -/
def Walk.edges (walk : Walk) : List EventId :=
  walk.nodes.flatMap (·.pdu.prevEvents) ++ walk.topPrevs

/-- The body of `count_consumers`' loop: one consumption of `prev`, on its node's counter or on
its frontier entry. -/
def Walk.countEdge (walk : Walk) (counted : List Nat × Table EventId Nat) (prev : EventId) :
    List Nat × Table EventId Nat :=
  match walk.«class».get prev with
  | some (.held index) => (counted.1.modify index (· + 1), counted.2)
  | some _ => (counted.1, counted.2.put prev ((counted.2.get prev).getD 0 + 1))
  | none => counted

/-- `count_consumers`: each edge counts one consumption of the node or frontier event it names. -/
def Walk.countConsumers (walk : Walk) : Walk :=
  let counted := walk.edges.foldl walk.countEdge (List.replicate walk.nodes.length 0, walk.frontier)
  { walk with
    nodes := List.zipWith (fun node consumers => { node with consumers }) walk.nodes counted.1
    frontier := counted.2 }

/-- `walk_discover`. -/
def walkDiscover (services : LocalServices) (walk : Walk) : Walk :=
  match discover services (walk.topPrevs.reverse.map (·, false)) walk with
  | .error walk => walk
  | .ok walk =>
      -- the sibling builders already failed the all-committed shape
      if walk.nodes.isEmpty then walk.fail .allCommitted else walk.countConsumers

/-! ## Retaining and releasing maps -/

/-- `retain`: keep a map until its last consumer releases it, unless the live entries would pass
the ceiling. -/
def Walk.retain (walk : Walk) (eventId : EventId) (state : StateIds) : Bool × Walk :=
  let liveEntries := walk.liveEntries + state.entries.length
  if maxLiveEntries < liveEntries then (false, walk.fail .entries)
  else (true, { walk with liveEntries, resolved := walk.resolved.insert eventId state })

/-- One consumption of `prev` released: the consumers it still has, or `none` where it is neither
held nor counted as frontier, with the counter written back. -/
def Walk.releaseCount (walk : Walk) (prev : EventId) : Option (Nat × Walk) :=
  match walk.«class».get prev with
  | some (.held index) =>
      -- indexing `nodes` panics past its end, which a held index never is
      match walk.nodes[index]? with
      | some node =>
          some (node.consumers - 1,
            { walk with nodes := walk.nodes.set index { node with consumers := node.consumers - 1 } })
      | none => none
  | _ =>
      match walk.frontier.get prev with
      | some consumers =>
          some (consumers - 1, { walk with frontier := walk.frontier.put prev (consumers - 1) })
      | none => none

/-- The body of `release`'s loop: drop the map of `prev` when no consumer awaits it. -/
def Walk.releaseOne (walk : Walk) (prev : EventId) : Walk :=
  match walk.releaseCount prev with
  | none => walk
  | some (remaining, walk) =>
      if remaining = 0 then
        match walk.resolved.lookup prev with
        | some state =>
            { walk with
              resolved := walk.resolved.erase prev
              liveEntries := walk.liveEntries - state.entries.length }
        | none => walk
      else walk

/-- `release`: one consumption of each prev. -/
def Walk.release (walk : Walk) (prevs : List EventId) : Walk :=
  prevs.foldl Walk.releaseOne walk

/-! ## Frontier loaders and the gated fold -/

/-- The state after a committed event: its stored state with its own key folded in unguarded, or
`none` where its pdu fails to load. -/
def committedState (services : LocalServices) (eventId : EventId)
    (shortstatehash : ShortStateHash) : Option StateIds :=
  (services.getPdu eventId).map fun pdu =>
    match pdu.stateKey with
    | some stateKey =>
        (services.stateFullIds shortstatehash).insert (services.shortstatekey pdu.kind stateKey) eventId
    | none => services.stateFullIds shortstatehash

/-- `gated_fold`: the event's own key folded over the state before it, when `auth_check` passes
against that state; a rejection leaves the state as it was.  The caller passes the state key it
matched, which `gated_fold` reads with `expect`. -/
def gatedFold (services : LocalServices) (pdu : Pdu) (stateKey : String) (before : StateIds) :
    StateIds :=
  if services.authCheck pdu before then before.insert (services.shortstatekey pdu.kind stateKey) pdu.eventId
  else before

/-- The state after a held or memoized event from the state before it: a state event folds itself
in through the gate, any other leaves it. -/
def foldOwnState (services : LocalServices) (pdu : Pdu) (before : StateIds) : StateIds :=
  match pdu.stateKey with
  | none => before
  | some stateKey => gatedFold services pdu stateKey before

/-- The state after a memoized event: its memo row, the state before it, with its own gated
fold; the canary fallback where the row is gone, the error one where its pdu fails to load. -/
def memoizedState (services : LocalServices) (eventId : EventId) : Except Fallback StateIds :=
  match services.cachedResolvedState eventId with
  | none => .error .canary
  | some state =>
      match services.getPdu eventId with
      | none => .error .error
      | some pdu => .ok (foldOwnState services pdu state)

/-- `committed_state_after`. -/
def committedStateAfter (services : LocalServices) (walk : Walk) (eventId : EventId)
    (shortstatehash : ShortStateHash) : Option StateIds × Walk :=
  match committedState services eventId shortstatehash with
  | some state => (some state, walk)
  | none => (none, walk.fail .error)

/-- `memoized_state_after`. -/
def memoizedStateAfter (services : LocalServices) (walk : Walk) (eventId : EventId) :
    Option StateIds × Walk :=
  match memoizedState services eventId with
  | .ok state => (some state, walk)
  | .error fallback => (none, walk.fail fallback)

/-! ## Build -/

/-- `state_after`: a map already resolved is shared; a frontier event materializes here. -/
def stateAfter (services : LocalServices) (walk : Walk) (eventId : EventId) :
    Option StateIds × Walk :=
  match walk.resolved.lookup eventId with
  | some state => (some state, walk)
  | none =>
      let loaded := match walk.«class».get eventId with
        | some (.committed shortstatehash) =>
            committedStateAfter services walk eventId shortstatehash
        | some .memoized => memoizedStateAfter services walk eventId
        -- a held node resolves before its consumers
        | _ => (none, walk.fail .error)
      match loaded with
      | (none, walk) => (none, walk)
      | (some state, walk) =>
          match walk.retain eventId state with
          | (true, walk) => (some state, walk)
          | (false, walk) => (none, walk)

/-- The sequential loop of `fork_resolve`: the state after each prev, stopping at the first that
fails. -/
def stateAfters (services : LocalServices) : Walk → List EventId → Option (List StateIds) × Walk
  | walk, [] => (some [], walk)
  | walk, prev :: prevs =>
      match stateAfter services walk prev with
      | (none, walk) => (none, walk)
      | (some after, walk) =>
          match stateAfters services walk prevs with
          | (none, walk) => (none, walk)
          | (some afters, walk) => (some (after :: afters), walk)

/-- `fork_resolve`: the resolution of the states after the prevs. -/
def forkResolve (services : LocalServices) (walk : Walk) (prevs : List EventId) :
    Option StateIds × Walk :=
  match stateAfters services walk prevs with
  | (none, walk) => (none, walk)
  | (some afters, walk) =>
      match services.stateResolution afters with
      | some state => (some state, walk)
      | none => (none, walk.fail .error)

/-- The state before an event from its prevs: the state after a single prev, the fork's
resolution otherwise. -/
def stateBefore (services : LocalServices) (walk : Walk) (prevs : List EventId) :
    Option StateIds × Walk :=
  match prevs with
  | [prev] => stateAfter services walk prev
  | _ => forkResolve services walk prevs

/-- `walk_node`: the state before a held node, its own gated fold on top, retained until its last
consumer releases it; then one consumption of each of its prevs. -/
def walkNode (services : LocalServices) (walk : Walk) (index : Nat) : Bool × Walk :=
  match walk.nodes[index]? with
  -- `walk.nodes[index]` panics past the end, which an index of `order` never is
  | none => (false, walk)
  | some node =>
      match stateBefore services walk node.pdu.prevEvents with
      | (none, walk) => (false, walk)
      | (some before, walk) =>
          match walk.retain node.pdu.eventId (foldOwnState services node.pdu before) with
          | (false, walk) => (false, walk)
          | (true, walk) => (true, walk.release node.pdu.prevEvents)

/-- The loop of `walk_build` over `order`, stopping at the first node that fails. -/
def walkNodes (services : LocalServices) : Walk → List Nat → Bool × Walk
  | walk, [] => (true, walk)
  | walk, index :: order =>
      match walkNode services walk index with
      | (true, walk) => walkNodes services walk order
      | (false, walk) => (false, walk)

/-- The canary of `walk_build`: the built state is not empty and holds the original create
event. -/
def createIntact (services : LocalServices) (createEventId : EventId) (state : StateIds) : Bool :=
  !state.entries.isEmpty && services.createShortstatekey.bind state.lookup == some createEventId

/-- `walk_build`: every held node in order, then the incoming event's own prevs combined. -/
def walkBuild (services : LocalServices) (walk : Walk) : Option StateIds × Walk :=
  match walkNodes services { walk with order := [] } walk.order with
  | (false, walk) => (none, walk)
  | (true, walk) =>
      match stateBefore services { walk with topPrevs := [] } walk.topPrevs with
      | (none, walk) => (none, walk)
      | (some state, walk) =>
          if createIntact services walk.createEventId state then
            (some state, { walk with resolved := ∅ })
          else (none, walk.fail .createMismatch)

/-- `walk_state`: discovery, then the build unless discovery fell back. -/
def walkState (services : LocalServices) (walk : Walk) : Option StateIds × Walk :=
  let walk := walkDiscover services walk
  if walk.fallback.isSome then (none, walk) else walkBuild services walk

end EventHandler
end Tuwunel
