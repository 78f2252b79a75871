import Mathlib
import Tuwunel.Library.KeyValue
import Tuwunel.Library.SortedDedup
import Tuwunel.Core.Identifiers

/-!
# Auth chains

`get_auth_chain` answers with the short ids of every event reachable from the starting events
along `auth_events`.  Each event's chain comes from a walk: an unfold over a `FuturesUnordered`
of fetches, with a `seen` set that starts with the room's create event under rules that name it
by the room id.  A fetch that finds no event marks the walk incomplete and is skipped; any other
error ends it.  Starting events go to fifty buckets by short id; each bucket's chain is read from
`authchainkey_authchain` under the bucket's short ids, or built from the events' own cached
chains and walks, and written back when no walk below it was incomplete.

The fetches of a walk complete in any order: `schedule` names, at each turn, which pending fetch
completes.  Walks, events and buckets whose futures run concurrently touch distinct cache rows,
so they are taken in order here; `broad_then` may reorder a chain, which only a chain's members
are read for.
-/

namespace Tuwunel
namespace AuthChain

open KeyValue SortedDedup

/-- The fields of a stored pdu that `get_event_auth_event_ids` deserializes. -/
structure Pdu where
  authEvents : List EventId
  roomId : RoomId
  deriving DecidableEq, Repr

/-- The timeline's pdus, by event id. -/
structure Timeline where
  pdus : List (EventId × Pdu)

/-- `timeline.get`. -/
def Timeline.get (timeline : Timeline) (eventId : EventId) : Option Pdu :=
  timeline.pdus.lookup eventId

/-- Every event id a stored pdu lists as an auth event. -/
def Timeline.authEventIds (timeline : Timeline) : List EventId :=
  timeline.pdus.flatMap fun entry => entry.2.authEvents

/-- The errors `get_event_auth_event_ids` returns. -/
inductive FetchError
  | notFound
  | forbidden
  deriving DecidableEq, Repr

/-- `get_event_auth_event_ids`: the auth events of a pdu of the queried room. -/
def getEventAuthEventIds (timeline : Timeline) (roomId : RoomId) (eventId : EventId) :
    Except FetchError (List EventId) :=
  match timeline.get eventId with
  | none => .error .notFound
  | some pdu => if pdu.roomId ≠ roomId then .error .forbidden else .ok pdu.authEvents

/-- The part of `RoomVersionRules` the walk reads. -/
structure RoomVersionRules where
  roomCreateEventIdAsRoomId : Bool
  deriving DecidableEq, Repr

/-- The unfold's `State` (`todo`, by the event each fetch is for, and `seen`), with the ids the
stream has emitted and the `complete` flag. -/
structure Walk where
  todo : List EventId
  seen : Finset EventId
  emitted : List EventId
  complete : Bool
  deriving DecidableEq

/-- `eval`: each auth event not yet seen is marked seen, pushed as a new fetch and emitted. -/
def eval (authEvents : List EventId) (walk : Walk) : Walk :=
  authEvents.foldl (fun walk authEvent =>
    if authEvent ∈ walk.seen then walk
    else
      { walk with
        todo := walk.todo ++ [authEvent]
        seen := insert authEvent walk.seen
        emitted := walk.emitted ++ [authEvent] }) walk

/-- The unfold's body for a completed fetch of `fetched`, already taken out of `todo`. -/
def Walk.receive (timeline : Timeline) (roomId : RoomId) (fetched : EventId) (walk : Walk) :
    Walk :=
  match getEventAuthEventIds timeline roomId fetched with
  | .ok authEvents => eval authEvents walk
  -- a missing ancestor is skipped; any other error ends the stream with its fetches pending
  | .error .notFound => { walk with complete := false }
  | .error .forbidden => { walk with todo := [], complete := false }

/-- One turn of the unfold: the pending fetch at position `pick` completes. -/
def Walk.next (timeline : Timeline) (roomId : RoomId) (pick : Nat) (walk : Walk) : Walk :=
  match walk.todo with
  | [] => walk
  | first :: others =>
      let index : Fin (others.length + 1) :=
        ⟨pick % (others.length + 1), Nat.mod_lt _ (Nat.succ_pos _)⟩
      Walk.receive timeline roomId ((first :: others).get index)
        { walk with todo := (first :: others).eraseIdx index }

/-- The unfold, until no fetch is pending; `schedule round` picks the fetch completing at turn
`round`. -/
def loop (timeline : Timeline) (roomId : RoomId) (schedule : Nat → Nat) :
    Nat → Nat → Walk → Walk
  | 0, _, walk => walk
  | fuel + 1, round, walk =>
      if walk.todo = [] then walk
      else
        loop timeline roomId schedule fuel (round + 1) (walk.next timeline roomId (schedule round))

/-- The bound on the turns of a walk: each turn completes one fetch, and besides the first each
fetch is for an auth event of a stored pdu, seen once. -/
def Timeline.walkFuel (timeline : Timeline) : Nat :=
  2 * timeline.authEventIds.length + 2

section Walks

-- `RoomId::as_event_id`
variable (asEventId : RoomId → Option EventId)

/-- The `seen` set a walk starts with: the create event named by the room id, under rules that
name it so. -/
def createSeed (rules : RoomVersionRules) (roomId : RoomId) : Finset EventId :=
  if rules.roomCreateEventIdAsRoomId then (asEventId roomId).toFinset else ∅

/-- `get_event_auth_chain_ids`: the emitted ids and the `complete` flag. -/
def getEventAuthChainIds (timeline : Timeline) (roomId : RoomId) (rules : RoomVersionRules)
    (schedule : Nat → Nat) (eventId : EventId) : List EventId × Bool :=
  let walk := loop timeline roomId schedule timeline.walkFuel 0
    ⟨[eventId], createSeed asEventId rules roomId, [], true⟩
  (walk.emitted, walk.complete)

-- `get_or_create_shorteventid`, as the `eventid_shorteventid` table assigns short ids
variable (shortOf : EventId → ShortEventId)

/-- `get_event_auth_chain`. -/
def getEventAuthChain (timeline : Timeline) (roomId : RoomId) (rules : RoomVersionRules)
    (schedule : Nat → Nat) (eventId : EventId) : List ShortEventId × Bool :=
  let (ids, complete) := getEventAuthChainIds asEventId timeline roomId rules schedule eventId
  (ids.map shortOf, complete)

/-- `authchainkey_authchain`: chains by the short ids of the events they start from. -/
abbrev AuthChainCache := Table (List ShortEventId) (List ShortEventId)

/-- `get_cached_auth_chain`; the empty key holds the empty chain. -/
def getCachedAuthChain (cache : AuthChainCache) (key : List ShortEventId) :
    Option (List ShortEventId) :=
  if key.isEmpty then some [] else cache.get key

/-- `put_cached_auth_chain`. -/
def putCachedAuthChain (cache : AuthChainCache) (key authChain : List ShortEventId) :
    AuthChainCache :=
  cache.put key authChain

/-- `build_chain`: an event's chain from its cache row or from a walk, whether the chunk may
stay complete, and the cache, with the chain of a complete walk written. -/
def buildChain (timeline : Timeline) (roomId : RoomId) (rules : RoomVersionRules)
    (schedule : EventId → Nat → Nat) (cache : AuthChainCache)
    (event : ShortEventId × EventId) : List ShortEventId × Bool × AuthChainCache :=
  match getCachedAuthChain cache [event.1] with
  | some cached => (cached, true, cache)
  | none =>
      let (authChain, eventComplete) :=
        getEventAuthChain asEventId shortOf timeline roomId rules (schedule event.2) event.2
      if eventComplete then (authChain, true, putCachedAuthChain cache [event.1] authChain)
      else (authChain, false, cache)

/-- The chunk's `broad_then` over `build_chain`: each event's chain, whether every one left the
chunk complete, and the cache. -/
def buildChains (timeline : Timeline) (roomId : RoomId) (rules : RoomVersionRules)
    (schedule : EventId → Nat → Nat) (cache : AuthChainCache) :
    List (ShortEventId × EventId) → List (List ShortEventId) × Bool × AuthChainCache
  | [] => ([], true, cache)
  | event :: events =>
      let (authChain, complete, cache) :=
        buildChain asEventId shortOf timeline roomId rules schedule cache event
      let (chains, chunkComplete, cache) :=
        buildChains timeline roomId rules schedule cache events
      (authChain :: chains, complete && chunkComplete, cache)

/-- `build_chunk_auth_chain`: the chunk's chain is cached when every event's was complete. -/
def buildChunkAuthChain (timeline : Timeline) (roomId : RoomId) (rules : RoomVersionRules)
    (schedule : EventId → Nat → Nat) (cache : AuthChainCache)
    (startingEvents : List (ShortEventId × EventId)) : List ShortEventId × AuthChainCache :=
  let (chains, chunkComplete, cache) :=
    buildChains asEventId shortOf timeline roomId rules schedule cache startingEvents
  let chunkChain := sortDedup chains.flatten
  if chunkComplete then
    (chunkChain, putCachedAuthChain cache (startingEvents.map Prod.fst) chunkChain)
  else (chunkChain, cache)

/-- `get_chunk_auth_chain`. -/
def getChunkAuthChain (timeline : Timeline) (roomId : RoomId) (rules : RoomVersionRules)
    (schedule : EventId → Nat → Nat) (cache : AuthChainCache)
    (startingEvents : List (ShortEventId × EventId)) : List ShortEventId × AuthChainCache :=
  match getCachedAuthChain cache (startingEvents.map Prod.fst) with
  | some chain => (chain, cache)
  | none =>
      buildChunkAuthChain asEventId shortOf timeline roomId rules schedule cache startingEvents

/-- `NUM_BUCKETS`. -/
def numBuckets : Nat := 50

/-- `BTreeSet::insert` on a `Bucket`, kept ascending by short id, then event id. -/
def bucketInsert (entry : ShortEventId × EventId) :
    List (ShortEventId × EventId) → List (ShortEventId × EventId)
  | [] => [entry]
  | head :: rest =>
      if entry.1 < head.1 ∨ entry.1 = head.1 ∧ entry.2 < head.2 then entry :: head :: rest
      else if entry = head then head :: rest
      else head :: bucketInsert entry rest

/-- The buckets of `get_auth_chain`: each starting event goes to the bucket of its short id
modulo `NUM_BUCKETS`. -/
def buckets (startingEvents : List EventId) : List (List (ShortEventId × EventId)) :=
  let filled := startingEvents.foldl (fun buckets startingEvent =>
    let short := shortOf startingEvent
    Function.update buckets (short % numBuckets)
      (bucketInsert (short, startingEvent) (buckets (short % numBuckets)))) fun _ => []
  (List.range numBuckets).map filled

/-- The `flat_map_unordered` of `get_auth_chain` over the buckets: each bucket's chain, and the
cache. -/
def getChunkAuthChains (timeline : Timeline) (roomId : RoomId) (rules : RoomVersionRules)
    (schedule : EventId → Nat → Nat) (cache : AuthChainCache) :
    List (List (ShortEventId × EventId)) → List (List ShortEventId) × AuthChainCache
  | [] => ([], cache)
  | bucket :: buckets =>
      let (chain, cache) :=
        getChunkAuthChain asEventId shortOf timeline roomId rules schedule cache bucket
      let (chains, cache) := getChunkAuthChains timeline roomId rules schedule cache buckets
      (chain :: chains, cache)

/-- `get_auth_chain`: every bucket's chain, sorted and without repeats. -/
def getAuthChain (timeline : Timeline) (roomId : RoomId) (rules : RoomVersionRules)
    (schedule : EventId → Nat → Nat) (cache : AuthChainCache) (startingEvents : List EventId) :
    List ShortEventId × AuthChainCache :=
  let (chains, cache) := getChunkAuthChains asEventId shortOf timeline roomId rules schedule cache
    (buckets shortOf startingEvents)
  (sortDedup chains.flatten, cache)

end Walks

end AuthChain
end Tuwunel
