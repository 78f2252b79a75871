import Mathlib
import Tuwunel.Service.Rooms.AuthChain.Walk

/-!
# Cached auth chains

A row of `authchainkey_authchain` is sound (`SoundRow`) when the events of its key had every
event on their paths stored and the row holds exactly the short ids reachable from them.  Short
ids name events one to one, so a key names its events, and a timeline that only learns new
events leaves their paths alone (`Reachability.reach_iff_of_grow`): sound rows stay sound as the
timeline grows.  Every call reads only sound rows and writes only sound rows, so each answer is
the set a walk from its starting events reaches, sorted, and equal to the answer a call from an
empty cache gives at that timeline (`serve_eq_fresh`).

Rules that name the create event by the room id seed every walk with it, so no walk passes
through the create event: its own auth events are never fetched (`create_ancestors_skipped`).
-/

namespace Tuwunel
namespace AuthChain

open KeyValue Reachability SortedDedup

/-- The timeline only learns new pdus: every stored event keeps its pdu. -/
def Timeline.Extends (timeline timeline' : Timeline) : Prop :=
  ∀ eventId pdu, timeline.get eventId = some pdu → timeline'.get eventId = some pdu

theorem Timeline.extends_refl (timeline : Timeline) : timeline.Extends timeline :=
  fun _ _ found => found

/-- Storing more pdus after the present ones keeps every lookup. -/
theorem Timeline.extends_append (pdus more : List (EventId × Pdu)) :
    Timeline.Extends ⟨pdus⟩ ⟨pdus ++ more⟩ := by
  intro eventId pdu found
  obtain ⟨front, back, split, before⟩ := List.lookup_eq_some_iff.mp found
  have split : pdus = front ++ (eventId, pdu) :: back := split
  exact List.lookup_eq_some_iff.mpr ⟨front, back ++ more, by simp [split], before⟩

theorem Timeline.Extends.grows {timeline timeline' : Timeline} (extends_ : timeline.Extends timeline') :
    Grows (authEdges timeline) (authEdges timeline') := by
  intro eventId authEvents stored
  obtain ⟨pdu, found, rfl⟩ := Option.map_eq_some_iff.mp stored
  simp [authEdges, extends_ eventId pdu found]

section Rows

variable (shortOf : EventId → ShortEventId)

/-- The short ids of the events reachable from `eventId`. -/
def Reached (timeline : Timeline) (seed : Finset EventId) (eventId : EventId)
    (x : ShortEventId) : Prop :=
  ∃ authEvent, Reach (authEdges timeline) seed eventId authEvent ∧ shortOf authEvent = x

/-- `x` is the short id of an event reachable from the event whose short id is `shortid`. -/
def ChainOf (timeline : Timeline) (seed : Finset EventId) (shortid x : ShortEventId) : Prop :=
  ∃ eventId, shortOf eventId = shortid ∧ Reached shortOf timeline seed eventId x

/-- A row `authchainkey_authchain` may hold under `key`. -/
structure SoundRow (timeline : Timeline) (seed : Finset EventId)
    (key chain : List ShortEventId) : Prop where
  closed : ∀ shortid ∈ key, ∃ eventId, shortOf eventId = shortid ∧
    Closed (authEdges timeline) seed eventId
  members : ∀ x, x ∈ chain ↔ ∃ shortid ∈ key, ChainOf shortOf timeline seed shortid x

/-- Every row of the cache is sound. -/
def CacheSound (timeline : Timeline) (seed : Finset EventId) (cache : AuthChainCache) : Prop :=
  ∀ key chain, cache.get key = some chain → SoundRow shortOf timeline seed key chain

variable {shortOf} {timeline : Timeline} {seed : Finset EventId}

theorem chainOf_shortOf (injective : Function.Injective shortOf) (eventId : EventId)
    (x : ShortEventId) :
    ChainOf shortOf timeline seed (shortOf eventId) x ↔ Reached shortOf timeline seed eventId x := by
  constructor
  · rintro ⟨other, same, reached⟩
    exact injective same ▸ reached
  · exact fun reached => ⟨eventId, rfl, reached⟩

/-- Read through the short ids of a key, the chains of its events. -/
theorem exists_chainOf_key (injective : Function.Injective shortOf)
    {events : List (ShortEventId × EventId)} (keyed : ∀ event ∈ events, event.1 = shortOf event.2)
    (x : ShortEventId) :
    (∃ shortid ∈ events.map Prod.fst, ChainOf shortOf timeline seed shortid x) ↔
      ∃ event ∈ events, Reached shortOf timeline seed event.2 x := by
  constructor
  · rintro ⟨shortid, member, reached⟩
    obtain ⟨event, listed, rfl⟩ := List.mem_map.mp member
    rw [keyed event listed, chainOf_shortOf injective] at reached
    exact ⟨event, listed, reached⟩
  · rintro ⟨event, listed, reached⟩
    refine ⟨event.1, List.mem_map_of_mem listed, ?_⟩
    rwa [keyed event listed, chainOf_shortOf injective]

theorem cacheSound_empty : CacheSound shortOf timeline seed Table.empty := by
  intro key chain found
  simp at found

theorem CacheSound.put {cache : AuthChainCache} (sound : CacheSound shortOf timeline seed cache)
    {key chain : List ShortEventId} (row : SoundRow shortOf timeline seed key chain) :
    CacheSound shortOf timeline seed (putCachedAuthChain cache key chain) := by
  intro other stored found
  by_cases same : other = key
  · subst same
    simp only [putCachedAuthChain, Table.get_put_self, Option.some.injEq] at found
    exact found ▸ row
  · rw [putCachedAuthChain, Table.get_put_of_ne _ _ same] at found
    exact sound other stored found

/-- A read answers with a sound row; the empty key answers with the empty chain. -/
theorem CacheSound.getCached {cache : AuthChainCache}
    (sound : CacheSound shortOf timeline seed cache) {key chain : List ShortEventId}
    (found : getCachedAuthChain cache key = some chain) : SoundRow shortOf timeline seed key chain := by
  by_cases empty : key = []
  · subst empty
    simp only [getCachedAuthChain, List.isEmpty_nil, if_true, Option.some.injEq] at found
    subst found
    exact ⟨by simp, by simp⟩
  · have stored : cache.get key = some chain := by
      simpa [getCachedAuthChain, List.isEmpty_iff, empty] using found
    exact sound key chain stored

/-- A row of the short ids reachable from the events of `events`, all closed. -/
theorem soundRow_of_events (injective : Function.Injective shortOf)
    {events : List (ShortEventId × EventId)} (keyed : ∀ event ∈ events, event.1 = shortOf event.2)
    (closed : ∀ event ∈ events, Closed (authEdges timeline) seed event.2)
    {chain : List ShortEventId}
    (members : ∀ x, x ∈ chain ↔ ∃ event ∈ events, Reached shortOf timeline seed event.2 x) :
    SoundRow shortOf timeline seed (events.map Prod.fst) chain where
  closed shortid member := by
    obtain ⟨event, listed, rfl⟩ := List.mem_map.mp member
    exact ⟨event.2, (keyed event listed).symm, closed event listed⟩
  members x := (members x).trans (exists_chainOf_key injective keyed x).symm

theorem SoundRow.members_of_events (injective : Function.Injective shortOf)
    {events : List (ShortEventId × EventId)} (keyed : ∀ event ∈ events, event.1 = shortOf event.2)
    {chain : List ShortEventId} (row : SoundRow shortOf timeline seed (events.map Prod.fst) chain)
    (x : ShortEventId) : x ∈ chain ↔ ∃ event ∈ events, Reached shortOf timeline seed event.2 x :=
  (row.members x).trans (exists_chainOf_key injective keyed x)

/-- A sound row stays sound in a timeline that only learned new pdus. -/
theorem SoundRow.grow (injective : Function.Injective shortOf) {timeline' : Timeline}
    (grows : Grows (authEdges timeline) (authEdges timeline')) {key chain : List ShortEventId}
    (row : SoundRow shortOf timeline seed key chain) : SoundRow shortOf timeline' seed key chain where
  closed shortid member := by
    obtain ⟨eventId, named, closed⟩ := row.closed shortid member
    exact ⟨eventId, named, closed.grow grows⟩
  members x := by
    rw [row.members x]
    refine exists_congr fun shortid => and_congr_right fun member => ?_
    obtain ⟨eventId, rfl, closed⟩ := row.closed shortid member
    simp only [chainOf_shortOf injective, Reached, reach_iff_of_grow grows closed]

theorem CacheSound.grow (injective : Function.Injective shortOf) {timeline' : Timeline}
    (grows : Grows (authEdges timeline) (authEdges timeline')) {cache : AuthChainCache}
    (sound : CacheSound shortOf timeline seed cache) : CacheSound shortOf timeline' seed cache :=
  fun key chain found => (sound key chain found).grow injective grows

end Rows

section Calls

variable {asEventId : RoomId → Option EventId} {shortOf : EventId → ShortEventId}
variable {timeline : Timeline} {roomId : RoomId} {rules : RoomVersionRules}
variable (schedule : EventId → Nat → Nat)

theorem getEventAuthChain_spec (asEventId : RoomId → Option EventId)
    (shortOf : EventId → ShortEventId) (rules : RoomVersionRules) (inRoom : InRoom timeline roomId)
    (schedule : Nat → Nat) (eventId : EventId) :
    let result := getEventAuthChain asEventId shortOf timeline roomId rules schedule eventId
    (∀ x, x ∈ result.1 ↔ Reached shortOf timeline (createSeed asEventId rules roomId) eventId x) ∧
      (result.2 = true → Closed (authEdges timeline) (createSeed asEventId rules roomId) eventId) := by
  obtain ⟨members, _, closed⟩ :=
    getEventAuthChainIds_spec asEventId inRoom rules schedule eventId
  refine ⟨fun x => ?_, closed⟩
  simp only [getEventAuthChain, List.mem_map, Reached, members, and_comm]

variable (injective : Function.Injective shortOf) (inRoom : InRoom timeline roomId)
include injective inRoom

/-- `build_chain` answers with the event's reachable short ids and keeps the cache sound; it
reports the chunk complete only for an event whose paths were all stored. -/
theorem buildChain_spec {cache : AuthChainCache}
    (sound : CacheSound shortOf timeline (createSeed asEventId rules roomId) cache)
    (event : ShortEventId × EventId) (keyed : event.1 = shortOf event.2) :
    let result := buildChain asEventId shortOf timeline roomId rules schedule cache event
    (∀ x, x ∈ result.1 ↔ Reached shortOf timeline (createSeed asEventId rules roomId) event.2 x) ∧
      (result.2.1 = true → Closed (authEdges timeline) (createSeed asEventId rules roomId) event.2) ∧
      CacheSound shortOf timeline (createSeed asEventId rules roomId) result.2.2 := by
  have single : ∀ chain, SoundRow shortOf timeline (createSeed asEventId rules roomId) [event.1] chain ↔
      SoundRow shortOf timeline (createSeed asEventId rules roomId) ([event].map Prod.fst) chain :=
    fun _ => Iff.rfl
  have keyedOne : ∀ other ∈ [event], other.1 = shortOf other.2 := by simpa using keyed
  simp only [buildChain]
  cases found : getCachedAuthChain cache [event.1] with
  | some cached =>
      -- a cached row is a complete walk's chain, or a single event's chunk
      have row := sound.getCached found
      refine ⟨fun x => ?_, fun _ => ?_, sound⟩
      · simpa using ((single cached).mp row).members_of_events injective keyedOne x
      · obtain ⟨eventId, named, closed⟩ := row.closed event.1 List.mem_cons_self
        rwa [← injective (named.trans keyed)]
  | none =>
      obtain ⟨members, closed⟩ :=
        getEventAuthChain_spec asEventId shortOf rules inRoom (schedule event.2) event.2
      split_ifs with complete
      · refine ⟨members, fun _ => closed complete, sound.put ((single _).mpr ?_)⟩
        exact soundRow_of_events injective keyedOne (by simpa using closed complete)
          (by simpa using members)
      · exact ⟨members, by simp, sound⟩

/-- Over a chunk's events, the chains hold the short ids reachable from them, and a complete
chunk had every event's paths stored. -/
theorem buildChains_spec :
    ∀ (events : List (ShortEventId × EventId)) {cache : AuthChainCache},
      CacheSound shortOf timeline (createSeed asEventId rules roomId) cache →
      (∀ event ∈ events, event.1 = shortOf event.2) →
      let result := buildChains asEventId shortOf timeline roomId rules schedule cache events
      (∀ x, x ∈ result.1.flatten ↔ ∃ event ∈ events,
          Reached shortOf timeline (createSeed asEventId rules roomId) event.2 x) ∧
        (result.2.1 = true → ∀ event ∈ events,
          Closed (authEdges timeline) (createSeed asEventId rules roomId) event.2) ∧
        CacheSound shortOf timeline (createSeed asEventId rules roomId) result.2.2
  | [], _, sound, _ => by simp [buildChains, sound]
  | event :: events, cache, sound, keyed => by
      obtain ⟨members, closed, sound⟩ := buildChain_spec schedule injective inRoom
        sound event (keyed event List.mem_cons_self)
      obtain ⟨restMembers, restClosed, restSound⟩ := buildChains_spec events sound
        fun other listed => keyed other (List.mem_cons_of_mem _ listed)
      refine ⟨fun x => ?_, fun complete => ?_, restSound⟩
      · simp only [buildChains, List.flatten_cons, List.mem_append, members, restMembers,
          List.mem_cons, exists_eq_or_imp]
      · simp only [buildChains, Bool.and_eq_true] at complete
        simp only [List.mem_cons, forall_eq_or_imp]
        exact ⟨closed complete.1, restClosed complete.2⟩

/-- `get_chunk_auth_chain` answers with the short ids reachable from the chunk's events, from
the chunk's row or built, and keeps the cache sound. -/
theorem getChunkAuthChain_spec {cache : AuthChainCache}
    (sound : CacheSound shortOf timeline (createSeed asEventId rules roomId) cache)
    (events : List (ShortEventId × EventId)) (keyed : ∀ event ∈ events, event.1 = shortOf event.2) :
    let result := getChunkAuthChain asEventId shortOf timeline roomId rules schedule cache events
    (∀ x, x ∈ result.1 ↔ ∃ event ∈ events,
        Reached shortOf timeline (createSeed asEventId rules roomId) event.2 x) ∧
      CacheSound shortOf timeline (createSeed asEventId rules roomId) result.2 := by
  simp only [getChunkAuthChain]
  cases found : getCachedAuthChain cache (events.map Prod.fst) with
  | some chain =>
      exact ⟨(sound.getCached found).members_of_events injective keyed, sound⟩
  | none =>
      obtain ⟨members, closed, built⟩ :=
        buildChains_spec schedule injective inRoom events sound keyed
      have chunkMembers : ∀ x, x ∈ sortDedup (buildChains asEventId shortOf timeline roomId rules
          schedule cache events).1.flatten ↔ ∃ event ∈ events,
            Reached shortOf timeline (createSeed asEventId rules roomId) event.2 x := by
        simpa using members
      simp only [buildChunkAuthChain]
      split_ifs with complete
      · exact ⟨chunkMembers, built.put (soundRow_of_events injective keyed (closed complete)
          chunkMembers)⟩
      · exact ⟨chunkMembers, built⟩

/-- Over the buckets, the chains hold the short ids reachable from the buckets' events. -/
theorem getChunkAuthChains_spec :
    ∀ (buckets : List (List (ShortEventId × EventId))) {cache : AuthChainCache},
      CacheSound shortOf timeline (createSeed asEventId rules roomId) cache →
      (∀ bucket ∈ buckets, ∀ event ∈ bucket, event.1 = shortOf event.2) →
      let result := getChunkAuthChains asEventId shortOf timeline roomId rules schedule cache buckets
      (∀ x, x ∈ result.1.flatten ↔ ∃ bucket ∈ buckets, ∃ event ∈ bucket,
          Reached shortOf timeline (createSeed asEventId rules roomId) event.2 x) ∧
        CacheSound shortOf timeline (createSeed asEventId rules roomId) result.2
  | [], _, sound, _ => by simp [getChunkAuthChains, sound]
  | bucket :: buckets, cache, sound, keyed => by
      obtain ⟨members, sound⟩ := getChunkAuthChain_spec schedule injective inRoom
        sound bucket (keyed bucket List.mem_cons_self)
      obtain ⟨restMembers, restSound⟩ := getChunkAuthChains_spec buckets sound
        fun other listed => keyed other (List.mem_cons_of_mem _ listed)
      refine ⟨fun x => ?_, restSound⟩
      simp only [getChunkAuthChains, List.flatten_cons, List.mem_append, members, restMembers,
        List.mem_cons, exists_eq_or_imp]

end Calls

section Buckets

variable {shortOf : EventId → ShortEventId}

theorem mem_bucketInsert {entry other : ShortEventId × EventId} :
    ∀ {bucket : List (ShortEventId × EventId)},
      other ∈ bucketInsert entry bucket ↔ other = entry ∨ other ∈ bucket
  | [] => by simp [bucketInsert]
  | head :: rest => by
      unfold bucketInsert
      split_ifs with before same
      · simp
      · subst same
        simp only [List.mem_cons]
        tauto
      · simp only [List.mem_cons, mem_bucketInsert]
        tauto

/-- A bucket filled from `startingEvents` holds each starting event whose short id falls in it,
with that short id. -/
theorem mem_fill (startingEvents : List EventId) :
    ∀ (filled : Nat → List (ShortEventId × EventId)) (bucket : Nat)
      (entry : ShortEventId × EventId),
      entry ∈ (startingEvents.foldl (fun buckets startingEvent =>
          Function.update buckets (shortOf startingEvent % numBuckets)
            (bucketInsert (shortOf startingEvent, startingEvent)
              (buckets (shortOf startingEvent % numBuckets)))) filled) bucket ↔
        entry ∈ filled bucket ∨ entry.2 ∈ startingEvents ∧ entry.1 = shortOf entry.2 ∧
          entry.1 % numBuckets = bucket := by
  induction startingEvents with
  | nil => simp
  | cons startingEvent rest ih =>
      intro filled bucket entry
      rw [List.foldl_cons, ih]
      by_cases same : bucket = shortOf startingEvent % numBuckets
      · subst same
        simp only [Function.update_self, mem_bucketInsert, List.mem_cons]
        constructor
        · rintro ((rfl | old) | ⟨member, named, residue⟩)
          · exact Or.inr ⟨Or.inl rfl, rfl, rfl⟩
          · exact Or.inl old
          · exact Or.inr ⟨Or.inr member, named, residue⟩
        · rintro (old | ⟨rfl | member, named, residue⟩)
          · exact Or.inl (Or.inr old)
          · exact Or.inl (Or.inl (Prod.ext named rfl))
          · exact Or.inr ⟨member, named, residue⟩
      · simp only [Function.update_of_ne same, List.mem_cons]
        constructor
        · rintro (old | ⟨member, named, residue⟩)
          · exact Or.inl old
          · exact Or.inr ⟨Or.inr member, named, residue⟩
        · rintro (old | ⟨rfl | member, named, residue⟩)
          · exact Or.inl old
          · exact absurd (named ▸ residue).symm same
          · exact Or.inr ⟨member, named, residue⟩

/-- Every starting event lands in some bucket, under its own short id, and nothing else does. -/
theorem mem_buckets (startingEvents : List EventId) (entry : ShortEventId × EventId) :
    (∃ bucket ∈ buckets shortOf startingEvents, entry ∈ bucket) ↔
      entry.2 ∈ startingEvents ∧ entry.1 = shortOf entry.2 := by
  simp only [buckets, List.mem_map, List.mem_range]
  constructor
  · rintro ⟨_, ⟨bucket, _, rfl⟩, member⟩
    have filled := (mem_fill startingEvents _ bucket entry).mp member
    simp only [List.not_mem_nil, false_or] at filled
    exact ⟨filled.1, filled.2.1⟩
  · rintro ⟨member, named⟩
    refine ⟨_, ⟨entry.1 % numBuckets, Nat.mod_lt _ (by decide), rfl⟩, ?_⟩
    exact (mem_fill startingEvents _ _ entry).mpr (Or.inr ⟨member, named, rfl⟩)

end Buckets

section Answers

variable {asEventId : RoomId → Option EventId} {shortOf : EventId → ShortEventId}
variable {timeline : Timeline} {roomId : RoomId} {rules : RoomVersionRules}

/-- `get_auth_chain` over a sound cache answers with the short ids reachable from the starting
events, ascending and without repeats, and leaves the cache sound. -/
theorem getAuthChain_spec (injective : Function.Injective shortOf) (inRoom : InRoom timeline roomId)
    (schedule : EventId → Nat → Nat) {cache : AuthChainCache}
    (sound : CacheSound shortOf timeline (createSeed asEventId rules roomId) cache)
    (startingEvents : List EventId) :
    let result := getAuthChain asEventId shortOf timeline roomId rules schedule cache startingEvents
    result.1.SortedLT ∧
      (∀ x, x ∈ result.1 ↔ ∃ eventId ∈ startingEvents,
        Reached shortOf timeline (createSeed asEventId rules roomId) eventId x) ∧
      CacheSound shortOf timeline (createSeed asEventId rules roomId) result.2 := by
  have keyed : ∀ bucket ∈ buckets shortOf startingEvents, ∀ event ∈ bucket,
      event.1 = shortOf event.2 :=
    fun bucket listed event member => ((mem_buckets startingEvents event).mp ⟨bucket, listed, member⟩).2
  obtain ⟨members, after⟩ :=
    getChunkAuthChains_spec schedule injective inRoom _ sound keyed
  refine ⟨sortedLT_sortDedup _, fun x => ?_, after⟩
  simp only [getAuthChain, mem_sortDedup, members]
  constructor
  · rintro ⟨bucket, listed, event, member, reached⟩
    exact ⟨event.2, ((mem_buckets startingEvents event).mp ⟨bucket, listed, member⟩).1, reached⟩
  · rintro ⟨eventId, member, reached⟩
    obtain ⟨bucket, listed, inBucket⟩ :=
      (mem_buckets startingEvents (shortOf eventId, eventId)).mpr ⟨member, rfl⟩
    exact ⟨bucket, listed, _, inBucket, reached⟩

/-- Over a sound cache, `get_auth_chain` answers as it does from an empty cache. -/
theorem getAuthChain_eq_fresh (injective : Function.Injective shortOf)
    (inRoom : InRoom timeline roomId) (schedule : EventId → Nat → Nat) {cache : AuthChainCache}
    (sound : CacheSound shortOf timeline (createSeed asEventId rules roomId) cache)
    (startingEvents : List EventId) :
    (getAuthChain asEventId shortOf timeline roomId rules schedule cache startingEvents).1 =
      (getAuthChain asEventId shortOf timeline roomId rules schedule Table.empty startingEvents).1 := by
  obtain ⟨sorted, members, _⟩ :=
    getAuthChain_spec injective inRoom schedule sound startingEvents
  obtain ⟨freshSorted, freshMembers, _⟩ :=
    getAuthChain_spec injective inRoom schedule cacheSound_empty startingEvents
  exact sorted.eq_of_mem_iff freshSorted fun x => (members x).trans (freshMembers x).symm

/-- When the create event the rules seed the walks with has no auth events, the answer holds the
short ids of the events reachable by one or more auth edges, except the create event itself. -/
theorem getAuthChain_excludes_only_create (injective : Function.Injective shortOf)
    (inRoom : InRoom timeline roomId) (schedule : EventId → Nat → Nat) {cache : AuthChainCache}
    (sound : CacheSound shortOf timeline (createSeed asEventId rules roomId) cache)
    (startingEvents : List EventId) {create : EventId}
    (named : createSeed asEventId rules roomId = {create})
    (sink : ∀ authEvents, authEdges timeline create = some authEvents → authEvents = [])
    (x : ShortEventId) :
    x ∈ (getAuthChain asEventId shortOf timeline roomId rules schedule cache startingEvents).1 ↔
      ∃ eventId ∈ startingEvents, ∃ authEvent, Reach (authEdges timeline) ∅ eventId authEvent ∧
        authEvent ≠ create ∧ shortOf authEvent = x := by
  obtain ⟨_, members, _⟩ := getAuthChain_spec injective inRoom schedule sound startingEvents
  rw [members x]
  simp only [Reached, named, Finset.coe_singleton, reach_singleton_iff sink, and_assoc]

end Answers

/-- One call of `get_auth_chain`: the timeline it reads, its starting events and the order its
walks' fetches complete in. -/
structure Call where
  timeline : Timeline
  startingEvents : List EventId
  schedule : EventId → Nat → Nat

section Runs

variable (asEventId : RoomId → Option EventId) (shortOf : EventId → ShortEventId)
variable (roomId : RoomId) (rules : RoomVersionRules)

/-- The answers to a sequence of calls, each reading the cache the earlier ones wrote. -/
def serve (cache : AuthChainCache) : List Call → List (List ShortEventId)
  | [] => []
  | call :: calls =>
      let (chain, cache) := getAuthChain asEventId shortOf call.timeline roomId rules call.schedule
        cache call.startingEvents
      chain :: serve cache calls

/-- The answer of a call from an empty cache. -/
def fresh (call : Call) : List ShortEventId :=
  (getAuthChain asEventId shortOf call.timeline roomId rules call.schedule Table.empty
    call.startingEvents).1

variable {asEventId shortOf roomId rules}

/-- Along calls whose timelines only grow, from a cache sound for the timeline before them, every
answer is the answer from an empty cache. -/
theorem serve_eq_fresh (injective : Function.Injective shortOf) :
    ∀ (calls : List Call) (previous : Timeline) {cache : AuthChainCache},
      CacheSound shortOf previous (createSeed asEventId rules roomId) cache →
      (∀ call ∈ calls, InRoom call.timeline roomId) →
      (previous :: calls.map Call.timeline).IsChain Timeline.Extends →
      serve asEventId shortOf roomId rules cache calls =
        calls.map (fresh asEventId shortOf roomId rules)
  | [], _, _, _, _, _ => rfl
  | call :: calls, previous, cache, sound, inRoom, grows => by
      rw [List.map_cons, List.isChain_cons_cons] at grows
      have current := sound.grow injective grows.1.grows
      have callInRoom := inRoom call List.mem_cons_self
      obtain ⟨_, _, after⟩ := getAuthChain_spec injective callInRoom call.schedule current
        call.startingEvents
      simp only [serve, List.map_cons, fresh]
      rw [getAuthChain_eq_fresh injective callInRoom call.schedule current]
      congr 1
      exact serve_eq_fresh injective calls call.timeline after
        (fun other listed => inRoom other (List.mem_cons_of_mem _ listed)) grows.2

/-- Along any sequence of calls whose timelines only grow and hold pdus of the room only, each
answer of `get_auth_chain` from the cache the earlier calls wrote is the answer from an empty
cache, and that answer lists, ascending and once each, the short ids of the events reachable from
the starting events by one or more auth edges that do not enter the walk's seed. -/
theorem cached_auth_chain_matches_walk (injective : Function.Injective shortOf)
    (calls : List Call) (inRoom : ∀ call ∈ calls, InRoom call.timeline roomId)
    (grows : (calls.map Call.timeline).IsChain Timeline.Extends) :
    serve asEventId shortOf roomId rules Table.empty calls =
        calls.map (fresh asEventId shortOf roomId rules) ∧
      ∀ call ∈ calls, (fresh asEventId shortOf roomId rules call).SortedLT ∧
        ∀ x, x ∈ fresh asEventId shortOf roomId rules call ↔
          ∃ eventId ∈ call.startingEvents, ∃ authEvent,
            Reach (authEdges call.timeline) (createSeed asEventId rules roomId) eventId authEvent ∧
              shortOf authEvent = x := by
  -- the empty cache is sound for the empty timeline, which every timeline extends
  have fromEmpty : ((⟨[]⟩ : Timeline) :: calls.map Call.timeline).IsChain Timeline.Extends := by
    cases calls with
    | nil => exact List.isChain_singleton _
    | cons call calls =>
        rw [List.map_cons, List.isChain_cons_cons]
        exact ⟨fun _ _ found => by simp [Timeline.get] at found, grows⟩
  refine ⟨serve_eq_fresh injective calls ⟨[]⟩ cacheSound_empty inRoom fromEmpty, ?_⟩
  intro call listed
  have empty : CacheSound shortOf call.timeline (createSeed asEventId rules roomId) Table.empty :=
    cacheSound_empty
  obtain ⟨sorted, members, _⟩ := getAuthChain_spec injective (inRoom call listed) call.schedule
    empty call.startingEvents
  exact ⟨sorted, members⟩

end Runs

section Samples

/-- Short ids for the samples: the event id's code points, encoded one to one. -/
def sampleShortOf (eventId : EventId) : ShortEventId :=
  Encodable.encode (eventId.toList.map Char.toNat)

theorem sampleShortOf_injective : Function.Injective sampleShortOf := by
  intro eventId other same
  apply String.toList_injective
  exact (List.map_injective_iff.mpr fun _ _ named => Char.toNat_inj.mp named)
    (Encodable.encode_injective same)

/-- A room whose id names its create event `$create`. -/
def hydraRoom : RoomId := "!create:example.org"

/-- `RoomId::as_event_id` on the sample room. -/
def hydraAsEventId (_ : RoomId) : Option EventId := some "$create"

/-- Rules that name the create event by the room id. -/
def hydraRules : RoomVersionRules := ⟨true⟩

/-- The create event, then a power levels event and a member event authorized by it. -/
def hydraPdus : List (EventId × Pdu) :=
  [("$create", ⟨[], hydraRoom⟩), ("$power", ⟨["$create"], hydraRoom⟩),
    ("$member", ⟨["$create", "$power"], hydraRoom⟩)]

/-- Two calls for the member event: before its pdus arrived, and after. -/
def hydraCalls : List Call :=
  [⟨⟨hydraPdus.take 1⟩, ["$member"], fun _ _ => 0⟩, ⟨⟨hydraPdus⟩, ["$member"], fun _ _ => 0⟩]

theorem cached_auth_chain_matches_walk_hydraCalls :
    (∀ call ∈ hydraCalls, InRoom call.timeline hydraRoom) ∧
      (hydraCalls.map Call.timeline).IsChain Timeline.Extends ∧
      serve hydraAsEventId sampleShortOf hydraRoom hydraRules Table.empty hydraCalls =
          hydraCalls.map (fresh hydraAsEventId sampleShortOf hydraRoom hydraRules) ∧
        ∀ call ∈ hydraCalls, (fresh hydraAsEventId sampleShortOf hydraRoom hydraRules call).SortedLT ∧
          ∀ x, x ∈ fresh hydraAsEventId sampleShortOf hydraRoom hydraRules call ↔
            ∃ eventId ∈ call.startingEvents, ∃ authEvent,
              Reach (authEdges call.timeline) (createSeed hydraAsEventId hydraRules hydraRoom) eventId
                authEvent ∧ sampleShortOf authEvent = x := by
  have inRoom : ∀ call ∈ hydraCalls, InRoom call.timeline hydraRoom := by
    simp only [hydraCalls, List.mem_cons, List.not_mem_nil, or_false, forall_eq_or_imp, forall_eq]
    exact ⟨inRoom_of_pdus (by decide), inRoom_of_pdus (by decide)⟩
  have grows : (hydraCalls.map Call.timeline).IsChain Timeline.Extends := by
    have split : hydraPdus = hydraPdus.take 1 ++ hydraPdus.drop 1 := (List.take_append_drop 1 _).symm
    simp only [hydraCalls, List.map_cons, List.map_nil, List.isChain_pair]
    exact split ▸ Timeline.extends_append _ _
  exact ⟨inRoom, grows, cached_auth_chain_matches_walk sampleShortOf_injective hydraCalls inRoom grows⟩

theorem getAuthChain_excludes_only_create_hydra :
    createSeed hydraAsEventId hydraRules hydraRoom = {"$create"} ∧
      (∀ authEvents, authEdges ⟨hydraPdus⟩ "$create" = some authEvents → authEvents = []) ∧
      (sampleShortOf "$power" ∈ (getAuthChain hydraAsEventId sampleShortOf ⟨hydraPdus⟩ hydraRoom
          hydraRules (fun _ _ => 0) Table.empty ["$member"]).1 ↔
        ∃ eventId ∈ ["$member"], ∃ authEvent, Reach (authEdges ⟨hydraPdus⟩) ∅ eventId authEvent ∧
          authEvent ≠ "$create" ∧ sampleShortOf authEvent = sampleShortOf "$power") := by
  have named : createSeed hydraAsEventId hydraRules hydraRoom = {"$create"} := by decide
  have sink : ∀ authEvents, authEdges ⟨hydraPdus⟩ "$create" = some authEvents →
      authEvents = [] := by
    intro authEvents found
    have stored : authEdges ⟨hydraPdus⟩ "$create" = some [] := by decide
    exact (Option.some.inj (stored.symm.trans found)).symm
  exact ⟨named, sink, getAuthChain_excludes_only_create sampleShortOf_injective
    (inRoom_of_pdus (by decide)) _ cacheSound_empty _ named sink _⟩

/-- A room whose create event lists an auth event of its own. -/
def createWithAuthPdus : List (EventId × Pdu) :=
  [("$member", ⟨["$create"], hydraRoom⟩), ("$create", ⟨["$ancestor"], hydraRoom⟩),
    ("$ancestor", ⟨[], hydraRoom⟩)]

/-- The walk never fetches the create event named by the room id, so an event reachable only
through it is missing from the answer. -/
theorem create_ancestors_skipped :
    (getAuthChain hydraAsEventId sampleShortOf ⟨createWithAuthPdus⟩ hydraRoom hydraRules
        (fun _ _ => 0) Table.empty ["$member"]).1 = [] ∧
      Reach (authEdges ⟨createWithAuthPdus⟩) ∅ "$member" "$ancestor" ∧
      hydraAsEventId hydraRoom ≠ some "$ancestor" := by
  refine ⟨by decide +kernel, ?_, by decide⟩
  exact .tail (.edge rfl List.mem_cons_self (Set.notMem_empty _)) rfl List.mem_cons_self
    (Set.notMem_empty _)

end Samples

end AuthChain
end Tuwunel
