import Mathlib
import Tuwunel.Library.Reachability
import Tuwunel.Service.Rooms.AuthChain

/-!
# The walk of one event's auth chain

The walk searches the graph of stored auth events (`authEdges`) from its starting event, with
the create seed blocked.  Whatever order the fetches complete in, it ends with nothing pending
within `walkFuel` turns, having emitted each event reachable from the start once and nothing else;
and when no fetch failed, every event on those paths was stored (`getEventAuthChainIds_spec`).

The invariant (`WalkInvariant`) follows one turn: the fetch that completes is any pending one,
taken out of `todo` as by a permutation (`next_cases`), and its auth events not yet seen are
emitted and pushed.  The events taken up so far, the start and every emitted one, have each
either a pending fetch or all their auth events seen.  Each turn lowers
`todo.length + 2 * (bound - emitted.length)`, since emitted events are distinct auth events of
stored pdus.
-/

namespace Tuwunel
namespace AuthChain

open Reachability

/-- The auth events of each stored pdu: the graph a walk searches. -/
def authEdges (timeline : Timeline) (eventId : EventId) : Option (List EventId) :=
  (timeline.get eventId).map Pdu.authEvents

/-- Every stored pdu is of the room. -/
def InRoom (timeline : Timeline) (roomId : RoomId) : Prop :=
  ∀ eventId pdu, timeline.get eventId = some pdu → pdu.roomId = roomId

theorem inRoom_of_pdus {timeline : Timeline} {roomId : RoomId}
    (every : ∀ entry ∈ timeline.pdus, entry.2.roomId = roomId) : InRoom timeline roomId := by
  intro eventId pdu found
  obtain ⟨front, back, split, _⟩ := List.lookup_eq_some_iff.mp found
  exact every (eventId, pdu) (by simp [split])

theorem mem_authEventIds {timeline : Timeline} {eventId authEvent : EventId}
    {authEvents : List EventId} (stored : authEdges timeline eventId = some authEvents)
    (member : authEvent ∈ authEvents) : authEvent ∈ timeline.authEventIds := by
  obtain ⟨pdu, found, rfl⟩ := Option.map_eq_some_iff.mp stored
  obtain ⟨front, back, split, _⟩ := List.lookup_eq_some_iff.mp found
  simp only [Timeline.authEventIds, List.mem_flatMap]
  exact ⟨(eventId, pdu), by simp [split], member⟩

section Receive

variable {timeline : Timeline} {roomId : RoomId} {fetched : EventId}

theorem receive_of_missing (missing : authEdges timeline fetched = none) (walk : Walk) :
    walk.receive timeline roomId fetched = { walk with complete := false } := by
  have absent : timeline.get fetched = none := by simpa [authEdges] using missing
  simp [Walk.receive, getEventAuthEventIds, absent]

theorem receive_of_stored (inRoom : InRoom timeline roomId) {authEvents : List EventId}
    (stored : authEdges timeline fetched = some authEvents) (walk : Walk) :
    walk.receive timeline roomId fetched = eval authEvents walk := by
  obtain ⟨pdu, found, rfl⟩ := Option.map_eq_some_iff.mp stored
  simp [Walk.receive, getEventAuthEventIds, found, inRoom fetched pdu found]

end Receive

/-- The auth events `eval` emits: each one not yet seen, once, in order. -/
def freshEvents : List EventId → Finset EventId → List EventId
  | [], _ => []
  | authEvent :: rest, seen =>
      if authEvent ∈ seen then freshEvents rest seen
      else authEvent :: freshEvents rest (insert authEvent seen)

theorem mem_freshEvents {authEvent : EventId} (authEvents : List EventId) (seen : Finset EventId) :
    authEvent ∈ freshEvents authEvents seen ↔ authEvent ∈ authEvents ∧ authEvent ∉ seen := by
  induction authEvents generalizing seen with
  | nil => simp [freshEvents]
  | cons head rest ih =>
      by_cases old : head ∈ seen
      · simp only [freshEvents, old, if_true, ih, List.mem_cons]
        constructor
        · exact fun ⟨member, unseen⟩ => ⟨Or.inr member, unseen⟩
        · rintro ⟨rfl | member, unseen⟩
          · exact absurd old unseen
          · exact ⟨member, unseen⟩
      · simp only [freshEvents, old, if_false, List.mem_cons, ih, Finset.mem_insert]
        by_cases same : authEvent = head
        · simp [same, old]
        · simp [same]

theorem nodup_freshEvents (authEvents : List EventId) (seen : Finset EventId) :
    (freshEvents authEvents seen).Nodup := by
  induction authEvents generalizing seen with
  | nil => simp [freshEvents]
  | cons head rest ih =>
      by_cases old : head ∈ seen
      · simpa [freshEvents, old] using ih seen
      · simp only [freshEvents, old, if_false, List.nodup_cons, mem_freshEvents]
        exact ⟨by simp, ih _⟩

/-- `eval` appends the fresh auth events to the fetches, the seen set and the stream. -/
theorem eval_eq (authEvents : List EventId) (walk : Walk) :
    eval authEvents walk =
      { walk with
        todo := walk.todo ++ freshEvents authEvents walk.seen
        seen := walk.seen ∪ (freshEvents authEvents walk.seen).toFinset
        emitted := walk.emitted ++ freshEvents authEvents walk.seen } := by
  induction authEvents generalizing walk with
  | nil => simp [eval, freshEvents]
  | cons head rest ih =>
      unfold eval at ih ⊢
      by_cases old : head ∈ walk.seen
      · simp only [List.foldl_cons, old, if_true, ih, freshEvents]
      · simp only [List.foldl_cons, old, if_false, ih, freshEvents, List.append_assoc,
          List.singleton_append, List.toFinset_cons]
        congr 1
        rw [Finset.insert_union, Finset.union_insert]

/-- Any turn with a fetch pending completes one of them, taken out of `todo`. -/
theorem next_cases (timeline : Timeline) (roomId : RoomId) (pick : Nat) (walk : Walk)
    (pending : walk.todo ≠ []) :
    ∃ fetched rest, (fetched :: rest).Perm walk.todo ∧
      walk.next timeline roomId pick = Walk.receive timeline roomId fetched { walk with todo := rest } := by
  obtain ⟨todo, seen, emitted, complete⟩ := walk
  cases todo with
  | nil => exact absurd rfl pending
  | cons first others =>
      have index : pick % (others.length + 1) < (first :: others).length :=
        Nat.mod_lt pick (Nat.succ_pos _)
      exact ⟨_, _, List.getElem_cons_eraseIdx_perm index, rfl⟩

section Invariant

variable (timeline : Timeline) (seed : Finset EventId) (start : EventId)

/-- What a walk from `start` with the seen set seeded by `seed` keeps at every turn. -/
structure WalkInvariant (walk : Walk) : Prop where
  seen_eq : walk.seen = seed ∪ walk.emitted.toFinset
  nodup : walk.emitted.Nodup
  unseeded : ∀ x ∈ walk.emitted, x ∉ seed
  pending : ∀ x ∈ walk.todo, x = start ∨ x ∈ walk.emitted
  sound : ∀ x ∈ walk.emitted, Reach (authEdges timeline) seed start x
  expanded : ∀ x, x = start ∨ x ∈ walk.emitted → x ∉ walk.todo →
    ∀ ys, authEdges timeline x = some ys → ∀ y ∈ ys, y ∈ walk.seen
  found : walk.complete = true → ∀ x, x = start ∨ x ∈ walk.emitted → x ∉ walk.todo →
    (authEdges timeline x).isSome
  referenced : ∀ x ∈ walk.emitted, x ∈ timeline.authEventIds

/-- The measure every turn lowers. -/
def potential (walk : Walk) : Nat :=
  walk.todo.length + 2 * (timeline.authEventIds.length - walk.emitted.length)

variable {timeline seed start}

theorem walkInvariant_initial :
    WalkInvariant timeline seed start ⟨[start], seed, [], true⟩ where
  seen_eq := by simp
  nodup := List.nodup_nil
  unseeded := by simp
  pending := by simp
  sound := by simp
  expanded := by simp
  found := by simp
  referenced := by simp

theorem WalkInvariant.emitted_length_le {walk : Walk}
    (invariant : WalkInvariant timeline seed start walk) :
    walk.emitted.length ≤ timeline.authEventIds.length :=
  (List.subperm_of_subset invariant.nodup invariant.referenced).length_le

/-- A turn whose fetch found nothing: only `complete` changes, and the fetch leaves `todo`. -/
theorem WalkInvariant.receive_missing {walk : Walk} {fetched : EventId} {rest : List EventId}
    (invariant : WalkInvariant timeline seed start walk)
    (taken : (fetched :: rest).Perm walk.todo) (missing : authEdges timeline fetched = none) :
    WalkInvariant timeline seed start { walk with todo := rest, complete := false } where
  seen_eq := invariant.seen_eq
  nodup := invariant.nodup
  unseeded := invariant.unseeded
  pending x member := invariant.pending x (taken.subset (List.mem_cons_of_mem _ member))
  sound := invariant.sound
  expanded x reached done ys stored := by
    -- the fetch itself has no auth events to see; any other event was already done
    have other : x ≠ fetched := by
      rintro rfl
      simp [missing] at stored
    have notPending : x ∉ walk.todo := fun member => by
      rcases List.mem_cons.mp (taken.symm.subset member) with same | member
      · exact other same
      · exact done member
    exact invariant.expanded x reached notPending ys stored
  found := by simp
  referenced := invariant.referenced

/-- A turn whose fetch found the pdu: its fresh auth events are seen, pushed and emitted. -/
theorem WalkInvariant.receive_stored {walk : Walk} {fetched : EventId} {rest : List EventId}
    {authEvents : List EventId} (invariant : WalkInvariant timeline seed start walk)
    (taken : (fetched :: rest).Perm walk.todo) (stored : authEdges timeline fetched = some authEvents) :
    WalkInvariant timeline seed start (eval authEvents { walk with todo := rest }) := by
  rw [eval_eq]
  have fetchedReached := invariant.pending fetched (taken.subset List.mem_cons_self)
  have wasPending : ∀ x, x ∉ rest → x ≠ fetched → x ∉ walk.todo := fun x done other member => by
    rcases List.mem_cons.mp (taken.symm.subset member) with same | member
    · exact other same
    · exact done member
  have seenOf : ∀ x ∈ walk.emitted, x ∈ walk.seen := fun x old => by
    simp [invariant.seen_eq, old]
  have seededOf : ∀ x ∈ seed, x ∈ walk.seen := fun x seeded => by
    simp [invariant.seen_eq, seeded]
  constructor
  case seen_eq =>
    simp only [invariant.seen_eq, List.toFinset_append, Finset.union_assoc]
  case nodup =>
    refine List.nodup_append.mpr ⟨invariant.nodup, nodup_freshEvents _ _, ?_⟩
    intro x old y fresh same
    exact ((mem_freshEvents _ _).mp (same ▸ fresh)).2 (seenOf x old)
  case unseeded =>
    simp only [List.mem_append]
    rintro x (old | fresh)
    · exact invariant.unseeded x old
    · exact fun seeded => ((mem_freshEvents _ _).mp fresh).2 (seededOf x seeded)
  case pending =>
    simp only [List.mem_append]
    rintro x (old | fresh)
    · rcases invariant.pending x (taken.subset (List.mem_cons_of_mem _ old)) with rfl | old
      · exact Or.inl rfl
      · exact Or.inr (Or.inl old)
    · exact Or.inr (Or.inr fresh)
  case sound =>
    simp only [List.mem_append]
    rintro x (old | fresh)
    · exact invariant.sound x old
    · obtain ⟨child, unseen⟩ := (mem_freshEvents _ _).mp fresh
      have free : x ∉ (seed : Set EventId) := fun seeded => unseen (seededOf x seeded)
      rcases fetchedReached with rfl | old
      · exact .edge stored child free
      · exact .tail (invariant.sound fetched old) stored child free
  case expanded =>
    simp only [List.mem_append, not_or, Finset.mem_union, List.mem_toFinset]
    rintro x reached ⟨done, notFresh⟩ ys known y child
    have reachedBefore : x = start ∨ x ∈ walk.emitted := by
      rcases reached with rfl | old | fresh
      · exact Or.inl rfl
      · exact Or.inr old
      · exact absurd fresh notFresh
    by_cases same : x = fetched
    · subst same
      rw [stored, Option.some.injEq] at known
      subst known
      by_cases old : y ∈ walk.seen
      · exact Or.inl old
      · exact Or.inr ((mem_freshEvents _ _).mpr ⟨child, old⟩)
    · exact Or.inl (invariant.expanded x reachedBefore (wasPending x done same) ys known y child)
  case found =>
    simp only [List.mem_append, not_or]
    rintro complete x reached ⟨done, notFresh⟩
    have reachedBefore : x = start ∨ x ∈ walk.emitted := by
      rcases reached with rfl | old | fresh
      · exact Or.inl rfl
      · exact Or.inr old
      · exact absurd fresh notFresh
    by_cases same : x = fetched
    · simp [same, stored]
    · exact invariant.found complete x reachedBefore (wasPending x done same)
  case referenced =>
    simp only [List.mem_append]
    rintro x (old | fresh)
    · exact invariant.referenced x old
    · exact mem_authEventIds stored ((mem_freshEvents _ _).mp fresh).1

variable {roomId : RoomId}

/-- One turn keeps the invariant and lowers the measure. -/
theorem WalkInvariant.next (inRoom : InRoom timeline roomId) {walk : Walk}
    (invariant : WalkInvariant timeline seed start walk) (pick : Nat) (pending : walk.todo ≠ []) :
    WalkInvariant timeline seed start (walk.next timeline roomId pick) ∧
      potential timeline (walk.next timeline roomId pick) < potential timeline walk := by
  obtain ⟨fetched, rest, taken, turn⟩ := next_cases timeline roomId pick walk pending
  have restLength : rest.length + 1 = walk.todo.length := by simpa using taken.length_eq
  rw [turn]
  cases known : authEdges timeline fetched with
  | none =>
      rw [receive_of_missing known]
      refine ⟨invariant.receive_missing taken known, ?_⟩
      simp only [potential]
      omega
  | some authEvents =>
      rw [receive_of_stored inRoom known]
      have after := invariant.receive_stored taken known
      refine ⟨after, ?_⟩
      have bound := after.emitted_length_le
      rw [eval_eq] at bound ⊢
      simp only [potential, List.length_append] at bound ⊢
      omega

/-- With fuel above the measure, the unfold ends with nothing pending. -/
theorem WalkInvariant.loop (inRoom : InRoom timeline roomId) (schedule : Nat → Nat) :
    ∀ (fuel round : Nat) {walk : Walk}, WalkInvariant timeline seed start walk →
      potential timeline walk < fuel →
      WalkInvariant timeline seed start (AuthChain.loop timeline roomId schedule fuel round walk) ∧
        (AuthChain.loop timeline roomId schedule fuel round walk).todo = []
  | 0, _, _, _, enough => absurd enough (Nat.not_lt_zero _)
  | fuel + 1, round, walk, invariant, enough => by
      by_cases done : walk.todo = []
      · rw [AuthChain.loop, if_pos done]
        exact ⟨invariant, done⟩
      · rw [AuthChain.loop, if_neg done]
        obtain ⟨after, lower⟩ := invariant.next inRoom (schedule round) done
        exact WalkInvariant.loop inRoom schedule fuel (round + 1) after (by omega)

/-- At the end of a walk the emitted events are exactly those reachable from the start. -/
theorem WalkInvariant.mem_emitted_iff {walk : Walk}
    (invariant : WalkInvariant timeline seed start walk) (ended : walk.todo = []) (y : EventId) :
    y ∈ walk.emitted ↔ Reach (authEdges timeline) seed start y := by
  have done : ∀ x, x ∉ walk.todo := by simp [ended]
  have closedUnder : ∀ x, x = start ∨ x ∈ walk.emitted → ∀ zs, authEdges timeline x = some zs →
      ∀ z ∈ zs, z ∉ (seed : Set EventId) → z ∈ walk.emitted := by
    intro x reached zs known z child free
    have seen := invariant.expanded x reached (done x) zs known z child
    have unseeded : z ∉ seed := by simpa using free
    simpa [invariant.seen_eq, unseeded] using seen
  refine ⟨invariant.sound y, fun path => ?_⟩
  exact Reach.mem_of_closed (s := {x | x ∈ walk.emitted}) (closedUnder start (Or.inl rfl))
    (fun x member => closedUnder x (Or.inr member)) path

/-- A walk that ended complete has found every event on its paths. -/
theorem WalkInvariant.closed {walk : Walk} (invariant : WalkInvariant timeline seed start walk)
    (ended : walk.todo = []) (complete : walk.complete = true) :
    Closed (authEdges timeline) seed start := by
  have done : ∀ x, x ∉ walk.todo := by simp [ended]
  refine ⟨invariant.found complete start (Or.inl rfl) (done start), fun y path => ?_⟩
  exact invariant.found complete y (Or.inr ((invariant.mem_emitted_iff ended y).mpr path)) (done y)

end Invariant

section Spec

variable (asEventId : RoomId → Option EventId)

/-- Whatever order the fetches complete in, `get_event_auth_chain_ids` emits each event reachable
from the start once and nothing else, and reports complete only when each of them was stored. -/
theorem getEventAuthChainIds_spec {timeline : Timeline} {roomId : RoomId}
    (inRoom : InRoom timeline roomId) (rules : RoomVersionRules) (schedule : Nat → Nat)
    (eventId : EventId) :
    let result := getEventAuthChainIds asEventId timeline roomId rules schedule eventId
    (∀ y, y ∈ result.1 ↔ Reach (authEdges timeline) (createSeed asEventId rules roomId) eventId y) ∧
      result.1.Nodup ∧
      (result.2 = true → Closed (authEdges timeline) (createSeed asEventId rules roomId) eventId) := by
  have enough : potential timeline ⟨[eventId], createSeed asEventId rules roomId, [], true⟩ <
      timeline.walkFuel := by
    simp only [potential, Timeline.walkFuel, List.length_singleton, List.length_nil]
    omega
  obtain ⟨invariant, ended⟩ :=
    WalkInvariant.loop inRoom schedule timeline.walkFuel 0 walkInvariant_initial enough
  exact ⟨invariant.mem_emitted_iff ended, invariant.nodup, invariant.closed ended⟩

end Spec

end AuthChain
end Tuwunel
