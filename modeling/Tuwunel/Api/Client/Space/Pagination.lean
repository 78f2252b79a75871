import Tuwunel.Api.Client.Space

/-!
# Paging through a space hierarchy

Where a room's summary does not depend on who asks or through which servers, every request walks
the same hierarchy: the search from the root, the summaries that serialize (`hierarchy`).  A
client's progress is the number of rooms returned so far, and the skip set names exactly those
rooms by their short ids (`Paged`).  A page is then the next `limit` rooms of the hierarchy
(`getClientHierarchy_eq_page`).  A full page allocates ids for its rooms and resumes after them.
The new ids are fresh, so no later room is skipped.  Following the tokens therefore returns the
hierarchy once and in order, and stops after at most one page per room (`followPages_eq`).
-/

namespace Tuwunel
namespace Space

open KeyValue BoundedSearch Spaces
open Pdu (ShortRoomId)

/-- The summary a room's lookup gives where the room is accessible. -/
def accessibleSummary (summary : RoomId → Except Error Accessibility) (room : RoomId) :
    Option ParentSummary :=
  match summary room with
  | .ok (.accessible found) => some found
  | _ => none

/-- What a request lists before its limit and skip set, where each room's summary is fixed: the
search from the root, the summaries that serialize. -/
def hierarchy (summary : RoomId → Except Error Accessibility) (args : HierarchyArgs) :
    List ParentSummary :=
  (search Prod.fst (fun item => accessibleSummary summary item.1) args.childItems args.maxDepth
    [((args.roomId, []), 0)] []).filter isSummarySerializable

section Fixed

variable {services : Services} {summary : RoomId → Except Error Accessibility}

/-- The code's walk, the root emitted up front and its children queued at depth one, is the
search from the root. -/
theorem walk_eq_search (fixed : ∀ room sender via,
      services.getSummaryAndChildren room sender via = summary room)
    (args : HierarchyArgs) {rootSummary : ParentSummary}
    (rootOpens : summary args.roomId = .ok (.accessible rootSummary)) :
    rootSummary :: search Prod.fst (args.visitRoom services) args.childItems args.maxDepth
        (args.initialQueue rootSummary) [args.roomId] =
      search Prod.fst (fun item => accessibleSummary summary item.1) args.childItems args.maxDepth
        [((args.roomId, []), 0)] [] := by
  have visit : args.visitRoom services = fun item => accessibleSummary summary item.1 := by
    funext item
    simp only [HierarchyArgs.visitRoom, fixed]
    rfl
  -- the root's filter is the search's own test against the one visited room
  have queue : args.initialQueue rootSummary =
      pushes Prod.fst args.childItems args.maxDepth [args.roomId] rootSummary 0 := by
    unfold HierarchyArgs.initialQueue pushes
    congr 2
    exact List.filter_congr fun child _ => by simp [eq_comm]
  rw [search_root Prod.fst _ args.childItems args.maxDepth
    (by simp [accessibleSummary, rootOpens] : accessibleSummary summary ((args.roomId, []) :
      RoomId × List ServerName).1 = some rootSummary), visit, queue]

end Fixed

/-! ## The hierarchy's rooms -/

section Hierarchy

variable {summary : RoomId → Except Error Accessibility}

theorem accessibleSummary_eq_some {room : RoomId} {found : ParentSummary} :
    accessibleSummary summary room = some found ↔ summary room = .ok (.accessible found) := by
  unfold accessibleSummary
  split
  next found' looked => simp [looked]
  next closed =>
    simp only [reduceCtorEq, false_iff]
    exact closed found

/-- The hierarchy holds the summaries that serialize of the rooms within the depth along
accessible rooms. -/
theorem mem_hierarchy_iff (args : HierarchyArgs) {found : ParentSummary} :
    found ∈ hierarchy summary args ↔ isSummarySerializable found ∧ ∃ room depth,
      Reaches Prod.fst args.childItems (accessibleSummary summary) args.roomId room depth ∧
        depth ≤ args.maxDepth ∧ accessibleSummary summary room = some found := by
  rw [hierarchy, List.mem_filter, and_comm]
  exact and_congr_right fun _ => mem_search_root_iff (args.roomId, [])

/-- Where each summary names its room: a room is in the hierarchy exactly when it is accessible,
its summary serializes, and it lies within the depth. -/
theorem mem_hierarchy_roomId_iff
    (named : ∀ room found, summary room = .ok (.accessible found) → found.roomId = room)
    (args : HierarchyArgs) {room : RoomId} :
    room ∈ (hierarchy summary args).map ParentSummary.roomId ↔ ∃ found depth,
      summary room = .ok (.accessible found) ∧ isSummarySerializable found ∧
        Reaches Prod.fst args.childItems (accessibleSummary summary) args.roomId room depth ∧
          depth ≤ args.maxDepth := by
  rw [List.mem_map]
  constructor
  · rintro ⟨found, member, rfl⟩
    obtain ⟨serializes, room, depth, reached, within, opens⟩ := (mem_hierarchy_iff args).mp member
    have opens := accessibleSummary_eq_some.mp opens
    rw [named room found opens]
    exact ⟨found, depth, opens, serializes, reached, within⟩
  · rintro ⟨found, depth, opens, serializes, reached, within⟩
    refine ⟨found, (mem_hierarchy_iff args).mpr ⟨serializes, room, depth, reached, within,
      accessibleSummary_eq_some.mpr opens⟩, named room found opens⟩

/-- Where each summary names its room, the hierarchy holds each room once. -/
theorem nodup_hierarchy
    (named : ∀ room found, summary room = .ok (.accessible found) → found.roomId = room)
    (args : HierarchyArgs) : ((hierarchy summary args).map ParentSummary.roomId).Nodup :=
  (nodup_search (fun room found opens => named room found (accessibleSummary_eq_some.mp opens))
    (Frontier.root (args.roomId, []))).sublist (List.Sublist.map _ List.filter_sublist)

/-- The root comes first where its summary serializes. -/
theorem hierarchy_head (args : HierarchyArgs) {rootSummary : ParentSummary}
    (rootOpens : summary args.roomId = .ok (.accessible rootSummary))
    (serializes : isSummarySerializable rootSummary) :
    (hierarchy summary args).head? = some rootSummary := by
  rw [hierarchy, search_root Prod.fst _ args.childItems args.maxDepth
    (by simp [accessibleSummary, rootOpens] : accessibleSummary summary ((args.roomId, []) :
      RoomId × List ServerName).1 = some rootSummary)]
  simp [serializes]

end Hierarchy

/-! ## A client's progress -/

theorem exists_of_forall₂_left {α β : Type} {R : α → β → Prop} {as : List α} {bs : List β}
    (related : List.Forall₂ R as bs) {a : α} (member : a ∈ as) : ∃ b ∈ bs, R a b := by
  induction related with
  | nil => cases member
  | @cons a' b' as bs head _ ih =>
      rcases List.mem_cons.mp member with rfl | member
      · exact ⟨b', List.mem_cons_self, head⟩
      · obtain ⟨b, inTail, holds⟩ := ih member
        exact ⟨b, List.mem_cons_of_mem _ inTail, holds⟩

theorem exists_of_forall₂_right {α β : Type} {R : α → β → Prop} {as : List α} {bs : List β}
    (related : List.Forall₂ R as bs) {b : β} (member : b ∈ bs) : ∃ a ∈ as, R a b := by
  induction related with
  | nil => cases member
  | @cons a' b' as bs head _ ih =>
      rcases List.mem_cons.mp member with rfl | member
      · exact ⟨a', List.mem_cons_self, head⟩
      · obtain ⟨a, inTail, holds⟩ := ih member
        exact ⟨a, List.mem_cons_of_mem _ inTail, holds⟩

/-- A client's progress through the hierarchy `rooms`: the skip set names the first `returned`
rooms by their short ids and no later one, and its ids stay under the counter, which has drawn
at most one id per room returned since `origin`. -/
structure Paged (rooms : List ParentSummary) (origin : Nat) (short : ShortRooms)
    (skip : List ShortRoomId) (returned : Nat) : Prop where
  within : returned ≤ rooms.length
  skipped : ∀ found ∈ rooms.take returned, ∃ id, short.getShortroomid found.roomId = some id ∧
    id ∈ skip
  pending : ∀ found ∈ rooms.drop returned, ∀ id, short.getShortroomid found.roomId = some id →
    id ∉ skip
  bounded : ∀ id ∈ skip, id ≤ short.count
  counted : short.count ≤ origin + returned

/-- Nothing is returned before the first page. -/
theorem Paged.start (rooms : List ParentSummary) (short : ShortRooms) :
    Paged rooms short.count short [] 0 where
  within := Nat.zero_le _
  skipped := by simp
  pending := by simp
  bounded := by simp
  counted := le_refl _

/-- The rooms of a page, by their ids. -/
theorem map_roomId_page (rooms : List ParentSummary) (limit : Nat) :
    ((rooms.map summaryToChunk).take limit).map RoomsChunk.roomId =
      (rooms.take limit).map ParentSummary.roomId := by
  rw [← List.map_take, List.map_map]
  rfl

/-- A full page moves the progress on by the limit: its rooms take ids, fresh where they had
none, and no later room holds one of them. -/
theorem Paged.next {rooms : List ParentSummary} {origin : Nat} {short : ShortRooms}
    {skip : List ShortRoomId} {returned : Nat} (nodup : (rooms.map ParentSummary.roomId).Nodup)
    (paged : Paged rooms origin short skip returned) {limit : Nat}
    (full : limit ≤ (rooms.drop returned).length) :
    Paged rooms origin
      (short.getOrCreateShortroomids ((rooms.drop returned).take limit |>.map ParentSummary.roomId)).2
      (skip ++ (short.getOrCreateShortroomids
        ((rooms.drop returned).take limit |>.map ParentSummary.roomId)).1)
      (returned + limit) := by
  set ids := (rooms.drop returned).take limit |>.map ParentSummary.roomId with idsEq
  set after := short.getOrCreateShortroomids ids
  have allocated := ShortRooms.getOrCreateShortroomids_forall₂ short ids
  -- the rooms after the page are not among its rooms
  have later : ∀ found ∈ (rooms.drop returned).drop limit, found.roomId ∉ ids := by
    intro found member inPage
    have split : ((rooms.drop returned).map ParentSummary.roomId) =
        ids ++ ((rooms.drop returned).drop limit).map ParentSummary.roomId := by
      rw [idsEq, ← List.map_append, List.take_append_drop]
    have distinctParts := List.disjoint_of_nodup_append
      (split ▸ nodup.sublist (List.Sublist.map _ (List.drop_sublist _ _)))
    exact distinctParts inPage (List.mem_map_of_mem member)
  refine ⟨?within, ?skipped, ?pending, ?bounded, ?counted⟩
  case within =>
    have := paged.within
    rw [List.length_drop] at full
    omega
  case skipped =>
    intro found member
    rcases List.mem_append.mp (List.take_add ▸ member) with member | member
    · obtain ⟨id, stored, skipped⟩ := paged.skipped found member
      exact ⟨id, ShortRooms.getOrCreateShortroomids_keeps ids stored, List.mem_append_left _ skipped⟩
    · obtain ⟨id, created, stored⟩ := exists_of_forall₂_right allocated (List.mem_map_of_mem member)
      exact ⟨id, stored, List.mem_append_right _ created⟩
  case pending =>
    intro found member id stored
    rw [← List.drop_drop] at member
    have absent := later found member
    have before := (ShortRooms.getOrCreateShortroomids_other absent).symm.trans stored
    rw [List.mem_append, not_or]
    refine ⟨paged.pending found (List.mem_of_mem_drop member) id before, fun created => ?_⟩
    -- a new id belongs to a room of the page, and ids are distinct
    obtain ⟨room, inPage, held⟩ := exists_of_forall₂_left allocated created
    exact absent (after.2.distinct room found.roomId id held stored ▸ inPage)
  case bounded =>
    intro id member
    rcases List.mem_append.mp member with skipped | created
    · exact (paged.bounded id skipped).trans (ShortRooms.getOrCreateShortroomids_count_le short ids)
    · obtain ⟨room, _, held⟩ := exists_of_forall₂_left allocated created
      exact after.2.below room id held
  case counted =>
    have drawn : after.2.count ≤ short.count + ids.length :=
      ShortRooms.getOrCreateShortroomids_count short ids
    have pageLength : ids.length ≤ limit := by
      rw [idsEq, List.length_map, List.length_take]
      exact min_le_left _ _
    have := paged.counted
    omega

/-! ## One page -/

section Page

variable {args : HierarchyArgs} {short : ShortRooms} {found : ParentSummary}

theorem chunkOf_of_skipped {id : ShortRoomId} (stored : short.getShortroomid found.roomId = some id)
    (skipped : id ∈ args.skipRoomIds) : args.chunkOf short found = none := by
  have nonempty : args.skipRoomIds.isEmpty = false :=
    List.isEmpty_eq_false_iff.mpr (List.ne_nil_of_mem skipped)
  simp [HierarchyArgs.chunkOf, nonempty, stored, skipped]

theorem chunkOf_of_pending
    (pending : ∀ id, short.getShortroomid found.roomId = some id → id ∉ args.skipRoomIds)
    (serializes : isSummarySerializable found) :
    args.chunkOf short found = some (summaryToChunk found) := by
  unfold HierarchyArgs.chunkOf
  cases stored : short.getShortroomid found.roomId with
  | none => simp [serializes]
  | some id => simp [pending id stored, serializes]

theorem chunkOf_of_not_serializable (dropped : isSummarySerializable found = false) :
    args.chunkOf short found = none := by
  simp [HierarchyArgs.chunkOf, dropped]

/-- Filtered through the skip set, the walk gives the rooms after those returned. -/
theorem filterMap_chunkOf {walk : List ParentSummary} {origin returned : Nat}
    (paged : Paged (walk.filter isSummarySerializable) origin short args.skipRoomIds returned) :
    walk.filterMap (args.chunkOf short) =
      ((walk.filter isSummarySerializable).drop returned).map summaryToChunk := by
  set rooms := walk.filter isSummarySerializable
  have serializable : walk.filterMap (args.chunkOf short) = rooms.filterMap (args.chunkOf short) := by
    rw [List.filterMap_filter]
    refine List.filterMap_congr fun found _ => ?_
    cases serializes : isSummarySerializable found
    · simp [chunkOf_of_not_serializable serializes]
    · simp
  -- the rooms returned are all in the skip set, the others none
  have returnedPart : (rooms.take returned).filterMap (args.chunkOf short) = [] :=
    List.filterMap_eq_nil_iff.mpr fun found member => by
      obtain ⟨id, stored, skipped⟩ := paged.skipped found member
      exact chunkOf_of_skipped stored skipped
  have pendingPart : (rooms.drop returned).filterMap (args.chunkOf short) =
      (rooms.drop returned).map summaryToChunk := by
    rw [← List.filterMap_eq_map]
    exact List.filterMap_congr fun found member => chunkOf_of_pending
      (paged.pending found member) (List.of_mem_filter (List.mem_of_mem_drop member))
  calc walk.filterMap (args.chunkOf short)
      _ = (rooms.take returned ++ rooms.drop returned).filterMap (args.chunkOf short) := by
        rw [serializable, List.take_append_drop]
      _ = (rooms.drop returned).map summaryToChunk := by
        rw [List.filterMap_append, returnedPart, pendingPart, List.nil_append]

end Page

/-! ## Following the tokens -/

section Follow

variable {services : Services} {summary : RoomId → Except Error Accessibility}

/-- Where each room's summary is fixed, a request answers with the next `limit` rooms of the
hierarchy, and when that page is full, with the token that skips them too. -/
theorem getClientHierarchy_eq_page (fixed : ∀ room sender via,
      services.getSummaryAndChildren room sender via = summary room)
    (args : HierarchyArgs) {rootSummary : ParentSummary}
    (rootOpens : summary args.roomId = .ok (.accessible rootSummary)) {origin returned : Nat}
    {short : ShortRooms}
    (paged : Paged (hierarchy summary args) origin short args.skipRoomIds returned) :
    getClientHierarchy services short args =
      if 0 < args.limit ∧ args.limit ≤ ((hierarchy summary args).drop returned).length then
        .ok (⟨(((hierarchy summary args).drop returned).map summaryToChunk).take args.limit,
          some (PaginationToken.fmt ⟨args.skipRoomIds ++ (short.getOrCreateShortroomids
            (((hierarchy summary args).drop returned).take args.limit |>.map
              ParentSummary.roomId)).1, toUInt args.limit, toUInt args.maxDepth,
            args.suggestedOnly⟩)⟩,
          (short.getOrCreateShortroomids (((hierarchy summary args).drop returned).take args.limit
            |>.map ParentSummary.roomId)).2)
      else .ok (⟨(((hierarchy summary args).drop returned).map summaryToChunk).take args.limit,
        none⟩, short) := by
  set rest := (hierarchy summary args).drop returned
  have root : services.getSummaryAndChildren args.roomId (HierarchyArgs.sender services args)
      (HierarchyArgs.rootVia services args) = .ok (.accessible rootSummary) :=
    (fixed _ _ _).trans rootOpens
  have rooms : (rootSummary :: search Prod.fst (args.visitRoom services) args.childItems
      args.maxDepth (args.initialQueue rootSummary) [args.roomId]).filterMap (args.chunkOf short) =
      rest.map summaryToChunk := by
    rw [walk_eq_search fixed args rootOpens]
    exact filterMap_chunkOf paged
  have pageLength : ((rest.map summaryToChunk).take args.limit).length = min args.limit rest.length := by
    rw [List.length_take, List.length_map]
  unfold getClientHierarchy
  rw [root]
  dsimp only
  rw [rooms, map_roomId_page]
  by_cases full : 0 < args.limit ∧ args.limit ≤ rest.length
  · rw [if_pos full, if_pos ⟨full.1, by omega⟩]
    have allocated := ShortRooms.getOrCreateShortroomids_forall₂ short
      ((rest.take args.limit).map ParentSummary.roomId)
    rcases split : short.getOrCreateShortroomids ((rest.take args.limit).map ParentSummary.roomId)
      with ⟨created, short'⟩
    rw [split] at allocated
    -- the page's rooms take one id each, so the skip set grows and a token is written
    have grew : args.skipRoomIds.length < (args.skipRoomIds ++ created).length := by
      rw [List.length_append, allocated.length_eq, List.length_map, List.length_take]
      omega
    simp only [grew, if_true]
  · rw [if_neg full, if_neg (fun page => full ⟨page.1, by omega⟩)]

/-- Following the tokens from any point of progress returns the rest of the hierarchy, given one
request per remaining room and one more.  By induction on the requests left: a full page moves
the progress on (`Paged.next`) and resumes from the token the route reads back
(`getHierarchyRoute_resume`); a short page is the last. -/
theorem followPages_eq (fixed : ∀ room sender via,
      services.getSummaryAndChildren room sender via = summary room)
    (named : ∀ room found, summary room = .ok (.accessible found) → found.roomId = room)
    {body : Request} {rootSummary : ParentSummary}
    (rootOpens : summary body.roomId = .ok (.accessible rootSummary))
    (positive : 0 < body.clampedLimit) {origin : Nat}
    (room : origin + (hierarchy summary (body.hierarchyArgs [])).length ≤ u64Max)
    (fuel : Nat) (short : ShortRooms) (skip : List ShortRoomId) (returned : Nat)
    (paged : Paged (hierarchy summary (body.hierarchyArgs [])) origin short skip returned)
    (bound : ((hierarchy summary (body.hierarchyArgs [])).drop returned).length < fuel) :
    followPages services body fuel short (body.resume skip) =
      some (.ok (((hierarchy summary (body.hierarchyArgs [])).drop returned).map summaryToChunk)) := by
  induction fuel generalizing short skip returned with
  | zero => exact absurd bound (Nat.not_lt_zero _)
  | succ fuel ih =>
    set rooms := hierarchy summary (body.hierarchyArgs [])
    have fits : ∀ id ∈ skip, id ≤ u64Max := fun id member =>
      calc id
        _ ≤ short.count := paged.bounded id member
        _ ≤ origin + returned := paged.counted
        _ ≤ u64Max := by
          have := paged.within
          omega
    -- the hierarchy does not depend on the skip set
    have same : hierarchy summary (body.hierarchyArgs skip) = rooms := rfl
    simp only [followPages]
    rw [getHierarchyRoute_resume services short body fits, getClientHierarchy_eq_page fixed
      (body.hierarchyArgs skip) rootOpens (same ▸ paged), same]
    by_cases full : body.clampedLimit ≤ (rooms.drop returned).length
    · rw [if_pos (⟨positive, full⟩ : 0 < (body.hierarchyArgs skip).limit ∧
        (body.hierarchyArgs skip).limit ≤ (rooms.drop returned).length)]
      dsimp only [Request.hierarchyArgs]
      set ids := (rooms.drop returned).take body.clampedLimit |>.map ParentSummary.roomId
      have allocated := ShortRooms.getOrCreateShortroomids_forall₂ short ids
      have created : (short.getOrCreateShortroomids ids).1 ≠ [] := by
        rw [← List.length_pos_iff, allocated.length_eq, List.length_map, List.length_take]
        omega
      -- the token written is the one a client resumes with after these rooms
      have resumed : some (PaginationToken.fmt ⟨skip ++ (short.getOrCreateShortroomids ids).1,
          toUInt body.clampedLimit, toUInt body.clampedDepth, body.suggestedOnly⟩) =
          body.resume (skip ++ (short.getOrCreateShortroomids ids).1) := by
        rw [Request.resume, if_neg (by simp [created])]
      have later : (rooms.drop (returned + body.clampedLimit)).length < fuel := by
        rw [List.length_drop] at bound full ⊢
        omega
      rw [resumed, ih _ _ _ (paged.next (nodup_hierarchy named _) full) later, ← List.drop_drop]
      simp only [Option.map_some, Except.map, ← List.map_take, ← List.map_append,
        List.take_append_drop]
    · rw [if_neg (fun page => full page.2 : ¬(0 < (body.hierarchyArgs skip).limit ∧
        (body.hierarchyArgs skip).limit ≤ (rooms.drop returned).length))]
      dsimp only [Request.hierarchyArgs]
      -- a short page is the rest of the hierarchy
      rw [List.take_of_length_le (by rw [List.length_map]; omega)]

end Follow

/-! ## The whole walk -/

/-- A server with no short room id yet. -/
def ShortRooms.empty : ShortRooms where
  ids := Table.empty
  count := 0
  below := by simp [Table.get_empty]
  distinct := by simp [Table.get_empty]

/-- A request's limit is positive unless it asks for none. -/
theorem Request.clampedLimit_pos {body : Request}
    (positive : ∀ limit, body.limit = some limit → 0 < limit) : 0 < body.clampedLimit := by
  unfold Request.clampedLimit
  cases asked : body.limit with
  | none => decide
  | some limit => exact lt_min (positive limit asked) (by decide)

/-- Where only the rooms of `known` are accessible, the hierarchy has at most as many rooms. -/
theorem length_hierarchy_le {summary : RoomId → Except Error Accessibility}
    (named : ∀ room found, summary room = .ok (.accessible found) → found.roomId = room)
    {known : List RoomId} (closed : ∀ room found, summary room = .ok (.accessible found) →
      room ∈ known) (args : HierarchyArgs) : (hierarchy summary args).length ≤ known.length := by
  have subset : (hierarchy summary args).map ParentSummary.roomId ⊆ known := fun room member => by
    obtain ⟨found, _, opens, _⟩ := (mem_hierarchy_roomId_iff named args).mp member
    exact closed room found opens
  calc (hierarchy summary args).length
      _ = ((hierarchy summary args).map ParentSummary.roomId).length := (List.length_map _).symm
      _ ≤ known.length := (List.subperm_of_subset (nodup_hierarchy named args) subset).length_le

/-- Where each room's summary is fixed and names its room, and the short ids do not run out:
following `next_batch` from a first request, with the same request each time, ends after at most
one request per room and one more, and the pages together are what one request with a limit past
every room lists.  That is the hierarchy, each room once: the root first where its summary
serializes, and exactly the accessible rooms that serialize within the clamped depth along
accessible rooms. -/
theorem hierarchy_pagination_lossless {services : Services}
    {summary : RoomId → Except Error Accessibility}
    (fixed : ∀ room sender via, services.getSummaryAndChildren room sender via = summary room)
    (named : ∀ room found, summary room = .ok (.accessible found) → found.roomId = room)
    {body : Request} {rootSummary : ParentSummary}
    (rootOpens : summary body.roomId = .ok (.accessible rootSummary))
    (positive : ∀ limit, body.limit = some limit → 0 < limit) (short : ShortRooms)
    (room : short.count + (hierarchy summary (body.hierarchyArgs [])).length ≤ u64Max) :
    let rooms := hierarchy summary (body.hierarchyArgs [])
    followPages services body (rooms.length + 1) short none =
        some (.ok (rooms.map summaryToChunk)) ∧
      (∀ limit, rooms.length ≤ limit →
        (getClientHierarchy services short { body.hierarchyArgs [] with limit := limit }).map
          (·.1.rooms) = .ok (rooms.map summaryToChunk)) ∧
      (rooms.map ParentSummary.roomId).Nodup ∧
      (isSummarySerializable rootSummary → rooms.head? = some rootSummary) ∧
      ∀ room, room ∈ rooms.map ParentSummary.roomId ↔ ∃ found depth,
        summary room = .ok (.accessible found) ∧ isSummarySerializable found ∧
          Reaches Prod.fst (body.hierarchyArgs []).childItems (accessibleSummary summary)
            body.roomId room depth ∧ depth ≤ body.clampedDepth := by
  intro rooms
  refine ⟨?follow, ?single, nodup_hierarchy named _, hierarchy_head _ rootOpens,
    fun room => mem_hierarchy_roomId_iff named _⟩
  case follow =>
    have all := followPages_eq fixed named rootOpens (Request.clampedLimit_pos positive) room
      (rooms.length + 1) short [] 0 (Paged.start rooms short)
      (by rw [List.drop_zero]; exact Nat.lt_succ_self _)
    rwa [List.drop_zero] at all
  case single =>
    intro limit unlimited
    have same : hierarchy summary { body.hierarchyArgs [] with limit := limit } = rooms := rfl
    rw [getClientHierarchy_eq_page fixed { body.hierarchyArgs [] with limit := limit } rootOpens
      (Paged.start rooms short), same,
      List.drop_zero, List.take_of_length_le (by rw [List.length_map]; exact unlimited)]
    split <;> rfl

/-- The services of a server whose summaries are `summary`, whoever asks and through whichever
servers. -/
def fixedServices (summary : RoomId → Except Error Accessibility) : Services :=
  ⟨fun room _ _ => summary room, "example.org", fun _ => []⟩

/-- A space whose root lists one public room. -/
def lobbyRoot : ParentSummary :=
  ⟨"!space:example.org", .public, [some ⟨"!lobby:example.org", false, ["example.org"]⟩]⟩

def lobbySpace (room : RoomId) : Except Error Accessibility :=
  if room = "!space:example.org" then .ok (.accessible lobbyRoot)
  else if room = "!lobby:example.org" then .ok (.accessible ⟨"!lobby:example.org", .public, []⟩)
  else .error (.notFound "Room not found")

/-- A request for the space, a room a page. -/
def lobbyRequest : Request :=
  ⟨⟨"alice", "example.org"⟩, "!space:example.org", none, some 1, none, false⟩

theorem lobbySpace_named (room : RoomId) (found : ParentSummary)
    (opens : lobbySpace room = .ok (.accessible found)) : found.roomId = room := by
  unfold lobbySpace at opens
  split_ifs at opens with isSpace isLobby <;> cases opens
  · exact isSpace.symm
  · exact isLobby.symm

theorem hierarchy_pagination_lossless_lobby :
    (∀ room found, lobbySpace room = .ok (.accessible found) → found.roomId = room) ∧
      let rooms := hierarchy lobbySpace (lobbyRequest.hierarchyArgs [])
      followPages (fixedServices lobbySpace) lobbyRequest (rooms.length + 1) ShortRooms.empty none =
          some (.ok (rooms.map summaryToChunk)) ∧
        (∀ limit, rooms.length ≤ limit →
          (getClientHierarchy (fixedServices lobbySpace) ShortRooms.empty
            { lobbyRequest.hierarchyArgs [] with limit := limit }).map (·.1.rooms) =
              .ok (rooms.map summaryToChunk)) ∧
        (rooms.map ParentSummary.roomId).Nodup ∧
        (isSummarySerializable lobbyRoot → rooms.head? = some lobbyRoot) ∧
        ∀ room, room ∈ rooms.map ParentSummary.roomId ↔ ∃ found depth,
          lobbySpace room = .ok (.accessible found) ∧ isSummarySerializable found ∧
            Reaches Prod.fst (lobbyRequest.hierarchyArgs []).childItems
              (accessibleSummary lobbySpace) lobbyRequest.roomId room depth ∧
              depth ≤ lobbyRequest.clampedDepth := by
  have closed : ∀ room found, lobbySpace room = .ok (.accessible found) →
      room ∈ ["!space:example.org", "!lobby:example.org"] := by
    intro room found opens
    unfold lobbySpace at opens
    split_ifs at opens with isSpace isLobby
    · simp [isSpace]
    · simp [isLobby]
  have bound := length_hierarchy_le lobbySpace_named closed (lobbyRequest.hierarchyArgs [])
  have room : ShortRooms.empty.count +
      (hierarchy lobbySpace (lobbyRequest.hierarchyArgs [])).length ≤ u64Max := by
    have : (2 : Nat) ≤ u64Max := by decide
    simp only [List.length_cons, List.length_nil] at bound
    exact le_trans (by rw [show ShortRooms.empty.count = 0 from rfl]; omega) this
  exact ⟨lobbySpace_named, hierarchy_pagination_lossless (fun _ _ _ => rfl) lobbySpace_named
    (by decide +kernel : lobbySpace lobbyRequest.roomId = .ok (.accessible lobbyRoot))
    (fun limit asked => by simp only [lobbyRequest, Option.some.injEq] at asked; omega)
    ShortRooms.empty room⟩

/-! ## Rooms the pages leave out: an unserializable root and rooms past the depth cap -/

/-- A space whose root has a join rule the client API cannot serialize. -/
def customRoot : ParentSummary := ⟨"!space:example.org", .custom "org.example.rule", []⟩

def customSpace (room : RoomId) : Except Error Accessibility :=
  if room = "!space:example.org" then .ok (.accessible customRoot)
  else .error (.notFound "Room not found")

/-- A root without children is the whole hierarchy, where it serializes. -/
theorem hierarchy_of_childless {summary : RoomId → Except Error Accessibility}
    (args : HierarchyArgs) {rootSummary : ParentSummary}
    (rootOpens : summary args.roomId = .ok (.accessible rootSummary))
    (childless : args.childItems rootSummary = []) :
    hierarchy summary args = [rootSummary].filter isSummarySerializable := by
  rw [hierarchy, search_root Prod.fst _ args.childItems args.maxDepth
    (by simp [accessibleSummary, rootOpens] : accessibleSummary summary ((args.roomId, []) :
      RoomId × List ServerName).1 = some rootSummary), pushes, childless]
  simp [search_nil]

/-- The `i`th room of a chain, each room the only child of the one before. -/
def chainRoom (i : Nat) : RoomId := String.ofList ('!' :: Nat.toDigits 10 i)

def chainSummary (i : Nat) : ParentSummary :=
  ⟨chainRoom i, .public, if i < 11 then [some ⟨chainRoom (i + 1), false, []⟩] else []⟩

/-- Twelve public rooms in a chain from `chainRoom 0`. -/
def chainSpace (room : RoomId) : Except Error Accessibility :=
  match (List.range 12).find? fun i => chainRoom i == room with
  | some i => .ok (.accessible (chainSummary i))
  | none => .error (.notFound "Room not found")

/-- A request for the chain down to depth eleven, five rooms a page. -/
def chainRequest : Request :=
  ⟨⟨"alice", "example.org"⟩, chainRoom 0, none, some 5, some 11, false⟩

theorem chainRoom_injective : Function.Injective chainRoom := by
  intro i j same
  have digits : Nat.toDigits 10 i = Nat.toDigits 10 j := by
    simpa [chainRoom] using congrArg String.toList same
  calc i
      _ = Nat.ofDigitChars 10 (Nat.toDigits 10 i) 0 := Nat.ofDigitChars_ten_toDigits.symm
      _ = Nat.ofDigitChars 10 (Nat.toDigits 10 j) 0 := by rw [digits]
      _ = j := Nat.ofDigitChars_ten_toDigits

theorem chainSpace_chainRoom {i : Nat} (below : i < 12) :
    chainSpace (chainRoom i) = .ok (.accessible (chainSummary i)) := by
  have first : (List.range 12).find? (fun j => chainRoom j == chainRoom i) = some i :=
    List.find?_range_eq_some.mpr ⟨by simp, List.mem_range.mpr below, fun j earlier => by
      simp [chainRoom_injective.ne (Nat.ne_of_lt earlier)]⟩
  simp only [chainSpace, first]

theorem chainSpace_accessible {room : RoomId} {found : ParentSummary}
    (opens : chainSpace room = .ok (.accessible found)) :
    ∃ i < 12, chainRoom i = room ∧ found = chainSummary i := by
  unfold chainSpace at opens
  split at opens
  next i located =>
    cases opens
    exact ⟨i, List.mem_range.mp (List.mem_of_find?_eq_some located),
      by simpa using List.find?_some located, rfl⟩
  next => cases opens

theorem chainSpace_named (room : RoomId) (found : ParentSummary)
    (opens : chainSpace room = .ok (.accessible found)) : found.roomId = room := by
  obtain ⟨i, _, named, rfl⟩ := chainSpace_accessible opens
  exact named

/-- Every path down the chain reaches the room of its length. -/
theorem chain_reaches_eq {room : RoomId} {depth : Nat}
    (reached : Reaches Prod.fst (chainRequest.hierarchyArgs []).childItems
      (accessibleSummary chainSpace) (chainRoom 0) room depth) : room = chainRoom depth := by
  induction reached with
  | start => rfl
  | @child parent found depth item _ opens member ih =>
    obtain ⟨i, _, named, rfl⟩ := chainSpace_accessible (accessibleSummary_eq_some.mp opens)
    obtain rfl : i = depth := chainRoom_injective (named.trans ih)
    -- the only child of the `i`th room is the next one
    simp only [HierarchyArgs.childItems, getParentChildrenVia, chainSummary, chainRequest,
      Request.hierarchyArgs] at member
    split_ifs at member <;> simp_all

/-- The chain reaches its `i`th room at depth `i`. -/
theorem chain_reaches {i : Nat} (within : i ≤ 11) :
    Reaches Prod.fst (chainRequest.hierarchyArgs []).childItems (accessibleSummary chainSpace)
      (chainRoom 0) (chainRoom i) i := by
  induction i with
  | zero => exact .start
  | succ i ih =>
    have opens : accessibleSummary chainSpace (chainRoom i) = some (chainSummary i) :=
      accessibleSummary_eq_some.mpr (chainSpace_chainRoom (by omega))
    have child : (chainRoom (i + 1), ([] : List ServerName)) ∈
        (chainRequest.hierarchyArgs []).childItems (chainSummary i) := by
      simp [HierarchyArgs.childItems, getParentChildrenVia, chainSummary, chainRequest,
        Request.hierarchyArgs, show i < 11 by omega]
    exact .child (ih (by omega)) opens child

theorem hierarchy_pages_drop_root_and_deep_rooms :
    (followPages (fixedServices customSpace) lobbyRequest 2 ShortRooms.empty none =
        some (.ok []) ∧
      customSpace lobbyRequest.roomId = .ok (.accessible customRoot)) ∧
    ∃ pages, followPages (fixedServices chainSpace) chainRequest 13 ShortRooms.empty none =
        some (.ok pages) ∧
      chainRequest.maxDepth = some 11 ∧
      chainSpace (chainRoom 11) = .ok (.accessible (chainSummary 11)) ∧
      isSummarySerializable (chainSummary 11) ∧
      Reaches Prod.fst (chainRequest.hierarchyArgs []).childItems (accessibleSummary chainSpace)
        chainRequest.roomId (chainRoom 11) 11 ∧
      (∀ depth, Reaches Prod.fst (chainRequest.hierarchyArgs []).childItems
        (accessibleSummary chainSpace) chainRequest.roomId (chainRoom 11) depth → depth = 11) ∧
      chainRoom 11 ∉ pages.map RoomsChunk.roomId := by
  have shortCount : ShortRooms.empty.count = 0 := rfl
  have fits : (12 : Nat) ≤ u64Max := by decide
  refine ⟨⟨?custom, by decide +kernel⟩, ?chain⟩
  case custom =>
    have customNamed : ∀ room found, customSpace room = .ok (.accessible found) →
        found.roomId = room := by
      intro room found opens
      unfold customSpace at opens
      split_ifs at opens with isSpace
      cases opens
      exact isSpace.symm
    have rootOpens : customSpace lobbyRequest.roomId = .ok (.accessible customRoot) := by
      decide +kernel
    -- the root is the whole hierarchy, and it does not serialize
    have empty : hierarchy customSpace (lobbyRequest.hierarchyArgs []) = [] := by
      rw [hierarchy_of_childless _ rootOpens rfl]
      rfl
    have fixed : ∀ room sender via,
        (fixedServices customSpace).getSummaryAndChildren room sender via = customSpace room :=
      fun _ _ _ => rfl
    have all := followPages_eq fixed customNamed rootOpens (by decide)
      (by rw [empty, shortCount]; decide) 2 ShortRooms.empty [] 0
      (Paged.start _ ShortRooms.empty) (by rw [empty]; decide)
    rwa [empty] at all
  case chain =>
    have closed : ∀ room found, chainSpace room = .ok (.accessible found) →
        room ∈ (List.range 12).map chainRoom := by
      intro room found opens
      obtain ⟨i, below, named, _⟩ := chainSpace_accessible opens
      exact List.mem_map.mpr ⟨i, List.mem_range.mpr below, named⟩
    have bound : (hierarchy chainSpace (chainRequest.hierarchyArgs [])).length ≤ 12 := by
      simpa using length_hierarchy_le chainSpace_named closed (chainRequest.hierarchyArgs [])
    have rootOpens : chainSpace chainRequest.roomId = .ok (.accessible (chainSummary 0)) :=
      chainSpace_chainRoom (by decide)
    have fixed : ∀ room sender via,
        (fixedServices chainSpace).getSummaryAndChildren room sender via = chainSpace room :=
      fun _ _ _ => rfl
    have all := followPages_eq fixed chainSpace_named rootOpens (by decide) (by rw [shortCount]; omega) 13 ShortRooms.empty [] 0
      (Paged.start _ ShortRooms.empty) (by rw [List.drop_zero]; omega)
    rw [List.drop_zero] at all
    refine ⟨_, all, rfl, chainSpace_chainRoom (by decide), rfl, chain_reaches (by decide),
      fun depth reached => (chainRoom_injective (chain_reaches_eq reached)).symm, ?_⟩
    -- every path to the last room is eleven long, past the clamped depth of ten
    rw [List.map_map]
    intro member
    obtain ⟨found, depth, _, _, reached, within⟩ :=
      (mem_hierarchy_roomId_iff chainSpace_named _).mp member
    have deep := chainRoom_injective (chain_reaches_eq reached)
    have clamped : (chainRequest.hierarchyArgs []).maxDepth = 10 := rfl
    omega

end Space
end Tuwunel
