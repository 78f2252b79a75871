import Mathlib
import Tuwunel.Service.Rooms.StateCache.Update

/-!
# The membership counts and the server index

`update_joined_count` and `delete_room_join_counts` scan the room-major membership columns and
`roomserverids` by the prefix `(room_id, Interfix)`.  The separator ends the room id, which holds
no `0xFF` byte, so a scan reads exactly the room's keys.  Each column is kept here as the finite set
of its keys, which is what the scans and the `mark_as_*` transactions read and write; the values of
the rows (counts and stripped state) are read by none of these functions and are left out.
`Tracks` relates these key sets to the rows of `Indexes`, and `update_membership` moves both alike
(`Tracks.updateMembership`).

From the empty indexes, along any sequence of `update_membership`, `forget` and
`delete_room_join_counts` calls, a (user, room) is in at most one class, each class's user-major
and room-major columns hold the same pairs, and `serverroomids` is `roomserverids` turned around
(`consistent_run`).  The last fact is what `update_joined_count` rests on: it diffs the servers of
the joined members against `roomserverids` alone and writes `serverroomids` by that diff, so a
one-sided server row would survive it.  With it, the counts and both server indexes of the room
come out exact (`counted_updateJoinedCount`).
-/

namespace Tuwunel
namespace StateCache

open KeyValue

/-- One class of the membership indexes by the keys of its two columns. -/
structure ClassKeys where
  userroom : Finset (UserId × RoomId)
  roomuser : Finset (RoomId × UserId)

namespace ClassKeys

/-- No keys. -/
def empty : ClassKeys := ⟨∅, ∅⟩

/-- Both rows of `(user, room)` written. -/
def put (keys : ClassKeys) (user : UserId) (room : RoomId) : ClassKeys :=
  ⟨insert (user, room) keys.userroom, insert (room, user) keys.roomuser⟩

/-- Both rows of `(user, room)` deleted. -/
def del (keys : ClassKeys) (user : UserId) (room : RoomId) : ClassKeys :=
  ⟨keys.userroom.erase (user, room), keys.roomuser.erase (room, user)⟩

/-- What a `mark_as_*` transaction does to one class: write it if it is the marked class, delete
it otherwise. -/
def mark (keys : ClassKeys) (marked : Bool) (user : UserId) (room : RoomId) : ClassKeys :=
  if marked then keys.put user room else keys.del user room

/-- The deletes of one scan of `delete_room_join_counts`: each scanned room-major key, and the
user-major key it turns into. -/
def delScanned (keys : ClassKeys) (scanned : Finset (RoomId × UserId)) : ClassKeys :=
  ⟨keys.userroom \ scanned.image Prod.swap, keys.roomuser \ scanned⟩

/-- The two columns hold the same pairs. -/
def Paired (keys : ClassKeys) : Prop :=
  ∀ user room, (user, room) ∈ keys.userroom ↔ (room, user) ∈ keys.roomuser

variable {keys : ClassKeys}

theorem paired_empty : empty.Paired := by
  simp [Paired, empty]

theorem Paired.put (paired : keys.Paired) (user : UserId) (room : RoomId) :
    (keys.put user room).Paired := by
  intro other place
  simp [ClassKeys.put, paired other place, and_comm]

theorem Paired.del (paired : keys.Paired) (user : UserId) (room : RoomId) :
    (keys.del user room).Paired := by
  intro other place
  simp [ClassKeys.del, paired other place, and_comm]

theorem Paired.mark (paired : keys.Paired) (marked : Bool) (user : UserId) (room : RoomId) :
    (keys.mark marked user room).Paired := by
  cases marked
  · exact paired.del user room
  · exact paired.put user room

theorem Paired.delScanned (paired : keys.Paired) (scanned : Finset (RoomId × UserId)) :
    (keys.delScanned scanned).Paired := by
  intro user room
  simp [ClassKeys.delScanned, paired user room]

end ClassKeys

/-- The membership columns of the state cache by their keys, the counts of its rooms, and its
server index. -/
structure Cache where
  /-- Each class's `userroomid_*` and `roomuserid_*` columns. -/
  rows : Membership → ClassKeys
  roomuseroncejoinedids : Finset (UserId × RoomId)
  roomidJoinedcount : Table RoomId Nat
  roomidInvitedcount : Table RoomId Nat
  roomidKnockedcount : Table RoomId Nat
  roomserverids : Finset (RoomId × ServerName)
  serverroomids : Finset (ServerName × RoomId)

namespace Cache

/-- No rows. -/
def empty : Cache := ⟨fun _ => .empty, ∅, Table.empty, Table.empty, Table.empty, ∅, ∅⟩

/-- A `mark_as_*` transaction: the class's rows of `(user, room)` written, the other three
classes' rows deleted. -/
def markAs (cache : Cache) (marked : Membership) (user : UserId) (room : RoomId) : Cache :=
  { cache with rows := fun cls => (cache.rows cls).mark (marked = cls) user room }

/-- `mark_as_joined`. -/
def markAsJoined (cache : Cache) (user : UserId) (room : RoomId) : Cache :=
  cache.markAs .joined user room

/-- `mark_as_left`. -/
def markAsLeft (cache : Cache) (user : UserId) (room : RoomId) : Cache :=
  cache.markAs .left user room

/-- `mark_as_knocked`. -/
def markAsKnocked (cache : Cache) (user : UserId) (room : RoomId) : Cache :=
  cache.markAs .knocked user room

/-- `mark_as_invited`. -/
def markAsInvited (cache : Cache) (user : UserId) (room : RoomId) : Cache :=
  cache.markAs .invited user room

/-- `forget`: the left rows of `(user, room)` deleted. -/
def forget (cache : Cache) (room : RoomId) (user : UserId) : Cache :=
  { cache with
    rows := fun cls => if cls = .left then (cache.rows cls).del user room else cache.rows cls }

/-- `mark_as_once_joined`. -/
def markAsOnceJoined (cache : Cache) (user : UserId) (room : RoomId) : Cache :=
  { cache with roomuseroncejoinedids := insert (user, room) cache.roomuseroncejoinedids }

/-- `once_joined`. -/
def onceJoined (cache : Cache) (user : UserId) (room : RoomId) : Bool :=
  (user, room) ∈ cache.roomuseroncejoinedids

/-- The room-major keys of a class under the room's prefix: what `room_members`,
`room_members_invited` and `room_members_knocked` stream, and what `delete_room_join_counts`
scans. -/
def roomKeys (cache : Cache) (cls : Membership) (room : RoomId) : Finset (RoomId × UserId) :=
  (cache.rows cls).roomuser.filter (·.1 = room)

/-- `room_servers`. -/
def roomServers (cache : Cache) (room : RoomId) : Finset ServerName :=
  (cache.roomserverids.filter (·.1 = room)).image Prod.snd

/-- The `joined_servers` of `update_joined_count`: the servers of the room's joined members. -/
def joinedServers (cache : Cache) (room : RoomId) : Finset ServerName :=
  (cache.roomKeys .joined room).image fun key => key.2.serverName

/-- `update_joined_count`: the three counts of the room written, and the server index moved from
the servers it held for the room to the servers of the joined members. -/
def updateJoinedCount (cache : Cache) (room : RoomId) : Cache :=
  let joinedServers := cache.joinedServers room
  -- a server still joined is taken out of `joined_servers`; one no longer joined is deleted from
  -- both indexes; what is left of `joined_servers` is inserted into both
  let departed := cache.roomServers room \ joinedServers
  let arrived := joinedServers \ cache.roomServers room
  { cache with
    roomidJoinedcount := cache.roomidJoinedcount.put room (cache.roomKeys .joined room).card
    roomidInvitedcount := cache.roomidInvitedcount.put room (cache.roomKeys .invited room).card
    roomidKnockedcount := cache.roomidKnockedcount.put room (cache.roomKeys .knocked room).card
    roomserverids := (cache.roomserverids \ departed.image (room, ·)) ∪ arrived.image (room, ·)
    serverroomids := (cache.serverroomids \ departed.image (·, room)) ∪ arrived.image (·, room) }

/-- The room-major keys of a class that `delete_room_join_counts` deletes: all of the room's, but
the left rows of local users stay unless `force`. -/
def joinCountsDoomed (cache : Cache) (userIsLocal : UserId → Bool) (room : RoomId) (force : Bool) :
    Membership → Finset (RoomId × UserId)
  | .left => (cache.roomKeys .left room).filter fun key => force || !userIsLocal key.2
  | cls => cache.roomKeys cls room

/-- `delete_room_join_counts`, but for `roomid_inviteviaservers`. -/
def deleteRoomJoinCounts (cache : Cache) (userIsLocal : UserId → Bool) (room : RoomId)
    (force : Bool) : Cache :=
  let servers := cache.roomserverids.filter (·.1 = room)
  { cache with
    rows := fun cls => (cache.rows cls).delScanned (cache.joinCountsDoomed userIsLocal room force cls)
    roomidJoinedcount := cache.roomidJoinedcount.remove room
    roomidInvitedcount := cache.roomidInvitedcount.remove room
    roomidKnockedcount := cache.roomidKnockedcount.remove room
    roomserverids := cache.roomserverids \ servers
    serverroomids := cache.serverroomids \ servers.image Prod.swap }

/-- `handle_join`: whether it succeeds, and the cache after. -/
def handleJoin (cache : Cache) (room : RoomId) (user : UserId) (predecessorCopied : Bool) :
    Bool × Cache :=
  if !cache.onceJoined user room then
    let cache := cache.markAsOnceJoined user room
    if predecessorCopied then (true, cache.markAsJoined user room) else (false, cache)
  else (true, cache.markAsJoined user room)

/-- `handle_leave`. -/
def handleLeave (cache : Cache) (room : RoomId) (user : UserId) (forgetOnLeave : Bool) : Cache :=
  let cache := cache.markAsLeft user room
  if forgetOnLeave then cache.forget room user else cache

/-- `update_membership`: whether it succeeds, and the cache after.  The counts are rebuilt at the
end where `update_joined_count` asks for it; a failed lookup and an ignored invite return before. -/
def updateMembership (cache : Cache) (update : MembershipUpdate) (updateJoinedCount : Bool) :
    Bool × Cache :=
  let counted (cache : Cache) : Bool × Cache :=
    (true, if updateJoinedCount then cache.updateJoinedCount update.roomId else cache)
  if !update.remoteUserEnsured then (false, cache)
  else
    match update.membership with
    | .join =>
        match cache.handleJoin update.roomId update.userId update.predecessorCopied with
        | (true, cache) => counted cache
        | (false, cache) => (false, cache)
    | .invite =>
        if update.senderIgnored then (true, cache)
        else counted (cache.markAsInvited update.userId update.roomId)
    | .leave | .ban => counted (cache.handleLeave update.roomId update.userId update.forgetOnLeave)
    | .knock => counted (cache.markAsKnocked update.userId update.roomId)
    | .custom _ => counted cache

end Cache

/-- The calls that write the membership indexes. -/
inductive Call
  | updateMembership (update : MembershipUpdate) (updateJoinedCount : Bool)
  | forget (room : RoomId) (user : UserId)
  | deleteRoomJoinCounts (room : RoomId) (force : Bool)

namespace Cache

/-- One call. -/
def call (userIsLocal : UserId → Bool) (cache : Cache) : Call → Cache
  | .updateMembership update updateJoinedCount => (cache.updateMembership update updateJoinedCount).2
  | .forget room user => cache.forget room user
  | .deleteRoomJoinCounts room force => cache.deleteRoomJoinCounts userIsLocal room force

/-- The cache after the calls, from no rows. -/
def run (userIsLocal : UserId → Bool) (calls : List Call) : Cache :=
  calls.foldl (call userIsLocal) empty

/-- Whether the class holds `(user, room)`, by its user-major column. -/
def holds (cache : Cache) (cls : Membership) (user : UserId) (room : RoomId) : Prop :=
  (user, room) ∈ (cache.rows cls).userroom

/-- The invariant of the membership indexes. -/
structure Consistent (cache : Cache) : Prop where
  exclusive : ∀ user room cls other, cache.holds cls user room → cache.holds other user room →
    cls = other
  paired : ∀ cls, (cache.rows cls).Paired
  mirrored : ∀ room server,
    (room, server) ∈ cache.roomserverids ↔ (server, room) ∈ cache.serverroomids

/-! ## What each call does to the invariant -/

variable {cache : Cache}

theorem consistent_empty : empty.Consistent where
  exclusive := by simp [holds, empty, ClassKeys.empty]
  paired _ := ClassKeys.paired_empty
  mirrored := by simp [empty]

/-- A call that only deletes rows keeps them exclusive. -/
theorem Consistent.exclusive_of_holds {after : Cache} (consistent : cache.Consistent)
    (shrinks : ∀ cls user room, after.holds cls user room → cache.holds cls user room) :
    ∀ user room cls other, after.holds cls user room → after.holds other user room →
      cls = other :=
  fun user room cls other held other_held =>
    consistent.exclusive user room cls other (shrinks _ _ _ held) (shrinks _ _ _ other_held)

theorem holds_markAs (marked cls : Membership) (user other : UserId) (room place : RoomId) :
    (cache.markAs marked user room).holds cls other place ↔
      if (other, place) = (user, room) then marked = cls else cache.holds cls other place := by
  by_cases same : (other, place) = (user, room) <;> by_cases marks : marked = cls <;>
    simp [markAs, holds, ClassKeys.mark, ClassKeys.put, ClassKeys.del, same, marks]

theorem Consistent.markAs (consistent : cache.Consistent) (marked : Membership) (user : UserId)
    (room : RoomId) : (cache.markAs marked user room).Consistent where
  exclusive other place cls cls' held held' := by
    rw [holds_markAs] at held held'
    split_ifs at held held'
    · exact held.symm.trans held'
    · exact consistent.exclusive other place cls cls' held held'
  paired cls := (consistent.paired cls).mark _ user room
  mirrored := consistent.mirrored

theorem Consistent.forget (consistent : cache.Consistent) (room : RoomId) (user : UserId) :
    (cache.forget room user).Consistent where
  exclusive := consistent.exclusive_of_holds fun cls other place held => by
    by_cases left : cls = .left
    · subst left
      simp only [holds, Cache.forget, if_pos] at held
      exact (Finset.mem_erase.mp held).2
    · simpa [holds, Cache.forget, left] using held
  paired cls := by
    by_cases left : cls = .left
    · simpa [Cache.forget, left] using (consistent.paired cls).del user room
    · simpa [Cache.forget, left] using consistent.paired cls
  mirrored := consistent.mirrored

theorem Consistent.markAsOnceJoined (consistent : cache.Consistent) (user : UserId)
    (room : RoomId) : (cache.markAsOnceJoined user room).Consistent :=
  ⟨consistent.exclusive, consistent.paired, consistent.mirrored⟩

theorem Consistent.deleteRoomJoinCounts (consistent : cache.Consistent)
    (userIsLocal : UserId → Bool) (room : RoomId) (force : Bool) :
    (cache.deleteRoomJoinCounts userIsLocal room force).Consistent where
  exclusive := consistent.exclusive_of_holds fun cls user place held => by
    simp only [holds, Cache.deleteRoomJoinCounts, ClassKeys.delScanned, Finset.mem_sdiff] at held
    exact held.1
  paired cls := (consistent.paired cls).delScanned _
  mirrored other server := by
    -- the scan deletes the room's server rows of both indexes, by the keys of `roomserverids`
    simp [Cache.deleteRoomJoinCounts, consistent.mirrored other server]

/-! ## `update_joined_count` -/

theorem mem_roomServers {room : RoomId} {server : ServerName} :
    server ∈ cache.roomServers room ↔ (room, server) ∈ cache.roomserverids := by
  simp [roomServers]

/-- `update_joined_count` leaves the room with the servers of its joined members in
`roomserverids`, whatever the index held for it. -/
theorem mem_roomserverids_updateJoinedCount (room other : RoomId) (server : ServerName) :
    (other, server) ∈ (cache.updateJoinedCount room).roomserverids ↔
      if other = room then server ∈ cache.joinedServers room
      else (other, server) ∈ cache.roomserverids := by
  by_cases same : other = room
  · subst same
    by_cases joined : server ∈ cache.joinedServers other <;>
      simp [updateJoinedCount, ← mem_roomServers, joined, em]
  · simp [updateJoinedCount, same, Ne.symm same]

/-- `serverroomids` is written by the diff taken on `roomserverids`, which is only right for it
where it mirrors `roomserverids`. -/
theorem mem_serverroomids_updateJoinedCount (consistent : cache.Consistent) (room other : RoomId)
    (server : ServerName) :
    (server, other) ∈ (cache.updateJoinedCount room).serverroomids ↔
      if other = room then server ∈ cache.joinedServers room
      else (server, other) ∈ cache.serverroomids := by
  by_cases same : other = room
  · subst same
    have old : (server, other) ∈ cache.serverroomids ↔ server ∈ cache.roomServers other := by
      rw [mem_roomServers, consistent.mirrored]
    by_cases joined : server ∈ cache.joinedServers other <;>
      simp [updateJoinedCount, old, joined, em]
  · simp [updateJoinedCount, same, Ne.symm same]

theorem Consistent.updateJoinedCount (consistent : cache.Consistent) (room : RoomId) :
    (cache.updateJoinedCount room).Consistent where
  exclusive := consistent.exclusive
  paired := consistent.paired
  mirrored other server := by
    rw [mem_roomserverids_updateJoinedCount, mem_serverroomids_updateJoinedCount consistent]
    split_ifs
    · rfl
    · exact consistent.mirrored other server

/-! ## Along a run -/

theorem Consistent.handleJoin (consistent : cache.Consistent) (room : RoomId) (user : UserId)
    (predecessorCopied : Bool) : (cache.handleJoin room user predecessorCopied).2.Consistent := by
  have onceJoined := consistent.markAsOnceJoined user room
  unfold Cache.handleJoin
  split_ifs
  · exact onceJoined.markAs .joined user room
  · exact onceJoined
  · exact consistent.markAs .joined user room

theorem Consistent.handleLeave (consistent : cache.Consistent) (room : RoomId) (user : UserId)
    (forgetOnLeave : Bool) : (cache.handleLeave room user forgetOnLeave).Consistent := by
  have left := consistent.markAs .left user room
  unfold Cache.handleLeave
  split_ifs
  · exact left.forget room user
  · exact left

theorem Consistent.updateMembership (consistent : cache.Consistent) (update : MembershipUpdate)
    (updateJoinedCount : Bool) :
    (cache.updateMembership update updateJoinedCount).2.Consistent := by
  -- what the counts step leaves behind is consistent whenever what it starts from is
  have counted : ∀ {cache : Cache}, cache.Consistent →
      (if updateJoinedCount then cache.updateJoinedCount update.roomId else cache).Consistent := by
    intro cache consistent
    split_ifs
    · exact consistent.updateJoinedCount update.roomId
    · exact consistent
  unfold Cache.updateMembership
  dsimp only
  split
  · exact consistent
  · split
    · have joined := consistent.handleJoin update.roomId update.userId update.predecessorCopied
      split <;> rename_i result <;> rw [result] at joined
      · exact counted joined
      · exact joined
    · split
      · exact consistent
      · exact counted (consistent.markAs .invited update.userId update.roomId)
    · exact counted (consistent.handleLeave update.roomId update.userId update.forgetOnLeave)
    · exact counted (consistent.handleLeave update.roomId update.userId update.forgetOnLeave)
    · exact counted (consistent.markAs .knocked update.userId update.roomId)
    · exact counted consistent

theorem Consistent.call (consistent : cache.Consistent) (userIsLocal : UserId → Bool)
    (call : Call) : (cache.call userIsLocal call).Consistent := by
  cases call with
  | updateMembership update updateJoinedCount =>
      exact consistent.updateMembership update updateJoinedCount
  | forget room user => exact consistent.forget room user
  | deleteRoomJoinCounts room force => exact consistent.deleteRoomJoinCounts userIsLocal room force

/-- Every run from no rows keeps the indexes consistent: the induction is on the calls, from any
consistent cache, and `Consistent.call` is its step. -/
theorem consistent_run (userIsLocal : UserId → Bool) (calls : List Call) :
    (run userIsLocal calls).Consistent := by
  suffices along : ∀ (cache : Cache), cache.Consistent →
      (calls.foldl (call userIsLocal) cache).Consistent from
    along empty consistent_empty
  induction calls with
  | nil => exact fun _ consistent => consistent
  | cons first rest induction =>
      intro cache consistent
      exact induction _ (consistent.call userIsLocal first)

/-! ## The counts -/

/-- The users a class holds in the room, by its user-major column. -/
def members (cache : Cache) (cls : Membership) (room : RoomId) : Finset UserId :=
  ((cache.rows cls).userroom.filter (·.2 = room)).image Prod.fst

/-- What `update_joined_count` is for: the room's counts are the numbers of its joined, invited and
knocked users, and both server indexes hold exactly the servers of its joined users. -/
structure Counted (cache : Cache) (room : RoomId) : Prop where
  joinedcount : cache.roomidJoinedcount.get room = some (cache.members .joined room).card
  invitedcount : cache.roomidInvitedcount.get room = some (cache.members .invited room).card
  knockedcount : cache.roomidKnockedcount.get room = some (cache.members .knocked room).card
  roomserverids : ∀ server, (room, server) ∈ cache.roomserverids ↔
    server ∈ (cache.members .joined room).image UserId.serverName
  serverroomids : ∀ server, (server, room) ∈ cache.serverroomids ↔
    server ∈ (cache.members .joined room).image UserId.serverName

@[simp]
theorem members_updateJoinedCount (room : RoomId) :
    (cache.updateJoinedCount room).members = cache.members :=
  rfl

/-- Where a class's columns are paired, its room-major keys under the room's prefix are the room
with each of the users it holds there. -/
theorem roomKeys_eq_image {cls : Membership} (paired : (cache.rows cls).Paired) (room : RoomId) :
    cache.roomKeys cls room = (cache.members cls room).image (room, ·) := by
  ext ⟨place, user⟩
  simp only [roomKeys, members, Finset.mem_filter, Finset.mem_image, Prod.exists, exists_and_right,
    exists_eq_right, Prod.mk.injEq]
  constructor
  · rintro ⟨mem, rfl⟩
    exact ⟨user, (paired user _).mpr mem, rfl, rfl⟩
  · rintro ⟨other, mem, rfl, rfl⟩
    exact ⟨(paired other _).mp mem, rfl⟩

theorem card_roomKeys {cls : Membership} (paired : (cache.rows cls).Paired) (room : RoomId) :
    (cache.roomKeys cls room).card = (cache.members cls room).card := by
  rw [roomKeys_eq_image paired, Finset.card_image_of_injective _ (Prod.mk_right_injective room)]

theorem joinedServers_eq (paired : (cache.rows .joined).Paired) (room : RoomId) :
    cache.joinedServers room = (cache.members .joined room).image UserId.serverName := by
  rw [joinedServers, roomKeys_eq_image paired, Finset.image_image]
  rfl

/-- From a consistent cache, `update_joined_count` leaves the room counted. -/
theorem counted_updateJoinedCount (consistent : cache.Consistent) (room : RoomId) :
    (cache.updateJoinedCount room).Counted room where
  joinedcount := by
    rw [members_updateJoinedCount]
    simp [updateJoinedCount, card_roomKeys (consistent.paired .joined)]
  invitedcount := by
    rw [members_updateJoinedCount]
    simp [updateJoinedCount, card_roomKeys (consistent.paired .invited)]
  knockedcount := by
    rw [members_updateJoinedCount]
    simp [updateJoinedCount, card_roomKeys (consistent.paired .knocked)]
  roomserverids server := by
    rw [mem_roomserverids_updateJoinedCount, if_pos rfl, joinedServers_eq (consistent.paired _),
      members_updateJoinedCount]
  serverroomids server := by
    rw [mem_serverroomids_updateJoinedCount consistent, if_pos rfl,
      joinedServers_eq (consistent.paired _), members_updateJoinedCount]

/-- With `update_joined_count` set, a call that gets through its membership transaction ends with
`update_joined_count` of its room, on what the call leaves without it. -/
theorem updateMembership_counts (update : MembershipUpdate)
    (succeeded : (cache.updateMembership update false).1 = true)
    (notIgnored : ¬(update.membership = .invite ∧ update.senderIgnored = true)) :
    (cache.updateMembership update true).2 =
      (cache.updateMembership update false).2.updateJoinedCount update.roomId := by
  unfold Cache.updateMembership at succeeded ⊢
  cases ensured : update.remoteUserEnsured
  · simp [ensured] at succeeded
  · cases membership : update.membership with
    | join =>
        -- a join that gets through has its `handle_join` succeed
        simp only [ensured, membership] at succeeded ⊢
        cases joined : cache.handleJoin update.roomId update.userId update.predecessorCopied with
        | mk joinSucceeded after => cases joinSucceeded <;> simp_all
    | invite =>
        have listened : update.senderIgnored = false := by simpa [membership] using notIgnored
        simp [listened]
    | leave => rfl
    | ban => rfl
    | knock => rfl
    | custom value => rfl

end Cache

/-! ## The key sets of the rows of `Indexes` -/

/-- The key sets are the keys of the rows. -/
structure ClassKeys.Tracks (keys : ClassKeys) (rows : IndexRows) : Prop where
  userroom : ∀ key, key ∈ keys.userroom ↔ rows.userroom.contains key
  roomuser : ∀ key, key ∈ keys.roomuser ↔ rows.roomuser.contains key

namespace ClassKeys

variable {keys : ClassKeys} {rows : IndexRows}

theorem Tracks.put (tracks : keys.Tracks rows) (user : UserId) (room : RoomId) (count : PduCount) :
    (keys.put user room).Tracks (rows.put user room count) where
  userroom key := by
    by_cases same : key = (user, room)
    · simp [ClassKeys.put, IndexRows.put, Table.contains, same]
    · simp [ClassKeys.put, IndexRows.put, Table.contains, same, tracks.userroom key]
  roomuser key := by
    by_cases same : key = (room, user)
    · simp [ClassKeys.put, IndexRows.put, Table.contains, same]
    · simp [ClassKeys.put, IndexRows.put, Table.contains, same, tracks.roomuser key]

theorem Tracks.del (tracks : keys.Tracks rows) (user : UserId) (room : RoomId) :
    (keys.del user room).Tracks (rows.del user room) where
  userroom key := by
    by_cases same : key = (user, room)
    · simp [ClassKeys.del, IndexRows.del, Table.contains, same]
    · simp [ClassKeys.del, IndexRows.del, Table.contains, same, tracks.userroom key]
  roomuser key := by
    by_cases same : key = (room, user)
    · simp [ClassKeys.del, IndexRows.del, Table.contains, same]
    · simp [ClassKeys.del, IndexRows.del, Table.contains, same, tracks.roomuser key]

theorem Tracks.mark (tracks : keys.Tracks rows) (marked : Bool) (user : UserId) (room : RoomId)
    (count : PduCount) : (keys.mark marked user room).Tracks (rows.mark marked user room count) := by
  cases marked
  · exact tracks.del user room
  · exact tracks.put user room count

end ClassKeys

theorem Indexes.rows_markAs (indexes : Indexes) (marked cls : Membership) (user : UserId)
    (room : RoomId) (count : PduCount) :
    (indexes.markAs marked user room count).rows cls =
      (indexes.rows cls).mark (marked = cls) user room count := by
  cases cls <;> rfl

theorem Indexes.rows_forget (indexes : Indexes) (cls : Membership) (room : RoomId) (user : UserId) :
    (indexes.forget room user).rows cls =
      if cls = .left then (indexes.rows cls).del user room else indexes.rows cls := by
  cases cls <;> rfl

namespace Cache

/-- The cache's key sets are the keys of the rows of `indexes`, and it knows the same users once
joined. -/
structure Tracks (cache : Cache) (indexes : Indexes) : Prop where
  rows : ∀ cls, (cache.rows cls).Tracks (indexes.rows cls)
  onceJoined : ∀ user room, cache.onceJoined user room = indexes.onceJoined user room

variable {cache : Cache} {indexes : Indexes}

theorem Tracks.markAs (tracks : cache.Tracks indexes) (marked : Membership) (user : UserId)
    (room : RoomId) (count : PduCount) :
    (cache.markAs marked user room).Tracks (indexes.markAs marked user room count) where
  rows cls := by
    rw [Indexes.rows_markAs]
    exact (tracks.rows cls).mark _ user room count
  onceJoined := tracks.onceJoined

theorem Tracks.forget (tracks : cache.Tracks indexes) (room : RoomId) (user : UserId) :
    (cache.forget room user).Tracks (indexes.forget room user) where
  rows cls := by
    rw [Indexes.rows_forget]
    by_cases left : cls = .left
    · simpa [Cache.forget, left] using (tracks.rows cls).del user room
    · simpa [Cache.forget, left] using tracks.rows cls
  onceJoined := tracks.onceJoined

theorem Tracks.markAsOnceJoined (tracks : cache.Tracks indexes) (user : UserId) (room : RoomId) :
    (cache.markAsOnceJoined user room).Tracks (indexes.markAsOnceJoined user room) where
  rows := tracks.rows
  onceJoined other place := by
    have before := tracks.onceJoined other place
    by_cases same : (other, place) = (user, room)
    · simp [Cache.markAsOnceJoined, Cache.onceJoined, Indexes.markAsOnceJoined,
        Indexes.onceJoined, Table.contains, same]
    · simp only [Cache.onceJoined, Indexes.onceJoined, Table.contains] at before
      simp [Cache.markAsOnceJoined, Cache.onceJoined, Indexes.markAsOnceJoined,
        Indexes.onceJoined, Table.contains, same, before]

theorem Tracks.updateJoinedCount (tracks : cache.Tracks indexes) (room : RoomId) :
    (cache.updateJoinedCount room).Tracks indexes :=
  ⟨tracks.rows, tracks.onceJoined⟩

theorem Tracks.handleJoin (tracks : cache.Tracks indexes) (room : RoomId) (user : UserId)
    (count : PduCount) (predecessorCopied : Bool) :
    (cache.handleJoin room user predecessorCopied).1 =
        (StateCache.handleJoin indexes room user count predecessorCopied).1 ∧
      (cache.handleJoin room user predecessorCopied).2.Tracks
        (StateCache.handleJoin indexes room user count predecessorCopied).2 := by
  have marked := tracks.markAsOnceJoined user room
  -- both sides test the same once-joined row
  unfold Cache.handleJoin StateCache.handleJoin
  rw [tracks.onceJoined user room]
  split_ifs
  · exact ⟨rfl, marked.markAs .joined user room count⟩
  · exact ⟨rfl, marked⟩
  · exact ⟨rfl, tracks.markAs .joined user room count⟩

theorem Tracks.handleLeave (tracks : cache.Tracks indexes) (room : RoomId) (user : UserId)
    (count : PduCount) (forgetOnLeave : Bool) :
    (cache.handleLeave room user forgetOnLeave).Tracks
      (StateCache.handleLeave indexes room user count forgetOnLeave) := by
  have left := tracks.markAs .left user room count
  unfold Cache.handleLeave StateCache.handleLeave
  split_ifs
  · exact left.forget room user
  · exact left

/-- `update_membership` moves the key sets as it moves the rows of `Indexes`, and succeeds alike;
the counts it may rebuild are not rows of `Indexes`. -/
theorem Tracks.updateMembership (tracks : cache.Tracks indexes) (update : MembershipUpdate)
    (updateJoinedCount : Bool) :
    (cache.updateMembership update updateJoinedCount).1 =
        (StateCache.updateMembership indexes update).1 ∧
      (cache.updateMembership update updateJoinedCount).2.Tracks
        (StateCache.updateMembership indexes update).2 := by
  have counted : ∀ {cache : Cache} {indexes : Indexes}, cache.Tracks indexes →
      (if updateJoinedCount then cache.updateJoinedCount update.roomId else cache).Tracks
        indexes := by
    intro cache indexes tracks
    split_ifs
    · exact tracks.updateJoinedCount update.roomId
    · exact tracks
  unfold Cache.updateMembership StateCache.updateMembership
  cases ensured : update.remoteUserEnsured
  · exact ⟨rfl, tracks⟩
  · cases membership : update.membership with
    | join =>
        obtain ⟨same, joined⟩ :=
          tracks.handleJoin update.roomId update.userId update.count update.predecessorCopied
        simp only [Bool.not_true, Bool.false_eq_true, ↓reduceIte]
        revert same joined
        cases cache.handleJoin update.roomId update.userId update.predecessorCopied with
        | mk succeeded after =>
        cases StateCache.handleJoin indexes update.roomId update.userId update.count
          update.predecessorCopied with
        | mk succeeded' after' =>
        rintro (rfl : succeeded = succeeded') joined
        cases succeeded
        · exact ⟨rfl, joined⟩
        · exact ⟨rfl, counted joined⟩
    | invite =>
        cases ignored : update.senderIgnored
        · exact ⟨rfl, counted (tracks.markAs .invited update.userId update.roomId update.count)⟩
        · exact ⟨rfl, tracks⟩
    | leave =>
        exact ⟨rfl, counted (tracks.handleLeave update.roomId update.userId update.count
          update.forgetOnLeave)⟩
    | ban =>
        exact ⟨rfl, counted (tracks.handleLeave update.roomId update.userId update.count
          update.forgetOnLeave)⟩
    | knock => exact ⟨rfl, counted (tracks.markAs .knocked update.userId update.roomId update.count)⟩
    | custom value => exact ⟨rfl, counted tracks⟩

theorem tracks_empty : empty.Tracks Indexes.empty where
  rows cls := by
    cases cls <;> exact ⟨by simp [empty, ClassKeys.empty, Indexes.rows, Indexes.empty,
      IndexRows.empty, Table.contains], by simp [empty, ClassKeys.empty, Indexes.rows,
      Indexes.empty, IndexRows.empty, Table.contains]⟩
  onceJoined := by simp [empty, onceJoined, Indexes.onceJoined, Indexes.empty, Table.contains]

end Cache

/-- From no rows, along any calls of `update_membership`, `forget` and `delete_room_join_counts`:
no (user, room) is in two classes, each class's user-major and room-major columns hold the same
pairs, and an `update_joined_count` of a room leaves its counts and both server indexes exact. -/
theorem membership_indexes_consistent (userIsLocal : UserId → Bool) (calls : List Call) :
    (∀ user room cls other, (Cache.run userIsLocal calls).holds cls user room →
      (Cache.run userIsLocal calls).holds other user room → cls = other) ∧
    (∀ cls user room, (user, room) ∈ ((Cache.run userIsLocal calls).rows cls).userroom ↔
      (room, user) ∈ ((Cache.run userIsLocal calls).rows cls).roomuser) ∧
    ∀ room, ((Cache.run userIsLocal calls).updateJoinedCount room).Counted room := by
  have consistent := Cache.consistent_run userIsLocal calls
  exact ⟨consistent.exclusive, consistent.paired, Cache.counted_updateJoinedCount consistent⟩

end StateCache
end Tuwunel
