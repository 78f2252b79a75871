import Mathlib
import Tuwunel.Library.KeyValue
import Tuwunel.Core.Identifiers

/-!
# Membership indexes

`update_membership` keeps four classes of membership rows per (user, room): joined, invited, left
and knocked, each a user-major row (`userroomid_*`) and a room-major row holding the membership
event's count (`roomuserid_*count`).  Each `mark_as_*` transaction writes its class's two rows and
deletes the other classes' rows; `roomuseroncejoinedids` records a first join and is never
cleared.

Along a room timeline whose membership events all go through `update_membership`, a user's rows
follow that user's latest membership event (`ofTimeline_rows`): the joined row exists when it is a
join, the left count is its count when it is a leave or a ban, and the once-joined row exists when
the user ever joined.  An invite or knock deletes the left count; a ban after a leave overwrites
it.
-/

namespace Tuwunel
namespace StateCache

open KeyValue

/-- `MembershipState`, with ruma's catch-all for values it does not know. -/
inductive MembershipState
  | ban
  | invite
  | join
  | knock
  | leave
  | custom (value : String)
  deriving DecidableEq, Repr

/-- `MembershipState::as_str`, which its `Display` prints. -/
def MembershipState.asStr : MembershipState → String
  | .ban => "ban"
  | .invite => "invite"
  | .join => "join"
  | .knock => "knock"
  | .leave => "leave"
  | .custom value => value

/-- One class of the membership indexes: its user-major rows and its room-major count rows. -/
structure IndexRows where
  userroom : Table (UserId × RoomId) Unit
  roomuser : Table (RoomId × UserId) PduCount

/-- The four membership classes. -/
inductive Membership
  | joined
  | invited
  | left
  | knocked
  deriving DecidableEq, Repr

/-- The membership indexes of the state cache. -/
structure Indexes where
  /-- `userroomid_joinedcount` and `roomuserid_joinedcount`. -/
  joined : IndexRows
  /-- `userroomid_invitestate` and `roomuserid_invitecount`. -/
  invited : IndexRows
  /-- `userroomid_leftstate` and `roomuserid_leftcount`. -/
  left : IndexRows
  /-- `userroomid_knockedstate` and `roomuserid_knockedcount`. -/
  knocked : IndexRows
  roomuseroncejoinedids : Table (UserId × RoomId) Unit

namespace IndexRows

/-- No rows. -/
def empty : IndexRows := ⟨Table.empty, Table.empty⟩

/-- Both rows of `(user, room)` written, the count in the room-major one. -/
def put (rows : IndexRows) (user : UserId) (room : RoomId) (count : PduCount) : IndexRows :=
  ⟨rows.userroom.put (user, room) (), rows.roomuser.put (room, user) count⟩

/-- Both rows of `(user, room)` deleted. -/
def del (rows : IndexRows) (user : UserId) (room : RoomId) : IndexRows :=
  ⟨rows.userroom.remove (user, room), rows.roomuser.remove (room, user)⟩

/-- What a `mark_as_*` transaction does to one class: write it if it is the marked class, delete
it otherwise. -/
def mark (rows : IndexRows) (marked : Bool) (user : UserId) (room : RoomId) (count : PduCount) :
    IndexRows :=
  if marked then rows.put user room count else rows.del user room

end IndexRows

namespace Indexes

/-- No rows. -/
def empty : Indexes := ⟨.empty, .empty, .empty, .empty, Table.empty⟩

/-- The rows of a class. -/
def rows (indexes : Indexes) : Membership → IndexRows
  | .joined => indexes.joined
  | .invited => indexes.invited
  | .left => indexes.left
  | .knocked => indexes.knocked

/-- A `mark_as_*` transaction: the class's rows of `(user, room)` written, the other three
classes' rows deleted. -/
def markAs (indexes : Indexes) (marked : Membership) (user : UserId) (room : RoomId)
    (count : PduCount) : Indexes :=
  { indexes with
    joined := indexes.joined.mark (marked = .joined) user room count
    invited := indexes.invited.mark (marked = .invited) user room count
    left := indexes.left.mark (marked = .left) user room count
    knocked := indexes.knocked.mark (marked = .knocked) user room count }

/-- `mark_as_joined`. -/
def markAsJoined (indexes : Indexes) (user : UserId) (room : RoomId) (count : PduCount) :
    Indexes :=
  indexes.markAs .joined user room count

/-- `mark_as_left`. -/
def markAsLeft (indexes : Indexes) (user : UserId) (room : RoomId) (count : PduCount) :
    Indexes :=
  indexes.markAs .left user room count

/-- `mark_as_knocked`. -/
def markAsKnocked (indexes : Indexes) (user : UserId) (room : RoomId) (count : PduCount) :
    Indexes :=
  indexes.markAs .knocked user room count

/-- `mark_as_invited`. -/
def markAsInvited (indexes : Indexes) (user : UserId) (room : RoomId) (count : PduCount) :
    Indexes :=
  indexes.markAs .invited user room count

/-- `forget`: the left rows of `(user, room)` deleted. -/
def forget (indexes : Indexes) (room : RoomId) (user : UserId) : Indexes :=
  { indexes with left := indexes.left.del user room }

/-- `mark_as_once_joined`. -/
def markAsOnceJoined (indexes : Indexes) (user : UserId) (room : RoomId) : Indexes :=
  { indexes with roomuseroncejoinedids := indexes.roomuseroncejoinedids.put (user, room) () }

/-- `is_joined`. -/
def isJoined (indexes : Indexes) (user : UserId) (room : RoomId) : Bool :=
  indexes.joined.userroom.contains (user, room)

/-- `once_joined`. -/
def onceJoined (indexes : Indexes) (user : UserId) (room : RoomId) : Bool :=
  indexes.roomuseroncejoinedids.contains (user, room)

/-- `get_left_count`. -/
def getLeftCount (indexes : Indexes) (room : RoomId) (user : UserId) : Option PduCount :=
  indexes.left.roomuser.get (room, user)

end Indexes

/-- A call of `update_membership`, with the answers of the lookups it makes. -/
structure MembershipUpdate where
  roomId : RoomId
  userId : UserId
  membership : MembershipState
  count : PduCount
  /-- Whether `ensure_remote_user` succeeds. -/
  remoteUserEnsured : Bool
  /-- `user_is_ignored(sender, user_id)`. -/
  senderIgnored : Bool
  /-- Whether `copy_predecessor_data` succeeds. -/
  predecessorCopied : Bool
  /-- Whether `handle_leave` forgets: a local user, with forgetting forced or the room banned or
  disabled. -/
  forgetOnLeave : Bool

/-- `handle_join`: whether it succeeds, and the indexes after.  A first join marks the user once
joined before copying the predecessor's data, whose failure skips the join. -/
def handleJoin (indexes : Indexes) (room : RoomId) (user : UserId) (count : PduCount)
    (predecessorCopied : Bool) : Bool × Indexes :=
  if !indexes.onceJoined user room then
    let indexes := indexes.markAsOnceJoined user room
    if predecessorCopied then (true, indexes.markAsJoined user room count) else (false, indexes)
  else (true, indexes.markAsJoined user room count)

/-- `handle_leave`. -/
def handleLeave (indexes : Indexes) (room : RoomId) (user : UserId) (count : PduCount)
    (forgetOnLeave : Bool) : Indexes :=
  let indexes := indexes.markAsLeft user room count
  if forgetOnLeave then indexes.forget room user else indexes

/-- `update_membership`: whether it succeeds, and the indexes after. -/
def updateMembership (indexes : Indexes) (update : MembershipUpdate) : Bool × Indexes :=
  if !update.remoteUserEnsured then (false, indexes)
  else
    match update.membership with
    | .join => handleJoin indexes update.roomId update.userId update.count update.predecessorCopied
    | .invite =>
        if update.senderIgnored then (true, indexes)
        else (true, indexes.markAsInvited update.userId update.roomId update.count)
    | .leave | .ban =>
        (true, handleLeave indexes update.roomId update.userId update.count update.forgetOnLeave)
    | .knock => (true, indexes.markAsKnocked update.userId update.roomId update.count)
    | .custom _ => (true, indexes)

/-! ## One user's rows -/

/-- The rows `user_shared_history` reads for one (user, room): the joined row, the left count and
the once-joined row. -/
structure RowView where
  joined : Bool
  leftCount : Option PduCount
  onceJoined : Bool
  deriving DecidableEq, Repr

/-- What one membership event of the user does to the rows, where the lookups succeed, the sender
is not ignored and nothing is forgotten. -/
def RowView.apply (view : RowView) : MembershipState → PduCount → RowView
  | .join, _ => ⟨true, none, true⟩
  | .invite, _ => ⟨false, none, view.onceJoined⟩
  | .knock, _ => ⟨false, none, view.onceJoined⟩
  | .leave, count => ⟨false, some count, view.onceJoined⟩
  | .ban, count => ⟨false, some count, view.onceJoined⟩
  | .custom _, _ => view

namespace Indexes

/-- The rows of `(user, room)` that `user_shared_history` reads. -/
def view (indexes : Indexes) (user : UserId) (room : RoomId) : RowView :=
  ⟨indexes.isJoined user room, indexes.getLeftCount room user, indexes.onceJoined user room⟩

variable (indexes : Indexes) {user other : UserId} {room place : RoomId} (count : PduCount)

@[simp]
theorem view_onceJoined (user : UserId) (room : RoomId) :
    (indexes.view user room).onceJoined = indexes.onceJoined user room :=
  rfl

/-- A mark writes only the rows of its own (user, room). -/
theorem view_markAs_of_ne (marked : Membership) (distinct : (other, place) ≠ (user, room)) :
    (indexes.markAs marked user room count).view other place = indexes.view other place := by
  have swapped : (place, other) ≠ (room, user) := by
    intro same
    simp only [Prod.mk.injEq] at same
    exact distinct (by rw [same.1, same.2])
  simp only [view, markAs, isJoined, getLeftCount, onceJoined, IndexRows.mark]
  congr 1 <;> split_ifs <;>
    simp [IndexRows.put, IndexRows.del, Table.contains, distinct, swapped]

theorem view_markAs_self (marked : Membership) :
    (indexes.markAs marked user room count).view user room =
      ⟨decide (marked = .joined), if marked = .left then some count else none,
        indexes.onceJoined user room⟩ := by
  simp only [view, markAs, isJoined, getLeftCount, onceJoined, IndexRows.mark]
  congr 1 <;> split_ifs <;> simp_all [IndexRows.put, IndexRows.del, Table.contains]

theorem onceJoined_markAsOnceJoined_self (user : UserId) (room : RoomId) :
    (indexes.markAsOnceJoined user room).onceJoined user room = true := by
  simp [markAsOnceJoined, onceJoined, Table.contains]

theorem view_markAsOnceJoined_of_ne (distinct : (other, place) ≠ (user, room)) :
    (indexes.markAsOnceJoined user room).view other place = indexes.view other place := by
  simp [view, markAsOnceJoined, onceJoined, isJoined, getLeftCount, Table.contains, distinct]

end Indexes

/-- An update whose lookups succeed, whose sender is not ignored, and that forgets nothing. -/
structure MembershipUpdate.Succeeds (update : MembershipUpdate) : Prop where
  remoteUserEnsured : update.remoteUserEnsured = true
  senderIgnored : update.senderIgnored = false
  predecessorCopied : update.predecessorCopied = true
  forgetOnLeave : update.forgetOnLeave = false

/-- A succeeding update moves its own user's rows by `RowView.apply` and leaves every other
user's rows as they were. -/
theorem view_updateMembership {update : MembershipUpdate} (succeeds : update.Succeeds)
    (indexes : Indexes) (user : UserId) (room : RoomId) :
    (updateMembership indexes update).2.view user room =
      if (user, room) = (update.userId, update.roomId) then
        (indexes.view user room).apply update.membership update.count
      else indexes.view user room := by
  obtain ⟨ensured, notIgnored, copied, kept⟩ := succeeds
  split_ifs with same
  · simp only [Prod.mk.injEq] at same
    obtain ⟨rfl, rfl⟩ := same
    cases membership : update.membership with
    | join =>
        -- a first join also marks the user once joined
        by_cases first : indexes.onceJoined update.userId update.roomId
        · simp [updateMembership, membership, ensured, handleJoin, first, Indexes.markAsJoined,
            Indexes.view_markAs_self, RowView.apply]
        · simp [updateMembership, membership, ensured, copied, handleJoin, first,
            Indexes.markAsJoined, Indexes.view_markAs_self, Indexes.onceJoined_markAsOnceJoined_self,
            RowView.apply]
    | invite =>
        simp [updateMembership, membership, ensured, notIgnored, Indexes.markAsInvited,
          Indexes.view_markAs_self, RowView.apply]
    | knock =>
        simp [updateMembership, membership, ensured, Indexes.markAsKnocked,
          Indexes.view_markAs_self, RowView.apply]
    | leave =>
        simp [updateMembership, membership, ensured, kept, handleLeave, Indexes.markAsLeft,
          Indexes.view_markAs_self, RowView.apply]
    | ban =>
        simp [updateMembership, membership, ensured, kept, handleLeave, Indexes.markAsLeft,
          Indexes.view_markAs_self, RowView.apply]
    | custom value => simp [updateMembership, membership, ensured, RowView.apply]
  · -- every write of the update is at its own (user, room)
    have frame := fun (indexes : Indexes) (marked : Membership) (count : PduCount) =>
      Indexes.view_markAs_of_ne indexes count marked same
    cases membership : update.membership <;>
      simp [updateMembership, membership, ensured, notIgnored, kept, handleJoin, handleLeave,
        Indexes.markAsJoined, Indexes.markAsLeft, Indexes.markAsInvited, Indexes.markAsKnocked,
        frame]
    -- only the join branch is left, with its first-join test
    split_ifs <;> simp [frame, Indexes.view_markAsOnceJoined_of_ne _ same]

/-! ## Along a timeline -/

/-- A user's membership events in a room with their counts, oldest first. -/
abbrev History := List (MembershipState × PduCount)

/-- Whether ruma does not know the membership value. -/
def MembershipState.isCustom : MembershipState → Bool
  | .custom _ => true
  | _ => false

/-- The user's latest membership event of a known membership. -/
def latestMembership (history : History) : Option (MembershipState × PduCount) :=
  (history.filter fun entry => !entry.1.isCustom).getLast?

/-- The count of a leave or a ban. -/
def departureCount : Option (MembershipState × PduCount) → Option PduCount
  | some (.leave, count) => some count
  | some (.ban, count) => some count
  | _ => none

/-- Whether the user ever joined. -/
def everJoined (history : History) : Bool :=
  history.any fun entry => entry.1 == .join

/-- The rows a history calls for: joined when the latest membership is a join, the count of a
latest leave or ban, and once joined when the user ever joined. -/
def historyView (history : History) : RowView :=
  ⟨(latestMembership history).any (·.1 == .join), departureCount (latestMembership history),
    everJoined history⟩

/-- One more membership event moves the called-for rows as `update_membership` moves the rows. -/
theorem historyView_concat (history : History) (membership : MembershipState) (count : PduCount) :
    historyView (history ++ [(membership, count)]) = (historyView history).apply membership count := by
  cases membership <;>
    simp [historyView, latestMembership, everJoined, departureCount, RowView.apply,
      MembershipState.isCustom, List.filter_append]

/-- A room timeline event as the membership indexes see it: its count, and for a membership event
its target and membership. -/
structure TimelineEvent where
  count : PduCount
  member : Option (UserId × MembershipState)

/-- The `update_membership` call for a membership event, with the lookups succeeding, the sender
not ignored and nothing forgotten. -/
def TimelineEvent.update (room : RoomId) (event : TimelineEvent) : Option MembershipUpdate :=
  event.member.map fun member => ⟨room, member.1, member.2, event.count, true, false, true, false⟩

/-- The indexes after `update_membership` ran for each membership event of the room's timeline, in
timeline order. -/
def Indexes.ofTimeline (room : RoomId) (timeline : List TimelineEvent) : Indexes :=
  timeline.foldl (fun indexes event =>
    ((event.update room).map fun update => (updateMembership indexes update).2).getD indexes)
    Indexes.empty

/-- The user's membership events along the timeline. -/
def membershipHistory (user : UserId) (timeline : List TimelineEvent) : History :=
  timeline.filterMap fun event =>
    event.member.bind fun member => if member.1 = user then some (member.2, event.count) else none

/-- Along any timeline, a user's rows are the rows the user's membership history calls for: the
induction adds one event at a time, and `view_updateMembership` is its step. -/
theorem view_ofTimeline (room : RoomId) (timeline : List TimelineEvent) (user : UserId) :
    (Indexes.ofTimeline room timeline).view user room =
      historyView (membershipHistory user timeline) := by
  induction timeline using List.reverseRecOn with
  | nil => simp [Indexes.ofTimeline, membershipHistory, historyView, Indexes.view,
      Indexes.isJoined, Indexes.getLeftCount, Indexes.onceJoined, Indexes.empty, IndexRows.empty,
      Table.contains, latestMembership, departureCount, everJoined]
  | append_singleton timeline event ih =>
      have unfolded : Indexes.ofTimeline room (timeline ++ [event]) =
          ((event.update room).map fun update =>
            (updateMembership (Indexes.ofTimeline room timeline) update).2).getD
            (Indexes.ofTimeline room timeline) := by
        simp [Indexes.ofTimeline, List.foldl_append]
      rw [unfolded]
      cases member : event.member with
      | none => simpa [TimelineEvent.update, membershipHistory, member] using ih
      | some target =>
          obtain ⟨target, membership⟩ := target
          have succeeds : MembershipUpdate.Succeeds
              ⟨room, target, membership, event.count, true, false, true, false⟩ :=
            ⟨rfl, rfl, rfl, rfl⟩
          simp only [TimelineEvent.update, member, Option.map_some, Option.getD_some]
          rw [view_updateMembership succeeds, ih]
          by_cases same : target = user
          · subst same
            simp [membershipHistory, member, historyView_concat]
          · have distinct : (user, room) ≠ (target, room) := by simp [Ne.symm same]
            simp [membershipHistory, member, same, distinct]

end StateCache
end Tuwunel
