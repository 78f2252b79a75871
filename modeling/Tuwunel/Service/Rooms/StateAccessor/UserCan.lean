import Tuwunel.Service.Rooms.StateCache.Update

/-!
# Who may see an event

`user_can_see_event` reads the `m.room.history_visibility` event in the state at the event.
World-readable history is open to everyone; joined and invited history are decided by the user's
membership in that state; shared history, and a visibility that is absent or unknown, is also open
to a user the membership indexes show as joined now, or as once joined with a left count at or
after the event.

The history-visibility rules (`visibleByRules`) open shared history to a user joined in the
event's state or who joined at or after the event.  Along a timeline the indexes follow each
user's latest membership (`StateCache.view_ofTimeline`), so the code opens shared history by the
user's latest membership instead (`userCanSeeEvent_ofTimeline`): a ban or a rejected invite after
an earlier leave opens it, and an invite or knock after a later join and leave closes it.
-/

namespace Tuwunel
namespace StateAccessor

open StateCache

/-- `HistoryVisibility`, with ruma's catch-all for values it does not know. -/
inductive HistoryVisibility
  | invited
  | joined
  | shared
  | worldReadable
  | custom (value : String)
  deriving DecidableEq, Repr

/-- What the state at an event answers: its history visibility and each user's membership,
where the state event exists and its content deserializes. -/
structure StateAtEvent where
  historyVisibility : Option HistoryVisibility
  membership : UserId → Option MembershipState

/-- What `user_can_see_event` looks up for the event: the state at it (`pdu_shortstatehash`) and
its count (`get_pdu_count`). -/
structure EventLookup where
  state : Option StateAtEvent
  count : Option PduCount

/-- `user_membership`: a user without a membership event has left. -/
def userMembership (state : StateAtEvent) (user : UserId) : MembershipState :=
  (state.membership user).getD .leave

/-- `user_was_joined`. -/
def userWasJoined (state : StateAtEvent) (user : UserId) : Bool :=
  userMembership state user == .join

/-- `user_was_invited`. -/
def userWasInvited (state : StateAtEvent) (user : UserId) : Bool :=
  userMembership state user == .join || userMembership state user == .invite

/-- `user_shared_history`. -/
def userSharedHistory (indexes : Indexes) (state : StateAtEvent) (room : RoomId)
    (eventCount : Option PduCount) (user : UserId) : Bool :=
  if indexes.isJoined user room || userWasJoined state user then true
  else if !indexes.onceJoined user room then false
  else
    match indexes.getLeftCount room user, eventCount with
    | some leftCount, some eventCount => decide (eventCount ≤ leftCount)
    | _, _ => false

/-- `user_can_see_event`; an event without a recorded state is visible. -/
def userCanSeeEvent (indexes : Indexes) (user : UserId) (room : RoomId) (event : EventLookup) :
    Bool :=
  match event.state with
  | none => true
  | some state =>
      match state.historyVisibility.getD .shared with
      | .worldReadable => true
      | .invited => userWasInvited state user
      | .joined => userWasJoined state user
      | _ => userSharedHistory indexes state room event.count user

/-- The history-visibility rules, for an event with `state` and `eventCount` and a user with
membership events `history`: world-readable; or joined in the event's state; or invited history
and invited there; or shared history (also absent or unknown) and a join at or after the event. -/
def visibleByRules (state : StateAtEvent) (user : UserId) (history : History)
    (eventCount : PduCount) : Bool :=
  let visibility := state.historyVisibility.getD .shared
  visibility == .worldReadable || userMembership state user == .join ||
    (visibility == .invited && userMembership state user == .invite) ||
    (visibility != .worldReadable && visibility != .invited && visibility != .joined &&
      history.any fun entry => entry.1 == .join && decide (eventCount ≤ entry.2))

/-- Shared history by the rows `user_shared_history` reads. -/
def sharedByRows (view : RowView) (wasJoined : Bool) (eventCount : PduCount) : Bool :=
  view.joined || wasJoined || (view.onceJoined && view.leftCount.any (eventCount ≤ ·))

theorem userSharedHistory_eq (indexes : Indexes) (state : StateAtEvent) (room : RoomId)
    (eventCount : PduCount) (user : UserId) :
    userSharedHistory indexes state room (some eventCount) user =
      sharedByRows (indexes.view user room) (userWasJoined state user) eventCount := by
  unfold userSharedHistory sharedByRows
  -- the code reads the joined row and the state first, then the once-joined flag, then the count
  split_ifs with present once
  · simp only [Indexes.view]
    rw [present]
    rfl
  · simp_all [Indexes.view]
  · cases left : indexes.getLeftCount room user <;> simp_all [Indexes.view]

/-- Along any timeline whose membership events all went through `update_membership`,
`user_can_see_event` decides shared history by the user's latest membership: joined now, joined in
the event's state, or once joined with a latest leave or ban at or after the event. -/
theorem userCanSeeEvent_ofTimeline (room : RoomId) (timeline : List TimelineEvent)
    (user : UserId) (state : StateAtEvent) (eventCount : PduCount) :
    userCanSeeEvent (Indexes.ofTimeline room timeline) user room ⟨some state, some eventCount⟩ =
      match state.historyVisibility.getD .shared with
      | .worldReadable => true
      | .invited => userWasInvited state user
      | .joined => userWasJoined state user
      | _ => sharedByRows (historyView (membershipHistory user timeline)) (userWasJoined state user)
          eventCount := by
  simp only [userCanSeeEvent]
  split <;> simp [userSharedHistory_eq, view_ofTimeline]

/-- A user of the room. -/
def sampleUser : UserId := ⟨"alice", "example.org"⟩

/-- The room. -/
def sampleRoom : RoomId := "!room:example.org"

/-- The state at an event sent after the user left, under shared history. -/
def leftAtEvent : StateAtEvent :=
  ⟨some .shared, fun user => if user = sampleUser then some .leave else none⟩

/-- The state at an event sent before the user's first join, under shared history. -/
def beforeJoinAtEvent : StateAtEvent := ⟨some .shared, fun _ => none⟩

/-- Joined, left, the event at count 3, then banned. -/
def leaveThenBan : List TimelineEvent :=
  [⟨1, some (sampleUser, .join)⟩, ⟨2, some (sampleUser, .leave)⟩, ⟨3, none⟩,
    ⟨4, some (sampleUser, .ban)⟩]

/-- Joined, left, the event at count 3, then invited and the invite rejected. -/
def leaveThenRejectedInvite : List TimelineEvent :=
  [⟨1, some (sampleUser, .join)⟩, ⟨2, some (sampleUser, .leave)⟩, ⟨3, none⟩,
    ⟨4, some (sampleUser, .invite)⟩, ⟨5, some (sampleUser, .leave)⟩]

/-- The event at count 1, then joined, left, and `pending` (an invite or a knock). -/
def joinLeaveThen (pending : MembershipState) : List TimelineEvent :=
  [⟨1, none⟩, ⟨2, some (sampleUser, .join)⟩, ⟨3, some (sampleUser, .leave)⟩,
    ⟨4, some (sampleUser, pending)⟩]

theorem shared_history_diverges_from_rules :
    (userCanSeeEvent (Indexes.ofTimeline sampleRoom leaveThenBan) sampleUser sampleRoom
        ⟨some leftAtEvent, some 3⟩ = true ∧
      visibleByRules leftAtEvent sampleUser (membershipHistory sampleUser leaveThenBan) 3 = false) ∧
    (userCanSeeEvent (Indexes.ofTimeline sampleRoom leaveThenRejectedInvite) sampleUser sampleRoom
        ⟨some leftAtEvent, some 3⟩ = true ∧
      visibleByRules leftAtEvent sampleUser
        (membershipHistory sampleUser leaveThenRejectedInvite) 3 = false) ∧
    ∀ pending ∈ [MembershipState.invite, .knock],
      userCanSeeEvent (Indexes.ofTimeline sampleRoom (joinLeaveThen pending)) sampleUser sampleRoom
          ⟨some beforeJoinAtEvent, some 1⟩ = false ∧
        visibleByRules beforeJoinAtEvent sampleUser
          (membershipHistory sampleUser (joinLeaveThen pending)) 1 = true := by
  refine ⟨by decide, by decide, ?_⟩
  simp only [List.mem_cons, List.not_mem_nil, or_false, forall_eq_or_imp, forall_eq]
  exact ⟨by decide, by decide⟩

end StateAccessor
end Tuwunel
