import Tuwunel.Library.ExceptOk
import Tuwunel.Service.Rooms.StateRes.EventAuth

/-!
# The auth events cover what the rules read

`iterative_auth_check` answers `fetch_state` from the auth events of the event it checks, which
`auth_types_for_event` selected.  Whatever the state holds, every key
`check_state_dependent_auth_rules` reads is one of the selected keys
(`check_reads_within_auth_types`), in every supported room version.

The selection always holds the create event, the power levels and the sender's member event
(`always_create` is set); for a member event it adds the target's member event and, depending on
the membership the content gives, the join rules, the third-party invite of the token, and the
member event of the user a restricted join is authorised through (`MemberSelection`).  The rules
read the same keys from the same content, except that a knock-restricted join reads the
authorising user, which the selection adds only under the restricted-join flag: every supported
version with the first has the second.
-/

namespace Tuwunel
namespace StateRes
namespace EventAuth

open Events Query
open StateCache (MembershipState)

theorem mem_pushNew {authTypes : List TypeStateKey} {key other : TypeStateKey} :
    other ∈ pushNew authTypes key ↔ other ∈ authTypes ∨ other = key := by
  unfold pushNew
  split
  · rename_i present
    exact ⟨.inl, fun held => held.elim id fun same => same ▸ present⟩
  · simp

theorem subset_pushNew (authTypes : List TypeStateKey) (key : TypeStateKey) :
    authTypes ⊆ pushNew authTypes key :=
  fun _ member => mem_pushNew.mpr (.inl member)

theorem self_mem_pushNew (authTypes : List TypeStateKey) (key : TypeStateKey) :
    key ∈ pushNew authTypes key :=
  mem_pushNew.mpr (.inr rfl)

/-- What the selection holds for a member event with state key `stateKey`, by the membership,
third-party invite and authorising user its content gives. -/
structure MemberSelection (authTypes : List TypeStateKey) (stateKey : String) (content : Content)
    (rules : AuthorizationRules) : Prop where
  target : (.roomMember, stateKey) ∈ authTypes
  joinRules : ∀ membership, RoomMemberEventContent.membership content = .ok membership →
    membership = .join ∨ membership = .invite ∨ membership = .knock →
    (.roomJoinRules, "") ∈ authTypes
  thirdPartyInvite : ∀ thirdPartyInvite token,
    RoomMemberEventContent.membership content = .ok .invite →
    RoomMemberEventContent.thirdPartyInvite content = .ok (some thirdPartyInvite) →
    thirdPartyInvite.token = .ok token → (.roomThirdPartyInvite, token) ∈ authTypes
  authorisedVia : ∀ userId, RoomMemberEventContent.membership content = .ok .join →
    rules.restrictedJoinRule = true →
    RoomMemberEventContent.joinAuthorisedViaUsersServer content = .ok (some userId) →
    (.roomMember, userId) ∈ authTypes

theorem authTypesForMemberEvent_selects {base authTypes : List TypeStateKey} {stateKey : String}
    {content : Content} {rules : AuthorizationRules}
    (selected : authTypesForMemberEvent base (some stateKey) content rules = .ok authTypes) :
    base ⊆ authTypes ∧ MemberSelection authTypes stateKey content rules := by
  simp only [authTypesForMemberEvent, Except.bind_eq_ok] at selected
  obtain ⟨membership, parsed, afterInvite, invited, final⟩ := selected
  -- the list after the target and the join rules
  generalize withJoinRules_def : (if membership = .join ∨ membership = .invite ∨
    membership = .knock then pushNew (pushNew base (.roomMember, stateKey)) (.roomJoinRules, "")
    else pushNew base (.roomMember, stateKey)) = withJoinRules at invited
  have targeted : pushNew base (.roomMember, stateKey) ⊆ withJoinRules := by
    rw [← withJoinRules_def]
    split
    · exact subset_pushNew _ _
    · exact List.Subset.refl _
  have joined : membership = .join ∨ membership = .invite ∨ membership = .knock →
      (.roomJoinRules, "") ∈ withJoinRules := by
    intro joins
    rw [← withJoinRules_def, if_pos joins]
    exact self_mem_pushNew _ _
  -- the third-party invite of an invite's token
  have inviteKept : withJoinRules ⊆ afterInvite ∧ ∀ thirdPartyInvite token,
      membership = .invite →
      RoomMemberEventContent.thirdPartyInvite content = .ok (some thirdPartyInvite) →
      thirdPartyInvite.token = .ok token → (.roomThirdPartyInvite, token) ∈ afterInvite := by
    split at invited
    · obtain ⟨found, foundParsed, invited⟩ := Except.bind_eq_ok.mp invited
      cases found with
      | none =>
          cases invited
          refine ⟨List.Subset.refl _, fun _ _ _ parsedInvite => ?_⟩
          rw [foundParsed] at parsedInvite
          cases parsedInvite
      | some thirdPartyInvite =>
          obtain ⟨token, tokenParsed, pushed⟩ := Except.map_eq_ok.mp invited
          subst pushed
          refine ⟨subset_pushNew _ _, fun other otherToken _ parsedInvite otherParsed => ?_⟩
          rw [foundParsed] at parsedInvite
          cases parsedInvite
          rw [tokenParsed] at otherParsed
          cases otherParsed
          exact self_mem_pushNew _ _
    · rename_i notInvite
      cases invited
      exact ⟨List.Subset.refl _, fun _ _ invite => (notInvite invite).elim⟩
  -- the authorising user of a restricted join
  have viaKept : afterInvite ⊆ authTypes ∧ ∀ userId, membership = .join →
      rules.restrictedJoinRule = true →
      RoomMemberEventContent.joinAuthorisedViaUsersServer content = .ok (some userId) →
      (.roomMember, userId) ∈ authTypes := by
    split at final
    · obtain ⟨found, foundParsed, pushed⟩ := Except.map_eq_ok.mp final
      subst pushed
      cases found with
      | none =>
          refine ⟨List.Subset.refl _, fun _ _ _ parsedVia => ?_⟩
          rw [foundParsed] at parsedVia
          cases parsedVia
      | some userId =>
          refine ⟨subset_pushNew _ _, fun other _ _ parsedVia => ?_⟩
          rw [foundParsed] at parsedVia
          cases parsedVia
          exact self_mem_pushNew _ _
    · rename_i unrestricted
      cases final
      exact ⟨List.Subset.refl _, fun _ joins restricted _ => (unrestricted ⟨joins, restricted⟩).elim⟩
  have kept : pushNew base (.roomMember, stateKey) ⊆ authTypes :=
    List.Subset.trans (List.Subset.trans targeted inviteKept.1) viaKept.1
  refine ⟨List.Subset.trans (subset_pushNew _ _) kept, ⟨kept (self_mem_pushNew _ _), ?_, ?_, ?_⟩⟩
  · intro other otherParsed joins
    rw [parsed] at otherParsed
    cases otherParsed
    exact viaKept.1 (inviteKept.1 (joined joins))
  · intro thirdPartyInvite token invites parsedInvite tokenParsed
    rw [parsed] at invites
    cases invites
    exact viaKept.1 (inviteKept.2 thirdPartyInvite token rfl parsedInvite tokenParsed)
  · intro userId joins restricted parsedVia
    rw [parsed] at joins
    cases joins
    exact viaKept.2 userId rfl restricted parsedVia

/-- The selection for any event but a create event: the create event, the power levels, the
sender's member event, and for a member event what `MemberSelection` says. -/
theorem authTypesForEvent_selects {eventType : TimelineEventType} {sender : UserId}
    {stateKey : Option String} {content : Content} {rules : AuthorizationRules}
    {authTypes : List TypeStateKey}
    (selected : authTypesForEvent eventType sender stateKey content rules true = .ok authTypes)
    (notCreate : eventType ≠ .roomCreate) :
    (.roomCreate, "") ∈ authTypes ∧ (.roomPowerLevels, "") ∈ authTypes ∧
      (.roomMember, sender.asStr) ∈ authTypes ∧
      (eventType = .roomMember → ∀ key, stateKey = some key →
        MemberSelection authTypes key content rules) := by
  simp only [authTypesForEvent, ne_eq, notCreate, not_false_eq_true, if_true, Bool.or_true,
    List.singleton_append] at selected
  split at selected
  · rename_i member
    cases stateKey with
    | none => cases selected
    | some key =>
        obtain ⟨base, selection⟩ := authTypesForMemberEvent_selects selected
        refine ⟨base (by simp), base (by simp), base (by simp), fun _ other keyed => ?_⟩
        cases keyed
        exact selection
  · rename_i notMember
    cases selected
    exact ⟨by simp, by simp, by simp, fun member => (notMember member).elim⟩

/-! ## What each rule reads -/

section Reads

variable {authTypes : List TypeStateKey}

theorem readsWithin_userMembership {userId : String} (selected : (.roomMember, userId) ∈ authTypes) :
    ReadsWithin (· ∈ authTypes) (ExceptT.run (Query.lift (userMembership userId) : Check _)) :=
  .lift (.map _ (.get selected))

theorem readsWithin_roomPowerLevelsEvent (selected : (.roomPowerLevels, "") ∈ authTypes) :
    ReadsWithin (· ∈ authTypes) (ExceptT.run (Query.lift roomPowerLevelsEvent : Check _)) :=
  .lift (.get selected)

theorem readsWithin_joinRule (selected : (.roomJoinRules, "") ∈ authTypes) :
    ReadsWithin (· ∈ authTypes) (ExceptT.run (Query.lift joinRule : Check _)) :=
  .lift (.map _ (.get selected))

theorem readsWithin_roomCreateEvent (selected : (.roomCreate, "") ∈ authTypes) :
    ReadsWithin (· ∈ authTypes) (ExceptT.run (Query.lift roomCreateEvent : Check _)) :=
  .lift (.map _ (.get selected))

theorem readsWithin_roomThirdPartyInviteEvent {token : String}
    (selected : (.roomThirdPartyInvite, token) ∈ authTypes) :
    ReadsWithin (· ∈ authTypes) (ExceptT.run (Query.lift (roomThirdPartyInviteEvent token) : Check _)) :=
  .lift (.get selected)

variable {signatureMatches : String → String → String → String → Bool}
  {roomMemberEvent roomCreateEvent : Event} {targetUser : String} {rules : AuthorizationRules}

theorem readsWithin_checkRoomMemberBan
    (sender : (.roomMember, roomMemberEvent.sender.asStr) ∈ authTypes)
    (powerLevels : (.roomPowerLevels, "") ∈ authTypes) :
    ReadsWithin (· ∈ authTypes)
      (checkRoomMemberBan roomMemberEvent targetUser rules roomCreateEvent).run :=
  .exceptBind (readsWithin_userMembership sender) fun _ =>
    .exceptBind (readsWithin_roomPowerLevelsEvent powerLevels) fun _ => .ofExcept _

theorem readsWithin_checkRoomMemberLeave
    (sender : (.roomMember, roomMemberEvent.sender.asStr) ∈ authTypes)
    (powerLevels : (.roomPowerLevels, "") ∈ authTypes)
    (target : (.roomMember, targetUser) ∈ authTypes) :
    ReadsWithin (· ∈ authTypes)
      (checkRoomMemberLeave roomMemberEvent targetUser rules roomCreateEvent).run :=
  .exceptBind (readsWithin_userMembership sender) fun _ =>
    .exceptBind (readsWithin_roomPowerLevelsEvent powerLevels) fun _ =>
      .exceptBind (readsWithin_userMembership target) fun _ => .ofExcept _

theorem readsWithin_checkRoomMemberKnock (joinRules : (.roomJoinRules, "") ∈ authTypes)
    (sender : (.roomMember, roomMemberEvent.sender.asStr) ∈ authTypes) :
    ReadsWithin (· ∈ authTypes) (checkRoomMemberKnock roomMemberEvent targetUser rules).run :=
  .exceptBind (readsWithin_joinRule joinRules) fun _ =>
    .exceptBind (readsWithin_userMembership sender) fun _ => .ofExcept _

theorem readsWithin_checkThirdPartyInvite {thirdPartyInvite : ThirdPartyInvite}
    (target : (.roomMember, targetUser) ∈ authTypes)
    (invite : ∀ token, thirdPartyInvite.token = .ok token →
      (.roomThirdPartyInvite, token) ∈ authTypes) :
    ReadsWithin (· ∈ authTypes)
      (checkThirdPartyInvite signatureMatches roomMemberEvent thirdPartyInvite targetUser).run := by
  unfold checkThirdPartyInvite
  refine .exceptBind (.exceptBind (readsWithin_userMembership target) fun _ => .ofExcept _)
    fun _ => ?_
  split
  · exact .exceptThrow _
  · refine .ofExceptBind fun token tokenParsed => .exceptBind (.ofExcept _) fun _ => ?_
    split
    · exact .exceptThrow _
    · refine .exceptBind (readsWithin_roomThirdPartyInviteEvent (invite token tokenParsed))
        fun found => ?_
      cases found with
      | none => exact .exceptThrow _
      | some _ => exact .ofExcept _

theorem readsWithin_checkRoomMemberInvite
    (sender : (.roomMember, roomMemberEvent.sender.asStr) ∈ authTypes)
    (target : (.roomMember, targetUser) ∈ authTypes)
    (powerLevels : (.roomPowerLevels, "") ∈ authTypes)
    (invite : ∀ thirdPartyInvite token,
      RoomMemberEventContent.thirdPartyInvite roomMemberEvent.content = .ok (some thirdPartyInvite) →
      thirdPartyInvite.token = .ok token → (.roomThirdPartyInvite, token) ∈ authTypes) :
    ReadsWithin (· ∈ authTypes)
      (checkRoomMemberInvite signatureMatches roomMemberEvent targetUser rules roomCreateEvent).run := by
  unfold checkRoomMemberInvite
  refine .ofExceptBind fun found parsed => ?_
  cases found with
  | some thirdPartyInvite =>
      exact readsWithin_checkThirdPartyInvite target (invite thirdPartyInvite · parsed)
  | none =>
      exact .exceptBind (readsWithin_userMembership sender) fun _ =>
        .exceptBind (readsWithin_userMembership target) fun _ =>
          .exceptBind (readsWithin_roomPowerLevelsEvent powerLevels) fun _ => .ofExcept _

theorem readsWithin_checkRestrictedJoin {creators : List String}
    {currentMembership : MembershipState} (powerLevels : (.roomPowerLevels, "") ∈ authTypes)
    (via : ∀ userId,
      RoomMemberEventContent.joinAuthorisedViaUsersServer roomMemberEvent.content = .ok (some userId) →
      (.roomMember, userId) ∈ authTypes) :
    ReadsWithin (· ∈ authTypes)
      (checkRestrictedJoin roomMemberEvent rules creators currentMembership).run := by
  unfold checkRestrictedJoin
  split
  · exact .exceptPure _
  · refine .ofExceptBind fun found parsed => ?_
    cases found with
    | none => exact .exceptThrow _
    | some authorizedViaUser =>
        refine .exceptBind
          (.exceptBind (readsWithin_userMembership (via _ parsed)) fun _ => .ofExcept _) fun _ => ?_
        split
        · exact .exceptThrow _
        · exact .exceptBind (readsWithin_roomPowerLevelsEvent powerLevels) fun _ => .ofExcept _

theorem readsWithin_checkRoomMemberJoin (target : (.roomMember, targetUser) ∈ authTypes)
    (joinRules : (.roomJoinRules, "") ∈ authTypes) (powerLevels : (.roomPowerLevels, "") ∈ authTypes)
    (restrictedOfKnock : rules.knockRestrictedJoinRule = true → rules.restrictedJoinRule = true)
    (via : rules.restrictedJoinRule = true → ∀ userId,
      RoomMemberEventContent.joinAuthorisedViaUsersServer roomMemberEvent.content = .ok (some userId) →
      (.roomMember, userId) ∈ authTypes) :
    ReadsWithin (· ∈ authTypes)
      (checkRoomMemberJoin roomMemberEvent targetUser rules roomCreateEvent).run := by
  unfold checkRoomMemberJoin
  refine .exceptBind (.ofExcept _) fun _ => .exceptBind (.ofExcept _) fun _ => ?_
  split
  · exact .exceptPure _
  split
  · exact .exceptThrow _
  refine .exceptBind (readsWithin_userMembership target) fun _ =>
    .exceptBind (readsWithin_joinRule joinRules) fun _ => .exceptBind (.ofExcept _) fun _ => ?_
  split
  · exact .exceptThrow _
  refine .exceptBind (.ofExcept _) fun _ => ?_
  split
  · exact .exceptPure _
  split
  · rename_i restrictedBranch
    -- both restricted branches read the authorising user, selected under the restricted flag
    have restricted : rules.restrictedJoinRule = true :=
      restrictedBranch.elim (·.1) fun knock => restrictedOfKnock knock.1
    exact readsWithin_checkRestrictedJoin powerLevels (via restricted)
  split
  · exact .exceptThrow _
  · exact .exceptPure _

theorem readsWithin_checkRoomMember
    (selection : ∀ stateKey, roomMemberEvent.stateKey = some stateKey →
      MemberSelection authTypes stateKey roomMemberEvent.content rules)
    (sender : (.roomMember, roomMemberEvent.sender.asStr) ∈ authTypes)
    (powerLevels : (.roomPowerLevels, "") ∈ authTypes)
    (restrictedOfKnock : rules.knockRestrictedJoinRule = true → rules.restrictedJoinRule = true) :
    ReadsWithin (· ∈ authTypes)
      (checkRoomMember signatureMatches roomMemberEvent rules roomCreateEvent).run := by
  unfold checkRoomMember
  split
  · exact .exceptThrow _
  rename_i stateKey keyed
  have selected := selection stateKey keyed
  split
  · exact .exceptThrow _
  refine .exceptBind (.ofExcept _) fun _ => ?_
  split
  · exact .exceptThrow _
  refine .ofExceptBind fun membership parsed => ?_
  cases membership with
  | join =>
      exact readsWithin_checkRoomMemberJoin selected.target
        (selected.joinRules _ parsed (.inl rfl)) powerLevels restrictedOfKnock
        fun restricted userId => selected.authorisedVia userId parsed restricted
  | invite =>
      exact readsWithin_checkRoomMemberInvite sender selected.target powerLevels
        fun thirdPartyInvite token => selected.thirdPartyInvite thirdPartyInvite token parsed
  | leave => exact readsWithin_checkRoomMemberLeave sender powerLevels selected.target
  | ban => exact readsWithin_checkRoomMemberBan sender powerLevels
  | knock =>
      dsimp only
      split
      · exact readsWithin_checkRoomMemberKnock (selected.joinRules _ parsed (.inr (.inr rfl))) sender
      · exact .exceptThrow _
  | custom _ => exact .exceptThrow _

end Reads

theorem check_reads_within_auth_types (version : RoomVersion)
    (signatureMatches : String → String → String → String → Bool) (event : Event)
    (authTypes : List TypeStateKey)
    (selected : authTypesForEvent event.eventType event.sender event.stateKey event.content
      version.rules true = .ok authTypes)
    (lookup : TypeStateKey → Option Event) (key : TypeStateKey)
    (read : key ∈ (checkStateDependentAuthRules signatureMatches version.rules event).run.reads lookup) :
    key ∈ authTypes := by
  refine ReadsWithin.mem_reads ?_ lookup read
  unfold checkStateDependentAuthRules
  split
  · exact .exceptPure _
  rename_i notCreate
  obtain ⟨create, powerLevels, sender, member⟩ := authTypesForEvent_selects selected notCreate
  refine .exceptBind (readsWithin_roomCreateEvent create) fun _ =>
    .exceptBind (readsWithin_userMembership sender) fun _ =>
      .exceptBind (readsWithin_roomPowerLevelsEvent powerLevels) fun _ =>
        .exceptBind (.ofExcept _) fun _ => .exceptBind (.ofExcept _) fun _ => ?_
  split
  · exact .exceptThrow _
  split
  · split
    · exact .exceptThrow _
    · exact .exceptPure _
  split
  · rename_i isMember
    exact readsWithin_checkRoomMember (member isMember) sender powerLevels
      (version.restrictedJoinRule_of_knockRestricted)
  · exact .ofExcept _

/-! ## A kick -/

/-- A content where every field the accessors read is absent. -/
def plainContent : Content :=
  ⟨.absent, .absent, .absent, .absent, .absent, .absent, .absent, none, none⟩

/-- `@alice:h` kicks `@bob:h`. -/
def aliceKicksBob : Event :=
  ⟨"$kick:h", .roomMember, ⟨"alice", "h"⟩, some "@bob:h", [], none,
    { plainContent with membership := .present .leave }⟩

/-- A room `@alice:h` created, where she has level `50` and every user is joined. -/
def kickState : TypeStateKey → Option Event
  | (.roomCreate, "") =>
      some ⟨"$create:h", .roomCreate, ⟨"alice", "h"⟩, some "", [], none, plainContent⟩
  | (.roomPowerLevels, "") =>
      some ⟨"$power:h", .roomPowerLevels, ⟨"alice", "h"⟩, some "", [], none,
        { plainContent with
          powerLevels := some ⟨fun _ => none, none, none, some (.object [("@alice:h", .int 50)])⟩ }⟩
  | (.roomMember, user) =>
      some ⟨"$member:h", .roomMember, ⟨"alice", "h"⟩, some user, [], none,
        { plainContent with membership := .present .join }⟩
  | _ => none

/-- The keys selected for the kick. -/
def kickAuthTypes : List TypeStateKey :=
  [(.roomCreate, ""), (.roomPowerLevels, ""), (.roomMember, "@alice:h"), (.roomMember, "@bob:h")]

theorem check_reads_within_auth_types_kick :
    authTypesForEvent aliceKicksBob.eventType aliceKicksBob.sender aliceKicksBob.stateKey
        aliceKicksBob.content RoomVersion.v11.rules true = .ok kickAuthTypes ∧
      ((.roomMember, "@bob:h") : TypeStateKey) ∈
        (checkStateDependentAuthRules (fun _ _ _ _ => false) RoomVersion.v11.rules
          aliceKicksBob).run.reads kickState ∧
      ((.roomMember, "@bob:h") : TypeStateKey) ∈ kickAuthTypes :=
  ⟨by decide +kernel, by decide +kernel,
    check_reads_within_auth_types .v11 (fun _ _ _ _ => false) aliceKicksBob kickAuthTypes
      (by decide +kernel) kickState _ (by decide +kernel)⟩

end EventAuth
end StateRes
end Tuwunel
