import Tuwunel.Library.Query
import Tuwunel.Service.Rooms.StateRes.Events

/-!
# The state-dependent authorization rules

`check_state_dependent_auth_rules` decides an incoming event against a room state it reads
through `fetch_state`, one `(event type, state key)` at a time.  It is a `Check` here: a
`Query` over the state that may fail with the source's message.  The reads go through the five
methods of `FetchStateExt`, each of which turns what the state holds at its key into the value
the rules use; where the source joins several reads (`join`, `join3`), all of them are made
before any result is looked at.

`auth_types_for_event` selects the keys whose events become the auth events of a new event.

Each rule function that reads the state is written as its reads followed by the synchronous
rest of its body, which is a plain `Except` function (`banRules`, `leaveRules`, ...).  The
cryptographic check of a third-party invite signature (key id, base64, public key and
`verify_canonical_json_bytes`, any failure of which moves on to the next candidate) is the
parameter `signatureMatches`.
-/

namespace Tuwunel
namespace StateRes
namespace EventAuth

open Events
open StateCache (MembershipState)

/-- A program reading the room state, keyed by `(event type, state key)`. -/
abbrev Fetch := Query TypeStateKey Event

/-- A program reading the room state that may be rejected with a message. -/
abbrev Check := ExceptT String Fetch

/-! ## `auth_types_for_event` -/

/-- `if !auth_types.contains(&key) { auth_types.push(key) }`. -/
def pushNew (authTypes : List TypeStateKey) (key : TypeStateKey) : List TypeStateKey :=
  if key ∈ authTypes then authTypes else authTypes ++ [key]

/-- `auth_types_for_member_event`: the target's member event, the join rules for a join, invite
or knock, the third-party invite of an invite's token, and the member event of the user a
restricted join is authorised through. -/
def authTypesForMemberEvent (authTypes : List TypeStateKey) (stateKey : Option String)
    (content : Content) (rules : AuthorizationRules) : Except String (List TypeStateKey) :=
  match stateKey with
  | none => .error "missing `state_key` field for `m.room.member` event"
  | some stateKey => do
      let authTypes := pushNew authTypes (.roomMember, stateKey)
      let membership ← RoomMemberEventContent.membership content
      let authTypes :=
        if membership = .join ∨ membership = .invite ∨ membership = .knock then
          pushNew authTypes (.roomJoinRules, "")
        else authTypes
      let authTypes ← (if membership = .invite then
          RoomMemberEventContent.thirdPartyInvite content >>= fun
            | some thirdPartyInvite => thirdPartyInvite.token.map fun token =>
                pushNew authTypes (.roomThirdPartyInvite, token)
            | none => .ok authTypes
        else .ok authTypes)
      (if membership = .join ∧ rules.restrictedJoinRule = true then
          (RoomMemberEventContent.joinAuthorisedViaUsersServer content).map fun
            | some userId => pushNew authTypes (.roomMember, userId)
            | none => authTypes
        else .ok authTypes)

/-- `auth_types_for_event`: the create event (unless the room id is the create event's id and
`always_create` is off), the power levels and the sender's member event, for every event but a
create event; then what `auth_types_for_member_event` adds for a member event. -/
def authTypesForEvent (eventType : TimelineEventType) (sender : UserId) (stateKey : Option String)
    (content : Content) (rules : AuthorizationRules) (alwaysCreate : Bool) :
    Except String (List TypeStateKey) :=
  let authTypes :=
    if eventType ≠ .roomCreate then
      (if !rules.roomCreateEventIdAsRoomId || alwaysCreate then [(.roomCreate, "")] else []) ++
        [(.roomPowerLevels, ""), (.roomMember, sender.asStr)]
    else []
  if eventType = .roomMember then authTypesForMemberEvent authTypes stateKey content rules
  else .ok authTypes

/-! ## `FetchStateExt` -/

/-- `room_create_event`: missing is an error. -/
def roomCreateEventOf (found : Option Event) : Except String Event :=
  match found with
  | some event => .ok event
  | none => .error "no `m.room.create` event in current state"

/-- `user_membership`: a user with no member event in the state has left. -/
def userMembershipOf (found : Option Event) : Except String MembershipState :=
  match found with
  | some event => RoomMemberEventContent.membership event.content
  | none => .ok .leave

/-- `join_rule`: missing is an error. -/
def joinRuleOf (found : Option Event) : Except String JoinRule :=
  match found with
  | some event => RoomJoinRulesEvent.joinRule event
  | none => .error "no `m.room.join_rules` event in current state"

/-- `FetchStateExt::room_create_event`. -/
def roomCreateEvent : Fetch (Except String Event) :=
  roomCreateEventOf <$> Query.get (.roomCreate, "")

/-- `FetchStateExt::user_membership`. -/
def userMembership (userId : String) : Fetch (Except String MembershipState) :=
  userMembershipOf <$> Query.get (.roomMember, userId)

/-- `FetchStateExt::room_power_levels_event`. -/
def roomPowerLevelsEvent : Fetch (Option Event) :=
  Query.get (.roomPowerLevels, "")

/-- `FetchStateExt::join_rule`. -/
def joinRule : Fetch (Except String JoinRule) :=
  joinRuleOf <$> Query.get (.roomJoinRules, "")

/-- `FetchStateExt::room_third_party_invite_event`. -/
def roomThirdPartyInviteEvent (token : String) : Fetch (Option Event) :=
  Query.get (.roomThirdPartyInvite, token)

/-! ## Power levels -/

/-- `check_power_level_maps`: over the keys of the current map and then of the new one, the
first key whose entry changes and whose current value `rejectCurrentPowerLevelChange` rejects,
or whose new value is above the sender's level, is an error. -/
def checkPowerLevelMaps {κ : Type} [DecidableEq κ] (current new : Option (List (κ × Int)))
    (senderPowerLevel : UserPowerLevel) (rejectCurrentPowerLevelChange : κ → Int → Bool)
    (error : κ → String) : Except String Unit :=
  let keysToCheck :=
    (current.map (·.map Prod.fst)).getD [] ++ (new.map (·.map Prod.fst)).getD []
  let rejected (key : κ) : Bool :=
    let currentPowerLevel := current.bind (·.lookup key)
    let newPowerLevel := new.bind (·.lookup key)
    currentPowerLevel != newPowerLevel &&
      (currentPowerLevel.any (rejectCurrentPowerLevelChange key) ||
        newPowerLevel.any fun level : Int => decide (senderPowerLevel < level))
  match keysToCheck.find? rejected with
  | some key => .error (error key)
  | none => .ok ()

/-- The check of the integer fields in `check_room_power_levels`: a field that changes may
neither have been nor become higher than the sender's level. -/
def checkIntFields (current : Event) (newIntFields : List (RoomPowerLevelsIntField × Int))
    (rules : AuthorizationRules) (senderPowerLevel : UserPowerLevel) :
    List RoomPowerLevelsIntField → Except String Unit
  | [] => .ok ()
  | field :: fields => do
      let currentPowerLevel ← RoomPowerLevelsEvent.getAsInt current field rules
      let newPowerLevel := newIntFields.lookup field
      if currentPowerLevel = newPowerLevel then checkIntFields current newIntFields rules senderPowerLevel fields
      else if senderPowerLevel < (currentPowerLevel.getD field.defaultValue : Int) ∨
          senderPowerLevel < (newPowerLevel.getD field.defaultValue : Int) then
        .error ("sender does not have enough power to change the power level of `" ++
          field.asStr ++ "`")
      else checkIntFields current newIntFields rules senderPowerLevel fields

/-- The checks of `check_room_power_levels` against the current power levels: the integer
fields, then the `events`, `notifications` (from v6) and `users` maps, where the sender's own
entry in `users` may change whatever its current value. -/
def checkPowerLevelChanges (roomPowerLevelsEvent current : Event) (rules : AuthorizationRules)
    (senderPowerLevel : UserPowerLevel) (newIntFields : List (RoomPowerLevelsIntField × Int))
    (newEvents : Option (List (TimelineEventType × Int)))
    (newNotifications newUsers : Option (List (String × Int))) : Except String Unit := do
  checkIntFields current newIntFields rules senderPowerLevel RoomPowerLevelsIntField.all
  let currentEvents ← RoomPowerLevelsEvent.events current rules
  checkPowerLevelMaps currentEvents newEvents senderPowerLevel
    (fun _ currentPowerLevel => decide (senderPowerLevel < currentPowerLevel))
    fun eventType => "sender does not have enough power to change the `" ++
      eventType.toCowStr ++ "` event type power level"
  (if rules.limitNotificationsPowerLevels then do
      let currentNotifications ← RoomPowerLevelsEvent.notifications current rules
      checkPowerLevelMaps currentNotifications newNotifications senderPowerLevel
        (fun _ currentPowerLevel => decide (senderPowerLevel < currentPowerLevel))
        fun key => "sender does not have enough power to change the `" ++ key ++
          "` notification power level"
    else pure ())
  let currentUsers ← RoomPowerLevelsEvent.users current rules
  checkPowerLevelMaps currentUsers newUsers senderPowerLevel
    (fun userId currentPowerLevel =>
      decide (userId ≠ roomPowerLevelsEvent.sender.asStr) &&
        decide (senderPowerLevel ≤ currentPowerLevel))
    fun userId => "sender does not have enough power to change `" ++ userId ++
      "`'s  power level"

/-- `check_room_power_levels`: the new content must deserialize, must not list a creator in
`users` where creators are privileged, and may change the current power levels only as
`checkPowerLevelChanges` allows. -/
def checkRoomPowerLevels (roomPowerLevelsEvent : Event) (currentRoomPowerLevelsEvent : Option Event)
    (rules : AuthorizationRules) (senderPowerLevel : UserPowerLevel) (roomCreators : List String) :
    Except String Unit := do
  let newIntFields ← RoomPowerLevelsEvent.intFieldsMap roomPowerLevelsEvent rules
  let newEvents ← RoomPowerLevelsEvent.events roomPowerLevelsEvent rules
  let newNotifications ← RoomPowerLevelsEvent.notifications roomPowerLevelsEvent rules
  let newUsers ← RoomPowerLevelsEvent.users roomPowerLevelsEvent rules
  if rules.explicitlyPrivilegeRoomCreators ∧
      newUsers.any (fun newUsers => roomCreators.any fun creator => (newUsers.lookup creator).isSome) then
    throw "creator user IDs are not allowed in the `users` field"
  else
    match currentRoomPowerLevelsEvent with
    | none => pure ()
    | some current =>
        checkPowerLevelChanges roomPowerLevelsEvent current rules senderPowerLevel newIntFields
          newEvents newNotifications newUsers

/-- `check_room_redaction`: the sender may redact, or the redacted event is from the redaction's
own server. -/
def checkRoomRedaction (roomRedactionEvent : Event) (currentRoomPowerLevelsEvent : Option Event)
    (rules : AuthorizationRules) (senderLevel : UserPowerLevel) : Except String Unit := do
  let redactLevel ←
    RoomPowerLevelsEventOption.getAsIntOrDefault currentRoomPowerLevelsEvent .redact rules
  if (redactLevel : UserPowerLevel) ≤ senderLevel then pure ()
  else if eventIdServerName roomRedactionEvent.eventId =
      roomRedactionEvent.redacts.bind eventIdServerName then pure ()
  else throw "`m.room.redaction` event did not pass any of the allow rules"

/-! ## `m.room.member` -/

/-- Whether the only previous event is the create event. -/
def prevEventIsOnlyRoomCreateEvent (prevEvents : List EventId) (roomCreateEventId : EventId) :
    Bool :=
  match prevEvents with
  | [eventId] => eventId == roomCreateEventId
  | _ => false

/-- The restricted branch of `check_room_member_join`, after the power levels are read: the
authorising user needs the invite level. -/
def restrictedJoinRules (roomPowerLevelsEvent : Option Event) (authorizedViaUser : String)
    (creators : List String) (rules : AuthorizationRules) : Except String Unit := do
  let authorizedViaUserPowerLevel ←
    RoomPowerLevelsEventOption.userPowerLevel roomPowerLevelsEvent authorizedViaUser creators rules
  let invitePowerLevel ←
    RoomPowerLevelsEventOption.getAsIntOrDefault roomPowerLevelsEvent .invite rules
  if authorizedViaUserPowerLevel < invitePowerLevel then
    throw "`join_authorised_via_users_server` does not have enough power"
  else pure ()

/-- The restricted branch of `check_room_member_join`: a member or invitee may join; anyone else
needs a joined user with the invite level to authorise the join. -/
def checkRestrictedJoin (roomMemberEvent : Event) (rules : AuthorizationRules)
    (creators : List String) (currentMembership : MembershipState) : Check Unit :=
  if currentMembership = .join ∨ currentMembership = .invite then pure ()
  else do
    match ← liftExcept (RoomMemberEventContent.joinAuthorisedViaUsersServer roomMemberEvent.content) with
    | none => throw ("cannot join restricted room without `join_authorised_via_users_server` field " ++
        "if not invited")
    | some authorizedViaUser => do
        let authorizedViaUserMembership ←
          Query.lift (userMembership authorizedViaUser) >>= liftExcept
        if authorizedViaUserMembership ≠ .join then
          throw "`join_authorised_via_users_server` is not joined"
        else do
          let roomPowerLevelsEvent ← Query.lift roomPowerLevelsEvent
          liftExcept (restrictedJoinRules roomPowerLevelsEvent authorizedViaUser creators rules)

/-- `check_room_member_join`. -/
def checkRoomMemberJoin (roomMemberEvent : Event) (targetUser : String) (rules : AuthorizationRules)
    (roomCreateEvent : Event) : Check Unit := do
  let creator ← liftExcept (RoomCreateEvent.creator rules roomCreateEvent)
  let creators ← liftExcept (RoomCreateEvent.creators rules roomCreateEvent)
  if prevEventIsOnlyRoomCreateEvent roomMemberEvent.prevEvents roomCreateEvent.eventId ∧
      targetUser = creator then pure ()
  else if roomMemberEvent.sender.asStr ≠ targetUser then
    throw "sender of join event must match target user"
  else do
    let currentMembership ← Query.lift (userMembership targetUser)
    let joinRule ← Query.lift joinRule
    let currentMembership ← liftExcept currentMembership
    if currentMembership = .ban then throw "banned user cannot join room"
    else do
      let joinRule ← liftExcept joinRule
      if (joinRule = .invite ∨ rules.knocking ∧ joinRule = .knock) ∧
          (currentMembership = .invite ∨ currentMembership = .join) then pure ()
      else if rules.restrictedJoinRule ∧ joinRule = .restricted ∨
          rules.knockRestrictedJoinRule ∧ joinRule = .knockRestricted then
        checkRestrictedJoin roomMemberEvent rules creators currentMembership
      else if joinRule ≠ .«public» then throw "cannot join a room that is not `public`"
      else pure ()

/-- The signature loop of `check_third_party_invite`: an entry of `signatures` that is not an
object is an error, unless an earlier one matched; the invite passes at the first signature
that matches a public key. -/
def verifySignatures (signatureMatches : String → String → String → String → Bool)
    (publicKeys : List String) (signedCanonicalJson : String) :
    List EntitySignatures → Except String Unit
  | [] => .error ("no signature on third-party invite matches a public key in " ++
      "`m.room.third_party_invite` event")
  | .other :: _ => .error ("unexpected format of `signatures` field in `third_party_invite.signed` " ++
      "of `m.room.member` event: expected a map of string to object")
  | .object entries :: rest =>
      if entries.any fun entry =>
          match entry.2 with
          | some signature => publicKeys.any (signatureMatches entry.1 signature · signedCanonicalJson)
          | none => false
      then .ok ()
      else verifySignatures signatureMatches publicKeys signedCanonicalJson rest

/-- `check_third_party_invite`, after the `m.room.third_party_invite` event is read. -/
def thirdPartyInviteRules (signatureMatches : String → String → String → String → Bool)
    (roomMemberEvent : Event) (thirdPartyInvite : ThirdPartyInvite)
    (roomThirdPartyInviteEvent : Event) : Except String Unit :=
  if roomMemberEvent.sender ≠ roomThirdPartyInviteEvent.sender then
    .error "sender of `m.room.third_party_invite` does not match sender of `m.room.member`"
  else do
    let signatures ← thirdPartyInvite.signatures
    let publicKeys ← RoomThirdPartyInviteEvent.publicKeys roomThirdPartyInviteEvent
    let signedCanonicalJson ← thirdPartyInvite.signedCanonicalJson
    verifySignatures signatureMatches publicKeys signedCanonicalJson signatures

/-- `check_third_party_invite`. -/
def checkThirdPartyInvite (signatureMatches : String → String → String → String → Bool)
    (roomMemberEvent : Event) (thirdPartyInvite : ThirdPartyInvite) (targetUser : String) :
    Check Unit := do
  let currentTargetUserMembership ← Query.lift (userMembership targetUser) >>= liftExcept
  if currentTargetUserMembership = .ban then throw "cannot invite user that is banned"
  else do
    let token ← liftExcept thirdPartyInvite.token
    let mxid ← liftExcept thirdPartyInvite.mxid
    if targetUser ≠ mxid then throw "third-party invite mxid does not match target user"
    else do
      match ← Query.lift (roomThirdPartyInviteEvent token) with
      | none => throw "no `m.room.third_party_invite` in room state matches the token"
      | some roomThirdPartyInviteEvent =>
          liftExcept (thirdPartyInviteRules signatureMatches roomMemberEvent thirdPartyInvite
            roomThirdPartyInviteEvent)

/-- `check_room_member_invite` without a third-party invite, after its reads. -/
def inviteRules (roomMemberEvent : Event) (rules : AuthorizationRules)
    (roomCreateEvent : Event) (senderMembership currentTargetUserMembership : Except String MembershipState)
    (roomPowerLevelsEvent : Option Event) : Except String Unit := do
  let senderMembership ← senderMembership
  if senderMembership ≠ .join then throw "cannot invite user if sender is not joined"
  else do
    let currentTargetUserMembership ← currentTargetUserMembership
    if currentTargetUserMembership = .join ∨ currentTargetUserMembership = .ban then
      throw "cannot invite user that is joined or banned"
    else do
      let creators ← RoomCreateEvent.creators rules roomCreateEvent
      let senderPowerLevel ← RoomPowerLevelsEventOption.userPowerLevel roomPowerLevelsEvent
        roomMemberEvent.sender.asStr creators rules
      let invitePowerLevel ←
        RoomPowerLevelsEventOption.getAsIntOrDefault roomPowerLevelsEvent .invite rules
      if senderPowerLevel < invitePowerLevel then throw "sender does not have enough power to invite"
      else pure ()

/-- `check_room_member_invite`. -/
def checkRoomMemberInvite (signatureMatches : String → String → String → String → Bool)
    (roomMemberEvent : Event) (targetUser : String) (rules : AuthorizationRules)
    (roomCreateEvent : Event) : Check Unit := do
  match ← liftExcept (RoomMemberEventContent.thirdPartyInvite roomMemberEvent.content) with
  | some thirdPartyInvite =>
      checkThirdPartyInvite signatureMatches roomMemberEvent thirdPartyInvite targetUser
  | none => do
      let senderMembership ← Query.lift (userMembership roomMemberEvent.sender.asStr)
      let currentTargetUserMembership ← Query.lift (userMembership targetUser)
      let roomPowerLevelsEvent ← Query.lift roomPowerLevelsEvent
      liftExcept (inviteRules roomMemberEvent rules roomCreateEvent senderMembership
        currentTargetUserMembership roomPowerLevelsEvent)

/-- `check_room_member_leave`, after its reads: leaving oneself needs to be joined, invited or
knocking; kicking needs the kick level above the target's, and the ban level to unban. -/
def leaveRules (roomMemberEvent : Event) (targetUser : String) (rules : AuthorizationRules)
    (roomCreateEvent : Event) (senderMembership : Except String MembershipState)
    (roomPowerLevelsEvent : Option Event)
    (currentTargetUserMembership : Except String MembershipState) : Except String Unit := do
  let senderMembership ← senderMembership
  if roomMemberEvent.sender.asStr = targetUser then
    if senderMembership = .join ∨ senderMembership = .invite ∨
        rules.knocking ∧ senderMembership = .knock then pure ()
    else throw "cannot leave if not joined, invited or knocked"
  else if senderMembership ≠ .join then throw "cannot kick if sender is not joined"
  else do
    let creators ← RoomCreateEvent.creators rules roomCreateEvent
    let currentTargetUserMembership ← currentTargetUserMembership
    let senderPowerLevel ← RoomPowerLevelsEventOption.userPowerLevel roomPowerLevelsEvent
      roomMemberEvent.sender.asStr creators rules
    let banPowerLevel ← RoomPowerLevelsEventOption.getAsIntOrDefault roomPowerLevelsEvent .ban rules
    if currentTargetUserMembership = .ban ∧ senderPowerLevel < banPowerLevel then
      throw "sender does not have enough power to unban"
    else do
      let kickPowerLevel ←
        RoomPowerLevelsEventOption.getAsIntOrDefault roomPowerLevelsEvent .kick rules
      let targetUserPowerLevel ←
        RoomPowerLevelsEventOption.userPowerLevel roomPowerLevelsEvent targetUser creators rules
      if (kickPowerLevel : UserPowerLevel) ≤ senderPowerLevel ∧
          targetUserPowerLevel < senderPowerLevel then pure ()
      else throw "sender does not have enough power to kick target user"

/-- `check_room_member_leave`. -/
def checkRoomMemberLeave (roomMemberEvent : Event) (targetUser : String) (rules : AuthorizationRules)
    (roomCreateEvent : Event) : Check Unit := do
  let senderMembership ← Query.lift (userMembership roomMemberEvent.sender.asStr)
  let roomPowerLevelsEvent ← Query.lift roomPowerLevelsEvent
  let currentTargetUserMembership ← Query.lift (userMembership targetUser)
  liftExcept (leaveRules roomMemberEvent targetUser rules roomCreateEvent senderMembership
    roomPowerLevelsEvent currentTargetUserMembership)

/-- `check_room_member_ban`, after its reads: the ban level, and a level above the target's. -/
def banRules (roomMemberEvent : Event) (targetUser : String) (rules : AuthorizationRules)
    (roomCreateEvent : Event) (senderMembership : Except String MembershipState)
    (roomPowerLevelsEvent : Option Event) : Except String Unit := do
  let senderMembership ← senderMembership
  if senderMembership ≠ .join then throw "cannot ban if sender is not joined"
  else do
    let creators ← RoomCreateEvent.creators rules roomCreateEvent
    let senderPowerLevel ← RoomPowerLevelsEventOption.userPowerLevel roomPowerLevelsEvent
      roomMemberEvent.sender.asStr creators rules
    let banPowerLevel ← RoomPowerLevelsEventOption.getAsIntOrDefault roomPowerLevelsEvent .ban rules
    let targetUserPowerLevel ←
      RoomPowerLevelsEventOption.userPowerLevel roomPowerLevelsEvent targetUser creators rules
    if (banPowerLevel : UserPowerLevel) ≤ senderPowerLevel ∧
        targetUserPowerLevel < senderPowerLevel then pure ()
    else throw "sender does not have enough power to ban target user"

/-- `check_room_member_ban`. -/
def checkRoomMemberBan (roomMemberEvent : Event) (targetUser : String) (rules : AuthorizationRules)
    (roomCreateEvent : Event) : Check Unit := do
  let senderMembership ← Query.lift (userMembership roomMemberEvent.sender.asStr)
  let roomPowerLevelsEvent ← Query.lift roomPowerLevelsEvent
  liftExcept (banRules roomMemberEvent targetUser rules roomCreateEvent senderMembership
    roomPowerLevelsEvent)

/-- `check_room_member_knock`, after its reads. -/
def knockRules (roomMemberEvent : Event) (targetUser : String) (rules : AuthorizationRules)
    (joinRule : Except String JoinRule) (senderMembership : Except String MembershipState) :
    Except String Unit := do
  let joinRule ← joinRule
  if ¬(joinRule = .knock ∨ rules.knockRestrictedJoinRule ∧ joinRule = .knockRestricted) then
    throw "join rule is not set to knock or knock_restricted, knocking is not allowed"
  else if roomMemberEvent.sender.asStr ≠ targetUser then
    throw "cannot make another user knock, sender does not match target user"
  else do
    let senderMembership ← senderMembership
    if ¬(senderMembership = .ban ∨ senderMembership = .invite ∨ senderMembership = .join) then
      pure ()
    else throw "cannot knock if user is banned, invited or joined"

/-- `check_room_member_knock`. -/
def checkRoomMemberKnock (roomMemberEvent : Event) (targetUser : String)
    (rules : AuthorizationRules) : Check Unit := do
  let joinRule ← Query.lift joinRule
  let senderMembership ← Query.lift (userMembership roomMemberEvent.sender.asStr)
  liftExcept (knockRules roomMemberEvent targetUser rules joinRule senderMembership)

/-- `check_room_member`: the target is the state key, which must be a user id, of the create
event's server in a room that does not federate; then the rules of the new membership. -/
def checkRoomMember (signatureMatches : String → String → String → String → Bool)
    (roomMemberEvent : Event) (rules : AuthorizationRules) (roomCreateEvent : Event) :
    Check Unit :=
  match roomMemberEvent.stateKey with
  | none => throw "missing `state_key` field in `m.room.member` event"
  | some stateKey =>
      match UserId.parse stateKey with
      | none => throw "invalid `state_key` field in `m.room.member` event"
      | some targetUser => do
          let federate ← liftExcept (RoomCreateEvent.federate roomCreateEvent)
          if !federate ∧ targetUser.serverName ≠ roomCreateEvent.sender.serverName then
            throw ("MSC4361: room is not federated and target user domain does not match " ++
              "`m.room.create` event's sender domain")
          else do
            match ← liftExcept (RoomMemberEventContent.membership roomMemberEvent.content) with
            | .join => checkRoomMemberJoin roomMemberEvent stateKey rules roomCreateEvent
            | .invite =>
                checkRoomMemberInvite signatureMatches roomMemberEvent stateKey rules roomCreateEvent
            | .leave => checkRoomMemberLeave roomMemberEvent stateKey rules roomCreateEvent
            | .ban => checkRoomMemberBan roomMemberEvent stateKey rules roomCreateEvent
            | .knock =>
                if rules.knocking then checkRoomMemberKnock roomMemberEvent stateKey rules
                else throw "unknown membership"
            | .custom _ => throw "unknown membership"

/-! ## `check_state_dependent_auth_rules` -/

/-- The rules for every event but a create, aliases or member event, after the reads: the sender
is joined, has the invite level for a third-party invite and the event type's level for the
rest, sends no state keyed by another user, and passes the power-levels and redaction rules. -/
def senderRules (rules : AuthorizationRules) (incomingEvent roomCreateEvent : Event)
    (senderMembership : Except String MembershipState)
    (currentRoomPowerLevelsEvent : Option Event) : Except String Unit := do
  let senderMembership ← senderMembership
  if senderMembership ≠ .join then
    throw ("sender's membership `" ++ senderMembership.asStr ++ "` is not `join`")
  else do
    let creators ← RoomCreateEvent.creators rules roomCreateEvent
    let senderPowerLevel ← RoomPowerLevelsEventOption.userPowerLevel currentRoomPowerLevelsEvent
      incomingEvent.sender.asStr creators rules
    if incomingEvent.eventType = .roomThirdPartyInvite then do
      let invitePowerLevel ←
        RoomPowerLevelsEventOption.getAsIntOrDefault currentRoomPowerLevelsEvent .invite rules
      if senderPowerLevel < invitePowerLevel then
        throw ("sender does not have enough power (" ++ senderPowerLevel.debug ++
          ") to send invites (" ++ toString invitePowerLevel ++ ") in this room")
      else pure ()
    else do
      let eventTypePowerLevel ← RoomPowerLevelsEventOption.eventPowerLevel
        currentRoomPowerLevelsEvent incomingEvent.eventType incomingEvent.stateKey rules
      if senderPowerLevel < eventTypePowerLevel then
        throw ("sender does not have enough power (" ++ senderPowerLevel.debug ++ ") for `" ++
          incomingEvent.eventType.toCowStr ++ "` event type (" ++ toString eventTypePowerLevel ++
          ")")
      else if incomingEvent.stateKey.any (fun key => key.toList.head? == some '@') ∧
          incomingEvent.stateKey ≠ some incomingEvent.sender.asStr then
        throw "sender cannot send event with `state_key` matching another user's ID"
      else if incomingEvent.eventType = .roomPowerLevels then
        checkRoomPowerLevels incomingEvent currentRoomPowerLevelsEvent rules senderPowerLevel creators
      else if rules.specialCaseRoomRedaction ∧ incomingEvent.eventType = .roomRedaction then
        checkRoomRedaction incomingEvent currentRoomPowerLevelsEvent rules senderPowerLevel
      else pure ()

/-- `check_state_dependent_auth_rules`. -/
def checkStateDependentAuthRules (signatureMatches : String → String → String → String → Bool)
    (rules : AuthorizationRules) (incomingEvent : Event) : Check Unit :=
  if incomingEvent.eventType = .roomCreate then pure ()
  else do
    let sender := incomingEvent.sender
    let roomCreateEvent ← Query.lift roomCreateEvent
    let senderMembership ← Query.lift (userMembership sender.asStr)
    let currentRoomPowerLevelsEvent ← Query.lift roomPowerLevelsEvent
    let roomCreateEvent ← liftExcept roomCreateEvent
    let federate ← liftExcept (RoomCreateEvent.federate roomCreateEvent)
    if !federate ∧ roomCreateEvent.sender.serverName ≠ sender.serverName then
      throw ("room is not federated and event's sender domain does not match `m.room.create` " ++
        "event's sender domain")
    else if rules.specialCaseRoomAliases ∧ incomingEvent.eventType.toCowStr = "m.room.aliases" then
      if incomingEvent.stateKey ≠ some sender.serverName then
        throw ("server name of the `state_key` of `m.room.aliases` event does not match the " ++
          "server name of the sender")
      else pure ()
    else if incomingEvent.eventType = .roomMember then
      checkRoomMember signatureMatches incomingEvent rules roomCreateEvent
    else
      liftExcept (senderRules rules incomingEvent roomCreateEvent senderMembership
        currentRoomPowerLevelsEvent)

end EventAuth
end StateRes
end Tuwunel
