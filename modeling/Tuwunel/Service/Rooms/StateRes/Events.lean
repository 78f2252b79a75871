import Mathlib
import Tuwunel.Core.Identifiers
import Tuwunel.Service.Rooms.StateCache.Update

/-!
# The events the authorization rules read

`state_res::events` wraps an event and reads its JSON content one field at a time: each accessor
deserializes the content into a struct with the one field it wants, so that a content may be
well formed for one accessor and not for another.  An event's `Content` here is what each of those
deserializations gives: a field is absent, present with a value of its type, or present with one
that does not deserialize (`JsonField`).  The accessors turn that into the source's `Result`, with
its messages.

The room versions are the ones the server supports (`STABLE_ROOM_VERSIONS` and
`UNSTABLE_ROOM_VERSIONS`), each with the flags of its authorization rules that the rules read.

A user's power level is `UserPowerLevel`: an integer, or `Infinite` above every integer for the
creators of a room whose rules privilege them; it is `WithTop Int` with that order.
-/

namespace Tuwunel
namespace StateRes
namespace Events

open StateCache (MembershipState)

/-- The flags of `AuthorizationRules` that the auth-events selection and the state-dependent
rules read. -/
structure AuthorizationRules where
  specialCaseRoomAliases : Bool
  specialCaseRoomRedaction : Bool
  knocking : Bool
  restrictedJoinRule : Bool
  knockRestrictedJoinRule : Bool
  integerPowerLevels : Bool
  limitNotificationsPowerLevels : Bool
  useRoomCreateSender : Bool
  explicitlyPrivilegeRoomCreators : Bool
  additionalRoomCreators : Bool
  roomCreateEventIdAsRoomId : Bool
  deriving DecidableEq, Repr

/-- A room version the server supports. -/
inductive RoomVersion
  | v3 | v4 | v5 | v6 | v7 | v8 | v9 | v10 | v11 | v12
  deriving DecidableEq, Repr

/-- `RoomVersionId::rules().authorization`: aliases are special up to v5, notifications limited
from v6, knocking from v7, restricted joins from v8, knock-restricted joins and integer power
levels from v10, the create event's sender as creator from v11, privileged creators from v12. -/
def RoomVersion.rules : RoomVersion → AuthorizationRules
  | .v3 | .v4 | .v5 => ⟨true, false, false, false, false, false, false, false, false, false, false⟩
  | .v6 => ⟨false, false, false, false, false, false, true, false, false, false, false⟩
  | .v7 => ⟨false, false, true, false, false, false, true, false, false, false, false⟩
  | .v8 | .v9 => ⟨false, false, true, true, false, false, true, false, false, false, false⟩
  | .v10 => ⟨false, false, true, true, true, true, true, false, false, false, false⟩
  | .v11 => ⟨false, false, true, true, true, true, true, true, false, false, false⟩
  | .v12 => ⟨false, false, true, true, true, true, true, true, true, true, true⟩

/-- Every supported version that has knock-restricted joins has restricted joins too. -/
theorem RoomVersion.restrictedJoinRule_of_knockRestricted (version : RoomVersion)
    (knockRestricted : version.rules.knockRestrictedJoinRule = true) :
    version.rules.restrictedJoinRule = true := by
  cases version <;> simp_all [RoomVersion.rules]

/-- `TimelineEventType`, with the kinds the rules name kept apart. -/
inductive TimelineEventType
  | roomAliases
  | roomCreate
  | roomJoinRules
  | roomMember
  | roomPowerLevels
  | roomRedaction
  | roomThirdPartyInvite
  | other (kind : String)
  deriving DecidableEq, Repr

/-- `TimelineEventType::to_cow_str`. -/
def TimelineEventType.toCowStr : TimelineEventType → String
  | .roomAliases => "m.room.aliases"
  | .roomCreate => "m.room.create"
  | .roomJoinRules => "m.room.join_rules"
  | .roomMember => "m.room.member"
  | .roomPowerLevels => "m.room.power_levels"
  | .roomRedaction => "m.room.redaction"
  | .roomThirdPartyInvite => "m.room.third_party_invite"
  | .other kind => kind

/-- The `StateEventType`s the rules fetch. -/
inductive StateEventType
  | roomCreate
  | roomJoinRules
  | roomMember
  | roomPowerLevels
  | roomThirdPartyInvite
  deriving DecidableEq, Repr

/-- `TypeStateKey`: a state event type and a state key. -/
abbrev TypeStateKey := StateEventType × String

/-- `JoinRule`, with its catch-all for rules it does not know. -/
inductive JoinRule
  | «public»
  | invite
  | knock
  | restricted
  | knockRestricted
  | custom (value : String)
  deriving DecidableEq, Repr

/-- What a field of a JSON content deserializes to. -/
inductive JsonField (α : Type)
  | absent
  | present (value : α)
  | invalid
  deriving DecidableEq, Repr

/-- A field that must be present: `from_raw_json_value` into a struct with the field. -/
def JsonField.required {α : Type} (field : JsonField α) (message : String) : Except String α :=
  match field with
  | .present value => .ok value
  | _ => .error message

/-- A field that may be absent: `from_raw_json_value` into a struct with an `Option` field. -/
def JsonField.optional {α : Type} (field : JsonField α) (message : String) :
    Except String (Option α) :=
  match field with
  | .absent => .ok none
  | .present value => .ok (some value)
  | .invalid => .error message

/-- One entry of `signed.signatures`: an object from key ids to signatures (each read with
`as_str`), or some other JSON value. -/
inductive EntitySignatures
  | object (entries : List (String × Option String))
  | other
  deriving DecidableEq, Repr

/-- The fields of `third_party_invite.signed` that the rules read, and its canonical JSON where
it has one. -/
structure Signed where
  token : JsonField String
  mxid : JsonField String
  signatures : JsonField (List EntitySignatures)
  canonicalJson : Option String
  deriving DecidableEq, Repr

/-- `ThirdPartyInvite`. -/
structure ThirdPartyInvite where
  signed : Signed
  deriving DecidableEq, Repr

/-- A power level as written in the JSON: an integer, a string, or something else. -/
inductive PowerValue
  | int (value : Int)
  | text (value : String)
  | other
  deriving DecidableEq, Repr

/-- A power-level map as written in the JSON: an object, or something else. -/
inductive PowerMap (κ : Type)
  | object (entries : List (κ × PowerValue))
  | other
  deriving DecidableEq, Repr

/-- `RoomPowerLevelsIntField`. -/
inductive RoomPowerLevelsIntField
  | usersDefault
  | eventsDefault
  | stateDefault
  | ban
  | redact
  | kick
  | invite
  deriving DecidableEq, Repr

/-- The content of an `m.room.power_levels` event that is a JSON object: its integer fields and
its three maps, where present. -/
structure PowerLevelsContent where
  intField : RoomPowerLevelsIntField → Option PowerValue
  events : Option (PowerMap TimelineEventType)
  notifications : Option (PowerMap String)
  users : Option (PowerMap String)

/-- What the accessors of `state_res::events` find in an event's content. -/
structure Content where
  membership : JsonField MembershipState
  joinAuthorisedViaUsersServer : JsonField String
  thirdPartyInvite : JsonField ThirdPartyInvite
  federate : JsonField Bool
  creator : JsonField String
  additionalCreators : JsonField (List String)
  joinRule : JsonField JoinRule
  /-- The public keys of an `m.room.third_party_invite`, where they deserialize. -/
  publicKeys : Option (List String)
  /-- The content as a power-levels object, where it is a JSON object. -/
  powerLevels : Option PowerLevelsContent

/-- The fields of an `Event` the rules read. -/
structure Event where
  eventId : EventId
  eventType : TimelineEventType
  sender : UserId
  stateKey : Option String
  prevEvents : List EventId
  redacts : Option EventId
  content : Content

/-- `EventId::server_name`: what follows the first colon, where there is one. -/
def eventIdServerName (eventId : EventId) : Option ServerName :=
  match eventId.toList.span (· ≠ ':') with
  | (_, ':' :: serverName) => some (String.ofList serverName)
  | _ => none

/-- `UserPowerLevel`: an integer level, or `Infinite` above all of them. -/
abbrev UserPowerLevel := WithTop Int

/-- Levels compare as `WithTop` over the integers' own order, so that the rules comparing them
stay computable whatever other orders on the integers are in scope. -/
instance : LT UserPowerLevel := WithTop.instLT

instance : LE UserPowerLevel := WithTop.instLE

/-- The derived `Debug` of `UserPowerLevel`, which the sender rules print in their errors. -/
def UserPowerLevel.debug : UserPowerLevel → String
  | none => "Infinite"
  | some level => "Int(" ++ toString level ++ ")"

/-! ## `m.room.member` -/

namespace RoomMemberEventContent

/-- `RoomMemberEventContent::membership`. -/
def membership (content : Content) : Except String MembershipState :=
  content.membership.required "missing or invalid `membership` field in `m.room.member` event"

/-- `RoomMemberEventContent::join_authorised_via_users_server`. -/
def joinAuthorisedViaUsersServer (content : Content) : Except String (Option String) :=
  content.joinAuthorisedViaUsersServer.optional
    "invalid `join_authorised_via_users_server` field in `m.room.member` event"

/-- `RoomMemberEventContent::third_party_invite`. -/
def thirdPartyInvite (content : Content) : Except String (Option ThirdPartyInvite) :=
  content.thirdPartyInvite.optional "invalid `third_party_invite` field in `m.room.member` event"

end RoomMemberEventContent

namespace ThirdPartyInvite

/-- A field of `signed`: missing, or not of the expected JSON type, is an error. -/
def signedField {α : Type} (field : JsonField α) (name expected : String) : Except String α :=
  match field with
  | .absent => .error
      ("missing `" ++ name ++ "` field in `third_party_invite.signed` of `m.room.member` event")
  | .present value => .ok value
  | .invalid => .error ("unexpected format of `" ++ name ++
      "` field in `third_party_invite.signed` of `m.room.member` event: expected " ++ expected)

/-- `ThirdPartyInvite::token`. -/
def token (invite : ThirdPartyInvite) : Except String String :=
  signedField invite.signed.token "token" "string"

/-- `ThirdPartyInvite::mxid`. -/
def mxid (invite : ThirdPartyInvite) : Except String String :=
  signedField invite.signed.mxid "mxid" "string"

/-- `ThirdPartyInvite::signatures`. -/
def signatures (invite : ThirdPartyInvite) : Except String (List EntitySignatures) :=
  signedField invite.signed.signatures "signatures" "object"

/-- `ThirdPartyInvite::signed_canonical_json`. -/
def signedCanonicalJson (invite : ThirdPartyInvite) : Except String String :=
  match invite.signed.canonicalJson with
  | some json => .ok json
  | none => .error "invalid `third_party_invite.signed` field in `m.room.member` event"

end ThirdPartyInvite

/-! ## `m.room.create`, `m.room.join_rules`, `m.room.third_party_invite` -/

namespace RoomCreateEvent

/-- `RoomCreateEvent::federate`: `true` where the field is absent. -/
def federate (event : Event) : Except String Bool :=
  (event.content.federate.optional "invalid `m.federate` field in `m.room.create` event").map
    (·.getD true)

/-- `RoomCreateEvent::creator`: the sender from v11, the `creator` field before. -/
def creator (rules : AuthorizationRules) (event : Event) : Except String String :=
  if rules.useRoomCreateSender then .ok event.sender.asStr
  else event.content.creator.required "missing or invalid `creator` field in `m.room.create` event"

/-- `RoomCreateEvent::additional_creators`, read only where the rules have them. -/
def additionalCreators (rules : AuthorizationRules) (event : Event) : Except String (List String) :=
  if rules.additionalRoomCreators then
    (event.content.additionalCreators.optional
      "invalid `additional_creators` field in `m.room.create` event").map (·.getD [])
  else .ok []

/-- `RoomCreateEvent::creators`: the creator, then the additional creators. -/
def creators (rules : AuthorizationRules) (event : Event) : Except String (List String) := do
  let initial ← creator rules event
  let additional ← additionalCreators rules event
  pure (initial :: additional)

end RoomCreateEvent

/-- `RoomJoinRulesEvent::join_rule`. -/
def RoomJoinRulesEvent.joinRule (event : Event) : Except String JoinRule :=
  event.content.joinRule.required "missing or invalid `join_rule` field in `m.room.join_rules` event"

/-- `RoomThirdPartyInviteEvent::public_keys`. -/
def RoomThirdPartyInviteEvent.publicKeys (event : Event) : Except String (List String) :=
  match event.content.publicKeys with
  | some keys => .ok keys
  | none => .error "invalid `public_key` or `public_keys` in `m.room.third_party_invite` event"

/-! ## `m.room.power_levels` -/

namespace RoomPowerLevelsIntField

/-- `RoomPowerLevelsIntField::ALL`. -/
def all : List RoomPowerLevelsIntField :=
  [.usersDefault, .eventsDefault, .stateDefault, .ban, .redact, .kick, .invite]

/-- `RoomPowerLevelsIntField::as_str`. -/
def asStr : RoomPowerLevelsIntField → String
  | .usersDefault => "users_default"
  | .eventsDefault => "events_default"
  | .stateDefault => "state_default"
  | .ban => "ban"
  | .redact => "redact"
  | .kick => "kick"
  | .invite => "invite"

/-- `RoomPowerLevelsIntField::default_value`. -/
def defaultValue : RoomPowerLevelsIntField → Int
  | .usersDefault | .eventsDefault | .invite => 0
  | .stateDefault | .kick | .ban | .redact => 50

end RoomPowerLevelsIntField

/-- A power level deserialized: an integer, and from v1 to v9 also a string holding one
(`deserialize_v1_powerlevel`). -/
def PowerValue.deserialize (rules : AuthorizationRules) : PowerValue → Option Int
  | .int value => some value
  | .text value => if rules.integerPowerLevels then none else value.toInt?
  | .other => none

/-- The entries of a power-level map deserialized in order; one that does not deserialize fails
the map. -/
def deserializeEntries {κ : Type} (rules : AuthorizationRules) :
    List (κ × PowerValue) → Option (List (κ × Int))
  | [] => some []
  | (key, value) :: entries => do
      let level ← value.deserialize rules
      let rest ← deserializeEntries rules entries
      pure ((key, level) :: rest)

/-- `vec_deserialize_int_powerlevel_values` or `vec_deserialize_v1_powerlevel_values`. -/
def PowerMap.deserialize {κ : Type} (rules : AuthorizationRules) : PowerMap κ → Option (List (κ × Int))
  | .object entries => deserializeEntries rules entries
  | .other => none

namespace RoomPowerLevelsEvent

/-- `RoomPowerLevelsEvent::deserialized_content`. -/
def deserializedContent (event : Event) : Except String PowerLevelsContent :=
  match event.content.powerLevels with
  | some content => .ok content
  | none => .error "malformed `m.room.power_levels` content"

/-- `RoomPowerLevelsEvent::get_as_int`. -/
def getAsInt (event : Event) (field : RoomPowerLevelsIntField) (rules : AuthorizationRules) :
    Except String (Option Int) := do
  let content ← deserializedContent event
  match content.intField field with
  | none => pure none
  | some value =>
      match value.deserialize rules with
      | some level => pure (some level)
      | none => throw ("unexpected format of `" ++ field.asStr ++
          "` field in `content` of `m.room.power_levels` event")

/-- `RoomPowerLevelsEvent::get_as_int_or_default`. -/
def getAsIntOrDefault (event : Event) (field : RoomPowerLevelsIntField)
    (rules : AuthorizationRules) : Except String Int :=
  (getAsInt event field rules).map (·.getD field.defaultValue)

/-- `RoomPowerLevelsEvent::get_as_int_map`, for the map `select` picks, named `field`. -/
def getAsIntMap {κ : Type} (select : PowerLevelsContent → Option (PowerMap κ)) (field : String)
    (event : Event) (rules : AuthorizationRules) : Except String (Option (List (κ × Int))) := do
  let content ← deserializedContent event
  match select content with
  | none => pure none
  | some map =>
      match map.deserialize rules with
      | some entries => pure (some entries)
      | none => throw ("unexpected format of `" ++ field ++
          "` field in `content` of `m.room.power_levels` event")

/-- `RoomPowerLevelsEvent::events`. -/
def events (event : Event) (rules : AuthorizationRules) :
    Except String (Option (List (TimelineEventType × Int))) :=
  getAsIntMap PowerLevelsContent.events "events" event rules

/-- `RoomPowerLevelsEvent::notifications`. -/
def notifications (event : Event) (rules : AuthorizationRules) :
    Except String (Option (List (String × Int))) :=
  getAsIntMap PowerLevelsContent.notifications "notifications" event rules

/-- `RoomPowerLevelsEvent::users`. -/
def users (event : Event) (rules : AuthorizationRules) : Except String (Option (List (String × Int))) :=
  getAsIntMap PowerLevelsContent.users "users" event rules

/-- `RoomPowerLevelsEvent::user_power_level`: the user's entry in `users` (the first, as
`get_value` finds it), or `users_default`. -/
def userPowerLevel (event : Event) (userId : String) (rules : AuthorizationRules) :
    Except String UserPowerLevel := do
  let users ← users event rules
  match users.bind (·.lookup userId) with
  | some level => pure level
  | none => (getAsIntOrDefault event .usersDefault rules).map (↑)

/-- `RoomPowerLevelsEvent::event_power_level`: the type's entry in `events`, or the default for
state or for other events. -/
def eventPowerLevel (event : Event) (eventType : TimelineEventType) (stateKey : Option String)
    (rules : AuthorizationRules) : Except String Int := do
  let events ← events event rules
  match events.bind (·.lookup eventType) with
  | some level => pure level
  | none =>
      getAsIntOrDefault event (if stateKey.isSome then .stateDefault else .eventsDefault) rules

/-- The fields of `fields` that are present, in order; the first that does not deserialize fails
them all. -/
def collectIntFields (event : Event) (rules : AuthorizationRules) :
    List RoomPowerLevelsIntField → Except String (List (RoomPowerLevelsIntField × Int))
  | [] => .ok []
  | field :: fields => do
      let value ← getAsInt event field rules
      let rest ← collectIntFields event rules fields
      pure (match value with
        | some level => (field, level) :: rest
        | none => rest)

/-- `RoomPowerLevelsEvent::int_fields_map`. -/
def intFieldsMap (event : Event) (rules : AuthorizationRules) :
    Except String (List (RoomPowerLevelsIntField × Int)) :=
  collectIntFields event rules RoomPowerLevelsIntField.all

end RoomPowerLevelsEvent

/-- `DEFAULT_CREATOR_POWER_LEVEL`. -/
def defaultCreatorPowerLevel : Int := 100

namespace RoomPowerLevelsEventOption

/-- `RoomPowerLevelsEventOptionExt::user_power_level`: `Infinite` for a creator where the rules
privilege them; the event's level where there is an event; otherwise `100` for a creator and
`users_default`'s default for anyone else. -/
def userPowerLevel (event : Option Event) (userId : String) (creators : List String)
    (rules : AuthorizationRules) : Except String UserPowerLevel :=
  if rules.explicitlyPrivilegeRoomCreators ∧ userId ∈ creators then .ok ⊤
  else
    match event with
    | some event => RoomPowerLevelsEvent.userPowerLevel event userId rules
    | none =>
        .ok (if userId ∈ creators then defaultCreatorPowerLevel
          else RoomPowerLevelsIntField.usersDefault.defaultValue)

/-- `RoomPowerLevelsEventOptionExt::get_as_int_or_default`. -/
def getAsIntOrDefault (event : Option Event) (field : RoomPowerLevelsIntField)
    (rules : AuthorizationRules) : Except String Int :=
  match event with
  | some event => RoomPowerLevelsEvent.getAsIntOrDefault event field rules
  | none => .ok field.defaultValue

/-- `RoomPowerLevelsEventOptionExt::event_power_level`. -/
def eventPowerLevel (event : Option Event) (eventType : TimelineEventType)
    (stateKey : Option String) (rules : AuthorizationRules) : Except String Int :=
  match event with
  | some event => RoomPowerLevelsEvent.eventPowerLevel event eventType stateKey rules
  | none => .ok (if stateKey.isSome then RoomPowerLevelsIntField.stateDefault.defaultValue
      else RoomPowerLevelsIntField.eventsDefault.defaultValue)

end RoomPowerLevelsEventOption

end Events
end StateRes
end Tuwunel
