import Tuwunel.Core.Identifiers
import Tuwunel.Core.Numbers

/-!
# Inbound EDUs

`handle_edus` runs `handle_edu` for every EDU of a federation transaction, concurrently; each
handler descends concurrently into rooms, users, devices and event ids, checks the identity the
EDU names against the sending server, and calls a service for what passes.  Those service calls
are the handlers' only writes, so a handler is modelled by the list of calls it makes.  What the
handler's reads return is an `Env`: in a concurrent run each EDU's handler reads the server's state
at its own moments, so each EDU of a transaction is paired with the answers its reads got.

`Admitted` states, for every kind of service call, the attribution and the guards the call needs.
Every call a transaction makes is admitted for the reads of the EDU that made it.  What a read
receipt's call then writes is in `Send/Receipts`.
-/

namespace Tuwunel
namespace Federation

/-- `PresenceState`. -/
inductive PresenceState
  | offline
  | online
  | unavailable
  deriving DecidableEq, Repr

/-- `PresenceUpdate`; times are milliseconds. -/
structure PresenceUpdate where
  userId : UserId
  presence : PresenceState
  statusMsg : Option String
  lastActiveAgo : Nat
  currentlyActive : Bool
  deriving DecidableEq, Repr

/-- `PresenceContent`. -/
structure PresenceContent where
  push : List PresenceUpdate
  deriving DecidableEq, Repr

/-- The `Receipt` a read receipt carries. -/
structure Receipt where
  ts : Option Nat
  /-- The thread's `as_str()`: `none` when unthreaded, `main`, or the thread root's id. -/
  thread : Option String
  deriving DecidableEq, Repr

/-- `ReceiptData`: a user's receipt and the events it covers. -/
structure ReceiptData where
  data : Receipt
  eventIds : List EventId
  deriving DecidableEq, Repr

/-- `ReceiptMap`: the read receipts of one room, by user. -/
structure ReceiptMap where
  read : List (UserId × ReceiptData)
  deriving DecidableEq, Repr

/-- `ReceiptContent`: receipt maps by room. -/
structure ReceiptContent where
  receipts : List (RoomId × ReceiptMap)
  deriving DecidableEq, Repr

/-- `TypingContent`. -/
structure TypingContent where
  roomId : RoomId
  userId : UserId
  typing : Bool
  deriving DecidableEq, Repr

/-- `DeviceListUpdateContent`, of which the handler reads the user. -/
structure DeviceListUpdateContent where
  userId : UserId
  deriving DecidableEq, Repr

/-- `DeviceIdOrAllDevices`. -/
inductive DeviceIdOrAllDevices
  | deviceId (deviceId : DeviceId)
  | allDevices
  deriving DecidableEq, Repr

/-- `DirectDeviceContent`; a raw event is `none` when it does not deserialize. -/
structure DirectDeviceContent where
  sender : UserId
  evType : String
  messageId : String
  messages : List (UserId × List (DeviceIdOrAllDevices × Option String))
  deriving DecidableEq, Repr

/-- `SigningKeyUpdateContent`; keys are their raw JSON. -/
structure SigningKeyUpdateContent where
  userId : UserId
  masterKey : Option String
  selfSigningKey : Option String
  deriving DecidableEq, Repr

/-- `Edu`. -/
inductive Edu
  | presence (presence : PresenceContent)
  | receipt (receipt : ReceiptContent)
  | typing (typing : TypingContent)
  | deviceListUpdate (content : DeviceListUpdateContent)
  | directToDevice (content : DirectDeviceContent)
  | signingKeyUpdate (content : SigningKeyUpdateContent)
  | custom (content : String)
  deriving DecidableEq, Repr

/-- `RoomServerAclEventContent`. -/
structure RoomServerAclEventContent where
  allow : List String
  deny : List String
  allowIpLiterals : Bool
  deriving DecidableEq, Repr

/-- What the handlers' reads return: the configuration, the server's state, and ruma's
`RoomServerAclEventContent::is_allowed`. -/
structure Env where
  serverName : ServerName
  allowIncomingPresence : Bool
  allowIncomingReadReceipts : Bool
  allowIncomingTyping : Bool
  typingFederationTimeoutS : Nat
  nowMillis : Nat
  roomServerAcl : RoomId → Option RoomServerAclEventContent
  isAllowed : RoomServerAclEventContent → ServerName → Bool
  serverInRoom : ServerName → RoomId → Bool
  isJoined : UserId → RoomId → Bool
  isActive : UserId → Bool
  isInterestedInUser : UserId → Bool
  allDeviceIds : UserId → List DeviceId
  existingTxnid : UserId → String → Bool

/-- The service calls the handlers make. -/
inductive Effect
  /-- `presence.set_presence_from_federation`. -/
  | setPresenceFromFederation (user : UserId) (presence : PresenceState) (currentlyActive : Bool)
      (lastActiveAgo : Nat) (statusMsg : Option String)
  /-- `read_receipt.readreceipt_update` of a read receipt for one event. -/
  | readreceiptUpdate (user : UserId) (room : RoomId) (event : EventId) (data : Receipt)
  /-- `typing.typing_add`. -/
  | typingAdd (user : UserId) (room : RoomId) (timeout : Nat)
  /-- `typing.typing_remove`. -/
  | typingRemove (user : UserId) (room : RoomId)
  /-- `users.mark_device_key_update`. -/
  | markDeviceKeyUpdate (user : UserId)
  /-- `users.add_to_device_event`. -/
  | addToDeviceEvent (sender target : UserId) (device : DeviceId) (evType event : String)
  /-- `sending.send_to_device_appservices`. -/
  | sendToDeviceAppservices (sender target : UserId) (devices : List DeviceId)
      (evType event : String)
  /-- `transaction_ids.add_txnid`. -/
  | addTxnid (sender : UserId) (messageId : String)
  /-- `users.add_cross_signing_keys`, notifying. -/
  | addCrossSigningKeys (user : UserId) (masterKey selfSigningKey : Option String)
  deriving DecidableEq, Repr

/-- `event_handler.acl_check`, `true` for `Ok`. -/
def aclCheck (env : Env) (server : ServerName) (room : RoomId) : Bool :=
  match env.roomServerAcl room with
  | none => true
  | some acl =>
      if acl.allow.isEmpty then true
      else if acl.deny.contains "*" && acl.allow.contains "*" then true
      else env.isAllowed acl server

/-- `handle_edu_presence_update`. -/
def handleEduPresenceUpdate (origin : ServerName) (update : PresenceUpdate) : List Effect :=
  if update.userId.serverName ≠ origin then []
  else
    [.setPresenceFromFederation update.userId update.presence update.currentlyActive
      update.lastActiveAgo update.statusMsg]

/-- `handle_edu_presence`. -/
def handleEduPresence (origin : ServerName) (presence : PresenceContent) : List Effect :=
  presence.push.flatMap (handleEduPresenceUpdate origin)

/-- `handle_edu_receipt_room_user`. -/
def handleEduReceiptRoomUser (env : Env) (origin : ServerName) (room : RoomId) (user : UserId)
    (userUpdates : ReceiptData) : List Effect :=
  if user.serverName ≠ origin then []
  else if !env.serverInRoom origin room then []
  else userUpdates.eventIds.map fun event => .readreceiptUpdate user room event userUpdates.data

/-- `handle_edu_receipt_room`. -/
def handleEduReceiptRoom (env : Env) (origin : ServerName) (room : RoomId)
    (roomUpdates : ReceiptMap) : List Effect :=
  if !aclCheck env origin room then []
  else roomUpdates.read.flatMap fun (user, userUpdates) =>
    handleEduReceiptRoomUser env origin room user userUpdates

/-- `handle_edu_receipt`. -/
def handleEduReceipt (env : Env) (origin : ServerName) (receipt : ReceiptContent) : List Effect :=
  receipt.receipts.flatMap fun (room, roomUpdates) => handleEduReceiptRoom env origin room roomUpdates

/-- `handle_edu_typing`. -/
def handleEduTyping (env : Env) (origin : ServerName) (typing : TypingContent) : List Effect :=
  if typing.userId.serverName ≠ origin then []
  else if !aclCheck env typing.userId.serverName typing.roomId then []
  else if !env.isJoined typing.userId typing.roomId then []
  else if typing.typing then
    let secs := env.typingFederationTimeoutS
    let timeout := saturatingAdd env.nowMillis (saturatingMul secs 1000)
    [.typingAdd typing.userId typing.roomId timeout]
  else [.typingRemove typing.userId typing.roomId]

/-- `handle_edu_device_list_update`. -/
def handleEduDeviceListUpdate (origin : ServerName) (content : DeviceListUpdateContent) :
    List Effect :=
  if content.userId.serverName ≠ origin then [] else [.markDeviceKeyUpdate content.userId]

/-- `to_device_deliverable`: a local account that is active or claimed by an appservice. -/
def toDeviceDeliverable (env : Env) (user : UserId) : Bool :=
  user.serverName == env.serverName && (env.isActive user || env.isInterestedInUser user)

/-- `handle_edu_direct_to_device_event`. -/
def handleEduDirectToDeviceEvent (env : Env) (target sender : UserId)
    (targetDeviceIdMaybe : DeviceIdOrAllDevices) (evType event : String) : List Effect :=
  match targetDeviceIdMaybe with
  | .deviceId targetDeviceId =>
      [.addToDeviceEvent sender target targetDeviceId evType event,
        .sendToDeviceAppservices sender target [targetDeviceId] evType event]
  | .allDevices =>
      let interested := env.isInterestedInUser target
      let devices := env.allDeviceIds target
      let deliveries := if interested then devices else []
      devices.map (fun device => .addToDeviceEvent sender target device evType event) ++
        if deliveries.isEmpty then []
        else [.sendToDeviceAppservices sender target deliveries evType event]

/-- `handle_edu_direct_to_device_user`: events that do not deserialize are dropped. -/
def handleEduDirectToDeviceUser (env : Env) (target sender : UserId) (evType : String)
    (map : List (DeviceIdOrAllDevices × Option String)) : List Effect :=
  map.flatMap fun (targetDevice, raw) =>
    match raw with
    | some event => handleEduDirectToDeviceEvent env target sender targetDevice evType event
    | none => []

/-- `handle_edu_direct_to_device`. -/
def handleEduDirectToDevice (env : Env) (origin : ServerName) (content : DirectDeviceContent) :
    List Effect :=
  if content.sender.serverName ≠ origin then []
  else if env.existingTxnid content.sender content.messageId then []
  else
    let deliverable := content.messages.filter fun (target, _) => toDeviceDeliverable env target
    (deliverable.flatMap fun (target, map) =>
        handleEduDirectToDeviceUser env target content.sender content.evType map) ++
      [.addTxnid content.sender content.messageId]

/-- `handle_edu_signing_key_update`. -/
def handleEduSigningKeyUpdate (origin : ServerName) (content : SigningKeyUpdateContent) :
    List Effect :=
  if content.userId.serverName ≠ origin then []
  else [.addCrossSigningKeys content.userId content.masterKey content.selfSigningKey]

/-- `handle_edu`: the disabled kinds and custom EDUs are skipped. -/
def handleEdu (env : Env) (origin : ServerName) : Edu → List Effect
  | .presence presence =>
      if env.allowIncomingPresence then handleEduPresence origin presence else []
  | .receipt receipt =>
      if env.allowIncomingReadReceipts then handleEduReceipt env origin receipt else []
  | .typing typing =>
      if env.allowIncomingTyping then handleEduTyping env origin typing else []
  | .deviceListUpdate content => handleEduDeviceListUpdate origin content
  | .directToDevice content => handleEduDirectToDevice env origin content
  | .signingKeyUpdate content => handleEduSigningKeyUpdate origin content
  | .custom _ => []

/-- `handle_edus` over a transaction whose EDUs are paired with what their handlers read. -/
def handleEdus (origin : ServerName) (edus : List (Env × Edu)) : List Effect :=
  edus.flatMap fun (env, edu) => handleEdu env origin edu

/-! ## Attribution -/

/-- The user a service call acts for: for to-device events, the sender. -/
def Effect.actor : Effect → UserId
  | .setPresenceFromFederation user .. => user
  | .readreceiptUpdate user .. => user
  | .typingAdd user .. => user
  | .typingRemove user .. => user
  | .markDeviceKeyUpdate user => user
  | .addToDeviceEvent sender .. => sender
  | .sendToDeviceAppservices sender .. => sender
  | .addTxnid sender _ => sender
  | .addCrossSigningKeys user .. => user

/-- What a service call made on behalf of `origin` needs: its actor is on `origin`; a receipt
is for a room whose ACL admits `origin` and which has a member on `origin`; typing changes for a
user joined to the room whose server the ACL admits; to-device events go to deliverable users. -/
def Admitted (env : Env) (origin : ServerName) (effect : Effect) : Prop :=
  effect.actor.serverName = origin ∧
    match effect with
    | .readreceiptUpdate _ room .. => aclCheck env origin room ∧ env.serverInRoom origin room
    | .typingAdd user room _ => aclCheck env origin room ∧ env.isJoined user room
    | .typingRemove user room => aclCheck env origin room ∧ env.isJoined user room
    | .addToDeviceEvent _ target .. => toDeviceDeliverable env target
    | .sendToDeviceAppservices _ target .. => toDeviceDeliverable env target
    | _ => True

section Handlers

variable (env : Env) (origin : ServerName)

theorem admitted_handleEduPresence (presence : PresenceContent) :
    ∀ effect ∈ handleEduPresence origin presence, Admitted env origin effect := by
  intro effect mem
  obtain ⟨update, -, mem⟩ := List.mem_flatMap.mp mem
  unfold handleEduPresenceUpdate at mem
  split_ifs at mem with foreign
  · simp at mem
  · obtain rfl := List.mem_singleton.mp mem
    exact ⟨not_not.mp foreign, trivial⟩

theorem admitted_handleEduReceiptRoomUser {room : RoomId} (acl : aclCheck env origin room = true)
    (user : UserId) (userUpdates : ReceiptData) :
    ∀ effect ∈ handleEduReceiptRoomUser env origin room user userUpdates,
      Admitted env origin effect := by
  intro effect mem
  unfold handleEduReceiptRoomUser at mem
  split_ifs at mem with foreign absent
  · simp at mem
  · simp at mem
  · obtain ⟨event, -, rfl⟩ := List.mem_map.mp mem
    exact ⟨not_not.mp foreign, acl, by simpa using absent⟩

theorem admitted_handleEduReceipt (receipt : ReceiptContent) :
    ∀ effect ∈ handleEduReceipt env origin receipt, Admitted env origin effect := by
  intro effect mem
  obtain ⟨⟨room, roomUpdates⟩, -, mem⟩ := List.mem_flatMap.mp mem
  simp only [handleEduReceiptRoom] at mem
  split_ifs at mem with denied
  · simp at mem
  · obtain ⟨⟨user, userUpdates⟩, -, mem⟩ := List.mem_flatMap.mp mem
    exact admitted_handleEduReceiptRoomUser env origin (by simpa using denied) user userUpdates
      effect mem

theorem admitted_handleEduTyping (typing : TypingContent) :
    ∀ effect ∈ handleEduTyping env origin typing, Admitted env origin effect := by
  intro effect mem
  unfold handleEduTyping at mem
  split_ifs at mem with foreign denied absent typed
  · simp at mem
  · simp at mem
  · simp at mem
  all_goals
    obtain rfl := List.mem_singleton.mp mem
    have onOrigin : typing.userId.serverName = origin := not_not.mp foreign
    refine ⟨onOrigin, ?_, by simpa using absent⟩
    simpa [onOrigin] using denied

theorem admitted_handleEduDeviceListUpdate (content : DeviceListUpdateContent) :
    ∀ effect ∈ handleEduDeviceListUpdate origin content, Admitted env origin effect := by
  intro effect mem
  unfold handleEduDeviceListUpdate at mem
  split_ifs at mem with foreign
  · simp at mem
  · obtain rfl := List.mem_singleton.mp mem
    exact ⟨not_not.mp foreign, trivial⟩

theorem admitted_handleEduDirectToDeviceEvent {target sender : UserId}
    (onOrigin : sender.serverName = origin) (deliverable : toDeviceDeliverable env target = true)
    (targetDevice : DeviceIdOrAllDevices) (evType event : String) :
    ∀ effect ∈ handleEduDirectToDeviceEvent env target sender targetDevice evType event,
      Admitted env origin effect := by
  intro effect mem
  cases targetDevice with
  | deviceId targetDeviceId =>
      simp only [handleEduDirectToDeviceEvent, List.mem_cons, List.not_mem_nil, or_false] at mem
      rcases mem with rfl | rfl
      · exact ⟨onOrigin, deliverable⟩
      · exact ⟨onOrigin, deliverable⟩
  | allDevices =>
      simp only [handleEduDirectToDeviceEvent, List.mem_append, List.mem_map] at mem
      rcases mem with ⟨device, -, rfl⟩ | sent
      · exact ⟨onOrigin, deliverable⟩
      · have toAppservices :
            ∃ devices, effect = .sendToDeviceAppservices sender target devices evType event := by
          split_ifs at sent <;> simp_all
        obtain ⟨devices, rfl⟩ := toAppservices
        exact ⟨onOrigin, deliverable⟩

theorem admitted_handleEduDirectToDevice (content : DirectDeviceContent) :
    ∀ effect ∈ handleEduDirectToDevice env origin content, Admitted env origin effect := by
  intro effect mem
  unfold handleEduDirectToDevice at mem
  split_ifs at mem with foreign known
  · simp at mem
  · simp at mem
  have onOrigin : content.sender.serverName = origin := not_not.mp foreign
  rcases List.mem_append.mp mem with delivered | recorded
  · obtain ⟨⟨target, map⟩, kept, delivered⟩ := List.mem_flatMap.mp delivered
    have deliverable : toDeviceDeliverable env target = true := (List.mem_filter.mp kept).2
    obtain ⟨⟨targetDevice, raw⟩, -, delivered⟩ := List.mem_flatMap.mp delivered
    cases raw with
    | none => simp at delivered
    | some event =>
        exact admitted_handleEduDirectToDeviceEvent env origin onOrigin deliverable targetDevice
          content.evType event effect delivered
  · obtain rfl := List.mem_singleton.mp recorded
    exact ⟨onOrigin, trivial⟩

theorem admitted_handleEduSigningKeyUpdate (content : SigningKeyUpdateContent) :
    ∀ effect ∈ handleEduSigningKeyUpdate origin content, Admitted env origin effect := by
  intro effect mem
  unfold handleEduSigningKeyUpdate at mem
  split_ifs at mem with foreign
  · simp at mem
  · obtain rfl := List.mem_singleton.mp mem
    exact ⟨not_not.mp foreign, trivial⟩

theorem admitted_handleEdu (edu : Edu) :
    ∀ effect ∈ handleEdu env origin edu, Admitted env origin effect := by
  intro effect mem
  cases edu with
  | presence presence =>
      simp only [handleEdu] at mem
      split_ifs at mem
      · exact admitted_handleEduPresence env origin presence effect mem
      · simp at mem
  | receipt receipt =>
      simp only [handleEdu] at mem
      split_ifs at mem
      · exact admitted_handleEduReceipt env origin receipt effect mem
      · simp at mem
  | typing typing =>
      simp only [handleEdu] at mem
      split_ifs at mem
      · exact admitted_handleEduTyping env origin typing effect mem
      · simp at mem
  | deviceListUpdate content => exact admitted_handleEduDeviceListUpdate env origin content effect mem
  | directToDevice content => exact admitted_handleEduDirectToDevice env origin content effect mem
  | signingKeyUpdate content =>
      exact admitted_handleEduSigningKeyUpdate env origin content effect mem
  | custom content => simp [handleEdu] at mem

end Handlers

/-- Every service call a transaction from `origin` makes acts for a user on `origin` and passed the
guards of its kind, against what the reads of the EDU that made it returned, however the handlers
interleave. -/
theorem handleEdus_admitted (origin : ServerName) (edus : List (Env × Edu)) :
    ∀ effect ∈ handleEdus origin edus,
      ∃ env edu, (env, edu) ∈ edus ∧ effect.actor.serverName = origin ∧ Admitted env origin effect := by
  intro effect mem
  obtain ⟨⟨env, edu⟩, received, made⟩ := List.mem_flatMap.mp mem
  have admitted := admitted_handleEdu env origin edu effect made
  exact ⟨env, edu, received, admitted.1, admitted⟩

/-- A server with no room ACLs, where every user is joined to every room and active. -/
def openEnv : Env where
  serverName := "local.org"
  allowIncomingPresence := true
  allowIncomingReadReceipts := true
  allowIncomingTyping := true
  typingFederationTimeoutS := 30
  nowMillis := 0
  roomServerAcl := fun _ => none
  isAllowed := fun _ _ => true
  serverInRoom := fun _ _ => true
  isJoined := fun _ _ => true
  isActive := fun _ => true
  isInterestedInUser := fun _ => false
  allDeviceIds := fun _ => ["DEVICE"]
  existingTxnid := fun _ _ => false

end Federation
end Tuwunel
