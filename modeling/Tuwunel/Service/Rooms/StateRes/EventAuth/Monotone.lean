import Tuwunel.Library.AssocTable
import Tuwunel.Library.ExceptOk
import Tuwunel.Service.Rooms.StateRes.EventAuth.Reads

/-!
# Authorization is monotone in the sender's power

Raise the sender's own entry in the `users` map of the current `m.room.power_levels` event (add
it where it is absent) to a value not below the sender's effective level, and leave the state as
it was otherwise: an event `check_state_dependent_auth_rules` accepted is still accepted
(`check_accepts_raised_sender`).

The proof follows what the raise does to the power levels the rules read (`Raises`): the sender's
level does not go down, every other user's level and every integer field and event-type level
stays.  Every rule compares the sender's level from below against what it needs (`<` rejects,
`≤` allows), with two exceptions handled apart: a ban or kick also compares the target's level,
which stays because an accepted ban or kick has a target other than the sender; and the `users`
diff of a power-levels event reads the raised map itself, where the sender's own entry is exempt
from the check of current values and its new value was within the sender's level.
-/

namespace Tuwunel
namespace StateRes
namespace EventAuth

open Events
open StateCache (MembershipState)

/-! ## The raise -/

/-- The `users` map with `userId`'s entry set to `level`, added where there is none. -/
def raiseUsers (userId : String) (level : Int) : Option (PowerMap String) → Option (PowerMap String)
  | none => some (.object [(userId, .int level)])
  | some (.object entries) =>
      some (.object (AssocTable.modify (.int level) (fun _ => .int level) entries userId))
  | some .other => some .other

/-- A power-levels event with `userId`'s entry in `users` raised to `level`. -/
def raiseUser (userId : String) (level : Int) (event : Event) : Event :=
  { event with content := { event.content with
      powerLevels := event.content.powerLevels.map fun content =>
        { content with users := raiseUsers userId level content.users } } }

/-- The state with `userId`'s entry in the current power levels raised to `level`. -/
def raiseSenderLevel (lookup : TypeStateKey → Option Event) (userId : String) (level : Int) :
    TypeStateKey → Option Event := fun key =>
  if key = (.roomPowerLevels, "") then (lookup key).map (raiseUser userId level) else lookup key

/-- The sender's effective level in a state: `user_power_level` with the state's creators. -/
def senderPowerLevel (rules : AuthorizationRules) (lookup : TypeStateKey → Option Event)
    (userId : String) : Except String UserPowerLevel := do
  let roomCreateEvent ← roomCreateEventOf (lookup (.roomCreate, ""))
  let creators ← RoomCreateEvent.creators rules roomCreateEvent
  RoomPowerLevelsEventOption.userPowerLevel (lookup (.roomPowerLevels, "")) userId creators rules

/-- The parsed `users` map after the raise. -/
def raiseEntries (userId : String) (level : Int) : Option (List (String × Int)) → List (String × Int)
  | none => [(userId, level)]
  | some entries => AssocTable.modify level (fun _ => level) entries userId

/-! ## What the raise does to the power levels -/

section Accessors

variable {userId : String} {level : Int} {rules : AuthorizationRules}

theorem lookup_raiseEntries (found : Option (List (String × Int))) (other : String) :
    (raiseEntries userId level found).lookup other =
      if other = userId then some level else found.bind (·.lookup other) := by
  cases found with
  | none =>
      by_cases same : other = userId
      · simp [raiseEntries, same]
      · simp [raiseEntries, same, List.lookup_cons, beq_false_of_ne same]
  | some entries => simp [raiseEntries, AssocTable.lookup_modify]

theorem deserializeEntries_modify {entries : List (String × PowerValue)}
    {parsed : List (String × Int)} (deserialized : deserializeEntries rules entries = some parsed) :
    deserializeEntries rules (AssocTable.modify (.int level) (fun _ => .int level) entries userId) =
      some (AssocTable.modify level (fun _ => level) parsed userId) := by
  induction entries generalizing parsed with
  | nil =>
      cases deserialized
      rfl
  | cons entry entries ih =>
      obtain ⟨key, value⟩ := entry
      simp only [deserializeEntries, Option.bind_eq_bind, Option.bind_eq_some_iff,
        Option.pure_def, Option.some.injEq] at deserialized
      obtain ⟨first, firstParsed, rest, restParsed, rfl⟩ := deserialized
      by_cases here : key = userId
      · simp [AssocTable.modify, here, deserializeEntries, restParsed, PowerValue.deserialize]
      · simp [AssocTable.modify, here, deserializeEntries, firstParsed, ih restParsed]

theorem getAsInt_raiseUser (event : Event) (field : RoomPowerLevelsIntField) :
    RoomPowerLevelsEvent.getAsInt (raiseUser userId level event) field rules =
      RoomPowerLevelsEvent.getAsInt event field rules := by
  simp only [RoomPowerLevelsEvent.getAsInt, RoomPowerLevelsEvent.deserializedContent, raiseUser]
  cases event.content.powerLevels <;> rfl

theorem getAsIntOrDefault_raiseUser (event : Event) (field : RoomPowerLevelsIntField) :
    RoomPowerLevelsEvent.getAsIntOrDefault (raiseUser userId level event) field rules =
      RoomPowerLevelsEvent.getAsIntOrDefault event field rules := by
  rw [RoomPowerLevelsEvent.getAsIntOrDefault, getAsInt_raiseUser]
  rfl

theorem events_raiseUser (event : Event) :
    RoomPowerLevelsEvent.events (raiseUser userId level event) rules =
      RoomPowerLevelsEvent.events event rules := by
  simp only [RoomPowerLevelsEvent.events, RoomPowerLevelsEvent.getAsIntMap,
    RoomPowerLevelsEvent.deserializedContent, raiseUser]
  cases event.content.powerLevels <;> rfl

theorem notifications_raiseUser (event : Event) :
    RoomPowerLevelsEvent.notifications (raiseUser userId level event) rules =
      RoomPowerLevelsEvent.notifications event rules := by
  simp only [RoomPowerLevelsEvent.notifications, RoomPowerLevelsEvent.getAsIntMap,
    RoomPowerLevelsEvent.deserializedContent, raiseUser]
  cases event.content.powerLevels <;> rfl

/-- Where the `users` map deserialized, the raised one does, with the entry raised. -/
theorem users_raiseUser {event : Event} {found : Option (List (String × Int))}
    (parsed : RoomPowerLevelsEvent.users event rules = .ok found) :
    RoomPowerLevelsEvent.users (raiseUser userId level event) rules =
      .ok (some (raiseEntries userId level found)) := by
  simp only [RoomPowerLevelsEvent.users, RoomPowerLevelsEvent.getAsIntMap,
    RoomPowerLevelsEvent.deserializedContent, raiseUser] at parsed ⊢
  cases content : event.content.powerLevels with
  | none => simp [content] at parsed
  | some content' =>
      simp only [content, Except.bind_eq_ok, Except.ok.injEq, exists_eq_left'] at parsed
      simp only [Option.map_some, raiseUsers]
      cases users : content'.users with
      | none =>
          rw [users] at parsed
          cases parsed
          rfl
      | some map =>
          cases map with
          | object entries =>
              cases deserialized : deserializeEntries rules entries with
              | none => simp [users, PowerMap.deserialize, deserialized] at parsed
              | some entries' =>
                  simp only [users, PowerMap.deserialize, deserialized] at parsed
                  cases parsed
                  simp [PowerMap.deserialize, deserializeEntries_modify deserialized, raiseEntries]
          | other => simp [users, PowerMap.deserialize] at parsed

theorem userPowerLevel_raiseUser_of_ne {event : Event} {other : String} {found : UserPowerLevel}
    (distinct : other ≠ userId)
    (current : RoomPowerLevelsEvent.userPowerLevel event other rules = .ok found) :
    RoomPowerLevelsEvent.userPowerLevel (raiseUser userId level event) other rules = .ok found := by
  simp only [RoomPowerLevelsEvent.userPowerLevel, Except.bind_eq_ok] at current ⊢
  obtain ⟨users, parsed, rest⟩ := current
  refine ⟨_, users_raiseUser parsed, ?_⟩
  simpa only [Option.bind_some, lookup_raiseEntries, if_neg distinct,
    getAsIntOrDefault_raiseUser] using rest

theorem userPowerLevel_raiseUser_self {event : Event} {found : UserPowerLevel}
    (current : RoomPowerLevelsEvent.userPowerLevel event userId rules = .ok found) :
    RoomPowerLevelsEvent.userPowerLevel (raiseUser userId level event) userId rules =
      .ok (level : UserPowerLevel) := by
  simp only [RoomPowerLevelsEvent.userPowerLevel, Except.bind_eq_ok] at current
  obtain ⟨users, parsed, -⟩ := current
  simp [RoomPowerLevelsEvent.userPowerLevel, users_raiseUser parsed, lookup_raiseEntries]

/-- A user's level is at least the entry `users` holds for them. -/
theorem entry_le_userPowerLevel {event : Event} {found : UserPowerLevel}
    {users : Option (List (String × Int))} {entry : Int}
    (current : RoomPowerLevelsEvent.userPowerLevel event userId rules = .ok found)
    (parsed : RoomPowerLevelsEvent.users event rules = .ok users)
    (held : users.bind (·.lookup userId) = some entry) : (entry : UserPowerLevel) = found := by
  simp only [RoomPowerLevelsEvent.userPowerLevel, Except.bind_eq_ok, parsed, Except.ok.injEq,
    exists_eq_left', held, Except.pure_eq_ok] at current
  exact current

end Accessors

/-- What the raise does to the levels the rules read from the power levels `current`, as
`raised`: the user's own level does not go down, and every other level stays. -/
structure Raises (rules : AuthorizationRules) (userId : String) (creators : List String)
    (current raised : Option Event) : Prop where
  userLevel : ∀ found,
    RoomPowerLevelsEventOption.userPowerLevel current userId creators rules = .ok found →
    ∃ higher, RoomPowerLevelsEventOption.userPowerLevel raised userId creators rules = .ok higher ∧
      found ≤ higher
  otherLevel : ∀ other found, other ≠ userId →
    RoomPowerLevelsEventOption.userPowerLevel current other creators rules = .ok found →
    RoomPowerLevelsEventOption.userPowerLevel raised other creators rules = .ok found
  intField : ∀ field, RoomPowerLevelsEventOption.getAsIntOrDefault raised field rules =
    RoomPowerLevelsEventOption.getAsIntOrDefault current field rules
  eventLevel : ∀ eventType stateKey,
    RoomPowerLevelsEventOption.eventPowerLevel raised eventType stateKey rules =
      RoomPowerLevelsEventOption.eventPowerLevel current eventType stateKey rules

section Raise

variable {userId : String} {level : Int} {rules : AuthorizationRules}

/-- Raising the entry to a value not below the user's level is a `Raises`. -/
theorem raises_raiseUser {current : Option Event} {creators : List String} {found : UserPowerLevel}
    (leveled : RoomPowerLevelsEventOption.userPowerLevel current userId creators rules = .ok found)
    (notLower : found ≤ level) :
    Raises rules userId creators current (current.map (raiseUser userId level)) where
  userLevel := by
    intro other otherLeveled
    rw [leveled] at otherLeveled
    cases otherLeveled
    cases current with
    | none => exact ⟨_, leveled, le_rfl⟩
    | some event =>
        unfold RoomPowerLevelsEventOption.userPowerLevel at leveled ⊢
        split
        · rename_i privileged
          rw [if_pos privileged] at leveled
          exact ⟨_, rfl, (Except.ok.inj leveled) ▸ le_rfl⟩
        · rename_i notPrivileged
          rw [if_neg notPrivileged] at leveled
          exact ⟨_, userPowerLevel_raiseUser_self leveled, notLower⟩
  otherLevel := by
    intro other otherFound distinct otherLeveled
    cases current with
    | none => exact otherLeveled
    | some event =>
        unfold RoomPowerLevelsEventOption.userPowerLevel at otherLeveled ⊢
        split
        · rename_i privileged
          rwa [if_pos privileged] at otherLeveled
        · rename_i notPrivileged
          rw [if_neg notPrivileged] at otherLeveled
          exact userPowerLevel_raiseUser_of_ne distinct otherLeveled
  intField := by
    intro field
    cases current with
    | none => rfl
    | some event => exact getAsIntOrDefault_raiseUser event field
  eventLevel := by
    intro eventType stateKey
    cases current with
    | none => rfl
    | some event =>
        simp [RoomPowerLevelsEventOption.eventPowerLevel, RoomPowerLevelsEvent.eventPowerLevel,
          events_raiseUser, getAsIntOrDefault_raiseUser]

end Raise

/-! ## The power-levels rules -/

section PowerLevelMaps

variable {κ : Type} {current new : Option (List (κ × Int))}
  {senderPowerLevel higher : UserPowerLevel} {reject relaxed : κ → Int → Bool}
  {error : κ → String}

/-- What `check_power_level_maps` asks of one key: its entry is unchanged, or neither rejected as
it is nor above the sender's level as it becomes. -/
def EntryAllowed (reject : κ → Int → Bool) (senderPowerLevel : UserPowerLevel) (key : κ)
    (currentPowerLevel newPowerLevel : Option Int) : Prop :=
  currentPowerLevel = newPowerLevel ∨
    currentPowerLevel.any (reject key) = false ∧
      newPowerLevel.any (fun level : Int => decide (senderPowerLevel < level)) = false

/-- A check of current values that rejects no more, and a higher sender level, allow what was
allowed. -/
theorem EntryAllowed.mono {key : κ} {currentPowerLevel newPowerLevel : Option Int}
    (rejectsLess : ∀ level, relaxed key level = true → reject key level = true)
    (notLower : senderPowerLevel ≤ higher)
    (allowed : EntryAllowed reject senderPowerLevel key currentPowerLevel newPowerLevel) :
    EntryAllowed relaxed higher key currentPowerLevel newPowerLevel := by
  refine allowed.imp id fun ⟨kept, within⟩ => ⟨?_, ?_⟩
  · cases currentPowerLevel with
    | none => rfl
    | some level =>
        simp only [Option.any_some] at kept ⊢
        cases relaxing : relaxed key level
        · rfl
        · rw [rejectsLess level relaxing] at kept
          cases kept
  · cases newPowerLevel with
    | none => rfl
    | some level =>
        simp only [Option.any_some, decide_eq_false_iff_not, not_lt] at within ⊢
        exact within.trans notLower

variable [DecidableEq κ]

/-- `check_power_level_maps` passes exactly when every key it visits is allowed. -/
theorem checkPowerLevelMaps_eq_ok :
    checkPowerLevelMaps current new senderPowerLevel reject error = .ok () ↔
      ∀ key ∈ (current.map (·.map Prod.fst)).getD [] ++ (new.map (·.map Prod.fst)).getD [],
        EntryAllowed reject senderPowerLevel key (current.bind (·.lookup key))
          (new.bind (·.lookup key)) := by
  unfold checkPowerLevelMaps
  dsimp only
  split
  · rename_i key found
    have visited := List.mem_of_find?_eq_some found
    have flagged := List.find?_some found
    simp only [reduceCtorEq, false_iff, not_forall]
    refine ⟨key, visited, ?_⟩
    simp only [bne_iff_ne, ne_eq, Bool.and_eq_true, Bool.or_eq_true] at flagged
    rintro (same | ⟨kept, within⟩)
    · exact flagged.1 same
    · rcases flagged.2 with rejected | above
      · rw [kept] at rejected
        cases rejected
      · rw [within] at above
        cases above
  · rename_i none
    simp only [true_iff]
    intro key visited
    have passed := List.find?_eq_none.mp none key visited
    simp only [bne_iff_ne, ne_eq, Bool.and_eq_true, Bool.or_eq_true, not_and, not_or,
      Bool.not_eq_true] at passed
    by_cases same : current.bind (·.lookup key) = new.bind (·.lookup key)
    · exact .inl same
    · exact .inr (passed same)

/-- With the same maps, `check_power_level_maps` passes for a higher sender level and a check
of current values that rejects no more. -/
theorem checkPowerLevelMaps_mono
    (rejectsLess : ∀ key level, relaxed key level = true → reject key level = true)
    (notLower : senderPowerLevel ≤ higher)
    (allowed : checkPowerLevelMaps current new senderPowerLevel reject error = .ok ()) :
    checkPowerLevelMaps current new higher relaxed error = .ok () := by
  rw [checkPowerLevelMaps_eq_ok] at allowed ⊢
  exact fun key visited => (allowed key visited).mono (rejectsLess key) notLower

theorem mem_keys_of_lookup {entries : Option (List (κ × Int))} {key : κ} {level : Int}
    (held : entries.bind (·.lookup key) = some level) :
    key ∈ (entries.map (·.map Prod.fst)).getD [] := by
  cases entries with
  | none => cases held
  | some entries =>
      simp only [Option.bind_some] at held
      simpa using (AssocTable.lookup_isSome_iff entries key).mp (by simp [held])

end PowerLevelMaps

theorem mem_keys_raiseEntries {userId : String} {level : Int} {found : Option (List (String × Int))}
    {key : String} (member : key ∈ (raiseEntries userId level found).map Prod.fst) :
    key = userId ∨ key ∈ (found.map (·.map Prod.fst)).getD [] := by
  cases found with
  | none => simpa [raiseEntries] using member
  | some entries => simpa [raiseEntries, AssocTable.mem_keys_modify] using member

/-- The `users` diff against the raised current map passes where the diff against the current
map did: the sender's own entry is exempt from the check of its current value, and its new value
was within the sender's level, whether it changed before or not. -/
theorem checkPowerLevelMaps_raiseEntries {found new : Option (List (String × Int))}
    {sender : String} {level : Int} {senderPowerLevel higher : UserPowerLevel}
    {error : String → String} (notLower : senderPowerLevel ≤ higher)
    (entryWithin : ∀ entry, found.bind (·.lookup sender) = some entry →
      (entry : UserPowerLevel) ≤ senderPowerLevel)
    (allowed : checkPowerLevelMaps found new senderPowerLevel
      (fun userId current => decide (userId ≠ sender) && decide (senderPowerLevel ≤ current))
      error = .ok ()) :
    checkPowerLevelMaps (some (raiseEntries sender level found)) new higher
      (fun userId current => decide (userId ≠ sender) && decide (higher ≤ current))
      error = .ok () := by
  rw [checkPowerLevelMaps_eq_ok] at allowed ⊢
  intro key visited
  simp only [Option.bind_some, lookup_raiseEntries]
  by_cases own : key = sender
  · -- the sender's entry: exempt as it is, and its new value was within the sender's level
    subst own
    refine .inr ⟨by simp, ?_⟩
    cases newHeld : new.bind (·.lookup key) with
    | none => rfl
    | some newLevel =>
        have before := allowed key (List.mem_append_right _ (mem_keys_of_lookup newHeld))
        rw [newHeld] at before
        simp only [Option.any_some, decide_eq_false_iff_not, not_lt]
        rcases before with same | ⟨-, within⟩
        · exact (entryWithin newLevel same).trans notLower
        · simp only [Option.any_some, decide_eq_false_iff_not, not_lt] at within
          exact within.trans notLower
  · -- any other entry is where it was, and was visited before
    rw [if_neg own]
    have visitedBefore : key ∈ (found.map (·.map Prod.fst)).getD [] ++
        (new.map (·.map Prod.fst)).getD [] := by
      rcases List.mem_append.mp visited with inRaised | inNew
      · exact List.mem_append_left _ ((mem_keys_raiseEntries inRaised).resolve_left own)
      · exact List.mem_append_right _ inNew
    refine (allowed key visitedBefore).mono (fun current rejected => ?_) notLower
    simp only [Bool.and_eq_true, decide_eq_true_eq] at rejected ⊢
    exact ⟨rejected.1, notLower.trans rejected.2⟩

section PowerLevelsRules

variable {rules : AuthorizationRules} {senderPowerLevel higher : UserPowerLevel} {level : Int}

/-- A user's level is at least the entry `users` holds for them, `Infinite` included. -/
theorem entry_le_userPowerLevel_some {userId : String} {event : Event} {creators : List String}
    {found : UserPowerLevel} {users : Option (List (String × Int))} {entry : Int}
    (leveled : RoomPowerLevelsEventOption.userPowerLevel (some event) userId creators rules = .ok found)
    (parsed : RoomPowerLevelsEvent.users event rules = .ok users)
    (held : users.bind (·.lookup userId) = some entry) : (entry : UserPowerLevel) ≤ found := by
  unfold RoomPowerLevelsEventOption.userPowerLevel at leveled
  split at leveled
  · cases leveled
    exact le_top
  · exact (entry_le_userPowerLevel leveled parsed held).le

theorem checkIntFields_mono {current raised : Event} {newIntFields : List (RoomPowerLevelsIntField × Int)}
    (sameFields : ∀ field, RoomPowerLevelsEvent.getAsInt raised field rules =
      RoomPowerLevelsEvent.getAsInt current field rules)
    (notLower : senderPowerLevel ≤ higher) (fields : List RoomPowerLevelsIntField)
    (allowed : checkIntFields current newIntFields rules senderPowerLevel fields = .ok ()) :
    checkIntFields raised newIntFields rules higher fields = .ok () := by
  induction fields with
  | nil => rfl
  | cons field fields ih =>
      simp only [checkIntFields, Except.bind_eq_ok, sameFields] at allowed ⊢
      obtain ⟨currentPowerLevel, read, rest⟩ := allowed
      refine ⟨currentPowerLevel, read, ?_⟩
      by_cases unchanged : currentPowerLevel = newIntFields.lookup field
      · rw [if_pos unchanged] at rest ⊢
        exact ih rest
      · rw [if_neg unchanged] at rest ⊢
        rw [Except.ite_error_eq_ok] at rest ⊢
        exact ⟨fun above => rest.1 (above.imp notLower.trans_lt notLower.trans_lt), ih rest.2⟩

/-- The checks against the current power levels pass against the raised ones, for a sender level
not lower, where the current `users` entry of the sender is within the sender's level. -/
theorem checkPowerLevelChanges_raised {roomPowerLevelsEvent current : Event}
    {newIntFields : List (RoomPowerLevelsIntField × Int)}
    {newEvents : Option (List (TimelineEventType × Int))}
    {newNotifications newUsers : Option (List (String × Int))}
    (notLower : senderPowerLevel ≤ higher)
    (entryWithin : ∀ users, RoomPowerLevelsEvent.users current rules = .ok users → ∀ entry,
      users.bind (·.lookup roomPowerLevelsEvent.sender.asStr) = some entry →
      (entry : UserPowerLevel) ≤ senderPowerLevel)
    (allowed : checkPowerLevelChanges roomPowerLevelsEvent current rules senderPowerLevel
      newIntFields newEvents newNotifications newUsers = .ok ()) :
    checkPowerLevelChanges roomPowerLevelsEvent
      (raiseUser roomPowerLevelsEvent.sender.asStr level current) rules higher newIntFields
      newEvents newNotifications newUsers = .ok () := by
  have rejectsLess : ∀ {κ : Type} (key : κ) (currentPowerLevel : Int),
      decide (higher < currentPowerLevel) = true →
        decide (senderPowerLevel < currentPowerLevel) = true := by
    intro _ _ _ above
    simp only [decide_eq_true_eq] at above ⊢
    exact notLower.trans_lt above
  simp only [checkPowerLevelChanges, Except.bind_eq_ok, events_raiseUser,
    notifications_raiseUser] at allowed ⊢
  obtain ⟨_, fields, currentEvents, eventsRead, _, eventsAllowed, _, notificationsAllowed,
    currentUsers, usersRead, usersAllowed⟩ := allowed
  refine ⟨(), checkIntFields_mono (getAsInt_raiseUser current) notLower _ fields, currentEvents,
    eventsRead, (), checkPowerLevelMaps_mono rejectsLess notLower eventsAllowed, (), ?_, _,
    users_raiseUser usersRead,
    checkPowerLevelMaps_raiseEntries notLower (entryWithin _ usersRead) usersAllowed⟩
  split at notificationsAllowed
  · rw [if_pos ‹_›]
    obtain ⟨currentNotifications, notificationsRead, notificationsAllowed⟩ :=
      Except.bind_eq_ok.mp notificationsAllowed
    exact Except.bind_eq_ok.mpr ⟨currentNotifications, notificationsRead,
      checkPowerLevelMaps_mono rejectsLess notLower notificationsAllowed⟩
  · rw [if_neg ‹_›]
    rfl

/-- `check_room_power_levels` passes against the raised power levels, for a sender level not
lower, where the sender's current entry is within the sender's level. -/
theorem checkRoomPowerLevels_raised {roomPowerLevelsEvent : Event} {current : Option Event}
    {creators : List String} (notLower : senderPowerLevel ≤ higher)
    (entryWithin : ∀ event ∈ current, ∀ users, RoomPowerLevelsEvent.users event rules = .ok users →
      ∀ entry, users.bind (·.lookup roomPowerLevelsEvent.sender.asStr) = some entry →
      (entry : UserPowerLevel) ≤ senderPowerLevel)
    (allowed : checkRoomPowerLevels roomPowerLevelsEvent current rules senderPowerLevel creators =
      .ok ()) :
    checkRoomPowerLevels roomPowerLevelsEvent
      (current.map (raiseUser roomPowerLevelsEvent.sender.asStr level)) rules higher creators =
      .ok () := by
  simp only [checkRoomPowerLevels, Except.bind_eq_ok, Except.throw_eq_error,
    Except.ite_error_eq_ok] at allowed ⊢
  obtain ⟨newIntFields, intParsed, newEvents, eventsParsed, newNotifications, notificationsParsed,
    newUsers, usersParsed, noCreator, changes⟩ := allowed
  refine ⟨newIntFields, intParsed, newEvents, eventsParsed, newNotifications, notificationsParsed,
    newUsers, usersParsed, noCreator, ?_⟩
  cases current with
  | none => rfl
  | some current =>
      exact checkPowerLevelChanges_raised notLower (entryWithin current rfl) changes

/-- `check_room_redaction` reads the redact level, which stays, against the sender's level. -/
theorem checkRoomRedaction_mono {roomRedactionEvent : Event} {current raised : Option Event}
    (sameRedact : RoomPowerLevelsEventOption.getAsIntOrDefault raised .redact rules =
      RoomPowerLevelsEventOption.getAsIntOrDefault current .redact rules)
    (notLower : senderPowerLevel ≤ higher)
    (allowed : checkRoomRedaction roomRedactionEvent current rules senderPowerLevel = .ok ()) :
    checkRoomRedaction roomRedactionEvent raised rules higher = .ok () := by
  simp only [checkRoomRedaction, Except.bind_eq_ok, sameRedact] at allowed ⊢
  obtain ⟨redactLevel, read, allowedBy⟩ := allowed
  refine ⟨redactLevel, read, ?_⟩
  by_cases enough : (redactLevel : UserPowerLevel) ≤ senderPowerLevel
  · rw [if_pos (enough.trans notLower)]
    rfl
  · rw [if_neg enough] at allowedBy
    split
    · rfl
    · exact allowedBy

end PowerLevelsRules

/-! ## The member and sender rules -/

/-- Where the create event gives its creators, the user's level in the power levels `current` is
at most `level`. -/
def LevelAtMost (rules : AuthorizationRules) (roomCreateEvent : Event) (current : Option Event)
    (userId : String) (level : Int) : Prop :=
  ∀ creators, RoomCreateEvent.creators rules roomCreateEvent = .ok creators →
    ∃ found, RoomPowerLevelsEventOption.userPowerLevel current userId creators rules = .ok found ∧
      found ≤ level

section Rules

variable {rules : AuthorizationRules} {roomCreateEvent : Event} {current : Option Event}
  {level : Int}

theorem LevelAtMost.raises {userId : String} {creators : List String}
    (atMost : LevelAtMost rules roomCreateEvent current userId level)
    (created : RoomCreateEvent.creators rules roomCreateEvent = .ok creators) :
    Raises rules userId creators current (current.map (raiseUser userId level)) :=
  let ⟨_, leveled, notLower⟩ := atMost creators created
  raises_raiseUser leveled notLower

variable {roomMemberEvent : Event} {targetUser : String}

theorem banRules_raised {senderMembership : Except String MembershipState}
    (atMost : LevelAtMost rules roomCreateEvent current roomMemberEvent.sender.asStr level)
    (accepted : banRules roomMemberEvent targetUser rules roomCreateEvent senderMembership current =
      .ok ()) :
    banRules roomMemberEvent targetUser rules roomCreateEvent senderMembership
      (current.map (raiseUser roomMemberEvent.sender.asStr level)) = .ok () := by
  simp only [banRules, Except.bind_eq_ok, Except.throw_eq_error, Except.ite_error_eq_ok,
    Except.pure_eq_ok_self, Except.ite_ok_error_eq_ok] at accepted ⊢
  obtain ⟨membership, parsed, joined, creators, created, senderLevel, leveled, banLevel, banned,
    targetLevel, targeted, ⟨enough, above⟩, -⟩ := accepted
  have raise := atMost.raises created
  obtain ⟨higher, raisedLevel, notLower⟩ := raise.userLevel senderLevel leveled
  -- a ban is accepted only against a lower level, so never against the sender
  have otherTarget : targetUser ≠ roomMemberEvent.sender.asStr := by
    rintro rfl
    rw [leveled] at targeted
    cases targeted
    exact lt_irrefl _ above
  exact ⟨membership, parsed, joined, creators, created, higher, raisedLevel, banLevel,
    (raise.intField .ban).trans banned, targetLevel, raise.otherLevel _ _ otherTarget targeted,
    ⟨enough.trans notLower, above.trans_le notLower⟩, trivial⟩

theorem leaveRules_raised {senderMembership currentTargetUserMembership : Except String MembershipState}
    (atMost : LevelAtMost rules roomCreateEvent current roomMemberEvent.sender.asStr level)
    (accepted : leaveRules roomMemberEvent targetUser rules roomCreateEvent senderMembership current
      currentTargetUserMembership = .ok ()) :
    leaveRules roomMemberEvent targetUser rules roomCreateEvent senderMembership
      (current.map (raiseUser roomMemberEvent.sender.asStr level)) currentTargetUserMembership =
      .ok () := by
  simp only [leaveRules, Except.bind_eq_ok] at accepted ⊢
  obtain ⟨membership, parsed, accepted⟩ := accepted
  refine ⟨membership, parsed, ?_⟩
  by_cases self : roomMemberEvent.sender.asStr = targetUser
  · -- leaving oneself reads no level
    rw [if_pos self] at accepted ⊢
    exact accepted
  rw [if_neg self] at accepted ⊢
  simp only [Except.bind_eq_ok, Except.throw_eq_error, Except.ite_error_eq_ok,
    Except.pure_eq_ok_self, Except.ite_ok_error_eq_ok] at accepted ⊢
  obtain ⟨joined, creators, created, targetMembership, targetParsed, senderLevel, leveled,
    banLevel, banned, mayUnban, kickLevel, kicked, targetLevel, targeted, ⟨enough, above⟩, -⟩ :=
    accepted
  have raise := atMost.raises created
  obtain ⟨higher, raisedLevel, notLower⟩ := raise.userLevel senderLevel leveled
  exact ⟨joined, creators, created, targetMembership, targetParsed, higher, raisedLevel, banLevel,
    (raise.intField .ban).trans banned,
    fun bannedBelow => mayUnban ⟨bannedBelow.1, notLower.trans_lt bannedBelow.2⟩, kickLevel,
    (raise.intField .kick).trans kicked, targetLevel,
    raise.otherLevel _ _ (Ne.symm self) targeted,
    ⟨enough.trans notLower, above.trans_le notLower⟩, trivial⟩

theorem inviteRules_raised {senderMembership currentTargetUserMembership : Except String MembershipState}
    (atMost : LevelAtMost rules roomCreateEvent current roomMemberEvent.sender.asStr level)
    (accepted : inviteRules roomMemberEvent rules roomCreateEvent senderMembership
      currentTargetUserMembership current = .ok ()) :
    inviteRules roomMemberEvent rules roomCreateEvent senderMembership currentTargetUserMembership
      (current.map (raiseUser roomMemberEvent.sender.asStr level)) = .ok () := by
  simp only [inviteRules, Except.bind_eq_ok, Except.throw_eq_error, Except.ite_error_eq_ok,
    Except.pure_eq_ok_self] at accepted ⊢
  obtain ⟨membership, parsed, joined, targetMembership, targetParsed, invitable, creators, created,
    senderLevel, leveled, inviteLevel, invited, enough, -⟩ := accepted
  have raise := atMost.raises created
  obtain ⟨higher, raisedLevel, notLower⟩ := raise.userLevel senderLevel leveled
  exact ⟨membership, parsed, joined, targetMembership, targetParsed, invitable, creators, created,
    higher, raisedLevel, inviteLevel, (raise.intField .invite).trans invited,
    fun below => enough (notLower.trans_lt below), trivial⟩

theorem restrictedJoinRules_raised {authorizedViaUser : String} {creators : List String}
    (raise : Raises rules roomMemberEvent.sender.asStr creators current
      (current.map (raiseUser roomMemberEvent.sender.asStr level)))
    (accepted : restrictedJoinRules current authorizedViaUser creators rules = .ok ()) :
    restrictedJoinRules (current.map (raiseUser roomMemberEvent.sender.asStr level))
      authorizedViaUser creators rules = .ok () := by
  simp only [restrictedJoinRules, Except.bind_eq_ok, Except.throw_eq_error,
    Except.ite_error_eq_ok, Except.pure_eq_ok_self] at accepted ⊢
  obtain ⟨viaLevel, leveled, inviteLevel, invited, enough, -⟩ := accepted
  -- the authorising user may be the sender, whose level only rises
  have raisedVia : ∃ higher, RoomPowerLevelsEventOption.userPowerLevel
      (current.map (raiseUser roomMemberEvent.sender.asStr level)) authorizedViaUser creators
        rules = .ok higher ∧ viaLevel ≤ higher := by
    by_cases sender : authorizedViaUser = roomMemberEvent.sender.asStr
    · subst sender
      exact raise.userLevel viaLevel leveled
    · exact ⟨viaLevel, raise.otherLevel _ _ sender leveled, le_rfl⟩
  obtain ⟨higher, raisedLevel, notLower⟩ := raisedVia
  exact ⟨higher, raisedLevel, inviteLevel, (raise.intField .invite).trans invited,
    fun below => enough (notLower.trans_lt below), trivial⟩

theorem senderRules_raised {incomingEvent : Event} {senderMembership : Except String MembershipState}
    (atMost : LevelAtMost rules roomCreateEvent current incomingEvent.sender.asStr level)
    (accepted : senderRules rules incomingEvent roomCreateEvent senderMembership current = .ok ()) :
    senderRules rules incomingEvent roomCreateEvent senderMembership
      (current.map (raiseUser incomingEvent.sender.asStr level)) = .ok () := by
  simp only [senderRules, Except.bind_eq_ok, Except.throw_eq_error,
    Except.ite_error_eq_ok] at accepted ⊢
  obtain ⟨membership, parsed, joined, creators, created, senderLevel, leveled, accepted⟩ := accepted
  have raise := atMost.raises created
  obtain ⟨higher, raisedLevel, notLower⟩ := raise.userLevel senderLevel leveled
  refine ⟨membership, parsed, joined, creators, created, higher, raisedLevel, ?_⟩
  by_cases thirdParty : incomingEvent.eventType = .roomThirdPartyInvite
  · rw [if_pos thirdParty] at accepted ⊢
    simp only [Except.bind_eq_ok, Except.ite_error_eq_ok, Except.pure_eq_ok_self] at accepted ⊢
    obtain ⟨inviteLevel, invited, enough, -⟩ := accepted
    exact ⟨inviteLevel, (raise.intField .invite).trans invited,
      fun below => enough (notLower.trans_lt below), trivial⟩
  rw [if_neg thirdParty] at accepted ⊢
  simp only [Except.bind_eq_ok, Except.ite_error_eq_ok] at accepted ⊢
  obtain ⟨typeLevel, typed, enough, keyed, rest⟩ := accepted
  refine ⟨typeLevel, (raise.eventLevel _ _).trans typed,
    fun below => enough (notLower.trans_lt below), keyed, ?_⟩
  by_cases powerLevels : incomingEvent.eventType = .roomPowerLevels
  · rw [if_pos powerLevels] at rest ⊢
    refine checkRoomPowerLevels_raised notLower
      (fun event held users usersParsed entry entryHeld => ?_) rest
    rw [Option.mem_def] at held
    subst held
    exact entry_le_userPowerLevel_some leveled usersParsed entryHeld
  rw [if_neg powerLevels] at rest ⊢
  by_cases redaction : rules.specialCaseRoomRedaction = true ∧
      incomingEvent.eventType = .roomRedaction
  · rw [if_pos redaction] at rest ⊢
    exact checkRoomRedaction_mono (raise.intField .redact) notLower rest
  · rw [if_neg redaction] at rest ⊢
    exact rest

end Rules

/-! ## The checks, against the raised state -/

section Checks

variable {lookup : TypeStateKey → Option Event} {userId : String} {level : Int}

@[simp]
theorem raiseSenderLevel_powerLevels :
    raiseSenderLevel lookup userId level (.roomPowerLevels, "") =
      (lookup (.roomPowerLevels, "")).map (raiseUser userId level) := by
  simp [raiseSenderLevel]

@[simp]
theorem raiseSenderLevel_roomMember (user : String) :
    raiseSenderLevel lookup userId level (.roomMember, user) = lookup (.roomMember, user) := by
  simp [raiseSenderLevel]

@[simp]
theorem raiseSenderLevel_roomCreate :
    raiseSenderLevel lookup userId level (.roomCreate, "") = lookup (.roomCreate, "") := by
  simp [raiseSenderLevel]

@[simp]
theorem raiseSenderLevel_roomJoinRules :
    raiseSenderLevel lookup userId level (.roomJoinRules, "") = lookup (.roomJoinRules, "") := by
  simp [raiseSenderLevel]

@[simp]
theorem raiseSenderLevel_roomThirdPartyInvite (token : String) :
    raiseSenderLevel lookup userId level (.roomThirdPartyInvite, token) =
      lookup (.roomThirdPartyInvite, token) := by
  simp [raiseSenderLevel]

variable (lookup userId level) in
/-- Accepted as `check` on the state, accepted as `raised` on the state with `userId`'s entry
raised to `level`. -/
def AcceptedAfter (check raised : Check Unit) : Prop :=
  (ExceptT.run check).run lookup = .ok () →
    (ExceptT.run raised).run (raiseSenderLevel lookup userId level) = .ok ()

namespace AcceptedAfter

theorem pure : AcceptedAfter lookup userId level (Pure.pure ()) (Pure.pure ()) := fun _ => rfl

theorem throw {error : String} {raised : Check Unit} :
    AcceptedAfter lookup userId level (MonadExcept.throw error) raised := by
  intro rejected
  cases rejected

theorem ofExcept {result raisedResult : Except String Unit}
    (keeps : result = .ok () → raisedResult = .ok ()) :
    AcceptedAfter lookup userId level (liftExcept result) (liftExcept raisedResult) := by
  intro accepted
  simp only [Query.run_liftExcept] at accepted ⊢
  exact keeps accepted

/-- A step that reads the same from both states, followed by checks that keep accepting. -/
theorem bind {α : Type} {first : Check α} {rest raised : α → Check Unit}
    (same : (ExceptT.run first).run (raiseSenderLevel lookup userId level) =
      (ExceptT.run first).run lookup)
    (next : ∀ value, (ExceptT.run first).run lookup = .ok value →
      AcceptedAfter lookup userId level (rest value) (raised value)) :
    AcceptedAfter lookup userId level (first >>= rest) (first >>= raised) := by
  intro accepted
  rw [Query.run_exceptBind] at accepted ⊢
  rw [same]
  cases ran : (ExceptT.run first).run lookup with
  | error error =>
      rw [ran] at accepted
      cases accepted
  | ok value =>
      rw [ran] at accepted
      exact next value ran accepted

/-- The read of the power levels, which the raise changes. -/
theorem powerLevels {rest raised : Option Event → Check Unit}
    (next : AcceptedAfter lookup userId level (rest (lookup (.roomPowerLevels, "")))
      (raised ((lookup (.roomPowerLevels, "")).map (raiseUser userId level)))) :
    AcceptedAfter lookup userId level (Query.lift roomPowerLevelsEvent >>= rest)
      (Query.lift roomPowerLevelsEvent >>= raised) := by
  intro accepted
  simp only [Query.run_exceptBind, Query.run_lift, roomPowerLevelsEvent, Query.run_get,
    raiseSenderLevel_powerLevels] at accepted ⊢
  exact next accepted

theorem ite {condition : Prop} [Decidable condition] {check raised other otherRaised : Check Unit}
    (holds : condition → AcceptedAfter lookup userId level check raised)
    (fails : ¬condition → AcceptedAfter lookup userId level other otherRaised) :
    AcceptedAfter lookup userId level (if condition then check else other)
      (if condition then raised else otherRaised) := by
  split
  · exact holds ‹_›
  · exact fails ‹_›

end AcceptedAfter

@[simp]
theorem run_userMembership_raised (user : String) :
    (userMembership user).run (raiseSenderLevel lookup userId level) =
      (userMembership user).run lookup := by
  simp [userMembership]

@[simp]
theorem run_joinRule_raised :
    joinRule.run (raiseSenderLevel lookup userId level) = joinRule.run lookup := by
  simp [joinRule]

@[simp]
theorem run_roomCreateEvent_raised :
    roomCreateEvent.run (raiseSenderLevel lookup userId level) = roomCreateEvent.run lookup := by
  simp [roomCreateEvent]

@[simp]
theorem run_roomThirdPartyInviteEvent_raised (token : String) :
    (roomThirdPartyInviteEvent token).run (raiseSenderLevel lookup userId level) =
      (roomThirdPartyInviteEvent token).run lookup := by
  simp [roomThirdPartyInviteEvent]

variable {signatureMatches : String → String → String → String → Bool}
  {rules : AuthorizationRules} {roomMemberEvent roomCreateEvent : Event} {targetUser : String}

theorem acceptedAfter_checkRoomMemberBan
    (atMost : LevelAtMost rules roomCreateEvent (lookup (.roomPowerLevels, ""))
      roomMemberEvent.sender.asStr level) :
    AcceptedAfter lookup roomMemberEvent.sender.asStr level
      (checkRoomMemberBan roomMemberEvent targetUser rules roomCreateEvent)
      (checkRoomMemberBan roomMemberEvent targetUser rules roomCreateEvent) :=
  .bind (by simp) fun _ _ => .powerLevels (.ofExcept (banRules_raised atMost))

theorem acceptedAfter_checkRoomMemberLeave
    (atMost : LevelAtMost rules roomCreateEvent (lookup (.roomPowerLevels, ""))
      roomMemberEvent.sender.asStr level) :
    AcceptedAfter lookup roomMemberEvent.sender.asStr level
      (checkRoomMemberLeave roomMemberEvent targetUser rules roomCreateEvent)
      (checkRoomMemberLeave roomMemberEvent targetUser rules roomCreateEvent) :=
  .bind (by simp) fun _ _ =>
    .powerLevels (.bind (by simp) fun _ _ => .ofExcept (leaveRules_raised atMost))

theorem acceptedAfter_checkRoomMemberKnock :
    AcceptedAfter lookup userId level (checkRoomMemberKnock roomMemberEvent targetUser rules)
      (checkRoomMemberKnock roomMemberEvent targetUser rules) :=
  .bind (by simp) fun _ _ => .bind (by simp) fun _ _ => .ofExcept id

theorem acceptedAfter_checkThirdPartyInvite {thirdPartyInvite : ThirdPartyInvite} :
    AcceptedAfter lookup userId level
      (checkThirdPartyInvite signatureMatches roomMemberEvent thirdPartyInvite targetUser)
      (checkThirdPartyInvite signatureMatches roomMemberEvent thirdPartyInvite targetUser) := by
  unfold checkThirdPartyInvite
  refine .bind (by simp) fun _ _ => .ite (fun _ => .throw) fun _ => ?_
  refine .bind (by simp) fun _ _ => .bind (by simp) fun _ _ => .ite (fun _ => .throw) fun _ => ?_
  refine .bind (by simp) fun found _ => ?_
  cases found with
  | none => exact .throw
  | some _ => exact .ofExcept id

theorem acceptedAfter_checkRoomMemberInvite
    (atMost : LevelAtMost rules roomCreateEvent (lookup (.roomPowerLevels, ""))
      roomMemberEvent.sender.asStr level) :
    AcceptedAfter lookup roomMemberEvent.sender.asStr level
      (checkRoomMemberInvite signatureMatches roomMemberEvent targetUser rules roomCreateEvent)
      (checkRoomMemberInvite signatureMatches roomMemberEvent targetUser rules roomCreateEvent) := by
  unfold checkRoomMemberInvite
  refine .bind (by simp) fun found _ => ?_
  cases found with
  | some _ => exact acceptedAfter_checkThirdPartyInvite
  | none =>
      exact .bind (by simp) fun _ _ => .bind (by simp) fun _ _ =>
        .powerLevels (.ofExcept (inviteRules_raised atMost))

theorem acceptedAfter_checkRestrictedJoin {creators : List String}
    {currentMembership : MembershipState}
    (raise : Raises rules roomMemberEvent.sender.asStr creators (lookup (.roomPowerLevels, ""))
      ((lookup (.roomPowerLevels, "")).map (raiseUser roomMemberEvent.sender.asStr level))) :
    AcceptedAfter lookup roomMemberEvent.sender.asStr level
      (checkRestrictedJoin roomMemberEvent rules creators currentMembership)
      (checkRestrictedJoin roomMemberEvent rules creators currentMembership) := by
  unfold checkRestrictedJoin
  refine .ite (fun _ => .pure) fun _ => .bind (by simp) fun found _ => ?_
  cases found with
  | none => exact .throw
  | some _ =>
      exact .bind (by simp) fun _ _ => .ite (fun _ => .throw) fun _ =>
        .powerLevels (.ofExcept (restrictedJoinRules_raised raise))

theorem acceptedAfter_checkRoomMemberJoin
    (atMost : LevelAtMost rules roomCreateEvent (lookup (.roomPowerLevels, ""))
      roomMemberEvent.sender.asStr level) :
    AcceptedAfter lookup roomMemberEvent.sender.asStr level
      (checkRoomMemberJoin roomMemberEvent targetUser rules roomCreateEvent)
      (checkRoomMemberJoin roomMemberEvent targetUser rules roomCreateEvent) := by
  unfold checkRoomMemberJoin
  refine .bind (by simp) fun _ _ => .bind (by simp) fun creators created => ?_
  refine .ite (fun _ => .pure) fun _ => .ite (fun _ => .throw) fun _ => ?_
  refine .bind (by simp) fun _ _ => .bind (by simp) fun _ _ => .bind (by simp) fun _ _ => ?_
  refine .ite (fun _ => .throw) fun _ => .bind (by simp) fun _ _ => ?_
  refine .ite (fun _ => .pure) fun _ => .ite (fun _ => ?_) fun _ => .ite (fun _ => .throw) fun _ => .pure
  exact acceptedAfter_checkRestrictedJoin (atMost.raises (by simpa using created))

theorem acceptedAfter_checkRoomMember
    (atMost : LevelAtMost rules roomCreateEvent (lookup (.roomPowerLevels, ""))
      roomMemberEvent.sender.asStr level) :
    AcceptedAfter lookup roomMemberEvent.sender.asStr level
      (checkRoomMember signatureMatches roomMemberEvent rules roomCreateEvent)
      (checkRoomMember signatureMatches roomMemberEvent rules roomCreateEvent) := by
  unfold checkRoomMember
  cases roomMemberEvent.stateKey with
  | none => exact .throw
  | some stateKey =>
      dsimp only
      cases UserId.parse stateKey with
      | none => exact .throw
      | some _ =>
          dsimp only
          refine .bind (by simp) fun _ _ => .ite (fun _ => .throw) fun _ => ?_
          refine .bind (by simp) fun membership _ => ?_
          cases membership with
          | join => exact acceptedAfter_checkRoomMemberJoin atMost
          | invite => exact acceptedAfter_checkRoomMemberInvite atMost
          | leave => exact acceptedAfter_checkRoomMemberLeave atMost
          | ban => exact acceptedAfter_checkRoomMemberBan atMost
          | knock => exact .ite (fun _ => acceptedAfter_checkRoomMemberKnock) fun _ => .throw
          | custom _ => exact .throw

/-- The sender's effective level bounds the level the rules compute with the state's create
event. -/
theorem levelAtMost_of_senderPowerLevel {found : UserPowerLevel}
    (current : senderPowerLevel rules lookup userId = .ok found) (notLower : found ≤ level)
    {createEvent : Event} (held : lookup (.roomCreate, "") = some createEvent) :
    LevelAtMost rules createEvent (lookup (.roomPowerLevels, "")) userId level := by
  intro creators created
  simp only [senderPowerLevel, Except.bind_eq_ok, held, roomCreateEventOf, Except.ok.injEq,
    exists_eq_left', created] at current
  exact ⟨found, current, notLower⟩

theorem acceptedAfter_checkStateDependentAuthRules {incomingEvent : Event}
    (atMost : ∀ createEvent, lookup (.roomCreate, "") = some createEvent →
      LevelAtMost rules createEvent (lookup (.roomPowerLevels, "")) incomingEvent.sender.asStr
        level) :
    AcceptedAfter lookup incomingEvent.sender.asStr level
      (checkStateDependentAuthRules signatureMatches rules incomingEvent)
      (checkStateDependentAuthRules signatureMatches rules incomingEvent) := by
  unfold checkStateDependentAuthRules
  refine .ite (fun _ => .pure) fun _ => ?_
  refine .bind (by simp) fun fetched fetchedRun => .bind (by simp) fun _ _ => .powerLevels ?_
  refine .bind (by simp) fun createEvent created => .bind (by simp) fun _ _ => ?_
  -- the create event the rules go on with is the state's
  have held : lookup (.roomCreate, "") = some createEvent := by
    simp only [Query.run_lift, roomCreateEvent, Query.run_map, Query.run_get,
      Except.ok.injEq] at fetchedRun
    simp only [Query.run_liftExcept, ← fetchedRun] at created
    cases found : lookup (.roomCreate, "") with
    | none => simp [found, roomCreateEventOf] at created
    | some event => simpa [found, roomCreateEventOf] using created
  have bounded := atMost createEvent held
  exact .ite (fun _ => .throw) fun _ => .ite (fun _ => .ite (fun _ => .throw) fun _ => .pure)
    fun _ => .ite (fun _ => acceptedAfter_checkRoomMember bounded)
      fun _ => .ofExcept (senderRules_raised bounded)

end Checks

theorem check_accepts_raised_sender (version : RoomVersion)
    (signatureMatches : String → String → String → String → Bool) (event : Event)
    (lookup : TypeStateKey → Option Event) (level : UserPowerLevel) (value : Int)
    (current : senderPowerLevel version.rules lookup event.sender.asStr = .ok level)
    (notLower : level ≤ value)
    (accepted : (checkStateDependentAuthRules signatureMatches version.rules event).run.run lookup =
      .ok ()) :
    (checkStateDependentAuthRules signatureMatches version.rules event).run.run
      (raiseSenderLevel lookup event.sender.asStr value) = .ok () :=
  acceptedAfter_checkStateDependentAuthRules
    (fun _ held => levelAtMost_of_senderPowerLevel current notLower held) accepted

theorem check_accepts_raised_sender_kick :
    senderPowerLevel RoomVersion.v11.rules kickState aliceKicksBob.sender.asStr =
        .ok ((50 : Int) : UserPowerLevel) ∧
      ((50 : Int) : UserPowerLevel) ≤ ((60 : Int) : UserPowerLevel) ∧
      (checkStateDependentAuthRules (fun _ _ _ _ => false) RoomVersion.v11.rules
        aliceKicksBob).run.run kickState = .ok () ∧
      (checkStateDependentAuthRules (fun _ _ _ _ => false) RoomVersion.v11.rules
        aliceKicksBob).run.run (raiseSenderLevel kickState aliceKicksBob.sender.asStr 60) = .ok () :=
  ⟨by decide +kernel, by decide, by decide +kernel,
    check_accepts_raised_sender .v11 (fun _ _ _ _ => false) aliceKicksBob kickState
      ((50 : Int) : UserPowerLevel) 60 (by decide +kernel) (by decide) (by decide +kernel)⟩

end EventAuth
end StateRes
end Tuwunel
