import Mathlib

/-!
# Matrix identifiers

The identifiers the services key their tables by.  A user id keeps its server name apart, since
federation checks compare it with the sending server.
-/

namespace Tuwunel

/-- `OwnedServerName`. -/
abbrev ServerName := String

/-- `OwnedUserId`, `@localpart:server_name`. -/
structure UserId where
  /-- The part before the colon. -/
  localpart : String
  /-- `UserId::server_name`. -/
  serverName : ServerName
  deriving DecidableEq, Repr

/-- `UserId::as_str`, the id as it is written: `@localpart:server_name`. -/
def UserId.asStr (userId : UserId) : String := "@" ++ userId.localpart ++ ":" ++ userId.serverName

/-- `<&UserId>::try_from`: a leading `@`, and the server name after the first colon. -/
def UserId.parse (id : String) : Option UserId :=
  match id.toList with
  | '@' :: rest =>
      match rest.span (· ≠ ':') with
      | (localpart, ':' :: serverName) => some ⟨String.ofList localpart, String.ofList serverName⟩
      | _ => none
  | _ => none

/-- `OwnedDeviceId`. -/
abbrev DeviceId := String

/-- `OwnedRoomId`. -/
abbrev RoomId := String

/-- `OwnedEventId`. -/
abbrev EventId := String

/-- `ShortStateHash`, the `u64` a state is stored under. -/
abbrev ShortStateHash := Nat

/-- `ShortStateKey`, the `u64` standing for an event type and state key. -/
abbrev ShortStateKey := Nat

/-- `ShortEventId`, the `u64` standing for an event id. -/
abbrev ShortEventId := Nat

/-- `PduCount`, by its signed value: `Normal(n)` is `n`, `Backfilled(i)` is `i ≤ 0`, in the order
`Count::cmp` compares them. -/
abbrev PduCount := Int

end Tuwunel
