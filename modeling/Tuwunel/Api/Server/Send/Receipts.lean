import Mathlib
import Tuwunel.Api.Server.Send
import Tuwunel.Service.Rooms.ReadReceipt

/-!
# The receipts a transaction stores

Each read receipt that `handle_edu_receipt_room_user` admits reaches `readreceipt_update` as a
`ReceiptEvent` naming one event, with the sender's receipt, and writes the
`readreceiptid_readreceipt` column.  Here the service calls of a transaction run against that
column one after another, user, room and thread ids given as their UTF-8 bytes.

The calls act for users on the sending server (`handleEdus_admitted`), so a row a transaction
from `origin` deletes is in a room that admits `origin`, and its key holds the bytes of a user on
`origin` (`handleEdus_deletes_rows_naming_origin`).  That is all the bytes say: the sweep of an
unthreaded receipt deletes every row of the room whose key ends with the user id's bytes, whoever
the row's user is.  The thread id closing a threaded row's key can end with them: a receipt of
`@bob:h` sent by `h` deletes the receipt `@mallory:evil` stored under the thread `$x@bob:h`
(`receipt_edu_deletes_foreign_receipt`).
-/

namespace Tuwunel
namespace Federation

open Database

/-- `event_thread_kind` of the `ReceiptEvent` built for a receipt: the thread's `as_str()`, empty
when unthreaded. -/
def Receipt.threadKind (data : Receipt) : Utf8.Str :=
  Utf8.ofString (data.thread.getD "")

/-- The `ReceiptEvent` `handle_edu_receipt_room_user` builds for one event id:
`content: [(event_id, {Read: {user_id: data}})]`. -/
def receiptEvent (event : EventId) (data : Receipt) : ReadReceipt.ReceiptEvent :=
  ⟨[event], data.threadKind⟩

section Store

variable (storedEventId : List UInt8 → Option EventId) (getPduCount : EventId → Option PduCount)
  (json : ReadReceipt.ReceiptEvent → List UInt8)

/-- A service call's writes to `readreceiptid_readreceipt`, with `count` what `next_count` hands
out: only a read receipt writes there. -/
def Effect.storeReceipt (count : Nat) (store : Map) : Effect → Map
  | .readreceiptUpdate user room event data =>
      (ReadReceipt.readreceiptUpdate storedEventId getPduCount json count store
        (Utf8.ofString user.asStr) (Utf8.ofString room) (receiptEvent event data)).2
  | _ => store

/-- The column after the calls run one after another, the `i`th at count `count + i`. -/
def storeReceipts (count : Nat) (store : Map) : List Effect → Map
  | [] => store
  | effect :: effects =>
      storeReceipts (count + 1) (effect.storeReceipt storedEventId getPduCount json count store)
        effects

/-- A row one service call deletes: the call is a read receipt, and its sweep kept the row. -/
theorem Effect.storeReceipt_deletes {effect : Effect} {count : Nat} {store : Map}
    {key : List UInt8} (held : store.get key ≠ none)
    (deleted : (effect.storeReceipt storedEventId getPduCount json count store).get key = none) :
    ∃ user room event data, effect = .readreceiptUpdate user room event data ∧
      key ∈ (ReadReceipt.swept store (Utf8.ofString user.asStr) (Utf8.ofString room)
        data.threadKind).map Prod.fst := by
  cases effect with
  | readreceiptUpdate user room event data =>
      refine ⟨user, room, event, data, rfl, ?_⟩
      rcases ran : ReadReceipt.readreceiptUpdate storedEventId getPduCount json count store
          (Utf8.ofString user.asStr) (Utf8.ofString room) (receiptEvent event data) with
        ⟨accepted, store'⟩
      have changed := ReadReceipt.readreceiptUpdate_get ran key
      simp only [Effect.storeReceipt, ran] at deleted
      rw [deleted] at changed
      -- the update writes its own row and keeps every row outside the sweep
      split_ifs at changed with _ own swept
      · exact swept
      · exact absurd changed.symm held
      · exact absurd changed.symm held
  | _ => exact absurd deleted held

/-- The calls of a transaction, by induction on them: a row they delete is in a room one of
their read receipts names, and its key holds the bytes of that receipt's user. -/
theorem storeReceipts_deletes : ∀ {effects : List Effect} {count : Nat} {store : Map}
    {key : List UInt8}, store.get key ≠ none →
    (storeReceipts storedEventId getPduCount json count store effects).get key = none →
    ∃ user room event data, Effect.readreceiptUpdate user room event data ∈ effects ∧
      serializeKey [.str (Utf8.ofString room), .interfix] <+: key ∧
      (Utf8.ofString user.asStr).1 <:+: key
  | [], _, _, _, held, deleted => absurd deleted held
  | effect :: effects, count, store, key, held, deleted => by
      by_cases here :
          (effect.storeReceipt storedEventId getPduCount json count store).get key = none
      · obtain ⟨user, room, event, data, rfl, member⟩ :=
          Effect.storeReceipt_deletes storedEventId getPduCount json held here
        exact ⟨user, room, event, data, List.mem_cons_self,
          ReadReceipt.roomPrefix_prefix_of_mem_swept member,
          ReadReceipt.userId_infix_of_mem_swept member⟩
      · obtain ⟨user, room, event, data, member, inRoom, named⟩ :=
          storeReceipts_deletes here deleted
        exact ⟨user, room, event, data, List.mem_cons_of_mem _ member, inRoom, named⟩

/-- What a transaction from `origin` can delete from the column: rows of rooms whose ACL admits
`origin` and which have a member on `origin`, with keys that hold the bytes of a user on
`origin`.  The row's own user is not among these conditions
(`receipt_edu_deletes_foreign_receipt`). -/
theorem handleEdus_deletes_rows_naming_origin {origin : ServerName}
    {transaction : List (Env × Edu)} {count : Nat} {store : Map} {key : List UInt8}
    (held : store.get key ≠ none)
    (deleted : (storeReceipts storedEventId getPduCount json count store
      (handleEdus origin transaction)).get key = none) :
    ∃ (user : UserId) (room : RoomId) (env : Env) (edu : Edu), (env, edu) ∈ transaction ∧
      aclCheck env origin room ∧ env.serverInRoom origin room ∧ user.serverName = origin ∧
      serializeKey [.str (Utf8.ofString room), .interfix] <+: key ∧
      (Utf8.ofString user.asStr).1 <:+: key := by
  obtain ⟨user, room, event, data, made, inRoom, named⟩ :=
    storeReceipts_deletes storedEventId getPduCount json held deleted
  obtain ⟨env, edu, received, onOrigin, -, admits, member⟩ :=
    handleEdus_admitted origin transaction _ made
  exact ⟨user, room, env, edu, received, admits, member, onOrigin, inRoom, named⟩

end Store

/-! ## A receipt that deletes another server's -/

/-- The stored values of the run: `$a` is stored as `[0x61]`, any other event as `[0x62]`. -/
def runJson (event : ReadReceipt.ReceiptEvent) : List UInt8 :=
  if event.content = ["$a"] then [0x61] else [0x62]

def runStoredEventId (val : List UInt8) : Option EventId :=
  if val = [0x61] then some "$a" else if val = [0x62] then some "$b" else none

/-- `$a` comes before `$b` in the timeline. -/
def runPositions (eventId : EventId) : Option PduCount :=
  if eventId = "$a" then some 3 else some 7

/-- A transaction from `evil`: `@mallory:evil` has read `$a` in `!r:h`, in the thread `$x@bob:h`
(a room version 1 event id, whose server name is `h`). -/
def malloryTransaction : List (Env × Edu) :=
  [(openEnv, .receipt ⟨[("!r:h", ⟨[(⟨"mallory", "evil"⟩, ⟨⟨none, some "$x@bob:h"⟩, ["$a"]⟩)]⟩)]⟩)]

/-- A transaction from `h`: `@bob:h` has read `$b` in `!r:h`, unthreaded. -/
def bobTransaction : List (Env × Edu) :=
  [(openEnv, .receipt ⟨[("!r:h", ⟨[(⟨"bob", "h"⟩, ⟨⟨none, none⟩, ["$b"]⟩)]⟩)]⟩)]

/-- The row `@mallory:evil`'s receipt is stored under, at count 5. -/
def malloryKey : List UInt8 :=
  ReadReceipt.receiptKey (Utf8.ofString "!r:h") 5 (Utf8.ofString "@mallory:evil")
    (Utf8.ofString "$x@bob:h")

/-- The empty column. -/
def emptyColumn : Map := ⟨[], List.Pairwise.nil⟩

theorem receipt_edu_deletes_foreign_receipt :
    -- every call of `h`'s transaction acts for a user on `h`
    (∀ effect ∈ handleEdus "h" bobTransaction, effect.actor.serverName = "h") ∧
      -- `evil`'s transaction stores mallory's receipt
      (storeReceipts runStoredEventId runPositions runJson 5 emptyColumn
        (handleEdus "evil" malloryTransaction)).get malloryKey = some [0x61] ∧
      -- and `h`'s deletes it
      (storeReceipts runStoredEventId runPositions runJson 9
        (storeReceipts runStoredEventId runPositions runJson 5 emptyColumn
          (handleEdus "evil" malloryTransaction))
        (handleEdus "h" bobTransaction)).get malloryKey = none := by
  refine ⟨fun effect made => ?_, ?_, ?_⟩
  · obtain ⟨_, _, _, onOrigin, _⟩ := handleEdus_admitted "h" bobTransaction effect made
    exact onOrigin
  · decide +kernel
  · decide +kernel

end Federation
end Tuwunel
