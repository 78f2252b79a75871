import Mathlib
import Tuwunel.Core.Identifiers
import Tuwunel.Database.Map.Write

/-!
# Read receipt rows

`readreceiptid_readreceipt` keys a receipt by `(room_id, count, user_id, thread_kind)`; rows
written before threaded receipts have no kind, `(room_id, count, user_id)`.  `readreceipt_update`
finds the rows a new receipt supersedes by a reverse scan over the room, keeping the keys that end
with the bytes of `(user_id, thread_kind)`, or, for an unthreaded receipt, with the user id's
bytes alone.  The newest of them gives the stored event the receipt must advance past; if it
does, all of them are deleted and one row is written, in one transaction.

The update changes exactly those rows and the new one (`readreceipt_update_confined`).  A suffix
is all the sweep tests: a user id that ends with another's bytes, such as the historical
`@x@bob:h` against `@bob:h`, has its rows read and swept by the other's updates
(`readreceipt_update_sweeps_other_user`).

Receipt values are bytes; `storedEventId` is `stored_event_id`, the first event id of the stored
JSON, `json` the bytes `Json(event)` writes, and `getPduCount` the timeline's
`get_pdu_count`, `none` where it fails.
-/

namespace Tuwunel
namespace ReadReceipt

open Database

/-- The receipt event `readreceipt_update` is given, by what it reads: the event ids its content
is keyed by, in order, and `event_thread_kind` of its receipt (empty when unthreaded, `main`, or
the thread root's id). -/
structure ReceiptEvent where
  content : List EventId
  threadKind : Utf8.Str

/-- `position_advances`: an unresolved position on either side accepts. -/
def positionAdvances (current incoming : Option PduCount) : Bool :=
  match current, incoming with
  | some current, some incoming => decide (current < incoming)
  | _, _ => true

/-- `receipt_advanced`. -/
def receiptAdvanced (getPduCount : EventId → Option PduCount) (current : Option EventId)
    (incoming : EventId) : Bool :=
  match current with
  | none => true
  | some current =>
      if current = incoming then false
      else positionAdvances (getPduCount current) (getPduCount incoming)

/-- The key a receipt is stored under, `(room_id, count, user_id, thread_kind)`. -/
def receiptKey (roomId : Utf8.Str) (count : Nat) (userId threadKind : Utf8.Str) : List UInt8 :=
  serializeKey [.str roomId, .u64 count, .str userId, .str threadKind]

/-- The sweep's test of a key: it ends with `serialize_key((user_id, thread_kind))`, or, for an
unthreaded receipt, with the user id's bytes. -/
def sweeps (userId threadKind : Utf8.Str) (key : List UInt8) : Bool :=
  (serializeKey [.str userId, .str threadKind]).isSuffixOf key ||
    (threadKind.1.isEmpty && userId.1.isSuffixOf key)

/-- The rows of the room the sweep reads: back from `(room_id, u64::MAX)` while the keys start
with `(room_id, Interfix)`. -/
def roomRows (store : Map) (roomId : Utf8.Str) : List (List UInt8 × List UInt8) :=
  (store.revRawStreamFrom (serializeKey [.str roomId, .u64 u64Max])).takeWhile fun entry =>
    (serializeKey [.str roomId, .interfix]).isPrefixOf entry.1

/-- The rows an update of `user_id` with `thread_kind` supersedes, newest first. -/
def swept (store : Map) (userId roomId threadKind : Utf8.Str) : List (List UInt8 × List UInt8) :=
  (roomRows store roomId).filter fun entry => sweeps userId threadKind entry.1

/-- The `ready_fold` over the swept rows: their keys, and the event id the first one stores. -/
def supersede (storedEventId : List UInt8 → Option EventId)
    (rows : List (List UInt8 × List UInt8)) : List (List UInt8) × Option EventId :=
  rows.foldl (fun (superseded, current) (key, val) =>
    (superseded ++ [key], ((if superseded.isEmpty then some val else none).bind storedEventId).or
      current)) ([], none)

section Update

variable (storedEventId : List UInt8 → Option EventId) (getPduCount : EventId → Option PduCount)
  (json : ReceiptEvent → List UInt8)

/-- `readreceipt_update`, with `count` the value `next_count` hands out: whether the receipt
advanced, and the column after it. -/
def readreceiptUpdate (count : Nat) (store : Map) (userId roomId : Utf8.Str)
    (event : ReceiptEvent) : Bool × Map :=
  match event.content.head? with
  | none => (false, store)
  | some eventId =>
      let (superseded, current) :=
        supersede storedEventId (swept store userId roomId event.threadKind)
      if !receiptAdvanced getPduCount current eventId then (false, store)
      else
        (true, (superseded.foldl Map.delRaw store).put
          (receiptKey roomId count userId event.threadKind) (json event))

end Update

/-! ## What an update reads and writes -/

theorem supersede_foldl (storedEventId : List UInt8 → Option EventId) :
    ∀ (rows : List (List UInt8 × List UInt8)) (superseded : List (List UInt8))
      (current : Option EventId),
      rows.foldl (fun (superseded, current) (key, val) =>
          (superseded ++ [key], ((if superseded.isEmpty then some val else none).bind
            storedEventId).or current)) (superseded, current) =
        (superseded ++ rows.map Prod.fst,
          if superseded = [] then (rows.head?.bind fun row => storedEventId row.2).or current
          else current)
  | [], superseded, current => by
      by_cases empty : superseded = [] <;> simp [empty]
  | (key, val) :: rows, superseded, current => by
      rw [List.foldl_cons, supersede_foldl storedEventId rows]
      by_cases empty : superseded = [] <;> simp [empty]

/-- The fold keeps every swept key, and the stored event of the newest row. -/
theorem supersede_eq (storedEventId : List UInt8 → Option EventId)
    (rows : List (List UInt8 × List UInt8)) :
    supersede storedEventId rows =
      (rows.map Prod.fst, rows.head?.bind fun row => storedEventId row.2) := by
  rw [supersede, supersede_foldl]
  simp

theorem get_foldl_delRaw : ∀ (keys : List (List UInt8)) (store : Map) (key : List UInt8),
    (keys.foldl Map.delRaw store).get key = if key ∈ keys then none else store.get key
  | [], store, key => by simp
  | first :: keys, store, key => by
      rw [List.foldl_cons, get_foldl_delRaw keys, Map.get_delRaw]
      by_cases later : key ∈ keys
      · simp [later]
      · by_cases here : key = first <;> simp [later, here]

/-- The effect of an update, key by key: a rejected receipt changes nothing; an accepted one
writes its own row and deletes the swept rows. -/
theorem readreceiptUpdate_get {storedEventId : List UInt8 → Option EventId}
    {getPduCount : EventId → Option PduCount} {json : ReceiptEvent → List UInt8} {count : Nat}
    {store store' : Map} {userId roomId : Utf8.Str} {event : ReceiptEvent} {accepted : Bool}
    (ran : readreceiptUpdate storedEventId getPduCount json count store userId roomId event =
      (accepted, store')) (key : List UInt8) :
    store'.get key =
      if accepted then
        if key = receiptKey roomId count userId event.threadKind then some (json event)
        else if key ∈ (swept store userId roomId event.threadKind).map Prod.fst then none
        else store.get key
      else store.get key := by
  unfold readreceiptUpdate at ran
  rw [supersede_eq] at ran
  split at ran
  · cases ran
    simp
  · dsimp only at ran
    split at ran
    · cases ran
      simp
    · cases ran
      rw [Map.get_put, get_foldl_delRaw]
      simp

theorem roomPrefix_prefix_receiptKey (roomId : Utf8.Str) (count : Nat)
    (userId threadKind : Utf8.Str) :
    serializeKey [.str roomId, .interfix] <+: receiptKey roomId count userId threadKind := by
  simp only [receiptKey, serializeKey, serializeToVec_cons, List.flatMap_cons, List.flatMap_nil,
    Field.encode, List.append_nil]
  exact List.prefix_append_right_inj _ |>.mpr (List.prefix_cons_inj _ |>.mpr (List.nil_prefix))

theorem roomPrefix_prefix_of_mem_swept {store : Map} {userId roomId threadKind : Utf8.Str}
    {key : List UInt8} (member : key ∈ (swept store userId roomId threadKind).map Prod.fst) :
    serializeKey [.str roomId, .interfix] <+: key := by
  obtain ⟨⟨key, val⟩, kept, rfl⟩ := List.mem_map.mp member
  have scanned := List.mem_takeWhile_imp (List.mem_filter.mp kept).1
  exact List.isPrefixOf_iff_prefix.mp scanned

/-- A key the sweep keeps holds the user id's bytes, whichever of its two tests it passes. -/
theorem userId_infix_of_sweeps {userId threadKind : Utf8.Str} {key : List UInt8}
    (kept : sweeps userId threadKind key = true) : userId.1 <:+: key := by
  unfold sweeps at kept
  rcases Bool.or_eq_true_iff.mp kept with pair | bare
  · have leading : userId.1 <+: serializeKey [.str userId, .str threadKind] := by
      rw [serializeKey, serializeToVec_cons]
      exact List.prefix_append _ _
    exact leading.isInfix.trans (List.isSuffixOf_iff_suffix.mp pair).isInfix
  · exact (List.isSuffixOf_iff_suffix.mp (Bool.and_eq_true_iff.mp bare).2).isInfix

theorem userId_infix_of_mem_swept {store : Map} {userId roomId threadKind : Utf8.Str}
    {key : List UInt8} (member : key ∈ (swept store userId roomId threadKind).map Prod.fst) :
    userId.1 <:+: key := by
  obtain ⟨⟨key, val⟩, kept, rfl⟩ := List.mem_map.mp member
  exact userId_infix_of_sweeps (List.mem_filter.mp kept).2

/-! ## Sample rows -/

/-- The room `!r:h`. -/
def sampleRoom : Utf8.Str := ⟨[0x21, 0x72, 0x3A, 0x68], by decide⟩

/-- The user `@bob:h`. -/
def bob : Utf8.Str := ⟨[0x40, 0x62, 0x6F, 0x62, 0x3A, 0x68], by decide⟩

/-- The historical user id `@x@bob:h`, whose bytes end with `bob`'s. -/
def xAtBob : Utf8.Str := ⟨[0x40, 0x78, 0x40, 0x62, 0x6F, 0x62, 0x3A, 0x68], by decide⟩

/-- The empty thread kind of an unthreaded receipt. -/
def unthreaded : Utf8.Str := ⟨[], by decide⟩

/-- `stored_event_id` on the sample values: `[0x61]` stores `$a`. -/
def sampleStoredEventId (val : List UInt8) : Option EventId :=
  if val = [0x61] then some "$a" else none

/-- An unthreaded receipt of `@bob:h` for `$b`. -/
def bobReceipt : ReceiptEvent := ⟨["$b"], unthreaded⟩

theorem readreceipt_update_confined {storedEventId : List UInt8 → Option EventId}
    {getPduCount : EventId → Option PduCount} {json : ReceiptEvent → List UInt8} {count : Nat}
    {store store' : Map} {userId roomId : Utf8.Str} {event : ReceiptEvent} {accepted : Bool}
    (ran : readreceiptUpdate storedEventId getPduCount json count store userId roomId event =
      (accepted, store')) :
    (∀ key, store'.get key =
      if accepted then
        if key = receiptKey roomId count userId event.threadKind then some (json event)
        else if key ∈ (swept store userId roomId event.threadKind).map Prod.fst then none
        else store.get key
      else store.get key) ∧
    ∀ key, ¬serializeKey [.str roomId, .interfix] <+: key →
      store'.get key = store.get key := by
  refine ⟨readreceiptUpdate_get ran, fun key outside => ?_⟩
  have notOwn : key ≠ receiptKey roomId count userId event.threadKind := by
    rintro rfl
    exact outside (roomPrefix_prefix_receiptKey _ _ _ _)
  have notSwept : key ∉ (swept store userId roomId event.threadKind).map Prod.fst :=
    fun member => outside (roomPrefix_prefix_of_mem_swept member)
  rw [readreceiptUpdate_get ran, if_neg notOwn, if_neg notSwept]
  split <;> rfl

/-- `@bob:h`'s receipt for `$a` in `!r:h`, at count 5. -/
def bobReceipts : Map :=
  ⟨[(receiptKey sampleRoom 5 bob unthreaded, [0x61])], List.pairwise_singleton _ _⟩

theorem readreceipt_update_confined_bob :
    ∃ store', readreceiptUpdate sampleStoredEventId
        (fun id => if id = "$a" then some 3 else some 7) (fun _ => [0x62]) 9 bobReceipts bob
        sampleRoom bobReceipt = (true, store') ∧
      (∀ key, store'.get key =
        if key = receiptKey sampleRoom 9 bob unthreaded then some [0x62]
        else if key ∈ (swept bobReceipts bob sampleRoom unthreaded).map Prod.fst then none
        else bobReceipts.get key) ∧
      ∀ key, ¬serializeKey [.str sampleRoom, .interfix] <+: key →
        store'.get key = bobReceipts.get key := by
  obtain ⟨store', ran⟩ : ∃ store', readreceiptUpdate sampleStoredEventId
      (fun id => if id = "$a" then some 3 else some 7) (fun _ => [0x62]) 9 bobReceipts bob
      sampleRoom bobReceipt = (true, store') := ⟨_, rfl⟩
  exact ⟨store', ran, readreceipt_update_confined ran⟩

/-! ## A user id that ends with another's -/

/-- The column holding one unthreaded receipt of `@x@bob:h` in `!r:h`, for `$a`, at count 5. -/
def xAtBobReceipts : Map :=
  ⟨[(receiptKey sampleRoom 5 xAtBob unthreaded, [0x61])], List.pairwise_singleton _ _⟩

theorem readreceipt_update_sweeps_other_user :
    -- with `$a` before `$b`, bob's receipt is measured against and replaces x's row
    (readreceiptUpdate sampleStoredEventId (fun id => if id = "$a" then some 3 else some 7)
        (fun _ => [0x62]) 9 xAtBobReceipts bob sampleRoom bobReceipt).1 = true ∧
      xAtBobReceipts.get (receiptKey sampleRoom 5 xAtBob unthreaded) = some [0x61] ∧
      (readreceiptUpdate sampleStoredEventId (fun id => if id = "$a" then some 3 else some 7)
        (fun _ => [0x62]) 9 xAtBobReceipts bob sampleRoom bobReceipt).2.get
          (receiptKey sampleRoom 5 xAtBob unthreaded) = none ∧
      -- with `$a` after `$b`, bob's first receipt in the room is refused
      (readreceiptUpdate sampleStoredEventId (fun id => if id = "$a" then some 8 else some 7)
        (fun _ => [0x62]) 9 xAtBobReceipts bob sampleRoom bobReceipt).1 = false := by
  refine ⟨?_, ?_, ?_, ?_⟩ <;> decide +kernel

end ReadReceipt
end Tuwunel
