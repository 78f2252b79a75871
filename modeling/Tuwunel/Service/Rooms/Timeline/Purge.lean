import Mathlib
import Tuwunel.Core.Identifiers
import Tuwunel.Library.KeyValue
import Tuwunel.Service.Rooms.Timeline.Pdus

/-!
# History purge

`purge_history(room_id, until, delete_local_events)` reads the room's rows of `pduid_pdu` from
the key after `Count::min`, while the room's prefix matches and the key's count is below
`until`.  It keeps state events, and the events of local users unless `delete_local_events` is
set.  Every other PDU loses its rows in `pduid_pdu`, `eventid_pduid`, `eventid_outlierpdu` and
`roomid_tscount_pducount` in one transaction, has its search tokens (a room message with a
body) and its relations purged and its kept original dropped, and is counted.  The admin route
takes `until` from `resolve_boundary`: the count of a boundary event of the room, or that of the
last event at or before a timestamp.

On stored rows the scan is a filter (`purgeScan_eq_filter`), and the fold deletes what it keeps
all at once (`foldl_purgeStep`): a purge removes exactly the room's PDUs above `Count::min` and
below `until` that are neither state nor kept as local (`purgeHistory_eq`), and leaves every
other row.  Nothing in that test reads `roomid_pduleaves`: a forward extremity below the boundary
is purged with the rest (`purge_history_deletes_forward_extremity`).

The search, relation and retention services are modelled by the calls the purge makes on them.
-/

namespace Tuwunel
namespace Timeline

open KeyValue BigEndian PrefixScan Pdu

/-- `TimelineEventType`, with the kind the purge tests kept apart. -/
inductive TimelineEventType
  | roomMessage
  | other (kind : String)
  deriving DecidableEq, Repr

/-- The fields of a `PduEvent` that a purge and its boundary read. -/
structure PduEvent where
  eventId : EventId
  roomId : RoomId
  sender : UserId
  originServerTs : Nat
  kind : TimelineEventType
  stateKey : Option String
  /-- The `body` that `get_content` reads as an `ExtractBody`, where it reads one. -/
  body : Option String
  deriving DecidableEq, Repr

/-- A key of `roomid_tscount_pducount`: the room, the origin timestamp and the biased count. -/
abbrev TsKey := RoomId × Nat × Nat

/-- `roomid_tscount_pducount`: its rows, each holding the bytes of a PDU's count; a room's rows
ascend by timestamp, then by biased count. -/
structure TsIndex where
  rows : List (TsKey × List UInt8)
  ascending : rows.Pairwise fun row row' => row.1.1 = row'.1.1 →
    row.1.2.1 < row'.1.2.1 ∨ row.1.2.1 = row'.1.2.1 ∧ row.1.2.2 < row'.1.2.2

/-- The tables a purge and its boundary read and write. -/
structure Store where
  roomidShortroomid : Table RoomId ShortRoomId
  pduidPdu : Column PduEvent
  eventidPduid : Table EventId RawId
  eventidOutlierpdu : Table EventId PduEvent
  roomidTscountPducount : TsIndex
  /-- `roomid_pduleaves`, by its keys: a room and one of its forward extremities. -/
  roomidPduleaves : Finset (RoomId × EventId)

/-- The errors of a purge and its boundary. -/
inductive Error
  /-- `Request(NotFound(..))`. -/
  | notFound (message : String)
  /-- `Request(BadJson(..))`. -/
  | badJson (message : String)
  deriving DecidableEq, Repr

/-! ## Reads -/

namespace Store

/-- `get_shortroomid`. -/
def getShortroomid (store : Store) (roomId : RoomId) : Option ShortRoomId :=
  store.roomidShortroomid.get roomId

/-- `get_from_id`: the PDU stored under a key of `pduid_pdu`. -/
def getFromId (store : Store) (pduId : RawId) : Option PduEvent :=
  (store.pduidPdu.rows.find? fun row => (RawId.ofId row.1).asBytes = pduId.asBytes).map Prod.snd

/-- `get_pdu_id`. -/
def getPduId (store : Store) (eventId : EventId) : Option RawId := store.eventidPduid.get eventId

/-- `get_pdu_count`: the count of the event's key. -/
def getPduCount (store : Store) (eventId : EventId) : Option Count :=
  (store.getPduId eventId).map RawId.pduCount

/-- `get_pdu`: `select_ok` over the timeline and the outliers; the model takes the timeline's
answer where both have one. -/
def getPdu (store : Store) (eventId : EventId) : Option PduEvent :=
  ((store.getPduId eventId).bind store.getFromId).orElse fun _ => store.eventidOutlierpdu.get eventId

/-- `get_forward_extremities`: the event ids under the room's prefix of `roomid_pduleaves`. -/
def getForwardExtremities (store : Store) (roomId : RoomId) : Finset EventId :=
  (store.roomidPduleaves.filter fun leaf => leaf.1 = roomId).image Prod.snd

/-- `pdu_ids_near_ts(room_id, ts, Backward)`: `rev_stream_from((room_id, ts, u64::MAX))` while the
room matches, each row read as its timestamp and the id of the count it holds (an `i64`, read
with `PduCount::from`).  A room's keys are contiguous (a room id never holds the byte that closes
it), so the seek and the room test keep the room's rows at or below the seek key, last first. -/
def pduIdsNearTsBackward (store : Store) (roomId : RoomId) (ts : Nat) : Option (List (Nat × Id)) :=
  (store.getShortroomid roomId).map fun shortroomid =>
    ((store.roomidTscountPducount.rows.filter fun row => row.1.1 = roomId ∧
        (row.1.2.1 < ts ∨ row.1.2.1 = ts ∧ row.1.2.2 ≤ u64Max)).reverse).map
      fun row => (row.1.2.1, ⟨shortroomid, .fromSigned (asI64 (fromBeBytes row.2))⟩)

end Store

/-- `resolve_boundary`: the exclusive boundary of a purge, from the boundary event or else from
the timestamp. -/
def resolveBoundary (store : Store) (roomId : RoomId) (eventId : Option EventId)
    (ts : Option Nat) : Except Error Count :=
  match eventId, ts with
  | some eventId, _ =>
      match store.getPdu eventId with
      | none => .error (.notFound "Event not found")
      | some pdu =>
          if pdu.roomId ≠ roomId then .error (.badJson "Event is for wrong room")
          else
            match store.getPduCount eventId with
            | none => .error (.notFound "Event not found")
            | some count => .ok count
  | none, none =>
      .error (.badJson "One of purge_up_to_event_id or purge_up_to_ts must be provided")
  | none, some ts =>
      match store.pduIdsNearTsBackward roomId ts with
      | none => .error (.notFound "Room not found")
      | some [] => .error (.notFound "No event found before the given timestamp")
      | some ((_, pduId) :: _) =>
          -- `pdus_near_ts` reads the first id's PDU, and `each_pdu` gives its count
          match store.getFromId (.ofId pduId) with
          | none => .error (.notFound "Not found in database")
          | some _ => .ok (RawId.ofId pduId).pduCount

/-! ## The purge -/

/-- The calls a purge makes on the search, relation and retention services. -/
inductive Call
  /-- `search.deindex_pdu(shortroomid, raw_id, body)`. -/
  | deindexPdu (shortroomid : ShortRoomId) (pduId : RawId) (body : String)
  /-- `pdu_metadata.purge_event_relations(shortroomid, count, room_id, event_id)`. -/
  | purgeEventRelations (shortroomid : ShortRoomId) (count : Count) (roomId : RoomId)
      (eventId : EventId)
  /-- `retention.purge_original(event_id)`. -/
  | purgeOriginal (eventId : EventId)
  deriving DecidableEq

/-- `bias_count`: the count's bytes read as an `i64` and moved up by `i64::MIN`, so that key order
is signed order. -/
def biasCount (count : List UInt8) : Nat :=
  -- `wrapping_sub` then `cast_unsigned`: the difference modulo `2^64`
  asU64 (asI64 (fromBeBytes count) - i64Min)

variable {α : Type}

/-- The rows `purge_history` reads: from the key after `Count::min`, while the room's prefix
matches and the key's count is below `until`. -/
def purgeScan (column : Column α) (shortroomid : ShortRoomId) (untilCount : Count) : List (Id × α) :=
  let start := pduCountToId shortroomid Count.min .forward
  (column.rows.dropWhile fun row => decide ((RawId.ofId row.1).asBytes < start.asBytes)).takeWhile
    fun row => start.shortroomid.isPrefixOf (RawId.ofId row.1).asBytes &&
      decide ((RawId.ofId row.1).pduCount.intoSigned < untilCount.intoSigned)

/-- What a purge keeps of the PDUs it reads: state events, and local users' events unless
`delete_local_events`. -/
def retained (userIsLocal : UserId → Bool) (deleteLocalEvents : Bool) (pdu : PduEvent) : Bool :=
  pdu.stateKey.isSome || (!deleteLocalEvents && userIsLocal pdu.sender)

/-- The `roomid_tscount_pducount` key of a purged PDU, rebuilt from its timestamp and its key. -/
def tsKey (roomId : RoomId) (pduId : RawId) (pdu : PduEvent) : TsKey :=
  (roomId, pdu.originServerTs, biasCount pduId.count)

/-- `del_raw` of a key of `pduid_pdu`. -/
def Column.delRaw (column : Column α) (key : List UInt8) : Column α :=
  ⟨column.rows.filter fun row => (RawId.ofId row.1).asBytes != key, column.ascending.filter _⟩

/-- `del` of a key of `roomid_tscount_pducount`. -/
def TsIndex.del (index : TsIndex) (key : TsKey) : TsIndex :=
  ⟨index.rows.filter fun row => row.1 != key, index.ascending.filter _⟩

/-- The transaction of a purged PDU. -/
def Store.deletePdu (store : Store) (roomId : RoomId) (pduId : RawId) (pdu : PduEvent) : Store :=
  { store with
    pduidPdu := store.pduidPdu.delRaw pduId.asBytes
    eventidPduid := store.eventidPduid.remove pdu.eventId
    eventidOutlierpdu := store.eventidOutlierpdu.remove pdu.eventId
    roomidTscountPducount := store.roomidTscountPducount.del (tsKey roomId pduId pdu) }

/-- The service calls for a purged PDU, in order. -/
def purgeCalls (shortroomid : ShortRoomId) (roomId : RoomId) (pduId : RawId) (pdu : PduEvent) :
    List Call :=
  (match pdu.kind, pdu.body with
    | .roomMessage, some body => [.deindexPdu shortroomid pduId body]
    | _, _ => []) ++
  [.purgeEventRelations shortroomid pduId.pduCount roomId pdu.eventId, .purgeOriginal pdu.eventId]

/-- What a purge has done so far: the count it returns, the store, and the calls it made. -/
structure Progress where
  purged : Nat
  store : Store
  calls : List Call

/-- One PDU of the scan: kept, or deleted, its services called and the count raised. -/
def purgeStep (userIsLocal : UserId → Bool) (roomId : RoomId) (shortroomid : ShortRoomId)
    (deleteLocalEvents : Bool) (progress : Progress) (row : Id × PduEvent) : Progress :=
  if retained userIsLocal deleteLocalEvents row.2 then progress
  else
    ⟨saturatingAdd progress.purged 1, progress.store.deletePdu roomId (.ofId row.1) row.2,
      progress.calls ++ purgeCalls shortroomid roomId (.ofId row.1) row.2⟩

/-- `purge_history`: the number of PDUs purged, the store after, and the calls made. -/
def purgeHistory (store : Store) (userIsLocal : UserId → Bool) (roomId : RoomId) (untilCount : Count)
    (deleteLocalEvents : Bool) : Except Error (Nat × Store × List Call) :=
  match store.getShortroomid roomId with
  | none => .error (.notFound "Not found in database")
  | some shortroomid =>
      let done := (purgeScan store.pduidPdu shortroomid untilCount).foldl
        (purgeStep userIsLocal roomId shortroomid deleteLocalEvents) ⟨0, store, []⟩
      .ok (done.purged, done.store, done.calls)

/-! ## The scan is a filter -/

/-- On stored rows, the scan reads the room's rows above `Count::min` and below `until`. -/
theorem purgeScan_eq_filter (column : Column α) {shortroomid : ShortRoomId}
    (fits : shortroomid ≤ u64Max) (stored : ∀ row ∈ column.rows, Stored row.1) (untilCount : Count) :
    purgeScan column shortroomid untilCount = column.rows.filter fun row =>
      row.1.shortroomid = shortroomid ∧ i64Min < row.1.count.intoSigned ∧
        row.1.count.intoSigned < untilCount.intoSigned := by
  let start := pduCountToId shortroomid Count.min .forward
  let key := fun row : Id × α => (RawId.ofId row.1).asBytes
  let inRoom := fun row : Id × α =>
    decide (row.1.shortroomid = shortroomid ∧ i64Min < row.1.count.intoSigned)
  let below := fun row : Id × α =>
    decide ((RawId.ofId row.1).pduCount.intoSigned < untilCount.intoSigned)
  have counts : ∀ row ∈ column.rows, (RawId.ofId row.1).pduCount = row.1.count := by
    intro row member
    obtain ⟨roomFits, valid, nonzero⟩ := stored row member
    exact RawId.pduCount_ofId roomFits valid nonzero
  -- the seek and the prefix test keep the room's rows above `Count::min`
  have seek : ((column.rows.dropWhile fun row => decide (key row < start.asBytes)).takeWhile
      fun row => start.shortroomid.isPrefixOf (key row)) = column.rows.filter inRoom := by
    rw [takeWhile_dropWhile_eq_filter_from key (pduCountToId_shortroomid_leads _ _ _)
      column.ascending]
    exact List.filter_congr fun row member =>
      pdus_keeps_iff fits (stored row member) (by decide) (by decide) (by decide)
  -- within the room the counts ascend, so the bound stops the scan at the first row it fails
  have ordered : (column.rows.filter inRoom).Pairwise fun row later => below later → below row := by
    have ascending := (room_rows_ascending column stored shortroomid).filter
      fun row => decide (i64Min < row.1.count.intoSigned)
    have same : ((column.rows.filter fun row => row.1.shortroomid = shortroomid).filter
        fun row => decide (i64Min < row.1.count.intoSigned)) = column.rows.filter inRoom := by
      rw [List.filter_filter]
      exact List.filter_congr fun row _ => by simp [inRoom, Bool.and_comm]
    rw [same] at ascending
    refine ascending.imp_of_mem fun member member' lower => ?_
    simp only [below, counts _ (List.mem_of_mem_filter member),
      counts _ (List.mem_of_mem_filter member'), decide_eq_true_eq]
    exact lt_trans lower
  have bounded : ∀ rows : List (Id × α), (rows.takeWhile fun row =>
      start.shortroomid.isPrefixOf (key row) && below row) =
      (rows.takeWhile fun row => start.shortroomid.isPrefixOf (key row)).takeWhile below := by
    intro rows
    rw [List.takeWhile_takeWhile]
    congr 1
    funext row
    rw [Bool.decide_and, Bool.decide_eq_true, Bool.decide_eq_true, Bool.and_comm]
  unfold purgeScan
  rw [bounded, seek, takeWhile_eq_filter_of_pairwise ordered, List.filter_filter]
  refine List.filter_congr fun row member => ?_
  simp only [inRoom, below, counts row member, Bool.decide_and]
  rw [Bool.and_comm, Bool.and_assoc]

/-! ## The fold deletes all it does not keep -/

/-- The store with a list of a room's PDU rows purged at once: their keys gone from `pduid_pdu`
and `roomid_tscount_pducount`, their event ids from `eventid_pduid` and `eventid_outlierpdu`. -/
def Store.withoutPdus (store : Store) (roomId : RoomId) (doomed : List (Id × PduEvent)) : Store :=
  { store with
    pduidPdu := ⟨store.pduidPdu.rows.filter fun row =>
        !doomed.any fun gone => (RawId.ofId row.1).asBytes == (RawId.ofId gone.1).asBytes,
      store.pduidPdu.ascending.filter _⟩
    eventidPduid := store.eventidPduid.removeIf fun eventId =>
      doomed.any fun gone => eventId == gone.2.eventId
    eventidOutlierpdu := store.eventidOutlierpdu.removeIf fun eventId =>
      doomed.any fun gone => eventId == gone.2.eventId
    roomidTscountPducount := ⟨store.roomidTscountPducount.rows.filter fun row =>
        !doomed.any fun gone => row.1 == tsKey roomId (.ofId gone.1) gone.2,
      store.roomidTscountPducount.ascending.filter _⟩ }

theorem Column.ext_rows {column column' : Column α} (same : column.rows = column'.rows) :
    column = column' := by
  cases column
  cases column'
  cases same
  rfl

theorem TsIndex.ext_rows {index index' : TsIndex} (same : index.rows = index'.rows) :
    index = index' := by
  cases index
  cases index'
  cases same
  rfl

theorem Store.withoutPdus_nil (store : Store) (roomId : RoomId) : store.withoutPdus roomId [] = store := by
  cases store
  simp only [Store.withoutPdus, List.any_nil, Bool.not_false, List.filter_true]
  congr

/-- One more purged PDU is one more row of the list deleted. -/
theorem Store.deletePdu_withoutPdus (store : Store) (roomId : RoomId)
    (done : List (Id × PduEvent)) (row : Id × PduEvent) :
    (store.withoutPdus roomId done).deletePdu roomId (.ofId row.1) row.2 =
      store.withoutPdus roomId (done ++ [row]) := by
  simp only [Store.deletePdu, Store.withoutPdus, Column.delRaw, TsIndex.del]
  congr 1
  · apply Column.ext_rows
    dsimp only
    rw [List.filter_filter]
    exact List.filter_congr fun _ _ => by simp [bne, Bool.and_comm]
  · exact Table.ext fun eventId => by
      by_cases same : eventId = row.2.eventId
      · simp [Table.get_removeIf, same]
      · have different : (eventId == row.2.eventId) = false := by simpa using same
        rw [Table.get_remove_of_ne _ same, Table.get_removeIf, Table.get_removeIf, List.any_append]
        simp only [List.any_cons, List.any_nil, different, Bool.or_false]
  · exact Table.ext fun eventId => by
      by_cases same : eventId = row.2.eventId
      · simp [Table.get_removeIf, same]
      · have different : (eventId == row.2.eventId) = false := by simpa using same
        rw [Table.get_remove_of_ne _ same, Table.get_removeIf, Table.get_removeIf, List.any_append]
        simp only [List.any_cons, List.any_nil, different, Bool.or_false]
  · apply TsIndex.ext_rows
    dsimp only
    rw [List.filter_filter]
    exact List.filter_congr fun _ _ => by simp [bne, Bool.and_comm]

/-- The fold over the scan deletes, all at once, every row it does not keep, counts them, and
calls the services for each in turn. -/
theorem foldl_purgeStep (userIsLocal : UserId → Bool) (roomId : RoomId) (shortroomid : ShortRoomId)
    (deleteLocalEvents : Bool) (store : Store) (rows : List (Id × PduEvent)) {purged : Nat}
    (fits : purged ≤ u64Max) (done : List (Id × PduEvent)) (calls : List Call) :
    rows.foldl (purgeStep userIsLocal roomId shortroomid deleteLocalEvents)
        ⟨purged, store.withoutPdus roomId done, calls⟩ =
      let doomed := rows.filter fun row => !retained userIsLocal deleteLocalEvents row.2
      ⟨saturatingAdd purged doomed.length, store.withoutPdus roomId (done ++ doomed),
        calls ++ doomed.flatMap fun row => purgeCalls shortroomid roomId (.ofId row.1) row.2⟩ := by
  induction rows generalizing purged done calls with
  | nil => simp [saturatingAdd, fits]
  | cons row rows ih =>
      rw [List.foldl_cons]
      by_cases kept : retained userIsLocal deleteLocalEvents row.2 = true
      · simp only [purgeStep, kept, if_true]
        rw [ih fits]
        simp [kept]
      · simp only [purgeStep, kept, if_false, Bool.false_eq_true]
        have bounded : saturatingAdd purged 1 ≤ u64Max := min_le_right _ _
        rw [Store.deletePdu_withoutPdus, ih bounded]
        simp [kept, saturatingAdd_saturatingAdd, Nat.add_comm]

/-- The PDUs a purge deletes: the room's, above `Count::min` and below `until`, that it does not
keep. -/
def Purges (userIsLocal : UserId → Bool) (shortroomid : ShortRoomId) (untilCount : Count)
    (deleteLocalEvents : Bool) (row : Id × PduEvent) : Prop :=
  row.1.shortroomid = shortroomid ∧ i64Min < row.1.count.intoSigned ∧
    row.1.count.intoSigned < untilCount.intoSigned ∧ retained userIsLocal deleteLocalEvents row.2 = false

instance (userIsLocal : UserId → Bool) (shortroomid : ShortRoomId) (untilCount : Count)
    (deleteLocalEvents : Bool) :
    DecidablePred (Purges userIsLocal shortroomid untilCount deleteLocalEvents) :=
  fun _ => inferInstanceAs (Decidable (_ ∧ _ ∧ _ ∧ _))

/-- On a store whose rows are stored as the timeline writes them, `purge_history` deletes exactly
the room's PDUs above `Count::min` and below `until` that are neither state nor kept as local,
whatever else the room holds, counts them, and calls the services for each in order. -/
theorem purgeHistory_eq {store : Store} {roomId : RoomId} {shortroomid : ShortRoomId}
    (known : store.getShortroomid roomId = some shortroomid) (fits : shortroomid ≤ u64Max)
    (stored : ∀ row ∈ store.pduidPdu.rows, Stored row.1) (userIsLocal : UserId → Bool)
    (untilCount : Count) (deleteLocalEvents : Bool) :
    purgeHistory store userIsLocal roomId untilCount deleteLocalEvents =
      let doomed := store.pduidPdu.rows.filter fun row =>
        Purges userIsLocal shortroomid untilCount deleteLocalEvents row
      .ok (min doomed.length u64Max, store.withoutPdus roomId doomed,
        doomed.flatMap fun row => purgeCalls shortroomid roomId (.ofId row.1) row.2) := by
  have start : (⟨0, store, []⟩ : Progress) = ⟨0, store.withoutPdus roomId [], []⟩ := by
    rw [Store.withoutPdus_nil]
  have doomed : ((store.pduidPdu.rows.filter fun row => row.1.shortroomid = shortroomid ∧
      i64Min < row.1.count.intoSigned ∧ row.1.count.intoSigned < untilCount.intoSigned).filter
        fun row => !retained userIsLocal deleteLocalEvents row.2) =
      store.pduidPdu.rows.filter fun row =>
        Purges userIsLocal shortroomid untilCount deleteLocalEvents row := by
    rw [List.filter_filter]
    refine List.filter_congr fun row _ => Bool.eq_iff_iff.mpr ?_
    rw [decide_eq_true_iff]
    simp only [Bool.and_eq_true, Bool.not_eq_true', decide_eq_true_eq]
    unfold Purges
    tauto
  simp only [purgeHistory, known]
  rw [purgeScan_eq_filter _ fits stored, start, foldl_purgeStep _ _ _ _ _ _ (Nat.zero_le _),
    doomed]
  simp [saturatingAdd]

/-! ## A forward extremity below the boundary -/

/-- A forked room as federation leaves it: `$a` and `$b`, messages of two remote users at counts
1 and 2, neither listing the other among its `prev_events`, so that both are forward
extremities. -/
def forkedRoom : Store where
  roomidShortroomid := Table.empty.put "!room:example.org" 1
  pduidPdu :=
    ⟨[(⟨1, .normal 1⟩, ⟨"$a", "!room:example.org", ⟨"bob", "remote.org"⟩, 10, .roomMessage, none,
        some "hello"⟩),
      (⟨1, .normal 2⟩, ⟨"$b", "!room:example.org", ⟨"carol", "remote.org"⟩, 20, .roomMessage,
        none, some "hi"⟩)], by decide⟩
  eventidPduid := (Table.empty.put "$a" (.ofId ⟨1, .normal 1⟩)).put "$b" (.ofId ⟨1, .normal 2⟩)
  eventidOutlierpdu := Table.empty
  roomidTscountPducount :=
    ⟨[(("!room:example.org", 10, biasCount (toBeBytes 8 1)), toBeBytes 8 1),
      (("!room:example.org", 20, biasCount (toBeBytes 8 2)), toBeBytes 8 2)], by decide⟩
  roomidPduleaves := {("!room:example.org", "$a"), ("!room:example.org", "$b")}

/-- Purging up to `$b` deletes `$a`, though `$a` is a forward extremity of the room: the purge
counts it, its PDU is gone, and `roomid_pduleaves` still names it. -/
theorem purge_history_deletes_forward_extremity :
    resolveBoundary forkedRoom "!room:example.org" (some "$b") none = .ok (.normal 2) ∧
      "$a" ∈ forkedRoom.getForwardExtremities "!room:example.org" ∧
      ∃ after calls, purgeHistory forkedRoom (fun user => user.serverName == "example.org")
          "!room:example.org" (.normal 2) false = .ok (1, after, calls) ∧
        "$a" ∈ after.getForwardExtremities "!room:example.org" ∧ after.getPdu "$a" = none := by
  refine ⟨by decide +kernel, by decide +kernel, ?_⟩
  have known : forkedRoom.getShortroomid "!room:example.org" = some 1 := by decide +kernel
  rw [purgeHistory_eq known (by decide) (by decide +kernel)]
  refine ⟨_, _, congrArg Except.ok (Prod.ext ?purged rfl), ?leaf, ?gone⟩
  case purged => decide +kernel
  case leaf => decide +kernel
  case gone => decide +kernel

end Timeline
end Tuwunel
