import Tuwunel.Library.PrefixScan
import Tuwunel.Core.Matrix.Pdu

/-!
# Timeline scans

`pdus(from)` and `pdus_rev(until)` read a room's PDUs from `pduid_pdu` after or before a count.
They seek to `pdu_count_to_id`, the key of the count moved one step in the scan's direction by
`saturating_inc`, and read on while the keys begin with the room's shortroomid.  The column is in
ascending key order (`Column`), so each scan is a filter of it (`pdus_eq_filter`,
`pdusRev_eq_filter`).

Away from zero the key orders as the count (`Count.keySuffix_lt_keySuffix_iff`), and the scans
are exact: after `c` they yield the room's PDUs above `c` in ascending count order, before `c`
those below it in descending order.  Where the step lands on a zero the layouts disagree with the
order: from `Backfilled(-1)` or `Backfilled(0)` the forward scan also yields backfilled PDUs, and
before `Normal(1)` the reverse scan skips them all (`timeline_scan_bounds_cross_zero`).
-/

namespace Tuwunel
namespace Timeline

open BigEndian PrefixScan Pdu

/-- `pduid_pdu`: its rows under their PDU ids, in ascending key order. -/
structure Column (α : Type) where
  rows : List (Id × α)
  ascending : rows.Pairwise fun row row' =>
    (RawId.ofId row.1).asBytes < (RawId.ofId row'.1).asBytes

variable {α : Type}

/-- `pdu_count_to_id`: the key a scan starts from, the count moved one step in its direction
("+1 so we don't send the base event"). -/
def pduCountToId (shortroomid : ShortRoomId) (count : Count) (dir : Direction) : RawId :=
  RawId.ofId ⟨shortroomid, count.saturatingInc dir⟩

/-- What a scan yields of its rows: the count `each_pdu` reads back from the key, and the PDU. -/
def yielded (rows : List (Id × α)) : List (Count × α) :=
  rows.map fun row => ((RawId.ofId row.1).pduCount, row.2)

/-- `pdus(from)`: `raw_stream_from` the key after `from` (after `Count::min` when absent), while
the room's prefix matches. -/
def pdus (column : Column α) (shortroomid : ShortRoomId) (fromCount : Option Count) :
    List (Count × α) :=
  let current := pduCountToId shortroomid (fromCount.getD Count.min) .forward
  yielded ((column.rows.dropWhile fun row =>
      decide ((RawId.ofId row.1).asBytes < current.asBytes)).takeWhile
    fun row => current.shortroomid.isPrefixOf (RawId.ofId row.1).asBytes)

/-- `pdus_rev(until)`: `rev_raw_stream_from` the key before `until` (before `Count::max` when
absent), while the room's prefix matches. -/
def pdusRev (column : Column α) (shortroomid : ShortRoomId) (untilCount : Option Count) :
    List (Count × α) :=
  let current := pduCountToId shortroomid (untilCount.getD Count.max) .backward
  yielded ((column.rows.reverse.dropWhile fun row =>
      decide (current.asBytes < (RawId.ofId row.1).asBytes)).takeWhile
    fun row => current.shortroomid.isPrefixOf (RawId.ofId row.1).asBytes)

/-! ## Scans are filters -/

/-- The seek key begins with the room's word. -/
theorem pduCountToId_shortroomid_leads (shortroomid : ShortRoomId) (count : Count) (dir : Direction) :
    (pduCountToId shortroomid count dir).shortroomid <+:
      (pduCountToId shortroomid count dir).asBytes := by
  rw [pduCountToId, RawId.shortroomid_ofId, RawId.asBytes_ofId]
  exact List.prefix_append _ _

theorem pdus_eq_filter (column : Column α) (shortroomid : ShortRoomId) (fromCount : Option Count) :
    pdus column shortroomid fromCount =
      let current := pduCountToId shortroomid (fromCount.getD Count.min) .forward
      yielded (column.rows.filter fun row =>
        !decide ((RawId.ofId row.1).asBytes < current.asBytes) &&
          current.shortroomid.isPrefixOf (RawId.ofId row.1).asBytes) := by
  simp only [pdus]
  rw [takeWhile_dropWhile_eq_filter_from (fun row : Id × α => (RawId.ofId row.1).asBytes)
    (pduCountToId_shortroomid_leads _ _ _) column.ascending]

theorem pdusRev_eq_filter (column : Column α) (shortroomid : ShortRoomId)
    (untilCount : Option Count) :
    pdusRev column shortroomid untilCount =
      let current := pduCountToId shortroomid (untilCount.getD Count.max) .backward
      yielded (column.rows.filter fun row =>
        !decide (current.asBytes < (RawId.ofId row.1).asBytes) &&
          current.shortroomid.isPrefixOf (RawId.ofId row.1).asBytes).reverse := by
  simp only [pdusRev]
  rw [takeWhile_dropWhile_eq_filter_from_rev (fun row : Id × α => (RawId.ofId row.1).asBytes)
    (pduCountToId_shortroomid_leads _ _ _) (List.pairwise_reverse.mpr column.ascending),
    List.filter_reverse]

/-! ## Exact scans away from the zero crossing -/

/-- The ids the timeline writes: a room that fits its word, and a count in its documented range
away from zero (`next_count` draws normal counts from one on, backfilling negates them). -/
def Stored (id : Id) : Prop :=
  id.shortroomid ≤ u64Max ∧ id.count.Valid ∧ id.count.intoSigned ≠ 0

instance : DecidablePred Stored := fun _ => inferInstanceAs (Decidable (_ ∧ _ ∧ _))

section Exact

variable {shortroomid : ShortRoomId} {id : Id}

/-- The prefix test of a scan holds exactly on the keys of its room. -/
theorem isPrefixOf_pduCountToId_iff (fits : shortroomid ≤ u64Max) (stored : Stored id)
    (count : Count) (dir : Direction) :
    (pduCountToId shortroomid count dir).shortroomid.isPrefixOf (RawId.ofId id).asBytes ↔
      id.shortroomid = shortroomid := by
  rw [pduCountToId, RawId.shortroomid_ofId, RawId.asBytes_ofId, List.isPrefixOf_iff_prefix,
    toBeBytes_prefix_toBeBytes_append_iff (lt_of_le_u64Max fits) (lt_of_le_u64Max stored.1), eq_comm]

/-- The forward scan keeps a stored row exactly when it is in the room and above `count`. -/
theorem pdus_keeps_iff (fits : shortroomid ≤ u64Max) (stored : Stored id) {count : Count}
    (valid : count.Valid) (notMinusOne : count ≠ .backfilled (-1))
    (notZero : count ≠ .backfilled 0) :
    (!decide ((RawId.ofId id).asBytes < (pduCountToId shortroomid count .forward).asBytes) &&
        (pduCountToId shortroomid count .forward).shortroomid.isPrefixOf (RawId.ofId id).asBytes) =
      decide (id.shortroomid = shortroomid ∧ count.intoSigned < id.count.intoSigned) := by
  have prefixed := isPrefixOf_pduCountToId_iff fits stored count .forward
  by_cases room : id.shortroomid = shortroomid
  · -- in the room the keys compare by what follows the room's word
    have above : ¬ (RawId.ofId id).asBytes < (pduCountToId shortroomid count .forward).asBytes ↔
        count.intoSigned < id.count.intoSigned := by
      simp only [pduCountToId, RawId.asBytes_ofId, room]
      rw [append_lt_append_iff]
      exact Count.not_keySuffix_lt_saturatingInc_forward valid notMinusOne notZero stored.2.1
        stored.2.2
    simp only [prefixed.mpr room, room, ← above, Bool.and_true, true_and, decide_not]
  · simp [room, Bool.eq_false_iff.mpr (mt prefixed.mp room)]

/-- The reverse scan keeps a stored row exactly when it is in the room and below `count`. -/
theorem pdusRev_keeps_iff (fits : shortroomid ≤ u64Max) (stored : Stored id) {count : Count}
    (valid : count.Valid) (notZero : count ≠ .normal 0) (notOne : count ≠ .normal 1)
    (notMin : count ≠ .backfilled i64Min) :
    (!decide ((pduCountToId shortroomid count .backward).asBytes < (RawId.ofId id).asBytes) &&
        (pduCountToId shortroomid count .backward).shortroomid.isPrefixOf (RawId.ofId id).asBytes) =
      decide (id.shortroomid = shortroomid ∧ id.count.intoSigned < count.intoSigned) := by
  have prefixed := isPrefixOf_pduCountToId_iff fits stored count .backward
  by_cases room : id.shortroomid = shortroomid
  · have below : ¬ (pduCountToId shortroomid count .backward).asBytes < (RawId.ofId id).asBytes ↔
        id.count.intoSigned < count.intoSigned := by
      simp only [pduCountToId, RawId.asBytes_ofId, room]
      rw [append_lt_append_iff]
      exact Count.not_saturatingInc_backward_lt_keySuffix valid notZero notOne notMin stored.2.1
        stored.2.2
    simp only [prefixed.mpr room, room, ← below, Bool.and_true, true_and, decide_not]
  · simp [room, Bool.eq_false_iff.mpr (mt prefixed.mp room)]

end Exact

/-- Stored rows yield the counts they were written with. -/
theorem yielded_eq_map {rows : List (Id × α)} (stored : ∀ row ∈ rows, Stored row.1) :
    yielded rows = rows.map fun row => (row.1.count, row.2) :=
  List.map_congr_left fun row member => by
    obtain ⟨roomFits, valid, nonzero⟩ := stored row member
    rw [RawId.pduCount_ofId roomFits valid nonzero]

/-- Within a room, key order on stored rows is count order. -/
theorem room_rows_ascending (column : Column α) (stored : ∀ row ∈ column.rows, Stored row.1)
    (shortroomid : ShortRoomId) :
    (column.rows.filter fun row => row.1.shortroomid = shortroomid).Pairwise
      fun row row' => row.1.count.intoSigned < row'.1.count.intoSigned := by
  apply (column.ascending.filter _).imp_of_mem
  intro row row' member member' lower
  obtain ⟨_, valid, nonzero⟩ := stored row (List.mem_of_mem_filter member)
  obtain ⟨_, valid', nonzero'⟩ := stored row' (List.mem_of_mem_filter member')
  have room : row.1.shortroomid = row'.1.shortroomid := by
    have inRoom := (List.mem_filter.mp member).2
    have inRoom' := (List.mem_filter.mp member').2
    simp only [decide_eq_true_eq] at inRoom inRoom'
    rw [inRoom, inRoom']
  rwa [RawId.asBytes_ofId, RawId.asBytes_ofId, room, append_lt_append_iff,
    Count.keySuffix_lt_keySuffix_iff valid valid' nonzero nonzero'] at lower

/-- Off the counts where the scan's step crosses zero, the timeline scans are exact: after
`count` the room's stored PDUs above it, before `count` those below it, most recent first; and
the room's rows lie in ascending count order. -/
theorem timeline_scans_exact (column : Column α) {shortroomid : ShortRoomId}
    (fits : shortroomid ≤ u64Max) (stored : ∀ row ∈ column.rows, Stored row.1) {count : Count}
    (valid : count.Valid) :
    (count ≠ .backfilled (-1) → count ≠ .backfilled 0 →
      pdus column shortroomid (some count) =
        (column.rows.filter fun row => row.1.shortroomid = shortroomid ∧
          count.intoSigned < row.1.count.intoSigned).map fun row => (row.1.count, row.2)) ∧
    (count ≠ .normal 0 → count ≠ .normal 1 → count ≠ .backfilled i64Min →
      pdusRev column shortroomid (some count) =
        ((column.rows.filter fun row => row.1.shortroomid = shortroomid ∧
          row.1.count.intoSigned < count.intoSigned).map fun row => (row.1.count, row.2)).reverse) ∧
    (column.rows.filter fun row => row.1.shortroomid = shortroomid).Pairwise
      fun row row' => row.1.count.intoSigned < row'.1.count.intoSigned := by
  have kept : ∀ {p : Id × α → Bool}, ∀ row ∈ column.rows.filter p, Stored row.1 :=
    fun row member => stored row (List.mem_of_mem_filter member)
  refine ⟨?_, ?_, room_rows_ascending column stored shortroomid⟩
  · intro notMinusOne notZero
    rw [pdus_eq_filter]
    simp only [Option.getD_some]
    rw [yielded_eq_map kept]
    congr 1
    exact List.filter_congr fun row member =>
      pdus_keeps_iff fits (stored row member) valid notMinusOne notZero
  · intro notZero notOne notMin
    rw [pdusRev_eq_filter]
    simp only [Option.getD_some]
    rw [yielded_eq_map fun row member => kept row (List.mem_reverse.mp member), List.map_reverse]
    congr 2
    exact List.filter_congr fun row member =>
      pdusRev_keeps_iff fits (stored row member) valid notZero notOne notMin

/-- Room one's history on both sides of zero, and room two's first PDU. -/
def sampleColumn : Column Unit :=
  ⟨[(⟨1, .backfilled (-2)⟩, ()), (⟨1, .normal 3⟩, ()), (⟨1, .normal 7⟩, ()), (⟨2, .normal 1⟩, ())],
    by decide⟩

theorem timeline_scans_exact_sample :
    (1 : ShortRoomId) ≤ u64Max ∧ (∀ row ∈ sampleColumn.rows, Stored row.1) ∧
      (Count.normal 3).Valid ∧
      ((Count.normal 3 ≠ .backfilled (-1) → Count.normal 3 ≠ .backfilled 0 →
        pdus sampleColumn 1 (some (.normal 3)) =
          (sampleColumn.rows.filter fun row => row.1.shortroomid = 1 ∧
            (Count.normal 3).intoSigned < row.1.count.intoSigned).map
              fun row => (row.1.count, row.2)) ∧
      (Count.normal 3 ≠ .normal 0 → Count.normal 3 ≠ .normal 1 →
        Count.normal 3 ≠ .backfilled i64Min →
        pdusRev sampleColumn 1 (some (.normal 3)) =
          ((sampleColumn.rows.filter fun row => row.1.shortroomid = 1 ∧
            row.1.count.intoSigned < (Count.normal 3).intoSigned).map
              fun row => (row.1.count, row.2)).reverse) ∧
      (sampleColumn.rows.filter fun row => row.1.shortroomid = 1).Pairwise
        fun row row' => row.1.count.intoSigned < row'.1.count.intoSigned) :=
  ⟨by decide, by decide, by decide,
    timeline_scans_exact sampleColumn (by decide) (by decide) (by decide)⟩

example : pdus sampleColumn 1 (some (.normal 3)) = [(.normal 7, ())] ∧
    pdusRev sampleColumn 1 (some (.normal 3)) = [(.backfilled (-2), ())] := by
  constructor <;> decide +kernel

/-! ## At the zero crossing -/

/-- A room holding one backfilled PDU, `Backfilled(-1)`. -/
def backfilledHistory : Column Unit := ⟨[(⟨1, .backfilled (-1)⟩, ())], by decide⟩

/-- From `Backfilled(-1)` the forward scan yields that PDU again, though its count is not above
`-1`; before `Normal(1)` the reverse scan yields nothing, though `Backfilled(-1)` is below it:
the seek keys `Backfilled(0)` and `Normal(0)` sit at the wrong ends of the room's keys. -/
theorem timeline_scan_bounds_cross_zero :
    (∀ row ∈ backfilledHistory.rows, Stored row.1) ∧
      pdus backfilledHistory 1 (some (.backfilled (-1))) = [(.backfilled (-1), ())] ∧
      ¬ (Count.backfilled (-1)).intoSigned < (Count.backfilled (-1)).intoSigned ∧
      pdusRev backfilledHistory 1 (some (.normal 1)) = [] ∧
      (Count.backfilled (-1)).intoSigned < (Count.normal 1).intoSigned :=
  ⟨by decide, by decide, by decide, by decide, by decide⟩

end Timeline
end Tuwunel
