import Mathlib
import Tuwunel.Core.Utils.Set.SortedStream2
import Tuwunel.Database.Map.StreamPrefix

/-!
# Shared rooms

`rooms_joined` lists a user's joined rooms by a scan of `userroomid_joined`, whose keys are
`(user_id, room_id)`.  The scan is `keys_raw_prefix(user_id)`: it seeks to the user id's bytes and
reads on while the keys start with them, with no separator after the id, so the keys of every user
whose id extends those bytes are read too, and their rooms come out with the user's own
(`roomsJoined_reads_extension`).  `get_shared_rooms` feeds two users' `rooms_joined` to
`intersection_sorted_stream2`, which computes the sorted intersection of what it is given
(`getSharedRooms_eq`).  With `@bob:h2` joined to `!z:h`, the stream of `@bob:h` starts with `!z:h`,
ahead of bob's own `!a:h`, and the rooms bob shares with `@carol:h` come out wrong
(`get_shared_rooms_reads_other_user`).

Room ids are the `&str` of the key, compared byte by byte as `&str` is.
-/

namespace Tuwunel
namespace StateCache

open BigEndian Database PollStream Utils

/-- A `&RoomId` read from a key: its bytes, compared byte by byte as `&str` compares. -/
structure RoomRef where
  bytes : Utf8.Str
  deriving DecidableEq

/-- The bytes as numbers, in the order they are compared. -/
def RoomRef.key (room : RoomRef) : List Nat := room.bytes.1.map UInt8.toNat

theorem RoomRef.key_injective : Function.Injective RoomRef.key := by
  rintro ⟨room⟩ ⟨other⟩ same
  congr 1
  apply Subtype.ext
  exact (List.map_injective_iff.mpr fun _ _ equal => UInt8.toNat_inj.mp equal) same

instance : LinearOrder RoomRef := LinearOrder.lift' RoomRef.key RoomRef.key_injective

/-- A key read as `(Ignore, &RoomId)`: its room, or nothing where it does not read. -/
def keyRoom (key : List UInt8) : Option RoomRef :=
  match fromSlice [.str, .str] key with
  | .ok [_, .str roomId] => some ⟨roomId⟩
  | _ => none

/-- `rooms_joined`: the keys from the user id's bytes on, while they start with them, read as
`(Ignore, &RoomId)`; `ignore_err` skips the keys that do not read. -/
def roomsJoined (userroomidJoinedcount : Map) (userId : Utf8.Str) : List RoomRef :=
  ((userroomidJoinedcount.rawStreamFrom userId.1).takeWhile fun entry =>
    userId.1.isPrefixOf entry.1).filterMap fun entry => keyRoom entry.1

/-- `get_shared_rooms`: `intersection_sorted_stream2` over the two users' `rooms_joined`, polled
until it ends.  The scans are ready at every poll. -/
def getSharedRooms (userroomidJoinedcount : Map) (userA userB : Utf8.Str) : List RoomRef :=
  drain intersectionRounds.machine (Merge.fresh
    ((roomsJoined userroomidJoinedcount userA).map .ready)
    ((roomsJoined userroomidJoinedcount userB).map .ready))

/-- The rooms the column records a user as joined to: the rooms of its keys `(user_id, room_id)`
for that user. -/
def joinedRooms (userroomidJoinedcount : Map) (userId : Utf8.Str) : List RoomRef :=
  userroomidJoinedcount.entries.filterMap fun entry =>
    match fromSlice [.str, .str] entry.1 with
    | .ok [.str user, .str roomId] => if user = userId then some ⟨roomId⟩ else none
    | _ => none

/-! ## What the scan reads -/

/-- The scan reads the entries whose keys start with the user id's bytes. -/
theorem roomsJoined_eq_filter (userroomidJoinedcount : Map) (userId : Utf8.Str) :
    roomsJoined userroomidJoinedcount userId =
      (userroomidJoinedcount.entries.filter fun entry => userId.1.isPrefixOf entry.1).filterMap
        fun entry => keyRoom entry.1 := by
  rw [roomsJoined, Map.rawStreamFrom,
    PrefixScan.takeWhile_dropWhile_eq_filter Prod.fst _ userroomidJoinedcount.ascending]

theorem keyRoom_serializeKey (userId roomId : Utf8.Str) :
    keyRoom (serializeKey [.str userId, .str roomId]) = some ⟨roomId⟩ := by
  have typed : List.Forall₂ (fun (field : Field) type => field.hasType type)
      [.str userId, .str roomId] [.str, .str] := by
    simp [Field.hasType]
  rw [keyRoom, fromSlice_serializeKey_of_scalar (by simp [FieldType.scalar]) typed]

/-- A row of any user whose id extends the user id's bytes is read as one of the user's rooms. -/
theorem roomsJoined_reads_extension {userroomidJoinedcount : Map} {userId other roomId : Utf8.Str}
    {count : List UInt8} (extended : userId.1 <+: other.1)
    (stored : (serializeKey [.str other, .str roomId], count) ∈ userroomidJoinedcount.entries) :
    ⟨roomId⟩ ∈ roomsJoined userroomidJoinedcount userId := by
  have leads : userId.1 <+: serializeKey [.str other, .str roomId] := by
    have whole : serializeKey [.str other, .str roomId] = other.1 ++ SEP :: roomId.1 := by
      simp [serializeKey, serializeToVec_cons, Field.encode]
    rw [whole]
    exact extended.trans (List.prefix_append _ _)
  rw [roomsJoined_eq_filter, List.mem_filterMap]
  refine ⟨_, List.mem_filter.mpr ⟨stored, ?_⟩, keyRoom_serializeKey other roomId⟩
  exact List.isPrefixOf_iff_prefix.mpr leads

/-- `get_shared_rooms` is the sorted intersection of the two scans. -/
theorem getSharedRooms_eq (userroomidJoinedcount : Map) (userA userB : Utf8.Str) :
    getSharedRooms userroomidJoinedcount userA userB =
      interItems (roomsJoined userroomidJoinedcount userA)
        (roomsJoined userroomidJoinedcount userB) := by
  rw [getSharedRooms, drain_intersection, Merge.restA_fresh, Merge.restB_fresh, items_map_ready,
    items_map_ready]

/-! ## A user id that another extends -/

theorem bob_valid : Utf8.Valid [0x40, 0x62, 0x6F, 0x62, 0x3A, 0x68] := by decide

/-- The user `@bob:h`. -/
def bob : Utf8.Str := ⟨[0x40, 0x62, 0x6F, 0x62, 0x3A, 0x68], bob_valid⟩

/-- The user `@bob:h2`, whose id extends `bob`'s. -/
def bobH2 : Utf8.Str := ⟨[0x40, 0x62, 0x6F, 0x62, 0x3A, 0x68, 0x32], by decide⟩

/-- The user `@carol:h`. -/
def carol : Utf8.Str := ⟨[0x40, 0x63, 0x61, 0x72, 0x6F, 0x6C, 0x3A, 0x68], by decide⟩

/-- The room id `!a:h`. -/
def roomA : Utf8.Str := ⟨[0x21, 0x61, 0x3A, 0x68], by decide⟩

/-- The room id `!z:h`. -/
def roomZ : Utf8.Str := ⟨[0x21, 0x7A, 0x3A, 0x68], by decide⟩

/-- `userroomid_joined` with `@bob:h2` in `!z:h`, `@bob:h` in `!a:h` and `@carol:h` in both, the
counts `1` to `4`, in key order: `@bob:h2`'s key comes first, as `2` is below `SEP`. -/
def sharedColumn : Map :=
  ⟨[(serializeKey [.str bobH2, .str roomZ], toBeBytes 8 1),
    (serializeKey [.str bob, .str roomA], toBeBytes 8 2),
    (serializeKey [.str carol, .str roomA], toBeBytes 8 3),
    (serializeKey [.str carol, .str roomZ], toBeBytes 8 4)], by decide +kernel⟩

theorem get_shared_rooms_reads_other_user :
    getSharedRooms sharedColumn bob carol = [⟨roomZ⟩] ∧
      (joinedRooms sharedColumn bob).filter (· ∈ joinedRooms sharedColumn carol) = [⟨roomA⟩] := by
  have bobScan : roomsJoined sharedColumn bob = [⟨roomZ⟩, ⟨roomA⟩] := by decide +kernel
  have carolScan : roomsJoined sharedColumn carol = [⟨roomA⟩, ⟨roomZ⟩] := by decide +kernel
  have ordered : (⟨roomA⟩ : RoomRef) < ⟨roomZ⟩ := by decide
  refine ⟨?_, by decide +kernel⟩
  rw [getSharedRooms_eq, bobScan, carolScan, interItems_gt _ _ ordered, interItems_eq,
    interItems_nil_right]

end StateCache
end Tuwunel
