import Tuwunel.Library.KeyValue
import Tuwunel.Library.StepRun
import Tuwunel.Core.Identifiers

/-!
# One-time keys

`add_one_time_keys` stores each new key of a device as a row `(user, device, count, key id)` of
`onetimekeyid4225_otk`, with `count` drawn from the global counter, and commits the batch in one
transaction.  It skips a key id the device has already, and every key of a device without
metadata (`addOneTimeKeys_of_not_device`).  The count follows the prefix `(user, device)` as
eight big-endian bytes, so a prefix scan meets a device's rows in upload order; `rows` keeps the
column in ascending count, which on every prefix is that order.

`take_one_time_key` draws a count for `userid_lastonetimekeyupdate`, awaits the first row of the
wanted algorithm from the scan, and then deletes it.  Nothing ties the read to the delete.  A
`World` holds the column and the calls in flight, and each call takes three steps: the draw, the
read, the delete.  Two calls that both read before either deletes return the same row
(`take_one_time_key_race`).  Calls whose read and delete are not separated by another call's read
hand out each row at most once (`serial_takes_hand_out_once`).
-/

namespace Tuwunel
namespace Users

open KeyValue

/-- `OwnedOneTimeKeyId`: `algorithm:name`. -/
structure OneTimeKeyId (Algorithm : Type) where
  algorithm : Algorithm
  name : String
  deriving DecidableEq, Repr

/-- A row of `onetimekeyid4225_otk`: the row key `(user, device, count, key id)` and the key. -/
structure OtkRow (Algorithm Key : Type) where
  userId : UserId
  deviceId : DeviceId
  count : Nat
  keyId : OneTimeKeyId Algorithm
  key : Key
  deriving DecidableEq, Repr

/-- Where one call of `take_one_time_key` is. -/
inductive Phase (Algorithm Key : Type)
  /-- Not started. -/
  | start
  /-- The count is drawn and `userid_lastonetimekeyupdate` written; the scan is open. -/
  | scanning
  /-- The scan yielded `row`; the call has not deleted it yet. -/
  | read (row : OtkRow Algorithm Key)
  /-- Returned the row, or `NotFound`. -/
  | done (result : Option (OtkRow Algorithm Key))
  deriving DecidableEq, Repr

/-- A call of `take_one_time_key` for one device and algorithm. -/
structure Call (Algorithm Key : Type) where
  userId : UserId
  deviceId : DeviceId
  algorithm : Algorithm
  phase : Phase Algorithm Key
  deriving DecidableEq, Repr

/-- The column, the counter, the update markers, and the calls in flight. -/
structure World (Algorithm Key : Type) where
  /-- `onetimekeyid4225_otk`, in ascending count. -/
  rows : List (OtkRow Algorithm Key)
  /-- The global counter behind `next_count`. -/
  counter : Nat
  /-- `userid_lastonetimekeyupdate`. -/
  lastUpdate : Table UserId Nat
  /-- The calls of `take_one_time_key`, numbered by position. -/
  calls : List (Call Algorithm Key)
  /-- The devices with metadata, which `device_exists` looks up. -/
  devices : List (UserId × DeviceId)

/-- The scheduler's choices. -/
inductive Action (Algorithm Key : Type)
  /-- The call draws its count and writes the update marker. -/
  | draw (call : Nat)
  /-- The call's scan yields its first row, or nothing. -/
  | read (call : Nat)
  /-- The call deletes the row it read and returns it. -/
  | delete (call : Nat)
  /-- `add_one_time_keys`, its transaction committed at once. -/
  | upload (userId : UserId) (deviceId : DeviceId) (keys : List (OneTimeKeyId Algorithm × Key))
      (limit : Nat)

variable {Algorithm Key : Type} [DecidableEq Algorithm]

/-- The row key `(user, device, count, key id)`. -/
def OtkRow.rowKey (row : OtkRow Algorithm Key) :
    UserId × DeviceId × Nat × OneTimeKeyId Algorithm :=
  (row.userId, row.deviceId, row.count, row.keyId)

namespace World

/-- The first row the scan of `(user, device, Interfix)` yields for `algorithm`. -/
def firstRow (world : World Algorithm Key) (userId : UserId) (deviceId : DeviceId)
    (algorithm : Algorithm) : Option (OtkRow Algorithm Key) :=
  world.rows.find? fun row =>
    row.userId == userId && row.deviceId == deviceId && row.keyId.algorithm == algorithm

/-- `add_one_time_key`'s dedup scan: the device already has a row with this key id. -/
def present (world : World Algorithm Key) (userId : UserId) (deviceId : DeviceId)
    (keyId : OneTimeKeyId Algorithm) : Bool :=
  world.rows.any fun row => row.userId == userId && row.deviceId == deviceId && row.keyId == keyId

/-- `add_one_time_key` within the upload's transaction: a key of a device without metadata
fails and a key id the device has returns nothing, and `add_one_time_keys` skips both; any other
key draws a count and stages its row. -/
def addOneTimeKey (world : World Algorithm Key) (userId : UserId) (deviceId : DeviceId)
    (staged : Nat × List (OtkRow Algorithm Key)) (entry : OneTimeKeyId Algorithm × Key) :
    Nat × List (OtkRow Algorithm Key) :=
  if (userId, deviceId) ∉ world.devices then staged
  else if world.present userId deviceId entry.1 then staged
  else (staged.1 + 1, staged.2 ++ [⟨userId, deviceId, staged.1 + 1, entry.1, entry.2⟩])

/-- `add_one_time_keys`: the staged rows and the last count are committed together. -/
def addOneTimeKeys (world : World Algorithm Key) (userId : UserId) (deviceId : DeviceId)
    (keys : List (OneTimeKeyId Algorithm × Key)) (limit : Nat) : World Algorithm Key :=
  let staged := (keys.take limit).foldl (world.addOneTimeKey userId deviceId) (world.counter, [])
  { world with
    rows := world.rows ++ staged.2
    counter := staged.1
    lastUpdate := match staged.2.getLast? with
      | some row => world.lastUpdate.put userId row.count
      | none => world.lastUpdate }

/-- One step of one call, or one upload. -/
def step (world : World Algorithm Key) : Action Algorithm Key → Option (World Algorithm Key)
  | .draw index =>
      match world.calls[index]? with
      | some ⟨userId, deviceId, algorithm, .start⟩ =>
          some { world with
            counter := world.counter + 1
            lastUpdate := world.lastUpdate.put userId (world.counter + 1)
            calls := world.calls.set index ⟨userId, deviceId, algorithm, .scanning⟩ }
      | _ => none
  | .read index =>
      match world.calls[index]? with
      | some ⟨userId, deviceId, algorithm, .scanning⟩ =>
          let phase := match world.firstRow userId deviceId algorithm with
            | some row => .read row
            | none => .done none
          some { world with
            calls := world.calls.set index ⟨userId, deviceId, algorithm, phase⟩ }
      | _ => none
  | .delete index =>
      match world.calls[index]? with
      | some ⟨userId, deviceId, algorithm, .read row⟩ =>
          some { world with
            rows := world.rows.filter fun other => other.rowKey != row.rowKey
            calls := world.calls.set index ⟨userId, deviceId, algorithm, .done (some row)⟩ }
      | _ => none
  | .upload userId deviceId keys limit => some (world.addOneTimeKeys userId deviceId keys limit)

/-! ## The steps of a call -/

variable {world : World Algorithm Key} {index : Nat} {userId : UserId} {deviceId : DeviceId}
  {algorithm : Algorithm}

theorem step_draw (call : world.calls[index]? = some ⟨userId, deviceId, algorithm, .start⟩) :
    world.step (.draw index) = some { world with
      counter := world.counter + 1
      lastUpdate := world.lastUpdate.put userId (world.counter + 1)
      calls := world.calls.set index ⟨userId, deviceId, algorithm, .scanning⟩ } := by
  simp [step, call]

theorem step_read_found {row : OtkRow Algorithm Key}
    (found : world.firstRow userId deviceId algorithm = some row)
    (call : world.calls[index]? = some ⟨userId, deviceId, algorithm, .scanning⟩) :
    world.step (.read index) = some { world with
      calls := world.calls.set index ⟨userId, deviceId, algorithm, .read row⟩ } := by
  simp [step, call, found]

theorem step_delete {row : OtkRow Algorithm Key}
    (call : world.calls[index]? = some ⟨userId, deviceId, algorithm, .read row⟩) :
    world.step (.delete index) = some { world with
      rows := world.rows.filter fun other => other.rowKey != row.rowKey
      calls := world.calls.set index ⟨userId, deviceId, algorithm, .done (some row)⟩ } := by
  simp [step, call]

end World

/-! ## Two calls racing -/

/-- Two calls for one device and algorithm, both drawn and both read before either deletes:
each returns the device's first row of the algorithm, one row handed out twice. -/
theorem take_one_time_key_race {world : World Algorithm Key} {first second : Nat}
    {userId : UserId} {deviceId : DeviceId} {algorithm : Algorithm} {row : OtkRow Algorithm Key}
    (distinct : first ≠ second)
    (firstCall : world.calls[first]? = some ⟨userId, deviceId, algorithm, .start⟩)
    (secondCall : world.calls[second]? = some ⟨userId, deviceId, algorithm, .start⟩)
    (found : world.firstRow userId deviceId algorithm = some row) :
    (StepRun.run World.step world
        [.draw first, .draw second, .read first, .read second, .delete first, .delete second]).map
      (fun final => (final.calls[first]?, final.calls[second]?)) =
      some (some ⟨userId, deviceId, algorithm, .done (some row)⟩,
        some ⟨userId, deviceId, algorithm, .done (some row)⟩) := by
  have firstLength : first < world.calls.length := (List.getElem?_eq_some_iff.mp firstCall).1
  have secondLength : second < world.calls.length := (List.getElem?_eq_some_iff.mp secondCall).1
  -- each step finds its call where the other call's updates left it
  simp only [StepRun.run_cons, StepRun.run_nil, Option.bind_eq_bind]
  rw [World.step_draw firstCall, Option.bind_some,
    World.step_draw (by simpa [List.getElem?_set, distinct] using secondCall), Option.bind_some,
    World.step_read_found (by exact found) (by simp [Ne.symm distinct, firstLength]),
    Option.bind_some,
    World.step_read_found (by exact found) (by simp [distinct, secondLength]),
    Option.bind_some,
    World.step_delete (show _ = some (⟨userId, deviceId, algorithm, .read row⟩ : Call _ _) by
      simp [Ne.symm distinct, firstLength]),
    Option.bind_some,
    World.step_delete (show _ = some (⟨userId, deviceId, algorithm, .read row⟩ : Call _ _) by
      simp [distinct, secondLength]),
    Option.bind_some, Option.map_some]
  simp [Ne.symm distinct, firstLength, secondLength]

/-- `@alice:example.com`. -/
def alice : UserId := ⟨"alice", "example.com"⟩

/-- A claim of a `signed_curve25519` key of alice's `DEVICE`, not started. -/
def deviceClaim : Call String String := ⟨alice, "DEVICE", "signed_curve25519", .start⟩

/-- Two claims in flight for a device that has uploaded nothing yet. -/
def claimingWorld : World String String :=
  ⟨[], 0, Table.empty, [deviceClaim, deviceClaim], [(alice, "DEVICE")]⟩

/-- The row of the device's one uploaded key. -/
def uploadedRow : OtkRow String String :=
  ⟨alice, "DEVICE", 1, ⟨"signed_curve25519", "AAAAAQ"⟩, "key"⟩

/-- The claims' world once the device has uploaded one key. -/
def uploadedWorld : World String String :=
  claimingWorld.addOneTimeKeys alice "DEVICE" [(⟨"signed_curve25519", "AAAAAQ"⟩, "key")] 50

theorem take_one_time_key_race_uploadedWorld :
    (0 : Nat) ≠ 1 ∧ uploadedWorld.calls[0]? = some deviceClaim ∧
      uploadedWorld.calls[1]? = some deviceClaim ∧
      uploadedWorld.firstRow alice "DEVICE" "signed_curve25519" = some uploadedRow ∧
      (StepRun.run World.step uploadedWorld
          [.draw 0, .draw 1, .read 0, .read 1, .delete 0, .delete 1]).map
        (fun final => (final.calls[0]?, final.calls[1]?)) =
        some (some ⟨alice, "DEVICE", "signed_curve25519", .done (some uploadedRow)⟩,
          some ⟨alice, "DEVICE", "signed_curve25519", .done (some uploadedRow)⟩) :=
  ⟨by decide, rfl, rfl, by decide, take_one_time_key_race (by decide) rfl rfl (by decide)⟩

/-! ## Calls that do not overlap -/

namespace World

/-- The phase of the call numbered `index`. -/
def phaseOf (world : World Algorithm Key) (index : Nat) : Option (Phase Algorithm Key) :=
  world.calls[index]?.map Call.phase

/-- A call's read followed at once, when it found a row, by its delete. -/
def takeAtOnce (world : World Algorithm Key) (index : Nat) : Option (World Algorithm Key) :=
  world.step (.read index) >>= fun read =>
    match read.phaseOf index with
    | some (.read _) => read.step (.delete index)
    | _ => some read

end World

/-- The steps of a schedule in which no call reads while another is between its read and its
delete. -/
inductive SerialAction (Algorithm Key : Type)
  | draw (call : Nat)
  | take (call : Nat)
  | upload (userId : UserId) (deviceId : DeviceId) (keys : List (OneTimeKeyId Algorithm × Key))
      (limit : Nat)

namespace World

/-- One step of a schedule without overlapping calls. -/
def serialStep (world : World Algorithm Key) :
    SerialAction Algorithm Key → Option (World Algorithm Key)
  | .draw index => world.step (.draw index)
  | .take index => world.takeAtOnce index
  | .upload userId deviceId keys limit => world.step (.upload userId deviceId keys limit)

/-- What holds between the steps of calls that do not overlap: the column ascends in count below
the counter, no call is between its read and its delete, and each row handed out is gone from
the column, counted, and handed out by one call only. -/
structure Sound (world : World Algorithm Key) : Prop where
  ascending : world.rows.Pairwise fun row other => row.count < other.count
  counted : ∀ row ∈ world.rows, row.count ≤ world.counter
  idle : ∀ index row, world.phaseOf index ≠ some (.read row)
  gone : ∀ index row, world.phaseOf index = some (.done (some row)) →
    row ∉ world.rows ∧ row.count ≤ world.counter
  once : ∀ index index' row, world.phaseOf index = some (.done (some row)) →
    world.phaseOf index' = some (.done (some row)) → index = index'

end World


namespace World

variable {world after : World Algorithm Key} {index : Nat}

omit [DecidableEq Algorithm] in
/-- A world whose calls are the old ones with one replaced sees the other phases unchanged. -/
theorem phaseOf_of_calls {call : Call Algorithm Key} (lt : index < world.calls.length)
    (same : after.calls = world.calls.set index call) (other : Nat) :
    after.phaseOf other = if other = index then some call.phase else world.phaseOf other := by
  rw [phaseOf, same, List.getElem?_set]
  by_cases here : other = index
  · simp [here, lt]
  · simp [here, Ne.symm here, phaseOf]

/-- A take run at once: the call was scanning, and either found nothing or deleted and returned
the first row of its device and algorithm. -/
theorem takeAtOnce_cases (taken : world.takeAtOnce index = some after) :
    ∃ userId deviceId algorithm,
      world.calls[index]? = some ⟨userId, deviceId, algorithm, .scanning⟩ ∧
      ((world.firstRow userId deviceId algorithm = none ∧
          after = { world with
            calls := world.calls.set index ⟨userId, deviceId, algorithm, .done none⟩ }) ∨
        ∃ row, world.firstRow userId deviceId algorithm = some row ∧
          after = { world with
            rows := world.rows.filter fun other => other.rowKey != row.rowKey
            calls := world.calls.set index
              ⟨userId, deviceId, algorithm, .done (some row)⟩ }) := by
  simp only [takeAtOnce, step, Option.bind_eq_bind] at taken
  split at taken
  · next userId deviceId algorithm call =>
    have lt : index < world.calls.length := (List.getElem?_eq_some_iff.mp call).1
    refine ⟨userId, deviceId, algorithm, call, ?_⟩
    cases found : world.firstRow userId deviceId algorithm with
    | none =>
        simp only [found, Option.bind_some, phaseOf, List.getElem?_set_self lt, Option.map_some,
          Option.some.injEq] at taken
        exact Or.inl ⟨rfl, taken.symm⟩
    | some row =>
        simp only [found, Option.bind_some, phaseOf, List.getElem?_set_self lt, Option.map_some,
          Option.some.injEq, List.set_set] at taken
        exact Or.inr ⟨row, rfl, taken.symm⟩
  · simp at taken

/-- Rows an upload has staged: above everything counted before it, in ascending count, within
the counts drawn. -/
def Staged (world : World Algorithm Key) (staged : Nat × List (OtkRow Algorithm Key)) : Prop :=
  world.counter ≤ staged.1 ∧ staged.2.Pairwise (fun row other => row.count < other.count) ∧
    ∀ row ∈ staged.2, world.counter < row.count ∧ row.count ≤ staged.1

theorem staged_addOneTimeKey {userId : UserId} {deviceId : DeviceId}
    {staged : Nat × List (OtkRow Algorithm Key)} (entry : OneTimeKeyId Algorithm × Key)
    (kept : Staged world staged) :
    Staged world (world.addOneTimeKey userId deviceId staged entry) := by
  unfold addOneTimeKey
  split
  · exact kept
  split
  · exact kept
  · obtain ⟨fresh, ascending, bounded⟩ := kept
    refine ⟨by simp only; omega, List.pairwise_append.mpr ⟨ascending, by simp, ?_⟩, ?_⟩
    · intro row member other single
      rw [List.mem_singleton] at single
      subst single
      have := (bounded row member).2
      simp only
      omega
    · intro row member
      rcases List.mem_append.mp member with old | new
      · have := bounded row old
        simp only
        omega
      · rw [List.mem_singleton] at new
        subst new
        simp only
        omega

theorem staged_foldl {userId : UserId} {deviceId : DeviceId}
    (keys : List (OneTimeKeyId Algorithm × Key))
    {staged : Nat × List (OtkRow Algorithm Key)} (kept : Staged world staged) :
    Staged world (keys.foldl (world.addOneTimeKey userId deviceId) staged) := by
  induction keys generalizing staged with
  | nil => exact kept
  | cons entry keys ih => exact ih (staged_addOneTimeKey entry kept)

/-- An upload for a device without metadata changes nothing: `add_one_time_key` fails on every
key, and the transaction commits nothing. -/
theorem addOneTimeKeys_of_not_device {userId : UserId} {deviceId : DeviceId}
    (absent : (userId, deviceId) ∉ world.devices) (keys : List (OneTimeKeyId Algorithm × Key))
    (limit : Nat) : world.addOneTimeKeys userId deviceId keys limit = world := by
  have skipped : ∀ (keys : List (OneTimeKeyId Algorithm × Key)) staged,
      keys.foldl (world.addOneTimeKey userId deviceId) staged = staged := by
    intro keys
    induction keys with
    | nil => exact fun _ => rfl
    | cons entry keys ih =>
        intro staged
        rw [List.foldl_cons, ih, addOneTimeKey, if_pos absent]
  simp [addOneTimeKeys, skipped]

/-- An upload appends rows counted above every row there is. -/
theorem Sound.upload (sound : Sound world) (userId : UserId) (deviceId : DeviceId)
    (keys : List (OneTimeKeyId Algorithm × Key)) (limit : Nat) :
    Sound (world.addOneTimeKeys userId deviceId keys limit) := by
  have kept : Staged world
      ((keys.take limit).foldl (world.addOneTimeKey userId deviceId) (world.counter, [])) :=
    staged_foldl _ ⟨Nat.le_refl _, List.Pairwise.nil, by simp⟩
  unfold addOneTimeKeys
  generalize (keys.take limit).foldl (world.addOneTimeKey userId deviceId) (world.counter, []) =
    staged at kept ⊢
  obtain ⟨fresh, ascending, bounded⟩ := kept
  refine ⟨?_, ?_, sound.idle, ?_, sound.once⟩
  · refine List.pairwise_append.mpr ⟨sound.ascending, ascending, fun row old other new => ?_⟩
    have := sound.counted row old
    have := (bounded other new).1
    omega
  · intro row member
    rcases List.mem_append.mp member with old | new
    · have := sound.counted row old
      simp only
      omega
    · exact (bounded row new).2
  · intro index row done
    obtain ⟨gone, counted⟩ := sound.gone index row done
    refine ⟨fun member => ?_, by simp only; omega⟩
    rcases List.mem_append.mp member with old | new
    · exact gone old
    · have := (bounded row new).1
      omega

/-- A draw moves one call from `start` to `scanning` and raises the counter. -/
theorem Sound.draw (sound : Sound world) (stepped : world.step (.draw index) = some after) :
    Sound after := by
  simp only [step] at stepped
  split at stepped
  · next userId deviceId algorithm call =>
    have lt : index < world.calls.length := (List.getElem?_eq_some_iff.mp call).1
    have fields := (Option.some.inj stepped).symm
    have phases := phaseOf_of_calls lt (congrArg World.calls fields)
    have rows : after.rows = world.rows := by rw [fields]
    have counter : after.counter = world.counter + 1 := by rw [fields]
    refine ⟨rows ▸ sound.ascending, fun row member => ?_, fun other row => ?_,
      fun other row done => ?_, fun other other' row done done' => ?_⟩
    · have := sound.counted row (rows ▸ member)
      omega
    · rw [phases]
      split
      · simp
      · exact sound.idle other row
    · rw [phases] at done
      split at done
      · simp at done
      · obtain ⟨gone, counted⟩ := sound.gone other row done
        exact ⟨rows ▸ gone, by omega⟩
    · rw [phases] at done done'
      split at done
      · simp at done
      · split at done'
        · simp at done'
        · exact sound.once other other' row done done'
  · cases stepped

/-- A take run at once hands out the first row of its device and algorithm, which was in the
column and so was handed out by no call before. -/
theorem Sound.takeAtOnce (sound : Sound world) (taken : world.takeAtOnce index = some after) :
    Sound after := by
  obtain ⟨userId, deviceId, algorithm, call, outcome⟩ := takeAtOnce_cases taken
  have lt : index < world.calls.length := (List.getElem?_eq_some_iff.mp call).1
  rcases outcome with ⟨-, fields⟩ | ⟨row, found, fields⟩
  · -- nothing found: the call returns `NotFound`
    have phases := phaseOf_of_calls lt (congrArg World.calls fields)
    have rows : after.rows = world.rows := by rw [fields]
    have counter : after.counter = world.counter := by rw [fields]
    refine ⟨rows ▸ sound.ascending,
      fun row member => counter ▸ sound.counted row (rows ▸ member),
      fun other row => ?_, fun other row done => ?_, fun other other' row done done' => ?_⟩
    · rw [phases]
      split
      · simp
      · exact sound.idle other row
    · rw [phases] at done
      split at done
      · simp at done
      · exact rows ▸ counter ▸ sound.gone other row done
    · rw [phases] at done done'
      split at done
      · simp at done
      · split at done'
        · simp at done'
        · exact sound.once other other' row done done'
  · -- the first row is handed out and deleted
    have member : row ∈ world.rows := List.mem_of_find?_eq_some found
    have phases := phaseOf_of_calls lt (congrArg World.calls fields)
    have rows : after.rows = world.rows.filter fun other => other.rowKey != row.rowKey := by
      rw [fields]
    have counter : after.counter = world.counter := by rw [fields]
    have kept : ∀ other ∈ after.rows, other ∈ world.rows := fun other inAfter =>
      (List.mem_filter.mp (rows ▸ inAfter)).1
    refine ⟨rows ▸ sound.ascending.filter _,
      fun other inAfter => counter ▸ sound.counted other (kept other inAfter),
      fun other held => ?_, fun other handed done => ?_,
      fun other other' handed done done' => ?_⟩
    · rw [phases]
      split
      · simp
      · exact sound.idle other held
    · rw [phases] at done
      split at done
      · -- the row just handed out is deleted
        simp only [Option.some.injEq, Phase.done.injEq] at done
        subst done
        refine ⟨fun inAfter => ?_, counter ▸ sound.counted _ member⟩
        simp [rows] at inAfter
      · obtain ⟨gone, counted⟩ := sound.gone other handed done
        exact ⟨fun inAfter => gone (kept handed inAfter), counter ▸ counted⟩
    · -- a row handed out before is gone from the column, and this one was in it
      rw [phases] at done done'
      split at done
      · next here =>
        split at done'
        · next here' => rw [here, here']
        · simp only [Option.some.injEq, Phase.done.injEq] at done
          subst done
          exact absurd member (sound.gone other' _ done').1
      · split at done'
        · simp only [Option.some.injEq, Phase.done.injEq] at done'
          subst done'
          exact absurd member (sound.gone other _ done).1
        · exact sound.once other other' handed done done'

theorem sound_serialStep :
    StepRun.Preserved Sound (@serialStep Algorithm Key _) := by
  intro world action after sound stepped
  cases action with
  | draw index => exact sound.draw stepped
  | take index => exact sound.takeAtOnce stepped
  | upload userId deviceId keys limit =>
      obtain rfl := Option.some.inj stepped
      exact sound.upload userId deviceId keys limit

omit [DecidableEq Algorithm] in
/-- Before any call has started and with the column empty, the invariant holds. -/
theorem sound_fresh (counter : Nat) (lastUpdate : Table UserId Nat)
    (calls : List (Call Algorithm Key)) (devices : List (UserId × DeviceId))
    (started : ∀ call ∈ calls, call.phase = .start) :
    Sound ⟨[], counter, lastUpdate, calls, devices⟩ := by
  -- every phase there is `start`
  have phases : ∀ index phase,
      (⟨[], counter, lastUpdate, calls, devices⟩ : World Algorithm Key).phaseOf index = some phase →
        phase = .start := by
    intro index phase found
    obtain ⟨call, member, rfl⟩ := Option.map_eq_some_iff.mp found
    exact started call (List.mem_of_getElem? member)
  refine ⟨List.Pairwise.nil, by simp, fun index row read => ?_, fun index row done => ?_,
    fun index _ row done _ => ?_⟩
  · cases phases index _ read
  · cases phases index _ done
  · cases phases index _ done

/-- A step of a schedule without overlap is a run of the calls' own steps. -/
theorem serialStep_run {action : SerialAction Algorithm Key}
    (stepped : world.serialStep action = some after) :
    ∃ actions, StepRun.run step world actions = some after := by
  cases action with
  | draw index => exact ⟨[.draw index], by simpa [serialStep] using stepped⟩
  | upload userId deviceId keys limit =>
      exact ⟨[.upload userId deviceId keys limit], by simpa [serialStep] using stepped⟩
  | take index =>
      simp only [serialStep, takeAtOnce, Option.bind_eq_bind] at stepped
      cases reading : world.step (.read index) with
      | none => simp [reading] at stepped
      | some read =>
          rw [reading, Option.bind_some] at stepped
          split at stepped
          · exact ⟨[.read index, .delete index], by simp [reading, stepped]⟩
          · exact ⟨[.read index], by simp [reading, ← stepped]⟩

/-- Schedules without overlap are schedules of the calls' own steps. -/
theorem serial_run {schedule : List (SerialAction Algorithm Key)}
    (ran : StepRun.run serialStep world schedule = some after) :
    ∃ actions, StepRun.run step world actions = some after := by
  induction schedule generalizing world with
  | nil => exact ⟨[], ran⟩
  | cons action schedule ih =>
      simp only [StepRun.run_cons, Option.bind_eq_bind] at ran
      cases stepped : world.serialStep action with
      | none => simp [stepped] at ran
      | some middle =>
          rw [stepped, Option.bind_some] at ran
          obtain ⟨front, frontRun⟩ := serialStep_run stepped
          obtain ⟨back, backRun⟩ := ih ran
          exact ⟨front ++ back, by simp [StepRun.run_append, frontRun, backRun]⟩

/-- The row a call reads has the least count among its device's rows of the algorithm. -/
theorem firstRow_least (ascending : world.rows.Pairwise fun row other => row.count < other.count)
    {userId : UserId} {deviceId : DeviceId} {algorithm : Algorithm} {row : OtkRow Algorithm Key}
    (found : world.firstRow userId deviceId algorithm = some row) (other : OtkRow Algorithm Key)
    (member : other ∈ world.rows) (sameUser : other.userId = userId)
    (sameDevice : other.deviceId = deviceId) (sameAlgorithm : other.keyId.algorithm = algorithm) :
    row.count ≤ other.count := by
  obtain ⟨-, before, after, split, skipped⟩ := List.find?_eq_some_iff_append.mp found
  rw [split] at ascending member
  rcases List.mem_append.mp member with earlier | later
  · -- the scan passed over every row before the one it yielded
    have := skipped other earlier
    simp [sameUser, sameDevice, sameAlgorithm] at this
  · rcases List.mem_cons.mp later with rfl | later
    · exact Nat.le_refl _
    · have ordered := (List.pairwise_append.mp ascending).2.1
      exact Nat.le_of_lt ((List.pairwise_cons.mp ordered).1 other later)

end World

/-- Calls that do not overlap, interleaved with uploads in any order, hand out each row at most
once, and a row handed out is gone from the column. -/
theorem serial_takes_hand_out_once {world final : World Algorithm Key} (sound : world.Sound)
    {schedule : List (SerialAction Algorithm Key)}
    (ran : StepRun.run World.serialStep world schedule = some final) :
    (∀ index row, final.phaseOf index = some (.done (some row)) → row ∉ final.rows) ∧
      ∀ index index' row, final.phaseOf index = some (.done (some row)) →
        final.phaseOf index' = some (.done (some row)) → index = index' := by
  have finalSound := StepRun.run_invariant _ World.sound_serialStep sound ran
  exact ⟨fun index row done => (finalSound.gone index row done).1, finalSound.once⟩

/-- The same claims run one after the other: the first takes the key, the second finds none. -/
theorem serial_takes_hand_out_once_claimingWorld :
    ∃ final, StepRun.run World.serialStep claimingWorld
        [.upload alice "DEVICE" [(⟨"signed_curve25519", "AAAAAQ"⟩, "key")] 50,
          .draw 0, .take 0, .draw 1, .take 1] = some final ∧
      final.phaseOf 1 = some (.done none) ∧
      (∀ index row, final.phaseOf index = some (.done (some row)) → row ∉ final.rows) ∧
      ∀ index index' row, final.phaseOf index = some (.done (some row)) →
        final.phaseOf index' = some (.done (some row)) → index = index' := by
  have ran : StepRun.run World.serialStep claimingWorld
      [.upload alice "DEVICE" [(⟨"signed_curve25519", "AAAAAQ"⟩, "key")] 50,
        .draw 0, .take 0, .draw 1, .take 1] = some _ := rfl
  exact ⟨_, ran, by decide, serial_takes_hand_out_once
    (World.sound_fresh 0 Table.empty [deviceClaim, deviceClaim] [(alice, "DEVICE")] (by decide))
    ran⟩

end Users
end Tuwunel
