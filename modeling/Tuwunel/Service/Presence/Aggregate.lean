import Mathlib
import Tuwunel.Core.Identifiers
import Tuwunel.Library.AssocTable

/-!
# Presence across devices

`PresenceAggregator` keeps a presence snapshot per device of each user.  `update` writes one
device's snapshot; `aggregate` folds a user's devices into one presence and prunes the devices that
have not updated within the offline timeout.  The fold and the pruning are one `retain` closure:
each device is folded into the accumulators first and then kept or dropped.

The devices kept are exactly those updated within the timeout (`retainDevices_kept`), but the
accumulators range over every device the user had, dropped ones included: the active flag is
whether any of them counts as active, and the latest activity is the latest over all of them
(`aggregate_over_all_devices`).  So a device dropped by this very call still lends the result its
state and its status message, and the next call, without it, answers differently
(`aggregate_reports_dropped_device`).

Timestamps are `u64` milliseconds; they are only subtracted, with saturation, and compared, so
they are `Nat` here.  The hash maps are association lists in the order they were filled.
-/

namespace Tuwunel
namespace Presence

/-- `PresenceState`, with ruma's catch-all for values it does not know. -/
inductive PresenceState
  | offline
  | online
  | unavailable
  | busy
  | custom (value : String)
  deriving DecidableEq, Repr

/-- `DeviceKey`. -/
inductive DeviceKey
  | device (id : DeviceId)
  | remote
  | unknownLocal
  deriving DecidableEq, Repr

/-- `StatusMsg`: `set` writes through, `unchanged` keeps what the device has. -/
inductive StatusMsg
  | set (msg : Option String)
  | unchanged

/-- `DevicePresence`. -/
structure DevicePresence where
  state : PresenceState
  currentlyActive : Bool
  lastActiveTs : Nat
  lastUpdateTs : Nat
  statusMsg : Option String
  deriving DecidableEq, Repr

/-- `AggregatedPresence`. -/
structure AggregatedPresence where
  state : PresenceState
  currentlyActive : Bool
  lastActiveTs : Nat
  statusMsg : Option String
  deviceCount : Nat
  deriving DecidableEq, Repr

/-- `PresenceAggregator`: the devices of each user. -/
structure PresenceAggregator where
  inner : List (UserId × List (DeviceKey × DevicePresence))

/-- `PresenceAggregator::new`. -/
def PresenceAggregator.empty : PresenceAggregator := ⟨[]⟩

/-- `PresenceAggregator::update`: the device's entry is made if missing and then overwritten,
its status message only when `status_msg` sets one. -/
def PresenceAggregator.update (aggregator : PresenceAggregator) (userId : UserId)
    (deviceKey : DeviceKey) (state : PresenceState) (currentlyActive : Option Bool)
    (lastActiveAgo : Option Nat) (statusMsg : StatusMsg) (nowMs : Nat) : PresenceAggregator :=
  let lastActiveTs := match lastActiveAgo with
    | none => nowMs
    | some ago => nowMs - ago
  let initialStatus := match statusMsg with
    | .set msg => msg
    | .unchanged => none
  let inserted : DevicePresence :=
    ⟨state, currentlyActive.getD false, lastActiveTs, nowMs, initialStatus⟩
  let overwrite (entry : DevicePresence) : DevicePresence :=
    ⟨state, currentlyActive.getD false, lastActiveTs, nowMs,
      match statusMsg with
      | .set msg => msg
      | .unchanged => entry.statusMsg⟩
  ⟨AssocTable.modify [] (fun devices => AssocTable.modify inserted overwrite devices deviceKey)
    aggregator.inner userId⟩

/-- `effective_device_state`. -/
def effectiveDeviceState (state : PresenceState) (lastActiveAge idleTimeoutMs offlineTimeoutMs : Nat) :
    PresenceState :=
  match state with
  | .busy | .online => if lastActiveAge ≥ idleTimeoutMs then .unavailable else state
  | .unavailable => if lastActiveAge ≥ offlineTimeoutMs then .offline else .unavailable
  | .offline => .offline
  | .custom value => .custom value

/-- `state_rank`. -/
def stateRank : PresenceState → Nat
  | .busy => 3
  | .online => 2
  | .unavailable => 1
  | _ => 0

/-! ## The `retain` closure -/

/-- The accumulators of `aggregate`. -/
structure Accumulator where
  bestState : PresenceState
  bestRank : Nat
  anyCurrentlyActive : Bool
  lastActiveTs : Nat
  latestStatus : Option (Nat × String)

/-- Their values before the first device. -/
def Accumulator.initial : Accumulator := ⟨.offline, stateRank .offline, false, 0, none⟩

section Closure

variable (nowMs idleTimeoutMs offlineTimeoutMs : Nat)

/-- A device's effective state at `now_ms`. -/
def effectiveState (device : DevicePresence) : PresenceState :=
  effectiveDeviceState device.state (nowMs - device.lastActiveTs) idleTimeoutMs offlineTimeoutMs

/-- Whether a device makes the user currently active: effectively online or busy, flagged active,
and active within the idle timeout. -/
def countsActive (device : DevicePresence) : Bool :=
  (effectiveState nowMs idleTimeoutMs offlineTimeoutMs device == .online ||
      effectiveState nowMs idleTimeoutMs offlineTimeoutMs device == .busy) &&
    device.currentlyActive && decide (nowMs - device.lastActiveTs < idleTimeoutMs)

/-- Whether a device updated within the offline timeout: the closure's verdict. -/
def fresh (device : DevicePresence) : Bool := decide (nowMs - device.lastUpdateTs < offlineTimeoutMs)

/-- The latest non-empty status message: a device's message replaces the one held when none is
held or the device updated strictly later. -/
def latestStatusWith (latest : Option (Nat × String)) (device : DevicePresence) :
    Option (Nat × String) :=
  match device.statusMsg.filter (fun msg => !msg.isEmpty) with
  | none => latest
  | some msg =>
      match latest with
      | none => some (device.lastUpdateTs, msg)
      | some (ts, _) => if device.lastUpdateTs > ts then some (device.lastUpdateTs, msg) else latest

/-- One call of the closure: the device folded into the accumulators, and whether it is kept. -/
def visit (acc : Accumulator) (device : DevicePresence) : Accumulator × Bool :=
  let state := effectiveState nowMs idleTimeoutMs offlineTimeoutMs device
  let raised := decide (stateRank state > acc.bestRank)
  (⟨if raised then state else acc.bestState, if raised then stateRank state else acc.bestRank,
    acc.anyCurrentlyActive || countsActive nowMs idleTimeoutMs offlineTimeoutMs device,
    if device.lastActiveTs > acc.lastActiveTs then device.lastActiveTs else acc.lastActiveTs,
    latestStatusWith acc.latestStatus device⟩,
   fresh nowMs offlineTimeoutMs device)

/-- `devices.retain(..)`: the closure runs on every device in turn; the kept ones stay in order. -/
def retainDevices : Accumulator → List (DeviceKey × DevicePresence) →
    Accumulator × List (DeviceKey × DevicePresence)
  | acc, [] => (acc, [])
  | acc, entry :: rest =>
      let visited := visit nowMs idleTimeoutMs offlineTimeoutMs acc entry.2
      let after := retainDevices visited.1 rest
      (after.1, if visited.2 then entry :: after.2 else after.2)

end Closure

/-- The presence of a user with no device left. -/
def offlinePresence (nowMs : Nat) : AggregatedPresence := ⟨.offline, false, nowMs, none, 0⟩

/-- `PresenceAggregator::aggregate`: the user's presence, and the aggregator with the user's
stale devices pruned, and the user removed when none is left. -/
def PresenceAggregator.aggregate (aggregator : PresenceAggregator) (userId : UserId)
    (nowMs idleTimeoutMs offlineTimeoutMs : Nat) : AggregatedPresence × PresenceAggregator :=
  match aggregator.inner.lookup userId with
  | none => (offlinePresence nowMs, aggregator)
  | some devices =>
      let retained := retainDevices nowMs idleTimeoutMs offlineTimeoutMs .initial devices
      let deviceCount := retained.2.length
      let statusMsg := retained.1.latestStatus.map Prod.snd
      if deviceCount = 0 then
        (offlinePresence nowMs, ⟨aggregator.inner.filter fun entry => entry.1 != userId⟩)
      else
        (⟨retained.1.bestState, retained.1.anyCurrentlyActive,
            if retained.1.lastActiveTs = 0 then nowMs else retained.1.lastActiveTs, statusMsg,
            deviceCount⟩,
          ⟨AssocTable.modify [] (fun _ => retained.2) aggregator.inner userId⟩)

/-! ## What the closure computes -/

section Fold

variable {nowMs idleTimeoutMs offlineTimeoutMs : Nat}

/-- The accumulators after the closure has run over `devices`. -/
def foldVisits (nowMs idleTimeoutMs offlineTimeoutMs : Nat) (acc : Accumulator)
    (devices : List (DeviceKey × DevicePresence)) : Accumulator :=
  devices.foldl (fun acc entry => (visit nowMs idleTimeoutMs offlineTimeoutMs acc entry.2).1) acc

/-- `retain` keeps exactly the devices updated within the offline timeout. -/
theorem retainDevices_kept (acc : Accumulator) (devices : List (DeviceKey × DevicePresence)) :
    (retainDevices nowMs idleTimeoutMs offlineTimeoutMs acc devices).2 =
      devices.filter fun entry => fresh nowMs offlineTimeoutMs entry.2 := by
  induction devices generalizing acc with
  | nil => rfl
  | cons entry rest ih =>
      rw [retainDevices, List.filter_cons]
      dsimp only
      rw [ih]
      rfl

/-- The accumulators see every device, the dropped ones included. -/
theorem retainDevices_acc (acc : Accumulator) (devices : List (DeviceKey × DevicePresence)) :
    (retainDevices nowMs idleTimeoutMs offlineTimeoutMs acc devices).1 =
      foldVisits nowMs idleTimeoutMs offlineTimeoutMs acc devices := by
  induction devices generalizing acc with
  | nil => rfl
  | cons entry rest ih =>
      rw [retainDevices]
      exact ih _

theorem anyCurrentlyActive_foldVisits (acc : Accumulator)
    (devices : List (DeviceKey × DevicePresence)) :
    (foldVisits nowMs idleTimeoutMs offlineTimeoutMs acc devices).anyCurrentlyActive =
      (acc.anyCurrentlyActive ||
        devices.any fun entry => countsActive nowMs idleTimeoutMs offlineTimeoutMs entry.2) := by
  induction devices generalizing acc with
  | nil => simp [foldVisits]
  | cons entry rest ih =>
      rw [foldVisits, List.foldl_cons, ← foldVisits, ih, List.any_cons, visit, Bool.or_assoc]

/-- The latest activity held is the latest of what was held and the devices'. -/
theorem lastActiveTs_foldVisits (acc : Accumulator) (devices : List (DeviceKey × DevicePresence)) :
    (foldVisits nowMs idleTimeoutMs offlineTimeoutMs acc devices).lastActiveTs =
      (devices.map fun entry => entry.2.lastActiveTs).foldl max acc.lastActiveTs := by
  induction devices generalizing acc with
  | nil => rfl
  | cons entry rest ih =>
      have raised : (visit nowMs idleTimeoutMs offlineTimeoutMs acc entry.2).1.lastActiveTs =
          max acc.lastActiveTs entry.2.lastActiveTs := by
        simp only [visit]
        split <;> omega
      rw [foldVisits, List.foldl_cons, ← foldVisits, ih, raised, List.map_cons, List.foldl_cons]

end Fold

/-- `aggregate` on a user with a device updated within the offline timeout: the accumulators over
all the user's devices, and the user's devices pruned to those updated within the timeout. -/
theorem aggregate_of_kept {aggregator : PresenceAggregator} {userId : UserId}
    {devices : List (DeviceKey × DevicePresence)} {nowMs idleTimeoutMs offlineTimeoutMs : Nat}
    (found : aggregator.inner.lookup userId = some devices)
    (kept : devices.any fun entry => fresh nowMs offlineTimeoutMs entry.2) :
    aggregator.aggregate userId nowMs idleTimeoutMs offlineTimeoutMs =
      let acc := foldVisits nowMs idleTimeoutMs offlineTimeoutMs .initial devices
      let retained := devices.filter fun entry => fresh nowMs offlineTimeoutMs entry.2
      (⟨acc.bestState, acc.anyCurrentlyActive,
          if acc.lastActiveTs = 0 then nowMs else acc.lastActiveTs,
          acc.latestStatus.map Prod.snd, retained.length⟩,
        ⟨AssocTable.modify [] (fun _ => retained) aggregator.inner userId⟩) := by
  have nonempty : (devices.filter fun entry => fresh nowMs offlineTimeoutMs entry.2).length ≠ 0 := by
    obtain ⟨entry, member, isFresh⟩ := List.any_eq_true.mp kept
    have retained : entry ∈ devices.filter fun entry => fresh nowMs offlineTimeoutMs entry.2 :=
      List.mem_filter.mpr ⟨member, isFresh⟩
    exact Nat.pos_iff_ne_zero.mp (List.length_pos_of_mem retained)
  simp only [PresenceAggregator.aggregate, found, retainDevices_kept, retainDevices_acc]
  rw [if_neg nonempty]

/-- What `aggregate` returns for a user with a device updated within the offline timeout, and
keeps: it counts and keeps exactly those devices, but its active flag and its latest activity
are taken over all the user's devices, the ones it drops included. -/
theorem aggregate_over_all_devices {aggregator : PresenceAggregator} {userId : UserId}
    {devices : List (DeviceKey × DevicePresence)} (nowMs idleTimeoutMs offlineTimeoutMs : Nat)
    (found : aggregator.inner.lookup userId = some devices)
    (kept : devices.any fun entry => fresh nowMs offlineTimeoutMs entry.2) :
    (aggregator.aggregate userId nowMs idleTimeoutMs offlineTimeoutMs).1.deviceCount =
        (devices.filter fun entry => fresh nowMs offlineTimeoutMs entry.2).length ∧
      (aggregator.aggregate userId nowMs idleTimeoutMs offlineTimeoutMs).2.inner.lookup userId =
        some (devices.filter fun entry => fresh nowMs offlineTimeoutMs entry.2) ∧
      (aggregator.aggregate userId nowMs idleTimeoutMs offlineTimeoutMs).1.currentlyActive =
        devices.any (fun entry => countsActive nowMs idleTimeoutMs offlineTimeoutMs entry.2) ∧
      (aggregator.aggregate userId nowMs idleTimeoutMs offlineTimeoutMs).1.lastActiveTs =
        if (devices.map fun entry => entry.2.lastActiveTs).foldl max 0 = 0 then nowMs
        else (devices.map fun entry => entry.2.lastActiveTs).foldl max 0 := by
  rw [aggregate_of_kept found kept]
  refine ⟨rfl, by simp [AssocTable.lookup_modify], ?_, ?_⟩
  · simp only [anyCurrentlyActive_foldVisits]
    rfl
  · simp only [lastActiveTs_foldVisits]
    rfl

/-! ## A device dropped by the call that reports it -/

/-- The user `@alice:example.com`. -/
def alice : UserId := ⟨"alice", "example.com"⟩

/-- Alice's devices: `DEVICE_A` online and active at time 0 with the status `away`, then
`DEVICE_B` offline at time 100. -/
def twoDevices : PresenceAggregator :=
  (PresenceAggregator.empty.update alice (.device "DEVICE_A") .online (some true) none
    (.set (some "away")) 0).update alice (.device "DEVICE_B") .offline none none .unchanged 100

/-- What `update` made of them. -/
def aliceDevices : List (DeviceKey × DevicePresence) :=
  [(.device "DEVICE_A", ⟨.online, true, 0, 0, some "away"⟩),
    (.device "DEVICE_B", ⟨.offline, false, 100, 100, none⟩)]

theorem aggregate_over_all_devices_twoDevices :
    twoDevices.inner.lookup alice = some aliceDevices ∧
      aliceDevices.any (fun entry => fresh 100 50 entry.2) ∧
      ((twoDevices.aggregate alice 100 50 50).1.deviceCount =
          (aliceDevices.filter fun entry => fresh 100 50 entry.2).length ∧
        (twoDevices.aggregate alice 100 50 50).2.inner.lookup alice =
          some (aliceDevices.filter fun entry => fresh 100 50 entry.2) ∧
        (twoDevices.aggregate alice 100 50 50).1.currentlyActive =
          aliceDevices.any (fun entry => countsActive 100 50 50 entry.2) ∧
        (twoDevices.aggregate alice 100 50 50).1.lastActiveTs =
          if (aliceDevices.map fun entry => entry.2.lastActiveTs).foldl max 0 = 0 then 100
          else (aliceDevices.map fun entry => entry.2.lastActiveTs).foldl max 0) :=
  have found : twoDevices.inner.lookup alice = some aliceDevices := by decide
  ⟨found, by decide, aggregate_over_all_devices 100 50 50 found (by decide)⟩

/-- With both timeouts at 50 ms, alice's aggregate at time 100 keeps `DEVICE_B` alone, yet reports
the state `unavailable` and the status `away` of the `DEVICE_A` it drops; called again, it
reports `offline` and no status. -/
theorem aggregate_reports_dropped_device :
    twoDevices.inner.lookup alice = some aliceDevices ∧
      (aliceDevices.filter fun entry => 100 - entry.2.lastUpdateTs < 50) =
        [(.device "DEVICE_B", ⟨.offline, false, 100, 100, none⟩)] ∧
      (twoDevices.aggregate alice 100 50 50).1 = ⟨.unavailable, false, 100, some "away", 1⟩ ∧
      ((twoDevices.aggregate alice 100 50 50).2.aggregate alice 100 50 50).1 =
        ⟨.offline, false, 100, none, 1⟩ := by
  decide

end Presence
end Tuwunel
