import Tuwunel.Core.Numbers
import Tuwunel.Core.Identifiers
import Tuwunel.Library.KeyValue
import Tuwunel.Library.AssocTable

/-!
# The outgoing sender worker

A sender worker owns three things: `statuses`, its `TransactionStatus` per destination; `futures`,
the `FuturesUnordered` of its `send_events` transactions, each of which resolves with the
destination it was sent to; and `wakes`, its retry timer.  It runs the netburst at startup, then
takes one of three steps at a time: a transaction completing, a request arriving on its channel,
or the due wakes draining.

What the worker reads besides its own state is written by other tasks or read from the clock: the
queued and active rows of the sending tables (the tasks that queue requests), `should_attempt`
(the peer status and the clock), and the push backoff window (the clock).  Each read is an
answer of `Reads`, which the step takes as given, so that each may be anything at each query.
Which transaction completes, and which wakes are due and in which order they pop, are chosen by
the step as well.  The payloads of events, the EDU selection and the writes to the sending
tables do not bear on the statuses and are left out.
-/

namespace Tuwunel
namespace Sending

open KeyValue

/-- `Destination`. -/
inductive Destination
  | appservice (id : String)
  | push (userId : UserId) (pushkey : String)
  | federation (server : ServerName)
  deriving DecidableEq, Repr

/-- Whether the destination is a pusher. -/
def Destination.isPush : Destination → Bool
  | .push .. => true
  | _ => false

/-- Whether the destination is a server. -/
def Destination.isFederation : Destination → Bool
  | .federation _ => true
  | _ => false

/-- Whether the destination is an appservice. -/
def Destination.isAppservice : Destination → Bool
  | .appservice _ => true
  | _ => false

/-- `SendingEvent`, without the payloads, which the worker passes on unread. -/
inductive SendingEvent
  | pdu
  | edu
  | toDevice
  | deviceListChanged
  | badgeRefresh
  | flush
  deriving DecidableEq, Repr

/-- `QueueItem`: a queue key and its event. -/
abbrev QueueItem := List UInt8 × SendingEvent

/-- `Msg`: a request on the worker's channel. -/
structure Msg where
  dest : Destination
  event : SendingEvent
  queueId : List UInt8

/-- `TransactionStatus`.  The time of a push failure is read only by the backoff, whose answer is
one of the step's `Reads`. -/
inductive TransactionStatus
  | running
  | runningForceRetry
  | failed (tries : Nat)
  | retrying (tries : Nat)
  deriving DecidableEq, Repr

/-- `RetryAction`. -/
inductive RetryAction
  | none
  | force
  deriving DecidableEq, Repr

/-- What a `send_events` future resolves with: its destination, and whether it succeeded. -/
inductive SendingResult
  | ok (dest : Destination)
  | err (dest : Destination)

/-- `DEQUEUE_LIMIT`. -/
def dequeueLimit : Nat := 48

/-- What the reads of one step return. -/
structure Reads where
  /-- Whether `should_attempt` allows an attempt, in `handle_response` and `handle_wake`. -/
  attempt : Bool
  /-- Whether `should_attempt` allows an attempt, in `select_events_current`. -/
  attemptAtSelect : Bool
  /-- Whether `push_backoff_remaining` finds the window still open, in `handle_wake`. -/
  backoffAtWake : Bool
  /-- Whether `exponential_backoff_remaining_secs` finds it still open, in
  `select_events_current`. -/
  backoffAtSelect : Bool
  /-- `queued_requests(dest)`. -/
  queued : List QueueItem
  /-- `active_requests_for(dest)`. -/
  active : List QueueItem
  /-- Whether a queue row still exists, as `retain_queued` asks. -/
  stillQueued : List UInt8 → Bool
  /-- How many EDUs `select_edus` composes, where it succeeds. -/
  edus : Nat

/-- The state of one sender worker. -/
structure Worker where
  statuses : Table Destination TransactionStatus
  /-- The destination of each transaction in `futures`. -/
  futures : List Destination
  /-- The destination of each wake in the retry timer. -/
  wakes : List Destination

/-- `retain_queued`: the items whose queue row is still there, and those without a row. -/
def retainQueued (stillQueued : List UInt8 → Bool) (events : List QueueItem) : List QueueItem :=
  events.filter fun item => item.1.isEmpty || stillQueued item.1

/-- `select_events_current`: whether to send (`allow`) and whether to resend the active
transaction (`retry`), and the statuses after. -/
def selectEventsCurrent (dest : Destination) (statuses : Table Destination TransactionStatus)
    (retryAction : RetryAction) (reads : Reads) :
    (Bool × Bool) × Table Destination TransactionStatus :=
  -- `peer_status` gates federation only
  if dest.isFederation && !reads.attemptAtSelect then ((false, false), statuses)
  else
    match statuses.get dest with
    | some .running | some .runningForceRetry =>
        ((false, false),
          if retryAction = .force then statuses.put dest .runningForceRetry else statuses)
    | some (.failed tries) =>
        if reads.backoffAtSelect then ((false, false), statuses)
        else ((true, true), statuses.put dest (.retrying tries))
    | some (.retrying _) =>
        -- a push retry is in flight; elsewhere the status is promoted to `Running`
        if dest.isPush then ((false, false), statuses)
        else ((true, true), statuses.put dest .running)
    | none => ((true, false), statuses.put dest .running)

/-- `select_events`: the events of the next transaction, if one is to be sent, and the statuses
after.  A retry resends the active rows; otherwise the new events still queued are composed, with
the EDUs for a server. -/
def selectEvents (dest : Destination) (newEvents : List QueueItem)
    (statuses : Table Destination TransactionStatus) (reads : Reads) :
    Option (List SendingEvent) × Table Destination TransactionStatus :=
  let retryAction :=
    if dest.isAppservice && newEvents.any (·.2 == .flush) then RetryAction.force else .none
  match selectEventsCurrent dest statuses retryAction reads with
  | ((allow, retry), statuses) =>
      if !allow then (none, statuses)
      else if retry then (some (reads.active.map (·.2)), statuses)
      else
        let events := ((retainQueued reads.stillQueued newEvents).map (·.2)).filter (· != .flush)
        (some (if dest.isFederation then events ++ List.replicate reads.edus .edu else events),
          statuses)

namespace Worker

/-- `arm_wake`. -/
def armWake (worker : Worker) (dest : Destination) : Worker :=
  { worker with wakes := worker.wakes ++ [dest] }

/-- `schedule_events`: a transaction of the events, or the status dropped where there are none. -/
def scheduleEvents (worker : Worker) (dest : Destination) (events : List SendingEvent) : Worker :=
  if events.isEmpty then { worker with statuses := worker.statuses.remove dest }
  else { worker with futures := worker.futures ++ [dest] }

/-- `handle_request`.  A synthetic badge refresh reads the destination's queue, unless the
destination already has a status. -/
def handleRequest (worker : Worker) (msg : Msg) (reads : Reads) : Worker :=
  let syntheticBadge := msg.queueId.isEmpty && msg.event == .badgeRefresh
  let newEvents :=
    match syntheticBadge, worker.statuses.contains msg.dest with
    | false, _ => [(msg.queueId, msg.event)]
    | true, true => []
    | true, false => reads.queued.take dequeueLimit
  match selectEvents msg.dest newEvents worker.statuses reads with
  | (some events, statuses) => { worker with statuses }.scheduleEvents msg.dest events
  | (none, statuses) => { worker with statuses }

/-- `handle_force_retry`. -/
def handleForceRetry (worker : Worker) (dest : Destination) (reads : Reads) : Worker :=
  match selectEvents dest [] worker.statuses reads with
  | (some events, statuses) => { worker with statuses }.scheduleEvents dest events
  | (none, statuses) => { worker with statuses }

/-- `handle_response_err`: the retry action, and the status after: failed for a pusher, retrying
elsewhere, one try more. -/
def handleResponseErr (dest : Destination) (statuses : Table Destination TransactionStatus) :
    RetryAction × Table Destination TransactionStatus :=
  match statuses.get dest with
  | none => (.none, statuses)
  | some status =>
      let (tries, retryAction) :=
        match status with
        | .running => (1, RetryAction.none)
        | .runningForceRetry => (1, .force)
        | .failed tries | .retrying tries => (saturatingAdd32 tries 1, .none)
      (retryAction, statuses.put dest (if dest.isPush then .failed tries else .retrying tries))

/-- Where the destination has a status, `handle_response_err` writes a failed status for a pusher
and a retrying one elsewhere. -/
theorem handleResponseErr_of_get {dest : Destination} {statuses : Table Destination TransactionStatus}
    {status : TransactionStatus} (found : statuses.get dest = some status) :
    ∃ tries retryAction, handleResponseErr dest statuses =
      (retryAction, statuses.put dest (if dest.isPush then .failed tries else .retrying tries)) := by
  unfold handleResponseErr
  rw [found]
  cases status <;> exact ⟨_, _, rfl⟩

/-- `handle_response_ok`: the rows queued while the transaction was in flight, with the EDUs for
a server, go out as the next transaction; with none, the status is dropped. -/
def handleResponseOk (worker : Worker) (dest : Destination) (reads : Reads) : Worker :=
  let events := (reads.queued.take dequeueLimit).map (·.2)
  let events := if dest.isFederation then events ++ List.replicate reads.edus .edu else events
  if events.isEmpty then { worker with statuses := worker.statuses.remove dest }
  else
    { worker with
      statuses :=
        match worker.statuses.get dest with
        | some _ => worker.statuses.put dest .running
        | none => worker.statuses
      futures := worker.futures ++ [dest] }

/-- `handle_response`: a failed server is woken when its peer status allows, a failed pusher when
its backoff ends, and a failed appservice transaction that was asked to retry is retried at
once. -/
def handleResponse (worker : Worker) (response : SendingResult) (reads : Reads) : Worker :=
  match response with
  | .ok dest => worker.handleResponseOk dest reads
  | .err dest =>
      match handleResponseErr dest worker.statuses with
      | (retryAction, statuses) =>
          let worker := { worker with statuses }
          match dest with
          | .federation _ => if !reads.attempt then worker.armWake dest else worker
          | .push .. =>
              match statuses.get dest with
              | some (.failed _) => worker.armWake dest
              | _ => worker
          | .appservice _ =>
              if retryAction = .force then worker.handleForceRetry dest reads else worker

/-- `push_backoff_remaining`, by whether the window it computes is still open. -/
def pushBackoffRemaining (status : Option TransactionStatus) (windowOpen : Bool) : Bool :=
  match status with
  | some (.failed _) => windowOpen
  | _ => false

/-- `handle_wake`. -/
def handleWake (worker : Worker) (dest : Destination) (reads : Reads) : Worker :=
  let status := worker.statuses.get dest
  match dest, status with
  | _, some .running | _, some .runningForceRetry => worker
  | .push .., some (.retrying _) => worker
  | _, _ =>
      if dest.isPush && pushBackoffRemaining status reads.backoffAtWake then
        -- an early wake is re-armed, unless another wake of the destination is armed
        if dest ∈ worker.wakes then worker else worker.armWake dest
      else
        match dest with
        | .federation _ =>
            if !reads.attempt then worker.armWake dest
            else worker.handleRequest ⟨dest, .flush, []⟩ reads
        | .push .. => worker.handleForceRetry dest reads
        | .appservice _ => worker

/-- `drain_due_wakes`: the due wakes popped one at a time, each handled on what the ones before
left.  Which wakes are due and the order they pop in are the clock's: each pop names the position
of the wake it takes. -/
def drainDueWakes (worker : Worker) : List (Nat × Reads) → Worker
  | [] => worker
  | (index, reads) :: pops =>
      match worker.wakes[index]? with
      | some dest =>
          drainDueWakes ({ worker with wakes := worker.wakes.eraseIdx index }.handleWake dest reads)
            pops
      | none => drainDueWakes worker pops

/-- The active rows of the worker's shard by destination, at most `keep` each where the
configured keep is not negative: the `txns` of `startup_netburst`. -/
def netburstTransactions (keepConfig : Int) (keep : Nat)
    (active : List (List UInt8 × SendingEvent × Destination)) :
    List (Destination × List SendingEvent) :=
  active.foldl (fun txns row =>
      AssocTable.modify [] (fun events =>
        if 0 ≤ keepConfig ∧ keep ≤ events.length then events else events ++ [row.2.1]) txns row.2.2)
    []

/-- One transaction of the netburst, started under `Running` where the netburst is on and the
destination has rows. -/
def startTransaction (startupNetburst : Bool) (worker : Worker)
    (txn : Destination × List SendingEvent) : Worker :=
  if startupNetburst && !txn.2.isEmpty then
    { worker with
      statuses := worker.statuses.put txn.1 .running
      futures := worker.futures ++ [txn.1] }
  else worker

/-- `startup_netburst`: a transaction for each destination with active rows of the shard, then,
where the netburst is on and keeps rows, a badge refresh request for each destination of the
shard with a queued badge refresh. -/
def startupNetburst (worker : Worker) (startupNetburst : Bool) (startupNetburstKeep : Int)
    (ownShard : Destination → Bool) (active : List (List UInt8 × SendingEvent × Destination))
    (badgeDestinations : List Destination) (reads : Destination → Reads) : Worker :=
  let keep := if startupNetburstKeep < 0 then u64Max else startupNetburstKeep.toNat
  let txns := netburstTransactions startupNetburstKeep keep (active.filter (ownShard ·.2.2))
  let worker := txns.foldl (startTransaction startupNetburst) worker
  if !startupNetburst || keep = 0 then worker
  else
    ((badgeDestinations.filter ownShard).dedup).foldl (fun worker dest =>
      worker.handleRequest ⟨dest, .badgeRefresh, []⟩ (reads dest)) worker

/-- A worker before its netburst. -/
def empty : Worker := ⟨Table.empty, [], []⟩

end Worker

/-- What the netburst of a worker reads: the configuration, the worker's shard, the active rows,
the destinations with a queued badge refresh, and the reads of each badge refresh request. -/
structure Netburst where
  startupNetburst : Bool
  startupNetburstKeep : Int
  ownShard : Destination → Bool
  active : List (List UInt8 × SendingEvent × Destination)
  badgeDestinations : List Destination
  reads : Destination → Reads

/-- A worker after its netburst. -/
def Worker.start (netburst : Netburst) : Worker :=
  Worker.empty.startupNetburst netburst.startupNetburst netburst.startupNetburstKeep
    netburst.ownShard netburst.active netburst.badgeDestinations netburst.reads

/-- One step of the work loop: the transaction at a position of `futures` completing, a request
arriving, or the due wakes draining. -/
inductive Step
  | response (index : Nat) (succeeded : Bool) (reads : Reads)
  | request (msg : Msg) (reads : Reads)
  | wakes (pops : List (Nat × Reads))

namespace Worker

/-- One step of `work_loop`. -/
def step (worker : Worker) : Step → Worker
  | .response index succeeded reads =>
      match worker.futures[index]? with
      | some dest =>
          { worker with futures := worker.futures.eraseIdx index }.handleResponse
            (if succeeded then .ok dest else .err dest) reads
      | none => worker
  | .request msg reads => worker.handleRequest msg reads
  | .wakes pops => worker.drainDueWakes pops

end Worker

end Sending
end Tuwunel
