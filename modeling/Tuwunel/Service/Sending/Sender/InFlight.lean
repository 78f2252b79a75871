import Mathlib
import Tuwunel.Service.Sending.Sender

/-!
# One transaction in flight per destination

The statuses of a sender worker are the only guard against sending to a destination twice.  A
status stands for a transaction in flight when it is `Running` or `RunningForceRetry`, and for a
pusher also when it is `Retrying`: a pusher's failure is `Failed`, and its retry is in flight,
while elsewhere a failure is `Retrying` and nothing is in flight (`inFlight`).

`Worker.Invariant` says that the transactions in `futures` of each destination number one where
its status stands for one in flight, and none otherwise, and that only pushers fail.  The netburst
establishes it (`invariant_start`) and every step keeps it (`Invariant.step`), whatever the reads
return, whichever transaction completes and whichever wakes pop.  `select_events` is where a
transaction is allowed: it allows one only where none is in flight, and leaves one in flight
(`selectEventsCurrent_allowed`); where it refuses, it leaves the destination as it was
(`selectEventsCurrent_refused`).  A transaction that resolves leaves its destination in flight by
its status with nothing left in `futures` (`Invariant.resolved`), which both response handlers
start from.
-/

namespace Tuwunel
namespace Sending

open KeyValue

/-- Whether a status stands for a transaction in flight. -/
def inFlight (dest : Destination) : Option TransactionStatus → Bool
  | some .running | some .runningForceRetry => true
  | some (.retrying _) => dest.isPush
  | _ => false

theorem inFlight_eq_true_iff {dest : Destination} {status : Option TransactionStatus} :
    inFlight dest status = true ↔
      status = some .running ∨ status = some .runningForceRetry ∨
        (dest.isPush = true ∧ ∃ tries, status = some (.retrying tries)) := by
  rcases status with _ | _ | _ | _ | _ <;> simp [inFlight]

/-! ## `select_events` -/

section Select

variable {dest : Destination} {statuses : Table Destination TransactionStatus}
  {retryAction : RetryAction} {reads : Reads}

/-- `select_events_current` writes only the status of its destination. -/
theorem selectEventsCurrent_get_of_ne {other : Destination} (distinct : other ≠ dest) :
    (selectEventsCurrent dest statuses retryAction reads).2.get other = statuses.get other := by
  unfold selectEventsCurrent
  split
  · rfl
  · split <;> (try split) <;> simp [distinct]

/-- Where `select_events_current` allows a transaction, none was in flight, one is now, and the
destination is not failed.  A failed destination is a pusher, whose retry is in flight. -/
theorem selectEventsCurrent_allowed
    (failedPush : ∀ tries, statuses.get dest = some (.failed tries) → dest.isPush = true)
    (allowed : (selectEventsCurrent dest statuses retryAction reads).1.1 = true) :
    inFlight dest (statuses.get dest) = false ∧
      inFlight dest ((selectEventsCurrent dest statuses retryAction reads).2.get dest) = true ∧
      ∀ tries, (selectEventsCurrent dest statuses retryAction reads).2.get dest ≠
        some (.failed tries) := by
  unfold selectEventsCurrent at allowed ⊢
  by_cases gated : (dest.isFederation && !reads.attemptAtSelect) = true
  · simp [gated] at allowed
  · simp only [gated, Bool.false_eq_true, if_false] at allowed ⊢
    cases found : statuses.get dest with
    | none => simp [inFlight]
    | some status =>
        rw [found] at allowed
        cases status with
        | running => simp at allowed
        | runningForceRetry => simp at allowed
        | failed tries =>
            by_cases open_ : reads.backoffAtSelect = true
            · simp [open_] at allowed
            · simp [open_, inFlight, failedPush tries found]
        | retrying tries =>
            by_cases push : dest.isPush = true
            · simp [push] at allowed
            · simp [push, inFlight]

/-- Where it refuses, the destination is as much in flight as it was, and failed only if it
was. -/
theorem selectEventsCurrent_refused
    (refused : (selectEventsCurrent dest statuses retryAction reads).1.1 = false) :
    inFlight dest ((selectEventsCurrent dest statuses retryAction reads).2.get dest) =
        inFlight dest (statuses.get dest) ∧
      ∀ tries, (selectEventsCurrent dest statuses retryAction reads).2.get dest =
        some (.failed tries) → statuses.get dest = some (.failed tries) := by
  unfold selectEventsCurrent at refused ⊢
  by_cases gated : (dest.isFederation && !reads.attemptAtSelect) = true
  · simp [gated]
  · simp only [gated, Bool.false_eq_true, if_false] at refused ⊢
    cases found : statuses.get dest with
    | none => simp [found] at refused
    | some status =>
        rw [found] at refused
        cases status with
        | running =>
            by_cases force : retryAction = .force <;> simp [force, found, inFlight]
        | runningForceRetry =>
            by_cases force : retryAction = .force <;> simp [force, found, inFlight]
        | failed tries =>
            by_cases open_ : reads.backoffAtSelect = true
            · simp [open_, found]
            · simp [open_] at refused
        | retrying tries =>
            by_cases push : dest.isPush = true
            · simp [push, found]
            · simp [push] at refused

/-- `select_events` is `select_events_current` with the retry action of its new events: it sends
exactly where that allows, and leaves the statuses it leaves. -/
theorem selectEvents_eq_current (newEvents : List QueueItem) :
    ∃ retryAction,
      (selectEvents dest newEvents statuses reads).2 =
          (selectEventsCurrent dest statuses retryAction reads).2 ∧
        (selectEvents dest newEvents statuses reads).1.isSome =
          (selectEventsCurrent dest statuses retryAction reads).1.1 := by
  refine ⟨if dest.isAppservice && newEvents.any (·.2 == .flush) then .force else .none, ?_⟩
  dsimp only [selectEvents]
  generalize selectEventsCurrent dest statuses
    (if dest.isAppservice && newEvents.any (·.2 == .flush) then .force else .none) reads = current
  obtain ⟨⟨allow, retry⟩, after⟩ := current
  cases allow <;> cases retry <;> simp

end Select

namespace Worker

/-- The transactions of `dest` in `futures` number one where its status stands for one in
flight, and none otherwise. -/
def Tracked (worker : Worker) (dest : Destination) : Prop :=
  worker.futures.count dest = if inFlight dest (worker.statuses.get dest) then 1 else 0

/-- The invariant of a sender worker. -/
structure Invariant (worker : Worker) : Prop where
  tracked : ∀ dest, worker.Tracked dest
  /-- Only a pusher fails. -/
  failedPush : ∀ dest tries, worker.statuses.get dest = some (.failed tries) → dest.isPush = true

variable {worker after : Worker} {dest : Destination}

/-- A change that touches one destination keeps the invariant where the destination is tracked
after it and failed only if a pusher, and every other destination was tracked before it. -/
theorem invariant_of_frame
    (tracked : ∀ other, other ≠ dest → worker.Tracked other)
    (failedPush : ∀ other tries, other ≠ dest → worker.statuses.get other = some (.failed tries) →
      other.isPush = true)
    (statusOther : ∀ other, other ≠ dest → after.statuses.get other = worker.statuses.get other)
    (countOther : ∀ other, other ≠ dest → after.futures.count other = worker.futures.count other)
    (trackedSelf : after.Tracked dest)
    (failedSelf : ∀ tries, after.statuses.get dest = some (.failed tries) → dest.isPush = true) :
    after.Invariant where
  tracked other := by
    by_cases same : other = dest
    · exact same ▸ trackedSelf
    · unfold Tracked
      rw [countOther other same, statusOther other same]
      exact tracked other same
  failedPush other tries failed := by
    by_cases same : other = dest
    · exact same ▸ failedSelf tries (same ▸ failed)
    · exact failedPush other tries same (statusOther other same ▸ failed)

theorem count_append_of_ne {futures : List Destination} {other : Destination} (distinct : other ≠ dest) :
    (futures ++ [dest]).count other = futures.count other := by
  simp [Ne.symm distinct]

/-- The wakes do not bear on the invariant. -/
theorem Invariant.armWake (invariant : worker.Invariant) (dest : Destination) :
    (worker.armWake dest).Invariant :=
  ⟨invariant.tracked, invariant.failedPush⟩

/-- `select_events` followed by `schedule_events`, as `handle_request` and `handle_force_retry`
run them, keeps the invariant: a transaction starts only where none was in flight, under a status
that stands for it. -/
theorem Invariant.selectThenSchedule (invariant : worker.Invariant) (dest : Destination)
    (newEvents : List QueueItem) (reads : Reads) :
    (match selectEvents dest newEvents worker.statuses reads with
      | (some events, statuses) => { worker with statuses }.scheduleEvents dest events
      | (none, statuses) => { worker with statuses }).Invariant := by
  obtain ⟨retryAction, statusesEq, sendsEq⟩ : ∃ retryAction,
      (selectEvents dest newEvents worker.statuses reads).2 =
          (selectEventsCurrent dest worker.statuses retryAction reads).2 ∧
        (selectEvents dest newEvents worker.statuses reads).1.isSome =
          (selectEventsCurrent dest worker.statuses retryAction reads).1.1 :=
    selectEvents_eq_current newEvents
  generalize selectEvents dest newEvents worker.statuses reads = selected at statusesEq sendsEq ⊢
  obtain ⟨events, statuses⟩ := selected
  simp only at statusesEq sendsEq
  subst statusesEq
  have others : ∀ other, other ≠ dest →
      (selectEventsCurrent dest worker.statuses retryAction reads).2.get other =
        worker.statuses.get other :=
    fun _ distinct => selectEventsCurrent_get_of_ne distinct
  have trackedOthers := fun other (_ : other ≠ dest) => invariant.tracked other
  have failedOthers := fun other tries (_ : other ≠ dest) => invariant.failedPush other tries
  cases events with
  | none =>
      -- refused: only a running status may turn into a forced retry
      have refused : (selectEventsCurrent dest worker.statuses retryAction reads).1.1 = false := by
        simpa using sendsEq.symm
      obtain ⟨same, failed⟩ := selectEventsCurrent_refused refused
      refine invariant_of_frame trackedOthers failedOthers others (fun _ _ => rfl) ?_
        fun tries found => invariant.failedPush dest tries (failed tries found)
      unfold Tracked
      rw [same]
      exact invariant.tracked dest
  | some events =>
      have allowed : (selectEventsCurrent dest worker.statuses retryAction reads).1.1 = true := by
        simpa using sendsEq.symm
      obtain ⟨idle, sending, notFailed⟩ := selectEventsCurrent_allowed (invariant.failedPush dest) allowed
      have none : worker.futures.count dest = 0 := by
        have tracked := invariant.tracked dest
        simpa [Tracked, idle] using tracked
      dsimp only
      unfold scheduleEvents
      split
      · refine invariant_of_frame trackedOthers failedOthers
          (fun other distinct => by simp [distinct, others other distinct]) (fun _ _ => rfl)
          ?_ (by simp)
        simp [Tracked, none, inFlight]
      · refine invariant_of_frame trackedOthers failedOthers others
          (fun other distinct => count_append_of_ne distinct) ?_
          fun tries found => (notFailed tries found).elim
        simp [Tracked, sending, none]

theorem Invariant.handleRequest (invariant : worker.Invariant) (msg : Msg) (reads : Reads) :
    (worker.handleRequest msg reads).Invariant :=
  invariant.selectThenSchedule msg.dest _ reads

theorem Invariant.handleForceRetry (invariant : worker.Invariant) (dest : Destination)
    (reads : Reads) : (worker.handleForceRetry dest reads).Invariant :=
  invariant.selectThenSchedule dest [] reads

/-! ## Responses -/

/-- The worker right after a transaction of `dest` resolved: every other destination tracked, and
`dest` in flight by its status with no transaction left in `futures`. -/
structure Resolved (worker : Worker) (dest : Destination) : Prop where
  tracked : ∀ other, other ≠ dest → worker.Tracked other
  idle : worker.futures.count dest = 0
  sending : inFlight dest (worker.statuses.get dest) = true
  failedPush : ∀ other tries, worker.statuses.get other = some (.failed tries) →
    other.isPush = true

/-- Taking the transaction at a position out of `futures` takes one of its destination's. -/
theorem count_eraseIdx {futures : List Destination} {index : Nat}
    (found : futures[index]? = some dest) (other : Destination) :
    (futures.eraseIdx index).count other + (if dest = other then 1 else 0) =
      futures.count other := by
  obtain ⟨within, rfl⟩ := List.getElem?_eq_some_iff.mp found
  rw [← (List.getElem_cons_eraseIdx_perm within).count_eq, List.count_cons]
  simp

theorem Invariant.resolved (invariant : worker.Invariant) {index : Nat}
    (found : worker.futures[index]? = some dest) :
    ({ worker with futures := worker.futures.eraseIdx index } : Worker).Resolved dest where
  tracked other distinct := by
    have counted := count_eraseIdx found other
    simp only [Ne.symm distinct, if_false, Nat.add_zero] at counted
    unfold Tracked
    rw [counted]
    exact invariant.tracked other
  idle := by
    show (worker.futures.eraseIdx index).count dest = 0
    have counted := count_eraseIdx found dest
    have tracked := invariant.tracked dest
    unfold Tracked at tracked
    split at tracked <;> simp only [if_true] at counted <;> omega
  sending := by
    -- the resolved transaction was counted, so its status stood for one in flight
    have counted := count_eraseIdx found dest
    have tracked := invariant.tracked dest
    unfold Tracked at tracked
    split at tracked
    · assumption
    · simp only [if_true] at counted
      omega
  failedPush := invariant.failedPush

theorem Resolved.status (resolved : worker.Resolved dest) :
    ∃ status, worker.statuses.get dest = some status := by
  have sending := resolved.sending
  cases found : worker.statuses.get dest with
  | none => simp [found, inFlight] at sending
  | some status => exact ⟨status, rfl⟩

theorem Resolved.handleResponseOk (resolved : worker.Resolved dest) (reads : Reads) :
    (worker.handleResponseOk dest reads).Invariant := by
  obtain ⟨status, found⟩ := resolved.status
  have failedOthers := fun other tries (_ : other ≠ dest) => resolved.failedPush other tries
  unfold Worker.handleResponseOk
  dsimp only
  generalize (if dest.isFederation then (reads.queued.take dequeueLimit).map (·.2) ++
    List.replicate reads.edus .edu else (reads.queued.take dequeueLimit).map (·.2)) = events
  split
  · -- nothing more to send: the status is dropped
    refine invariant_of_frame resolved.tracked failedOthers
      (fun other distinct => by simp [distinct]) (fun _ _ => rfl) ?_ (by simp)
    simp [Tracked, resolved.idle, inFlight]
  · -- the next transaction goes out under `Running`
    refine invariant_of_frame resolved.tracked failedOthers
      (fun other distinct => by simp [found, distinct])
      (fun other distinct => count_append_of_ne distinct) ?_ (by simp [found])
    simp [Tracked, found, resolved.idle, inFlight]

/-- After `handle_response_err` the destination is no longer in flight by its status: a pusher
has failed, and elsewhere the status is retrying, which stands for nothing in flight. -/
theorem Resolved.handleResponseErr (resolved : worker.Resolved dest) :
    ({ worker with statuses := (Worker.handleResponseErr dest worker.statuses).2 } : Worker).Invariant := by
  obtain ⟨status, found⟩ := resolved.status
  have failedOthers := fun other tries (_ : other ≠ dest) => resolved.failedPush other tries
  obtain ⟨tries, retryAction, handled⟩ := Worker.handleResponseErr_of_get found
  rw [handled]
  refine invariant_of_frame resolved.tracked failedOthers
    (fun other distinct => by simp [distinct]) (fun _ _ => rfl) ?_ ?_
  · by_cases push : dest.isPush = true <;> simp [Tracked, push, resolved.idle, inFlight]
  · by_cases push : dest.isPush = true <;> simp [push]

theorem Resolved.handleResponse (resolved : worker.Resolved dest) (succeeded : Bool)
    (reads : Reads) :
    (worker.handleResponse (if succeeded then .ok dest else .err dest) reads).Invariant := by
  cases succeeded with
  | true => exact resolved.handleResponseOk reads
  | false =>
      have failed := resolved.handleResponseErr
      simp only [Bool.false_eq_true, if_false, Worker.handleResponse]
      generalize Worker.handleResponseErr dest worker.statuses = outcome at failed
      obtain ⟨retryAction, statuses⟩ := outcome
      dsimp only at failed ⊢
      -- what follows the failure only arms a wake, or retries an appservice at once
      cases dest with
      | federation server =>
          dsimp only
          split
          · exact failed.armWake _
          · exact failed
      | push userId pushkey =>
          dsimp only
          split
          · exact failed.armWake _
          · exact failed
      | appservice id =>
          dsimp only
          split
          · exact failed.handleForceRetry _ reads
          · exact failed

/-! ## Wakes -/

theorem Invariant.handleWake (invariant : worker.Invariant) (dest : Destination) (reads : Reads) :
    (worker.handleWake dest reads).Invariant := by
  unfold Worker.handleWake
  dsimp only
  split
  · exact invariant
  · exact invariant
  · exact invariant
  · split
    · split
      · exact invariant
      · exact invariant.armWake _
    · split
      · split
        · exact invariant.armWake _
        · exact invariant.handleRequest _ reads
      · exact invariant.handleForceRetry _ reads
      · exact invariant

theorem Invariant.drainDueWakes (invariant : worker.Invariant) (pops : List (Nat × Reads)) :
    (worker.drainDueWakes pops).Invariant := by
  induction pops generalizing worker with
  | nil => exact invariant
  | cons pop pops induction =>
      obtain ⟨index, reads⟩ := pop
      unfold Worker.drainDueWakes
      split
      · -- popping a wake leaves the statuses and the transactions as they were
        have popped : ({ worker with wakes := worker.wakes.eraseIdx index } : Worker).Invariant :=
          ⟨invariant.tracked, invariant.failedPush⟩
        exact induction (popped.handleWake _ reads)
      · exact induction invariant

/-- Every step of the work loop keeps the invariant. -/
theorem Invariant.step (invariant : worker.Invariant) (step : Step) :
    (worker.step step).Invariant := by
  cases step with
  | response index succeeded reads =>
      dsimp only [Worker.step]
      split
      · rename_i dest found
        exact (invariant.resolved found).handleResponse succeeded reads
      · exact invariant
  | request msg reads => exact invariant.handleRequest msg reads
  | wakes pops => exact invariant.drainDueWakes pops

/-! ## The netburst -/

theorem invariant_empty : empty.Invariant where
  tracked dest := by simp [Tracked, empty, inFlight]
  failedPush dest tries := by simp [empty]

/-- A step that keeps the invariant keeps it along a fold. -/
theorem Invariant.foldl {α : Type} {step : Worker → α → Worker}
    (keeps : ∀ worker item, worker.Invariant → (step worker item).Invariant) (items : List α)
    (invariant : worker.Invariant) : (items.foldl step worker).Invariant := by
  induction items generalizing worker with
  | nil => exact invariant
  | cons item items induction => exact induction (keeps worker item invariant)

/-- The netburst starts one transaction per destination, on destinations with no status yet: the
induction is on the transactions, whose destinations are distinct. -/
theorem Invariant.startTransactions (startupNetburst : Bool)
    (txns : List (Destination × List SendingEvent)) (distinct : (txns.map Prod.fst).Nodup)
    (invariant : worker.Invariant) (fresh : ∀ txn ∈ txns, worker.statuses.get txn.1 = none) :
    (txns.foldl (startTransaction startupNetburst) worker).Invariant := by
  induction txns generalizing worker with
  | nil => exact invariant
  | cons txn txns induction =>
      obtain ⟨dest, events⟩ := txn
      simp only [List.map_cons, List.nodup_cons] at distinct
      have unseen : worker.statuses.get dest = none := fresh (dest, events) List.mem_cons_self
      have idle : worker.futures.count dest = 0 := by
        have tracked := invariant.tracked dest
        simpa [Tracked, unseen, inFlight] using tracked
      have trackedOthers := fun other (_ : other ≠ dest) => invariant.tracked other
      have failedOthers := fun other tries (_ : other ≠ dest) => invariant.failedPush other tries
      refine induction distinct.2 ?_ ?_
      · unfold startTransaction
        split
        · refine invariant_of_frame trackedOthers failedOthers
            (fun other distinct => by simp [distinct]) (fun other distinct => count_append_of_ne distinct)
            ?_ (by simp)
          simp [Tracked, idle, inFlight]
        · exact invariant
      · -- the later transactions are of other destinations, still without a status
        intro later member
        have other : later.1 ≠ dest := fun same =>
          distinct.1 (same ▸ List.mem_map_of_mem member)
        unfold startTransaction
        split
        · simpa [other] using fresh later (List.mem_cons_of_mem _ member)
        · exact fresh later (List.mem_cons_of_mem _ member)

theorem nodup_netburstTransactions (keepConfig : Int) (keep : Nat)
    (active : List (List UInt8 × SendingEvent × Destination)) :
    ((netburstTransactions keepConfig keep active).map Prod.fst).Nodup := by
  unfold netburstTransactions
  suffices kept : ∀ txns : List (Destination × List SendingEvent), (txns.map Prod.fst).Nodup →
      ((active.foldl (fun txns row => AssocTable.modify [] (fun events =>
        if 0 ≤ keepConfig ∧ keep ≤ events.length then events else events ++ [row.2.1])
          txns row.2.2) txns).map Prod.fst).Nodup from
    kept [] List.nodup_nil
  induction active with
  | nil => exact fun _ distinct => distinct
  | cons row rows induction =>
      exact fun txns distinct => induction _ (AssocTable.nodup_keys_modify _ _ distinct _)

/-- After the netburst, every destination's transactions are counted by its status. -/
theorem invariant_start (netburst : Netburst) : (Worker.start netburst).Invariant := by
  unfold Worker.start startupNetburst
  dsimp only
  generalize (if netburst.startupNetburstKeep < 0 then u64Max
    else netburst.startupNetburstKeep.toNat) = keep
  have started := invariant_empty.startTransactions netburst.startupNetburst
    (netburstTransactions netburst.startupNetburstKeep keep
      (netburst.active.filter (netburst.ownShard ·.2.2)))
    (nodup_netburstTransactions _ _ _) (fun _ _ => rfl)
  split
  · exact started
  · exact started.foldl (fun worker dest invariant => invariant.handleRequest _ _) _

/-- Between steps, from the netburst on. -/
theorem invariant_run (netburst : Netburst) (steps : List Step) :
    (steps.foldl step (Worker.start netburst)).Invariant :=
  (invariant_start netburst).foldl (fun _ step invariant => invariant.step step) steps

end Worker

/-- From the netburst on, along any steps and whatever their reads return: no destination has two
transactions in flight; it has one exactly when its status is `Running` or `RunningForceRetry`,
or, for a pusher, `Retrying`; and so every transaction that resolves finds its destination's
status. -/
theorem one_transaction_in_flight (netburst : Netburst) (steps : List Step) (dest : Destination) :
    (steps.foldl Worker.step (Worker.start netburst)).futures.count dest ≤ 1 ∧
      ((steps.foldl Worker.step (Worker.start netburst)).futures.count dest = 1 ↔
        (steps.foldl Worker.step (Worker.start netburst)).statuses.get dest = some .running ∨
        (steps.foldl Worker.step (Worker.start netburst)).statuses.get dest =
          some .runningForceRetry ∨
        (dest.isPush = true ∧ ∃ tries,
          (steps.foldl Worker.step (Worker.start netburst)).statuses.get dest =
            some (.retrying tries))) ∧
      (dest ∈ (steps.foldl Worker.step (Worker.start netburst)).futures →
        ((steps.foldl Worker.step (Worker.start netburst)).statuses.get dest).isSome) := by
  have tracked := (Worker.invariant_run netburst steps).tracked dest
  unfold Worker.Tracked at tracked
  rw [tracked, ← inFlight_eq_true_iff]
  refine ⟨by split <;> simp, by split <;> simp_all, fun member => ?_⟩
  -- a transaction of `dest` is counted, so its status stands for one in flight
  have counted := List.count_pos_iff.mpr member
  rw [tracked] at counted
  split at counted
  · rename_i sending
    revert sending
    cases (steps.foldl Worker.step (Worker.start netburst)).statuses.get dest <;> simp [inFlight]
  · omega

end Sending
end Tuwunel
