import Tuwunel.Library.StepRun
import Tuwunel.Service.Threepid.Lifetime

/-!
# A validated proof is spent at most once

Any interleaving of the seven calls, with any arguments, cancellations and clock, keeps every row
of `threepidsid_pending` sound with respect to its lifetime (`RowSound`).  Each poll steps each row
by the events it adds about it (`RowSteps`), and the one step that writes a row read at an earlier
await, `claim_validated`'s, writes what it read: while the call holds the row's pending lock no
other call changes the row (`Interleaving.guarded_step`), so what it read is still there
(`Task.Snapshot`).

From the soundness of every reachable configuration (`sound_run`) follow single use, owner binding
and the bound on wrong submissions; the lock order rules out a cycle of waiting calls.  The bound
holds per token, not per lifetime: a resubmission with a higher `send_attempt` mints a new token
over an available row without deleting it, and starts the count again
(`rejections_survive_remint`).
-/

namespace Tuwunel
namespace Threepid

open KeyValue Interleaving

variable {Sid Claim : Type} [DecidableEq Sid] [DecidableEq Claim]

/-- A poll adds `new` to the history, and each row steps by the events about it. -/
def RowSteps (store store' : Store Sid Claim) : Prop :=
  ∃ new, store'.log = store.log ++ new ∧
    ∀ sid, RowStep sid (store.pending.get sid) (new.filter (·.sid == sid)) (store'.pending.get sid)

namespace RowSteps

omit [DecidableEq Claim]

variable {store store' store'' : Store Sid Claim}

/-- A poll that writes no row and records nothing. -/
theorem quiet (rows : store'.pending = store.pending) (log : store'.log = store.log) :
    RowSteps store store' :=
  ⟨[], by simp [log], fun sid => by simpa [rows] using RowStep.keep _⟩

/-- A poll that changes only the row of `sid`. -/
theorem single {sid : Sid} {events : List (Event Sid Claim)} {row' : Option (Pending Claim)}
    (log : store'.log = store.log ++ events)
    (others : ∀ other, other ≠ sid → store'.pending.get other = store.pending.get other)
    (here : store'.pending.get sid = row') (stepped : RowStep sid (store.pending.get sid) events row') :
    RowSteps store store' := by
  refine ⟨events, log, fun other => ?_⟩
  have about := stepped.sid_eq
  by_cases same : other = sid
  · subst same
    rw [List.filter_eq_self.mpr (by simpa using about), here]
    exact stepped
  · rw [List.filter_eq_nil_iff.mpr (fun event member => by simp [about event member, Ne.symm same]),
      others other same]
    exact RowStep.keep _

theorem trans (first : RowSteps store store') (second : RowSteps store' store'') :
    RowSteps store store'' := by
  obtain ⟨new, log, each⟩ := first
  obtain ⟨new', log', each'⟩ := second
  refine ⟨new ++ new', by rw [log', log, List.append_assoc], fun sid => ?_⟩
  rw [List.filter_append]
  exact (each sid).trans (each' sid)

end RowSteps

/-! ## The writes, row by row -/

section Writes

variable (store : Store Sid Claim) (sid : Sid)

theorem rowSteps_deleteClaimIndex (claim : Claim) : RowSteps store (store.deleteClaimIndex claim) :=
  .quiet rfl rfl

theorem rowSteps_deletePendingRows (claim : Option Claim) :
    RowSteps store (store.deletePendingRows sid claim) :=
  .single rfl (fun _ distinct => Table.get_remove_of_ne _ distinct) (Table.get_remove_self _ _)
    (.delete _)

omit [DecidableEq Claim] in
theorem rowSteps_mint (args : Create)
    (unspent : ∀ pending, store.pending.get sid = some pending → pending.useState = .available) :
    RowSteps store (store.mint sid args) :=
  .single rfl (fun _ distinct => Table.get_put_of_ne _ _ distinct) (Table.get_put_self _ _ _)
    (.mint args store.now unspent)

variable {store sid} {pending : Pending Claim} (found : store.pending.get sid = some pending)
include found

omit [DecidableEq Claim] in
theorem rowSteps_persistPending {pending' : Pending Claim}
    (useState : pending'.useState = pending.useState)
    (clientSecret : pending'.clientSecret = pending.clientSecret)
    (attempts : pending'.attempts = pending.attempts) :
    RowSteps store (store.persistPending sid pending') := by
  refine .single (List.append_nil _).symm (fun _ distinct => Table.get_put_of_ne _ _ distinct)
    (Table.get_put_self _ _ _) ?_
  rw [found]
  exact .touch useState clientSecret attempts

theorem rowSteps_claimPending (claim : Claim)
    (unspent : pending.useState = .available ∨ pending.useState = .claimed claim) :
    RowSteps store (store.claimPending sid claim pending.clientSecret pending) := by
  refine .single rfl (fun _ distinct => Table.get_put_of_ne _ _ distinct)
    (Table.get_put_self _ _ _) ?_
  rw [found]
  exact .claim claim _ unspent

theorem rowSteps_refreshPending (claim : Claim) :
    RowSteps store (store.refreshPending sid claim pending) := by
  refine .single (List.append_nil _).symm (fun _ distinct => Table.get_put_of_ne _ _ distinct)
    (Table.get_put_self _ _ _) ?_
  rw [found]
  exact .touch rfl rfl rfl

theorem rowSteps_spendPending (claim : Option Claim)
    (owned : pending.useState = match claim with
      | some claim => .claimed claim
      | none => .available) :
    RowSteps store (store.spendPending sid claim pending) := by
  refine .single rfl (fun _ distinct => Table.get_put_of_ne _ _ distinct)
    (Table.get_put_self _ _ _) ?_
  rw [found]
  exact .redeem claim owned

end Writes

omit [DecidableEq Claim] in
theorem finish_rowSteps {store : Store Sid Claim} {sid : Sid}
    (unspent : ∀ pending, store.pending.get sid = some pending → pending.useState = .available)
    (resume : Resume Sid) : RowSteps store (resume.finish store sid).1 := by
  cases resume with
  | mint args => exact rowSteps_mint store sid args unspent
  | reply answer => exact .quiet rfl rfl

/-- The row is gone before the caller resumes, so a mint there is over nothing. -/
theorem deletedThen_rowSteps (store : Store Sid Claim) (sid : Sid) (claim : Option Claim)
    (resume : Resume Sid) :
    RowSteps store (resume.finish (store.deletePendingRows sid claim) sid).1 :=
  (rowSteps_deletePendingRows store sid claim).trans
    (finish_rowSteps (fun _ gone => by simp [Store.deletePendingRows] at gone) resume)

theorem deletePendingState_rowSteps (store : Store Sid Claim) (sid : Sid) (pending : Pending Claim)
    (resume : Resume Sid) : RowSteps store (deletePendingState store sid pending resume).1 := by
  unfold deletePendingState
  split
  · exact .quiet rfl rfl
  · exact deletedThen_rowSteps store sid none resume

theorem rejectAttempt_rowSteps {store : Store Sid Claim} {sid : Sid} {pending : Pending Claim}
    (found : store.pending.get sid = some pending) (available : pending.useState = .available) :
    RowSteps store (rejectAttempt store sid pending).1 := by
  dsimp only [rejectAttempt]
  split_ifs with burnt
  · -- the ceiling is reached: the count and the deletion of an available row
    have deleted : (deletePendingState (store.record (.rejected sid)) sid pending
        (.reply (.unit (.error (.threepidAuthFailed "Invalid verification token"))))).1 =
        (store.record (.rejected sid)).deletePendingRows sid none := by
      simp [deletePendingState, available, Resume.finish]
    rw [deleted]
    refine .single (List.append_assoc store.log [.rejected sid] [.deleted sid])
      (fun _ distinct => Table.get_remove_of_ne _ distinct)
      (Table.get_remove_self _ _) ?_
    rw [found]
    exact .burn available
  · refine .single rfl (fun _ distinct => Table.get_put_of_ne _ _ distinct)
      (Table.get_put_self _ _ _) ?_
    rw [found]
    exact .reject available (Nat.lt_of_not_le burnt)

/-! ## What a call has read -/

/-- A `claim_validated` call between its read of the row and its write: the row it read is still
there, was read with the client secret the call was given, and is available or owned by the
claim. -/
def Task.Snapshot (store : Store Sid Claim) (task : Task Sid Claim) : Prop :=
  match task.request with
  | .claimValidated _ clientSecret _ =>
      match task.phase with
      | .lockClaim sid claim pending | .claimSid sid claim pending =>
          store.pending.get sid = some pending ∧ pending.clientSecret = clientSecret ∧
            (pending.useState = .available ∨ pending.useState = .claimed claim)
      | _ => True
  | _ => True

/-- A reply that reports success. -/
def Reply.isOk : Reply Sid → Bool
  | .outcome (.ok _) | .unit (.ok _) | .association (.ok _) => true
  | .flag value => value
  | _ => false

/-- Inside `delete_pending_state` the caller goes on to mint or to fail. -/
def Phase.Failing : Phase Sid Claim → Prop
  | .deleteLockClaim _ _ (.reply answer) | .deleteClaimSid _ _ (.reply answer) =>
      answer.isOk = false
  | _ => True

/-- A call keeps to what it was given: `validate_pending_token` and `redeem_validated` lock and
read their session, and `redeem_claim` re-locks and rechecks its UIAA key. -/
def Task.Fits (task : Task Sid Claim) : Prop :=
  match task.request with
  | .validatePendingToken sid _ _ | .redeemValidated sid _ =>
      match task.phase with
      | .lockPending locked | .getPending locked => locked = sid
      | _ => True
  | .redeemClaim claim =>
      match task.phase with
      | .relockClaim _ held | .recheckClaim _ held | .getClaimed _ held => held = claim
      | _ => True
  | _ => True

omit [DecidableEq Sid] [DecidableEq Claim] in
/-- What a call read under a lock stays so while the lock's guarded values stay. -/
theorem Task.Snapshot.of_agree {store store' : Store Sid Claim} {task : Task Sid Claim}
    (snapshot : task.Snapshot store)
    (agree : ∀ key ∈ task.phase.holds, store'.guarded key = store.guarded key) :
    task.Snapshot store' := by
  obtain ⟨request, phase⟩ := task
  cases request
  case claimValidated sid clientSecret claim =>
    cases phase
    case lockClaim sid claim pending =>
      obtain ⟨found, secret, unspent⟩ := snapshot
      exact ⟨(agree (.pending sid) (by simp [Phase.holds])).trans found, secret, unspent⟩
    case claimSid sid claim pending =>
      obtain ⟨found, secret, unspent⟩ := snapshot
      exact ⟨(agree (.pending sid) (by simp [Phase.holds])).trans found, secret, unspent⟩
    all_goals trivial
  all_goals trivial

/-! ## Each call, row by row -/

section Calls

variable (store : Store Sid Claim)

theorem createOrReusePending_rowSteps (derive : Medium → String → String → Sid) (args : Create)
    (phase : Phase Sid Claim) : RowSteps store (createOrReusePending derive args store phase).1 := by
  cases phase <;> dsimp only [createOrReusePending]
  case getPending sid =>
    split
    · rename_i absent
      exact finish_rowSteps (fun _ found => by simp [absent] at found) _
    · rename_i existing found
      split_ifs with expired used
      · exact deletePendingState_rowSteps store sid existing _
      · exact .quiet rfl rfl
      · exact .quiet rfl rfl
      · -- a resubmission over an available row mints it afresh
        refine finish_rowSteps (fun pending again => ?_) _
        rw [found] at again
        obtain rfl := Option.some.inj again
        exact not_not.mp used
  all_goals exact .quiet rfl rfl

theorem validatePendingToken_rowSteps (sid : Sid) (clientSecret token : String)
    (phase : Phase Sid Claim) :
    RowSteps store (validatePendingToken sid clientSecret token store phase).1 := by
  cases phase <;> dsimp only [validatePendingToken]
  case getPending sid =>
    split
    · exact .quiet rfl rfl
    · rename_i pending found
      split_ifs with expired used
      · exact deletePendingState_rowSteps store sid pending _
      · exact .quiet rfl rfl
      · exact .quiet rfl rfl
      · exact rowSteps_persistPending found rfl rfl rfl
      · exact rejectAttempt_rowSteps found (not_not.mp used)
  all_goals exact .quiet rfl rfl

theorem claimValidated_rowSteps (sid : Sid) (clientSecret : String) (claim : Claim)
    (phase : Phase Sid Claim)
    (snapshot : Task.Snapshot store ⟨.claimValidated sid clientSecret claim, phase⟩) :
    RowSteps store (claimValidated sid clientSecret claim store phase).1 := by
  cases phase <;> dsimp only [claimValidated]
  case getPending sid =>
    split
    · exact .quiet rfl rfl
    · rename_i pending found
      split_ifs
      · exact deletePendingState_rowSteps store sid pending _
      · exact .quiet rfl rfl
      · exact .quiet rfl rfl
      · split
        · exact .quiet rfl rfl
        · split_ifs <;> exact .quiet rfl rfl
        · exact .quiet rfl rfl
  case claimSid sid claim pending =>
    -- the row read before the claim lock is the row written now
    obtain ⟨found, secret, unspent⟩ := snapshot
    split_ifs
    · exact .quiet rfl rfl
    · rw [← secret]
      exact rowSteps_claimPending found claim unspent
  all_goals exact .quiet rfl rfl

theorem refreshClaim_rowSteps (claim : Claim) (phase : Phase Sid Claim) :
    RowSteps store (refreshClaim claim store phase).1 := by
  cases phase <;> dsimp only [refreshClaim]
  case start => split <;> exact .quiet rfl rfl
  case recheckClaim sid claim => split_ifs <;> exact .quiet rfl rfl
  case getClaimed sid claim =>
    split
    · exact rowSteps_deleteClaimIndex store claim
    · rename_i pending found
      split_ifs
      · exact rowSteps_deletePendingRows store sid (some claim)
      · exact rowSteps_deleteClaimIndex store claim
      · exact rowSteps_refreshPending found claim
  all_goals exact .quiet rfl rfl

theorem redeemClaim_rowSteps (claim : Claim) (phase : Phase Sid Claim) :
    RowSteps store (redeemClaim claim store phase).1 := by
  cases phase <;> dsimp only [redeemClaim]
  case start => split <;> exact .quiet rfl rfl
  case recheckClaim sid claim =>
    split
    · exact .quiet rfl rfl
    · split_ifs <;> exact .quiet rfl rfl
  case getClaimed sid claim =>
    split
    · exact rowSteps_deleteClaimIndex store claim
    · rename_i pending found
      split_ifs with expired owned
      · exact rowSteps_deletePendingRows store sid (some claim)
      · exact rowSteps_deleteClaimIndex store claim
      · exact rowSteps_spendPending found (some claim) (not_not.mp owned)
  all_goals exact .quiet rfl rfl

theorem redeemValidated_rowSteps (sid : Sid) (clientSecret : String) (phase : Phase Sid Claim) :
    RowSteps store (redeemValidated sid clientSecret store phase).1 := by
  cases phase <;> dsimp only [redeemValidated]
  case getPending sid =>
    split
    · exact .quiet rfl rfl
    · rename_i pending found
      split_ifs with expired wrong unvalidated used
      · exact deletePendingState_rowSteps store sid pending _
      · exact .quiet rfl rfl
      · exact .quiet rfl rfl
      · exact .quiet rfl rfl
      · exact rowSteps_spendPending found none (not_not.mp used)
  all_goals exact .quiet rfl rfl

theorem sessionValidated_rowSteps (sid : Sid) (clientSecret : String) (phase : Phase Sid Claim) :
    RowSteps store (sessionValidated sid clientSecret store phase).1 := by
  cases phase <;> dsimp only [sessionValidated]
  case start => split <;> exact .quiet rfl rfl
  all_goals exact .quiet rfl rfl

theorem Task.advance_rowSteps (derive : Medium → String → String → Sid) (task : Task Sid Claim)
    (snapshot : task.Snapshot store) : RowSteps store (task.advance derive store).1 := by
  obtain ⟨request, phase⟩ := task
  cases phase <;> dsimp only [Task.advance]
  case deleteLockClaim => exact .quiet rfl rfl
  case deleteClaimSid sid owner resume => exact deletedThen_rowSteps store sid _ resume
  all_goals
    cases request with
    | createOrReusePending args => exact createOrReusePending_rowSteps store derive args _
    | validatePendingToken sid clientSecret token =>
        exact validatePendingToken_rowSteps store sid clientSecret token _
    | claimValidated sid clientSecret claim =>
        exact claimValidated_rowSteps store sid clientSecret claim _ snapshot
    | refreshClaim claim => exact refreshClaim_rowSteps store claim _
    | redeemClaim claim => exact redeemClaim_rowSteps store claim _
    | redeemValidated sid clientSecret => exact redeemValidated_rowSteps store sid clientSecret _
    | sessionValidated sid clientSecret => exact sessionValidated_rowSteps store sid clientSecret _

end Calls

/-! ## What a call has read, after its own poll -/

section Own

variable (derive : Medium → String → String → Sid) {store : Store Sid Claim}

theorem deletePendingState_snd (store : Store Sid Claim) (sid : Sid) (pending : Pending Claim)
    (resume : Resume Sid) :
    (∃ owner, (deletePendingState store sid pending resume).2 = .deleteLockClaim sid owner resume) ∨
      (∃ answer, resume = .reply answer ∧
        (deletePendingState store sid pending resume).2 = .done answer) ∨
      (∃ args, resume = .mint args ∧ (deletePendingState store sid pending resume).2 =
        .done (.outcome (.ok ⟨sid, some args.token⟩))) := by
  unfold deletePendingState
  split
  · exact .inl ⟨_, rfl⟩
  · cases resume with
    | mint args => exact .inr (.inr ⟨args, rfl, rfl⟩)
    | reply answer => exact .inr (.inl ⟨answer, rfl, rfl⟩)

/-- What `delete_pending_state` returns at once is what its caller resumes with. -/
theorem deletePendingState_done {sid : Sid} {pending : Pending Claim} {resume : Resume Sid}
    {answer : Reply Sid} (done : (deletePendingState store sid pending resume).2 = .done answer) :
    resume = .reply answer ∨ ∃ args, resume = .mint args ∧
      answer = .outcome (.ok ⟨sid, some args.token⟩) := by
  rcases deletePendingState_snd store sid pending resume with
    ⟨owner, moved⟩ | ⟨answer', same, moved⟩ | ⟨args, minted, moved⟩
  · rw [moved] at done
    cases done
  · rw [moved] at done
    cases done
    exact .inl same
  · rw [moved] at done
    cases done
    exact .inr ⟨args, minted, rfl⟩

theorem deletePendingState_failing (store : Store Sid Claim) (sid : Sid) (pending : Pending Claim)
    {resume : Resume Sid} (failing : ∀ answer, resume = .reply answer → answer.isOk = false) :
    (deletePendingState store sid pending resume).2.Failing := by
  unfold deletePendingState
  split
  · cases resume with
    | mint args => trivial
    | reply answer => exact failing answer rfl
  · cases resume <;> trivial

/-- `delete_pending_state` is entered only to mint or to fail, and keeps what its caller
resumes with. -/
theorem Task.advance_failing {task : Task Sid Claim} (failing : task.phase.Failing) :
    (task.advance derive store).2.Failing := by
  obtain ⟨request, phase⟩ := task
  cases phase <;> dsimp only [Task.advance]
  case deleteLockClaim sid owner resume => cases resume <;> exact failing
  case deleteClaimSid sid owner resume => cases resume <;> trivial
  -- every other poll returns, moves to a lock or a read, or enters `delete_pending_state` from
  -- its read of the row with a failure or a mint
  all_goals
    cases request <;> dsimp only [Request.resume, createOrReusePending, validatePendingToken,
      claimValidated, refreshClaim, redeemClaim, redeemValidated, sessionValidated, rejectAttempt]
  all_goals (repeat' split) <;>
    first
    | trivial
    | exact deletePendingState_failing _ _ _ (by simp [Reply.isOk])

/-- A `claim_validated` call that moves on to the claim lock read the row with its own client
secret, and found it available or its own. -/
theorem Task.advance_snapshot {task : Task Sid Claim} (snapshot : task.Snapshot store) :
    ({ task with phase := (task.advance derive store).2 } : Task Sid Claim).Snapshot
      (task.advance derive store).1 := by
  obtain ⟨request, phase⟩ := task
  cases request
  case claimValidated sid clientSecret claim =>
    cases phase <;> dsimp only [Task.advance, Request.resume, claimValidated]
    case getPending sid =>
      split
      · trivial
      · rename_i pending found
        split_ifs with expired wrong
        · rcases deletePendingState_snd store sid pending (.reply (.flag false)) with
            ⟨owner, moved⟩ | ⟨answer, -, moved⟩ | ⟨args, minted, -⟩
          · simp only [Task.Snapshot, moved]
          · simp only [Task.Snapshot, moved]
          · cases minted
        · trivial
        · trivial
        · split
          · rename_i available
            exact ⟨found, not_not.mp wrong, .inl available⟩
          · rename_i owner owned
            split_ifs with same
            · exact ⟨found, not_not.mp wrong, .inr (same ▸ owned)⟩
            · trivial
          · trivial
    case lockClaim sid claim pending => exact snapshot
    case claimSid sid claim pending => split_ifs <;> trivial
    case deleteClaimSid sid owner resume =>
      cases resume <;> trivial
    all_goals trivial
  all_goals trivial

/-- A call keeps to the session or the UIAA key it was given. -/
theorem Task.advance_fits {task : Task Sid Claim} (fits : task.Fits) :
    ({ task with phase := (task.advance derive store).2 } : Task Sid Claim).Fits := by
  obtain ⟨request, phase⟩ := task
  cases request
  case validatePendingToken sid clientSecret token =>
    cases phase <;> dsimp only [Task.advance, Request.resume, validatePendingToken]
    case start => rfl
    case lockPending locked => exact fits
    case getPending locked =>
      -- the read returns, or enters `delete_pending_state`, which takes no pending lock
      have deleting : ∀ (store : Store Sid Claim) pending resume,
          ({ request := .validatePendingToken sid clientSecret token,
             phase := (deletePendingState store locked pending resume).2 } :
            Task Sid Claim).Fits := by
        intro store pending resume
        unfold deletePendingState
        split
        · trivial
        · cases resume <;> trivial
      split
      · trivial
      · split_ifs
        · exact deleting _ _ _
        · trivial
        · trivial
        · trivial
        · dsimp only [rejectAttempt]
          split_ifs
          · exact deleting _ _ _
          · trivial
    case deleteClaimSid sid owner resume => cases resume <;> trivial
    all_goals trivial
  case redeemValidated sid clientSecret =>
    cases phase <;> dsimp only [Task.advance, Request.resume, redeemValidated]
    case start => rfl
    case lockPending locked => exact fits
    case getPending locked =>
      -- the read returns, or enters `delete_pending_state`, which takes no pending lock
      split
      · trivial
      · split_ifs
        · unfold deletePendingState
          split
          · trivial
          · trivial
        all_goals trivial
    case deleteClaimSid sid owner resume => cases resume <;> trivial
    all_goals trivial
  case redeemClaim claim =>
    cases phase <;> dsimp only [Task.advance, Request.resume, redeemClaim]
    case start => split <;> trivial
    case lockPending locked => rfl
    case relockClaim locked held => exact fits
    case recheckClaim locked held =>
      split
      · trivial
      · split_ifs
        · trivial
        · exact fits
    case getClaimed locked held => split <;> (try split_ifs) <;> trivial
    case deleteClaimSid sid owner resume => cases resume <;> trivial
    all_goals trivial
  all_goals trivial

/-- A call that fails through `delete_pending_state` returns its error: never a reply that
reports success. -/
theorem deletePendingState_reply_ne_ok {sid : Sid} {pending : Pending Claim}
    {answer reply : Reply Sid} (failed : answer.isOk = false) (succeeded : reply.isOk = true) :
    (deletePendingState store sid pending (.reply answer)).2 ≠ .done reply := by
  intro moved
  rcases deletePendingState_done moved with same | ⟨args, minted, -⟩
  · cases same
    rw [failed] at succeeded
    cases succeeded
  · cases minted

/-- The same once the claim index is read, for a reply other than a minted token's. -/
theorem deleteClaimedState_ne_ok {sid : Sid} {owner : Claim} {resume : Resume Sid}
    {reply : Reply Sid} (failing : Phase.Failing (.deleteClaimSid sid owner resume))
    (succeeded : reply.isOk = true) (unminted : ∀ outcome, reply ≠ .outcome outcome) :
    (deleteClaimedState store sid owner resume).2 ≠ .done reply := by
  intro moved
  cases resume with
  | mint args =>
      cases moved
      exact unminted _ rfl
  | reply answer =>
      cases moved
      simp [Phase.Failing, succeeded] at failing

/-- A `validate_pending_token` poll returns `Ok` only after reading its session's row with the
given client secret and current token. -/
theorem Task.advance_validated {sid : Sid} {clientSecret token : String}
    {phase : Phase Sid Claim} (live : phase.live = true) (failing : phase.Failing)
    (fits : Task.Fits ⟨.validatePendingToken sid clientSecret token, phase⟩)
    (ok : (Task.advance derive store ⟨.validatePendingToken sid clientSecret token, phase⟩).2 =
      .done (.unit (.ok ()))) :
    ∃ pending, store.pending.get sid = some pending ∧ pending.clientSecret = clientSecret ∧
      pending.token = token := by
  cases phase <;> dsimp only [Task.advance, Request.resume, validatePendingToken] at ok
  case getPending locked =>
    obtain rfl : locked = sid := fits
    split at ok
    · cases ok
    · rename_i pending found
      split_ifs at ok with expired used validated matched
      · exact absurd ok (deletePendingState_reply_ne_ok (by rfl) (by rfl))
      · cases ok
      · cases ok
      · exact ⟨pending, found, matched.1, matched.2⟩
      · dsimp only [rejectAttempt] at ok
        split_ifs at ok
        · exact absurd ok (deletePendingState_reply_ne_ok (by rfl) (by rfl))
        · cases ok
  case deleteClaimSid =>
    exact absurd ok (deleteClaimedState_ne_ok failing (by rfl) fun _ same => by cases same)
  case done reply => cases live
  case cancelled => cases live
  all_goals cases ok

/-- Only `redeem_claim` and `redeem_validated` return an association. -/
theorem Task.advance_association {task : Task Sid Claim} {association : Association}
    (live : task.phase.live = true) (failing : task.phase.Failing)
    (ok : (task.advance derive store).2 = .done (.association (.ok association))) :
    (∃ sid clientSecret, task.request = .redeemValidated sid clientSecret) ∨
      ∃ claim, task.request = .redeemClaim claim := by
  obtain ⟨request, phase⟩ := task
  cases request
  case redeemValidated sid clientSecret => exact .inl ⟨sid, clientSecret, rfl⟩
  case redeemClaim claim => exact .inr ⟨claim, rfl⟩
  all_goals
    exfalso
    revert ok
    cases phase <;> dsimp only [Task.advance]
    case deleteLockClaim => intro ok; cases ok
    case deleteClaimSid =>
      exact fun ok => absurd ok (deleteClaimedState_ne_ok failing (by rfl) fun _ same => by cases same)
    case done reply => cases live
    all_goals
      dsimp only [Request.resume, createOrReusePending, validatePendingToken, claimValidated,
        refreshClaim, sessionValidated, rejectAttempt]
      (repeat' split) <;> intro ok <;>
        first
        | cases ok
        | rcases deletePendingState_done ok with same | ⟨_, -, same⟩ <;> cases same


/-- A `redeem_validated` poll that returns `Ok` spends the session it was given, and returns the
session's address. -/
theorem Task.advance_redeemValidated {sid : Sid} {clientSecret : String}
    {phase : Phase Sid Claim} {association : Association} (live : phase.live = true)
    (failing : phase.Failing) (fits : Task.Fits ⟨.redeemValidated sid clientSecret, phase⟩)
    (ok : (Task.advance derive store ⟨.redeemValidated sid clientSecret, phase⟩).2 =
      .done (.association (.ok association))) :
    ∃ pending, store.pending.get sid = some pending ∧
      association = ⟨pending.medium, pending.address⟩ ∧
      (Task.advance derive store ⟨.redeemValidated sid clientSecret, phase⟩).1.log =
        store.log ++ [.redeemed sid none] := by
  cases phase <;> dsimp only [Task.advance, Request.resume, redeemValidated] at ok ⊢
  case getPending locked =>
    obtain rfl : locked = sid := fits
    rcases found : store.pending.get locked with _ | pending
    all_goals simp only [found] at ok ⊢
    · cases ok
    -- the checks in order: expiry, client secret, validation, use
    split_ifs at ok ⊢
    · exact absurd ok (deletePendingState_reply_ne_ok (by rfl) (by rfl))
    · cases ok
    · cases ok
    · cases ok
    · cases ok
      exact ⟨pending, rfl, rfl, rfl⟩
  case deleteClaimSid =>
    exact absurd ok (deleteClaimedState_ne_ok failing (by rfl) fun _ same => by cases same)
  case done reply => cases live
  case cancelled => cases live
  all_goals cases ok

/-- A `redeem_claim` poll that returns `Ok` spends a row its UIAA key has claimed, and returns the
row's address. -/
theorem Task.advance_redeemClaim {claim : Claim} {phase : Phase Sid Claim}
    {association : Association} (live : phase.live = true) (failing : phase.Failing)
    (fits : Task.Fits ⟨.redeemClaim claim, phase⟩)
    (ok : (Task.advance derive store ⟨.redeemClaim claim, phase⟩).2 =
      .done (.association (.ok association))) :
    ∃ sid pending, store.pending.get sid = some pending ∧ pending.useState = .claimed claim ∧
      association = ⟨pending.medium, pending.address⟩ ∧
      (Task.advance derive store ⟨.redeemClaim claim, phase⟩).1.log =
        store.log ++ [.redeemed sid (some claim)] := by
  cases phase <;> dsimp only [Task.advance, Request.resume, redeemClaim] at ok ⊢
  case start =>
    split at ok
    · cases ok
    · cases ok
  case recheckClaim locked held =>
    split at ok
    · cases ok
    · split_ifs at ok
      cases ok
  case getClaimed locked held =>
    obtain rfl : held = claim := fits
    rcases found : store.pending.get locked with _ | pending
    all_goals simp only [found] at ok ⊢
    · cases ok
    -- the checks in order: expiry, ownership
    split_ifs at ok ⊢ with expired owned
    · cases ok
    · cases ok
    · cases ok
      exact ⟨locked, pending, found, not_not.mp owned, rfl, rfl⟩
  case deleteClaimSid =>
    exact absurd ok (deleteClaimedState_ne_ok failing (by rfl) fun _ same => by cases same)
  case done reply => cases live
  case cancelled => cases live
  all_goals cases ok

/-- The row a redemption that returns `Ok` names: `redeem_validated`'s session, with no UIAA key,
or a row that `redeem_claim`'s UIAA key has claimed, with that key. -/
def Request.Names : Request Sid Claim → Sid → Option Claim → Pending Claim → Prop
  | .redeemValidated named _, sid, claim, _ => sid = named ∧ claim = none
  | .redeemClaim key, _, claim, pending => claim = some key ∧ pending.useState = .claimed key
  | _, _, _, _ => False

/-- A poll that returns `Ok` from `redeem_claim` or `redeem_validated` spends the row the call
names, records its redemption, and returns the row's address. -/
theorem Task.advance_redeemed {task : Task Sid Claim} {association : Association}
    (live : task.phase.live = true) (failing : task.phase.Failing) (fits : task.Fits)
    (ok : (task.advance derive store).2 = .done (.association (.ok association))) :
    ∃ sid claim pending, task.request.Names sid claim pending ∧
      store.pending.get sid = some pending ∧ association = ⟨pending.medium, pending.address⟩ ∧
      (task.advance derive store).1.log = store.log ++ [.redeemed sid claim] := by
  obtain ⟨request, phase⟩ := task
  rcases Task.advance_association derive live failing ok with
    ⟨sid, clientSecret, rfl⟩ | ⟨claim, rfl⟩
  · obtain ⟨pending, found, same, logged⟩ := Task.advance_redeemValidated derive live failing fits ok
    exact ⟨sid, none, pending, ⟨rfl, rfl⟩, found, same, logged⟩
  · obtain ⟨sid, pending, found, owned, same, logged⟩ := Task.advance_redeemClaim derive live failing fits ok
    exact ⟨sid, some claim, pending, ⟨rfl, owned⟩, found, same, logged⟩

end Own

/-! ## Every reachable configuration is sound -/

/-- The locks are exclusive, what each call read is current, and every row agrees with its
lifetime. -/
structure Sound (derive : Medium → String → String → Sid)
    (config : Config (Store Sid Claim) (Task Sid Claim)) : Prop where
  exclusive : Exclusive (program derive) config.tasks
  tasks : ∀ (index : Nat) (task : Task Sid Claim), config.tasks[index]? = some task →
    task.Snapshot config.shared ∧ task.phase.Failing ∧ task.Fits
  rows : ∀ sid, RowSound sid (config.shared.pending.get sid) config.shared.log

variable {derive : Medium → String → String → Sid}

/-- Before any call is polled, with empty columns. -/
theorem sound_initial (now : Nat) {tasks : List (Task Sid Claim)}
    (fresh : ∀ task ∈ tasks, task.phase = .start) :
    Sound derive ⟨Store.empty now, tasks⟩ where
  exclusive := exclusive_of_holds_nil fun task member => by
    simp [program, fresh task member, Phase.holds]
  tasks index task found := by
    obtain ⟨request, phase⟩ := task
    obtain rfl : phase = .start := fresh _ (List.mem_of_getElem? found)
    exact ⟨by cases request <;> trivial, trivial, by cases request <;> trivial⟩
  rows sid := RowSound.empty sid

theorem RowSteps.rowSound {store store' : Store Sid Claim} (steps : RowSteps store store')
    (rows : ∀ sid, RowSound sid (store.pending.get sid) store.log) :
    ∀ sid, RowSound sid (store'.pending.get sid) store'.log := by
  obtain ⟨new, log, each⟩ := steps
  intro sid
  have sound := (rows sid).append (each sid)
  -- the lifetime of `sid` sees only the events about it
  have same : lifetime sid (store.log ++ new.filter (·.sid == sid)) = lifetime sid store'.log ∧
      sinceMint sid (store.log ++ new.filter (·.sid == sid)) = sinceMint sid store'.log := by
    simp [log, lifetime, sinceMint, List.filter_append, List.filter_filter]
  obtain ⟨lifetimeSame, sinceMintSame⟩ := same
  exact ⟨lifetimeSame ▸ sound.redeemedOnce, lifetimeSame ▸ sound.spent,
    lifetimeSame ▸ sound.claimed, lifetimeSame ▸ sound.redeemedAfterClaim,
    sinceMintSame ▸ sound.rejections, sinceMintSame ▸ sound.attempts⟩

theorem Sound.step {config config' : Config (Store Sid Claim) (Task Sid Claim)}
    (sound : Sound derive config) {action : Action Nat}
    (stepped : Interleaving.step (program derive) config action = some config') :
    Sound derive config' := by
  refine ⟨exclusive_step (program_disciplined derive) sound.exclusive stepped,
    fun index task' found' => ?_, ?_⟩
  · obtain ⟨task, found, polled | dropped | other⟩ := lookup_step stepped found'
    · obtain ⟨-, shared, rfl⟩ := polled
      rw [shared]
      obtain ⟨snapshot, failing, fits⟩ := sound.tasks index task found
      exact ⟨Task.advance_snapshot derive snapshot, Task.advance_failing derive failing,
        Task.advance_fits derive fits⟩
    · obtain ⟨-, shared, rfl⟩ := dropped
      obtain ⟨request, phase⟩ := task
      exact ⟨by cases request <;> trivial, trivial, by cases request <;> trivial⟩
    · -- a call the step did not poll: the rows it holds locks on did not change
      obtain ⟨distinct, rfl⟩ := other
      refine ⟨(sound.tasks index task' found).1.of_agree fun key held => ?_,
        (sound.tasks index task' found).2⟩
      exact guarded_step (program_guards derive) sound.exclusive found held distinct stepped
  · cases action with
    | poll index =>
        obtain ⟨task, found, -, -, rfl⟩ := step_poll stepped
        exact (task.advance_rowSteps config.shared derive
          (sound.tasks index task found).1).rowSound sound.rows
    | cancel index =>
        obtain ⟨-, -, -, rfl⟩ := step_cancel stepped
        exact sound.rows
    | env seconds =>
        obtain ⟨shared, ticked, rfl⟩ := step_env stepped
        obtain rfl := Option.some.inj ticked
        exact sound.rows

/-- Every configuration any interleaving reaches from fresh calls and empty columns is sound. -/
theorem sound_run {now : Nat} {tasks : List (Task Sid Claim)}
    (fresh : ∀ task ∈ tasks, task.phase = .start) {actions : List (Action Nat)}
    {final : Config (Store Sid Claim) (Task Sid Claim)}
    (ran : StepRun.run (Interleaving.step (program derive)) ⟨Store.empty now, tasks⟩ actions =
      some final) : Sound derive final :=
  StepRun.run_invariant (Sound derive) (fun _ _ _ sound stepped => sound.step stepped)
    (sound_initial now fresh) ran

section Polls

variable {config config' : Config (Store Sid Claim) (Task Sid Claim)} {index : Nat}

/-- The call a poll advanced, with what it returned. -/
theorem poll_advances (stepped : Interleaving.step (program derive) config (.poll index) = some config')
    {task' : Task Sid Claim} (found' : config'.tasks[index]? = some task') :
    ∃ task, config.tasks[index]? = some task ∧ task.phase.live = true ∧
      config'.shared = (task.advance derive config.shared).1 ∧
      task' = { task with phase := (task.advance derive config.shared).2 } := by
  obtain ⟨task, found, live, -, rfl⟩ := step_poll stepped
  obtain ⟨task₀, found₀, ⟨-, shared, returned⟩ | ⟨cancelled, -⟩ | ⟨other, -⟩⟩ :=
    lookup_step stepped found'
  · obtain rfl := Option.some.inj (found₀.symm.trans found)
    exact ⟨task₀, found₀, live, shared, returned⟩
  · cases cancelled
  · exact absurd rfl other

/-- A poll at a sound configuration that makes a `validate_pending_token` call return `Ok` found
the row with the given client secret and current token. -/
theorem Sound.validated (sound : Sound derive config) {sid : Sid} {clientSecret token : String}
    (stepped : Interleaving.step (program derive) config (.poll index) = some config')
    (ok : config'.tasks[index]? =
      some ⟨.validatePendingToken sid clientSecret token, .done (.unit (.ok ()))⟩) :
    ∃ pending, config.shared.pending.get sid = some pending ∧ pending.clientSecret = clientSecret ∧
      pending.token = token := by
  obtain ⟨⟨request, phase⟩, found, live, -, returned⟩ := poll_advances stepped ok
  obtain ⟨rfl, moved⟩ := Task.mk.inj returned
  obtain ⟨-, failing, fits⟩ := sound.tasks index _ found
  exact Task.advance_validated derive live failing fits moved.symm

/-- A poll at a sound configuration that makes a call return `Ok` with an association spends the
row the call names and records its redemption. -/
theorem Sound.redeemed (sound : Sound derive config) {task : Task Sid Claim}
    {association : Association}
    (stepped : Interleaving.step (program derive) config (.poll index) = some config')
    (ok : config'.tasks[index]? = some { task with phase := .done (.association (.ok association)) }) :
    ∃ sid claim pending, task.request.Names sid claim pending ∧
      config.shared.pending.get sid = some pending ∧ association = ⟨pending.medium, pending.address⟩ ∧
      config'.shared.log = config.shared.log ++ [.redeemed sid claim] := by
  obtain ⟨⟨request, phase⟩, found, live, shared, returned⟩ := poll_advances stepped ok
  obtain ⟨same, moved⟩ := Task.mk.inj returned
  obtain ⟨-, failing, fits⟩ := sound.tasks index _ found
  rw [shared, same]
  exact Task.advance_redeemed derive live failing fits moved.symm

end Polls

/-- In every configuration that an interleaving of the seven calls reaches from empty columns:
every `Ok` of a redemption records it, and a row's lifetime holds at most one; `redeem_claim(k)`
spends a row claimed by `k` earlier in its lifetime with the row's client secret;
`validate_pending_token` returns `Ok` only for the row's client secret and current token; the
wrong submissions since the token was minted stay below `MAX_VERIFY_ATTEMPTS` and are the row's
`attempts`; and no calls wait for one another's locks in a cycle. -/
theorem validated_proof_spent_once {now : Nat} {tasks : List (Task Sid Claim)}
    (fresh : ∀ task ∈ tasks, task.phase = .start) {actions : List (Action Nat)}
    {final : Config (Store Sid Claim) (Task Sid Claim)}
    (ran : StepRun.run (Interleaving.step (program derive)) ⟨Store.empty now, tasks⟩ actions =
      some final) :
    ((∀ index (task : Task Sid Claim) association config',
        Interleaving.step (program derive) final (.poll index) = some config' →
        config'.tasks[index]? = some { task with phase := .done (.association (.ok association)) } →
        ∃ sid claim pending, task.request.Names sid claim pending ∧
          final.shared.pending.get sid = some pending ∧
          association = ⟨pending.medium, pending.address⟩ ∧
          config'.shared.log = final.shared.log ++ [.redeemed sid claim]) ∧
      ∀ sid, (lifetime sid final.shared.log).countP Event.isRedeemed ≤ 1) ∧
    (∀ sid claim, .redeemed sid (some claim) ∈ lifetime sid final.shared.log →
      ∃ pending before after, final.shared.pending.get sid = some pending ∧
        lifetime sid final.shared.log = before ++ .redeemed sid (some claim) :: after ∧
        .claimed sid claim pending.clientSecret ∈ before) ∧
    (∀ index sid clientSecret token config',
        Interleaving.step (program derive) final (.poll index) = some config' →
        config'.tasks[index]? =
          some ⟨.validatePendingToken sid clientSecret token, .done (.unit (.ok ()))⟩ →
        ∃ pending, final.shared.pending.get sid = some pending ∧
          pending.clientSecret = clientSecret ∧ pending.token = token) ∧
    (∀ sid, (sinceMint sid final.shared.log).count (.rejected sid) < maxVerifyAttempts ∧
      ∀ pending, final.shared.pending.get sid = some pending →
        pending.attempts = (sinceMint sid final.shared.log).count (.rejected sid)) ∧
    ∀ index, ¬ Relation.TransGen (WaitsFor (program derive) final.tasks) index index := by
  have sound := sound_run fresh ran
  refine ⟨⟨fun index task association config' stepped ok => sound.redeemed stepped ok,
      fun sid => (sound.rows sid).redeemedOnce⟩,
    fun sid => (sound.rows sid).redeemedAfterClaim,
    fun index sid clientSecret token config' stepped ok => sound.validated stepped ok,
    fun sid => ⟨(sound.rows sid).rejections, (sound.rows sid).attempts⟩,
    waitsFor_acyclic (program_ordered derive) final.tasks⟩

/-- A session minted, validated, claimed by the UIAA key `7` and redeemed by it. -/
def redeemingCalls : List (Task Nat Nat) :=
  [⟨.createOrReusePending ⟨"secret", .email, "user@example.org", 1, 3600, "token"⟩, .start⟩,
    ⟨.validatePendingToken 0 "secret" "token", .start⟩,
    ⟨.claimValidated 0 "secret" 7, .start⟩,
    ⟨.redeemClaim 7, .start⟩]

/-- The calls one after the other, each polled to its return. -/
def redeemingRun : List (Action Nat) :=
  List.replicate 3 (.poll 0) ++ List.replicate 3 (.poll 1) ++ List.replicate 5 (.poll 2) ++
    List.replicate 5 (.poll 3)

theorem validated_proof_spent_once_redeeming :
    ∃ final, StepRun.run (Interleaving.step (program fun _ _ _ => 0))
        ⟨Store.empty 0, redeemingCalls⟩ redeemingRun = some final ∧
      lifetime 0 final.shared.log = [.minted 0, .claimed 0 7 "secret", .redeemed 0 (some 7)] ∧
      ((∀ index (task : Task Nat Nat) association config',
          Interleaving.step (program fun _ _ _ => 0) final (.poll index) = some config' →
          config'.tasks[index]? =
            some { task with phase := .done (.association (.ok association)) } →
          ∃ sid claim pending, task.request.Names sid claim pending ∧
            final.shared.pending.get sid = some pending ∧
            association = ⟨pending.medium, pending.address⟩ ∧
            config'.shared.log = final.shared.log ++ [.redeemed sid claim]) ∧
        ∀ sid, (lifetime sid final.shared.log).countP Event.isRedeemed ≤ 1) ∧
      (∀ sid claim, .redeemed sid (some claim) ∈ lifetime sid final.shared.log →
        ∃ pending before after, final.shared.pending.get sid = some pending ∧
          lifetime sid final.shared.log = before ++ .redeemed sid (some claim) :: after ∧
          .claimed sid claim pending.clientSecret ∈ before) ∧
      (∀ index sid clientSecret token config',
          Interleaving.step (program fun _ _ _ => 0) final (.poll index) = some config' →
          config'.tasks[index]? =
            some ⟨.validatePendingToken sid clientSecret token, .done (.unit (.ok ()))⟩ →
          ∃ pending, final.shared.pending.get sid = some pending ∧
            pending.clientSecret = clientSecret ∧ pending.token = token) ∧
      (∀ sid, (sinceMint sid final.shared.log).count (.rejected sid) < maxVerifyAttempts ∧
        ∀ pending, final.shared.pending.get sid = some pending →
          pending.attempts = (sinceMint sid final.shared.log).count (.rejected sid)) ∧
      ∀ index, ¬ Relation.TransGen (WaitsFor (program fun _ _ _ => 0) final.tasks) index index := by
  have ran : StepRun.run (Interleaving.step (program fun _ _ _ => 0))
      ⟨Store.empty 0, redeemingCalls⟩ redeemingRun = some _ := rfl
  exact ⟨_, ran, rfl, validated_proof_spent_once (by decide) ran⟩

/-- Four wrong submissions, a resubmission with a higher `send_attempt` that mints a new token over
the available row, and a fifth wrong submission. -/
def guessingCalls : List (Task Nat Nat) :=
  [⟨.createOrReusePending ⟨"secret", .email, "user@example.org", 1, 3600, "first"⟩, .start⟩] ++
    List.replicate 4 ⟨.validatePendingToken 0 "secret" "guess", .start⟩ ++
    [⟨.createOrReusePending ⟨"secret", .email, "user@example.org", 2, 3600, "second"⟩, .start⟩,
      ⟨.validatePendingToken 0 "secret" "guess", .start⟩]

/-- The calls one after the other, each polled to its return. -/
def guessingRun : List (Action Nat) :=
  (List.range 7).flatMap fun index => List.replicate 3 (.poll index)

/-- The row outlives `MAX_VERIFY_ATTEMPTS` wrong submissions in one lifetime: each was refused,
and none deleted it. -/
theorem rejections_survive_remint :
    ∃ final, StepRun.run (Interleaving.step (program fun _ _ _ => 0))
        ⟨Store.empty 0, guessingCalls⟩ guessingRun = some final ∧
      (∀ index ∈ [1, 2, 3, 4, 6], (final.tasks[index]?.map Task.phase) =
        some (.done (.unit (.error (.threepidAuthFailed "Invalid verification token"))))) ∧
      (lifetime 0 final.shared.log).count (.rejected 0) = maxVerifyAttempts ∧
      (final.shared.pending.get 0).isSome := by
  have ran : StepRun.run (Interleaving.step (program fun _ _ _ => 0))
      ⟨Store.empty 0, guessingCalls⟩ guessingRun = some _ := rfl
  exact ⟨_, ran, by decide, by decide, rfl⟩

end Threepid
end Tuwunel
