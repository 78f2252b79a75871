import Tuwunel.Library.KeyValue
import Tuwunel.Library.Interleaving
import Tuwunel.Core.Numbers

/-!
# Pending third-party verification sessions

A session is a row of `threepidsid_pending` under its session id; a validated session may be
claimed by one UIAA transaction, recorded both in the row's `use_state` and in the claim index
`userdevicesessionid_threepid`, and is spent once redeemed.  Seven calls read and write these two
columns concurrently: `create_or_reuse_pending`, `validate_pending_token`, `claim_validated`,
`refresh_claim`, `redeem_claim`, `redeem_validated` and `session_validated`.  They serialize through
two keyed mutexes, `pending_mutex` by session id and `claim_mutex` by UIAA key.

Each call is a task of an `Interleaving.Program`: its `Phase` is the await at which it is suspended,
with what it has read, and a poll runs the code from there to its next await.  A phase carries the
session id and the claim whose locks it holds or awaits; the polls after a lock use them.
`delete_pending_state` awaits the claim lock of the row's owner and then the claim index, and its
caller resumes after it (`Resume`).  The random token `create_or_reuse_pending` mints is one of its
arguments, the clock is the environment's, and `derive_sid`'s digest is a parameter `derive`.

The store keeps a history of what happened to the rows (`Event`): the specification of single use
speaks of it, and no call reads it.
-/

namespace Tuwunel
namespace Threepid

open KeyValue

/-- `Medium` of a third-party identifier. -/
inductive Medium
  | email
  | msisdn
  | custom (name : String)
  deriving DecidableEq, Repr

/-- `PendingUse`: the single-use state of a validated session. -/
inductive PendingUse (Claim : Type)
  | available
  | claimed (owner : Claim)
  | spent
  deriving DecidableEq, Repr

/-- `Pending`: the value of a `threepidsid_pending` row; times are in seconds. -/
structure Pending (Claim : Type) where
  clientSecret : String
  medium : Medium
  address : String
  token : String
  sendAttempt : Nat
  attempts : Nat
  validatedAt : Option Nat
  expiresAt : Option Nat
  useState : PendingUse Claim
  deriving DecidableEq, Repr

/-- `MAX_VERIFY_ATTEMPTS`. -/
def maxVerifyAttempts : Nat := 5

/-- `UIAA_SESSION_TTL`: 24 hours. -/
def uiaaSessionTtl : Nat := 24 * 60 * 60

/-- `expired`: the row's `expires_at` is set and `timepoint_has_passed` at `now`. -/
def Pending.expired {Claim : Type} (pending : Pending Claim) (now : Nat) : Bool :=
  pending.expiresAt.any fun expiresAt => expiresAt ≤ now

/-- `Some(timepoint_from_now(ttl)).max(expires_at)`: a claim never shortens a row's life. -/
def laterExpiry (fresh : Nat) : Option Nat → Option Nat
  | some expiresAt => some (max fresh expiresAt)
  | none => some fresh

/-- `Association`: what a redeemed session proves. -/
structure Association where
  medium : Medium
  address : String
  deriving DecidableEq, Repr

/-- `PendingOutcome`: the session id, and the token to mail when one was minted. -/
structure PendingOutcome (Sid : Type) where
  sid : Sid
  freshlyMintedToken : Option String
  deriving DecidableEq, Repr

/-- The errors of the calls. -/
inductive Error
  /-- `Request(NotFound(..))`. -/
  | notFound (message : String)
  /-- `Request(ThreepidAuthFailed(..))`. -/
  | threepidAuthFailed (message : String)
  deriving DecidableEq, Repr

/-- The arguments of `create_or_reuse_pending`, with the token `random_string` gives it. -/
structure Create where
  clientSecret : String
  medium : Medium
  address : String
  sendAttempt : Nat
  ttl : Nat
  token : String
  deriving DecidableEq, Repr

/-- A call and its arguments. -/
inductive Request (Sid Claim : Type)
  | createOrReusePending (args : Create)
  | validatePendingToken (sid : Sid) (clientSecret token : String)
  | claimValidated (sid : Sid) (clientSecret : String) (claim : Claim)
  | refreshClaim (claim : Claim)
  | redeemClaim (claim : Claim)
  | redeemValidated (sid : Sid) (clientSecret : String)
  | sessionValidated (sid : Sid) (clientSecret : String)
  deriving DecidableEq, Repr

/-- What a call returned.  Storage and decoding errors are not modelled, so the calls that fail
only with those return a plain flag. -/
inductive Reply (Sid : Type)
  /-- `create_or_reuse_pending`. -/
  | outcome (result : Except Error (PendingOutcome Sid))
  /-- `validate_pending_token`. -/
  | unit (result : Except Error Unit)
  /-- `claim_validated`, `refresh_claim` and `session_validated`. -/
  | flag (value : Bool)
  /-- `redeem_claim` and `redeem_validated`. -/
  | association (result : Except Error Association)
  deriving DecidableEq, Repr

/-- What the caller of `delete_pending_state` does once it returns. -/
inductive Resume (Sid : Type)
  /-- `create_or_reuse_pending` goes on to mint a fresh row. -/
  | mint (args : Create)
  /-- The caller returns `reply`. -/
  | reply (reply : Reply Sid)
  deriving DecidableEq, Repr

/-- The await at which a call is suspended, with what it has read. -/
inductive Phase (Sid Claim : Type)
  /-- Not polled yet. -/
  | start
  /-- Awaiting `pending_mutex.lock(sid)`. -/
  | lockPending (sid : Sid)
  /-- Holding the pending lock; awaiting `get_pending(sid)`. -/
  | getPending (sid : Sid)
  /-- `claim_validated` read `pending`; awaiting `claim_mutex.lock(claim)`. -/
  | lockClaim (sid : Sid) (claim : Claim) (pending : Pending Claim)
  /-- `claim_validated` holds both locks; awaiting `claim_sid(claim)`. -/
  | claimSid (sid : Sid) (claim : Claim) (pending : Pending Claim)
  /-- `refresh_claim` or `redeem_claim` holds the pending lock; awaiting
  `claim_mutex.lock(claim)`. -/
  | relockClaim (sid : Sid) (claim : Claim)
  /-- Holding both locks; awaiting the claim index again. -/
  | recheckClaim (sid : Sid) (claim : Claim)
  /-- Holding both locks, the claim index checked; awaiting `get_pending(sid)`. -/
  | getClaimed (sid : Sid) (claim : Claim)
  /-- `delete_pending_state` of a row claimed by `owner`; awaiting `claim_mutex.lock(owner)`. -/
  | deleteLockClaim (sid : Sid) (owner : Claim) (resume : Resume Sid)
  /-- `delete_pending_state` holds both locks; awaiting `claim_sid(owner)`. -/
  | deleteClaimSid (sid : Sid) (owner : Claim) (resume : Resume Sid)
  /-- Returned `reply`. -/
  | done (reply : Reply Sid)
  /-- Dropped at an await. -/
  | cancelled
  deriving DecidableEq, Repr

/-- A call in flight. -/
structure Task (Sid Claim : Type) where
  request : Request Sid Claim
  phase : Phase Sid Claim
  deriving DecidableEq, Repr

/-- What happened to a row. -/
inductive Event (Sid Claim : Type)
  /-- `create_or_reuse_pending` wrote a fresh row with a new token. -/
  | minted (sid : Sid)
  /-- The row was deleted. -/
  | deleted (sid : Sid)
  /-- `validate_pending_token` counted a wrong client secret or token. -/
  | rejected (sid : Sid)
  /-- `claim_validated(sid, clientSecret, claim)` returned `true`. -/
  | claimed (sid : Sid) (claim : Claim) (clientSecret : String)
  /-- `redeem_claim(claim)` (`some claim`) or `redeem_validated` (`none`) returned `Ok`. -/
  | redeemed (sid : Sid) (claim : Option Claim)
  deriving DecidableEq, Repr

/-- The two columns, the clock, and the history of the rows. -/
structure Store (Sid Claim : Type) where
  /-- `threepidsid_pending`. -/
  pending : Table Sid (Pending Claim)
  /-- `userdevicesessionid_threepid`: the session id each UIAA key claimed. -/
  claims : Table Claim Sid
  /-- The wall clock, in seconds. -/
  now : Nat
  /-- What happened to the rows, oldest first. -/
  log : List (Event Sid Claim)

/-- The keys of the two mutexes: `pending_mutex` by session id, `claim_mutex` by UIAA key. -/
inductive Key (Sid Claim : Type)
  | pending (sid : Sid)
  | claim (claim : Claim)
  deriving DecidableEq, Repr

variable {Sid Claim : Type} [DecidableEq Sid] [DecidableEq Claim]

/-- The row `create_or_reuse_pending` mints at `now`. -/
def Create.pending (args : Create) (now : Nat) : Pending Claim where
  clientSecret := args.clientSecret
  medium := args.medium
  address := args.address
  token := args.token
  sendAttempt := args.sendAttempt
  attempts := 0
  validatedAt := none
  expiresAt := some (now + args.ttl)
  useState := .available

/-! ## Writes -/

namespace Store

/-- Add an event to the history. -/
def record (store : Store Sid Claim) (event : Event Sid Claim) : Store Sid Claim :=
  { store with log := store.log ++ [event] }

/-- `persist_pending`. -/
def persistPending (store : Store Sid Claim) (sid : Sid) (pending : Pending Claim) :
    Store Sid Claim :=
  { store with pending := store.pending.put sid pending }

/-- `delete_pending_rows`: the row, and the claim index entry when given, in one transaction. -/
def deletePendingRows (store : Store Sid Claim) (sid : Sid) (claim : Option Claim) :
    Store Sid Claim :=
  { store with
    pending := store.pending.remove sid
    claims := match claim with
      | some claim => store.claims.remove claim
      | none => store.claims
    log := store.log ++ [.deleted sid] }

/-- `delete_claim_index`. -/
def deleteClaimIndex (store : Store Sid Claim) (claim : Claim) : Store Sid Claim :=
  { store with claims := store.claims.remove claim }

/-- `create_or_reuse_pending`'s `persist_pending` of a fresh row. -/
def mint (store : Store Sid Claim) (sid : Sid) (args : Create) : Store Sid Claim :=
  (store.persistPending sid (args.pending store.now)).record (.minted sid)

/-- `claim_validated`'s transaction: the claim index and the claimed row. -/
def claimPending (store : Store Sid Claim) (sid : Sid) (claim : Claim) (clientSecret : String)
    (pending : Pending Claim) : Store Sid Claim :=
  { store with
    claims := store.claims.put claim sid
    pending := store.pending.put sid
      { pending with
        expiresAt := laterExpiry (store.now + uiaaSessionTtl) pending.expiresAt
        useState := .claimed claim }
    log := store.log ++ [.claimed sid claim clientSecret] }

/-- `refresh_claim`'s transaction: both rows rewritten, the row's life extended. -/
def refreshPending (store : Store Sid Claim) (sid : Sid) (claim : Claim)
    (pending : Pending Claim) : Store Sid Claim :=
  { store with
    pending := store.pending.put sid
      { pending with expiresAt := laterExpiry (store.now + uiaaSessionTtl) pending.expiresAt }
    claims := store.claims.put claim sid }

/-- The row marked spent, with `redeem_claim`'s removal of the claim index when given. -/
def spendPending (store : Store Sid Claim) (sid : Sid) (claim : Option Claim)
    (pending : Pending Claim) : Store Sid Claim :=
  { store with
    pending := store.pending.put sid { pending with useState := .spent }
    claims := match claim with
      | some claim => store.claims.remove claim
      | none => store.claims
    log := store.log ++ [.redeemed sid claim] }

end Store

/-! ## The calls -/

/-- What the caller does once `delete_pending_state` returned. -/
def Resume.finish (store : Store Sid Claim) (sid : Sid) :
    Resume Sid → Store Sid Claim × Phase Sid Claim
  | .mint args => (store.mint sid args, .done (.outcome (.ok ⟨sid, some args.token⟩)))
  | .reply answer => (store, .done answer)

/-- `delete_pending_state` on the row it read: an unclaimed row goes at once; a claimed one waits
for its owner's claim lock. -/
def deletePendingState (store : Store Sid Claim) (sid : Sid) (pending : Pending Claim)
    (resume : Resume Sid) : Store Sid Claim × Phase Sid Claim :=
  match pending.useState with
  | .claimed owner => (store, .deleteLockClaim sid owner resume)
  | _ => resume.finish (store.deletePendingRows sid none) sid

/-- `delete_pending_state` once it read the owner's claim index: the row goes, and the index entry
too if it still names this session. -/
def deleteClaimedState (store : Store Sid Claim) (sid : Sid) (owner : Claim)
    (resume : Resume Sid) : Store Sid Claim × Phase Sid Claim :=
  resume.finish (store.deletePendingRows sid
    (if store.claims.get owner = some sid then some owner else none)) sid

/-- `create_or_reuse_pending`, polled at `phase`. -/
def createOrReusePending (derive : Medium → String → String → Sid) (args : Create)
    (store : Store Sid Claim) : Phase Sid Claim → Store Sid Claim × Phase Sid Claim
  | .start => (store, .lockPending (derive args.medium args.address args.clientSecret))
  | .lockPending sid => (store, .getPending sid)
  | .getPending sid =>
      match store.pending.get sid with
      | none => (Resume.mint args).finish store sid
      | some existing =>
          if existing.expired store.now then deletePendingState store sid existing (.mint args)
          else if existing.useState ≠ .available then
            (store, .done (.outcome (.error (.threepidAuthFailed
              "The verification session has already been used"))))
          else if existing.validatedAt.isNone ∧ args.sendAttempt ≤ existing.sendAttempt then
            (store, .done (.outcome (.ok ⟨sid, none⟩)))
          else (Resume.mint args).finish store sid
  | phase => (store, phase)

/-- `validate_pending_token` after a wrong client secret or token: the attempt is counted, and at
`MAX_VERIFY_ATTEMPTS` the session is burnt. -/
def rejectAttempt (store : Store Sid Claim) (sid : Sid) (pending : Pending Claim) :
    Store Sid Claim × Phase Sid Claim :=
  let attempts := saturatingAdd32 pending.attempts 1
  let store := store.record (.rejected sid)
  let reply : Reply Sid := .unit (.error (.threepidAuthFailed "Invalid verification token"))
  if maxVerifyAttempts ≤ attempts then deletePendingState store sid pending (.reply reply)
  else (store.persistPending sid { pending with attempts }, .done reply)

/-- `validate_pending_token`, polled at `phase`. -/
def validatePendingToken (sid : Sid) (clientSecret token : String) (store : Store Sid Claim) :
    Phase Sid Claim → Store Sid Claim × Phase Sid Claim
  | .start => (store, .lockPending sid)
  | .lockPending sid => (store, .getPending sid)
  | .getPending sid =>
      match store.pending.get sid with
      | none => (store, .done (.unit (.error (.notFound "Not found in database"))))
      | some pending =>
          if pending.expired store.now then
            deletePendingState store sid pending
              (.reply (.unit (.error (.notFound "The verification session has expired"))))
          else if pending.useState ≠ .available then
            (store, .done (.unit (.error (.threepidAuthFailed
              "The verification session has already been used"))))
          else if pending.validatedAt.isSome then
            (store, .done (.unit (.error (.threepidAuthFailed
              "The verification session has already been validated"))))
          else if pending.clientSecret = clientSecret ∧ pending.token = token then
            (store.persistPending sid { pending with validatedAt := some store.now },
              .done (.unit (.ok ())))
          else rejectAttempt store sid pending
  | phase => (store, phase)

/-- `claim_validated`, polled at `phase`. -/
def claimValidated (sid : Sid) (clientSecret : String) (claim : Claim) (store : Store Sid Claim) :
    Phase Sid Claim → Store Sid Claim × Phase Sid Claim
  | .start => (store, .lockPending sid)
  | .lockPending sid => (store, .getPending sid)
  | .getPending sid =>
      match store.pending.get sid with
      | none => (store, .done (.flag false))
      | some pending =>
          if pending.expired store.now then
            deletePendingState store sid pending (.reply (.flag false))
          else if pending.clientSecret ≠ clientSecret then (store, .done (.flag false))
          else if pending.validatedAt.isNone then (store, .done (.flag false))
          else
            match pending.useState with
            | .available => (store, .lockClaim sid claim pending)
            | .claimed owner =>
                if owner = claim then (store, .lockClaim sid claim pending)
                else (store, .done (.flag false))
            | .spent => (store, .done (.flag false))
  | .lockClaim sid claim pending => (store, .claimSid sid claim pending)
  | .claimSid sid claim pending =>
      if (store.claims.get claim).any (· ≠ sid) then (store, .done (.flag false))
      else (store.claimPending sid claim clientSecret pending, .done (.flag true))
  | phase => (store, phase)

/-- `refresh_claim`, polled at `phase`. -/
def refreshClaim (claim : Claim) (store : Store Sid Claim) :
    Phase Sid Claim → Store Sid Claim × Phase Sid Claim
  | .start =>
      match store.claims.get claim with
      | none => (store, .done (.flag false))
      | some sid => (store, .lockPending sid)
  | .lockPending sid => (store, .relockClaim sid claim)
  | .relockClaim sid claim => (store, .recheckClaim sid claim)
  | .recheckClaim sid claim =>
      if store.claims.get claim ≠ some sid then (store, .done (.flag false))
      else (store, .getClaimed sid claim)
  | .getClaimed sid claim =>
      match store.pending.get sid with
      | none => (store.deleteClaimIndex claim, .done (.flag false))
      | some pending =>
          if pending.expired store.now then
            (store.deletePendingRows sid (some claim), .done (.flag false))
          else if pending.useState ≠ .claimed claim then
            (store.deleteClaimIndex claim, .done (.flag false))
          else (store.refreshPending sid claim pending, .done (.flag true))
  | phase => (store, phase)

/-- `redeem_claim`, polled at `phase`. -/
def redeemClaim (claim : Claim) (store : Store Sid Claim) :
    Phase Sid Claim → Store Sid Claim × Phase Sid Claim
  | .start =>
      match store.claims.get claim with
      | none => (store, .done (.association (.error (.notFound "Not found in database"))))
      | some sid => (store, .lockPending sid)
  | .lockPending sid => (store, .relockClaim sid claim)
  | .relockClaim sid claim => (store, .recheckClaim sid claim)
  | .recheckClaim sid claim =>
      match store.claims.get claim with
      | none => (store, .done (.association (.error (.notFound "Not found in database"))))
      | some current =>
          if current ≠ sid then
            (store, .done (.association (.error (.threepidAuthFailed
              "The verification session claim has changed"))))
          else (store, .getClaimed sid claim)
  | .getClaimed sid claim =>
      match store.pending.get sid with
      | none =>
          (store.deleteClaimIndex claim,
            .done (.association (.error (.notFound "Not found in database"))))
      | some pending =>
          if pending.expired store.now then
            (store.deletePendingRows sid (some claim),
              .done (.association (.error (.notFound "The verification session has expired"))))
          else if pending.useState ≠ .claimed claim then
            (store.deleteClaimIndex claim,
              .done (.association (.error (.threepidAuthFailed
                "The verification session is not owned by this transaction"))))
          else
            (store.spendPending sid (some claim) pending,
              .done (.association (.ok ⟨pending.medium, pending.address⟩)))
  | phase => (store, phase)

/-- `redeem_validated`, polled at `phase`. -/
def redeemValidated (sid : Sid) (clientSecret : String) (store : Store Sid Claim) :
    Phase Sid Claim → Store Sid Claim × Phase Sid Claim
  | .start => (store, .lockPending sid)
  | .lockPending sid => (store, .getPending sid)
  | .getPending sid =>
      match store.pending.get sid with
      | none => (store, .done (.association (.error (.notFound "Not found in database"))))
      | some pending =>
          if pending.expired store.now then
            deletePendingState store sid pending
              (.reply (.association (.error (.notFound "The verification session has expired"))))
          else if pending.clientSecret ≠ clientSecret then
            (store, .done (.association (.error (.threepidAuthFailed
              "Client secret does not match"))))
          else if pending.validatedAt.isNone then
            (store, .done (.association (.error (.threepidAuthFailed
              "The address has not been validated"))))
          else if pending.useState ≠ .available then
            (store, .done (.association (.error (.threepidAuthFailed
              "The verification session has already been used"))))
          else
            (store.spendPending sid none pending,
              .done (.association (.ok ⟨pending.medium, pending.address⟩)))
  | phase => (store, phase)

/-- `session_validated`: one read, no lock. -/
def sessionValidated (sid : Sid) (clientSecret : String) (store : Store Sid Claim) :
    Phase Sid Claim → Store Sid Claim × Phase Sid Claim
  | .start =>
      match store.pending.get sid with
      | none => (store, .done (.flag false))
      | some pending =>
          (store, .done (.flag (!pending.expired store.now &&
            pending.clientSecret == clientSecret && pending.validatedAt.isSome &&
            pending.useState == .available)))
  | phase => (store, phase)

/-- The call's own code, polled at `phase`. -/
def Request.resume (derive : Medium → String → String → Sid) (store : Store Sid Claim) :
    Request Sid Claim → Phase Sid Claim → Store Sid Claim × Phase Sid Claim
  | .createOrReusePending args => Threepid.createOrReusePending derive args store
  | .validatePendingToken sid clientSecret token =>
      Threepid.validatePendingToken sid clientSecret token store
  | .claimValidated sid clientSecret claim => Threepid.claimValidated sid clientSecret claim store
  | .refreshClaim claim => Threepid.refreshClaim claim store
  | .redeemClaim claim => Threepid.redeemClaim claim store
  | .redeemValidated sid clientSecret => Threepid.redeemValidated sid clientSecret store
  | .sessionValidated sid clientSecret => Threepid.sessionValidated sid clientSecret store

/-- A poll of a call: inside `delete_pending_state` its awaits, else the call's own. -/
def Task.advance (derive : Medium → String → String → Sid) (store : Store Sid Claim)
    (task : Task Sid Claim) : Store Sid Claim × Phase Sid Claim :=
  match task.phase with
  | .deleteLockClaim sid owner resume => (store, .deleteClaimSid sid owner resume)
  | .deleteClaimSid sid owner resume => deleteClaimedState store sid owner resume
  | phase => task.request.resume derive store phase

/-! ## The calls as tasks -/

/-- The lock a call awaits. -/
def Phase.awaits : Phase Sid Claim → Option (Key Sid Claim)
  | .lockPending sid => some (.pending sid)
  | .lockClaim _ claim _ | .relockClaim _ claim => some (.claim claim)
  | .deleteLockClaim _ owner _ => some (.claim owner)
  | _ => none

/-- The locks a call holds: its guards `_pending_lock` and `_claim_lock`. -/
def Phase.holds : Phase Sid Claim → List (Key Sid Claim)
  | .getPending sid | .lockClaim sid _ _ | .relockClaim sid _ | .deleteLockClaim sid _ _ =>
      [.pending sid]
  | .claimSid sid claim _ | .recheckClaim sid claim | .getClaimed sid claim =>
      [.pending sid, .claim claim]
  | .deleteClaimSid sid owner _ => [.pending sid, .claim owner]
  | _ => []

/-- The call has not returned and was not dropped. -/
def Phase.live : Phase Sid Claim → Bool
  | .done _ | .cancelled => false
  | _ => true

/-- The seven calls, interleaved at their awaits; the environment moves the clock on. -/
def program (derive : Medium → String → String → Sid) :
    Interleaving.Program (Store Sid Claim) (Task Sid Claim) (Key Sid Claim) Nat where
  awaits task := task.phase.awaits
  holds task := task.phase.holds
  live task := task.phase.live
  resume store task :=
    ((task.advance derive store).1, { task with phase := (task.advance derive store).2 })
  cancel task := { task with phase := .cancelled }
  env store seconds := some { store with now := store.now + seconds }

/-- The empty columns at `now`, before any call. -/
def Store.empty (now : Nat) : Store Sid Claim := ⟨Table.empty, Table.empty, now, []⟩

/-! ## Lock discipline -/

/-- What a lock key guards: a session's row, or a UIAA key's entry in the claim index. -/
def Key.Guarded : Key Sid Claim → Type
  | .pending _ => Option (Pending Claim)
  | .claim _ => Option Sid

/-- The value a key guards. -/
def Store.guarded (store : Store Sid Claim) : (key : Key Sid Claim) → key.Guarded
  | .pending sid => store.pending.get sid
  | .claim claim => store.claims.get claim

/-- `store'` agrees with `store` on everything guarded by the keys outside `keys`. -/
def Store.AgreesOff (keys : List (Key Sid Claim)) (store store' : Store Sid Claim) : Prop :=
  ∀ key, key ∉ keys → store'.guarded key = store.guarded key

namespace Store.AgreesOff

omit [DecidableEq Sid] [DecidableEq Claim]

variable {keys keys' : List (Key Sid Claim)} {store store' store'' : Store Sid Claim}

theorem refl (keys : List (Key Sid Claim)) (store : Store Sid Claim) :
    store.AgreesOff keys store := fun _ _ => rfl

theorem mono (agrees : store.AgreesOff keys store') (wider : ∀ key ∈ keys, key ∈ keys') :
    store.AgreesOff keys' store' :=
  fun key outside => agrees key fun inside => outside (wider key inside)

theorem trans (first : store.AgreesOff keys store') (second : store'.AgreesOff keys store'') :
    store.AgreesOff keys store'' :=
  fun key outside => (second key outside).trans (first key outside)

end Store.AgreesOff

namespace Store

variable (store : Store Sid Claim) (sid : Sid) (pending : Pending Claim)

omit [DecidableEq Sid] [DecidableEq Claim] in
theorem agreesOff_record (event : Event Sid Claim) : store.AgreesOff [] (store.record event) :=
  Store.AgreesOff.refl _ _

omit [DecidableEq Claim] in
theorem agreesOff_persistPending :
    store.AgreesOff [.pending sid] (store.persistPending sid pending) := by
  intro key outside
  cases key with
  | pending other =>
      have distinct : other ≠ sid := by simpa using outside
      exact Table.get_put_of_ne _ _ distinct
  | claim claim => rfl

omit [DecidableEq Sid] in
theorem agreesOff_deleteClaimIndex (claim : Claim) :
    store.AgreesOff [.claim claim] (store.deleteClaimIndex claim) := by
  intro key outside
  cases key with
  | pending other => rfl
  | claim other =>
      have distinct : other ≠ claim := by simpa using outside
      exact Table.get_remove_of_ne _ distinct

theorem agreesOff_deletePendingRows (claim : Option Claim) :
    store.AgreesOff (.pending sid :: claim.toList.map .claim)
      (store.deletePendingRows sid claim) := by
  intro key outside
  cases key with
  | pending other =>
      have distinct : other ≠ sid := by simp_all
      exact Table.get_remove_of_ne _ distinct
  | claim other =>
      cases claim with
      | none => rfl
      | some claim =>
          have distinct : other ≠ claim := by simp_all
          exact Table.get_remove_of_ne _ distinct

omit [DecidableEq Claim] in
theorem agreesOff_mint (args : Create) : store.AgreesOff [.pending sid] (store.mint sid args) :=
  (store.agreesOff_persistPending sid _).trans (Store.AgreesOff.refl _ _)

theorem agreesOff_claimPending (claim : Claim) (clientSecret : String) :
    store.AgreesOff [.pending sid, .claim claim]
      (store.claimPending sid claim clientSecret pending) := by
  intro key outside
  cases key with
  | pending other =>
      have distinct : other ≠ sid := by simp_all
      exact Table.get_put_of_ne _ _ distinct
  | claim other =>
      have distinct : other ≠ claim := by simp_all
      exact Table.get_put_of_ne _ _ distinct

theorem agreesOff_refreshPending (claim : Claim) :
    store.AgreesOff [.pending sid, .claim claim] (store.refreshPending sid claim pending) := by
  intro key outside
  cases key with
  | pending other =>
      have distinct : other ≠ sid := by simp_all
      exact Table.get_put_of_ne _ _ distinct
  | claim other =>
      have distinct : other ≠ claim := by simp_all
      exact Table.get_put_of_ne _ _ distinct

theorem agreesOff_spendPending (claim : Option Claim) :
    store.AgreesOff (.pending sid :: claim.toList.map .claim)
      (store.spendPending sid claim pending) := by
  intro key outside
  cases key with
  | pending other =>
      have distinct : other ≠ sid := by simp_all
      exact Table.get_put_of_ne _ _ distinct
  | claim other =>
      cases claim with
      | none => rfl
      | some claim =>
          have distinct : other ≠ claim := by simp_all
          exact Table.get_remove_of_ne _ distinct

end Store

/-- A poll at `phase` that leaves `store'` and `phase'` writes only what the locks it holds or
takes guard, and holds afterwards only such locks. -/
structure Confined (phase : Phase Sid Claim) (store store' : Store Sid Claim)
    (phase' : Phase Sid Claim) : Prop where
  writes : store.AgreesOff (phase.holds ++ phase.awaits.toList) store'
  holds : ∀ key ∈ phase'.holds, key ∈ phase.holds ∨ phase.awaits = some key

namespace Confined

omit [DecidableEq Sid] [DecidableEq Claim]

variable {phase : Phase Sid Claim} {store store' : Store Sid Claim}

theorem unchanged (phase : Phase Sid Claim) (store : Store Sid Claim) :
    Confined phase store store phase :=
  ⟨Store.AgreesOff.refl _ _, fun _ held => .inl held⟩

/-- A poll that returns writes only under the locks it holds. -/
theorem done (writes : store.AgreesOff phase.holds store') (reply : Reply Sid) :
    Confined phase store store' (.done reply) :=
  ⟨writes.mono fun _ held => List.mem_append_left _ held, fun _ held => by cases held⟩

/-- A poll that takes the lock it awaited and writes nothing. -/
theorem acquire {phase' : Phase Sid Claim}
    (taken : ∀ key ∈ phase'.holds, key ∈ phase.holds ∨ phase.awaits = some key) :
    Confined phase store store phase' :=
  ⟨Store.AgreesOff.refl _ _, taken⟩

end Confined

omit [DecidableEq Claim] in
theorem finish_confined {phase : Phase Sid Claim} {store store' : Store Sid Claim} {sid : Sid}
    (held : .pending sid ∈ phase.holds) (writes : store.AgreesOff phase.holds store')
    (resume : Resume Sid) :
    Confined phase store (resume.finish store' sid).1 (resume.finish store' sid).2 := by
  cases resume with
  | mint args =>
      refine Confined.done (writes.trans ((store'.agreesOff_mint sid args).mono ?_)) _
      simpa using held
  | reply answer => exact Confined.done writes answer

theorem deletePendingState_confined {phase : Phase Sid Claim} {store store' : Store Sid Claim}
    {sid : Sid} (held : .pending sid ∈ phase.holds) (writes : store.AgreesOff phase.holds store')
    (pending : Pending Claim) (resume : Resume Sid) :
    Confined phase store (deletePendingState store' sid pending resume).1
      (deletePendingState store' sid pending resume).2 := by
  unfold deletePendingState
  split
  · -- a claimed row waits for its owner's claim lock, holding only the pending lock
    refine ⟨writes.mono fun _ mine => List.mem_append_left _ mine, fun key mine => .inl ?_⟩
    simp only [Phase.holds, List.mem_singleton] at mine
    exact mine ▸ held
  · refine finish_confined held
      (writes.trans ((store'.agreesOff_deletePendingRows sid none).mono ?_)) _
    simpa using held

theorem rejectAttempt_confined {phase : Phase Sid Claim} {store : Store Sid Claim} {sid : Sid}
    (held : .pending sid ∈ phase.holds) (pending : Pending Claim) :
    Confined phase store (rejectAttempt store sid pending).1
      (rejectAttempt store sid pending).2 := by
  have counted : store.AgreesOff phase.holds (store.record (.rejected sid)) :=
    (store.agreesOff_record _).mono fun _ none => by cases none
  dsimp only [rejectAttempt]
  split_ifs
  · exact deletePendingState_confined held counted _ _
  · refine Confined.done (counted.trans ((Store.agreesOff_persistPending _ sid _).mono ?_)) _
    simpa using held

/-! ### Each call keeps to its locks -/

section Calls

variable (store : Store Sid Claim)

theorem createOrReusePending_confined (derive : Medium → String → String → Sid) (args : Create)
    (phase : Phase Sid Claim) :
    Confined phase store (createOrReusePending derive args store phase).1
      (createOrReusePending derive args store phase).2 := by
  cases phase <;> dsimp only [createOrReusePending]
  case start => exact Confined.acquire (by simp [Phase.holds])
  case lockPending sid => exact Confined.acquire (by simp [Phase.holds, Phase.awaits])
  case getPending sid =>
    have held : .pending sid ∈ (Phase.getPending sid : Phase Sid Claim).holds := by
      simp [Phase.holds]
    split
    · exact finish_confined held (.refl _ _) _
    · split_ifs
      · exact deletePendingState_confined held (.refl _ _) _ _
      · exact Confined.done (.refl _ _) _
      · exact Confined.done (.refl _ _) _
      · exact finish_confined held (.refl _ _) _
  all_goals exact Confined.unchanged _ _

theorem validatePendingToken_confined (sid : Sid) (clientSecret token : String)
    (phase : Phase Sid Claim) :
    Confined phase store (validatePendingToken sid clientSecret token store phase).1
      (validatePendingToken sid clientSecret token store phase).2 := by
  cases phase <;> dsimp only [validatePendingToken]
  case start => exact Confined.acquire (by simp [Phase.holds])
  case lockPending sid => exact Confined.acquire (by simp [Phase.holds, Phase.awaits])
  case getPending sid =>
    have held : .pending sid ∈ (Phase.getPending sid : Phase Sid Claim).holds := by
      simp [Phase.holds]
    split
    · exact Confined.done (.refl _ _) _
    · split_ifs
      · exact deletePendingState_confined held (.refl _ _) _ _
      · exact Confined.done (.refl _ _) _
      · exact Confined.done (.refl _ _) _
      · exact Confined.done ((store.agreesOff_persistPending sid _).mono (by simpa using held)) _
      · exact rejectAttempt_confined held _
  all_goals exact Confined.unchanged _ _

theorem claimValidated_confined (sid : Sid) (clientSecret : String) (claim : Claim)
    (phase : Phase Sid Claim) :
    Confined phase store (claimValidated sid clientSecret claim store phase).1
      (claimValidated sid clientSecret claim store phase).2 := by
  cases phase <;> dsimp only [claimValidated]
  case start => exact Confined.acquire (by simp [Phase.holds])
  case lockPending sid => exact Confined.acquire (by simp [Phase.holds, Phase.awaits])
  case getPending sid =>
    have held : .pending sid ∈ (Phase.getPending sid : Phase Sid Claim).holds := by
      simp [Phase.holds]
    split
    · exact Confined.done (.refl _ _) _
    · split_ifs
      · exact deletePendingState_confined held (.refl _ _) _ _
      · exact Confined.done (.refl _ _) _
      · exact Confined.done (.refl _ _) _
      · -- an available row, or one this claim owns, goes on to the claim lock
        split
        · exact Confined.acquire (by simp [Phase.holds])
        · split_ifs
          · exact Confined.acquire (by simp [Phase.holds])
          · exact Confined.done (.refl _ _) _
        · exact Confined.done (.refl _ _) _
  case lockClaim sid claim pending => exact Confined.acquire (by simp [Phase.holds, Phase.awaits])
  case claimSid sid claim pending =>
    split_ifs
    · exact Confined.done (.refl _ _) _
    · exact Confined.done ((store.agreesOff_claimPending sid pending claim clientSecret).mono
        (by simp [Phase.holds])) _
  all_goals exact Confined.unchanged _ _

theorem refreshClaim_confined (claim : Claim) (phase : Phase Sid Claim) :
    Confined phase store (refreshClaim claim store phase).1 (refreshClaim claim store phase).2 := by
  cases phase <;> dsimp only [refreshClaim]
  case start =>
    split
    · exact Confined.done (.refl _ _) _
    · exact Confined.acquire (by simp [Phase.holds])
  case lockPending sid => exact Confined.acquire (by simp [Phase.holds, Phase.awaits])
  case relockClaim sid claim => exact Confined.acquire (by simp [Phase.holds, Phase.awaits])
  case recheckClaim sid claim =>
    split_ifs
    · exact Confined.done (.refl _ _) _
    · exact Confined.acquire (by simp [Phase.holds])
  case getClaimed sid claim =>
    split
    · exact Confined.done ((store.agreesOff_deleteClaimIndex claim).mono
        (by simp [Phase.holds])) _
    · split_ifs
      · exact Confined.done ((store.agreesOff_deletePendingRows sid (some claim)).mono
          (by simp [Phase.holds])) _
      · exact Confined.done ((store.agreesOff_deleteClaimIndex claim).mono
          (by simp [Phase.holds])) _
      · exact Confined.done ((store.agreesOff_refreshPending sid _ claim).mono
          (by simp [Phase.holds])) _
  all_goals exact Confined.unchanged _ _

theorem redeemClaim_confined (claim : Claim) (phase : Phase Sid Claim) :
    Confined phase store (redeemClaim claim store phase).1 (redeemClaim claim store phase).2 := by
  cases phase <;> dsimp only [redeemClaim]
  case start =>
    split
    · exact Confined.done (.refl _ _) _
    · exact Confined.acquire (by simp [Phase.holds])
  case lockPending sid => exact Confined.acquire (by simp [Phase.holds, Phase.awaits])
  case relockClaim sid claim => exact Confined.acquire (by simp [Phase.holds, Phase.awaits])
  case recheckClaim sid claim =>
    split
    · exact Confined.done (.refl _ _) _
    · split_ifs
      · exact Confined.done (.refl _ _) _
      · exact Confined.acquire (by simp [Phase.holds])
  case getClaimed sid claim =>
    split
    · exact Confined.done ((store.agreesOff_deleteClaimIndex claim).mono
        (by simp [Phase.holds])) _
    · split_ifs
      · exact Confined.done ((store.agreesOff_deletePendingRows sid (some claim)).mono
          (by simp [Phase.holds])) _
      · exact Confined.done ((store.agreesOff_deleteClaimIndex claim).mono
          (by simp [Phase.holds])) _
      · exact Confined.done ((store.agreesOff_spendPending sid _ (some claim)).mono
          (by simp [Phase.holds])) _
  all_goals exact Confined.unchanged _ _

theorem redeemValidated_confined (sid : Sid) (clientSecret : String) (phase : Phase Sid Claim) :
    Confined phase store (redeemValidated sid clientSecret store phase).1
      (redeemValidated sid clientSecret store phase).2 := by
  cases phase <;> dsimp only [redeemValidated]
  case start => exact Confined.acquire (by simp [Phase.holds])
  case lockPending sid => exact Confined.acquire (by simp [Phase.holds, Phase.awaits])
  case getPending sid =>
    have held : .pending sid ∈ (Phase.getPending sid : Phase Sid Claim).holds := by
      simp [Phase.holds]
    split
    · exact Confined.done (.refl _ _) _
    · split_ifs
      · exact deletePendingState_confined held (.refl _ _) _ _
      · exact Confined.done (.refl _ _) _
      · exact Confined.done (.refl _ _) _
      · exact Confined.done (.refl _ _) _
      · exact Confined.done ((store.agreesOff_spendPending sid _ none).mono
          (by simp [Phase.holds])) _
  all_goals exact Confined.unchanged _ _

omit [DecidableEq Sid] in
theorem sessionValidated_confined (sid : Sid) (clientSecret : String) (phase : Phase Sid Claim) :
    Confined phase store (sessionValidated sid clientSecret store phase).1
      (sessionValidated sid clientSecret store phase).2 := by
  cases phase <;> dsimp only [sessionValidated]
  case start =>
    split <;> exact Confined.done (.refl _ _) _
  all_goals exact Confined.unchanged _ _

theorem Request.resume_confined (derive : Medium → String → String → Sid)
    (request : Request Sid Claim) (phase : Phase Sid Claim) :
    Confined phase store (request.resume derive store phase).1
      (request.resume derive store phase).2 := by
  cases request with
  | createOrReusePending args => exact createOrReusePending_confined store derive args phase
  | validatePendingToken sid clientSecret token =>
      exact validatePendingToken_confined store sid clientSecret token phase
  | claimValidated sid clientSecret claim =>
      exact claimValidated_confined store sid clientSecret claim phase
  | refreshClaim claim => exact refreshClaim_confined store claim phase
  | redeemClaim claim => exact redeemClaim_confined store claim phase
  | redeemValidated sid clientSecret => exact redeemValidated_confined store sid clientSecret phase
  | sessionValidated sid clientSecret => exact sessionValidated_confined store sid clientSecret phase

/-- Every poll writes only under the locks it holds or takes, and takes at most the one it
awaited. -/
theorem Task.advance_confined (derive : Medium → String → String → Sid) (task : Task Sid Claim) :
    Confined task.phase store (task.advance derive store).1 (task.advance derive store).2 := by
  obtain ⟨request, phase⟩ := task
  cases phase <;> dsimp only [Task.advance]
  case deleteLockClaim sid owner resume =>
    exact Confined.acquire (by simp [Phase.holds, Phase.awaits])
  case deleteClaimSid sid owner resume =>
    have held : .pending sid ∈ (Phase.deleteClaimSid sid owner resume).holds := by
      simp [Phase.holds]
    refine finish_confined held ((store.agreesOff_deletePendingRows sid _).mono ?_) _
    split_ifs <;> simp [Phase.holds]
  all_goals exact Request.resume_confined store derive request _

end Calls

/-! ### The laws of the program -/

/-- `pending_mutex` keys come before `claim_mutex` keys. -/
def Key.level : Key Sid Claim → Nat
  | .pending _ => 0
  | .claim _ => 1

variable (derive : Medium → String → String → Sid)

theorem program_disciplined : Interleaving.Disciplined (program derive : Interleaving.Program
    (Store Sid Claim) (Task Sid Claim) (Key Sid Claim) Nat) where
  resume_holds store task key held := (task.advance_confined store derive).holds key held
  cancel_holds _ := rfl

theorem program_guards : Interleaving.Guards (program derive : Interleaving.Program
    (Store Sid Claim) (Task Sid Claim) (Key Sid Claim) Nat) Store.guarded where
  resume_view store task key changed := by
    by_contra outside
    simp only [program, not_or] at outside
    refine changed ((task.advance_confined store derive).writes key ?_)
    simpa [Option.mem_def] using outside
  env_view store seconds ticked moved key := by
    obtain rfl := Option.some.inj moved
    cases key <;> rfl

/-- Every call takes `pending_mutex` before `claim_mutex`, and awaits `pending_mutex` holding
nothing. -/
theorem program_ordered : Interleaving.Ordered (program derive : Interleaving.Program
    (Store Sid Claim) (Task Sid Claim) (Key Sid Claim) Nat) Key.level := by
  intro task key awaits held mine
  obtain ⟨request, phase⟩ := task
  cases phase <;> simp [program, Phase.awaits, Phase.holds] at awaits mine <;>
    simp [← awaits, mine, Key.level]

end Threepid
end Tuwunel
