import Mathlib
import Tuwunel.Library.StepRun
import Tuwunel.Core.Identifiers

/-!
# Upgrading an outlier to a timeline event

`upgrade_outlier_to_timeline_pdu` checks an incoming event against the state at the event, asks
whether it must be soft-failed (a redaction its sender may not make, or a policy server verdict of
`Invalid`), then locks the room's state mutex, checks the event against the room's current state,
and appends it: accepted, as a forward extremity and, for a state event, into the current state;
or soft-failed, as neither.

Calls run concurrently.  A call is three atomic steps: everything before the lock, the lock with
the current-state check, and the append that releases the lock.  Other writers of the current
state hold the same mutex; they are one atomic step that needs it free.  Every lookup of a call
(state at the event, redaction rights, policy verdict, pruning, new room state, the append's own
failures) returns what its `Outcomes` say, and `auth_check` is a parameter.

The lock is what makes the current-state check count: while a call holds it, the current state is
the one it checked (`Invariant.checked_current`), so an accepted event passed `auth_check` against
the current state of the moment it was appended.
-/

namespace Tuwunel
namespace EventHandler

/-- `PolicyCheck`, the policy server's verdict. -/
inductive PolicyCheck
  | notApplicable
  | pass
  | missing
  | invalid
  deriving DecidableEq, Repr

/-- The fields of an incoming PDU the upgrade reads. -/
structure Pdu where
  eventId : EventId
  kind : String
  stateKey : Option String
  prevEvents : List EventId
  /-- The top-level `redacts`. -/
  redacts : Option EventId
  /-- The `redacts` of the content, where the content parses as a redaction's. -/
  contentRedacts : Option EventId
  deriving DecidableEq, Repr

/-- `redacts_id`: the event a redaction redacts, taken from the content under rules with
`content_field_redacts`. -/
def Pdu.redactsId (pdu : Pdu) (contentFieldRedacts : Bool) : Option EventId :=
  if pdu.kind ≠ "m.room.redaction" then none
  else if contentFieldRedacts then pdu.contentRedacts
  else pdu.redacts

/-- The errors of an upgrade. -/
inductive Error
  /-- `check_rules` refused the event's format. -/
  | format
  /-- The positional `auth_check` refused the event. -/
  | positionalAuth
  /-- A lookup failed. -/
  | lookup (source : String)
  deriving DecidableEq, Repr

/-- `RawPduId`. -/
abbrev RawPduId := Nat

/-- What the lookups of one call return; `σ` is the type of room states. -/
structure Outcomes (σ : Type) where
  /-- `check_rules` passed. -/
  formatOk : Bool
  /-- `is_suppressed(Upgrade, ..)` denies a re-evaluation. -/
  suppressed : Bool
  /-- `resolve_state_at_incoming_event`. -/
  stateAtEvent : Except Error σ
  /-- `user_can_redact` for the redacted event. -/
  userCanRedact : Except Error Bool
  /-- `verify_or_fetch_inbound_policy_signature`. -/
  policy : PolicyCheck
  /-- The extremities `prune_forward_extremities` keeps. -/
  prune : List EventId → List EventId
  /-- Pruning keeps only extremities it was given, in any order; `select_subset_of_perm` proves
  it of `select`. -/
  prune_subset : ∀ extremities, prune extremities ⊆ extremities
  /-- `resolve_state` of the state after the event. -/
  newRoomState : Except Error σ
  /-- `append_incoming_pdu`'s own failure, or the id it assigns. -/
  append : Except Error RawPduId

/-- The room version's `content_field_redacts` and the configured `forward_extremities_max`. -/
structure Settings where
  contentFieldRedacts : Bool
  forwardExtremitiesMax : Nat
  deriving DecidableEq, Repr

/-- `Standing`. -/
inductive Standing
  | evaluate (cleared : Bool)
  | withheld
  deriving DecidableEq, Repr

/-- How far a call got. -/
inductive Phase (σ : Type)
  | start
  /-- Checked against the state at the event, waiting for the room's state mutex. -/
  | waiting (stateAtEvent : σ) (cleared softFailPre : Bool)
  /-- Holding the mutex, checked against the current state `current`. -/
  | checked (stateAtEvent : σ) (cleared softFailPre : Bool) (current : σ)
      (softFailCurrentState : Bool)
  | done (result : Except Error (Option (RawPduId × Bool)))

/-- One call of `upgrade_outlier_to_timeline_pdu`. -/
structure Call (σ : Type) where
  pdu : Pdu
  outcomes : Outcomes σ
  phase : Phase σ

/-- A record of one append, with what the appending call saw. -/
structure Entry (σ : Type) where
  call : Nat
  pdu : Pdu
  outcomes : Outcomes σ
  softFail : Bool
  stateAtEvent : σ
  currentAtAppend : σ
  currentAfter : σ
  extremitiesBefore : List EventId
  extremitiesAfter : List EventId

/-- One room: its current state, forward extremities, referenced and soft-failed events, timeline,
the holder of its state mutex, the calls in flight and the record of appends. -/
structure World (σ : Type) where
  current : σ
  extremities : List EventId
  referenced : List EventId
  softFailed : List EventId
  timeline : List (EventId × RawPduId)
  holder : Option Nat
  calls : List (Call σ)
  log : List (Entry σ)

/-- The scheduler's choices. -/
inductive Action (σ : Type)
  /-- The call numbered `call` runs up to the lock. -/
  | begin (call : Nat)
  /-- It takes the state mutex and checks the current state. -/
  | lock (call : Nat)
  /-- It appends and releases the mutex. -/
  | append (call : Nat)
  /-- Another writer takes the free mutex, writes the current state and extremities, releases. -/
  | external (current : σ) (extremities : List EventId)

section Model

variable {σ : Type} (settings : Settings) (authCheck : Pdu → σ → Bool)

/-- `compute_soft_fail`. -/
def computeSoftFail (pdu : Pdu) (outcomes : Outcomes σ) : Except Error Bool := do
  let softFailRedact ←
    match pdu.redactsId settings.contentFieldRedacts with
    | none => pure false
    | some _ => (fun allowed => !allowed) <$> outcomes.userCanRedact
  pure (softFailRedact || outcomes.policy == .invalid)

/-- `soft_fail_standing`. -/
def softFailStanding (softFailed : List EventId) (pdu : Pdu) (outcomes : Outcomes σ) :
    Except Error Standing :=
  if pdu.eventId ∉ softFailed then pure (.evaluate false)
  else if outcomes.suppressed then pure .withheld
  else do
    let softFail ← computeSoftFail settings pdu outcomes
    pure (if softFail then .withheld else .evaluate true)

/-- `upgrade_outlier_to_timeline_pdu` up to the lock. -/
def upgradeBegin (world : World σ) (pdu : Pdu) (outcomes : Outcomes σ) : Phase σ :=
  match world.timeline.lookup pdu.eventId with
  | some pduId => .done (.ok (some (pduId, false)))
  | none =>
    if !outcomes.formatOk then .done (.error .format)
    else
      match softFailStanding settings world.softFailed pdu outcomes with
      | .error error => .done (.error error)
      | .ok .withheld => .done (.ok none)
      | .ok (.evaluate cleared) =>
        match outcomes.stateAtEvent with
        | .error error => .done (.error error)
        | .ok stateAtEvent =>
          if !authCheck pdu stateAtEvent then .done (.error .positionalAuth)
          else
            match (if cleared then pure false else computeSoftFail settings pdu outcomes) with
            | .error error => .done (.error error)
            | .ok softFailPre => .waiting stateAtEvent cleared softFailPre

/-- `compute_remaining_extremities`. -/
def remainingExtremities (world : World σ) (pdu : Pdu) : List EventId :=
  (world.extremities.filter fun event => event ∉ pdu.prevEvents).filter fun event =>
    event ∉ world.referenced

/-- The extremities kept before the append, pruned over the cap. -/
def keptExtremities (world : World σ) (pdu : Pdu) (outcomes : Outcomes σ) (softFail : Bool) :
    List EventId :=
  let remaining := remainingExtremities world pdu
  let len := remaining.length + if softFail then 0 else 1
  let max := settings.forwardExtremitiesMax
  if 0 < max ∧ max < len then outcomes.prune remaining else remaining

/-- Taking the state mutex, then `current_state_auth_passes`. -/
def lockAndCheck (world : World σ) (index : Nat) : Option (World σ) :=
  match world.holder, world.calls[index]? with
  | none, some ⟨pdu, outcomes, .waiting stateAtEvent cleared softFailPre⟩ =>
      some { world with
        holder := some index
        calls := world.calls.set index
          ⟨pdu, outcomes, .checked stateAtEvent cleared softFailPre world.current
            (!authCheck pdu world.current)⟩ }
  | _, _ => none

/-- The rest of `upgrade_outlier_to_timeline_pdu` under the lock: forcing the new state of an
accepted state event, `append_incoming_pdu`, the soft-fail marks, and the release. -/
def appendUpgrade (world : World σ) (index : Nat) : Option (World σ) :=
  match world.holder, world.calls[index]? with
  | some holder, some ⟨pdu, outcomes, .checked stateAtEvent cleared softFailPre _ softFailCurrentState⟩ =>
    if holder ≠ index then none
    else
      let softFail := softFailPre || softFailCurrentState
      let extremities := keptExtremities settings world pdu outcomes softFail
      let release := fun (result : Except Error (Option (RawPduId × Bool))) =>
        world.calls.set index ⟨pdu, outcomes, .done result⟩
      let forced :=
        if pdu.stateKey.isSome ∧ softFail = false then outcomes.newRoomState else .ok world.current
      match forced with
      | .error error => some { world with holder := none, calls := release (.error error) }
      | .ok current =>
        match outcomes.append with
        | .error error =>
            some { world with current, holder := none, calls := release (.error error) }
        | .ok pduId =>
          let leafs :=
            if softFail then (if extremities.isEmpty then world.extremities else extremities)
            else extremities ++ [pdu.eventId]
          let entry : Entry σ :=
            { call := index, pdu, outcomes, softFail, stateAtEvent
              currentAtAppend := world.current, currentAfter := current
              extremitiesBefore := world.extremities, extremitiesAfter := leafs }
          some { world with
            current
            extremities := leafs
            referenced := world.referenced ++ pdu.prevEvents
            softFailed :=
              if softFail then pdu.eventId :: world.softFailed
              else if cleared then world.softFailed.erase pdu.eventId else world.softFailed
            timeline := if softFail then world.timeline else world.timeline ++ [(pdu.eventId, pduId)]
            holder := none
            calls := release (.ok (if softFail then none else some (pduId, true)))
            log := world.log ++ [entry] }
  | _, _ => none

/-- One step of the room. -/
def step (world : World σ) : Action σ → Option (World σ)
  | .begin index =>
      match world.calls[index]? with
      | some ⟨pdu, outcomes, .start⟩ =>
          some { world with
            calls := world.calls.set index ⟨pdu, outcomes, upgradeBegin settings authCheck world pdu outcomes⟩ }
      | _ => none
  | .lock index => lockAndCheck authCheck world index
  | .append index => appendUpgrade settings world index
  | .external current extremities =>
      if world.holder = none then some { world with current, extremities } else none

end Model

/-! ## What each step can do -/

section Steps

variable {σ : Type} {settings : Settings} {authCheck : Pdu → σ → Bool}

/-- `compute_soft_fail` clears an event exactly when the redaction it makes, if it names one, is
allowed and the policy verdict is not `Invalid`. -/
theorem computeSoftFail_eq_ok_false {pdu : Pdu} {outcomes : Outcomes σ} :
    computeSoftFail settings pdu outcomes = .ok false ↔
      (∀ target, pdu.redactsId settings.contentFieldRedacts = some target →
        outcomes.userCanRedact = .ok true) ∧ outcomes.policy ≠ .invalid := by
  unfold computeSoftFail
  cases pdu.redactsId settings.contentFieldRedacts with
  | none => cases outcomes.policy <;> simp [pure, Except.pure, bind, Except.bind]
  | some target =>
      cases outcomes.userCanRedact with
      | error error => simp [bind, Except.bind, Functor.map, Except.map]
      | ok allowed =>
          cases allowed <;> cases outcomes.policy <;>
            simp [pure, Except.pure, bind, Except.bind, Functor.map, Except.map]

theorem softFailStanding_evaluate_true {softFailed : List EventId} {pdu : Pdu}
    {outcomes : Outcomes σ}
    (cleared : softFailStanding settings softFailed pdu outcomes = .ok (.evaluate true)) :
    computeSoftFail settings pdu outcomes = .ok false := by
  unfold softFailStanding at cleared
  by_cases marked : pdu.eventId ∈ softFailed
  · by_cases suppressed : outcomes.suppressed = true
    · simp [marked, suppressed, pure, Except.pure] at cleared
    · cases computed : computeSoftFail settings pdu outcomes with
      | error error => simp [marked, suppressed, computed, bind, Except.bind] at cleared
      | ok softFail =>
          cases softFail
          · rfl
          · simp [marked, suppressed, computed, bind, Except.bind, pure, Except.pure] at cleared
  · simp [marked, pure, Except.pure] at cleared

/-- Before the lock, a call either returns, never with an accepted event, or waits for the lock
having passed the check against the state at the event and, unless soft-failing, the redaction
and policy checks. -/
theorem upgradeBegin_cases (world : World σ) (pdu : Pdu) (outcomes : Outcomes σ) :
    (∃ result, upgradeBegin settings authCheck world pdu outcomes = .done result ∧
      ∀ pduId, result ≠ .ok (some (pduId, true))) ∨
    ∃ stateAtEvent cleared softFailPre,
      upgradeBegin settings authCheck world pdu outcomes =
        .waiting stateAtEvent cleared softFailPre ∧
      authCheck pdu stateAtEvent = true ∧
      (softFailPre = false → computeSoftFail settings pdu outcomes = .ok false) := by
  unfold upgradeBegin
  cases world.timeline.lookup pdu.eventId with
  | some pduId => exact .inl ⟨_, rfl, by simp⟩
  | none =>
  cases formatted : outcomes.formatOk
  · exact .inl ⟨.error .format, by simp, by simp⟩
  cases standing : softFailStanding settings world.softFailed pdu outcomes with
  | error error => exact .inl ⟨.error error, by simp, by simp⟩
  | ok standingValue =>
  cases standingValue with
  | withheld => exact .inl ⟨.ok none, by simp, by simp⟩
  | evaluate cleared =>
  cases resolved : outcomes.stateAtEvent with
  | error error => exact .inl ⟨.error error, by simp, by simp⟩
  | ok stateAtEvent =>
  cases authorised : authCheck pdu stateAtEvent
  · exact .inl ⟨.error .positionalAuth, by simp [authorised], by simp⟩
  cases computed : (if cleared then pure false else computeSoftFail settings pdu outcomes) with
  | error error =>
      exact .inl ⟨.error error, by simp [authorised, computed], by simp⟩
  | ok softFailPre =>
  refine .inr ⟨stateAtEvent, cleared, softFailPre, by simp [authorised, computed],
    authorised, fun passed => ?_⟩
  subst passed
  cases cleared
  · simpa using computed
  · exact softFailStanding_evaluate_true standing

theorem keptExtremities_subset (world : World σ) (pdu : Pdu) (outcomes : Outcomes σ)
    (softFail : Bool) : keptExtremities settings world pdu outcomes softFail ⊆ world.extremities := by
  have remaining : remainingExtremities world pdu ⊆ world.extremities := fun event kept => by
    simp only [remainingExtremities, List.mem_filter] at kept
    exact kept.1.1
  dsimp only [keptExtremities]
  generalize (remainingExtremities world pdu).length + (if softFail = true then 0 else 1) = len
  split_ifs
  · exact List.Subset.trans (outcomes.prune_subset _) remaining
  · exact remaining

/-- An append is made by the holder of the mutex from its checked phase; it releases the mutex
and either fails, recording nothing, or records what it did. -/
theorem appendUpgrade_cases {world world' : World σ} {index : Nat}
    (appended : appendUpgrade settings world index = some world') :
    ∃ pdu outcomes stateAtEvent cleared softFailPre current softFailCurrentState,
      world.holder = some index ∧
      world.calls[index]? = some ⟨pdu, outcomes,
        .checked stateAtEvent cleared softFailPre current softFailCurrentState⟩ ∧
      world'.holder = none ∧
      ((∃ error, world'.calls = world.calls.set index ⟨pdu, outcomes, .done (.error error)⟩ ∧
          world'.log = world.log) ∨
        ∃ entry pduId, world'.log = world.log ++ [entry] ∧
          world'.calls = world.calls.set index
            ⟨pdu, outcomes, .done (.ok (if entry.softFail then none else some (pduId, true)))⟩ ∧
          entry.call = index ∧ entry.pdu = pdu ∧ entry.outcomes = outcomes ∧
          entry.softFail = (softFailPre || softFailCurrentState) ∧
          entry.stateAtEvent = stateAtEvent ∧ entry.currentAtAppend = world.current ∧
          entry.extremitiesBefore = world.extremities ∧
          (entry.softFail = true →
            entry.currentAfter = world.current ∧ entry.extremitiesAfter ⊆ world.extremities) ∧
          (entry.softFail = false → pdu.eventId ∈ entry.extremitiesAfter)) := by
  unfold appendUpgrade at appended
  split at appended
  · rename_i holder pdu outcomes stateAtEvent cleared softFailPre current softFailCurrentState
      holding called
    by_cases other : holder = index
    swap
    · simp [other] at appended
    subst other
    rw [if_neg (fun distinct => distinct rfl)] at appended
    refine ⟨pdu, outcomes, stateAtEvent, cleared, softFailPre, current, softFailCurrentState,
      holding, called, ?_⟩
    have kept := @keptExtremities_subset _ settings world pdu outcomes
      (softFailPre || softFailCurrentState)
    by_cases forcing : pdu.stateKey.isSome = true ∧ (softFailPre || softFailCurrentState) = false
    · cases forced : outcomes.newRoomState with
      | error error =>
          simp only [forcing, forced, and_self, if_true] at appended
          cases appended
          exact ⟨rfl, .inl ⟨_, rfl, rfl⟩⟩
      | ok newCurrent =>
          cases appendedId : outcomes.append with
          | error error =>
              simp only [forcing, forced, appendedId, and_self, if_true] at appended
              cases appended
              exact ⟨rfl, .inl ⟨_, rfl, rfl⟩⟩
          | ok pduId =>
              simp only [forcing, forced, appendedId, and_self, if_true] at appended
              cases appended
              refine ⟨rfl, .inr ⟨_, pduId, rfl, ?_, rfl, rfl, rfl, forcing.2.symm, rfl, rfl, rfl, ?_,
                ?_⟩⟩
              · simp
              · intro softFailed
                simp at softFailed
              · simp
    · cases appendedId : outcomes.append with
      | error error =>
          simp only [forcing, appendedId, if_false] at appended
          cases appended
          exact ⟨rfl, .inl ⟨_, rfl, rfl⟩⟩
      | ok pduId =>
          simp only [forcing, appendedId, if_false] at appended
          cases appended
          refine ⟨rfl, .inr ⟨_, pduId, rfl, rfl, rfl, rfl, rfl, rfl, rfl, rfl, rfl, ?_, ?_⟩⟩
          · intro softFailed
            simp only at softFailed
            refine ⟨rfl, ?_⟩
            simp only [softFailed, if_true]
            split_ifs
            · exact List.Subset.refl _
            · exact softFailed ▸ kept
          · intro accepted
            simp only at accepted
            simp [accepted]
  · cases appended

end Steps

/-! ## Invariants over every interleaving -/

section Invariant

variable {σ : Type} (settings : Settings) (authCheck : Pdu → σ → Bool)

/-- The current state a call checked against, while it holds the lock. -/
def Phase.checkedAgainst : Phase σ → Option σ
  | .checked _ _ _ current _ => some current
  | _ => none

/-- What a call's phase records about the checks it passed. -/
def PhaseOk (call : Call σ) : Prop :=
  match call.phase with
  | .waiting stateAtEvent _ softFailPre =>
      authCheck call.pdu stateAtEvent = true ∧
        (softFailPre = false → computeSoftFail settings call.pdu call.outcomes = .ok false)
  | .checked stateAtEvent _ softFailPre current softFailCurrentState =>
      authCheck call.pdu stateAtEvent = true ∧
        (softFailPre = false → computeSoftFail settings call.pdu call.outcomes = .ok false) ∧
        softFailCurrentState = !authCheck call.pdu current
  | _ => True

/-- What an append guarantees: an accepted event passed every check and became an extremity; a
soft-failed one added no extremity and left the current state alone. -/
def EntryOk (entry : Entry σ) : Prop :=
  (entry.softFail = false →
    authCheck entry.pdu entry.stateAtEvent = true ∧
      authCheck entry.pdu entry.currentAtAppend = true ∧
      computeSoftFail settings entry.pdu entry.outcomes = .ok false ∧
      entry.pdu.eventId ∈ entry.extremitiesAfter) ∧
  (entry.softFail = true →
    entry.extremitiesAfter ⊆ entry.extremitiesBefore ∧ entry.currentAfter = entry.currentAtAppend)

/-- The invariant of the room: phases are what their checks made them, a call that checked the
current state holds the lock and the state has not moved, appends are `EntryOk`, and a call that
returned an accepted event recorded an accepted append. -/
structure Invariant (world : World σ) : Prop where
  phases : ∀ (index : Nat) call, world.calls[index]? = some call → PhaseOk settings authCheck call
  checked : ∀ (index : Nat) call current, world.calls[index]? = some call →
    call.phase.checkedAgainst = some current → world.holder = some index ∧ world.current = current
  entries : ∀ entry ∈ world.log, EntryOk settings authCheck entry
  accepted : ∀ (index : Nat) call pduId, world.calls[index]? = some call →
    call.phase = .done (.ok (some (pduId, true))) →
    ∃ entry ∈ world.log, entry.call = index ∧ entry.softFail = false

/-- A room before any call ran. -/
structure World.Fresh (world : World σ) : Prop where
  holder_eq : world.holder = none
  log_eq : world.log = []
  calls_start : ∀ call ∈ world.calls, call.phase = .start

private theorem getElem?_set_eq_some_cases {α : Type} {list : List α} {index other : Nat}
    {value found : α} (lookup : (list.set index value)[other]? = some found) :
    (other = index ∧ found = value) ∨ (other ≠ index ∧ list[other]? = some found) := by
  rw [List.getElem?_set] at lookup
  split_ifs at lookup with same
  · exact .inl ⟨same.symm, (Option.some.inj lookup).symm⟩
  · exact .inr ⟨Ne.symm same, lookup⟩

variable {settings authCheck}

theorem invariant_fresh {world : World σ} (fresh : world.Fresh) :
    Invariant settings authCheck world where
  phases index call lookup := by
    simp [PhaseOk, fresh.calls_start call (List.mem_of_getElem? lookup)]
  checked index call current lookup against := by
    simp [Phase.checkedAgainst, fresh.calls_start call (List.mem_of_getElem? lookup)] at against
  entries entry logged := by simp [fresh.log_eq] at logged
  accepted index call pduId lookup returned := by
    simp [fresh.calls_start call (List.mem_of_getElem? lookup)] at returned

theorem phaseOk_upgradeBegin (world : World σ) (pdu : Pdu) (outcomes : Outcomes σ) :
    PhaseOk settings authCheck ⟨pdu, outcomes, upgradeBegin settings authCheck world pdu outcomes⟩ := by
  obtain ⟨result, begun, -⟩ | ⟨stateAtEvent, cleared, softFailPre, begun, authorised, clear⟩ :=
    @upgradeBegin_cases _ settings authCheck world pdu outcomes
  · simp [PhaseOk, begun]
  · simp only [PhaseOk, begun]
    exact ⟨authorised, clear⟩

theorem checkedAgainst_upgradeBegin (world : World σ) (pdu : Pdu) (outcomes : Outcomes σ) :
    (upgradeBegin settings authCheck world pdu outcomes).checkedAgainst = none := by
  obtain ⟨result, begun, -⟩ | ⟨stateAtEvent, cleared, softFailPre, begun, -, -⟩ :=
    @upgradeBegin_cases _ settings authCheck world pdu outcomes
  all_goals simp [Phase.checkedAgainst, begun]

theorem upgradeBegin_ne_accepted (world : World σ) (pdu : Pdu) (outcomes : Outcomes σ)
    (pduId : RawPduId) :
    upgradeBegin settings authCheck world pdu outcomes ≠ .done (.ok (some (pduId, true))) := by
  obtain ⟨result, begun, notAccepted⟩ | ⟨stateAtEvent, cleared, softFailPre, begun, -, -⟩ :=
    @upgradeBegin_cases _ settings authCheck world pdu outcomes
  · rw [begun]
    exact fun returned => notAccepted pduId (Phase.done.inj returned)
  · simp [begun]

theorem invariant_begin {world world' : World σ} {index : Nat}
    (invariant : Invariant settings authCheck world)
    (stepped : step settings authCheck world (.begin index) = some world') :
    Invariant settings authCheck world' := by
  simp only [step] at stepped
  split at stepped
  · rename_i pdu outcomes called
    cases stepped
    constructor
    · intro other call lookup
      rcases getElem?_set_eq_some_cases lookup with ⟨-, rfl⟩ | ⟨-, old⟩
      · exact phaseOk_upgradeBegin world pdu outcomes
      · exact invariant.phases other call old
    · intro other call current lookup against
      rcases getElem?_set_eq_some_cases lookup with ⟨-, rfl⟩ | ⟨-, old⟩
      · simp [checkedAgainst_upgradeBegin] at against
      · exact invariant.checked other call current old against
    · exact invariant.entries
    · intro other call pduId lookup returned
      rcases getElem?_set_eq_some_cases lookup with ⟨-, rfl⟩ | ⟨-, old⟩
      · exact absurd returned (upgradeBegin_ne_accepted world pdu outcomes pduId)
      · exact invariant.accepted other call pduId old returned
  · cases stepped

theorem invariant_lock {world world' : World σ} {index : Nat}
    (invariant : Invariant settings authCheck world)
    (stepped : step settings authCheck world (.lock index) = some world') :
    Invariant settings authCheck world' := by
  simp only [step, lockAndCheck] at stepped
  split at stepped
  · rename_i pdu outcomes stateAtEvent cleared softFailPre free called
    cases stepped
    constructor
    · intro other call lookup
      rcases getElem?_set_eq_some_cases lookup with ⟨-, rfl⟩ | ⟨-, old⟩
      · obtain ⟨authorised, clear⟩ := invariant.phases index _ called
        exact ⟨authorised, clear, rfl⟩
      · exact invariant.phases other call old
    · intro other call current lookup against
      rcases getElem?_set_eq_some_cases lookup with ⟨same, rfl⟩ | ⟨-, old⟩
      · simp only [Phase.checkedAgainst, Option.some.injEq] at against
        exact ⟨congrArg some same.symm, against⟩
      · have holding := (invariant.checked other call current old against).1
        rw [free] at holding
        cases holding
    · exact invariant.entries
    · intro other call pduId lookup returned
      rcases getElem?_set_eq_some_cases lookup with ⟨-, rfl⟩ | ⟨-, old⟩
      · cases returned
      · exact invariant.accepted other call pduId old returned
  · cases stepped

theorem invariant_append {world world' : World σ} {index : Nat}
    (invariant : Invariant settings authCheck world)
    (stepped : step settings authCheck world (.append index) = some world') :
    Invariant settings authCheck world' := by
  obtain ⟨pdu, outcomes, stateAtEvent, cleared, softFailPre, current, softFailCurrentState,
    holding, called, released, outcome⟩ := appendUpgrade_cases stepped
  have others : ∀ (other : Nat) call currentOther, other ≠ index →
      world.calls[other]? = some call → call.phase.checkedAgainst ≠ some currentOther := by
    intro other call currentOther distinct old against
    have holdingOther := (invariant.checked other call currentOther old against).1
    rw [holding] at holdingOther
    exact distinct (Option.some.inj holdingOther).symm
  obtain ⟨authorised, clear, checkedCurrent⟩ := invariant.phases index _ called
  have unmoved : world.current = current :=
    (invariant.checked index _ current called (by simp [Phase.checkedAgainst])).2
  rcases outcome with ⟨error, calls, logged⟩ | ⟨entry, pduId, logged, calls, entryCall, entryPdu,
    entryOutcomes, entrySoftFail, entryState, entryCurrent, entryBefore, softFailed, accepted⟩
  · constructor
    · intro other call lookup
      rw [calls] at lookup
      rcases getElem?_set_eq_some_cases lookup with ⟨-, rfl⟩ | ⟨-, old⟩
      · simp [PhaseOk]
      · exact invariant.phases other call old
    · intro other call currentOther lookup against
      rw [calls] at lookup
      rcases getElem?_set_eq_some_cases lookup with ⟨-, rfl⟩ | ⟨distinct, old⟩
      · simp [Phase.checkedAgainst] at against
      · exact absurd against (others other call currentOther distinct old)
    · rw [logged]
      exact invariant.entries
    · intro other call pduIdOther lookup returned
      rw [calls] at lookup
      rcases getElem?_set_eq_some_cases lookup with ⟨-, rfl⟩ | ⟨-, old⟩
      · cases returned
      · rw [logged]
        exact invariant.accepted other call pduIdOther old returned
  · constructor
    · intro other call lookup
      rw [calls] at lookup
      rcases getElem?_set_eq_some_cases lookup with ⟨-, rfl⟩ | ⟨-, old⟩
      · simp [PhaseOk]
      · exact invariant.phases other call old
    · intro other call currentOther lookup against
      rw [calls] at lookup
      rcases getElem?_set_eq_some_cases lookup with ⟨-, rfl⟩ | ⟨distinct, old⟩
      · simp [Phase.checkedAgainst] at against
      · exact absurd against (others other call currentOther distinct old)
    · intro logEntry present
      rw [logged, List.mem_append, List.mem_singleton] at present
      rcases present with old | rfl
      · exact invariant.entries logEntry old
      · refine ⟨fun notSoftFailed => ?_, fun softFailedNow => ?_⟩
        · rw [entrySoftFail, Bool.or_eq_false_iff] at notSoftFailed
          rw [entryPdu, entryState, entryCurrent, entryOutcomes, unmoved]
          refine ⟨authorised, ?_, clear notSoftFailed.1, accepted (entrySoftFail ▸
            by simp [notSoftFailed.1, notSoftFailed.2])⟩
          simpa [notSoftFailed.2] using checkedCurrent
        · obtain ⟨after, extremities⟩ := softFailed softFailedNow
          exact ⟨entryBefore ▸ extremities, after.trans entryCurrent.symm⟩
    · intro other call pduIdOther lookup returned
      rw [calls] at lookup
      rcases getElem?_set_eq_some_cases lookup with ⟨same, rfl⟩ | ⟨-, old⟩
      · cases notSoftFailed : entry.softFail
        · exact ⟨entry, by simp [logged], entryCall.trans same.symm, notSoftFailed⟩
        · simp [notSoftFailed] at returned
      · obtain ⟨logEntry, present, entryCallOther, accepted'⟩ :=
          invariant.accepted other call pduIdOther old returned
        exact ⟨logEntry, by simp [logged, present], entryCallOther, accepted'⟩

theorem invariant_external {world world' : World σ} {current : σ} {extremities : List EventId}
    (invariant : Invariant settings authCheck world)
    (stepped : step settings authCheck world (.external current extremities) = some world') :
    Invariant settings authCheck world' := by
  simp only [step] at stepped
  split_ifs at stepped with free
  cases stepped
  refine ⟨invariant.phases, ?_, invariant.entries, invariant.accepted⟩
  intro other call currentOther lookup against
  have holding := (invariant.checked other call currentOther lookup against).1
  rw [free] at holding
  cases holding

theorem invariant_step : StepRun.Preserved (Invariant settings authCheck) (step settings authCheck) := by
  intro world action world' invariant stepped
  cases action with
  | begin index => exact invariant_begin invariant stepped
  | lock index => exact invariant_lock invariant stepped
  | append index => exact invariant_append invariant stepped
  | external current extremities => exact invariant_external invariant stepped

end Invariant

/-! ## Every run -/

section Runs

variable {σ : Type} {settings : Settings} {authCheck : Pdu → σ → Bool}

/-- Over every interleaving of upgrades and other writers from a fresh room: a call returns an
accepted event only after an accepted append; an accepted append passed `auth_check` against the
state at the event and against the current state at the moment of the append, made a redaction
only of a target its sender may redact, had no `Invalid` policy verdict from this call's lookup,
and became a forward extremity; a soft-failed append added no extremity and left the current state
as it was. -/
theorem upgrade_accepts_only_authorised {initial final : World σ} (fresh : initial.Fresh)
    {actions : List (Action σ)}
    (ran : StepRun.run (step settings authCheck) initial actions = some final) :
    (∀ (index : Nat) call pduId, final.calls[index]? = some call →
      call.phase = .done (.ok (some (pduId, true))) →
      ∃ entry ∈ final.log, entry.call = index ∧ entry.softFail = false) ∧
    ∀ entry ∈ final.log,
      (entry.softFail = false →
        authCheck entry.pdu entry.stateAtEvent = true ∧
          authCheck entry.pdu entry.currentAtAppend = true ∧
          (∀ target, entry.pdu.redactsId settings.contentFieldRedacts = some target →
            entry.outcomes.userCanRedact = .ok true) ∧
          entry.outcomes.policy ≠ .invalid ∧
          entry.pdu.eventId ∈ entry.extremitiesAfter) ∧
      (entry.softFail = true →
        entry.extremitiesAfter ⊆ entry.extremitiesBefore ∧
          entry.currentAfter = entry.currentAtAppend) := by
  have invariant := StepRun.run_invariant _ invariant_step (invariant_fresh fresh) ran
  refine ⟨invariant.accepted, fun entry logged => ?_⟩
  obtain ⟨acceptedOk, softFailedOk⟩ := invariant.entries entry logged
  refine ⟨fun notSoftFailed => ?_, softFailedOk⟩
  obtain ⟨atEvent, atAppend, clear, extremity⟩ := acceptedOk notSoftFailed
  obtain ⟨redaction, policy⟩ := computeSoftFail_eq_ok_false.mp clear
  exact ⟨atEvent, atAppend, redaction, policy, extremity⟩

/-- A room version 11 redaction whose content names no target: `redacts_id` is `None`, so
`user_can_redact` is not asked. -/
def targetlessRedaction : Pdu where
  eventId := "$redaction"
  kind := "m.room.redaction"
  stateKey := none
  prevEvents := []
  redacts := some "$target"
  contentRedacts := none

/-- Lookups under which the sender may not redact and no policy server applies. -/
def refusedRedaction : Outcomes Unit where
  formatOk := true
  suppressed := false
  stateAtEvent := .ok ()
  userCanRedact := .ok false
  policy := .notApplicable
  prune := id
  prune_subset _ := List.Subset.refl _
  newRoomState := .ok ()
  append := .ok 0

/-- An empty room with one upgrade call in flight. -/
def singleUpgrade (pdu : Pdu) (outcomes : Outcomes Unit) : World Unit where
  current := ()
  extremities := []
  referenced := []
  softFailed := []
  timeline := []
  holder := none
  calls := [⟨pdu, outcomes, .start⟩]
  log := []

theorem run_singleUpgrade_targetless :
    ∃ final, StepRun.run (step ⟨true, 0⟩ fun (_ : Pdu) (_ : Unit) => true)
        (singleUpgrade targetlessRedaction refusedRedaction) [.begin 0, .lock 0, .append 0] =
          some final ∧
      (final.calls.map Call.phase)[0]? = some (.done (.ok (some (0, true)))) := by
  simp [StepRun.run, step, singleUpgrade, upgradeBegin, softFailStanding, computeSoftFail,
    Pdu.redactsId, targetlessRedaction, refusedRedaction, lockAndCheck, appendUpgrade,
    pure, Except.pure, bind, Except.bind]

/-- A redaction event whose sender may not redact is accepted when its content names no target:
the call returns `Some((_, true))` with `user_can_redact` answering `false`. -/
theorem redaction_without_target_accepted :
    ∃ final, StepRun.run (step ⟨true, 0⟩ fun _ _ => true)
        (singleUpgrade targetlessRedaction refusedRedaction) [.begin 0, .lock 0, .append 0] =
          some final ∧
      (final.calls.map Call.phase)[0]? = some (.done (.ok (some (0, true)))) ∧
      targetlessRedaction.kind = "m.room.redaction" ∧ refusedRedaction.userCanRedact = .ok false := by
  obtain ⟨final, ran, returned⟩ := run_singleUpgrade_targetless
  exact ⟨final, ran, returned, rfl, rfl⟩

/-- In the run of `run_singleUpgrade_targetless`, the accepted append satisfies the amended
guarantees. -/
theorem upgrade_accepts_only_authorised_targetless :
    ∃ final, StepRun.run (step ⟨true, 0⟩ fun (_ : Pdu) (_ : Unit) => true)
        (singleUpgrade targetlessRedaction refusedRedaction) [.begin 0, .lock 0, .append 0] =
          some final ∧
      ∀ entry ∈ final.log, entry.softFail = false →
        entry.outcomes.policy ≠ .invalid ∧ entry.pdu.eventId ∈ entry.extremitiesAfter := by
  obtain ⟨final, ran, -⟩ := run_singleUpgrade_targetless
  have fresh : (singleUpgrade targetlessRedaction refusedRedaction).Fresh :=
    ⟨rfl, rfl, by simp [singleUpgrade]⟩
  obtain ⟨-, entries⟩ := upgrade_accepts_only_authorised fresh ran
  refine ⟨final, ran, fun entry logged accepted => ?_⟩
  obtain ⟨-, -, -, policy, extremity⟩ := (entries entry logged).1 accepted
  exact ⟨policy, extremity⟩

end Runs

end EventHandler
end Tuwunel
