import Tuwunel.Library.History
import Tuwunel.Service.Threepid.Pending

/-!
# The lifetime of a session row

A row of `threepidsid_pending` lives from the write that creates it to its deletion; its
`lifetime` is the part of the history about it since it was last deleted, and `sinceMint` the part
since its token was last minted.  `RowStep` says what one poll can do to one row and its history:
leave it, rewrite it keeping its use state, secret and attempts, delete it, mint it afresh over an
absent or available row, count a wrong submission or burn the row at the ceiling, claim it, or
spend it.

`RowSound` ties a row to its lifetime: at most one redemption, and after it the row is spent; a
claimed row was claimed in this lifetime with its own client secret, and so was the session a
`redeem_claim` spent; the attempts count the wrong submissions since the token was minted, which
stay below `MAX_VERIFY_ATTEMPTS`.  Every `RowStep` keeps it (`RowSound.append`).
-/

namespace Tuwunel
namespace Threepid

variable {Sid Claim : Type} [DecidableEq Sid] [DecidableEq Claim]

/-- The session an event is about. -/
def Event.sid : Event Sid Claim → Sid
  | .minted sid | .deleted sid | .rejected sid | .claimed sid _ _ | .redeemed sid _ => sid

/-- A redemption. -/
def Event.isRedeemed : Event Sid Claim → Bool
  | .redeemed _ _ => true
  | _ => false

/-- The events of `sid` since its row was last deleted. -/
def lifetime (sid : Sid) (log : List (Event Sid Claim)) : List (Event Sid Claim) :=
  History.since (· == .deleted sid) (log.filter (·.sid == sid))

/-- The events of `sid` since its token was last minted or its row deleted. -/
def sinceMint (sid : Sid) (log : List (Event Sid Claim)) : List (Event Sid Claim) :=
  History.since (fun event => event == .minted sid || event == .deleted sid)
    (log.filter (·.sid == sid))

section History

variable {sid : Sid} {log : List (Event Sid Claim)} {event : Event Sid Claim}

theorem lifetime_concat (about : event.sid = sid) :
    lifetime sid (log ++ [event]) =
      if event = .deleted sid then [] else lifetime sid log ++ [event] := by
  simp [lifetime, List.filter_append, about, History.since_concat]

theorem sinceMint_concat (about : event.sid = sid) :
    sinceMint sid (log ++ [event]) =
      if event = .minted sid ∨ event = .deleted sid then [] else sinceMint sid log ++ [event] := by
  simp [sinceMint, List.filter_append, about, History.since_concat]

@[simp]
theorem lifetime_concat_deleted : lifetime sid (log ++ [.deleted sid]) = [] := by
  simp [lifetime, List.filter_append, Event.sid]

@[simp]
theorem sinceMint_concat_deleted : sinceMint sid (log ++ [.deleted sid]) = [] := by
  simp [sinceMint, List.filter_append, Event.sid]

@[simp]
theorem lifetime_concat_minted :
    lifetime sid (log ++ [.minted sid]) = lifetime sid log ++ [.minted sid] := by
  simp [lifetime, List.filter_append, Event.sid]

@[simp]
theorem sinceMint_concat_minted : sinceMint sid (log ++ [.minted sid]) = [] := by
  simp [sinceMint, List.filter_append, Event.sid]

@[simp]
theorem lifetime_concat_rejected :
    lifetime sid (log ++ [.rejected sid]) = lifetime sid log ++ [.rejected sid] := by
  simp [lifetime, List.filter_append, Event.sid]

@[simp]
theorem sinceMint_concat_rejected :
    sinceMint sid (log ++ [.rejected sid]) = sinceMint sid log ++ [.rejected sid] := by
  simp [sinceMint, List.filter_append, Event.sid]

@[simp]
theorem lifetime_concat_claimed (claim : Claim) (clientSecret : String) :
    lifetime sid (log ++ [.claimed sid claim clientSecret]) =
      lifetime sid log ++ [.claimed sid claim clientSecret] := by
  simp [lifetime, List.filter_append, Event.sid]

@[simp]
theorem sinceMint_concat_claimed (claim : Claim) (clientSecret : String) :
    sinceMint sid (log ++ [.claimed sid claim clientSecret]) =
      sinceMint sid log ++ [.claimed sid claim clientSecret] := by
  simp [sinceMint, List.filter_append, Event.sid]

@[simp]
theorem lifetime_concat_redeemed (claim : Option Claim) :
    lifetime sid (log ++ [.redeemed sid claim]) = lifetime sid log ++ [.redeemed sid claim] := by
  simp [lifetime, List.filter_append, Event.sid]

@[simp]
theorem sinceMint_concat_redeemed (claim : Option Claim) :
    sinceMint sid (log ++ [.redeemed sid claim]) = sinceMint sid log ++ [.redeemed sid claim] := by
  simp [sinceMint, List.filter_append, Event.sid]

/-- Only the events about `sid` matter to its lifetime. -/
theorem lifetime_append_of_forall_ne {more : List (Event Sid Claim)}
    (elsewhere : ∀ event ∈ more, event.sid ≠ sid) :
    lifetime sid (log ++ more) = lifetime sid log := by
  have none : more.filter (·.sid == sid) = [] :=
    List.filter_eq_nil_iff.mpr (by simpa using elsewhere)
  simp [lifetime, List.filter_append, none]

theorem sinceMint_append_of_forall_ne {more : List (Event Sid Claim)}
    (elsewhere : ∀ event ∈ more, event.sid ≠ sid) :
    sinceMint sid (log ++ more) = sinceMint sid log := by
  have none : more.filter (·.sid == sid) = [] :=
    List.filter_eq_nil_iff.mpr (by simpa using elsewhere)
  simp [sinceMint, List.filter_append, none]

end History

/-- What one poll can do to the row of `sid`: the events it adds about the row, with the row
before and after. -/
inductive RowStep (sid : Sid) :
    Option (Pending Claim) → List (Event Sid Claim) → Option (Pending Claim) → Prop
  /-- Nothing. -/
  | keep (row : Option (Pending Claim)) : RowStep sid row [] row
  /-- A rewrite keeping the use state, the client secret and the attempts: a validation, or a
  longer life. -/
  | touch {pending pending' : Pending Claim} (useState : pending'.useState = pending.useState)
      (clientSecret : pending'.clientSecret = pending.clientSecret)
      (attempts : pending'.attempts = pending.attempts) :
      RowStep sid (some pending) [] (some pending')
  /-- `delete_pending_rows`. -/
  | delete (row : Option (Pending Claim)) : RowStep sid row [.deleted sid] none
  /-- A fresh row with a new token, over an absent or available one. -/
  | mint {row : Option (Pending Claim)} (args : Create) (now : Nat)
      (unspent : ∀ pending, row = some pending → pending.useState = .available) :
      RowStep sid row [.minted sid] (some (args.pending now))
  /-- A wrong submission counted below the ceiling. -/
  | reject {pending : Pending Claim} (available : pending.useState = .available)
      (below : saturatingAdd32 pending.attempts 1 < maxVerifyAttempts) :
      RowStep sid (some pending) [.rejected sid]
        (some { pending with attempts := saturatingAdd32 pending.attempts 1 })
  /-- The wrong submission that reaches the ceiling: the row is burnt. -/
  | burn {pending : Pending Claim} (available : pending.useState = .available) :
      RowStep sid (some pending) [.rejected sid, .deleted sid] none
  /-- `claim_validated`'s write, by the owner or over an available row. -/
  | claim {pending : Pending Claim} (claim : Claim) (expiresAt : Option Nat)
      (unspent : pending.useState = .available ∨ pending.useState = .claimed claim) :
      RowStep sid (some pending) [.claimed sid claim pending.clientSecret]
        (some { pending with expiresAt, useState := .claimed claim })
  /-- A redemption: by the owning claim, or of an available row by `redeem_validated`. -/
  | redeem {pending : Pending Claim} (claim : Option Claim)
      (owned : pending.useState = match claim with
        | some claim => .claimed claim
        | none => .available) :
      RowStep sid (some pending) [.redeemed sid claim] (some { pending with useState := .spent })
  /-- One step after another. -/
  | trans {row row' row'' : Option (Pending Claim)} {events events' : List (Event Sid Claim)} :
      RowStep sid row events row' → RowStep sid row' events' row'' →
      RowStep sid row (events ++ events') row''

omit [DecidableEq Sid] [DecidableEq Claim] in
theorem RowStep.sid_eq {sid : Sid} {row row' : Option (Pending Claim)}
    {events : List (Event Sid Claim)} (stepped : RowStep sid row events row') :
    ∀ event ∈ events, event.sid = sid := by
  induction stepped with
  | trans _ _ ih ih' =>
      intro event member
      rcases List.mem_append.mp member with first | second
      · exact ih event first
      · exact ih' event second
  | _ => simp [Event.sid]

/-- A row agrees with its lifetime (module doc). -/
structure RowSound (sid : Sid) (row : Option (Pending Claim)) (log : List (Event Sid Claim)) :
    Prop where
  redeemedOnce : (lifetime sid log).countP Event.isRedeemed ≤ 1
  spent : ∀ event ∈ lifetime sid log, event.isRedeemed = true →
    ∃ pending, row = some pending ∧ pending.useState = .spent
  claimed : ∀ pending claim, row = some pending → pending.useState = .claimed claim →
    .claimed sid claim pending.clientSecret ∈ lifetime sid log
  redeemedAfterClaim : ∀ claim, .redeemed sid (some claim) ∈ lifetime sid log →
    ∃ pending before after, row = some pending ∧
      lifetime sid log = before ++ .redeemed sid (some claim) :: after ∧
      .claimed sid claim pending.clientSecret ∈ before
  rejections : (sinceMint sid log).count (.rejected sid) < maxVerifyAttempts
  attempts : ∀ pending, row = some pending →
    pending.attempts = (sinceMint sid log).count (.rejected sid)

namespace RowSound

variable {sid : Sid} {row : Option (Pending Claim)} {log : List (Event Sid Claim)}

theorem empty (sid : Sid) : RowSound sid (none : Option (Pending Claim)) [] where
  redeemedOnce := by simp [lifetime]
  spent := by simp [lifetime]
  claimed := by simp
  redeemedAfterClaim := by simp [lifetime]
  rejections := by simp [sinceMint, maxVerifyAttempts]
  attempts := by simp

/-- While the row is not spent, its lifetime holds no redemption. -/
theorem unredeemed (sound : RowSound sid row log)
    (unspent : ∀ pending, row = some pending → pending.useState ≠ .spent) :
    ∀ event ∈ lifetime sid log, event.isRedeemed = false := by
  intro event member
  by_contra redeemed
  obtain ⟨pending, found, spent⟩ := sound.spent event member (by simpa using redeemed)
  exact unspent pending found spent

/-- A lifetime with no redemption, whose claimed rows were claimed in it. -/
theorem of_unredeemed {row' : Option (Pending Claim)} {log' : List (Event Sid Claim)}
    (unredeemed : ∀ event ∈ lifetime sid log', event.isRedeemed = false)
    (claimed : ∀ pending claim, row' = some pending → pending.useState = .claimed claim →
      .claimed sid claim pending.clientSecret ∈ lifetime sid log')
    (rejections : (sinceMint sid log').count (.rejected sid) < maxVerifyAttempts)
    (attempts : ∀ pending, row' = some pending →
      pending.attempts = (sinceMint sid log').count (.rejected sid)) :
    RowSound sid row' log' where
  redeemedOnce := by
    rw [List.countP_eq_zero.mpr fun event member => by simp [unredeemed event member]]
    exact Nat.zero_le _
  spent event member redeemed := by simp [unredeemed event member] at redeemed
  claimed := claimed
  redeemedAfterClaim claim member := by
    simpa [Event.isRedeemed] using unredeemed _ member
  rejections := rejections
  attempts := attempts

/-- A row deleted: its lifetime starts over. -/
theorem of_fresh {log' : List (Event Sid Claim)} (fresh : lifetime sid log' = [])
    (freshMint : sinceMint sid log' = []) : RowSound sid (none : Option (Pending Claim)) log' :=
  of_unredeemed (by simp [fresh]) (by simp) (by simp [freshMint, maxVerifyAttempts]) (by simp)

/-- An available row, or none, with no redemption in its lifetime. -/
theorem of_unclaimed {row' : Option (Pending Claim)} {log' : List (Event Sid Claim)}
    (unredeemed : ∀ event ∈ lifetime sid log', event.isRedeemed = false)
    (unclaimed : ∀ pending, row' = some pending → pending.useState = .available)
    (rejections : (sinceMint sid log').count (.rejected sid) < maxVerifyAttempts)
    (attempts : ∀ pending, row' = some pending →
      pending.attempts = (sinceMint sid log').count (.rejected sid)) :
    RowSound sid row' log' :=
  of_unredeemed unredeemed
    (fun pending _ found claimed => by simp [unclaimed pending found] at claimed)
    rejections attempts

omit [DecidableEq Sid] [DecidableEq Claim] in
/-- A lifetime without redemption gains none from an event that is none. -/
theorem unredeemed_concat {events : List (Event Sid Claim)} {event : Event Sid Claim}
    (unredeemed : ∀ event ∈ events, event.isRedeemed = false) (quiet : event.isRedeemed = false) :
    ∀ other ∈ events ++ [event], other.isRedeemed = false := by
  intro other member
  rcases List.mem_append.mp member with earlier | last
  · exact unredeemed other earlier
  · rw [List.mem_singleton.mp last]
    exact quiet

/-- Every step of a row keeps it sound. -/
theorem append {row' : Option (Pending Claim)} {events : List (Event Sid Claim)}
    (sound : RowSound sid row log) (stepped : RowStep sid row events row') :
    RowSound sid row' (log ++ events) := by
  induction stepped generalizing log with
  | keep => simpa using sound
  | touch useState clientSecret attempts =>
      simp only [List.append_nil]
      refine ⟨sound.redeemedOnce, fun event member redeemed => ?_, ?_, ?_, sound.rejections, ?_⟩
      · obtain ⟨pending, found, spent⟩ := sound.spent event member redeemed
        obtain rfl := Option.some.inj found
        exact ⟨_, rfl, useState.trans spent⟩
      · rintro pending claim found claimed
        obtain rfl := Option.some.inj found
        rw [clientSecret]
        exact sound.claimed _ claim rfl (useState ▸ claimed)
      · intro claim member
        obtain ⟨pending, before, after, found, split, claimed⟩ :=
          sound.redeemedAfterClaim claim member
        obtain rfl := Option.some.inj found
        exact ⟨_, before, after, rfl, split, clientSecret ▸ claimed⟩
      · rintro pending found
        obtain rfl := Option.some.inj found
        rw [attempts]
        exact sound.attempts _ rfl
  | delete row => exact of_fresh lifetime_concat_deleted sinceMint_concat_deleted
  | mint args now unspent =>
      -- an absent or available row has no redemption in its lifetime
      have unredeemed := sound.unredeemed fun pending found => by simp [unspent pending found]
      refine of_unclaimed ?_ (fun pending found => ?_) (by simp [maxVerifyAttempts]) ?_
      · simpa using unredeemed_concat unredeemed rfl
      · obtain rfl := Option.some.inj found
        rfl
      · rintro pending found
        obtain rfl := Option.some.inj found
        simp [Create.pending]
  | @reject pending available below =>
      have unredeemed := sound.unredeemed fun pending found => by
        obtain rfl := Option.some.inj found
        simp [available]
      have counted := sound.attempts _ rfl
      -- the stored count is below the ceiling, far from `u32::MAX`
      have fits : saturatingAdd32 pending.attempts 1 = pending.attempts + 1 := by
        apply saturatingAdd32_of_le
        have := sound.rejections
        unfold maxVerifyAttempts at this
        unfold u32Max
        omega
      rw [fits, counted] at below
      refine of_unclaimed ?_ (fun pending found => ?_) (by simpa using below) ?_
      · simpa using unredeemed_concat unredeemed rfl
      · obtain rfl := Option.some.inj found
        exact available
      · rintro pending found
        obtain rfl := Option.some.inj found
        show saturatingAdd32 _ 1 = _
        rw [fits, counted]
        simp
  | burn available =>
      have split : log ++ [.rejected sid, .deleted sid] = log ++ [.rejected sid] ++ [.deleted sid] :=
        (List.append_assoc log [.rejected sid] [.deleted sid]).symm
      rw [split]
      exact of_fresh lifetime_concat_deleted sinceMint_concat_deleted
  | claim claim expiresAt unspent =>
      have unredeemed := sound.unredeemed fun pending found => by
        obtain rfl := Option.some.inj found
        rcases unspent with available | owned <;> simp [*]
      refine of_unredeemed ?_ ?_ (by simpa using sound.rejections) ?_
      · simpa using unredeemed_concat unredeemed rfl
      · rintro pending owner found owned
        obtain rfl := Option.some.inj found
        obtain rfl : claim = owner := by simpa using owned
        simp
      · rintro pending found
        obtain rfl := Option.some.inj found
        simpa using sound.attempts _ rfl
  | @redeem pending claim owned =>
      have unredeemed := sound.unredeemed fun pending' found => by
        obtain rfl := Option.some.inj found
        cases claim <;> simp [owned]
      refine ⟨?_, fun _ _ _ => ⟨_, rfl, rfl⟩, fun _ _ found spent => ?_, fun owner member => ?_,
        by simpa using sound.rejections, fun _ found => ?_⟩
      · -- the lifetime had no redemption, and gains this one
        rw [lifetime_concat_redeemed, List.countP_append,
          List.countP_eq_zero.mpr fun event member => by simp [unredeemed event member]]
        simp [Event.isRedeemed]
      · obtain rfl := Option.some.inj found
        cases spent
      · -- this redemption is the only one, and the row it spent was claimed by its owner
        rw [lifetime_concat_redeemed] at member ⊢
        rcases List.mem_append.mp member with earlier | now
        · simpa [Event.isRedeemed] using unredeemed _ earlier
        · obtain rfl : some owner = claim := by simpa using now
          exact ⟨_, lifetime sid log, [], rfl, rfl, sound.claimed pending owner rfl owned⟩
      · obtain rfl := Option.some.inj found
        simpa using sound.attempts pending rfl
  | trans _ _ ih ih' =>
      rw [← List.append_assoc]
      exact ih' (ih sound)

end RowSound

end Threepid
end Tuwunel
