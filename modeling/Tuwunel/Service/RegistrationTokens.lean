import Tuwunel.Library.KeyValue
import Tuwunel.Library.StepRun
import Tuwunel.Core.Numbers

/-!
# Registration tokens

`Service::check` accepts a token named in the config file outright and otherwise asks
`Data::check_token`, which reads the token's row of `registrationtoken_info`, awaits, and only
then removes the row or writes back `uses + 1`.  Nothing serialises two calls for one token, so
a concurrent execution interleaves the read halves and the write halves of the calls.  A `World`
holds the table and the calls in flight, each call taking one step to read and one to write.

Run one call at a time, a token stored with `uses = u` and `max_uses = m` is accepted exactly
`m - u` times by `try_consume`.  Interleaved, two calls that both read the last remaining use
before either writes are both accepted.
-/

namespace Tuwunel
namespace RegistrationTokens

open KeyValue

/-- `TokenExpires`; times are seconds since the epoch. -/
structure TokenExpires where
  /-- The number of accounts the token may create. -/
  maxUses : Option Nat
  /-- The time after which the token is no longer valid. -/
  maxAge : Option Nat
  deriving DecidableEq, Repr

/-- `DatabaseTokenInfo`, the value of a `registrationtoken_info` row. -/
structure DatabaseTokenInfo where
  /-- The number of times this token has been used to create an account. -/
  uses : Nat
  /-- When this token will expire, if it expires. -/
  expires : TokenExpires
  deriving DecidableEq, Repr

/-- `DatabaseTokenInfo::is_valid`, with `now` read from the system clock. -/
def DatabaseTokenInfo.isValid (info : DatabaseTokenInfo) (now : Nat) : Bool :=
  if info.expires.maxUses.any (· ≤ info.uses) then false
  else if info.expires.maxAge.any (· < now) then false
  else true

/-- The `registrationtoken_info` map. -/
abbrev TokenTable := Table String DatabaseTokenInfo

/-- The half of `Data::check_token` that runs after the row was read as `info`: the table it
leaves and its answer. `now` and `now'` are the clock readings of the two `is_valid` calls. -/
def checkTokenWrite (table : TokenTable) (token : String) (consume : Bool)
    (info : Option DatabaseTokenInfo) (now now' : Nat) : TokenTable × Bool :=
  match info with
  | none => (table, false)
  | some info =>
      if !info.isValid now then
        (table.remove token, false)
      else if consume then
        let info := { info with uses := saturatingAdd info.uses 1 }
        if info.isValid now' then (table.put token info, true) else (table.remove token, true)
      else
        (table, true)

/-- `Data::check_token` with nothing between its read and its write. -/
def checkToken (table : TokenTable) (token : String) (consume : Bool) (now now' : Nat) :
    TokenTable × Bool :=
  checkTokenWrite table token consume (table.get token) now now'

/-- The errors of the token checks. -/
inductive Error
  /-- `Request(Forbidden(..))`. -/
  | forbidden (message : String)
  deriving DecidableEq, Repr

/-- The answer of `Service::check` once `Data::check_token` (or the config file) answered. -/
def checkResult (accepted : Bool) : Except Error Unit :=
  if accepted then .ok () else .error (.forbidden "Registration token not valid")

/-! ## Calls run one at a time -/

/-- `k` consuming checks of one token run one after another, at clock `now`: the table they leave
and how many were accepted. -/
def consumeSerially (table : TokenTable) (token : String) (now : Nat) : Nat → TokenTable × Nat
  | 0 => (table, 0)
  | k + 1 =>
      let (table, accepted) := consumeSerially table token now k
      let (table, valid) := checkToken table token true now now
      (table, accepted + if valid then 1 else 0)

/-- One serial consume of a row with `uses < max_uses` and no age limit. -/
theorem checkToken_consume_of_lt {table : TokenTable} {token : String} {uses maxUses now : Nat}
    (stored : table.get token = some ⟨uses, ⟨some maxUses, none⟩⟩) (below : uses < maxUses)
    (fits : maxUses ≤ u64Max) :
    checkToken table token true now now =
      (if uses + 1 < maxUses then table.put token ⟨uses + 1, ⟨some maxUses, none⟩⟩
        else table.remove token, true) := by
  have notSpent : ¬maxUses ≤ uses := by omega
  have increment : saturatingAdd uses 1 = uses + 1 := saturatingAdd_of_le (by omega)
  by_cases room : uses + 1 < maxUses
  · have stillValid : ¬maxUses ≤ uses + 1 := by omega
    simp [checkToken, checkTokenWrite, stored, DatabaseTokenInfo.isValid, notSpent, increment,
      stillValid, room]
  · have spent : maxUses ≤ uses + 1 := by omega
    simp [checkToken, checkTokenWrite, stored, DatabaseTokenInfo.isValid, notSpent, increment,
      spent, room]

/-- Serialised, the use limit holds: of `k` consuming checks of a token stored with `uses = u`
and `max_uses = m > u`, exactly `min k (m - u)` are accepted, and the row then holds `u` plus
that many uses, or is gone once all `m - u` uses are spent. -/
theorem consumeSerially_spec {table : TokenTable} {token : String} {uses maxUses now : Nat}
    (stored : table.get token = some ⟨uses, ⟨some maxUses, none⟩⟩) (below : uses < maxUses)
    (fits : maxUses ≤ u64Max) (k : Nat) :
    (consumeSerially table token now k).2 = min k (maxUses - uses) ∧
      (consumeSerially table token now k).1.get token =
        if k < maxUses - uses then some ⟨uses + k, ⟨some maxUses, none⟩⟩ else none := by
  induction k with
  | zero => simp [consumeSerially, stored]; omega
  | succ k ih =>
      obtain ⟨acceptedEq, rowEq⟩ := ih
      simp only [consumeSerially]
      by_cases room : k < maxUses - uses
      · rw [if_pos room] at rowEq
        have step := @checkToken_consume_of_lt _ _ _ _ now rowEq (by omega) fits
        rw [step]
        by_cases last : uses + k + 1 < maxUses
        · simp only [if_pos last, if_true, Table.get_put_self, acceptedEq]
          refine ⟨by omega, ?_⟩
          rw [if_pos (by omega)]
          simp [Nat.add_assoc]
        · simp only [if_neg last, if_true, Table.get_remove_self, acceptedEq]
          refine ⟨by omega, ?_⟩
          rw [if_neg (by omega)]
      · rw [if_neg room] at rowEq
        have absent : checkToken (consumeSerially table token now k).1 token true now now =
            ((consumeSerially table token now k).1, false) := by
          simp [checkToken, checkTokenWrite, rowEq]
        rw [absent]
        simp only [Bool.false_eq_true, if_false, Nat.add_zero, acceptedEq, rowEq]
        refine ⟨by omega, ?_⟩
        rw [if_neg (by omega)]

/-! ## Concurrent calls -/

/-- Where one call of `Service::check` is. -/
inductive Phase
  /-- Not started. -/
  | start
  /-- The row was read as `info`; the call is suspended at the await. -/
  | read (info : Option DatabaseTokenInfo)
  /-- Returned `result`. -/
  | done (result : Except Error Unit)

/-- A call of `try_consume` (`consume = true`) or `is_token_valid` (`consume = false`). -/
structure Call where
  /-- The presented token. -/
  token : String
  /-- Whether the call spends a use. -/
  consume : Bool
  /-- How far the call got. -/
  phase : Phase

/-- The token table, the config file's tokens, and the calls in flight. -/
structure World where
  /-- `registrationtoken_info`. -/
  table : TokenTable
  /-- `get_config_tokens`. -/
  configTokens : List String
  /-- The calls, numbered by position. -/
  calls : List Call

/-- The scheduler's choices: which call reads, and which call writes with which clock. -/
inductive Action
  /-- The call numbered `call` checks the config file and reads its row. -/
  | read (call : Nat)
  /-- The call numbered `call` resumes after its read and writes. -/
  | write (call : Nat) (now now' : Nat)

namespace World

/-- One atomic half of one call. -/
def step (world : World) : Action → Option World
  | .read index =>
      match world.calls[index]? with
      | some ⟨token, consume, .start⟩ =>
          let phase :=
            if token ∈ world.configTokens then .done (.ok ()) else .read (world.table.get token)
          some { world with calls := world.calls.set index ⟨token, consume, phase⟩ }
      | _ => none
  | .write index now now' =>
      match world.calls[index]? with
      | some ⟨token, consume, .read info⟩ =>
          let (table, accepted) := checkTokenWrite world.table token consume info now now'
          some { world with
            table
            calls := world.calls.set index ⟨token, consume, .done (checkResult accepted)⟩ }
      | _ => none

/-- The number of `try_consume` calls that returned `Ok`. -/
def acceptedConsumes (world : World) : Nat :=
  world.calls.countP fun call =>
    call.consume && match call.phase with
      | .done result => result.toBool
      | _ => false

end World

/-- A token that is not in the config file, stored with `uses = 0` and `max_uses = 1`, and two
`try_consume` calls that both read it before either writes: both are accepted, one more than the
token's single use allows, and the row is gone. -/
theorem try_consume_race :
    (StepRun.run World.step
        { table := Table.empty.put "token" ⟨0, ⟨some 1, none⟩⟩
          configTokens := []
          calls := [⟨"token", true, .start⟩, ⟨"token", true, .start⟩] }
        [.read 0, .read 1, .write 0 0 0, .write 1 0 0]).map
      (fun world => (world.acceptedConsumes, world.table.get "token")) =
      some (2, none) ∧ 1 - 0 < 2 := by
  refine ⟨?_, by decide⟩
  simp [StepRun.run, World.step, checkTokenWrite, DatabaseTokenInfo.isValid, saturatingAdd,
    u64Max, checkResult, World.acceptedConsumes, Except.toBool]

end RegistrationTokens
end Tuwunel
