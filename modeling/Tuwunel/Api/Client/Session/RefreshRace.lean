import Tuwunel.Library.Interleaving
import Tuwunel.Api.Client.Session.Refresh

/-!
# Refresh calls side by side

Nothing serialises two `refresh_token_route` calls for one device.  A call classifies the token it
was given, and on the rotation path reaches `set_refresh_token` through `set_access_token`:
it reads the outgoing token, removes it with `remove_refresh_token`, writes the new token, and
then writes the access token, with an await between each read and the write after it.  Each call
is a task of an `Interleaving.Program` whose `Phase` is the await it is suspended at; the shared
state is the token tables, and no lock is taken.

A call that runs alone does what `refreshTokenRoute` does (`run_alone`).  Two calls presenting
one current token may both be classified before either rotates: both then rotate, and the token
the first wrote still resolves after the second has replaced the device's pointer
(`refresh_rotation_races`).

Only the rotation path is split at its awaits; every other path of the route runs as one poll,
and the clock reads `now` throughout.
-/

namespace Tuwunel
namespace Client

open KeyValue Users TokenStore

/-- Where a refresh call is suspended. -/
inductive Phase
  /-- Not yet polled. -/
  | start
  /-- Classified as the device's current token, before `set_refresh_token` reads the outgoing
  token. -/
  | capture (user : UserId) (device : DeviceId)
  /-- Before `remove_refresh_token`, with the prior expiry and the outgoing token read. -/
  | remove (user : UserId) (device : DeviceId) (priorExpiresAt : Option Nat)
      (spent : Option String)
  /-- Before the transaction that writes the new refresh token. -/
  | write (user : UserId) (device : DeviceId) (priorExpiresAt : Option Nat)
      (spent : Option String)
  /-- Before `set_access_token` reads the legacy pointer and writes the access token. -/
  | access (user : UserId) (device : DeviceId)
  /-- Returned. -/
  | done (result : Except Error Response)
  /-- Dropped at an await, or stopped by a panic. -/
  | dropped

/-- A refresh call: the token presented, the random tokens it generates, and where it is. -/
structure Call where
  claim : String
  randomAccess : GeneratedToken
  randomRefresh : GeneratedToken
  phase : Phase

/-- The device whose current token the call rotates, when classification takes the rotation
path: a well-formed claim, the device's current token, not expired. -/
def rotating (config : Config) (now : Nat) (store : TokenStore) (claim : String) :
    Option (UserId × DeviceId) :=
  if claim.startsWith "refresh_" then
    match store.classifyRefreshToken config now claim with
    | .current user device expiresAt =>
        if expiresAt.any (· ≤ now) then none else some (user, device)
    | _ => none
  else none

/-- A poll of the call: the code from its await to the next, on the tables. -/
def Call.advance (config : Config) (now : Nat) (store : TokenStore) (call : Call) :
    TokenStore × Phase :=
  match call.phase with
  | .start =>
      match rotating config now store call.claim with
      | some (user, device) => (store, .capture user device)
      | none =>
          match refreshTokenRoute config now store call.claim call.randomAccess
              call.randomRefresh with
          | some (result, store') => (store', .done result)
          -- the panic of the length assertion, which a generated access token never fires
          | none => (store, .dropped)
  | .capture user device =>
      (store, .remove user device (refreshCapture config store user device).1
        (refreshCapture config store user device).2)
  | .remove user device priorExpiresAt spent =>
      (store.removeRefreshToken user device, .write user device priorExpiresAt spent)
  | .write user device priorExpiresAt spent =>
      (store.refreshWrite config now user device (generateRefreshToken call.randomRefresh)
        priorExpiresAt spent, .access user device)
  | .access user device =>
      let (accessToken, expiresInMs) := generateAccessToken config call.randomAccess true
      (store.accessWrite now user device accessToken expiresInMs,
        .done (.ok ⟨accessToken, some (generateRefreshToken call.randomRefresh), expiresInMs⟩))
  | .done result => (store, .done result)
  | .dropped => (store, .dropped)

/-- The call has not returned and was not dropped. -/
def Phase.live : Phase → Bool
  | .done _ | .dropped => false
  | _ => true

/-- The response a call returned, once it returned one. -/
def Call.response (call : Call) : Option Response :=
  match call.phase with
  | .done (.ok response) => some response
  | _ => none

/-- Refresh calls interleaved at their awaits, at clock `now`, taking no lock. -/
def program (config : Config) (now : Nat) : Interleaving.Program TokenStore Call Unit Empty where
  awaits _ := none
  holds _ := []
  live call := call.phase.live
  resume store call :=
    ((call.advance config now store).1, { call with phase := (call.advance config now store).2 })
  cancel call := { call with phase := .dropped }
  env _ event := event.elim

/-- On the rotation path the route is the call's pieces run back to back: the outgoing token read,
removed, the successor written, then the access token. -/
theorem refreshTokenRoute_of_rotating {config : Config} {now : Nat} {store : TokenStore}
    {claim : String} {user : UserId} {device : DeviceId}
    (rotates : rotating config now store claim = some (user, device))
    (randomAccess randomRefresh : GeneratedToken) :
    refreshTokenRoute config now store claim randomAccess randomRefresh =
      some (.ok ⟨randomAccess.value, some (generateRefreshToken randomRefresh),
          some config.accessTokenTtl⟩,
        ((store.removeRefreshToken user device).refreshWrite config now user device
            (generateRefreshToken randomRefresh) (refreshCapture config store user device).1
            (refreshCapture config store user device).2).accessWrite now user device
          randomAccess.value (some config.accessTokenTtl)) := by
  unfold rotating at rotates
  split_ifs at rotates with prefixed
  split at rotates
  · rename_i user' device' expiresAt classified
    split_ifs at rotates with expired
    cases rotates
    simp [refreshTokenRoute, prefixed, classified, expired, setAccessToken_eq_steps,
      setRefreshToken_eq_steps, generateAccessToken, randomAccess.length_eq]
  · cases rotates

/-- A call polled alone does what `refresh_token_route` does. -/
theorem run_alone (config : Config) (now : Nat) (store : TokenStore) (call : Call)
    (fresh : call.phase = .start) :
    ∃ polls, StepRun.run (Interleaving.step (program config now)) ⟨store, [call]⟩
        (List.replicate polls (.poll 0)) =
      (refreshTokenRoute config now store call.claim call.randomAccess call.randomRefresh).map
        fun routed => ⟨routed.2, [{ call with phase := .done routed.1 }]⟩ := by
  obtain ⟨claim, randomAccess, randomRefresh, phase⟩ := call
  cases fresh
  cases rotates : rotating config now store claim with
  | none =>
      -- every other path runs in one poll
      obtain ⟨⟨result, store'⟩, routed⟩ := Option.isSome_iff_exists.mp
        (refreshTokenRoute_isSome config now store claim randomAccess randomRefresh)
      refine ⟨1, ?_⟩
      simp [Interleaving.step, program, Call.advance, rotates, routed, Phase.live]
  | some target =>
      -- the rotation path runs in five: classify, read, remove, write, access
      obtain ⟨user, device⟩ := target
      refine ⟨5, ?_⟩
      rw [refreshTokenRoute_of_rotating rotates]
      simp [Interleaving.step, program, Call.advance, rotates, Phase.live, generateAccessToken]

section Race

variable {config : Config} {now : Nat} {store : TokenStore} {claim : String}
  {user : UserId} {device : DeviceId}
  {firstAccess firstRefresh secondAccess secondRefresh : GeneratedToken}

/-- Two calls presenting one current token, polled in turn: both are classified before either
rotates, both read the same outgoing token, and both write a successor. -/
theorem refresh_rotation_races (rotates : rotating config now store claim = some (user, device))
    (distinct : firstRefresh.value ≠ secondRefresh.value)
    (fresh : ¬store.AccessTokenOf user device (generateRefreshToken firstRefresh)) :
    ∃ final, StepRun.run (Interleaving.step (program config now))
        ⟨store, [⟨claim, firstAccess, firstRefresh, .start⟩,
          ⟨claim, secondAccess, secondRefresh, .start⟩]⟩
        [.poll 0, .poll 1, .poll 0, .poll 1, .poll 0, .poll 1, .poll 0, .poll 1, .poll 0,
          .poll 1] = some final ∧
      final.tasks.map Call.response =
        [some ⟨firstAccess.value, some (generateRefreshToken firstRefresh),
            some config.accessTokenTtl⟩,
          some ⟨secondAccess.value, some (generateRefreshToken secondRefresh),
            some config.accessTokenTtl⟩] ∧
      (∃ expiresAt, final.shared.findFromToken (generateRefreshToken firstRefresh) =
        some (user, device, expiresAt)) ∧
      (∃ expiresAt, final.shared.findFromToken (generateRefreshToken secondRefresh) =
        some (user, device, expiresAt)) ∧
      final.shared.userdeviceidRefresh.get (user, device) =
        some (generateRefreshToken secondRefresh) ∧
      ¬final.shared.Resolvable := by
  set capture := refreshCapture config store user device
  set firstToken := generateRefreshToken firstRefresh
  set secondToken := generateRefreshToken secondRefresh
  -- the writes of the schedule: both removals, both refresh writes, both access writes
  set removed := (store.removeRefreshToken user device).removeRefreshToken user device
  obtain ⟨firstExpiresAt, firstTokens, -, firstPointer, firstIndex⟩ :=
    refreshWrite_tables config now removed user device firstToken capture.1 capture.2
  set rotated := removed.refreshWrite config now user device firstToken capture.1 capture.2
  obtain ⟨secondExpiresAt, secondTokens, secondCurrent, secondPointer, secondIndex⟩ :=
    refreshWrite_tables config now rotated user device secondToken capture.1 capture.2
  set rerotated := rotated.refreshWrite config now user device secondToken capture.1 capture.2
  set final := (rerotated.accessWrite now user device firstAccess.value
    (some config.accessTokenTtl)).accessWrite now user device secondAccess.value
      (some config.accessTokenTtl)
  have ran : StepRun.run (Interleaving.step (program config now))
      ⟨store, [⟨claim, firstAccess, firstRefresh, .start⟩,
        ⟨claim, secondAccess, secondRefresh, .start⟩]⟩
      [.poll 0, .poll 1, .poll 0, .poll 1, .poll 0, .poll 1, .poll 0, .poll 1, .poll 0,
        .poll 1] =
      some ⟨final,
        [⟨claim, firstAccess, firstRefresh,
            .done (.ok ⟨firstAccess.value, some firstToken, some config.accessTokenTtl⟩)⟩,
          ⟨claim, secondAccess, secondRefresh,
            .done (.ok ⟨secondAccess.value, some secondToken,
              some config.accessTokenTtl⟩)⟩]⟩ := by
    simp [StepRun.run_cons, Interleaving.step, program, Call.advance, rotates, Phase.live,
      generateAccessToken]
    exact ⟨rfl, rfl, rfl⟩
  have tokensDiffer : firstToken ≠ secondToken := fun same =>
    distinct (generateRefreshToken_inj.mp same)
  have firstNotAccess : ∀ random : GeneratedToken, firstToken ≠ random.value :=
    generateRefreshToken_ne_value _
  have secondNotAccess : ∀ random : GeneratedToken, secondToken ≠ random.value :=
    generateRefreshToken_ne_value _
  have firstResolves : final.findFromToken firstToken = some (user, device, firstExpiresAt) := by
    simp only [final, findFromToken_accessWrite, if_neg (firstNotAccess _)]
    simp [findFromToken, secondTokens, firstTokens, tokensDiffer]
  have pointer : final.userdeviceidRefresh.get (user, device) = some secondToken := by
    simp [final, secondCurrent]
  refine ⟨_, ran, by simp [Call.response], ⟨_, firstResolves⟩, ⟨secondExpiresAt, ?_⟩, pointer,
    ?_⟩
  · simp only [final, findFromToken_accessWrite, if_neg (secondNotAccess _)]
    simp [findFromToken, secondTokens]
  · -- the first successor resolves, but is neither recorded as an access token nor current
    intro resolvable
    obtain access | current := resolvable firstToken user device firstExpiresAt firstResolves
    · have recorded : rerotated.AccessTokenOf user device firstToken := by
        simpa [final, accessTokenOf_accessWrite, firstNotAccess] using access
      -- neither removal nor refresh write touches the access-token tables
      exact fresh (by simpa [AccessTokenOf, secondPointer, secondIndex, firstPointer, firstIndex,
        removed] using recorded)
    · rw [pointer] at current
      exact tokensDiffer (Option.some.inj current).symm

end Race

/-- A generated token of 32 `A`s. -/
def randomA : GeneratedToken := ⟨"AAAAAAAAAAAAAAAAAAAAAAAAAAAAAAAA", by decide⟩

/-- A generated token of 32 `B`s. -/
def randomB : GeneratedToken := ⟨"BBBBBBBBBBBBBBBBBBBBBBBBBBBBBBBB", by decide⟩

/-- A generated token of 32 `C`s. -/
def randomC : GeneratedToken := ⟨"CCCCCCCCCCCCCCCCCCCCCCCCCCCCCCCC", by decide⟩

/-- A generated token of 32 `D`s. -/
def randomD : GeneratedToken := ⟨"DDDDDDDDDDDDDDDDDDDDDDDDDDDDDDDD", by decide⟩

/-- `@alice:example.com`'s `DEVICE`, holding the refresh token generated from `randomA` and no
access token, under the default configuration. -/
def aliceTables : TokenStore :=
  TokenStore.empty.setRefreshToken Config.default 0 ⟨"alice", "example.com"⟩ "DEVICE"
    (generateRefreshToken randomA)

/-- The device's token presented twice at clock 10: both calls rotate, and the first successor
still resolves once the second is current. -/
theorem refresh_rotation_races_alice :
    rotating Config.default 10 aliceTables (generateRefreshToken randomA) =
        some (⟨"alice", "example.com"⟩, "DEVICE") ∧
      randomB.value ≠ randomD.value ∧
      ¬aliceTables.AccessTokenOf ⟨"alice", "example.com"⟩ "DEVICE"
        (generateRefreshToken randomB) ∧
      ∃ final, StepRun.run (Interleaving.step (program Config.default 10))
          ⟨aliceTables, [⟨generateRefreshToken randomA, randomA, randomB, .start⟩,
            ⟨generateRefreshToken randomA, randomC, randomD, .start⟩]⟩
          [.poll 0, .poll 1, .poll 0, .poll 1, .poll 0, .poll 1, .poll 0, .poll 1, .poll 0,
            .poll 1] = some final ∧
        final.tasks.map Call.response =
          [some ⟨randomA.value, some (generateRefreshToken randomB), some 604800⟩,
            some ⟨randomC.value, some (generateRefreshToken randomD), some 604800⟩] ∧
        (∃ expiresAt, final.shared.findFromToken (generateRefreshToken randomB) =
          some (⟨"alice", "example.com"⟩, "DEVICE", expiresAt)) ∧
        (∃ expiresAt, final.shared.findFromToken (generateRefreshToken randomD) =
          some (⟨"alice", "example.com"⟩, "DEVICE", expiresAt)) ∧
        final.shared.userdeviceidRefresh.get (⟨"alice", "example.com"⟩, "DEVICE") =
          some (generateRefreshToken randomD) ∧
        ¬final.shared.Resolvable := by
  have rotates : rotating Config.default 10 aliceTables (generateRefreshToken randomA) =
      some (⟨"alice", "example.com"⟩, "DEVICE") := by decide +kernel
  have distinct : randomB.value ≠ randomD.value := by decide
  have fresh : ¬aliceTables.AccessTokenOf ⟨"alice", "example.com"⟩ "DEVICE"
      (generateRefreshToken randomB) := by
    unfold AccessTokenOf
    decide +kernel
  exact ⟨rotates, distinct, fresh, refresh_rotation_races rotates distinct fresh⟩

end Client
end Tuwunel
