import Tuwunel.Library.StepRun
import Tuwunel.Api.Client.Session.Refresh

/-!
# Authenticating a client request

`auth` reads the bearer token (or the `access_token` query parameter) and asks `find_token`,
which races `find_from_token` against the appservice lookup with `select_ok` and keeps whichever
succeeds first.  `find_from_token` answers for every row of `token_userdeviceid`, so the
authenticator accepts exactly the tokens that resolve: by `Resolvable`, the access tokens
recorded for their device and the devices' current refresh tokens.

The token operations form a state machine over the token tables; `Resolvable` holds after every
run of them, which bounds what `find_token` can accept.  It does not keep refresh tokens out: a
refresh token handed out by `set_access_token` authenticates as its device, and keeps doing so
after the access token issued with it has expired.
-/

namespace Tuwunel
namespace Router

open Users TokenStore

/-- `RegistrationInfo`, of which the lookup reads the `as_token`. -/
structure RegistrationInfo where
  /-- The registration's `id`. -/
  id : String
  /-- The registration's `as_token`. -/
  asToken : String
  deriving DecidableEq, Repr

/-- `Token`, what the authenticator made of the presented credential. -/
inductive Token
  /-- An appservice's `as_token`. -/
  | appservice (info : RegistrationInfo)
  /-- A token resolved by `find_from_token`. -/
  | user (user : UserId × DeviceId × Option Nat)
  /-- A user token whose expiry has passed. -/
  | expired (accessToken : String)
  /-- A token nothing resolved. -/
  | invalid
  /-- No token presented. -/
  | none
  deriving DecidableEq, Repr

/-- `appservice::Service::find_from_access_token`, over the registrations in iteration order. -/
def findFromAccessToken (registrations : List RegistrationInfo) (token : String) :
    Option RegistrationInfo :=
  registrations.find? (·.asToken = token)

/-- `select_ok` over lookups listed in the order they complete: the first that succeeds. -/
def selectOk {β : Type} (completed : List (Option β)) : Option β :=
  completed.findSome? id

/-- `find_token`; `userFirst` says which lookup completes first. -/
def findToken (store : TokenStore) (registrations : List RegistrationInfo) (userFirst : Bool) :
    Option String → Token
  | Option.none => .none
  | some token =>
      let userToken := (store.findFromToken token).map Token.user
      let appserviceToken := (findFromAccessToken registrations token).map Token.appservice
      let completed := if userFirst then [userToken, appserviceToken] else [appserviceToken, userToken]
      (selectOk completed).getD .invalid

/-- The token `auth` hands to dispatch at clock `now`: a user token past its expiry is expired. -/
def authToken (store : TokenStore) (registrations : List RegistrationInfo) (userFirst : Bool)
    (now : Nat) (accessToken : Option String) : Token :=
  match findToken store registrations userFirst accessToken with
  | .user (_, _, some expiresAt) =>
      if expiresAt < now then .expired (accessToken.getD "")
      else findToken store registrations userFirst accessToken
  | token => token

/-- Where nothing but the user lookup succeeds, `find_token` is `find_from_token`, whichever
lookup completes first. -/
theorem findToken_of_no_appservice {store : TokenStore} {registrations : List RegistrationInfo}
    {token : String} (noAppservice : findFromAccessToken registrations token = Option.none)
    (userFirst : Bool) :
    findToken store registrations userFirst (some token) =
      ((store.findFromToken token).map Token.user).getD .invalid := by
  cases userFirst <;> cases lookup : store.findFromToken token <;>
    simp [findToken, selectOk, noAppservice, lookup]

/-! ## Runs of token operations -/

/-- The token operations, each at a clock reading where it reads the clock. -/
inductive Operation
  /-- `set_access_token`. -/
  | setAccessToken (user : UserId) (device : DeviceId) (accessToken : String)
      (expiresIn : Option Nat) (refreshToken : Option String)
  /-- `set_refresh_token`. -/
  | setRefreshToken (user : UserId) (device : DeviceId) (refreshToken : String)
  /-- `remove_access_token`. -/
  | removeAccessToken (user : UserId) (device : DeviceId)
  /-- `remove_access_token_value`. -/
  | removeAccessTokenValue (accessToken : String)
  /-- `remove_refresh_token`. -/
  | removeRefreshToken (user : UserId) (device : DeviceId)
  /-- `remove_tokens`. -/
  | removeTokens (user : UserId) (device : DeviceId)
  /-- A call of `refresh_token_route`. -/
  | refresh (refreshToken : String) (randomAccess randomRefresh : GeneratedToken)

/-- One operation at clock `now`; `none` is a panic. -/
def step (config : Config) (store : TokenStore) : Nat × Operation → Option TokenStore
  | (now, .setAccessToken user device accessToken expiresIn refreshToken) =>
      store.setAccessToken config now user device accessToken expiresIn refreshToken
  | (now, .setRefreshToken user device refreshToken) =>
      some (store.setRefreshToken config now user device refreshToken)
  | (_, .removeAccessToken user device) => some (store.removeAccessToken user device)
  | (_, .removeAccessTokenValue accessToken) => some (store.removeAccessTokenValue accessToken)
  | (_, .removeRefreshToken user device) => some (store.removeRefreshToken user device)
  | (_, .removeTokens user device) => some (store.removeTokens user device)
  | (now, .refresh refreshToken randomAccess randomRefresh) =>
      (Client.refreshTokenRoute config now store refreshToken randomAccess randomRefresh).map
        Prod.snd

/-- A generated access token. -/
def sampleAccess : GeneratedToken := ⟨"0123456789abcdefghijklmnopqrstuv", by decide⟩

/-- A generated refresh-token suffix. -/
def sampleRefresh : GeneratedToken := ⟨"vutsrqponmlkjihgfedcba9876543210", by decide⟩

/-- One `set_access_token` call at time `0` giving a device an access token with the default
week's lifetime and a refresh token. -/
def sampleIssue : List (Nat × Operation) :=
  [(0, .setAccessToken ⟨"alice", "example.org"⟩ "DEVICE" sampleAccess.value (some 604800)
    (some (generateRefreshToken sampleRefresh)))]

theorem run_sampleIssue :
    ∃ store, StepRun.run (step Config.default) empty sampleIssue = some store ∧
      store.findFromToken sampleAccess.value = some (⟨"alice", "example.org"⟩, "DEVICE", some 604800) ∧
      store.findFromToken (generateRefreshToken sampleRefresh) =
        some (⟨"alice", "example.org"⟩, "DEVICE", Option.none) := by
  have distinct : generateRefreshToken sampleRefresh ≠ sampleAccess.value := by
    simp [generateRefreshToken, sampleRefresh, sampleAccess]
  obtain ⟨store, set⟩ := Option.isSome_iff_exists.mp
    (setAccessToken_generated Config.default 0
      (empty.setRefreshToken Config.default 0 ⟨"alice", "example.org"⟩ "DEVICE"
        (generateRefreshToken sampleRefresh))
      ⟨"alice", "example.org"⟩ "DEVICE" sampleAccess (some 604800) Option.none)
  have refreshed := findFromToken_setRefreshToken_self
    (show Config.default.refreshTokenTtl = 0 from rfl) 0 empty ⟨"alice", "example.org"⟩ "DEVICE"
    (generateRefreshToken sampleRefresh)
  refine ⟨store, by simp [sampleIssue, step, setAccessToken_some_refresh, set], ?_, ?_⟩
  · simp [findFromToken_setAccessToken set]
  · simp [findFromToken_setAccessToken set, distinct, refreshed]

/-- At a time past the access token's expiry, the access token of `sampleIssue` is expired, while
its refresh token, never passed as an access token, authenticates as the device, whichever lookup
completes first. -/
theorem refresh_token_authenticates :
    ∃ store, StepRun.run (step Config.default) empty sampleIssue = some store ∧
      generateRefreshToken sampleRefresh ≠ sampleAccess.value ∧
      ∀ userFirst,
        authToken store [] userFirst 604801 (some sampleAccess.value) =
            .expired sampleAccess.value ∧
          authToken store [] userFirst 604801 (some (generateRefreshToken sampleRefresh)) =
            .user (⟨"alice", "example.org"⟩, "DEVICE", Option.none) := by
  obtain ⟨store, ran, accessed, refreshed⟩ := run_sampleIssue
  have distinct : generateRefreshToken sampleRefresh ≠ sampleAccess.value := by
    simp [generateRefreshToken, sampleRefresh, sampleAccess]
  have noAppservice : ∀ token, findFromAccessToken [] token = Option.none := fun _ => rfl
  refine ⟨store, ran, distinct, fun userFirst => ⟨?_, ?_⟩⟩
  · simp [authToken, findToken_of_no_appservice (noAppservice _), accessed]
  · simp [authToken, findToken_of_no_appservice (noAppservice _), refreshed]

end Router
end Tuwunel
