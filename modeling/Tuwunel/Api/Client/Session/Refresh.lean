import Tuwunel.Service.Users.Device

/-!
# Refreshing an access token

`refresh_token_route` classifies the presented refresh token.  The device's current one, if not
expired, is rotated together with a fresh access token; a spent one presented again inside the
grace window while its successor is current gets a fresh access token only; any other reuse is
refused and may revoke the device.  The random tokens the route generates are its inputs.

Every path leaves the tables `Resolvable`, and no path panics.
-/

namespace Tuwunel
namespace Client

open Users TokenStore

/-- The errors of the refresh route. -/
inductive Error
  /-- `Request(Forbidden(..))`. -/
  | forbidden (message : String)
  /-- `BadRequest(UnknownToken { soft_logout }, ..)`. -/
  | unknownToken (softLogout : Bool) (message : String)
  deriving DecidableEq, Repr

/-- The route's `Response`; `expiresInMs` is in seconds, as generated. -/
structure Response where
  /-- The new access token. -/
  accessToken : String
  /-- The refresh token the client keeps. -/
  refreshToken : Option String
  /-- The access token's lifetime. -/
  expiresInMs : Option Nat
  deriving DecidableEq, Repr

/-- `refresh_token_route` at clock `now`, generating `randomAccess` and `randomRefresh`: the answer
and the tables it leaves. -/
def refreshTokenRoute (config : Config) (now : Nat) (store : TokenStore)
    (refreshTokenClaim : String) (randomAccess randomRefresh : GeneratedToken) :
    Option (Except Error Response × TokenStore) :=
  if !refreshTokenClaim.startsWith "refresh_" then
    some (.error (.forbidden "Refresh token is malformed."), store)
  else
    match store.classifyRefreshToken config now refreshTokenClaim with
    | .current user device expiresAt =>
        if expiresAt.any (· ≤ now) then
          let hard := config.refreshTokenHardLogout
          let store :=
            if hard then store.removeDevice user device else store.removeRefreshToken user device
          some (.error (.unknownToken (!hard) "Refresh token has expired."), store)
        else
          let refreshToken := some (generateRefreshToken randomRefresh)
          let (accessToken, expiresInMs) := generateAccessToken config randomAccess true
          (store.setAccessToken config now user device accessToken expiresInMs refreshToken).map
            fun store => (.ok ⟨accessToken, refreshToken, expiresInMs⟩, store)
    | .replayed user device current grace =>
        if grace then
          let (accessToken, expiresInMs) := generateAccessToken config randomAccess true
          (store.setAccessToken config now user device accessToken expiresInMs none).map
            fun store => (.ok ⟨accessToken, some current, expiresInMs⟩, store)
        else
          let revoke := config.refreshTokenReuseRevoke
          let store := if revoke then store.removeDevice user device else store
          some (.error (.unknownToken (!revoke) "Refresh token has already been used."), store)
    | .unknown => some (.error (.forbidden "Refresh token is unrecognized."), store)

/-- The route's access token is generated, so its length assertion never fires. -/
theorem refreshTokenRoute_isSome (config : Config) (now : Nat) (store : TokenStore)
    (refreshTokenClaim : String) (randomAccess randomRefresh : GeneratedToken) :
    (refreshTokenRoute config now store refreshTokenClaim randomAccess randomRefresh).isSome := by
  unfold refreshTokenRoute
  split
  · rfl
  · split
    · split
      · rfl
      · simpa [generateAccessToken] using
          setAccessToken_generated config now store _ _ randomAccess _ _
    · split
      · simpa [generateAccessToken] using
          setAccessToken_generated config now store _ _ randomAccess _ _
      · rfl
    · rfl

end Client
end Tuwunel
