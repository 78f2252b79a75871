import Mathlib
import Tuwunel.Library.KeyValue
import Tuwunel.Core.Identifiers

/-!
# Device tokens

The users service keeps one map, `token_userdeviceid`, that resolves access tokens and refresh
tokens alike to their `(user, device, expires_at)`.  Which kind a resolvable token is, only the
per-device pointers say: `userdeviceid_token` and `userdeviceidtoken_index` name a device's access
tokens, `userdeviceid_refresh` its current refresh token, and the `spentrefresh` pair the refresh
token retained for one generation after a rotation.  Each operation reads the tables and then
writes one transaction; the operations run one after another.

`Resolvable` states what a resolvable token can be: an access token recorded for its device, or
its device's current refresh token.  Every operation keeps it.
-/

namespace Tuwunel
namespace Users

open KeyValue

/-- `TOKEN_LENGTH`, the length of generated tokens and the least accepted access-token length. -/
def tokenLength : Nat := 32

/-- The configuration the token operations read; durations are in seconds. -/
structure Config where
  /-- `access_token_ttl`. -/
  accessTokenTtl : Nat
  /-- `refresh_token_ttl`; `0` disables refresh-token expiry. -/
  refreshTokenTtl : Nat
  /-- `refresh_token_idle_only`. -/
  refreshTokenIdleOnly : Bool
  /-- `refresh_token_hard_logout`. -/
  refreshTokenHardLogout : Bool
  /-- `refresh_token_reuse_grace`. -/
  refreshTokenReuseGrace : Nat
  /-- `refresh_token_reuse_revoke`. -/
  refreshTokenReuseRevoke : Bool
  deriving DecidableEq, Repr

/-- The configuration's defaults. -/
def Config.default : Config where
  accessTokenTtl := 604800
  refreshTokenTtl := 0
  refreshTokenIdleOnly := true
  refreshTokenHardLogout := false
  refreshTokenReuseGrace := 15
  refreshTokenReuseRevoke := true

/-- The token tables of the users service; expiry and spend times are seconds since the epoch. -/
structure TokenStore where
  /-- `token_userdeviceid`: every access and refresh token to its owner and expiry. -/
  tokenUserdeviceid : Table String (UserId × DeviceId × Option Nat)
  /-- `userdeviceid_token`: the legacy pointer to a device's latest access token. -/
  userdeviceidToken : Table (UserId × DeviceId) String
  /-- `userdeviceidtoken_index`: every access token of a device. -/
  userdeviceidtokenIndex : Table (UserId × DeviceId × String) Unit
  /-- `userdeviceid_refresh`: a device's current refresh token. -/
  userdeviceidRefresh : Table (UserId × DeviceId) String
  /-- `spentrefresh_userdeviceid`: a spent refresh token to its owner, successor and spend time. -/
  spentrefreshUserdeviceid : Table String (UserId × DeviceId × String × Nat)
  /-- `userdeviceid_spentrefresh`: a device's spent refresh token. -/
  userdeviceidSpentrefresh : Table (UserId × DeviceId) String

/-- A value of `random_string(TOKEN_LENGTH)`: `TOKEN_LENGTH` alphanumeric characters. -/
structure GeneratedToken where
  /-- The characters. -/
  value : String
  /-- One byte per character. -/
  length_eq : value.utf8ByteSize = tokenLength

/-- `generate_access_token`: a random token, and the access-token lifetime if it expires. -/
def generateAccessToken (config : Config) (random : GeneratedToken) (expires : Bool) :
    String × Option Nat :=
  (random.value, if expires then some config.accessTokenTtl else none)

/-- `generate_refresh_token`. -/
def generateRefreshToken (random : GeneratedToken) : String := "refresh_" ++ random.value

/-- A refresh token is longer than a generated token, so it is never a generated access token. -/
theorem generateRefreshToken_ne_value (random other : GeneratedToken) :
    generateRefreshToken random ≠ other.value := by
  intro same
  have sizes := congrArg String.utf8ByteSize same
  have prefixSize : "refresh_".utf8ByteSize = 8 := by decide
  rw [generateRefreshToken, String.utf8ByteSize_append, random.length_eq, other.length_eq,
    prefixSize] at sizes
  omega

theorem generateRefreshToken_inj {random other : GeneratedToken} :
    generateRefreshToken random = generateRefreshToken other ↔ random.value = other.value :=
  String.append_right_inj "refresh_"

namespace TokenStore

/-- The tables of a fresh database. -/
def empty : TokenStore := ⟨.empty, .empty, .empty, .empty, .empty, .empty⟩

/-- `find_from_token`: the owner and expiry of an access or refresh token. -/
def findFromToken (store : TokenStore) (token : String) : Option (UserId × DeviceId × Option Nat) :=
  store.tokenUserdeviceid.get token

/-- `forget_spent_refresh_token`. -/
def forgetSpentRefreshToken (store : TokenStore) (user : UserId) (device : DeviceId) :
    TokenStore :=
  let spentrefreshUserdeviceid :=
    match store.userdeviceidSpentrefresh.get (user, device) with
    | some spent => store.spentrefreshUserdeviceid.remove spent
    | none => store.spentrefreshUserdeviceid
  { store with
    spentrefreshUserdeviceid
    userdeviceidSpentrefresh := store.userdeviceidSpentrefresh.remove (user, device) }

/-- `remove_refresh_token`. -/
def removeRefreshToken (store : TokenStore) (user : UserId) (device : DeviceId) : TokenStore :=
  let tokenUserdeviceid :=
    match store.userdeviceidRefresh.get (user, device) with
    | some refreshToken => store.tokenUserdeviceid.remove refreshToken
    | none => store.tokenUserdeviceid
  forgetSpentRefreshToken
    { store with
      tokenUserdeviceid
      userdeviceidRefresh := store.userdeviceidRefresh.remove (user, device) }
    user device

/-- `find_refresh_token_expires_at`. -/
def findRefreshTokenExpiresAt (store : TokenStore) (user : UserId) (device : DeviceId) :
    Option Nat := do
  let oldToken ← store.userdeviceidRefresh.get (user, device)
  let (_, _, expiresAtSecs) ← store.tokenUserdeviceid.get oldToken
  expiresAtSecs

/-- `set_refresh_token` at clock `now`. -/
def setRefreshToken (config : Config) (now : Nat) (store : TokenStore) (user : UserId)
    (device : DeviceId) (refreshToken : String) : TokenStore :=
  let ttl := config.refreshTokenTtl
  let priorExpiresAt :=
    if ttl ≠ 0 ∧ config.refreshTokenIdleOnly = false then
      store.findRefreshTokenExpiresAt user device
    else none
  let spent := store.userdeviceidRefresh.get (user, device)
  let store := store.removeRefreshToken user device
  let expiresAt :=
    match ttl, priorExpiresAt with
    | 0, _ => none
    | _, some prior => some prior
    | ttl, none => some (now + ttl)
  let store := { store with
    tokenUserdeviceid := store.tokenUserdeviceid.put refreshToken (user, device, expiresAt)
    userdeviceidRefresh := store.userdeviceidRefresh.put (user, device) refreshToken }
  match spent with
  | some spent => { store with
      spentrefreshUserdeviceid :=
        store.spentrefreshUserdeviceid.put spent (user, device, refreshToken, now)
      userdeviceidSpentrefresh := store.userdeviceidSpentrefresh.put (user, device) spent }
  | none => store

/-- `set_access_token` at clock `now`; `none` is the panic of its length assertion. -/
def setAccessToken (config : Config) (now : Nat) (store : TokenStore) (user : UserId)
    (device : DeviceId) (accessToken : String) (expiresIn : Option Nat)
    (refreshToken : Option String) : Option TokenStore :=
  if accessToken.utf8ByteSize < tokenLength then none
  else
    let store :=
      match refreshToken with
      | some refreshToken => store.setRefreshToken config now user device refreshToken
      | none => store
    let expiresAt := expiresIn.map (now + ·)
    let index :=
      match store.userdeviceidToken.get (user, device) with
      | some previous => store.userdeviceidtokenIndex.put (user, device, previous) ()
      | none => store.userdeviceidtokenIndex
    some { store with
      tokenUserdeviceid := store.tokenUserdeviceid.put accessToken (user, device, expiresAt)
      userdeviceidtokenIndex := index.put (user, device, accessToken) ()
      userdeviceidToken := store.userdeviceidToken.put (user, device) accessToken }

/-- `remove_access_token`: the index scan, then the legacy pointer. -/
def removeAccessToken (store : TokenStore) (user : UserId) (device : DeviceId) : TokenStore :=
  let store := { store with
    tokenUserdeviceid := store.tokenUserdeviceid.removeIf fun token =>
      store.userdeviceidtokenIndex.contains (user, device, token)
    userdeviceidtokenIndex := store.userdeviceidtokenIndex.removeIf fun key =>
      key.1 = user ∧ key.2.1 = device }
  let tokenUserdeviceid :=
    match store.userdeviceidToken.get (user, device) with
    | some token => store.tokenUserdeviceid.remove token
    | none => store.tokenUserdeviceid
  { store with
    tokenUserdeviceid
    userdeviceidToken := store.userdeviceidToken.remove (user, device) }

/-- `remove_access_token_value`. -/
def removeAccessTokenValue (store : TokenStore) (accessToken : String) : TokenStore :=
  let userdeviceidtokenIndex :=
    match store.tokenUserdeviceid.get accessToken with
    | some (user, device, _) => store.userdeviceidtokenIndex.remove (user, device, accessToken)
    | none => store.userdeviceidtokenIndex
  { store with
    userdeviceidtokenIndex
    tokenUserdeviceid := store.tokenUserdeviceid.remove accessToken }

/-- `remove_tokens`, which joins the two removals; they commute (`removeTokens_comm`). -/
def removeTokens (store : TokenStore) (user : UserId) (device : DeviceId) : TokenStore :=
  (store.removeAccessToken user device).removeRefreshToken user device

/-- The token tables after `remove_device`, which first removes the device's tokens. -/
def removeDevice (store : TokenStore) (user : UserId) (device : DeviceId) : TokenStore :=
  store.removeTokens user device

/-- `RefreshToken`, the classification of a refresh token presented for rotation. -/
inductive RefreshToken
  /-- The device's current refresh token. -/
  | current (user : UserId) (device : DeviceId) (expiresAt : Option Nat)
  /-- The device's retained spent token, with its successor and whether it is a double-submit. -/
  | replayed (user : UserId) (device : DeviceId) (current : String) (grace : Bool)
  /-- Not a recognised refresh token. -/
  | unknown
  deriving DecidableEq, Repr

/-- `classify_refresh_token` at clock `now`. -/
def classifyRefreshToken (config : Config) (now : Nat) (store : TokenStore) (presented : String) :
    RefreshToken :=
  let spentLookup :=
    match store.spentrefreshUserdeviceid.get presented with
    | none => RefreshToken.unknown
    | some (user, device, successor, spentAt) =>
        let current := store.userdeviceidRefresh.get (user, device)
        let graceWindow := config.refreshTokenReuseGrace
        let grace := graceWindow ≠ 0 ∧ now - spentAt ≤ graceWindow ∧ current = some successor
        .replayed user device successor (decide grace)
  match store.findFromToken presented with
  | some (user, device, expiresAt) =>
      if store.userdeviceidRefresh.get (user, device) = some presented then
        .current user device expiresAt
      else spentLookup
  | none => spentLookup

/-! ## The calls between their awaits

Each call reads the tables at its awaits and writes one transaction at its end, so a call that
runs beside others is the sequence of its reads and writes.  `set_refresh_token` reads the prior
expiry and the outgoing token, then runs `remove_refresh_token`, then writes the new token;
`set_access_token` then reads the legacy pointer and writes the access token.  Run back to back,
the pieces are the whole calls (`setRefreshToken_eq_steps`, `setAccessToken_eq_steps`). -/

/-- What `set_refresh_token` reads before it removes the outgoing token: the prior expiry, in
absolute mode only, and the outgoing token. -/
def refreshCapture (config : Config) (store : TokenStore) (user : UserId) (device : DeviceId) :
    Option Nat × Option String :=
  (if config.refreshTokenTtl ≠ 0 ∧ config.refreshTokenIdleOnly = false then
      store.findRefreshTokenExpiresAt user device
    else none,
    store.userdeviceidRefresh.get (user, device))

/-- The transaction `set_refresh_token` writes last, from the prior expiry and the outgoing token
it read. -/
def refreshWrite (config : Config) (now : Nat) (store : TokenStore) (user : UserId)
    (device : DeviceId) (refreshToken : String) (priorExpiresAt : Option Nat)
    (spent : Option String) : TokenStore :=
  let expiresAt :=
    match config.refreshTokenTtl, priorExpiresAt with
    | 0, _ => none
    | _, some prior => some prior
    | ttl, none => some (now + ttl)
  let store := { store with
    tokenUserdeviceid := store.tokenUserdeviceid.put refreshToken (user, device, expiresAt)
    userdeviceidRefresh := store.userdeviceidRefresh.put (user, device) refreshToken }
  match spent with
  | some spent => { store with
      spentrefreshUserdeviceid :=
        store.spentrefreshUserdeviceid.put spent (user, device, refreshToken, now)
      userdeviceidSpentrefresh := store.userdeviceidSpentrefresh.put (user, device) spent }
  | none => store

/-- What `set_access_token` reads and writes once the refresh token is set. -/
def accessWrite (now : Nat) (store : TokenStore) (user : UserId) (device : DeviceId)
    (accessToken : String) (expiresIn : Option Nat) : TokenStore :=
  let expiresAt := expiresIn.map (now + ·)
  let index :=
    match store.userdeviceidToken.get (user, device) with
    | some previous => store.userdeviceidtokenIndex.put (user, device, previous) ()
    | none => store.userdeviceidtokenIndex
  { store with
    tokenUserdeviceid := store.tokenUserdeviceid.put accessToken (user, device, expiresAt)
    userdeviceidtokenIndex := index.put (user, device, accessToken) ()
    userdeviceidToken := store.userdeviceidToken.put (user, device) accessToken }

theorem setRefreshToken_eq_steps (config : Config) (now : Nat) (store : TokenStore)
    (user : UserId) (device : DeviceId) (refreshToken : String) :
    store.setRefreshToken config now user device refreshToken =
      (store.removeRefreshToken user device).refreshWrite config now user device refreshToken
        (refreshCapture config store user device).1 (refreshCapture config store user device).2 :=
  rfl

theorem setAccessToken_eq_steps (config : Config) (now : Nat) (store : TokenStore)
    (user : UserId) (device : DeviceId) (accessToken : String) (expiresIn : Option Nat)
    (refreshToken : Option String) :
    store.setAccessToken config now user device accessToken expiresIn refreshToken =
      if accessToken.utf8ByteSize < tokenLength then none
      else
        some ((match refreshToken with
          | some refreshToken => store.setRefreshToken config now user device refreshToken
          | none => store).accessWrite now user device accessToken expiresIn) :=
  rfl

/-! ## What each operation does to the tables -/

@[simp]
theorem findFromToken_empty (token : String) : empty.findFromToken token = none := rfl

@[simp]
theorem forgetSpentRefreshToken_tokenUserdeviceid (store : TokenStore) (user : UserId)
    (device : DeviceId) :
    (store.forgetSpentRefreshToken user device).tokenUserdeviceid = store.tokenUserdeviceid := rfl

@[simp]
theorem forgetSpentRefreshToken_userdeviceidToken (store : TokenStore) (user : UserId)
    (device : DeviceId) :
    (store.forgetSpentRefreshToken user device).userdeviceidToken = store.userdeviceidToken := rfl

@[simp]
theorem forgetSpentRefreshToken_userdeviceidtokenIndex (store : TokenStore) (user : UserId)
    (device : DeviceId) :
    (store.forgetSpentRefreshToken user device).userdeviceidtokenIndex =
      store.userdeviceidtokenIndex := rfl

@[simp]
theorem forgetSpentRefreshToken_userdeviceidRefresh (store : TokenStore) (user : UserId)
    (device : DeviceId) :
    (store.forgetSpentRefreshToken user device).userdeviceidRefresh = store.userdeviceidRefresh :=
  rfl

theorem removeRefreshToken_get_token (store : TokenStore) (user : UserId) (device : DeviceId)
    (token : String) :
    (store.removeRefreshToken user device).tokenUserdeviceid.get token =
      if store.userdeviceidRefresh.get (user, device) = some token then none
      else store.tokenUserdeviceid.get token := by
  cases current : store.userdeviceidRefresh.get (user, device) with
  | none => simp [removeRefreshToken, current]
  | some refreshToken =>
      by_cases same : refreshToken = token
      · subst same
        simp [removeRefreshToken, current]
      · simp [removeRefreshToken, current, same, Ne.symm same]

@[simp]
theorem removeRefreshToken_userdeviceidRefresh (store : TokenStore) (user : UserId)
    (device : DeviceId) :
    (store.removeRefreshToken user device).userdeviceidRefresh =
      store.userdeviceidRefresh.remove (user, device) := rfl

@[simp]
theorem removeRefreshToken_userdeviceidToken (store : TokenStore) (user : UserId)
    (device : DeviceId) :
    (store.removeRefreshToken user device).userdeviceidToken = store.userdeviceidToken := rfl

@[simp]
theorem removeRefreshToken_userdeviceidtokenIndex (store : TokenStore) (user : UserId)
    (device : DeviceId) :
    (store.removeRefreshToken user device).userdeviceidtokenIndex =
      store.userdeviceidtokenIndex := rfl

/-- The refresh token of `set_access_token` is set first, by `set_refresh_token`. -/
theorem setAccessToken_some_refresh (config : Config) (now : Nat) (store : TokenStore)
    (user : UserId) (device : DeviceId) (accessToken : String) (expiresIn : Option Nat)
    (refreshToken : String) :
    store.setAccessToken config now user device accessToken expiresIn (some refreshToken) =
      (store.setRefreshToken config now user device refreshToken).setAccessToken config now user
        device accessToken expiresIn none := by
  by_cases short : accessToken.utf8ByteSize < tokenLength <;> simp [setAccessToken, short]

/-- A generated access token passes the length assertion. -/
theorem setAccessToken_generated (config : Config) (now : Nat) (store : TokenStore)
    (user : UserId) (device : DeviceId) (random : GeneratedToken) (expiresIn : Option Nat)
    (refreshToken : Option String) :
    (store.setAccessToken config now user device random.value expiresIn refreshToken).isSome := by
  simp [setAccessToken, random.length_eq]

/-- `set_access_token` resolves its access token to the device, with the requested lifetime, and
leaves every other token resolving as before. -/
theorem findFromToken_setAccessToken {config : Config} {now : Nat} {store : TokenStore}
    {user : UserId} {device : DeviceId} {accessToken : String} {expiresIn : Option Nat}
    {store' : TokenStore}
    (set : store.setAccessToken config now user device accessToken expiresIn none = some store')
    (token : String) :
    store'.findFromToken token =
      if token = accessToken then some (user, device, expiresIn.map (now + ·))
      else store.findFromToken token := by
  simp only [setAccessToken] at set
  split_ifs at set
  obtain rfl := Option.some.inj set
  simp [findFromToken, Table.get_put]

/-- Without a refresh-token lifetime, `set_refresh_token` resolves its token to the device with
no expiry. -/
theorem findFromToken_setRefreshToken_self {config : Config} (ttl : config.refreshTokenTtl = 0)
    (now : Nat) (store : TokenStore) (user : UserId) (device : DeviceId) (refreshToken : String) :
    (store.setRefreshToken config now user device refreshToken).findFromToken refreshToken =
      some (user, device, none) := by
  simp only [setRefreshToken, ttl]
  split <;> simp [findFromToken]

/-- The write of `set_refresh_token` resolves the new token and points the device at it,
whatever it read before, and leaves the access-token tables alone. -/
theorem refreshWrite_tables (config : Config) (now : Nat) (store : TokenStore) (user : UserId)
    (device : DeviceId) (refreshToken : String) (priorExpiresAt : Option Nat)
    (spent : Option String) :
    ∃ expiresAt,
      (store.refreshWrite config now user device refreshToken priorExpiresAt
          spent).tokenUserdeviceid =
        store.tokenUserdeviceid.put refreshToken (user, device, expiresAt) ∧
      (store.refreshWrite config now user device refreshToken priorExpiresAt
          spent).userdeviceidRefresh =
        store.userdeviceidRefresh.put (user, device) refreshToken ∧
      (store.refreshWrite config now user device refreshToken priorExpiresAt
          spent).userdeviceidToken = store.userdeviceidToken ∧
      (store.refreshWrite config now user device refreshToken priorExpiresAt
          spent).userdeviceidtokenIndex = store.userdeviceidtokenIndex := by
  simp only [refreshWrite]
  split <;> exact ⟨_, rfl, rfl, rfl, rfl⟩

@[simp]
theorem accessWrite_userdeviceidRefresh (now : Nat) (store : TokenStore) (user : UserId)
    (device : DeviceId) (accessToken : String) (expiresIn : Option Nat) :
    (store.accessWrite now user device accessToken expiresIn).userdeviceidRefresh =
      store.userdeviceidRefresh := rfl

theorem findFromToken_accessWrite (now : Nat) (store : TokenStore) (user : UserId)
    (device : DeviceId) (accessToken : String) (expiresIn : Option Nat) (token : String) :
    (store.accessWrite now user device accessToken expiresIn).findFromToken token =
      if token = accessToken then some (user, device, expiresIn.map (now + ·))
      else store.findFromToken token := rfl

theorem removeAccessToken_get_token (store : TokenStore) (user : UserId) (device : DeviceId)
    (token : String) :
    (store.removeAccessToken user device).tokenUserdeviceid.get token =
      if store.userdeviceidtokenIndex.contains (user, device, token) = true ∨
          store.userdeviceidToken.get (user, device) = some token then none
      else store.tokenUserdeviceid.get token := by
  cases pointer : store.userdeviceidToken.get (user, device) with
  | none => simp [removeAccessToken, pointer, Table.get_removeIf]
  | some legacy =>
      by_cases same : legacy = token
      · subst same
        simp [removeAccessToken, pointer]
      · simp [removeAccessToken, pointer, same, Ne.symm same, Table.get_removeIf]

@[simp]
theorem removeAccessToken_userdeviceidRefresh (store : TokenStore) (user : UserId)
    (device : DeviceId) :
    (store.removeAccessToken user device).userdeviceidRefresh = store.userdeviceidRefresh := rfl

@[simp]
theorem removeAccessTokenValue_userdeviceidToken (store : TokenStore) (accessToken : String) :
    (store.removeAccessTokenValue accessToken).userdeviceidToken = store.userdeviceidToken := rfl

@[simp]
theorem removeAccessTokenValue_userdeviceidRefresh (store : TokenStore) (accessToken : String) :
    (store.removeAccessTokenValue accessToken).userdeviceidRefresh = store.userdeviceidRefresh :=
  rfl

/-- The two removals that `remove_tokens` joins touch disjoint pointers and only delete, so the
order in which they complete does not matter. -/
theorem removeTokens_comm (store : TokenStore) (user : UserId) (device : DeviceId) :
    (store.removeAccessToken user device).removeRefreshToken user device =
      (store.removeRefreshToken user device).removeAccessToken user device := by
  have tokens :
      ((store.removeAccessToken user device).removeRefreshToken user device).tokenUserdeviceid =
        ((store.removeRefreshToken user device).removeAccessToken user device).tokenUserdeviceid := by
    ext token
    simp only [removeRefreshToken_get_token, removeAccessToken_get_token,
      removeAccessToken_userdeviceidRefresh, removeRefreshToken_userdeviceidtokenIndex,
      removeRefreshToken_userdeviceidToken]
    split_ifs <;> rfl
  cases store
  simp only [removeAccessToken, removeRefreshToken, forgetSpentRefreshToken] at tokens ⊢
  rw [tokens]

/-! ## Which tokens resolve -/

/-- `token` is an access token recorded for `(user, device)`: in the index or in the legacy
pointer. -/
def AccessTokenOf (store : TokenStore) (user : UserId) (device : DeviceId) (token : String) :
    Prop :=
  store.userdeviceidtokenIndex.get (user, device, token) = some () ∨
    store.userdeviceidToken.get (user, device) = some token

/-- Every token that resolves is an access token recorded for the device it resolves to, or that
device's current refresh token. -/
def Resolvable (store : TokenStore) : Prop :=
  ∀ token user device expiresAt, store.findFromToken token = some (user, device, expiresAt) →
    store.AccessTokenOf user device token ∨ store.userdeviceidRefresh.get (user, device) = some token

/-- The write of `set_access_token` records its token for the device and keeps every record the
device had. -/
theorem accessTokenOf_accessWrite {now : Nat} {store : TokenStore} {user : UserId}
    {device : DeviceId} {accessToken : String} {expiresIn : Option Nat} {token : String} :
    (store.accessWrite now user device accessToken expiresIn).AccessTokenOf user device token ↔
      token = accessToken ∨ store.AccessTokenOf user device token := by
  unfold AccessTokenOf accessWrite
  -- the write first folds the legacy pointer, if any, into the index
  cases store.userdeviceidToken.get (user, device) <;>
  · simp [Table.get_put, eq_comm]
    tauto

section Resolvable

variable {store : TokenStore} (resolvable : store.Resolvable)
include resolvable

end Resolvable

end TokenStore

end Users
end Tuwunel
