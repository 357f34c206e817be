import Voxera.EventLoop.Run
import Voxera.Iam.AuthenticationService

/-!
# The session life cycle of `IamServiceImpl`

The operations on sessions, over the rows of the session table; an operation that raises leaves the rows as they are.
Every instant that an operation reads is that of the state.

* `login`, `refreshTokens`, `logout`, `revokeSession` : the operations;
* `step` : a run of them, with the time between them;
* `Lawful` : what the tokens of a session are for;
* `run_lawful_iff` : every run is lawful exactly when no session is live at its beginning; `login` and `refreshTokens`
  raise whatever they are given.
-/

namespace Voxera.Iam

open Raising EventLoop

structure TokenPair where
  accessToken : Text
  refreshToken : Text
  deriving DecidableEq

/-- A row of `IamSessionModel`, as the schema reads it and with its two hashes. Beside the columns stand the pairs that
have been returned for the session: the latest one and the ones before it. -/
structure SessionRow where
  read : SessionRead
  tokenHash : Text
  refreshTokenHash : Option Text
  latest : TokenPair
  older : List TokenPair := []
  deriving DecidableEq

/-- The arguments of `SessionRead(...)`, those that the schema requires and a caller may leave out in an `Option`. -/
structure SessionFields where
  id : Uuid
  userId : Uuid
  organizationId : Option Uuid
  browser : Option Text
  ipAddress : Option Text
  country : Option (Option Text) := none
  device : Option Text
  status : IamSessionStatus
  expiresAt : ℤ
  revokedAt : Option ℤ
  createdAt : ℤ
  updatedAt : ℤ

/-- `SessionRead(...)`; a field of the schema without a default must be given. -/
def SessionRead.validate (fields : SessionFields) : Except IamError SessionRead := do
  let country ← present fields.country (.fieldRequired "country".toList)
  return {
    id := fields.id
    userId := fields.userId
    organizationId := fields.organizationId
    browser := fields.browser
    ipAddress := fields.ipAddress
    country
    device := fields.device
    status := .member fields.status
    expiresAt := fields.expiresAt
    revokedAt := fields.revokedAt
    createdAt := fields.createdAt
    updatedAt := fields.updatedAt }

/-- `session.refresh_token_hash` : the schema has no field of this name. -/
def SessionRead.refreshTokenHash (_ : SessionRead) : Except IamError (Option Text) :=
  .error (.attributeError "refresh_token_hash".toList)

def SessionRow.revoke (now : ℤ) (row : SessionRow) : SessionRow :=
  { row with read := { row.read with status := .member .REVOKED, revokedAt := some now } }

/-! ## `SqlAlchemySessionRepository` -/

namespace SessionRepository

/-- `create` : a row with the defaults of the columns `status` and `revoked_at`. -/
def create (rows : List SessionRow) (session : SessionRead) (tokenHash : Text) (refreshHash : Option Text)
    (pair : TokenPair) : List SessionRow :=
  rows ++ [{
    read := { session with status := .member .ACTIVE, revokedAt := none }
    tokenHash
    refreshTokenHash := refreshHash
    latest := pair }]

/-- `get_by_token_hash` -/
def getByTokenHash (rows : List SessionRow) (tokenHash : Text) : Except IamError (Option SessionRead) :=
  match rows.filter (fun row => row.tokenHash == tokenHash) with
  | [] => .ok none
  | [row] => .ok (some row.read)
  | _ => .error .multipleResultsFound

/-- `get_by_id` -/
def getById (rows : List SessionRow) (sessionId : Uuid) : Option SessionRead :=
  (rows.find? (fun row => row.read.id == sessionId)).map SessionRow.read

/-- The update of the row of a session. -/
def update (rows : List SessionRow) (sessionId : Uuid) (f : SessionRow → SessionRow) : List SessionRow :=
  rows.map (fun row => if row.read.id = sessionId then f row else row)

/-- `revoke` -/
def revoke (rows : List SessionRow) (now : ℤ) (sessionId : Uuid) : Except IamError (SessionRead × List SessionRow) := do
  let row ← present (rows.find? (fun row => row.read.id == sessionId)) (.attributeError "status".toList)
  return ((SessionRow.revoke now row).read, update rows sessionId (SessionRow.revoke now))

/-- `update_tokens` -/
def updateTokens (rows : List SessionRow) (sessionId : Uuid) (tokenHash refreshHash : Text) (expiresAt : ℤ)
    (pair : TokenPair) : Except IamError (List SessionRow) := do
  let _ ← present (rows.find? (fun row => row.read.id == sessionId)) .valueError
  return update rows sessionId (fun row => { row with
    read := { row.read with expiresAt, status := .member .ACTIVE, revokedAt := none }
    tokenHash
    refreshTokenHash := some refreshHash
    latest := pair
    older := row.latest :: row.older })

end SessionRepository

/-! ## `IamServiceImpl` -/

structure LoginRequest where
  email : Text
  password : Text
  organizationId : Option Uuid := none

structure AuthTokens where
  accessToken : Text
  refreshToken : Text
  expiresIn : ℤ
  user : UserRead
  organizationId : Option Uuid

/-- The collaborators of the service; the sessions of `auth` are those of the rows. `encode` signs a payload under the
key of the server. -/
structure IamService where
  auth : AuthenticationService
  usersByEmail : Text → Except IamError (Option (UserRead × Option Text))
  verifyPassword : Text → Text → Bool
  encode : Minted → Text
  accessTokenExpireMinutes : ℤ
  refreshTokenExpireDays : ℤ
  encode_injective : Function.Injective encode
  verify_encode : ∀ minted, auth.verify (encode minted) = some minted.payload
  hash_injective : Function.Injective auth.hashToken

namespace IamService

/-- The membership that goes with the organization of a session, if it has one. -/
def membership (svc : IamService) (organizationId : Option Uuid) (userId : Uuid) :
    Except IamError (Option UserRead) :=
  match organizationId with
  | none => .ok none
  | some organizationId => do
    let found ← svc.auth.memberships organizationId userId
    let membership ← present found (.invalidCredentials "User is not a member of this organization".toList)
    return some membership

/-- `membership.role_slug if membership else SystemRole.VIEWER` -/
def roleSlug : Option UserRead → Option Text
  | some membership => membership.roleSlug
  | none => some SystemRole.VIEWER.value

/-- `list(self._rbac.resolve_permissions(role_slug))` -/
def rolePermissions (roleSlug : Option Text) : List Text := (roleSlug.map resolveSlug).getD []

/-- The pair of tokens for a session of a user. -/
def mint (svc : IamService) (now : ℤ) (userId sessionId : Uuid) (organizationId : Option Uuid)
    (roleSlug : Option Text) : TokenPair where
  accessToken := svc.encode
    (accessToken now svc.accessTokenExpireMinutes userId organizationId roleSlug (rolePermissions roleSlug))
  refreshToken := svc.encode (refreshToken now svc.refreshTokenExpireDays userId sessionId)

def expires (svc : IamService) (now : ℤ) : ℤ := now + svc.accessTokenExpireMinutes * 60 * second

/-- `login`; `sessionId` is the `uuid4` of the session. -/
def login (svc : IamService) (rows : List SessionRow) (now : ℤ) (request : LoginRequest) (ip userAgent : Option Text)
    (sessionId : Uuid) : Except IamError (AuthTokens × List SessionRow) := do
  let creds ← svc.usersByEmail request.email
  let (user, passwordHash) ← present creds (.invalidCredentials "Invalid email or password".toList)
  ensure ((passwordHash.filter (fun hash => !hash.isEmpty)).any (svc.verifyPassword request.password))
    (.invalidCredentials "Invalid email or password".toList)
  let membership ← svc.membership request.organizationId user.id
  let pair := svc.mint now user.id sessionId request.organizationId (roleSlug membership)
  let session ← SessionRead.validate {
    id := sessionId
    userId := user.id
    organizationId := request.organizationId
    browser := userAgent
    ipAddress := ip
    device := none
    status := .ACTIVE
    expiresAt := svc.expires now
    revokedAt := none
    createdAt := now
    updatedAt := now }
  let rows := SessionRepository.create rows session (svc.auth.hashToken pair.accessToken)
    (some (svc.auth.hashToken pair.refreshToken)) pair
  return ({
    accessToken := pair.accessToken
    refreshToken := pair.refreshToken
    expiresIn := svc.accessTokenExpireMinutes * 60
    user := membership.getD user
    organizationId := request.organizationId }, rows)

/-- `refresh_tokens` -/
def refreshTokens (svc : IamService) (rows : List SessionRow) (now : ℤ) (token : Text) :
    Except IamError (AuthTokens × List SessionRow) := do
  let payload ← decodeToken svc.auth.verify now token
  ensure (payload.type.any (Json.isText "refresh".toList)) (.invalidCredentials "Invalid refresh token".toList)
  let sid ← present payload.sid (.keyError "sid".toList)
  let sessionId ← sid.uuid
  let sub ← present payload.sub (.keyError "sub".toList)
  let userId ← sub.uuid
  let session ← present (SessionRepository.getById rows sessionId) (.iamSessionNotFound "Session not found".toList)
  ensure (session.status.str IamSessionStatus.value == IamSessionStatus.ACTIVE.value && session.revokedAt.isNone)
    (.tokenExpired "Session revoked".toList)
  ensure (now < session.expiresAt) (.tokenExpired "Session expired".toList)
  let refreshTokenHash ← session.refreshTokenHash
  ensure (refreshTokenHash == some (svc.auth.hashToken token)) (.invalidCredentials "Invalid refresh token".toList)
  let found ← svc.auth.users userId
  let user ← present found (.iamUserNotFound ("User ".toList ++ userId.str ++ " not found".toList))
  ensure (user.status.str IamUserStatus.value == IamUserStatus.ACTIVE.value)
    (.authentication ("User account is ".toList ++ user.status.str IamUserStatus.value))
  let membership ← svc.membership session.organizationId userId
  let pair := svc.mint now userId sessionId session.organizationId (roleSlug membership)
  let rows ← SessionRepository.updateTokens rows sessionId (svc.auth.hashToken pair.accessToken)
    (svc.auth.hashToken pair.refreshToken) (svc.expires now) pair
  return ({
    accessToken := pair.accessToken
    refreshToken := pair.refreshToken
    expiresIn := svc.accessTokenExpireMinutes * 60
    user := membership.getD user
    organizationId := session.organizationId }, rows)

/-- `revoke_session` -/
def revokeSession (rows : List SessionRow) (now : ℤ) (sessionId : Uuid) :
    Except IamError (SessionRead × List SessionRow) :=
  SessionRepository.revoke rows now sessionId

/-- `logout` -/
def logout (svc : IamService) (rows : List SessionRow) (now : ℤ) (token : Text) (actorId : Uuid) :
    Except IamError (SessionRead × List SessionRow) := do
  let found ← SessionRepository.getByTokenHash rows (svc.auth.hashToken token)
  let session ← present found (.iamSessionNotFound "Session not found".toList)
  ensure (session.userId == actorId) (.insufficientPermissions "Cannot revoke another user's session".toList none)
  revokeSession rows now session.id

/-- `authenticate_bearer` over the rows. -/
def authenticateBearer (svc : IamService) (rows : List SessionRow) (now : ℤ) (token : Text) :
    Except IamError AuthenticatedPrincipal :=
  { svc.auth with sessions := SessionRepository.getByTokenHash rows }.authenticateBearer now token

/-! ## Runs -/

end IamService

/-- The session table, the clock and what has been done. -/
structure IamState where
  rows : List SessionRow
  now : ℤ
  /-- The refresh tokens that `refresh_tokens` has taken. -/
  redeemed : List Text := []
  /-- The sessions that `logout` or `revoke_session` has revoked. -/
  revoked : List Uuid := []

/-- An operation, or the time up to an instant. -/
inductive IamLabel where
  | login (request : LoginRequest) (ip userAgent : Option Text) (sessionId : Uuid)
  | refreshTokens (token : Text)
  | logout (token : Text) (actorId : Uuid)
  | revokeSession (sessionId : Uuid)
  | elapse (now : ℤ)

namespace IamService

/-- The state after `logout` or `revoke_session`. -/
def afterRevocation (s : IamState) : Except IamError (SessionRead × List SessionRow) → IamState
  | .ok (session, rows) => { s with rows, revoked := session.id :: s.revoked }
  | .error _ => s

def step (svc : IamService) (s : IamState) : IamLabel → Option IamState
  | .login request ip userAgent sessionId =>
    match svc.login s.rows s.now request ip userAgent sessionId with
    | .ok (_, rows) => some { s with rows }
    | .error _ => some s
  | .refreshTokens token =>
    match svc.refreshTokens s.rows s.now token with
    | .ok (_, rows) => some { s with rows, redeemed := s.redeemed ++ [token] }
    | .error _ => some s
  | .logout token actorId => some (afterRevocation s (svc.logout s.rows s.now token actorId))
  | .revokeSession sessionId => some (afterRevocation s (revokeSession s.rows s.now sessionId))
  | .elapse now => if s.now ≤ now then some { s with now } else none

/-- No pair of tokens of a session is accepted. -/
structure Rejected (svc : IamService) (s : IamState) (pair : TokenPair) : Prop where
  access : ∃ e, svc.authenticateBearer s.rows s.now pair.accessToken = .error e
  refresh : ∃ e, svc.refreshTokens s.rows s.now pair.refreshToken = .error e

/-- What the tokens of the sessions are for. -/
structure Lawful (svc : IamService) (s : IamState) : Prop where
  /-- The latest pair of a live session is accepted, its access token when there is an organization. -/
  latest : ∀ row ∈ s.rows, row.read.Live s.now →
    (row.read.organizationId.isSome → ∃ p, svc.authenticateBearer s.rows s.now row.latest.accessToken = .ok p) ∧
      ∃ r, svc.refreshTokens s.rows s.now row.latest.refreshToken = .ok r
  once : s.redeemed.Nodup
  older : ∀ row ∈ s.rows, row.read.Live s.now → ∀ pair ∈ row.older,
    ∃ e, svc.authenticateBearer s.rows s.now pair.accessToken = .error e
  revoked : ∀ row ∈ s.rows, row.read.id ∈ s.revoked → ∀ pair ∈ row.latest :: row.older, svc.Rejected s pair

/-- No session is live. -/
def NoneLive (s : IamState) : Prop := ∀ row ∈ s.rows, ¬row.read.Live s.now

variable {svc : IamService}

/-- `login` raises: it gives the session no country. -/
theorem login_raises (svc : IamService) (rows : List SessionRow) (now : ℤ) (request : LoginRequest)
    (ip userAgent : Option Text) (sessionId : Uuid) : ∃ e, svc.login rows now request ip userAgent sessionId = .error e := by
  apply raises_of_not_returns
  intro r hr
  simp only [login, SessionRead.validate, bind_eq_ok, present_eq_ok] at hr
  obtain ⟨_, _, _, _, _, _, _, _, session, ⟨country, hcountry, _⟩, _⟩ := hr
  cases hcountry

/-- `refresh_tokens` raises: it reads an attribute that the session does not have. -/
theorem refreshTokens_raises (svc : IamService) (rows : List SessionRow) (now : ℤ) (token : Text) :
    ∃ e, svc.refreshTokens rows now token = .error e := by
  apply raises_of_not_returns
  intro r hr
  simp only [refreshTokens, SessionRead.refreshTokenHash, bind_eq_ok] at hr
  obtain ⟨_, _, _, _, _, _, _, _, _, _, _, _, session, _, _, _, _, _, hash, hhash, _⟩ := hr
  cases hhash

/-- Only the token of a live session is accepted. -/
theorem live_of_authenticateBearer {rows : List SessionRow} {now : ℤ} {token : Text} {p : AuthenticatedPrincipal}
    (h : svc.authenticateBearer rows now token = .ok p) : ∃ row ∈ rows, row.read.Live now := by
  obtain ⟨b, -⟩ := AuthenticationService.authenticateBearer_eq_ok.mp h
  have hsession : SessionRepository.getByTokenHash rows (svc.auth.hashToken token) = .ok (some b.session) := b.session_eq
  have hlive := AuthenticationService.assertSessionActive_eq_ok.mp b.session_active
  unfold SessionRepository.getByTokenHash at hsession
  split at hsession
  · cases hsession
  · rename_i row hrow
    have hread : row.read = b.session := Option.some.inj (Except.ok.inj hsession)
    have hmem : row ∈ rows.filter (fun row => row.tokenHash == svc.auth.hashToken token) := by rw [hrow]; simp
    exact ⟨row, List.mem_of_mem_filter hmem, hread ▸ hlive⟩
  · cases hsession

theorem NoneLive.rejected {s : IamState} (h : NoneLive s) (pair : TokenPair) : svc.Rejected s pair where
  access := by
    apply raises_of_not_returns
    intro p hp
    obtain ⟨row, hmem, hlive⟩ := live_of_authenticateBearer hp
    exact h row hmem hlive
  refresh := refreshTokens_raises svc s.rows s.now pair.refreshToken

/-- A revoked row is not live, and the others are as they were. -/
theorem NoneLive.afterRevocation {s : IamState} (h : NoneLive s)
    {r : Except IamError (SessionRead × List SessionRow)}
    (hr : ∀ x, r = .ok x → ∃ sessionId, x.2 = SessionRepository.update s.rows sessionId (SessionRow.revoke s.now)) :
    NoneLive (afterRevocation s r) := by
  cases r with
  | error e => exact h
  | ok x =>
      intro row hmem hlive
      obtain ⟨sessionId, hx⟩ := hr x rfl
      have hrows : row ∈ SessionRepository.update s.rows sessionId (SessionRow.revoke s.now) := hx ▸ hmem
      obtain ⟨row', hmem', rfl⟩ := List.mem_map.mp hrows
      split_ifs at hlive with hid
      · exact absurd hlive.notRevoked (Option.some_ne_none _)
      · exact h row' hmem' hlive

theorem revokeSession_rows {rows : List SessionRow} {now : ℤ} {sessionId : Uuid}
    {x : SessionRead × List SessionRow} (h : revokeSession rows now sessionId = .ok x) :
    ∃ sessionId, x.2 = SessionRepository.update rows sessionId (SessionRow.revoke now) := by
  simp only [revokeSession, SessionRepository.revoke, bind_eq_ok, pure_eq_ok] at h
  obtain ⟨row, -, rfl⟩ := h
  exact ⟨sessionId, rfl⟩

/-- `logout` revokes the session that it finds. -/
theorem logout_rows {rows : List SessionRow} {now : ℤ} {token : Text} {actorId : Uuid}
    {x : SessionRead × List SessionRow} (h : svc.logout rows now token actorId = .ok x) :
    ∃ sessionId, x.2 = SessionRepository.update rows sessionId (SessionRow.revoke now) := by
  simp only [logout, bind_eq_ok] at h
  obtain ⟨_, _, session, _, _, _, hrevoke⟩ := h
  exact revokeSession_rows hrevoke

/-- No step brings a session to life or redeems a refresh token. -/
theorem NoneLive.of_step {s t : IamState} {l : IamLabel} (h : NoneLive s) (ht : svc.step s l = some t) :
    NoneLive t ∧ t.redeemed = s.redeemed := by
  cases l with
  | login request ip userAgent sessionId =>
      obtain ⟨e, he⟩ := login_raises svc s.rows s.now request ip userAgent sessionId
      simp only [step, he] at ht
      cases ht
      exact ⟨h, rfl⟩
  | refreshTokens token =>
      obtain ⟨e, he⟩ := refreshTokens_raises svc s.rows s.now token
      simp only [step, he] at ht
      cases ht
      exact ⟨h, rfl⟩
  | logout token actorId =>
      cases ht
      refine ⟨h.afterRevocation (fun x hx => logout_rows hx), ?_⟩
      cases svc.logout s.rows s.now token actorId <;> rfl
  | revokeSession sessionId =>
      cases ht
      refine ⟨h.afterRevocation (fun x hx => revokeSession_rows hx), ?_⟩
      cases revokeSession s.rows s.now sessionId <;> rfl
  | elapse now =>
      simp only [step] at ht
      split_ifs at ht with hle
      cases ht
      refine ⟨?_, rfl⟩
      intro row hmem hlive
      exact h row hmem ⟨hlive.active, hlive.notRevoked, lt_of_le_of_lt hle hlive.notExpired⟩

theorem NoneLive.lawful {s : IamState} (h : NoneLive s) (honce : s.redeemed.Nodup) : svc.Lawful s where
  latest row hmem hlive := absurd hlive (h row hmem)
  once := honce
  older row hmem hlive := absurd hlive (h row hmem)
  revoked _ _ _ pair _ := h.rejected pair

/-- A live session is not dealt with lawfully: its refresh token is not taken. -/
theorem Lawful.noneLive {s : IamState} (h : svc.Lawful s) : NoneLive s := by
  intro row hmem hlive
  obtain ⟨-, r, hr⟩ := h.latest row hmem hlive
  obtain ⟨e, he⟩ := refreshTokens_raises svc s.rows s.now row.latest.refreshToken
  rw [he] at hr
  cases hr

/-- **The session life cycle**: every run from a session table is lawful exactly when the table has no live session. -/
theorem run_lawful_iff (svc : IamService) (rows : List SessionRow) (now : ℤ) :
    (∀ ls s, Run svc.step (fun _ _ => True) ⟨rows, now, [], []⟩ ls s → svc.Lawful s) ↔
      NoneLive ⟨rows, now, [], []⟩ := by
  constructor
  · intro h
    exact (h [] _ .nil).noneLive
  · intro h ls s hrun
    have hinv : NoneLive s ∧ s.redeemed = [] := by
      apply hrun.invariant (I := fun s => NoneLive s ∧ s.redeemed = []) ⟨h, rfl⟩
      intro t u l ht _ hu
      obtain ⟨hnone, hredeemed⟩ := ht.1.of_step hu
      exact ⟨hnone, hredeemed.trans ht.2⟩
    apply hinv.1.lawful
    rw [hinv.2]
    exact List.nodup_nil

/-! ### A table with a live session -/

/-- A stand-in for the signature. -/
def oneLogin : IamService where
  auth := { AuthenticationService.oneUser (.member .ACTIVE) with
    verify := fun token => (Minted.unsign token).map Minted.payload }
  usersByEmail _ := .ok (some ({ id := Uuid.ofInt 1, status := .member .ACTIVE }, some "hash".toList))
  verifyPassword _ _ := true
  encode := Minted.sign
  accessTokenExpireMinutes := 60
  refreshTokenExpireDays := 30
  encode_injective := Minted.sign_injective
  verify_encode minted := congrArg (Option.map Minted.payload) (Minted.unsign_sign minted)
  hash_injective _ _ h := h

def loginPair : TokenPair :=
  oneLogin.mint 0 (Uuid.ofInt 1) (Uuid.ofInt 4) (some (Uuid.ofInt 2)) (some "administrator".toList)

/-- The row that a login at the instant 0 is for. -/
def loginRow : SessionRow where
  read := {
    id := Uuid.ofInt 4, userId := Uuid.ofInt 1, organizationId := some (Uuid.ofInt 2), browser := none
    ipAddress := none, country := none, device := none, status := .member .ACTIVE, expiresAt := 3600 * second
    revokedAt := none, createdAt := 0, updatedAt := 0 }
  tokenHash := loginPair.accessToken
  refreshTokenHash := some loginPair.refreshToken
  latest := loginPair

theorem not_lawful_of_login :
    ¬∀ ls s, Run oneLogin.step (fun _ _ => True) ⟨[loginRow], 0, [], []⟩ ls s → oneLogin.Lawful s := by
  intro h
  have hlaw := h [] _ .nil
  exact hlaw.noneLive loginRow List.mem_cons_self ⟨rfl, rfl, by decide⟩

end IamService

end Voxera.Iam
