import Voxera.Iam.RbacEngine
import Voxera.Iam.TokenService

/-!
# `AuthenticationService`

The repositories are functions that may raise themselves.

* `authenticateBearer` : the checks of an access token, in their order;
* `Bearer` : a token that passes every check but the one of the user's status;
* `Entitled` : what the checks are for, in the words of the token and of the repositories;
* `DisabledMember` : a token whose user has a status other than `ACTIVE`, given as a member of the enumeration;
* `sound_iff` : `authenticateBearer` lets in nobody but the entitled exactly when there is no such user.
-/

namespace Voxera.Iam

open Raising

/-- The collaborators of the service. `verify` reads a token under the key of the server, `hashToken` and `hashKey` are
the digests of tokens and of API keys. -/
structure AuthenticationService where
  organizations : Uuid → Except IamError (Option OrganizationRead)
  organizationsByTenant : Uuid → Except IamError (Option OrganizationRead)
  users : Uuid → Except IamError (Option UserRead)
  memberships : Uuid → Uuid → Except IamError (Option UserRead)
  apiKeys : Text → Except IamError (Option (ApiKeyRead × Text))
  sessions : Text → Except IamError (Option SessionRead)
  verify : Text → Option Payload
  hashToken : Text → Text
  hashKey : Text → Text

namespace AuthenticationService

/-- `_assert_session_active` -/
def assertSessionActive (now : ℤ) (session : SessionRead) : Except IamError Unit := do
  ensure (session.status.str IamSessionStatus.value == IamSessionStatus.ACTIVE.value)
    (.tokenExpired "Session revoked".toList)
  ensure session.revokedAt.isNone (.tokenExpired "Session revoked".toList)
  ensure (now < session.expiresAt) (.tokenExpired "Session expired".toList)

/-- `_assert_user_active` -/
def assertUserActive (status : StatusValue IamUserStatus) : Except IamError Unit :=
  let active := if status.hasValue then IamUserStatus.ACTIVE.value else status.str IamUserStatus.value
  ensure (active == IamUserStatus.ACTIVE.value)
    (.authentication ("User account is ".toList ++ status.str IamUserStatus.value))

/-- `payload.get("role") or membership.role_slug` -/
def roleSlug (payload : Payload) (membership : UserRead) : Json :=
  match payload.role.filter Json.truthy with
  | some role => role
  | none => (membership.roleSlug.map Json.string).getD .null

/-- `frozenset(payload.get("permissions") or self._rbac.resolve_permissions(role_slug))` -/
def permissions (payload : Payload) (roleSlug : Json) : Except IamError (List Json) :=
  match payload.permissions.filter Json.truthy with
  | some permissions => permissions.frozenset
  | none => do
    let slugs ← resolvePermissions roleSlug
    return slugs.map Json.string

/-- `authenticate_bearer` -/
def authenticateBearer (s : AuthenticationService) (now : ℤ) (accessToken : Text) :
    Except IamError AuthenticatedPrincipal := do
  let payload ← decodeToken s.verify now accessToken
  ensure (payload.type.any (Json.isText "access".toList)) (.invalidCredentials "Invalid token type".toList)
  let sub ← present payload.sub (.keyError "sub".toList)
  let userId ← sub.uuid
  let orgIdRaw ← present (payload.org.filter Json.truthy)
    (.authentication "Token missing organization context".toList)
  let organizationId ← orgIdRaw.uuid
  let found ← s.sessions (s.hashToken accessToken)
  let session ← present found (.iamSessionNotFound "Session not found for token".toList)
  assertSessionActive now session
  let found ← s.users userId
  let user ← present found (.iamUserNotFound ("User ".toList ++ userId.str ++ " not found".toList))
  assertUserActive user.status
  let found ← s.memberships organizationId userId
  let membership ← present found (.crossOrganizationAccess "User is not a member of this organization".toList)
  let found ← s.organizations organizationId
  let org ← present found
    (.organizationNotFound ("Organization ".toList ++ organizationId.str ++ " not found".toList))
  let roleSlug := roleSlug payload membership
  let permissions ← permissions payload roleSlug
  return {
    userId := some userId
    organizationId
    tenantId := some org.tenantId
    roleSlug
    permissions
    authMethod := .jwt
    sessionId := some session.id }

/-- `authenticate_api_key` -/
def authenticateApiKey (s : AuthenticationService) (now : ℤ) (rawKey : Text) :
    Except IamError AuthenticatedPrincipal := do
  let found ← s.apiKeys (rawKey.take 12)
  let (key, keyHash) ← present found (.apiKeyNotFound "Invalid API key".toList)
  ensure (s.hashKey rawKey == keyHash) (.apiKeyNotFound "Invalid API key".toList)
  ensure (key.status.str ApiKeyStatus.value == ApiKeyStatus.ACTIVE.value)
    (.authentication ("API key is ".toList ++ key.status.str ApiKeyStatus.value))
  ensure (key.expiresAt.all (fun t => now < t)) (.authentication "API key expired".toList)
  let found ← s.organizations key.organizationId
  let org ← present found
    (.organizationNotFound ("Organization ".toList ++ key.organizationId.str ++ " not found".toList))
  let permissions := if key.permissions.isEmpty then resolveSlug "developer".toList else key.permissions
  return {
    userId := none
    organizationId := key.organizationId
    tenantId := some org.tenantId
    roleSlug := .string "api_key".toList
    permissions := permissions.map Json.string
    authMethod := .apiKey
    apiKeyId := some key.id }

/-- `validate_tenant_access` -/
def validateTenantAccess (s : AuthenticationService) (principal : AuthenticatedPrincipal) (tenantId : Uuid) :
    Except IamError Unit := do
  let found ← s.organizationsByTenant tenantId
  let org ← present found (.organizationNotFound ("No organization for tenant ".toList ++ tenantId.str))
  ensure (principal.organizationId == org.id) (.crossOrganizationAccess "Cross-tenant access denied".toList)
  ensure (principal.tenantId.all (· == tenantId)) (.crossOrganizationAccess "Cross-tenant access denied".toList)

/-! ## What a token stands for -/

/-- A token that passes every check of `authenticateBearer` but the one of the user's status, with what the checks
find. -/
structure Bearer (s : AuthenticationService) (now : ℤ) (token : Text) where
  payload : Payload
  sub : Json
  userId : Uuid
  org : Json
  organizationId : Uuid
  session : SessionRead
  user : UserRead
  membership : UserRead
  organization : OrganizationRead
  decoded : decodeToken s.verify now token = .ok payload
  access : payload.type.any (Json.isText "access".toList) = true
  sub_eq : payload.sub = some sub
  userId_eq : sub.uuid = .ok userId
  org_eq : payload.org.filter Json.truthy = some org
  organizationId_eq : org.uuid = .ok organizationId
  session_eq : s.sessions (s.hashToken token) = .ok (some session)
  session_active : assertSessionActive now session = .ok ()
  user_eq : s.users userId = .ok (some user)
  membership_eq : s.memberships organizationId userId = .ok (some membership)
  organization_eq : s.organizations organizationId = .ok (some organization)

/-- The permissions of the principal; what they are computed from can raise. -/
def Bearer.permissions {s : AuthenticationService} {now : ℤ} {token : Text} (b : Bearer s now token) :
    Except IamError (List Json) :=
  AuthenticationService.permissions b.payload (roleSlug b.payload b.membership)

def Bearer.principal {s : AuthenticationService} {now : ℤ} {token : Text} (b : Bearer s now token)
    (permissions : List Json) : AuthenticatedPrincipal where
  userId := some b.userId
  organizationId := b.organizationId
  tenantId := some b.organization.tenantId
  roleSlug := roleSlug b.payload b.membership
  permissions
  authMethod := .jwt
  sessionId := some b.session.id

variable {s : AuthenticationService} {now : ℤ} {token : Text}

/-- `authenticateBearer` returns exactly what its checks find. -/
theorem authenticateBearer_eq_ok {p : AuthenticatedPrincipal} :
    s.authenticateBearer now token = .ok p ↔ ∃ (b : Bearer s now token) (permissions : List Json),
      assertUserActive b.user.status = .ok () ∧ b.permissions = .ok permissions ∧ p = b.principal permissions := by
  constructor
  · intro h
    simp only [authenticateBearer, bind_eq_ok, present_eq_ok, ensure_eq_ok, pure_eq_ok] at h
    obtain ⟨payload, hpayload, _, haccess, sub, hsub, userId, huserId, org, horg, organizationId, horganizationId,
      _, hsession, session, rfl, _, hactive, _, huser, user, rfl, _, hstatus, _, hmembership, membership, rfl,
      _, horganization, organization, rfl, permissions, hpermissions, rfl⟩ := h
    exact ⟨⟨payload, sub, userId, org, organizationId, session, user, membership, organization, hpayload, haccess,
      hsub, huserId, horg, horganizationId, hsession, hactive, huser, hmembership, horganization⟩, permissions,
      hstatus, hpermissions, rfl⟩
  · rintro ⟨b, permissions, hstatus, hpermissions, rfl⟩
    simp only [authenticateBearer, bind_eq_ok, present_eq_ok, ensure_eq_ok, pure_eq_ok]
    exact ⟨b.payload, b.decoded, (), b.access, b.sub, b.sub_eq, b.userId, b.userId_eq, b.org, b.org_eq,
      b.organizationId, b.organizationId_eq, _, b.session_eq, b.session, rfl, (), b.session_active, _, b.user_eq,
      b.user, rfl, (), hstatus, _, b.membership_eq, b.membership, rfl, _, b.organization_eq, b.organization, rfl,
      permissions, hpermissions, rfl⟩

@[simp] theorem assertSessionActive_eq_ok {session : SessionRead} {u : Unit} :
    assertSessionActive now session = .ok u ↔ session.Live now := by
  simp only [assertSessionActive, bind_eq_ok, ensure_eq_ok, beq_iff_eq, Option.isNone_iff_eq_none, decide_eq_true_eq]
  constructor
  · rintro ⟨_, hactive, _, hrevoked, hexpired⟩
    exact ⟨hactive, hrevoked, hexpired⟩
  · intro h
    exact ⟨(), h.active, (), h.notRevoked, h.notExpired⟩

/-- The check of the user's status: a member of the enumeration passes it whatever it is. -/
theorem assertUserActive_eq_ok {status : StatusValue IamUserStatus} {u : Unit} :
    assertUserActive status = .ok u ↔
      (∃ e, status = .member e) ∨ status = .text IamUserStatus.ACTIVE.value := by
  unfold assertUserActive
  rw [ensure_eq_ok, beq_iff_eq]
  cases status with
  | member e => simp [StatusValue.hasValue]
  | text t => simp [StatusValue.hasValue, StatusValue.str]

/-! ## Whom the service lets in -/

/-- What the token and the repositories must say for a principal of `userId` in `organizationId`. -/
structure EntitledBy (s : AuthenticationService) (now : ℤ) (token : Text) (payload : Payload)
    (userId organizationId : Uuid) : Prop where
  verified : s.verify token = some payload
  unexpired : ∀ t, payload.exp = some t → now < t * second
  access : payload.type = some (.string "access".toList)
  sub : ∃ t, payload.sub = some (.string t) ∧ Uuid.ofText t = some userId
  org : ∃ t, payload.org = some (.string t) ∧ Uuid.ofText t = some organizationId
  session : ∃ r, s.sessions (s.hashToken token) = .ok (some r) ∧ r.Live now
  user : ∃ r, s.users userId = .ok (some r) ∧ r.status.str IamUserStatus.value = IamUserStatus.ACTIVE.value
  member : ∃ r, s.memberships organizationId userId = .ok (some r)
  organization : ∃ r, s.organizations organizationId = .ok (some r)

def Entitled (s : AuthenticationService) (now : ℤ) (token : Text) : Prop :=
  ∃ payload userId organizationId, EntitledBy s now token payload userId organizationId

/-- A principal comes only from a token that is entitled to one, and every other token raises. -/
def Sound (s : AuthenticationService) (now : ℤ) (token : Text) : Prop :=
  (∀ p, s.authenticateBearer now token = .ok p → s.Entitled now token) ∧
    (¬s.Entitled now token → ∃ e, s.authenticateBearer now token = .error e)

/-- A token whose user has a status other than `ACTIVE`, as a member of the enumeration, and that passes every other
check. -/
def DisabledMember (s : AuthenticationService) (now : ℤ) (token : Text) : Prop :=
  ∃ (b : Bearer s now token) (e : IamUserStatus), b.user.status = .member e ∧ e ≠ .ACTIVE ∧
    ∃ permissions, b.permissions = .ok permissions

/-- The checks of a bearer token with an active user are what entitles it. -/
theorem Bearer.entitledBy (b : Bearer s now token)
    (h : b.user.status.str IamUserStatus.value = IamUserStatus.ACTIVE.value) :
    EntitledBy s now token b.payload b.userId b.organizationId := by
  obtain ⟨hverified, hunexpired⟩ := decodeToken_eq_ok b.decoded
  obtain ⟨type, htype, htext⟩ := (Option.any_eq_true _ _).mp b.access
  obtain ⟨t, hsub, huser⟩ := Json.uuid_eq_ok.mp b.userId_eq
  obtain ⟨t', horg, horganization⟩ := Json.uuid_eq_ok.mp b.organizationId_eq
  exact {
    verified := hverified
    unexpired := hunexpired
    access := by rw [htype, Json.eq_of_isText htext]
    sub := ⟨t, by rw [b.sub_eq, hsub], huser⟩
    org := ⟨t', by rw [(Option.filter_eq_some_iff.mp b.org_eq).1, horg], horganization⟩
    session := ⟨b.session, b.session_eq, assertSessionActive_eq_ok.mp b.session_active⟩
    user := ⟨b.user, b.user_eq, h⟩
    member := ⟨b.membership, b.membership_eq⟩
    organization := ⟨b.organization, b.organization_eq⟩ }

/-- The token determines the user. -/
theorem EntitledBy.userId_eq {payload : Payload} {userId organizationId : Uuid}
    (h : EntitledBy s now token payload userId organizationId) (b : Bearer s now token) : b.userId = userId := by
  have hpayload : b.payload = payload :=
    Option.some.inj ((decodeToken_eq_ok b.decoded).1.symm.trans h.verified)
  obtain ⟨t, ht, hid⟩ := h.sub
  have hsub : b.sub = .string t := Option.some.inj (b.sub_eq.symm.trans (hpayload ▸ ht))
  obtain ⟨t', ht', hid'⟩ := Json.uuid_eq_ok.mp b.userId_eq
  obtain rfl : t = t' := Json.string.inj (hsub.symm.trans ht')
  exact Option.some.inj (hid'.symm.trans hid)

/-- The service lets in the user with another status, who is not entitled. -/
theorem DisabledMember.not_sound (h : s.DisabledMember now token) : ¬s.Sound now token := by
  obtain ⟨b, e, hstatus, hne, permissions, hpermissions⟩ := h
  rintro ⟨hsound, -⟩
  have hreturns : s.authenticateBearer now token = .ok (b.principal permissions) :=
    authenticateBearer_eq_ok.mpr ⟨b, permissions, assertUserActive_eq_ok.mpr (Or.inl ⟨e, hstatus⟩), hpermissions, rfl⟩
  obtain ⟨payload, userId, organizationId, hentitled⟩ := hsound _ hreturns
  obtain ⟨user, huser, hactive⟩ := hentitled.user
  rw [← hentitled.userId_eq b, b.user_eq] at huser
  obtain rfl : b.user = user := Option.some.inj (Except.ok.inj huser)
  rw [hstatus] at hactive
  exact hne (IamUserStatus.value_injective hactive)

/-- A principal goes to a token that is entitled to one or to a user with another status. -/
theorem entitled_of_returns {p : AuthenticatedPrincipal} (hp : s.authenticateBearer now token = .ok p)
    (hnone : ¬s.DisabledMember now token) : s.Entitled now token := by
  obtain ⟨b, permissions, hstatus, hpermissions, -⟩ := authenticateBearer_eq_ok.mp hp
  refine ⟨_, _, _, b.entitledBy ?_⟩
  rcases assertUserActive_eq_ok.mp hstatus with ⟨e, he⟩ | htext
  · by_cases hactive : e = .ACTIVE
    · rw [he, hactive]; rfl
    · exact absurd ⟨b, e, he, hactive, permissions, hpermissions⟩ hnone
  · rw [htext]; rfl

/-- **Soundness**: `authenticateBearer` lets in only who is entitled, for exactly the tokens whose user is not one with
another status than `ACTIVE` given as a member of the enumeration. -/
theorem sound_iff (s : AuthenticationService) (now : ℤ) (token : Text) :
    s.Sound now token ↔ ¬s.DisabledMember now token := by
  constructor
  · intro hsound hdisabled
    exact hdisabled.not_sound hsound
  · intro hnone
    refine ⟨fun p hp => entitled_of_returns hp hnone, fun h => ?_⟩
    apply raises_of_not_returns
    intro p hp
    exact h (entitled_of_returns hp hnone)

/-- A service with one account of a status; its session and its membership are in order. -/
def oneUser (status : StatusValue IamUserStatus) : AuthenticationService where
  organizations _ := .ok (some ⟨Uuid.ofInt 2, Uuid.ofInt 3⟩)
  organizationsByTenant _ := .ok none
  users _ := .ok (some { id := Uuid.ofInt 1, status })
  memberships _ _ := .ok (some { id := Uuid.ofInt 1, status, roleSlug := "administrator".toList })
  apiKeys _ := .ok none
  sessions _ := .ok (some {
    id := Uuid.ofInt 4, userId := Uuid.ofInt 1, organizationId := some (Uuid.ofInt 2), browser := none
    ipAddress := none, country := none, device := none, status := .member .ACTIVE, expiresAt := 3600 * second
    revokedAt := none, createdAt := 0, updatedAt := 0 })
  verify _ := some {
    sub := some (.string "00000000-0000-0000-0000-000000000001".toList)
    org := some (.string "00000000-0000-0000-0000-000000000002".toList)
    role := some (.string "administrator".toList)
    permissions := some (.array [.string "manage_users".toList])
    type := some (.string "access".toList), iat := some 0, exp := some 3600 }
  hashToken t := t
  hashKey t := t

theorem not_sound_of_suspended : ¬(oneUser (.member .SUSPENDED)).Sound 0 "token".toList := by
  apply DisabledMember.not_sound
  refine ⟨{
    payload := _, sub := _, userId := Uuid.ofInt 1, org := _, organizationId := Uuid.ofInt 2, session := _
    user := _, membership := _, organization := _, decoded := rfl, access := by decide +kernel, sub_eq := rfl
    userId_eq := Json.uuid_eq_ok.mpr ⟨_, rfl, by decide +kernel⟩, org_eq := rfl
    organizationId_eq := Json.uuid_eq_ok.mpr ⟨_, rfl, by decide +kernel⟩, session_eq := rfl, session_active := rfl
    user_eq := rfl, membership_eq := rfl, organization_eq := rfl }, .SUSPENDED, rfl, by decide, _, rfl⟩

end AuthenticationService

end Voxera.Iam
