import Voxera.EventLoop.Run
import Voxera.Iam.AuthenticationService

/-!
# The life cycle of API keys

The operations of `IamServiceImpl` on API keys over the rows of their table, and `AuthenticationService.authenticate_api_key`
over the same rows; an operation that raises leaves the rows as they are. `AuthenticationMiddleware` returns out of its loop over
`get_db_session`, so its session is never committed, and what `touch_last_used` has written in it is lost.

* `ApiKeyRepository`, `createApiKey`, `revokeApiKey`, `authenticate` : the operations;
* `step` : a run of them, with the time between them; `Fresh` : what the generators of keys and identifiers promise;
* `authenticates_iff_of_run` : which texts authenticate, and as whom;
* `finished_of_run` : a key that is revoked or has expired never authenticates again; what `last_used_at` is.
-/

namespace Voxera.Iam

open Raising EventLoop

/-- A row of `IamApiKeyModel`. Beside the columns stands the key that has been returned for it. -/
structure ApiKeyRow where
  read : ApiKeyRead
  keyPrefix : Text
  keyHash : Text
  lastUsedAt : Option ℤ := none
  secret : Text

def ApiKeyRow.revoke (row : ApiKeyRow) : ApiKeyRow := { row with read := { row.read with status := .member .REVOKED } }

def ApiKeyRow.touch (now : ℤ) (row : ApiKeyRow) : ApiKeyRow := { row with lastUsedAt := some now }

/-- `row.status == ApiKeyStatus.ACTIVE.value` -/
def ApiKeyRow.isActive (row : ApiKeyRow) : Bool := row.read.status.str ApiKeyStatus.value == ApiKeyStatus.ACTIVE.value

/-- What `create_api_key` reads of an `ApiKeyCreate`. -/
structure ApiKeyCreate where
  permissions : List Text := []
  expiresAt : Option ℤ := none

inductive ApiKeyError where
  | iam (e : IamError)
  /-- `scalar_one` -/
  | noResultFound

/-! ## `SqlAlchemyApiKeyRepository` -/

namespace ApiKeyRepository

/-- `create` : a row with the default of the column `status`. -/
def create (rows : List ApiKeyRow) (orgId : Uuid) (data : ApiKeyCreate) (id : Uuid) (keyPrefix keyHash secret : Text) :
    List ApiKeyRow :=
  rows ++ [{
    read := {
      id
      organizationId := orgId
      permissions := data.permissions
      status := .member .ACTIVE
      expiresAt := data.expiresAt }
    keyPrefix
    keyHash
    secret }]

/-- `get_by_prefix` -/
def getByPrefix (rows : List ApiKeyRow) (keyPrefix : Text) : Except IamError (Option (ApiKeyRead × Text)) :=
  match rows.filter (fun row => row.keyPrefix == keyPrefix && row.isActive) with
  | [] => .ok none
  | [row] => .ok (some (row.read, row.keyHash))
  | _ => .error .multipleResultsFound

/-- The update of the row of a key. -/
def update (rows : List ApiKeyRow) (keyId : Uuid) (f : ApiKeyRow → ApiKeyRow) : List ApiKeyRow :=
  rows.map (fun row => if row.read.id = keyId then f row else row)

/-- `revoke` -/
def revoke (rows : List ApiKeyRow) (orgId keyId : Uuid) : Except ApiKeyError (ApiKeyRead × List ApiKeyRow) := do
  let row ← present (rows.find? (fun row => row.read.organizationId == orgId && row.read.id == keyId)) .noResultFound
  return (row.revoke.read, update rows keyId ApiKeyRow.revoke)

end ApiKeyRepository

/-! ## `IamServiceImpl` -/

/-- The collaborators of the service; the API keys of `auth` are those of the rows. `apiKeyPrefix` is `IAM_API_KEY_PREFIX`. -/
structure ApiKeyService where
  auth : AuthenticationService
  apiKeyPrefix : Text
  hash_injective : Function.Injective auth.hashKey

/-- The table of the keys and the clock. `used` lists the texts that have been authenticated in a session that was committed,
with the instants. -/
structure ApiKeyState where
  rows : List ApiKeyRow := []
  now : ℤ
  used : List (Text × ℤ) := []

/-- An operation, or the time up to an instant. For `create` with the `uuid4` of the row and the text of `token_urlsafe`. The
session of an authentication is `committed` after the handler when it is that of the dependency `get_current_principal`, and
never when it is that of the middleware. -/
inductive ApiKeyLabel where
  | create (orgId : Uuid) (data : ApiKeyCreate) (createdBy : Option Uuid) (id : Uuid) (raw : Text)
  | revoke (orgId keyId : Uuid) (actorId : Option Uuid)
  | authenticate (rawKey : Text) (committed : Bool)
  | elapse (now : ℤ)

/-- An authentication in a session that is committed. -/
def ApiKeyLabel.commits : ApiKeyLabel → Bool
  | .authenticate _ committed => committed
  | _ => false

namespace ApiKeyService

/-- `check_permission`; a principal that is no user has no membership. -/
def checkPermission (svc : ApiKeyService) (orgId : Uuid) (userId : Option Uuid) (permission : Text) : Except IamError Bool := do
  let membership ← userId.elim (.ok none) (svc.auth.memberships orgId)
  return (membership.bind UserRead.roleSlug).any (fun slug => !slug.isEmpty && (resolveSlug slug).contains permission)

/-- `_require_permission` -/
def requirePermission (svc : ApiKeyService) (orgId : Uuid) (userId : Option Uuid) (permission : Text) : Except IamError Unit := do
  let permitted ← svc.checkPermission orgId userId permission
  ensure permitted (.insufficientPermissions ("Missing permission: ".toList ++ permission) (some permission))

/-- `generate_api_key` : the key, its prefix and its hash. -/
def generateApiKey (svc : ApiKeyService) (raw : Text) : Text × Text × Text :=
  let fullKey := svc.apiKeyPrefix ++ raw
  (fullKey, fullKey.take 12, svc.auth.hashKey fullKey)

/-- `create_api_key` : the key, which is shown this once. -/
def createApiKey (svc : ApiKeyService) (rows : List ApiKeyRow) (orgId : Uuid) (data : ApiKeyCreate) (createdBy : Option Uuid)
    (id : Uuid) (raw : Text) : Except IamError (Text × List ApiKeyRow) := do
  svc.requirePermission orgId createdBy "manage_api_keys".toList
  let (fullKey, keyPrefix, keyHash) := svc.generateApiKey raw
  return (fullKey, ApiKeyRepository.create rows orgId data id keyPrefix keyHash fullKey)

/-- `revoke_api_key` -/
def revokeApiKey (svc : ApiKeyService) (rows : List ApiKeyRow) (orgId keyId : Uuid) (actorId : Option Uuid) :
    Except ApiKeyError (ApiKeyRead × List ApiKeyRow) := do
  (svc.requirePermission orgId actorId "manage_api_keys".toList).mapError .iam
  ApiKeyRepository.revoke rows orgId keyId

/-- `authenticate_api_key` over the rows, without the update of the row. -/
def authenticate (svc : ApiKeyService) (rows : List ApiKeyRow) (now : ℤ) (rawKey : Text) : Except IamError AuthenticatedPrincipal :=
  { svc.auth with apiKeys := ApiKeyRepository.getByPrefix rows }.authenticateApiKey now rawKey

def step (svc : ApiKeyService) (s : ApiKeyState) : ApiKeyLabel → Option ApiKeyState
  | .create orgId data createdBy id raw =>
    match svc.createApiKey s.rows orgId data createdBy id raw with
    | .ok (_, rows) => some { s with rows }
    | .error _ => some s
  | .revoke orgId keyId actorId =>
    match svc.revokeApiKey s.rows orgId keyId actorId with
    | .ok (_, rows) => some { s with rows }
    | .error _ => some s
  | .authenticate rawKey committed =>
    match svc.authenticate s.rows s.now rawKey with
    | .ok principal =>
      if committed then some { s with
        rows := principal.apiKeyId.elim s.rows (fun id => ApiKeyRepository.update s.rows id (ApiKeyRow.touch s.now))
        used := s.used ++ [(rawKey, s.now)] }
      else some s
    | .error _ => some s
  | .elapse now => if s.now ≤ now then some { s with now } else none

/-- `uuid4` and `token_urlsafe` give nothing twice. -/
def Fresh (svc : ApiKeyService) (s : ApiKeyState) : ApiKeyLabel → Prop
  | .create _ _ _ id raw => ∀ row ∈ s.rows, row.read.id ≠ id ∧ row.secret ≠ svc.apiKeyPrefix ++ raw
  | _ => True

/-! ## What the rows are -/

variable {svc : ApiKeyService} {s t : ApiKeyState} {row other : ApiKeyRow} {rawKey : Text}

/-- The principal of a key. -/
def principal (row : ApiKeyRow) (org : OrganizationRead) : AuthenticatedPrincipal where
  userId := none
  organizationId := row.read.organizationId
  tenantId := some org.tenantId
  roleSlug := .string "api_key".toList
  permissions := (if row.read.permissions.isEmpty then resolveSlug "developer".toList else row.read.permissions).map Json.string
  authMethod := .apiKey
  apiKeyId := some row.read.id

/-- The key can be used at an instant. -/
structure Usable (row : ApiKeyRow) (now : ℤ) : Prop where
  active : row.isActive = true
  unexpired : row.read.expiresAt.all (fun t => now < t) = true

structure Sound (svc : ApiKeyService) (s : ApiKeyState) : Prop where
  ids : (s.rows.map (fun row => row.read.id)).Nodup
  secrets : (s.rows.map ApiKeyRow.secret).Nodup
  keyPrefix : ∀ row ∈ s.rows, row.keyPrefix = row.secret.take 12
  keyHash : ∀ row ∈ s.rows, row.keyHash = svc.auth.hashKey row.secret
  lastUsed : ∀ row ∈ s.rows, row.lastUsedAt = ((s.used.filter (fun u => u.1 = row.secret)).getLast?).map Prod.snd
  issued : ∀ u ∈ s.used, ∃ row ∈ s.rows, row.secret = u.1

theorem getByPrefix_eq {rows : List ApiKeyRow} {keyPrefix : Text} {found : ApiKeyRead × Text} :
    ApiKeyRepository.getByPrefix rows keyPrefix = .ok (some found) ↔
      ∃ row, rows.filter (fun row => row.keyPrefix == keyPrefix && row.isActive) = [row] ∧ found = (row.read, row.keyHash) := by
  unfold ApiKeyRepository.getByPrefix
  constructor
  · intro h
    split at h
    · cases h
    · rename_i row hrow
      exact ⟨row, hrow, (Option.some.inj (Except.ok.inj h)).symm⟩
    · cases h
  · rintro ⟨row, hrow, rfl⟩
    rw [hrow]

/-- What authenticates, in the words of the row. -/
theorem authenticate_eq_ok {rows : List ApiKeyRow} {now : ℤ} {p : AuthenticatedPrincipal} :
    svc.authenticate rows now rawKey = .ok p ↔
      ∃ row org, rows.filter (fun row => row.keyPrefix == rawKey.take 12 && row.isActive) = [row] ∧
        svc.auth.hashKey rawKey = row.keyHash ∧ Usable row now ∧
        svc.auth.organizations row.read.organizationId = .ok (some org) ∧ p = principal row org := by
  unfold authenticate AuthenticationService.authenticateApiKey
  simp only [bind_eq_ok, present_eq_ok, ensure_eq_ok, pure_eq_ok, beq_iff_eq]
  constructor
  · rintro ⟨_, hfound, ⟨key, keyHash⟩, rfl, _, hhash, _, hactive, _, hexpires, _, horg, org, rfl, rfl⟩
    obtain ⟨row, hrow, heq⟩ := getByPrefix_eq.mp hfound
    cases heq
    exact ⟨row, org, hrow, hhash, ⟨beq_iff_eq.mpr hactive, hexpires⟩, horg, rfl⟩
  · rintro ⟨row, org, hrow, hhash, husable, horg, rfl⟩
    exact ⟨_, getByPrefix_eq.mpr ⟨row, hrow, rfl⟩, _, rfl, (), hhash, (), beq_iff_eq.mp husable.active, (), husable.unexpired, _,
      horg, org, rfl, rfl⟩

theorem mem_update {rows : List ApiKeyRow} {keyId : Uuid} {f : ApiKeyRow → ApiKeyRow}
    (h : row ∈ ApiKeyRepository.update rows keyId f) :
    ∃ old ∈ rows, old.read.id = keyId ∧ row = f old ∨ old.read.id ≠ keyId ∧ row = old := by
  obtain ⟨old, hold, rfl⟩ := List.mem_map.mp h
  by_cases hid : old.read.id = keyId
  · exact ⟨old, hold, Or.inl ⟨hid, if_pos hid⟩⟩
  · exact ⟨old, hold, Or.inr ⟨hid, if_neg hid⟩⟩

/-- An update leaves what it does not write. -/
theorem map_update {α : Type} (rows : List ApiKeyRow) (keyId : Uuid) {f : ApiKeyRow → ApiKeyRow} {g : ApiKeyRow → α}
    (hg : ∀ row, g (f row) = g row) : (ApiKeyRepository.update rows keyId f).map g = rows.map g := by
  unfold ApiKeyRepository.update
  rw [List.map_map]
  refine List.map_congr_left (fun row _ => ?_)
  rw [Function.comp_apply, apply_ite g, hg, ite_self]

theorem Sound.eq_of_secret (h : Sound svc s) (hrow : row ∈ s.rows) (hother : other ∈ s.rows) (heq : row.secret = other.secret) :
    row = other :=
  List.inj_on_of_nodup_map h.secrets hrow hother heq

theorem Sound.eq_of_id (h : Sound svc s) (hrow : row ∈ s.rows) (hother : other ∈ s.rows) (heq : row.read.id = other.read.id) :
    row = other :=
  List.inj_on_of_nodup_map h.ids hrow hother heq

/-- The active keys that begin like a text. -/
theorem Sound.mem_filter (h : Sound svc s) :
    row ∈ s.rows.filter (fun row => row.keyPrefix == rawKey.take 12 && row.isActive) ↔
      row ∈ s.rows ∧ row.secret.take 12 = rawKey.take 12 ∧ row.isActive = true := by
  rw [List.mem_filter, Bool.and_eq_true, beq_iff_eq]
  constructor
  · rintro ⟨hmem, hprefix, hactive⟩
    exact ⟨hmem, h.keyPrefix row hmem ▸ hprefix, hactive⟩
  · rintro ⟨hmem, hprefix, hactive⟩
    exact ⟨hmem, (h.keyPrefix row hmem).trans hprefix, hactive⟩

/-- No other active key begins with the same 12 characters. -/
def Alone (rows : List ApiKeyRow) (row : ApiKeyRow) : Prop :=
  ∀ other ∈ rows, other.isActive = true → other.secret.take 12 = row.secret.take 12 → other = row

theorem Sound.filter_eq_singleton (h : Sound svc s) (hrow : row ∈ s.rows) (hactive : row.isActive = true) :
    s.rows.filter (fun other => other.keyPrefix == row.secret.take 12 && other.isActive) = [row] ↔ Alone s.rows row := by
  constructor
  · intro heq other hother hactive' hprefix
    have hmem := h.mem_filter.mpr ⟨hother, hprefix, hactive'⟩
    rw [heq] at hmem
    exact List.mem_singleton.mp hmem
  · intro halone
    have hmem := h.mem_filter.mpr ⟨hrow, rfl, hactive⟩
    have hall : ∀ other ∈ s.rows.filter (fun other => other.keyPrefix == row.secret.take 12 && other.isActive), other = row := by
      intro other hother
      obtain ⟨hother, hprefix, hactive'⟩ := h.mem_filter.mp hother
      exact halone other hother hactive' hprefix
    have hrep := List.eq_replicate_of_mem hall
    have hnodup : (s.rows.filter (fun other => other.keyPrefix == row.secret.take 12 && other.isActive)).Nodup :=
      h.secrets.of_map.filter _
    rw [hrep] at hnodup hmem ⊢
    have hle := List.nodup_replicate.mp hnodup
    have hne := (List.mem_replicate.mp hmem).1
    rw [show List.length _ = 1 by omega]
    rfl

/-- What authenticates, in the words of the keys. -/
theorem Sound.authenticate_eq_ok (h : Sound svc s) {now : ℤ} {p : AuthenticatedPrincipal} :
    svc.authenticate s.rows now rawKey = .ok p ↔
      ∃ row ∈ s.rows, row.secret = rawKey ∧ Usable row now ∧ Alone s.rows row ∧
        ∃ org, svc.auth.organizations row.read.organizationId = .ok (some org) ∧ p = principal row org := by
  rw [ApiKeyService.authenticate_eq_ok]
  constructor
  · rintro ⟨row, org, hfilter, hhash, husable, horg, rfl⟩
    have hmem : row ∈ s.rows := (h.mem_filter.mp (hfilter ▸ List.mem_singleton_self row)).1
    obtain rfl : rawKey = row.secret := svc.hash_injective (hhash.trans (h.keyHash row hmem))
    exact ⟨row, hmem, rfl, husable, (h.filter_eq_singleton hmem husable.active).mp hfilter, org, horg, rfl⟩
  · rintro ⟨row, hmem, rfl, husable, halone, org, horg, rfl⟩
    exact ⟨row, org, (h.filter_eq_singleton hmem husable.active).mpr halone, (h.keyHash row hmem).symm, husable, horg, rfl⟩

/-! ## What a step does -/

/-- What a step does to the keys. -/
inductive Effect (svc : ApiKeyService) (s : ApiKeyState) : ApiKeyState → Prop
  | same : Effect svc s s
  | created (orgId : Uuid) (data : ApiKeyCreate) (id : Uuid) (raw : Text)
      (hfresh : ∀ row ∈ s.rows, row.read.id ≠ id ∧ row.secret ≠ svc.apiKeyPrefix ++ raw) :
      Effect svc s { s with
        rows := ApiKeyRepository.create s.rows orgId data id ((svc.apiKeyPrefix ++ raw).take 12)
          (svc.auth.hashKey (svc.apiKeyPrefix ++ raw)) (svc.apiKeyPrefix ++ raw) }
  | revoked (keyId : Uuid) : Effect svc s { s with rows := ApiKeyRepository.update s.rows keyId ApiKeyRow.revoke }
  | used (row : ApiKeyRow) (hrow : row ∈ s.rows) :
      Effect svc s { s with
        rows := ApiKeyRepository.update s.rows row.read.id (ApiKeyRow.touch s.now)
        used := s.used ++ [(row.secret, s.now)] }
  | elapsed (now : ℤ) (hnow : s.now ≤ now) : Effect svc s { s with now }

theorem Sound.effect (h : Sound svc s) {l : ApiKeyLabel} (hl : Fresh svc s l) (ht : svc.step s l = some t) : Effect svc s t := by
  cases l with
  | create orgId data createdBy id raw =>
      simp only [step] at ht
      split at ht
      · rename_i secret rows hcreate
        cases ht
        obtain ⟨_, -, hcreate⟩ := bind_eq_ok.mp hcreate
        cases hcreate
        exact .created orgId data id raw hl
      · cases ht
        exact .same
  | revoke orgId keyId actorId =>
      simp only [step] at ht
      split at ht
      · rename_i read rows hrevoke
        cases ht
        obtain ⟨_, -, hrevoke⟩ := bind_eq_ok.mp hrevoke
        obtain ⟨_, -, hrevoke⟩ := bind_eq_ok.mp hrevoke
        cases hrevoke
        exact .revoked keyId
      · cases ht
        exact .same
  | authenticate rawKey committed =>
      simp only [step] at ht
      split at ht
      · rename_i p hp
        split at ht
        · cases ht
          obtain ⟨row, hmem, rfl, -, -, org, -, rfl⟩ := h.authenticate_eq_ok.mp hp
          exact .used row hmem
        · cases ht
          exact .same
      · cases ht
        exact .same
  | elapse now =>
      simp only [step] at ht
      split_ifs at ht with hnow
      cases ht
      exact .elapsed now hnow

theorem Sound.created (h : Sound svc s) {orgId id : Uuid} {data : ApiKeyCreate} {raw : Text}
    (hfresh : ∀ row ∈ s.rows, row.read.id ≠ id ∧ row.secret ≠ svc.apiKeyPrefix ++ raw) :
    Sound svc { s with
      rows := ApiKeyRepository.create s.rows orgId data id ((svc.apiKeyPrefix ++ raw).take 12)
        (svc.auth.hashKey (svc.apiKeyPrefix ++ raw)) (svc.apiKeyPrefix ++ raw) } := by
  have hmem : ∀ {row}, row ∈ ApiKeyRepository.create s.rows orgId data id ((svc.apiKeyPrefix ++ raw).take 12)
      (svc.auth.hashKey (svc.apiKeyPrefix ++ raw)) (svc.apiKeyPrefix ++ raw) → row ∈ s.rows ∨
        row.secret = svc.apiKeyPrefix ++ raw ∧ row.keyPrefix = row.secret.take 12 ∧ row.keyHash = svc.auth.hashKey row.secret ∧
          row.lastUsedAt = none := by
    intro row hrow
    rcases List.mem_append.mp hrow with hrow | hrow
    · exact Or.inl hrow
    · cases List.mem_singleton.mp hrow
      exact Or.inr ⟨rfl, rfl, rfl, rfl⟩
  have hconcat : ∀ {α : Type} {l : List α} {a : α}, l.Nodup → a ∉ l → (l ++ [a]).Nodup := by
    intro α l a hl ha
    exact List.nodup_append.mpr ⟨hl, List.nodup_singleton a, fun b hb c hc => by
      cases List.mem_singleton.mp hc
      exact fun heq => ha (heq ▸ hb)⟩
  refine ⟨?_, ?_, ?_, ?_, ?_, ?_⟩
  · show ((s.rows ++ [_]).map _).Nodup
    rw [List.map_append]
    refine hconcat h.ids (fun hid => ?_)
    obtain ⟨row, hrow, heq⟩ := List.mem_map.mp hid
    exact (hfresh row hrow).1 heq
  · show ((s.rows ++ [_]).map _).Nodup
    rw [List.map_append]
    refine hconcat h.secrets (fun hsecret => ?_)
    obtain ⟨row, hrow, heq⟩ := List.mem_map.mp hsecret
    exact (hfresh row hrow).2 heq
  · intro row hrow
    rcases hmem hrow with hrow | ⟨-, hprefix, -⟩
    · exact h.keyPrefix row hrow
    · exact hprefix
  · intro row hrow
    rcases hmem hrow with hrow | ⟨-, -, hhash, -⟩
    · exact h.keyHash row hrow
    · exact hhash
  · intro row hrow
    rcases hmem hrow with hrow | ⟨hsecret, -, -, hused⟩
    · exact h.lastUsed row hrow
    · have hnone : s.used.filter (fun u => u.1 = row.secret) = [] := by
        rw [List.filter_eq_nil_iff]
        intro u hu heq
        obtain ⟨old, hold, hu⟩ := h.issued u hu
        exact (hfresh old hold).2 (hu.trans ((of_decide_eq_true heq).trans hsecret))
      rw [hused, hnone]
      rfl
  · intro u hu
    obtain ⟨row, hrow, heq⟩ := h.issued u hu
    exact ⟨row, List.mem_append_left _ hrow, heq⟩

theorem Sound.revoked (h : Sound svc s) (keyId : Uuid) :
    Sound svc { s with rows := ApiKeyRepository.update s.rows keyId ApiKeyRow.revoke } := by
  have hmem : ∀ {row}, row ∈ ApiKeyRepository.update s.rows keyId ApiKeyRow.revoke → ∃ old ∈ s.rows,
      row.secret = old.secret ∧ row.keyPrefix = old.keyPrefix ∧ row.keyHash = old.keyHash ∧ row.lastUsedAt = old.lastUsedAt := by
    intro row hrow
    obtain ⟨old, hold, ⟨-, rfl⟩ | ⟨-, rfl⟩⟩ := mem_update hrow
    · exact ⟨old, hold, rfl, rfl, rfl, rfl⟩
    · exact ⟨row, hold, rfl, rfl, rfl, rfl⟩
  refine ⟨?_, ?_, ?_, ?_, ?_, ?_⟩
  · exact map_update s.rows keyId (f := ApiKeyRow.revoke) (g := fun row => row.read.id) (fun row => rfl) ▸ h.ids
  · exact map_update s.rows keyId (f := ApiKeyRow.revoke) (g := ApiKeyRow.secret) (fun row => rfl) ▸ h.secrets
  · intro row hrow
    obtain ⟨old, hold, hsecret, hprefix, -, -⟩ := hmem hrow
    rw [hsecret, hprefix, h.keyPrefix old hold]
  · intro row hrow
    obtain ⟨old, hold, hsecret, -, hhash, -⟩ := hmem hrow
    rw [hsecret, hhash, h.keyHash old hold]
  · intro row hrow
    obtain ⟨old, hold, hsecret, -, -, hused⟩ := hmem hrow
    rw [hsecret, hused, h.lastUsed old hold]
  · intro u hu
    obtain ⟨row, hrow, heq⟩ := h.issued u hu
    have hsecrets := map_update s.rows keyId (f := ApiKeyRow.revoke) (g := ApiKeyRow.secret) (fun row => rfl)
    exact List.mem_map.mp (hsecrets ▸ heq ▸ List.mem_map_of_mem hrow)

theorem Sound.used_of (h : Sound svc s) (hrow : row ∈ s.rows) :
    Sound svc { s with
      rows := ApiKeyRepository.update s.rows row.read.id (ApiKeyRow.touch s.now)
      used := s.used ++ [(row.secret, s.now)] } := by
  have hmem : ∀ {row'}, row' ∈ ApiKeyRepository.update s.rows row.read.id (ApiKeyRow.touch s.now) →
      row' = row.touch s.now ∨ row' ∈ s.rows ∧ row'.secret ≠ row.secret := by
    intro row' hrow'
    obtain ⟨old, hold, ⟨hid, rfl⟩ | ⟨hid, rfl⟩⟩ := mem_update hrow'
    · exact Or.inl (congrArg _ (h.eq_of_id hold hrow hid))
    · exact Or.inr ⟨hold, fun heq => hid (congrArg (fun row => row.read.id) (h.eq_of_secret hold hrow heq))⟩
  refine ⟨?_, ?_, ?_, ?_, ?_, ?_⟩
  · exact map_update s.rows row.read.id (f := ApiKeyRow.touch s.now) (g := fun row => row.read.id) (fun row => rfl) ▸ h.ids
  · exact map_update s.rows row.read.id (f := ApiKeyRow.touch s.now) (g := ApiKeyRow.secret) (fun row => rfl) ▸ h.secrets
  · intro row' hrow'
    rcases hmem hrow' with rfl | ⟨hrow', -⟩
    · exact h.keyPrefix row hrow
    · exact h.keyPrefix row' hrow'
  · intro row' hrow'
    rcases hmem hrow' with rfl | ⟨hrow', -⟩
    · exact h.keyHash row hrow
    · exact h.keyHash row' hrow'
  · intro row' hrow'
    show row'.lastUsedAt = (((s.used ++ [(row.secret, s.now)]).filter (fun u => u.1 = row'.secret)).getLast?).map Prod.snd
    rw [List.filter_append]
    rcases hmem hrow' with rfl | ⟨hrow', hne⟩
    · rw [List.filter_cons_of_pos (by exact decide_eq_true rfl), List.filter_nil, List.getLast?_concat]
      rfl
    · rw [List.filter_cons_of_neg (by simpa using hne.symm), List.filter_nil, List.append_nil]
      exact h.lastUsed row' hrow'
  · intro u hu
    have hissued : ∃ row ∈ s.rows, row.secret = u.1 := by
      rcases List.mem_append.mp hu with hu | hu
      · exact h.issued u hu
      · exact ⟨row, hrow, by rw [List.mem_singleton.mp hu]⟩
    obtain ⟨old, hold, heq⟩ := hissued
    have hsecrets := map_update s.rows row.read.id (f := ApiKeyRow.touch s.now) (g := ApiKeyRow.secret) (fun row => rfl)
    exact List.mem_map.mp (hsecrets ▸ heq ▸ List.mem_map_of_mem hold)

theorem Sound.step {l : ApiKeyLabel} (h : Sound svc s) (hl : Fresh svc s l) (ht : svc.step s l = some t) : Sound svc t := by
  cases h.effect hl ht with
  | same => exact h
  | created orgId data id raw hfresh => exact h.created hfresh
  | revoked keyId => exact h.revoked keyId
  | used row hrow => exact h.used_of hrow
  | elapsed now hnow => exact ⟨h.ids, h.secrets, h.keyPrefix, h.keyHash, h.lastUsed, h.issued⟩

theorem sound_new (now : ℤ) : Sound svc { now } :=
  ⟨List.nodup_nil, List.nodup_nil, by simp, by simp, by simp, by simp⟩

theorem sound_of_run {ls : List ApiKeyLabel} {now : ℤ} (h : Run svc.step (Fresh svc) { now } ls s) : Sound svc s :=
  h.invariant (sound_new now) (fun hs hl ht => hs.step hl ht)

/-! ## What holds in every run -/

/-- **Who authenticates** in every run: a text does exactly when it is the key of a row that is active and has not expired, whose
organization is there, and beside which no other active key begins with the same 12 characters; and it does as that row. -/
theorem authenticates_iff_of_run {ls : List ApiKeyLabel} {now : ℤ} (h : Run svc.step (Fresh svc) { now } ls s)
    (rawKey : Text) (p : AuthenticatedPrincipal) :
    svc.authenticate s.rows s.now rawKey = .ok p ↔
      ∃ row ∈ s.rows, row.secret = rawKey ∧ Usable row s.now ∧ Alone s.rows row ∧
        ∃ org, svc.auth.organizations row.read.organizationId = .ok (some org) ∧ p = principal row org :=
  (sound_of_run h).authenticate_eq_ok

/-- A stand-in for the digest. -/
def oneAdministrator : ApiKeyService where
  auth := AuthenticationService.oneUser (.member .ACTIVE)
  apiKeyPrefix := "vx_".toList
  hash_injective _ _ h := h

def firstKey : ApiKeyRow where
  read := {
    id := Uuid.ofInt 7, organizationId := Uuid.ofInt 2, permissions := [], status := .member .ACTIVE
    expiresAt := some 10 }
  keyPrefix := "vx_0123456789".toList.take 12
  keyHash := "vx_0123456789".toList
  secret := "vx_0123456789".toList

theorem run_firstKey : Run oneAdministrator.step (Fresh oneAdministrator) { now := 0 }
    [.create (Uuid.ofInt 2) { expiresAt := some 10 } (some (Uuid.ofInt 1)) (Uuid.ofInt 7) "0123456789".toList]
    { rows := [firstKey], now := 0 } :=
  .snoc .nil (by simp [Fresh]) rfl

theorem authenticates_iff_of_run_firstKey :
    ∃ p, oneAdministrator.authenticate [firstKey] 0 "vx_0123456789".toList = .ok p ∧ p.apiKeyId = some (Uuid.ofInt 7) := by
  refine ⟨_, (authenticates_iff_of_run run_firstKey _ _).mpr
    ⟨firstKey, List.mem_cons_self, rfl, ⟨by decide, by decide⟩, ?_, ⟨Uuid.ofInt 2, Uuid.ofInt 3⟩, rfl, rfl⟩, rfl⟩
  intro other hother _ _
  exact List.mem_singleton.mp hother

/-- The key of a row can be used no more. -/
def Finished (secret : Text) (s : ApiKeyState) : Prop := ∃ row ∈ s.rows, row.secret = secret ∧ ¬Usable row s.now

theorem Finished.effect {secret : Text} (h : Finished secret s) (ht : Effect svc s t) : Finished secret t := by
  obtain ⟨row, hrow, hsecret, hdone⟩ := h
  cases ht with
  | same => exact ⟨row, hrow, hsecret, hdone⟩
  | created orgId data id raw hfresh => exact ⟨row, List.mem_append_left _ hrow, hsecret, hdone⟩
  | revoked keyId =>
      refine ⟨_, List.mem_map_of_mem hrow, ?_, ?_⟩
      · split <;> exact hsecret
      · split
        · exact fun husable => absurd husable.active (by simp [ApiKeyRow.isActive, ApiKeyRow.revoke]; decide)
        · exact hdone
  | used row' hrow' =>
      refine ⟨_, List.mem_map_of_mem hrow, ?_, ?_⟩
      · split <;> exact hsecret
      · split
        · exact fun husable => hdone ⟨husable.active, husable.unexpired⟩
        · exact hdone
  | elapsed now hnow =>
      refine ⟨row, hrow, hsecret, fun husable => hdone ⟨husable.active, ?_⟩⟩
      rw [Option.all_eq_true]
      intro expiry hexpiry
      have hlater := (Option.all_eq_true _ _).mp husable.unexpired expiry hexpiry
      exact decide_eq_true (lt_of_le_of_lt hnow (of_decide_eq_true hlater))

/-- Only an authentication in a session that is committed is noted. -/
theorem used_of_step {l : ApiKeyLabel} (hl : l.commits = false) (ht : svc.step s l = some t) : t.used = s.used := by
  cases l with
  | create orgId data createdBy id raw =>
      simp only [step] at ht
      split at ht <;> cases ht <;> rfl
  | revoke orgId keyId actorId =>
      simp only [step] at ht
      split at ht <;> cases ht <;> rfl
  | authenticate rawKey committed =>
      obtain rfl : committed = false := hl
      simp only [step] at ht
      split at ht <;> cases ht <;> rfl
  | elapse now =>
      simp only [step] at ht
      split_ifs at ht
      cases ht
      rfl

theorem used_of_run {ls : List ApiKeyLabel} {now : ℤ} (h : Run svc.step (Fresh svc) { now } ls s)
    (hls : ∀ l ∈ ls, l.commits = false) : s.used = [] := by
  refine h.invariant₂ (I := fun ls s => (∀ l ∈ ls, l.commits = false) → s.used = []) (fun _ => rfl) ?_ hls
  intro ls q q' l ih _ hq' hls
  obtain ⟨hbefore, hl⟩ := List.forall_mem_append.mp hls
  rw [used_of_step (hl l (List.mem_singleton_self l)) hq', ih hbefore]

/-- **A key that is revoked or has expired** never authenticates again, whatever happens later; in every run `last_used_at` is the
instant of the last time that the key of the row has authenticated in a session that was committed; and so it is never written
while the keys authenticate with the middleware only. -/
theorem finished_of_run {ls more : List ApiKeyLabel} {now : ℤ} (h : Run svc.step (Fresh svc) { now } ls s)
    (h' : Run svc.step (Fresh svc) s more t) :
    (∀ row ∈ s.rows, ¬Usable row s.now → ∀ p, svc.authenticate t.rows t.now row.secret ≠ .ok p) ∧
      (∀ row ∈ t.rows, row.lastUsedAt = ((t.used.filter (fun u => u.1 = row.secret)).getLast?).map Prod.snd) ∧
      ((∀ l ∈ ls ++ more, l.commits = false) → ∀ row ∈ t.rows, row.lastUsedAt = none) := by
  have hsound := sound_of_run (h.trans h')
  refine ⟨fun row hrow hdone p hp => ?_, hsound.lastUsed, fun hls row hrow => ?_⟩
  · have hinv : Sound svc t ∧ Finished row.secret t := by
      refine h'.invariant (I := fun q => Sound svc q ∧ Finished row.secret q) ⟨sound_of_run h, row, hrow, rfl, hdone⟩ ?_
      intro q l q' ⟨hq, hfinished⟩ hl hq'
      exact ⟨hq.step hl hq', hfinished.effect (hq.effect hl hq')⟩
    obtain ⟨-, row', hrow', hsecret, hdone'⟩ := hinv
    obtain ⟨other, hother, heq, husable, -⟩ := hsound.authenticate_eq_ok.mp hp
    exact hdone' (hsound.eq_of_secret hother hrow' (heq.trans hsecret.symm) ▸ husable)
  · rw [hsound.lastUsed row hrow, used_of_run (h.trans h') hls]
    rfl

/-- The key authenticates with the middleware, and expires. -/
theorem finished_of_run_firstKey : (∃ error, oneAdministrator.authenticate [firstKey] 20 firstKey.secret = .error error) ∧
    firstKey.lastUsedAt = none := by
  have hmore : Run oneAdministrator.step (Fresh oneAdministrator) { rows := [firstKey], now := 0 }
      ([.authenticate "vx_0123456789".toList false] ++ [.elapse 20]) { rows := [firstKey], now := 20 } :=
    .snoc (.snoc .nil trivial rfl) trivial rfl
  have hexpired : Run oneAdministrator.step (Fresh oneAdministrator) { now := 0 }
      ([.create (Uuid.ofInt 2) { expiresAt := some 10 } (some (Uuid.ofInt 1)) (Uuid.ofInt 7) "0123456789".toList] ++
        ([.authenticate "vx_0123456789".toList false] ++ [.elapse 20])) { rows := [firstKey], now := 20 } :=
    run_firstKey.trans hmore
  have hdone : ¬Usable firstKey 20 := fun husable => absurd husable.unexpired (by decide)
  obtain ⟨hnever, -, hnone⟩ := finished_of_run hexpired .nil
  refine ⟨?_, hnone (by simp [ApiKeyLabel.commits]) firstKey List.mem_cons_self⟩
  cases h : oneAdministrator.authenticate [firstKey] 20 firstKey.secret with
  | error error => exact ⟨error, rfl⟩
  | ok p => exact absurd h (hnever firstKey List.mem_cons_self hdone p)

end ApiKeyService

end Voxera.Iam
