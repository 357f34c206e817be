import Voxera.Text
import Voxera.Raising
import Mathlib.Data.Rat.Defs

/-!
# Identifiers, exceptions and records of identity and access

* `Uuid` : a number of 128 bits; `Uuid.ofText` is the constructor `UUID` and `Uuid.str` its text;
* `Json` : a claim of a token, with what Python makes of it (`truthy`, `uuid`, `frozenset`);
* `IamError` : what the services raise, with the messages;
* `StatusValue` : a status, as a member of its `StrEnum` or as a plain `str`;
* the records that the repositories return, with the fields that the services read.

Instants are microseconds of an epoch.
-/

namespace Voxera.Iam

open Raising

/-- A `uuid.UUID`. -/
structure Uuid where
  int : Nat
  lt : int < 1 <<< 128
  deriving DecidableEq

namespace Uuid

/-- `UUID(t)`; `none` is a `ValueError`. -/
def ofText (t : Text) : Option Uuid :=
  (Text.uuidInt t).bind (fun n => if h : n < 1 <<< 128 then some ⟨n, h⟩ else none)

/-- `UUID(int=n)`, for an `n` in range. -/
def ofInt (n : Nat) : Uuid := ⟨n % (1 <<< 128), Nat.mod_lt n (by decide)⟩

theorem uuidInt_of_ofText {t : Text} {u : Uuid} (h : ofText t = some u) : Text.uuidInt t = some u.int := by
  obtain ⟨n, hn, hu⟩ := Option.bind_eq_some_iff.mp h
  split_ifs at hu with hlt
  rw [hn, ← Option.some.inj hu]

theorem ofText_append {x y : Text} {u v : Uuid} (hx : x ≠ []) (hid : ∀ c ∈ x, Text.isIdChar c = true)
    (hu : ofText x = some u) (hv : ofText (x ++ y) = some v) : v = u := by
  have hint := Text.uuidInt_append hx hid (uuidInt_of_ofText hu) (uuidInt_of_ofText hv)
  cases u
  cases v
  cases hint
  rfl

/-- The last `k` hexadecimal digits of `n`. -/
def lowerHex : Nat → Nat → Text
  | 0, _ => []
  | k + 1, n => lowerHex k (n / 16) ++ [Nat.digitChar (n % 16)]

/-- `str(u)` -/
def str (u : Uuid) : Text :=
  let hex := lowerHex 32 u.int
  hex.take 8 ++ '-' :: (hex.drop 8).take 4 ++ '-' :: (hex.drop 12).take 4 ++ '-' :: (hex.drop 16).take 4 ++
    '-' :: hex.drop 20

end Uuid

/-- The exceptions of `app.core.exceptions` and of Python that the services raise. -/
inductive IamError where
  | authentication (message : Text)
  | invalidCredentials (message : Text)
  | tokenExpired (message : Text)
  | insufficientPermissions (message : Text) (permission : Option Text)
  | iamUserNotFound (message : Text)
  | iamSessionNotFound (message : Text)
  | organizationNotFound (message : Text)
  | apiKeyNotFound (message : Text)
  | crossOrganizationAccess (message : Text)
  | httpException (statusCode : Nat) (detail : Text)
  /-- `pydantic.ValidationError` : a required field has no value. -/
  | fieldRequired (field : Text)
  | multipleResultsFound
  | attributeError (name : Text)
  | keyError (key : Text)
  | typeError
  | valueError
  deriving DecidableEq

/-- A value of a JSON document. -/
inductive Json where
  | null
  | bool (b : Bool)
  | number (q : ℚ)
  | string (t : Text)
  | array (items : List Json)
  | object (fields : List (Text × Json))

namespace Json

/-- `bool(v)` -/
def truthy : Json → Bool
  | null => false
  | bool b => b
  | number q => q != 0
  | string t => !t.isEmpty
  | array items => !items.isEmpty
  | object fields => !fields.isEmpty

def isText (t : Text) : Json → Bool
  | string u => u == t
  | _ => false

/-- `UUID(v)` -/
def uuid : Json → Except IamError Uuid
  | string t => present (Uuid.ofText t) .valueError
  | null => .error .typeError
  | _ => .error (.attributeError "replace".toList)

def hashable : Json → Bool
  | array _ | object _ => false
  | _ => true

/-- `frozenset(v)`, as the list of its elements. -/
def frozenset : Json → Except IamError (List Json)
  | array items => if items.all hashable then .ok items else .error .typeError
  | object fields => .ok (fields.map (fun f => string f.1))
  | string t => .ok (t.map (fun c => string [c]))
  | _ => .error .typeError

theorem eq_of_isText {t : Text} {v : Json} (h : v.isText t = true) : v = string t := by
  cases v with
  | string u => exact congrArg string (by simpa [isText] using h)
  | _ => cases h

/-- Only a text is a `UUID`. -/
theorem uuid_eq_ok {v : Json} {u : Uuid} : v.uuid = .ok u ↔ ∃ t, v = string t ∧ Uuid.ofText t = some u := by
  constructor
  · intro h
    cases v with
    | string t => exact ⟨t, rfl, present_eq_ok.mp h⟩
    | _ => cases h
  · rintro ⟨t, rfl, h⟩
    exact present_eq_ok.mpr h

end Json

/-- `IamUserStatus` -/
inductive IamUserStatus where
  | ACTIVE | INVITED | SUSPENDED | DEACTIVATED
  deriving DecidableEq

def IamUserStatus.value : IamUserStatus → Text
  | .ACTIVE => "active".toList
  | .INVITED => "invited".toList
  | .SUSPENDED => "suspended".toList
  | .DEACTIVATED => "deactivated".toList

theorem IamUserStatus.value_injective {e e' : IamUserStatus} (h : e.value = e'.value) : e = e' := by
  cases e <;> cases e' <;> first | rfl | exact absurd h (by decide)

/-- `IamSessionStatus` -/
inductive IamSessionStatus where
  | ACTIVE | REVOKED | EXPIRED
  deriving DecidableEq

def IamSessionStatus.value : IamSessionStatus → Text
  | .ACTIVE => "active".toList
  | .REVOKED => "revoked".toList
  | .EXPIRED => "expired".toList

/-- `ApiKeyStatus` -/
inductive ApiKeyStatus where
  | ACTIVE | REVOKED | EXPIRED
  deriving DecidableEq

def ApiKeyStatus.value : ApiKeyStatus → Text
  | .ACTIVE => "active".toList
  | .REVOKED => "revoked".toList
  | .EXPIRED => "expired".toList

/-- A status: a member of its `StrEnum`, or a plain `str`. -/
inductive StatusValue (E : Type) where
  | member (e : E)
  | text (t : Text)
  deriving DecidableEq

namespace StatusValue

variable {E : Type}

/-- `hasattr(status, "value")` -/
def hasValue : StatusValue E → Bool
  | member _ => true
  | text _ => false

/-- `str(status)`; a member of a `StrEnum` is its value, and equals a `str` when their texts do. -/
def str (value : E → Text) : StatusValue E → Text
  | member e => value e
  | text t => t

end StatusValue

structure OrganizationRead where
  id : Uuid
  tenantId : Uuid

structure UserRead where
  id : Uuid
  status : StatusValue IamUserStatus
  roleSlug : Option Text := none

structure SessionRead where
  id : Uuid
  userId : Uuid
  organizationId : Option Uuid
  browser : Option Text
  ipAddress : Option Text
  country : Option Text
  device : Option Text
  status : StatusValue IamSessionStatus
  expiresAt : ℤ
  revokedAt : Option ℤ
  createdAt : ℤ
  updatedAt : ℤ
  deriving DecidableEq

/-- The session is active, has not been revoked and has not expired. -/
structure SessionRead.Live (now : ℤ) (session : SessionRead) : Prop where
  active : session.status.str IamSessionStatus.value = IamSessionStatus.ACTIVE.value
  notRevoked : session.revokedAt = none
  notExpired : now < session.expiresAt

structure ApiKeyRead where
  id : Uuid
  organizationId : Uuid
  permissions : List Text
  status : StatusValue ApiKeyStatus
  expiresAt : Option ℤ

/-- How a principal has been authenticated. -/
inductive AuthMethod where
  | jwt
  | apiKey
  deriving DecidableEq

structure AuthenticatedPrincipal where
  userId : Option Uuid
  organizationId : Uuid
  tenantId : Option Uuid
  roleSlug : Json
  permissions : List Json
  authMethod : AuthMethod
  sessionId : Option Uuid := none
  apiKeyId : Option Uuid := none

/-- `has_permission` -/
def AuthenticatedPrincipal.hasPermission (p : AuthenticatedPrincipal) (permission : Text) : Bool :=
  p.permissions.any (Json.isText permission)

end Voxera.Iam
