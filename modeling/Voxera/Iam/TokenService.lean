import Voxera.Iam.Schemas
import Mathlib.Logic.Encodable.Basic
import Mathlib.Logic.Equiv.List

/-!
# `TokenService`

The signature under the key of the server is a parameter, `Jwt`; the time claims are checked here, as `jwt.decode`
documents it.
-/

namespace Voxera.Iam

/-- The claims of a token that the services or `jwt.decode` read. Times are whole seconds. -/
structure Payload where
  sub : Option Json := none
  org : Option Json := none
  sid : Option Json := none
  role : Option Json := none
  permissions : Option Json := none
  type : Option Json := none
  iat : Option ℤ := none
  nbf : Option ℤ := none
  exp : Option ℤ := none

/-- Microseconds in a second. -/
def second : ℤ := 1000000

/-- `jwt.decode(token, settings.jwt_secret_key, algorithms=["HS256"])`, for the payload `verify` finds under the key;
`none` is a token whose form or signature is refused. -/
def decodeToken (verify : Text → Option Payload) (now : ℤ) (token : Text) : Except IamError Payload :=
  match verify token with
  | none => .error (.tokenExpired "Invalid token".toList)
  | some payload =>
    if payload.iat.any (fun t => now < t * second) then .error (.tokenExpired "Invalid token".toList)
    else if payload.nbf.any (fun t => now < t * second) then .error (.tokenExpired "Invalid token".toList)
    else if payload.exp.any (fun t => t * second ≤ now) then .error (.tokenExpired "Token expired".toList)
    else .ok payload

/-- A decoded token has been verified and has not expired. -/
theorem decodeToken_eq_ok {verify : Text → Option Payload} {now : ℤ} {token : Text} {payload : Payload}
    (h : decodeToken verify now token = .ok payload) :
    verify token = some payload ∧ ∀ t, payload.exp = some t → now < t * second := by
  unfold decodeToken at h
  split at h
  · cases h
  · rename_i p hp
    split_ifs at h with hiat hnbf hexp
    cases h
    refine ⟨hp, fun t ht => ?_⟩
    by_contra hle
    exact hexp (by simp [ht, Int.not_lt.mp hle])

/-- The payloads that `TokenService` signs. -/
inductive Minted where
  | access (userId : Uuid) (organizationId : Option Uuid) (roleSlug : Option Text) (permissions : List Text)
      (iat exp : ℤ)
  | refresh (userId sessionId : Uuid) (iat exp : ℤ)
  deriving DecidableEq

namespace Minted

def payload : Minted → Payload
  | access userId organizationId roleSlug permissions iat exp => {
      sub := some (.string userId.str)
      org := some ((organizationId.map (fun id => Json.string id.str)).getD .null)
      role := some ((roleSlug.map Json.string).getD .null)
      permissions := some (.array (permissions.map Json.string))
      type := some (.string "access".toList)
      iat := some iat
      exp := some exp }
  | refresh userId sessionId iat exp => {
      sub := some (.string userId.str)
      sid := some (.string sessionId.str)
      type := some (.string "refresh".toList)
      iat := some iat
      exp := some exp }

/-! ### A signature to compute with -/

instance : Encodable Char :=
  Encodable.ofLeftInjection Char.toNat (fun n => some (Char.ofNat n)) (fun c => by rw [Char.ofNat_toNat])

instance : Encodable Uuid :=
  Encodable.ofLeftInjection Uuid.int (fun n => if h : n < 1 <<< 128 then some ⟨n, h⟩ else none)
    (fun u => by rw [dif_pos u.lt])

/-- A payload is the tuple of its claims. -/
def claims : Minted ≃
    (Uuid × Option Uuid × Option Text × List Text × ℤ × ℤ) ⊕ (Uuid × Uuid × ℤ × ℤ) where
  toFun
    | access u o r p i e => .inl (u, o, r, p, i, e)
    | refresh u s i e => .inr (u, s, i, e)
  invFun
    | .inl (u, o, r, p, i, e) => access u o r p i e
    | .inr (u, s, i, e) => refresh u s i e
  left_inv m := by cases m <;> rfl
  right_inv c := by cases c <;> rfl

instance : Encodable Minted := Encodable.ofEquiv _ claims

def sign (m : Minted) : Text := List.replicate (Encodable.encode m) '1'

def unsign (token : Text) : Option Minted := Encodable.decode token.length

theorem unsign_sign (m : Minted) : unsign (sign m) = some m := by
  unfold unsign sign
  rw [List.length_replicate, Encodable.encodek]

theorem sign_injective : Function.Injective sign := by
  intro m m' h
  have heq := congrArg unsign h
  rw [unsign_sign, unsign_sign] at heq
  exact Option.some.inj heq

end Minted

/-- The payload of `create_access_token`; `jwt.encode` drops the fraction of a second. -/
def accessToken (now minutes : ℤ) (userId : Uuid) (organizationId : Option Uuid) (roleSlug : Option Text)
    (permissions : List Text) : Minted :=
  .access userId organizationId roleSlug permissions (now / second) ((now + minutes * 60 * second) / second)

/-- The payload of `create_refresh_token`. -/
def refreshToken (now days : ℤ) (userId sessionId : Uuid) : Minted :=
  .refresh userId sessionId (now / second) ((now + days * 86400 * second) / second)

end Voxera.Iam
