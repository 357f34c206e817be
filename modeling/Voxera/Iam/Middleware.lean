import Voxera.Iam.AuthenticationService

/-!
# `AuthenticationMiddleware`

`dispatch` answers a request itself or hands it on, with the principal it has authenticated. It reads the path of the
URL, which the framework builds from the `Host` header too; the router reads the path of the scope. The state of the rate
limiters is outside: `rateLimits` is what they answer.
-/

namespace Voxera.Iam

open Raising

/-- What the middleware and the router read of a request; a header that is not sent is empty. -/
structure Request where
  method : Text
  /-- The path of the scope, which the router reads. -/
  path : Text
  /-- The path of `request.url`: another one when the `Host` header has more in it than a host. -/
  urlPath : Text
  authorization : Text := []
  apiKey : Text := []
  upgrade : Text := []

/-- What `dispatch` does with a request. -/
inductive Dispatch where
  /-- `call_next`, with the principal of the request's state. -/
  | next (principal : Option AuthenticatedPrincipal)
  | serviceUnavailable
  | failed (e : IamError)
  | rateLimited (retryAfter : Option ℤ) (scope : Option Text)

structure AuthenticationMiddleware where
  auth : AuthenticationService
  debug : Bool
  databaseEnabled : Bool
  enableApiKeyAuth : Bool
  now : ℤ
  /-- `check_authenticated_rate_limits` : whether the request is allowed, and when to come back in which scope. -/
  rateLimits : Request → AuthenticatedPrincipal → Bool × Option ℤ × Option Text

namespace AuthenticationMiddleware

/-- `PUBLIC_ROUTES` -/
def publicRoutes : List (Text × Text) :=
  [("POST".toList, "/api/v1/iam/auth/login".toList), ("POST".toList, "/api/v1/iam/auth/register".toList),
    ("POST".toList, "/api/v1/iam/auth/refresh".toList), ("GET".toList, "/api/v1/health".toList),
    ("GET".toList, "/api/v1/health/".toList)]

/-- `PUBLIC_PREFIXES` -/
def publicPrefixes : List Text :=
  ["/api/v1/health".toList, "/api/v1/metrics".toList, "/api/v1/integrations/oauth".toList,
    "/api/v1/integrations/webhooks".toList]

/-- `EXEMPT_PREFIXES` -/
def exemptPrefixes : List Text := ["/twilio".toList]

def docs : List Text := ["/docs".toList, "/redoc".toList, "/openapi.json".toList]

def apiPath : Text := "/api/v1".toList

/-- `request.url.path.rstrip("/") or "/"` -/
def trimmed (path : Text) : Text :=
  let path := path.rdropWhile (· == '/')
  if path.isEmpty then ['/'] else path

/-- `str.upper` on a method, which is ASCII. -/
def upper (t : Text) : Text := t.map (fun c => if 'a' ≤ c ∧ c ≤ 'z' then Char.ofNat (c.toNat - 32) else c)

/-- `_is_public` -/
def isPublic (method path : Text) : Bool :=
  publicRoutes.contains (method, path) || publicRoutes.contains (method, path ++ ['/']) ||
    publicPrefixes.any (fun p => p.isPrefixOf path)

/-- `_authenticate_request` -/
def authenticateRequest (m : AuthenticationMiddleware) (request : Request) : Except IamError AuthenticatedPrincipal :=
  if "bearer ".toList.isPrefixOf (Text.lower request.authorization) then
    m.auth.authenticateBearer m.now (Text.strip (request.authorization.dropWhile (· != ' ')).tail)
  else if !request.apiKey.isEmpty && m.enableApiKeyAuth then
    m.auth.authenticateApiKey m.now (Text.strip request.apiKey)
  else .error (.authentication "Authentication required".toList)

/-- The group of `^<start>([0-9a-f-]{36})` in a path. -/
def pathId (start path : Text) : Option Text :=
  let id := (path.drop start.length).take 36
  if start.isPrefixOf path && id.length == 36 && id.all Text.isIdChar then some id else none

/-- `_TENANT_PATH` -/
def tenantPath (path : Text) : Option Text := pathId "/api/v1/tenants/".toList path

/-- `_ORG_PATH` -/
def orgPath (path : Text) : Option Text := pathId "/api/v1/iam/organizations/".toList path

/-- `_authorize_request` -/
def authorizeRequest (m : AuthenticationMiddleware) (request : Request) (principal : AuthenticatedPrincipal) :
    Except IamError Unit :=
  let path := trimmed request.urlPath
  match tenantPath path with
  | some group => do
    let tenantId ← present (Uuid.ofText group) .valueError
    m.auth.validateTenantAccess principal tenantId
  | none =>
    match orgPath path with
    | some group => do
      let orgId ← present (Uuid.ofText group) .valueError
      ensure (principal.organizationId == orgId) (.crossOrganizationAccess "Cross-organization access denied".toList)
    | none =>
      if path == "/api/v1/tenants".toList &&
          ["GET".toList, "POST".toList, "PATCH".toList, "DELETE".toList].contains (upper request.method) then
        ensure (principal.hasPermission "manage_organization".toList)
          (.insufficientPermissions "Missing permission: manage_organization".toList
            (some "manage_organization".toList))
      else .ok ()

/-- `dispatch` behind its exemptions: a request that must be authenticated. -/
def guard (m : AuthenticationMiddleware) (request : Request) : Dispatch :=
  if !m.databaseEnabled then .serviceUnavailable
  else
    match m.authenticateRequest request with
    | .error e => .failed e
    | .ok principal =>
      match m.rateLimits request principal with
      | (false, retryAfter, scope) => .rateLimited retryAfter scope
      | (true, _) =>
        match m.authorizeRequest request principal with
        | .error e => .failed e
        | .ok () => .next (some principal)

/-- `dispatch` -/
def dispatch (m : AuthenticationMiddleware) (request : Request) : Dispatch :=
  let path := trimmed request.urlPath
  if isPublic (upper request.method) path then .next none
  else if m.debug && docs.contains path then .next none
  else if exemptPrefixes.any (fun p => p.isPrefixOf path) then .next none
  else if path == apiPath && Text.lower request.upgrade == "websocket".toList then .next none
  else if !apiPath.isPrefixOf path then .next none
  else m.guard request

/-! ## What the two functions do -/

/-- The request is handed on without a look at its principal. -/
def exempt (m : AuthenticationMiddleware) (request : Request) : Bool :=
  let path := trimmed request.urlPath
  isPublic (upper request.method) path || m.debug && docs.contains path ||
    exemptPrefixes.any (fun p => p.isPrefixOf path) ||
    path == apiPath && Text.lower request.upgrade == "websocket".toList || !apiPath.isPrefixOf path

theorem dispatch_of_exempt {m : AuthenticationMiddleware} {request : Request} (h : m.exempt request = true) :
    m.dispatch request = .next none := by
  simp only [exempt, Bool.or_eq_true] at h
  unfold dispatch
  rcases h with (((h | h) | h) | h) | h <;> simp only [h, if_true, ite_self]

theorem dispatch_of_not_exempt {m : AuthenticationMiddleware} {request : Request} (h : m.exempt request = false) :
    m.dispatch request = m.guard request := by
  simp only [exempt, Bool.or_eq_false_iff] at h
  obtain ⟨⟨⟨⟨hpublic, hdocs⟩, hprefix⟩, hsocket⟩, hapi⟩ := h
  simp only [dispatch, hpublic, hdocs, hprefix, hsocket, hapi, Bool.false_eq_true, if_false]

/-- The principal may have what the patterns find in the path of the URL. -/
structure PathAllowed (m : AuthenticationMiddleware) (request : Request) (principal : AuthenticatedPrincipal) : Prop where
  tenant : ∀ group, tenantPath (trimmed request.urlPath) = some group →
    ∃ tenantId, Uuid.ofText group = some tenantId ∧ m.auth.validateTenantAccess principal tenantId = .ok ()
  organization : ∀ group, tenantPath (trimmed request.urlPath) = none → orgPath (trimmed request.urlPath) = some group →
    Uuid.ofText group = some principal.organizationId
  tenants : tenantPath (trimmed request.urlPath) = none → orgPath (trimmed request.urlPath) = none →
    trimmed request.urlPath = "/api/v1/tenants".toList →
    upper request.method ∈ ["GET".toList, "POST".toList, "PATCH".toList, "DELETE".toList] →
    principal.hasPermission "manage_organization".toList = true

theorem authorizeRequest_eq_ok {m : AuthenticationMiddleware} {request : Request} {principal : AuthenticatedPrincipal} :
    m.authorizeRequest request principal = .ok () ↔ m.PathAllowed request principal := by
  unfold authorizeRequest
  cases htenant : tenantPath (trimmed request.urlPath) with
  | some group =>
      simp only [bind_eq_ok, present_eq_ok, htenant]
      constructor
      · intro h
        exact {
          tenant := fun group' heq => by cases htenant.symm.trans heq; exact h
          organization := fun _ hnone _ => by cases htenant.symm.trans hnone
          tenants := fun hnone => by cases htenant.symm.trans hnone }
      · intro h
        exact h.tenant group htenant
  | none =>
      cases horg : orgPath (trimmed request.urlPath) with
      | some group =>
          simp only [bind_eq_ok, present_eq_ok, ensure_eq_ok, beq_iff_eq, htenant, horg]
          constructor
          · rintro ⟨id, hid, rfl⟩
            exact {
              tenant := fun _ heq => by cases htenant.symm.trans heq
              organization := fun group' _ heq => by cases horg.symm.trans heq; exact hid
              tenants := fun _ hnone => by cases horg.symm.trans hnone }
          · intro h
            exact ⟨_, h.organization group htenant horg, rfl⟩
      | none =>
          simp only [htenant, horg]
          constructor
          · intro h
            refine {
              tenant := fun _ heq => by cases htenant.symm.trans heq
              organization := fun _ _ heq => by cases horg.symm.trans heq
              tenants := fun _ _ hpath hmethod => ?_ }
            rw [if_pos (by simp only [hpath, beq_self_eq_true, Bool.true_and, List.contains_iff_mem]; exact hmethod)] at h
            exact ensure_eq_ok.mp h
          · intro h
            split
            · rename_i hpath
              rw [Bool.and_eq_true, beq_iff_eq, List.contains_iff_mem] at hpath
              exact ensure_eq_ok.mpr (h.tenants htenant horg hpath.1 hpath.2)
            · rfl

/-! ## Which requests are guarded -/

/-- No exemption of `dispatch` is about a path that begins with `start`. -/
def Guarded (start : Text) : Prop :=
  apiPath <+: start ∧ apiPath ≠ start ∧ (∀ route ∈ publicRoutes, ¬start <+: route.2) ∧
    ∀ p ∈ publicPrefixes ++ docs ++ exemptPrefixes, ¬p <+: start ∧ ¬start <+: p

instance (start : Text) : Decidable (Guarded start) :=
  inferInstanceAs (Decidable (_ ∧ _ ∧ _ ∧ _))

theorem not_isPrefixOf {p start : Text} (h : ¬p <+: start ∧ ¬start <+: p) (rest : Text) :
    p.isPrefixOf (start ++ rest) = false := by
  by_contra hp
  have hprefix : p <+: start ++ rest := List.isPrefixOf_iff_prefix.mp (by simpa using hp)
  rcases List.prefix_or_prefix_of_prefix hprefix (List.prefix_append start rest) with h' | h'
  · exact h.1 h'
  · exact h.2 h'

/-- No request is exempt whose path has a guarded beginning. -/
theorem exempt_of_guarded {start : Text} (hg : Guarded start) {m : AuthenticationMiddleware} {request : Request}
    {rest : Text} (hpath : trimmed request.urlPath = start ++ rest) : m.exempt request = false := by
  obtain ⟨hapi, hne, hroutes, hprefixes⟩ := hg
  have hroute : ∀ method t, (method, start ++ rest ++ t) ∉ publicRoutes := by
    intro method t hmem
    apply hroutes _ hmem
    rw [List.append_assoc]
    exact List.prefix_append start _
  have hpublic : isPublic (upper request.method) (start ++ rest) = false := by
    have h₁ := hroute (upper request.method) []
    rw [List.append_nil] at h₁
    have h₂ := hroute (upper request.method) ['/']
    rw [List.append_assoc] at h₂
    have h₃ : publicPrefixes.any (fun p => p.isPrefixOf (start ++ rest)) = false := by
      rw [List.any_eq_false]
      intro p hp
      rw [not_isPrefixOf (hprefixes p (by simp [hp])) rest]
      exact Bool.false_ne_true
    simp [isPublic, h₁, h₂, h₃]
  have hdocs : start ++ rest ∉ docs := by
    intro hmem
    exact (hprefixes _ (by simp [hmem])).2 (List.prefix_append start rest)
  have hexempt : exemptPrefixes.any (fun p => p.isPrefixOf (start ++ rest)) = false := by
    rw [List.any_eq_false]
    intro p hp
    rw [not_isPrefixOf (hprefixes p (by simp [hp])) rest]
    exact Bool.false_ne_true
  have hlong : start ++ rest ≠ apiPath := by
    intro h
    have hstart : start <+: apiPath := h ▸ List.prefix_append start rest
    exact hne (hapi.eq_of_length (le_antisymm hapi.length_le hstart.length_le))
  have hbegins : apiPath.isPrefixOf (start ++ rest) = true :=
    List.isPrefixOf_iff_prefix.mpr (hapi.trans (List.prefix_append start rest))
  simp [exempt, hpath, hpublic, hdocs, hexempt, hlong, hbegins]

end AuthenticationMiddleware

end Voxera.Iam
