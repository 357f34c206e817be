import Voxera.Iam.Middleware
import Voxera.PathTemplate

/-!
# `org_router`

* `routes` : the routes of the router under its prefix, `route` : the one that takes a request;
* `routed` : the handler with the identifiers of the path, as the framework's `parse` reads them;
* `getCurrentPrincipal` : the dependency that gives every handler its principal;
* `listSessions`, `revokeSession` : the two handlers for sessions, down to the repository.

The routers that come before `org_router` have other literal beginnings and take none of its paths.
-/

namespace Voxera.Iam

open Raising PathTemplate

/-- The handlers of `org_router`. -/
inductive Handler where
  | createOrganization | getOrganization | registerUser | inviteUser | listUsers | listRoles | createRole | createApiKey
  | listApiKeys | revokeApiKey | getSecurityPolicy | updateSecurityPolicy | listIamAuditLogs | getIamMetrics
  | listSessions | revokeSession
  deriving DecidableEq

/-- What the paths of a handler begin with. -/
def Handler.start : Handler → Text
  | .listSessions => "/api/v1/iam/users".toList
  | .revokeSession => "/api/v1/iam/sessions".toList
  | _ => "/api/v1/iam/organizations".toList

/-- The path parameters of the handlers, all of them of the type `UUID`. -/
inductive PathParam where
  | orgId | keyId | userId | sessionId
  deriving DecidableEq

structure Route where
  method : Text
  path : List (Piece PathParam)
  handler : Handler

namespace OrgRouter

def organizationsPath : Text := "/api/v1/iam/organizations/".toList

/-- A route below the organization of the path. -/
def orgRoute (method : Text) (path : List (Piece PathParam)) (handler : Handler) : Route :=
  ⟨method, .lit organizationsPath :: .param .orgId :: path, handler⟩

def routes : List Route :=
  [⟨"POST".toList, [.lit "/api/v1/iam/organizations".toList], .createOrganization⟩,
    orgRoute "GET".toList [] .getOrganization,
    orgRoute "POST".toList [.lit "/users".toList] .registerUser,
    orgRoute "POST".toList [.lit "/users/invite".toList] .inviteUser,
    orgRoute "GET".toList [.lit "/users".toList] .listUsers,
    orgRoute "GET".toList [.lit "/roles".toList] .listRoles,
    orgRoute "POST".toList [.lit "/roles".toList] .createRole,
    orgRoute "POST".toList [.lit "/api-keys".toList] .createApiKey,
    orgRoute "GET".toList [.lit "/api-keys".toList] .listApiKeys,
    orgRoute "DELETE".toList [.lit "/api-keys/".toList, .param .keyId] .revokeApiKey,
    orgRoute "GET".toList [.lit "/security-policy".toList] .getSecurityPolicy,
    orgRoute "PATCH".toList [.lit "/security-policy".toList] .updateSecurityPolicy,
    orgRoute "GET".toList [.lit "/audit-logs".toList] .listIamAuditLogs,
    orgRoute "GET".toList [.lit "/metrics".toList] .getIamMetrics,
    ⟨"GET".toList, [.lit "/api/v1/iam/users/".toList, .param .userId, .lit "/sessions".toList], .listSessions⟩,
    ⟨"DELETE".toList, [.lit "/api/v1/iam/sessions/".toList, .param .sessionId], .revokeSession⟩]

/-- The handler of a request and the texts of its path parameters. -/
def route (request : Request) : Option (Handler × List (PathParam × Text)) :=
  routes.findSome? (fun r =>
    if r.method = request.method then (capture r.path request.path).map (fun params => (r.handler, params)) else none)

/-- The identifiers that `parse` reads from the texts; the handler is called when there is one for every text. -/
def identifiers (parse : Text → Option Uuid) : List (PathParam × Text) → Option (List (PathParam × Uuid))
  | [] => some []
  | (n, t) :: params => do
    let id ← parse t
    let ids ← identifiers parse params
    return (n, id) :: ids

/-- The handler of a request and its path parameters. -/
def routed (parse : Text → Option Uuid) (request : Request) : Option (Handler × List (PathParam × Uuid)) :=
  (route request).bind (fun r => (identifiers parse r.2).map (fun ids => (r.1, ids)))

/-! ## The handlers of sessions -/

/-- `get_current_principal`, with the principal of the request's state; `bearer` is the framework's reading of the header. -/
def getCurrentPrincipal (m : AuthenticationMiddleware) (bearer : Text → Option Text) (request : Request) :
    Option AuthenticatedPrincipal → Except IamError AuthenticatedPrincipal
  | some principal => .ok principal
  | none =>
    match bearer request.authorization with
    | some credentials => m.auth.authenticateBearer m.now credentials
    | none =>
      if !request.apiKey.isEmpty && m.enableApiKeyAuth then m.auth.authenticateApiKey m.now (Text.strip request.apiKey)
      else .error (.httpException 401 "Authentication required".toList)

/-- `get_current_user` -/
def getCurrentUser (principal : AuthenticatedPrincipal) : Except IamError Uuid := do
  ensure (principal.authMethod == .jwt) (.httpException 403 "User session required".toList)
  present principal.userId (.httpException 403 "User session required".toList)

/-- `SqlAlchemySessionRepository.list_for_user` -/
def listForUser (sessions : List SessionRead) (userId : Uuid) : List SessionRead :=
  sessions.filter (fun row => row.userId == userId)

/-- `SqlAlchemySessionRepository.revoke`, as the row that it sets to revoked; `None` has no attribute `status`. -/
def revoke (sessions : List SessionRead) (now : ℤ) (sessionId : Uuid) : Except IamError SessionRead := do
  let row ← present (sessions.find? (fun row => row.id == sessionId)) (.attributeError "status".toList)
  return { row with status := .member .REVOKED, revokedAt := some now }

/-- `list_sessions` -/
def listSessions (sessions : List SessionRead) (principal : AuthenticatedPrincipal) (userId : Uuid) :
    Except IamError (List SessionRead) := do
  let currentUser ← getCurrentUser principal
  ensure (currentUser == userId || principal.hasPermission "manage_users".toList)
    (.insufficientPermissions "Cannot list sessions for another user".toList (some "manage_users".toList))
  return listForUser sessions userId

/-- `revoke_session` -/
def revokeSession (sessions : List SessionRead) (now : ℤ) (principal : AuthenticatedPrincipal) (sessionId : Uuid) :
    Except IamError SessionRead := do
  let _ ← getCurrentUser principal
  revoke sessions now sessionId

/-- The session rows that a handler returns or revokes for a principal. -/
def sessionRows (sessions : List SessionRead) (now : ℤ) (principal : AuthenticatedPrincipal) :
    Handler × List (PathParam × Uuid) → Except IamError (List SessionRead)
  | (.listSessions, [(_, userId)]) => listSessions sessions principal userId
  | (.revokeSession, [(_, sessionId)]) => do
    let row ← revokeSession sessions now principal sessionId
    return [row]
  | _ => .ok []

/-! ## The paths of the router -/

theorem exists_route {request : Request} {h : Handler} {params : List (PathParam × Text)}
    (hr : route request = some (h, params)) :
    ∃ r ∈ routes, r.method = request.method ∧ r.handler = h ∧ capture r.path request.path = some params := by
  obtain ⟨r, hmem, hsome⟩ := List.exists_of_findSome?_eq_some hr
  split_ifs at hsome with hmethod
  obtain ⟨params', hcapture, heq⟩ := Option.map_eq_some_iff.mp hsome
  cases heq
  exact ⟨r, hmem, hmethod, rfl, hcapture⟩

theorem identifiers_lookup {parse : Text → Option Uuid} {params : List (PathParam × Text)}
    {ids : List (PathParam × Uuid)} (h : identifiers parse params = some ids) {n : PathParam} {u : Uuid}
    (hu : ids.lookup n = some u) : ∃ t, params.lookup n = some t ∧ parse t = some u := by
  induction params generalizing ids with
  | nil => cases h; cases hu
  | cons p params ih =>
      simp only [identifiers, bind, pure, Option.bind_eq_some_iff] at h
      obtain ⟨id, hid, ids', hids, heq⟩ := h
      cases heq
      rw [List.lookup_cons] at hu ⊢
      split at hu
      · cases hu
        exact ⟨_, rfl, hid⟩
      · exact ih hids hu

/-- A route with an organization in its path begins with it. -/
theorem org_path_or : routes.all (fun r =>
    decide (r.path.take 2 = [.lit organizationsPath, .param .orgId]) || decide (.orgId ∉ names r.path)) = true := by
  decide +kernel

/-- Every path of a handler begins with its `start`. -/
theorem routes_start : routes.all (fun r =>
    match r.path with
    | .lit u :: _ => r.handler.start.isPrefixOf u
    | _ => false) = true := by
  decide +kernel

theorem mem_map_fst_of_lookup {α : Type*} {params : List (PathParam × α)} {n : PathParam} {a : α}
    (h : params.lookup n = some a) : n ∈ params.map Prod.fst := by
  induction params with
  | nil => cases h
  | cons p params ih =>
      rw [List.lookup_cons] at h
      rw [List.map_cons, List.mem_cons]
      split at h
      · rename_i heq
        exact Or.inl (by simpa using heq)
      · exact Or.inr (ih h)

/-- The text of an organization in a path: it follows the beginning of the organization paths and ends at a slash or
with the path. -/
theorem org_of_route {request : Request} {h : Handler} {params : List (PathParam × Text)}
    (hr : route request = some (h, params)) {id : Text} (hid : params.lookup .orgId = some id) :
    ∃ rest, request.path = organizationsPath ++ (id ++ rest) ∧ IsValue id rest := by
  obtain ⟨r, hmem, -, -, hcapture⟩ := exists_route hr
  have hshape := List.all_eq_true.mp org_path_or r hmem
  rw [Bool.or_eq_true, decide_eq_true_eq, decide_eq_true_eq] at hshape
  rcases hshape with htake | hnone
  · rw [← List.take_append_drop 2 r.path, htake] at hcapture
    obtain ⟨rest, hpath, hcapture⟩ := capture_lit hcapture
    obtain ⟨value, rest', ws, rfl, hvalue, -, rfl⟩ := capture_param hcapture
    rw [List.lookup_cons_self] at hid
    cases hid
    exact ⟨rest', hpath, hvalue⟩
  · have hnames := map_fst_capture hcapture
    exact absurd (hnames ▸ mem_map_fst_of_lookup hid) hnone

theorem start_of_route {request : Request} {h : Handler} {params : List (PathParam × Text)}
    (hr : route request = some (h, params)) : ∃ rest, request.path = h.start ++ rest := by
  obtain ⟨r, hmem, -, rfl, hcapture⟩ := exists_route hr
  have hstart := List.all_eq_true.mp routes_start r hmem
  split at hstart
  · rename_i u ps hpath
    rw [hpath] at hcapture
    obtain ⟨rest, hrest, -⟩ := capture_lit hcapture
    obtain ⟨v, rfl⟩ := List.isPrefixOf_iff_prefix.mp hstart
    exact ⟨v ++ rest, by rw [hrest, List.append_assoc]⟩
  · cases hstart

end OrgRouter

end Voxera.Iam
