import Voxera.Iam.OrgRouter

/-!
# What keeps the organizations apart

* `Isolated` : a request that gets through acts in the organization of its principal only, and on its sessions only;
* `Separated` : what a request must be like for that (`isolated_iff`): the pattern of the middleware knows an
  organization only in lower-case letters with hyphens, and only in the path of the URL; the handlers of sessions do not
  look at organizations.

`parse` is how the framework reads an identifier of a path. Of it the proofs use that it never reads another
identifier from a text than `uuid.UUID` does. `bearer` is how it reads the header with the token.
-/

namespace Voxera.Iam

open Raising PathTemplate OrgRouter

namespace AuthenticationMiddleware

/-- The request has a principal and is within the limits. -/
structure Admitted (m : AuthenticationMiddleware) (request : Request) (principal : AuthenticatedPrincipal) : Prop where
  database : m.databaseEnabled = true
  authenticated : m.authenticateRequest request = .ok principal
  allowed : (m.rateLimits request principal).1 = true

variable {m : AuthenticationMiddleware} {request : Request}

theorem guard_eq_next {p : Option AuthenticatedPrincipal} : m.guard request = .next p ↔
    ∃ principal, m.Admitted request principal ∧ m.authorizeRequest request principal = .ok () ∧ p = some principal := by
  constructor
  · intro h
    unfold guard at h
    split at h
    · cases h
    · rename_i hdatabase
      split at h
      · cases h
      · rename_i principal hauthenticated
        split at h
        · cases h
        · rename_i hallowed
          split at h
          · cases h
          · rename_i hauthorized
            cases h
            exact ⟨principal, ⟨by simpa using hdatabase, hauthenticated, by rw [hallowed]⟩, hauthorized, rfl⟩
  · rintro ⟨principal, hadmitted, hauthorized, rfl⟩
    have hallowed : m.rateLimits request principal = (true, (m.rateLimits request principal).2) :=
      Prod.ext hadmitted.allowed rfl
    unfold guard
    rw [hadmitted.database, hadmitted.authenticated]
    simp only [Bool.not_true, Bool.false_eq_true, if_false]
    rw [hallowed, hauthorized]

theorem trimmed_append {start : Text} (hne : start ≠ []) (hlast : (start.getLast hne == '/') = false) (rest : Text) :
    trimmed (start ++ rest) = start ++ rest.rdropWhile (· == '/') := by
  unfold trimmed
  rw [Text.rdropWhile_append hne hlast]
  simp [hne]

/-- What holds of the three beginnings holds of the paths of every handler. -/
theorem start_induction {C : Text → Prop} (hUsers : C "/api/v1/iam/users".toList)
    (hSessions : C "/api/v1/iam/sessions".toList) (hOrganizations : C "/api/v1/iam/organizations".toList)
    (h : Handler) : C h.start := by
  cases h with
  | listSessions => exact hUsers
  | revokeSession => exact hSessions
  | _ => exact hOrganizations

theorem guarded_start (h : Handler) : Guarded h.start :=
  start_induction (by decide +kernel) (by decide +kernel) (by decide +kernel) h

theorem trimmed_start (h : Handler) (rest : Text) : trimmed (h.start ++ rest) = h.start ++ rest.rdropWhile (· == '/') :=
  start_induction (C := fun start => trimmed (start ++ rest) = start ++ rest.rdropWhile (· == '/'))
    (trimmed_append (by decide +kernel) (by decide +kernel) rest)
    (trimmed_append (by decide +kernel) (by decide +kernel) rest)
    (trimmed_append (by decide +kernel) (by decide +kernel) rest) h

/-- A request that the router takes by the path of its URL is not exempt. -/
theorem exempt_of_route {h : Handler} {params : List (PathParam × Text)} (hr : route request = some (h, params))
    (hurl : request.urlPath = request.path) : m.exempt request = false := by
  obtain ⟨rest, hpath⟩ := start_of_route hr
  apply exempt_of_guarded (guarded_start h)
  rw [hurl, hpath, trimmed_start]

/-! ## The pattern of the organization paths -/

/-- The text begins with 36 characters of `[0-9a-f-]`. -/
structure LowerCaseId (id : Text) : Prop where
  long : 36 ≤ id.length
  all : ∀ c ∈ id.take 36, Text.isIdChar c = true

/-- The pattern looks at nothing behind an identifier. -/
theorem pathId_append (start : Text) {id rest : Text} (hrest : ∀ c, rest.head? = some c → c = '/') :
    (LowerCaseId id → pathId start (start ++ (id ++ rest)) = some (id.take 36)) ∧
      (¬LowerCaseId id → pathId start (start ++ (id ++ rest)) = none) := by
  have hstart : start.isPrefixOf (start ++ (id ++ rest)) = true :=
    List.isPrefixOf_iff_prefix.mpr (List.prefix_append start _)
  constructor
  · intro hid
    have htake : (id ++ rest).take 36 = id.take 36 := List.take_append_of_le_length hid.long
    unfold pathId
    simp only [List.drop_left, htake, hstart]
    rw [if_pos]
    simp [hid.long]
    exact hid.all
  · intro hid
    unfold pathId
    simp only [List.drop_left, hstart]
    rw [if_neg]
    intro h
    simp only [Bool.true_and, Bool.and_eq_true, beq_iff_eq, List.all_eq_true] at h
    obtain ⟨hlen, hall⟩ := h
    apply hid
    have hlong : 36 ≤ id.length := by
      by_contra hshort
      -- the slash behind a short identifier is among the 36 characters
      cases rest with
      | nil =>
          rw [List.append_nil, List.length_take] at hlen
          omega
      | cons c rest =>
          have hc : c ∈ (id ++ c :: rest).take 36 := by
            rw [List.take_append, List.mem_append]
            right
            rw [show 36 - id.length = (35 - id.length) + 1 by omega, List.take_succ_cons]
            exact List.mem_cons_self
          have hslash := hall c hc
          rw [hrest c rfl] at hslash
          exact absurd hslash (by decide)
    rw [List.take_append_of_le_length hlong] at hall
    exact ⟨hlong, hall⟩

theorem pathId_of_not_prefix {p start : Text} (h : ¬p <+: start ∧ ¬start <+: p) (rest : Text) :
    pathId p (start ++ rest) = none := by
  unfold pathId
  rw [not_isPrefixOf h]
  rfl

/-- On the path of an organization in lower-case letters the middleware compares the organizations. -/
theorem authorizeRequest_org {id rest : Text} (hpath : request.urlPath = organizationsPath ++ (id ++ rest))
    (hid : IsValue id rest) {principal : AuthenticatedPrincipal} :
    m.authorizeRequest request principal = .ok () ↔
      (LowerCaseId id → Uuid.ofText (id.take 36) = some principal.organizationId) := by
  have hlast : (id.getLast hid.ne_nil == '/') = false := by
    apply beq_eq_false_iff_ne.mpr
    intro h
    exact hid.noSlash (h ▸ List.getLast_mem hid.ne_nil)
  have htrimmed : trimmed request.urlPath = organizationsPath ++ (id ++ rest.rdropWhile (· == '/')) := by
    have hne : organizationsPath ++ id ≠ [] := List.append_ne_nil_of_right_ne_nil _ hid.ne_nil
    rw [hpath, ← List.append_assoc, ← List.append_assoc]
    apply trimmed_append hne
    rw [List.getLast_append_of_ne_nil _ hid.ne_nil]
    exact hlast
  have hstops : ∀ c, (rest.rdropWhile (· == '/')).head? = some c → c = '/' := by
    intro c hc
    obtain ⟨t, ht⟩ := List.rdropWhile_prefix (· == '/') rest
    apply hid.stops
    rw [← ht, List.head?_append, hc]
    rfl
  have htenant : tenantPath (organizationsPath ++ (id ++ rest.rdropWhile (· == '/'))) = none :=
    pathId_of_not_prefix (by decide +kernel) _
  obtain ⟨hlower, hother⟩ := pathId_append organizationsPath hstops
  have hlong : (organizationsPath ++ (id ++ rest.rdropWhile (· == '/')) == "/api/v1/tenants".toList) = false := by
    apply beq_eq_false_iff_ne.mpr
    intro h
    exact absurd (h ▸ List.prefix_append organizationsPath _) (by decide +kernel)
  unfold authorizeRequest
  simp only [htrimmed, htenant]
  by_cases hcase : LowerCaseId id
  · rw [show orgPath _ = some (id.take 36) from hlower hcase]
    simp only [bind_eq_ok, present_eq_ok, ensure_eq_ok, beq_iff_eq, hcase, forall_const]
    constructor
    · rintro ⟨u, hu, rfl⟩
      exact hu
    · intro hu
      exact ⟨_, hu, rfl⟩
  · rw [show orgPath _ = none from hother hcase]
    simp only [hlong, Bool.false_and, Bool.false_eq_true, if_false, hcase, false_implies]

/-- On a path of sessions the middleware compares nothing. -/
theorem authorizeRequest_sessions {h : Handler} (hh : h = .listSessions ∨ h = .revokeSession)
    {params : List (PathParam × Text)} (hr : route request = some (h, params)) (hurl : request.urlPath = request.path)
    {principal : AuthenticatedPrincipal} : m.authorizeRequest request principal = .ok () := by
  obtain ⟨rest, hpath⟩ := start_of_route hr
  rw [← hurl] at hpath
  have htrimmed : trimmed request.urlPath = h.start ++ rest.rdropWhile (· == '/') := by rw [hpath, trimmed_start]
  have hapart : ∀ p ∈ ["/api/v1/tenants/".toList, organizationsPath, "/api/v1/tenants".toList],
      ¬p <+: h.start ∧ ¬h.start <+: p := by
    rcases hh with rfl | rfl <;> decide +kernel
  have htenant : tenantPath (h.start ++ rest.rdropWhile (· == '/')) = none :=
    pathId_of_not_prefix (hapart _ (by simp)) _
  have horg : orgPath (h.start ++ rest.rdropWhile (· == '/')) = none :=
    pathId_of_not_prefix (hapart organizationsPath (by simp)) _
  have hlong : (h.start ++ rest.rdropWhile (· == '/') == "/api/v1/tenants".toList) = false := by
    apply beq_eq_false_iff_ne.mpr
    intro heq
    exact (hapart "/api/v1/tenants".toList (by simp)).2 (heq ▸ List.prefix_append _ _)
  unfold authorizeRequest
  simp only [htrimmed, htenant, horg, hlong, Bool.false_and, Bool.false_eq_true, if_false]

/-! ## Isolation -/

/-- The text that the path of a request has for the organization. -/
def OrgText (request : Request) (id : Text) : Prop :=
  ∃ h params, route request = some (h, params) ∧ params.lookup .orgId = some id

/-- The request gets through the middleware, and its handler has the principal. -/
def Handled (m : AuthenticationMiddleware) (bearer : Text → Option Text) (request : Request)
    (principal : AuthenticatedPrincipal) : Prop :=
  ∃ p, m.dispatch request = .next p ∧ getCurrentPrincipal m bearer request p = .ok principal

/-- A request that gets through and is routed names the organization of its principal, and the session rows that it
returns or revokes are the principal's own or are of that organization. -/
structure Isolated (m : AuthenticationMiddleware) (parse : Text → Option Uuid) (bearer : Text → Option Text)
    (request : Request) (sessions : List SessionRead) : Prop where
  organization : ∀ principal h ids organizationId, m.Handled bearer request principal →
    routed parse request = some (h, ids) → ids.lookup .orgId = some organizationId →
    organizationId = principal.organizationId
  session : ∀ principal r rows, m.Handled bearer request principal → routed parse request = some r →
    sessionRows sessions m.now principal r = .ok rows → ∀ row ∈ rows,
      principal.userId = some row.userId ∨ row.organizationId = some principal.organizationId

/-- Nothing in the path of the URL keeps the principal off: the path is exempt, or the principal may have what is found
in it. -/
def Passed (m : AuthenticationMiddleware) (bearer : Text → Option Text) (request : Request)
    (principal : AuthenticatedPrincipal) : Prop :=
  m.exempt request = true ∧ getCurrentPrincipal m bearer request none = .ok principal ∨
    m.exempt request = false ∧ m.Admitted request principal ∧ m.PathAllowed request principal

/-- The principals that get to the handlers of sessions: all that are admitted, when the URL has the path that is routed. -/
def Reaches (m : AuthenticationMiddleware) (bearer : Text → Option Text) (request : Request)
    (principal : AuthenticatedPrincipal) : Prop :=
  request.urlPath = request.path ∧ m.Admitted request principal ∨
    request.urlPath ≠ request.path ∧ m.Passed bearer request principal

/-- The request is of a kind for which the checks are enough: an organization is written in 36 lower-case characters
or is the principal's; a listing is of the principal's own sessions, or is refused, or lists sessions of the principal's
organization only; the session to be deleted is the principal's or of the organization, or there is none. Where the URL
has another path than the router reads, the path says nothing, and the organization is the principal's. -/
structure Separated (m : AuthenticationMiddleware) (parse : Text → Option Uuid) (bearer : Text → Option Text)
    (request : Request) (sessions : List SessionRead) : Prop where
  organization : ∀ principal h ids organizationId id, request.urlPath = request.path → m.Admitted request principal →
    routed parse request = some (h, ids) → ids.lookup .orgId = some organizationId → OrgText request id →
    LowerCaseId id ∨ organizationId = principal.organizationId
  otherPath : ∀ principal h ids organizationId, request.urlPath ≠ request.path → m.Passed bearer request principal →
    routed parse request = some (h, ids) → ids.lookup .orgId = some organizationId →
    organizationId = principal.organizationId
  listing : ∀ principal n userId own, m.Reaches bearer request principal →
    routed parse request = some (.listSessions, [(n, userId)]) → principal.authMethod = .jwt →
    principal.userId = some own → own ≠ userId → principal.hasPermission "manage_users".toList = true →
    ∀ row ∈ sessions, row.userId = userId → row.organizationId = some principal.organizationId
  deletion : ∀ principal n sessionId own row, m.Reaches bearer request principal →
    routed parse request = some (.revokeSession, [(n, sessionId)]) → principal.authMethod = .jwt →
    principal.userId = some own → sessions.find? (fun row => row.id == sessionId) = some row →
    row.userId = own ∨ row.organizationId = some principal.organizationId

variable {parse : Text → Option Uuid} {bearer : Text → Option Text} {sessions : List SessionRead}
  {principal : AuthenticatedPrincipal}

theorem getCurrentUser_eq_ok {userId : Uuid} :
    getCurrentUser principal = .ok userId ↔ principal.authMethod = .jwt ∧ principal.userId = some userId := by
  simp [getCurrentUser, bind_eq_ok]

theorem listSessions_eq_ok {userId : Uuid} {rows : List SessionRead} :
    listSessions sessions principal userId = .ok rows ↔ ∃ own, principal.authMethod = .jwt ∧
      principal.userId = some own ∧ (own = userId ∨ principal.hasPermission "manage_users".toList = true) ∧
      rows = listForUser sessions userId := by
  simp only [listSessions, bind_eq_ok, getCurrentUser_eq_ok, ensure_eq_ok, pure_eq_ok, Bool.or_eq_true, beq_iff_eq]
  constructor
  · rintro ⟨own, ⟨hjwt, hown⟩, _, hmay, hrows⟩
    exact ⟨own, hjwt, hown, hmay, hrows.symm⟩
  · rintro ⟨own, hjwt, hown, hmay, hrows⟩
    exact ⟨own, ⟨hjwt, hown⟩, (), hmay, hrows.symm⟩

theorem revokeSession_eq_ok {now : ℤ} {sessionId : Uuid} {revoked : SessionRead} :
    revokeSession sessions now principal sessionId = .ok revoked ↔ ∃ own row, principal.authMethod = .jwt ∧
      principal.userId = some own ∧ sessions.find? (fun row => row.id == sessionId) = some row ∧
      revoked = { row with status := .member .REVOKED, revokedAt := some now } := by
  simp only [revokeSession, revoke, bind_eq_ok, getCurrentUser_eq_ok, present_eq_ok, pure_eq_ok]
  constructor
  · rintro ⟨own, ⟨hjwt, hown⟩, row, hrow, hrevoked⟩
    exact ⟨own, row, hjwt, hown, hrow, hrevoked.symm⟩
  · rintro ⟨own, row, hjwt, hown, hrow, hrevoked⟩
    exact ⟨own, ⟨hjwt, hown⟩, row, hrow, hrevoked.symm⟩

theorem route_of_routed {h : Handler} {ids : List (PathParam × Uuid)} (hr : routed parse request = some (h, ids)) :
    ∃ params, route request = some (h, params) ∧ identifiers parse params = some ids := by
  obtain ⟨⟨h', params⟩, hroute, hids⟩ := Option.bind_eq_some_iff.mp hr
  obtain ⟨ids', hids, heq⟩ := Option.map_eq_some_iff.mp hids
  cases heq
  exact ⟨params, hroute, hids⟩

/-- Who gets to a handler. -/
theorem handled_iff : m.Handled bearer request principal ↔ m.Passed bearer request principal := by
  unfold Handled Passed
  cases hexempt : m.exempt request with
  | true =>
      rw [dispatch_of_exempt hexempt]
      simp
  | false =>
      rw [dispatch_of_not_exempt hexempt]
      simp only [guard_eq_next, authorizeRequest_eq_ok, Bool.false_eq_true, false_and, false_or, true_and]
      constructor
      · rintro ⟨_, ⟨admitted, hadmitted, hallowed, rfl⟩, hprincipal⟩
        cases hprincipal
        exact ⟨hadmitted, hallowed⟩
      · rintro ⟨hadmitted, hallowed⟩
        exact ⟨_, ⟨principal, hadmitted, hallowed, rfl⟩, rfl⟩

/-- By the path of its URL a routed request passes when it is admitted and allowed. -/
theorem passed_of_route {h : Handler} {params : List (PathParam × Text)} (hr : route request = some (h, params))
    (hurl : request.urlPath = request.path) :
    m.Passed bearer request principal ↔ m.Admitted request principal ∧ m.PathAllowed request principal := by
  unfold Passed
  rw [exempt_of_route hr hurl]
  simp

/-- Every principal that is handled reaches. -/
theorem Passed.reaches (hp : m.Passed bearer request principal) {r : Handler × List (PathParam × Uuid)}
    (hr : routed parse request = some r) : m.Reaches bearer request principal := by
  by_cases hurl : request.urlPath = request.path
  · obtain ⟨params, hroute, -⟩ := route_of_routed hr
    exact Or.inl ⟨hurl, ((passed_of_route hroute hurl).mp hp).1⟩
  · exact Or.inr ⟨hurl, hp⟩

/-- Who reaches a handler of sessions passes. -/
theorem Reaches.passed (hp : m.Reaches bearer request principal) {h : Handler}
    (hh : h = .listSessions ∨ h = .revokeSession) {ids : List (PathParam × Uuid)}
    (hr : routed parse request = some (h, ids)) : m.Passed bearer request principal := by
  rcases hp with ⟨hurl, hadmitted⟩ | ⟨-, hpassed⟩
  · obtain ⟨params, hroute, -⟩ := route_of_routed hr
    have hallowed : m.PathAllowed request principal :=
      authorizeRequest_eq_ok.mp (authorizeRequest_sessions hh hroute hurl)
    exact (passed_of_route hroute hurl).mpr ⟨hadmitted, hallowed⟩
  · exact hpassed

/-- A lower-case identifier is the same one for the middleware and for the framework. -/
theorem organizationId_eq (hparse : ∀ t u, parse t = some u → Uuid.ofText t = some u) {id : Text}
    (hid : LowerCaseId id) {u v : Uuid} (hu : Uuid.ofText (id.take 36) = some u) (hv : parse id = some v) : v = u := by
  have hne : id.take 36 ≠ [] := by
    intro h
    have hlen := congrArg List.length h
    rw [List.length_take, List.length_nil] at hlen
    have hlong := hid.long
    omega
  refine Uuid.ofText_append (y := id.drop 36) hne hid.all hu ?_
  rw [List.take_append_drop]
  exact hparse id v hv

theorem Separated.organization_eq (hparse : ∀ t u, parse t = some u → Uuid.ofText t = some u)
    (hs : Separated m parse bearer request sessions) {h : Handler} {ids : List (PathParam × Uuid)} {organizationId : Uuid}
    (hd : m.Handled bearer request principal) (hr : routed parse request = some (h, ids))
    (hid : ids.lookup .orgId = some organizationId) : organizationId = principal.organizationId := by
  have hpassed := handled_iff.mp hd
  by_cases hurl : request.urlPath = request.path
  · obtain ⟨params, hroute, hids⟩ := route_of_routed hr
    obtain ⟨hadmitted, hallowed⟩ := (passed_of_route hroute hurl).mp hpassed
    obtain ⟨id, htext, hv⟩ := identifiers_lookup hids hid
    rcases hs.organization principal h ids organizationId id hurl hadmitted hr hid ⟨h, params, hroute, htext⟩ with
      hlower | hown
    · obtain ⟨rest, hpath, hvalue⟩ := org_of_route hroute htext
      rw [← hurl] at hpath
      have hcompared := (authorizeRequest_org hpath hvalue).mp (authorizeRequest_eq_ok.mpr hallowed)
      exact organizationId_eq hparse hlower (hcompared hlower) hv
    · exact hown
  · exact hs.otherPath principal h ids organizationId hurl hpassed hr hid

theorem Separated.session_own (hs : Separated m parse bearer request sessions) {r : Handler × List (PathParam × Uuid)}
    {rows : List SessionRead} (hd : m.Handled bearer request principal) (hr : routed parse request = some r)
    (hrows : sessionRows sessions m.now principal r = .ok rows) {row : SessionRead} (hrow : row ∈ rows) :
    principal.userId = some row.userId ∨ row.organizationId = some principal.organizationId := by
  have hreaches := (handled_iff.mp hd).reaches hr
  unfold sessionRows at hrows
  split at hrows
  · rename_i n userId
    obtain ⟨own, hjwt, hown, hmay, rfl⟩ := listSessions_eq_ok.mp hrows
    obtain ⟨hmem, huser⟩ := List.mem_filter.mp hrow
    have huser : row.userId = userId := by simpa using huser
    by_cases hself : own = userId
    · exact Or.inl (by rw [hown, hself, huser])
    · have hperm := hmay.resolve_left hself
      exact Or.inr (hs.listing principal n userId own hreaches hr hjwt hown hself hperm row hmem huser)
  · rename_i n sessionId
    obtain ⟨revoked, hrevoked, heq⟩ := bind_eq_ok.mp hrows
    obtain ⟨own, found, hjwt, hown, hfound, rfl⟩ := revokeSession_eq_ok.mp hrevoked
    cases heq
    obtain rfl := List.mem_singleton.mp hrow
    rcases hs.deletion principal n sessionId own found hreaches hr hjwt hown hfound with huser | horg
    · exact Or.inl (by rw [hown, ← huser])
    · exact Or.inr horg
  · cases hrows
    cases hrow

/-- A request with another organization in other letters gets through. -/
theorem Isolated.organization_or (hi : Isolated m parse bearer request sessions) {h : Handler}
    {ids : List (PathParam × Uuid)} {organizationId : Uuid} {id : Text} (hurl : request.urlPath = request.path)
    (hadmitted : m.Admitted request principal) (hr : routed parse request = some (h, ids))
    (hid : ids.lookup .orgId = some organizationId) (htext : OrgText request id) :
    LowerCaseId id ∨ organizationId = principal.organizationId := by
  by_cases hlower : LowerCaseId id
  · exact Or.inl hlower
  · right
    obtain ⟨h', params, hroute, hlookup⟩ := htext
    obtain ⟨rest, hpath, hvalue⟩ := org_of_route hroute hlookup
    rw [← hurl] at hpath
    have hallowed : m.PathAllowed request principal :=
      authorizeRequest_eq_ok.mp ((authorizeRequest_org hpath hvalue).mpr (fun h => absurd h hlower))
    have hhandled : m.Handled bearer request principal :=
      handled_iff.mpr ((passed_of_route hroute hurl).mpr ⟨hadmitted, hallowed⟩)
    exact hi.organization principal h ids organizationId hhandled hr hid

theorem Isolated.separated (hi : Isolated m parse bearer request sessions) : Separated m parse bearer request sessions where
  organization principal h ids organizationId id hurl hadmitted hr hid htext :=
    hi.organization_or hurl hadmitted hr hid htext
  otherPath principal h ids organizationId _ hpassed hr hid :=
    hi.organization principal h ids organizationId (handled_iff.mpr hpassed) hr hid
  listing principal n userId own hreaches hr hjwt hown hne hperm row hmem huser := by
    have hhandled := handled_iff.mpr (hreaches.passed (Or.inl rfl) hr)
    have hrows : sessionRows sessions m.now principal (.listSessions, [(n, userId)]) =
        .ok (listForUser sessions userId) :=
      listSessions_eq_ok.mpr ⟨own, hjwt, hown, Or.inr hperm, rfl⟩
    have hrow : row ∈ listForUser sessions userId := List.mem_filter.mpr ⟨hmem, by simp [huser]⟩
    rcases hi.session principal _ _ hhandled hr hrows row hrow with hself | horg
    · rw [hown, huser] at hself
      exact absurd (Option.some.inj hself) hne
    · exact horg
  deletion principal n sessionId own row hreaches hr hjwt hown hfound := by
    have hhandled := handled_iff.mpr (hreaches.passed (Or.inr rfl) hr)
    have hrevoked : revokeSession sessions m.now principal sessionId =
        .ok { row with status := .member .REVOKED, revokedAt := some m.now } :=
      revokeSession_eq_ok.mpr ⟨own, row, hjwt, hown, hfound, rfl⟩
    have hrows : sessionRows sessions m.now principal (.revokeSession, [(n, sessionId)]) =
        .ok [{ row with status := .member .REVOKED, revokedAt := some m.now }] :=
      bind_eq_ok.mpr ⟨_, hrevoked, rfl⟩
    rcases hi.session principal _ _ hhandled hr hrows _ List.mem_cons_self with hself | horg
    · rw [hown] at hself
      exact Or.inl (Option.some.inj hself).symm
    · exact Or.inr horg

/-- **Tenant isolation**: a request acts in the organization of its principal exactly when it is of a kind for which
the checks are enough. -/
theorem isolated_iff (m : AuthenticationMiddleware) (parse : Text → Option Uuid) (bearer : Text → Option Text)
    (hparse : ∀ t u, parse t = some u → Uuid.ofText t = some u) (request : Request) (sessions : List SessionRead) :
    Isolated m parse bearer request sessions ↔ Separated m parse bearer request sessions := by
  constructor
  · exact Isolated.separated
  · intro hs
    exact {
      organization := fun principal h ids organizationId hd hr hid => hs.organization_eq hparse hd hr hid
      session := fun principal r rows hd hr hrows row hrow => hs.session_own hd hr hrows hrow }

/-- The middleware in front of one active user, with nothing that holds a request up. -/
def oneUser : AuthenticationMiddleware where
  auth := AuthenticationService.oneUser (.member .ACTIVE)
  debug := false
  databaseEnabled := true
  enableApiKeyAuth := true
  now := 0
  rateLimits _ _ := (true, none, none)

/-- A user of another organization is registered; its identifier is in capital letters. -/
def capitalRequest : Request where
  method := "POST".toList
  path := "/api/v1/iam/organizations/AAAAAAAA-AAAA-AAAA-AAAA-AAAAAAAAAAAA/users".toList
  urlPath := "/api/v1/iam/organizations/AAAAAAAA-AAAA-AAAA-AAAA-AAAAAAAAAAAA/users".toList
  authorization := "Bearer token".toList

/-- The text behind the first blank, if the one before it is the word `bearer`. -/
def bearerOf (authorization : Text) : Option Text :=
  if Text.lower (authorization.takeWhile (· != ' ')) = "bearer".toList then some (authorization.dropWhile (· != ' ')).tail else none

theorem isolated_iff_capital : Isolated oneUser Uuid.ofText bearerOf capitalRequest [] ↔
    Separated oneUser Uuid.ofText bearerOf capitalRequest [] :=
  isolated_iff oneUser Uuid.ofText bearerOf (fun _ _ h => h) capitalRequest []

theorem not_isolated_capital : ¬Isolated oneUser Uuid.ofText bearerOf capitalRequest [] := by
  intro hi
  have hprincipal : (oneUser.authenticateRequest capitalRequest).toOption.map (·.organizationId) =
      some (Uuid.ofInt 2) := by
    decide +kernel
  obtain ⟨principal, hsome, horg⟩ := Option.map_eq_some_iff.mp hprincipal
  have hadmitted : oneUser.Admitted capitalRequest principal := by
    refine ⟨rfl, ?_, rfl⟩
    revert hsome
    cases oneUser.authenticateRequest capitalRequest with
    | error e => intro h; cases h
    | ok p => intro h; cases h; rfl
  have hrouted : routed Uuid.ofText capitalRequest =
      some (.registerUser, [(.orgId, Uuid.ofInt 0xAAAAAAAAAAAAAAAAAAAAAAAAAAAAAAAA)]) := by
    decide +kernel
  have htext : OrgText capitalRequest "AAAAAAAA-AAAA-AAAA-AAAA-AAAAAAAAAAAA".toList :=
    ⟨.registerUser, [(.orgId, "AAAAAAAA-AAAA-AAAA-AAAA-AAAAAAAAAAAA".toList)], by decide +kernel, rfl⟩
  rcases hi.organization_or rfl hadmitted hrouted rfl htext with hlower | hown
  · exact absurd (hlower.all 'A' (by decide +kernel)) (by decide)
  · rw [horg] at hown
    exact absurd hown (by decide +kernel)

end AuthenticationMiddleware

end Voxera.Iam
