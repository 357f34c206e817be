import Voxera.Iam.Middleware
import Voxera.RateLimit.Counter

/-!
# The scopes of the rate limit

A request is checked against the limiters of its scopes, one after the other, and the first one that refuses it ends the
checks. `RateLimitMiddleware.dispatch` checks the address and the endpoint, `check_authenticated_rate_limits` the
organization, the tenant and the API key; `RateLimitMiddleware._org_limiter`, which nothing calls, is left out. Each
check reads the clock: `clock i` is what the `i`-th check of a request reads.

* `Limiters.checkAll` : the loop over `checks`;
* `SameFuture` : no later call can tell two states of the limiters apart;
* `Spared` : what the checks before the one that refuses have charged no longer counts;
* `rejection_costs_nothing_iff` : a rejected request leaves no trace exactly when it is spared.
-/

namespace Voxera.RateLimit

open SlidingWindow

inductive Scope where
  | ip
  | endpoint
  | organization
  | tenant
  | apiKey
  deriving DecidableEq

def Scope.name : Scope → Text
  | .ip => "ip".toList
  | .endpoint => "endpoint".toList
  | .organization => "organization".toList
  | .tenant => "tenant".toList
  | .apiKey => "api_key".toList

structure RateLimitSettings where
  enabled : Bool
  windowSeconds : ℤ
  perIp : ℤ
  perEndpoint : ℤ
  perOrganization : ℤ

def RateLimitSettings.limit (settings : RateLimitSettings) : Scope → ℤ
  | .ip => settings.perIp
  | .endpoint => settings.perEndpoint
  | .organization | .tenant | .apiKey => settings.perOrganization

/-- `f"{scope}:{key}"` looked up in the limiter of the scope, at a reading of the clock. -/
structure Check where
  scope : Scope
  call : Call
  deriving DecidableEq

/-- The limiter of each scope. -/
abbrev Limiters := Scope → SlidingWindowCounter

namespace Limiters

def init (settings : RateLimitSettings) : Limiters :=
  fun scope => .init (settings.limit scope) settings.windowSeconds

def allow (l : Limiters) (check : Check) : Allowance × Limiters :=
  let (allowance, counter) := (l check.scope).allow check.call
  (allowance, Function.update l check.scope counter)

def answers (l : Limiters) : List Check → List Allowance
  | [] => []
  | check :: checks => (l.allow check).1 :: answers (l.allow check).2 checks

def after (l : Limiters) : List Check → Limiters
  | [] => l
  | check :: checks => after (l.allow check).2 checks

end Limiters

/-- How a loop over `checks` ends. -/
inductive Checked where
  | passed
  | refused (check : Check) (retryAfter : ℤ)
  | indexError
  deriving DecidableEq

namespace Checked

/-- The tuple that `check_authenticated_rate_limits` returns. -/
def toTuple : Checked → Option (Bool × Option ℤ × Option Text)
  | passed => some (true, none, none)
  | refused check retryAfter => some (false, some retryAfter, some check.scope.name)
  | indexError => none

end Checked

/-- `for scope, key, limiter in checks: …` -/
def Limiters.checkAll (l : Limiters) : List Check → Checked × Limiters
  | [] => (.passed, l)
  | check :: checks =>
    match l.allow check with
    | (.allowed, l) => checkAll l checks
    | (.denied retryAfter, l) => (.refused check retryAfter, l)
    | (.indexError, l) => (.indexError, l)

/-- The checks of a list of scopes and keys, on the readings of the clock. -/
def timed (clock : ℕ → ℚ) : List (Scope × Text) → List Check
  | [] => []
  | (scope, key) :: keys => ⟨scope, scope.name ++ ':' :: key, clock 0⟩ :: timed (fun i => clock (i + 1)) keys

/-! ## The two functions -/

/-- `EXEMPT_PREFIXES` -/
def exemptPrefixes : List Text :=
  ["/api/v1/health".toList, "/twilio".toList, "/docs".toList, "/redoc".toList, "/openapi.json".toList]

/-- The response 429. -/
structure TooManyRequests where
  message : Text
  /-- `details["scope"]`, with the key and the time of the check. -/
  check : Check
  /-- `details["retry_after_seconds"]` -/
  retryAfterSeconds : ℤ
  /-- The header `Retry-After`. -/
  retryAfter : ℤ
  deriving DecidableEq

def tooManyRequests (settings : RateLimitSettings) (check : Check) (retryAfter : ℤ) : TooManyRequests where
  message := "Rate limit exceeded (".toList ++ check.scope.name ++ ")".toList
  check := check
  retryAfterSeconds := retryAfter
  retryAfter := if retryAfter = 0 then settings.windowSeconds else retryAfter

inductive Dispatch where
  | callNext
  | tooManyRequests (response : TooManyRequests)
  | indexError
  deriving DecidableEq

/-- The scopes that `dispatch` checks a request against; `clientHost` is `request.client.host`. -/
def middlewareScopes (settings : RateLimitSettings) (clientHost : Option Text) (request : Iam.Request) :
    List (Scope × Text) :=
  if !settings.enabled then []
  else if exemptPrefixes.any (fun p => p.isPrefixOf request.urlPath) then []
  else [(.ip, clientHost.getD "unknown".toList), (.endpoint, request.method ++ ':' :: request.urlPath)]

/-- `RateLimitMiddleware.dispatch` -/
def dispatch (settings : RateLimitSettings) (l : Limiters) (clock : ℕ → ℚ) (clientHost : Option Text)
    (request : Iam.Request) : Dispatch × Limiters :=
  match l.checkAll (timed clock (middlewareScopes settings clientHost request)) with
  | (.passed, l) => (.callNext, l)
  | (.refused check retryAfter, l) => (.tooManyRequests (tooManyRequests settings check retryAfter), l)
  | (.indexError, l) => (.indexError, l)

/-- The scopes of an authenticated request. -/
def authenticatedScopes (settings : RateLimitSettings) (request : Iam.Request) (principal : Iam.AuthenticatedPrincipal) :
    List (Scope × Text) :=
  if !settings.enabled then []
  else
    (.organization, principal.organizationId.str) ::
      (principal.tenantId.toList.map (fun tenantId => (.tenant, tenantId.str)) ++
        if request.apiKey.isEmpty then [] else [(.apiKey, request.apiKey.take 16)])

/-- `check_authenticated_rate_limits` -/
def checkAuthenticatedRateLimits (settings : RateLimitSettings) (l : Limiters) (clock : ℕ → ℚ)
    (request : Iam.Request) (principal : Iam.AuthenticatedPrincipal) : Checked × Limiters :=
  l.checkAll (timed clock (authenticatedScopes settings request principal))

/-- A request on its way through both, with no other one in between. -/
def serve (settings : RateLimitSettings) (l : Limiters) (clock : ℕ → ℚ) (clientHost : Option Text)
    (request : Iam.Request) (principal : Iam.AuthenticatedPrincipal) : Checked × Limiters :=
  match dispatch settings l clock clientHost request with
  | (.callNext, l) =>
    checkAuthenticatedRateLimits settings l
      (fun i => clock (i + (middlewareScopes settings clientHost request).length)) request principal
  | (.tooManyRequests response, l) => (.refused response.check response.retryAfterSeconds, l)
  | (.indexError, l) => (.indexError, l)

/-! ## Counters that agree from a time on -/

namespace SlidingWindowCounter

structure Agree (t : ℚ) (c d : SlidingWindowCounter) : Prop where
  limit : c.limit = d.limit
  windowSeconds : c.windowSeconds = d.windowSeconds
  kept : ∀ key, evict (t - c.windowSeconds) (c.events key) = evict (t - c.windowSeconds) (d.events key)

section Agree
variable {c d : SlidingWindowCounter} {call : Call} {key : Text} {t t' now : ℚ}

theorem agree_refl (t : ℚ) (c : SlidingWindowCounter) : Agree t c c := ⟨rfl, rfl, fun _ => rfl⟩

theorem Agree.mono (h : Agree t c d) (ht : t ≤ t') : Agree t' c d where
  limit := h.limit
  windowSeconds := h.windowSeconds
  kept key := by
    have hcut : t - c.windowSeconds ≤ t' - c.windowSeconds := by linarith
    rw [← evict_evict hcut, h.kept key, evict_evict hcut]

theorem Agree.window (h : Agree call.now c d) : c.window call = d.window call := by
  rw [SlidingWindowCounter.window, h.kept call.key, h.windowSeconds, SlidingWindowCounter.window]

/-- A call answers the same to two counters that agree, and they agree after it. -/
theorem Agree.allow (h : Agree call.now c d) :
    (c.allow call).1 = (d.allow call).1 ∧ Agree call.now (c.allow call).2 (d.allow call).2 := by
  refine ⟨allow_fst_congr h.limit h.windowSeconds h.window, ?_, ?_, fun key => ?_⟩
  · rw [allow_limit, allow_limit, h.limit]
  · rw [allow_windowSeconds, allow_windowSeconds, h.windowSeconds]
  · by_cases hkey : key = call.key
    · rw [hkey, allow_events_congr h.limit h.window]
    · rw [allow_events_of_ne hkey, allow_events_of_ne hkey, allow_windowSeconds, h.kept]

/-- A refused call only evicts. -/
theorem agree_of_exhausted (h : c.Exhausted call) : Agree call.now (c.allow call).2 c where
  limit := allow_limit
  windowSeconds := allow_windowSeconds
  kept key := by
    rw [allow_windowSeconds]
    by_cases hkey : key = call.key
    · rw [hkey, allow_events_of_exhausted h, SlidingWindowCounter.window, evict_evict le_rfl]
    · rw [allow_events_of_ne hkey]

/-- A call that was allowed a whole window ago has left no trace. -/
theorem agree_of_stale (hpast : ∀ x ∈ c.events call.key, x ≤ call.now) (ht : call.now + c.windowSeconds ≤ t) :
    Agree t (c.allow call).2 c where
  limit := allow_limit
  windowSeconds := allow_windowSeconds
  kept key := by
    rw [allow_windowSeconds]
    by_cases hkey : key = call.key
    · have hold : ∀ x ∈ c.events call.key, x ≤ t - c.windowSeconds := fun x hx => (hpast x hx).trans (by linarith)
      rw [hkey, evict_eq_nil hold, evict_eq_nil]
      intro x hx
      by_cases hex : c.Exhausted call
      · rw [allow_events_of_exhausted hex] at hx
        exact hold x (mem_of_mem_evict hx)
      · rw [allow_events_of_room hex] at hx
        rcases List.mem_append.mp hx with hx | hx
        · exact hold x (mem_of_mem_evict hx)
        · rw [List.mem_singleton.mp hx]
          linarith
    · rw [allow_events_of_ne hkey]

/-- A call that was allowed within the last window takes a place in it. -/
theorem window_of_charged (hroom : ¬c.Exhausted call) (ht : t - c.windowSeconds < call.now) (hle : call.now ≤ t) :
    (c.allow call).2.window ⟨call.key, t⟩ = c.window ⟨call.key, t⟩ ++ [call.now] := by
  have hcut : call.now - c.windowSeconds ≤ t - c.windowSeconds := by linarith
  simp only [SlidingWindowCounter.window, allow_windowSeconds, allow_events_of_room hroom]
  rw [evict_concat ht, evict_evict hcut]

theorem not_exhausted_later (hroom : ¬c.Exhausted call) (hle : call.now ≤ t) : ¬c.Exhausted ⟨call.key, t⟩ := by
  have hcut : call.now - c.windowSeconds ≤ t - c.windowSeconds := by linarith
  have := length_evict_anti (w := c.events call.key) hcut
  unfold Exhausted at hroom ⊢
  unfold SlidingWindowCounter.window at hroom ⊢
  dsimp only
  omega

/-- Calls at one time fill the window; the counter that has fewer calls in it fills it later. -/
theorem exists_answers_ne (hw : 0 < c.windowSeconds) (hlimit : c.limit = d.limit)
    (hwindow : c.windowSeconds = d.windowSeconds)
    (hlt : (c.window ⟨key, now⟩).length < (d.window ⟨key, now⟩).length) (hroom : ¬c.Exhausted ⟨key, now⟩) :
    ∃ n, c.answers (List.replicate n ⟨key, now⟩) ≠ d.answers (List.replicate n ⟨key, now⟩) := by
  have hcut : now - c.windowSeconds < now := by
    have : (0 : ℚ) < c.windowSeconds := by exact_mod_cast hw
    linarith
  induction hn : (c.limit - (d.window ⟨key, now⟩).length).toNat generalizing c d with
  | zero =>
      have hfull : d.Exhausted ⟨key, now⟩ := by
        unfold Exhausted
        omega
      refine ⟨1, fun h => ?_⟩
      have hfirst : (c.allow ⟨key, now⟩).1 = (d.allow ⟨key, now⟩).1 := (List.cons.inj h).1
      exact allowed_iff.mp (hfirst.symm.trans (allowed_iff.mpr hroom)) hfull
  | succ k ih =>
      have hdroom : ¬d.Exhausted ⟨key, now⟩ := by
        unfold Exhausted
        omega
      have hc := window_of_charged hroom hcut le_rfl
      have hd := window_of_charged hdroom (by rw [← hwindow]; exact hcut) le_rfl
      dsimp only at hc hd
      obtain ⟨n, hne⟩ := ih (c := (c.allow ⟨key, now⟩).2) (d := (d.allow ⟨key, now⟩).2) (by simpa using hw)
        (by simpa using hlimit) (by simpa using hwindow) (by rw [hc, hd]; simpa using hlt)
        (by
          unfold Exhausted at hdroom ⊢
          rw [hc, allow_limit, List.length_append, List.length_singleton]
          omega)
        (by simpa using hcut)
        (by
          rw [hd, allow_limit, List.length_append, List.length_singleton]
          omega)
      refine ⟨n + 1, fun h => hne ?_⟩
      exact (List.cons.inj h).2

end Agree

end SlidingWindowCounter

/-! ## Limiters -/

open SlidingWindowCounter

/-- The clock does not go back. -/
def OrderedChecks (checks : List Check) : Prop := checks.Pairwise (·.call.now ≤ ·.call.now)

instance (checks : List Check) : Decidable (OrderedChecks checks) := inferInstanceAs (Decidable (List.Pairwise _ _))

/-- No sequence of calls from `t` on is answered differently, whatever the scopes and the keys. -/
def SameFuture (t : ℚ) (l l' : Limiters) : Prop :=
  ∀ checks, OrderedChecks checks → (∀ check ∈ checks, t ≤ check.call.now) → l.answers checks = l'.answers checks

/-- There was no room for the request at the check. -/
def Limiters.Exhausted (l : Limiters) (check : Check) : Prop := (l check.scope).Exhausted check.call

instance (l : Limiters) (check : Check) : Decidable (l.Exhausted check) :=
  inferInstanceAs (Decidable ((l check.scope).Exhausted check.call))

/-- Every check before the first one without room is at least a window older than that one. -/
def Spared (windowSeconds : ℤ) (l : Limiters) (checks : List Check) : Prop :=
  ∀ passed check rest, checks = passed ++ check :: rest → (∀ p ∈ passed, ¬l.Exhausted p) → l.Exhausted check →
    ∀ p ∈ passed, p.call.now + windowSeconds ≤ check.call.now

theorem first_unique {α : Type} {P : α → Prop} {xs ys xs' ys' : List α} {a a' : α}
    (h : xs ++ a :: ys = xs' ++ a' :: ys') (hxs : ∀ x ∈ xs, ¬P x) (ha : P a) (hxs' : ∀ x ∈ xs', ¬P x) (ha' : P a') :
    xs = xs' ∧ a = a' := by
  induction xs generalizing xs' with
  | nil =>
      cases xs' with
      | nil => exact ⟨rfl, (List.cons.inj h).1⟩
      | cons x xs' =>
          have hx : a = x := (List.cons.inj h).1
          exact absurd (hx ▸ ha) (hxs' x (by simp))
  | cons x xs ih =>
      cases xs' with
      | nil =>
          have hx : x = a' := (List.cons.inj h).1
          exact absurd (hx ▸ ha') (hxs x (by simp))
      | cons x' xs' =>
          obtain ⟨rfl, hrest⟩ := List.cons.inj h
          obtain ⟨rfl, heq⟩ := ih hrest (fun y hy => hxs y (by simp [hy])) (fun y hy => hxs' y (by simp [hy]))
          exact ⟨rfl, heq⟩

section Limiters
variable {l l' : Limiters} {t : ℚ} {check : Check} {checks more : List Check} {scope : Scope}

theorem Limiters.allow_self : (l.allow check).2 check.scope = ((l check.scope).allow check.call).2 :=
  Function.update_self ..

theorem Limiters.allow_of_ne (h : scope ≠ check.scope) : (l.allow check).2 scope = l scope :=
  Function.update_of_ne h ..

theorem sameFuture_of_agree (h : ∀ scope, Agree t (l scope) (l' scope)) : SameFuture t l l' := by
  intro checks hc hfrom
  induction checks generalizing l l' t with
  | nil => rfl
  | cons check checks ih =>
      have hc' := List.pairwise_cons.mp hc
      have hnow : ∀ scope, Agree check.call.now (l scope) (l' scope) := fun scope =>
        (h scope).mono (hfrom check (by simp))
      have hfirst : (l.allow check).1 = (l'.allow check).1 := (hnow check.scope).allow.1
      rw [Limiters.answers, Limiters.answers, hfirst]
      congr 1
      refine ih (fun scope => ?_) hc'.2 hc'.1
      by_cases hscope : scope = check.scope
      · subst hscope
        rw [Limiters.allow_self, Limiters.allow_self]
        exact (hnow check.scope).allow.2
      · rw [Limiters.allow_of_ne hscope, Limiters.allow_of_ne hscope]
        exact hnow scope

/-- Calls in one scope concern the limiter of that scope. -/
theorem Limiters.answers_scope (l : Limiters) (scope : Scope) (calls : List Call) :
    l.answers (calls.map (fun call => ⟨scope, call⟩)) = (l scope).answers calls := by
  induction calls generalizing l with
  | nil => rfl
  | cons call calls ih =>
      rw [List.map_cons, Limiters.answers, ih, Limiters.allow_self, SlidingWindowCounter.answers]
      rfl

theorem Limiters.after_windowSeconds (l : Limiters) (checks : List Check) (scope : Scope) :
    (l.after checks scope).windowSeconds = (l scope).windowSeconds := by
  induction checks generalizing l with
  | nil => rfl
  | cons check checks ih =>
      rw [Limiters.after, ih]
      by_cases hscope : scope = check.scope
      · subst hscope
        rw [Limiters.allow_self, allow_windowSeconds]
      · rw [Limiters.allow_of_ne hscope]

/-- The times in the deques are past. -/
theorem Limiters.after_past (h : ∀ scope key, ∀ x ∈ (l scope).events key, x ≤ t)
    (hto : ∀ check ∈ checks, check.call.now ≤ t) : ∀ scope key, ∀ x ∈ (l.after checks scope).events key, x ≤ t := by
  induction checks generalizing l with
  | nil => exact h
  | cons check checks ih =>
      refine ih (fun scope key x hx => ?_) (fun c hc => hto c (by simp [hc]))
      by_cases hscope : scope = check.scope
      · subst hscope
        rw [Limiters.allow_self] at hx
        by_cases hkey : key = check.call.key
        · rw [hkey] at hx
          by_cases hex : (l check.scope).Exhausted check.call
          · rw [allow_events_of_exhausted hex] at hx
            exact h _ _ x (mem_of_mem_evict hx)
          · rw [allow_events_of_room hex] at hx
            rcases List.mem_append.mp hx with hx | hx
            · exact h _ _ x (mem_of_mem_evict hx)
            · rw [List.mem_singleton.mp hx]
              exact hto check (by simp)
        · rw [allow_events_of_ne hkey] at hx
          exact h _ _ x hx
      · rw [Limiters.allow_of_ne hscope] at hx
        exact h _ _ x hx

/-- A loop that is refused: the checks before the refusal are charged, each to the limiter of its own scope. -/
theorem checkAll_refused {r : ℤ} (hscopes : (checks.map (·.scope)).Nodup)
    (h : (l.checkAll checks).1 = .refused check r) :
    ∃ passed rest, checks = passed ++ check :: rest ∧ (∀ p ∈ passed, ¬l.Exhausted p) ∧ l.Exhausted check ∧
      (∀ p ∈ passed ++ [check], (l.checkAll checks).2 p.scope = ((l p.scope).allow p.call).2) ∧
      ∀ scope, (∀ p ∈ passed ++ [check], p.scope ≠ scope) → (l.checkAll checks).2 scope = l scope := by
  induction checks generalizing l with
  | nil => exact absurd h (by simp [Limiters.checkAll])
  | cons first checks ih =>
      rw [List.map_cons, List.nodup_cons] at hscopes
      rcases hallow : l.allow first with ⟨allowance, l₁⟩
      have hl₁ : l₁ = (l.allow first).2 := by rw [hallow]
      cases allowance with
      | allowed =>
          have hstep : l.checkAll (first :: checks) = l₁.checkAll checks := by rw [Limiters.checkAll, hallow]
          rw [hstep] at h ⊢
          obtain ⟨passed, rest, rfl, hroom, hex, hcharged, hothers⟩ := ih hscopes.2 h
          have hne : ∀ p ∈ passed ++ [check], p.scope ≠ first.scope := by
            intro p hp heq
            apply hscopes.1
            rw [← heq]
            refine List.mem_map_of_mem ?_
            rcases List.mem_append.mp hp with hp | hp
            · exact List.mem_append_left _ hp
            · rw [List.mem_singleton.mp hp]
              simp
          have hsame : ∀ p ∈ passed ++ [check], l₁ p.scope = l p.scope := by
            intro p hp
            rw [hl₁, Limiters.allow_of_ne (hne p hp)]
          have hfirst : ¬l.Exhausted first := allowed_iff.mp (congrArg Prod.fst hallow)
          refine ⟨first :: passed, rest, rfl, ?_, ?_, ?_, ?_⟩
          · intro p hp
            rcases List.mem_cons.mp hp with rfl | hp
            · exact hfirst
            · have := hroom p hp
              rwa [Limiters.Exhausted, hsame p (by simp [hp])] at this
          · rwa [Limiters.Exhausted, hsame check (by simp)] at hex
          · intro p hp
            rcases List.mem_cons.mp hp with rfl | hp
            · rw [hothers p.scope hne, hl₁, Limiters.allow_self]
            · rw [hcharged p hp, hsame p hp]
          · intro scope hscope
            have hfs := hscope first (by simp)
            rw [hothers scope (fun p hp => hscope p (by simp only [List.cons_append, List.mem_cons, hp, or_true])), hl₁,
              Limiters.allow_of_ne (fun he => hfs he.symm)]
      | denied retryAfter =>
          have hstep : l.checkAll (first :: checks) = (.refused first retryAfter, l₁) := by
            rw [Limiters.checkAll, hallow]
          rw [hstep] at h ⊢
          obtain ⟨rfl, -⟩ := Checked.refused.inj h
          have hex : l.Exhausted first := exhausted_of_denied (congrArg Prod.fst hallow)
          refine ⟨[], checks, rfl, (fun _ hp => nomatch hp), hex, ?_, ?_⟩
          · intro p hp
            rw [List.nil_append, List.mem_singleton] at hp
            subst hp
            dsimp only
            rw [hl₁, Limiters.allow_self]
          · intro scope hscope
            have hfs := hscope first (by simp)
            dsimp only
            rw [hl₁, Limiters.allow_of_ne (fun he => hfs he.symm)]
      | indexError =>
          rw [Limiters.checkAll, hallow] at h
          exact absurd h (by simp)

/-- A refused loop leaves no trace exactly when what it has charged before the refusal no longer counts. -/
theorem sameFuture_checkAll_iff {windowSeconds : ℤ} {r : ℤ} (hscopes : (checks.map (·.scope)).Nodup)
    (hc : OrderedChecks checks) (hwindow : ∀ scope, (l scope).windowSeconds = windowSeconds)
    (hpast : ∀ check ∈ checks, ∀ scope key, ∀ x ∈ (l scope).events key, x ≤ check.call.now)
    (h : (l.checkAll checks).1 = .refused check r) :
    SameFuture check.call.now (l.checkAll checks).2 l ↔ Spared windowSeconds l checks := by
  obtain ⟨passed, rest, hchecks, hroom, hex, hcharged, hothers⟩ := checkAll_refused hscopes h
  have hbefore : ∀ p ∈ passed, p.call.now ≤ check.call.now := by
    intro p hp
    rw [hchecks] at hc
    exact (List.pairwise_append.mp hc).2.2 p hp check (by simp)
  constructor
  · intro hsame passed' check' rest' heq hroom' hex' p hp
    obtain ⟨rfl, rfl⟩ := first_unique (hchecks.symm.trans heq) hroom hex hroom' hex'
    by_contra hstale
    have hlate : check.call.now - (l p.scope).windowSeconds < p.call.now := by
      rw [hwindow]
      linarith
    have hle := hbefore p hp
    have hpos : 0 < (l p.scope).windowSeconds := by
      have : (0 : ℚ) < (l p.scope).windowSeconds := by linarith
      exact_mod_cast this
    have hmore := window_of_charged (hroom p hp) hlate hle
    -- The charge takes one place more in the window that ends with the refusal.
    have hgrows : ((l p.scope).window ⟨p.call.key, check.call.now⟩).length <
        (((l p.scope).allow p.call).2.window ⟨p.call.key, check.call.now⟩).length := by
      rw [hmore, List.length_append]
      simp
    obtain ⟨n, hne⟩ := exists_answers_ne hpos allow_limit.symm allow_windowSeconds.symm hgrows
      (not_exhausted_later (hroom p hp) hle)
    have hlater := hsame ((List.replicate n ⟨p.call.key, check.call.now⟩).map (fun call => ⟨p.scope, call⟩))
      (by
        rw [List.map_replicate]
        exact List.pairwise_replicate.mpr (Or.inr le_rfl))
      (by
        intro c hc
        rw [List.map_replicate] at hc
        rw [List.eq_of_mem_replicate hc])
    rw [Limiters.answers_scope, Limiters.answers_scope, hcharged p (by simp [hp])] at hlater
    exact hne hlater.symm
  · intro hspared
    refine sameFuture_of_agree (fun scope => ?_)
    by_cases hscope : ∃ p ∈ passed ++ [check], p.scope = scope
    · obtain ⟨p, hp, rfl⟩ := hscope
      rw [hcharged p hp]
      rcases List.mem_append.mp hp with hp | hp
      · refine agree_of_stale (hpast p (by rw [hchecks]; simp [hp]) p.scope p.call.key) ?_
        rw [hwindow]
        exact hspared passed check rest hchecks hroom hex p hp
      · rw [List.mem_singleton.mp hp]
        exact agree_of_exhausted hex
    · rw [hothers scope (fun p hp heq => hscope ⟨p, hp, heq⟩)]
      exact agree_refl _ _

theorem mem_timed {clock : ℕ → ℚ} {keys : List (Scope × Text)} (h : check ∈ timed clock keys) :
    ∃ i, check.call.now = clock i := by
  induction keys generalizing clock with
  | nil => exact nomatch h
  | cons key keys ih =>
      rcases List.mem_cons.mp h with rfl | h
      · exact ⟨0, rfl⟩
      · obtain ⟨i, hi⟩ := ih h
        exact ⟨i + 1, hi⟩

theorem timed_ordered {clock : ℕ → ℚ} (hclock : Monotone clock) (keys : List (Scope × Text)) :
    OrderedChecks (timed clock keys) := by
  induction keys generalizing clock with
  | nil => exact .nil
  | cons key keys ih =>
      refine List.pairwise_cons.mpr ⟨fun c hc => ?_, ih (fun i j hij => hclock (by omega))⟩
      obtain ⟨i, hi⟩ := mem_timed hc
      rw [hi]
      exact hclock (Nat.zero_le _)

theorem timed_scopes (clock : ℕ → ℚ) (keys : List (Scope × Text)) :
    (timed clock keys).map (·.scope) = keys.map Prod.fst := by
  induction keys generalizing clock with
  | nil => rfl
  | cons key keys ih => rw [timed, List.map_cons, ih, List.map_cons]

theorem timed_append (clock : ℕ → ℚ) (keys keys' : List (Scope × Text)) :
    timed clock (keys ++ keys') = timed clock keys ++ timed (fun i => clock (i + keys.length)) keys' := by
  induction keys generalizing clock with
  | nil => rfl
  | cons key keys ih =>
      rw [List.cons_append, timed, timed, ih, List.cons_append, List.length_cons]
      congr 3

theorem checkAll_append : l.checkAll (checks ++ more) =
    match l.checkAll checks with
    | (.passed, l) => l.checkAll more
    | (checked, l) => (checked, l) := by
  induction checks generalizing l with
  | nil => rfl
  | cons check checks ih =>
      rw [List.cons_append, Limiters.checkAll, Limiters.checkAll]
      split <;> simp_all

end Limiters

/-! ## Rejected requests -/

section Rejections
variable {settings : RateLimitSettings} {clientHost : Option Text} {request : Iam.Request}
  {principal : Iam.AuthenticatedPrincipal} {l : Limiters} {clock : ℕ → ℚ}

theorem middlewareScopes_sublist :
    ((middlewareScopes settings clientHost request).map Prod.fst).Sublist [.ip, .endpoint] := by
  unfold middlewareScopes
  split
  · exact List.nil_sublist _
  · split
    · exact List.nil_sublist _
    · exact List.Sublist.refl _

theorem authenticatedScopes_sublist :
    ((authenticatedScopes settings request principal).map Prod.fst).Sublist [.organization, .tenant, .apiKey] := by
  unfold authenticatedScopes
  split
  · exact List.nil_sublist _
  · cases principal.tenantId <;> split <;> simp

variable (settings clientHost request principal) in
/-- No scope is checked twice. -/
theorem servedScopes_nodup :
    ((middlewareScopes settings clientHost request ++ authenticatedScopes settings request principal).map
      Prod.fst).Nodup := by
  have hall : [Scope.ip, .endpoint, .organization, .tenant, .apiKey].Nodup := by decide
  rw [List.map_append]
  exact (middlewareScopes_sublist.append authenticatedScopes_sublist).nodup hall

theorem serve_eq : serve settings l clock clientHost request principal =
    l.checkAll (timed clock (middlewareScopes settings clientHost request ++
      authenticatedScopes settings request principal)) := by
  rw [timed_append, checkAll_append, serve, dispatch]
  rcases l.checkAll (timed clock (middlewareScopes settings clientHost request)) with ⟨checked, l'⟩
  cases checked <;> rfl

theorem dispatch_refused {response : TooManyRequests}
    (h : (dispatch settings l clock clientHost request).1 = .tooManyRequests response) :
    (l.checkAll (timed clock (middlewareScopes settings clientHost request))).1 =
      .refused response.check response.retryAfterSeconds ∧
    (dispatch settings l clock clientHost request).2 =
      (l.checkAll (timed clock (middlewareScopes settings clientHost request))).2 := by
  revert h
  unfold dispatch
  rcases l.checkAll (timed clock (middlewareScopes settings clientHost request)) with ⟨checked, l'⟩
  cases checked with
  | passed =>
      intro h
      exact absurd h (by simp)
  | refused check retryAfter =>
      intro h
      obtain rfl := Dispatch.tooManyRequests.inj h
      exact ⟨rfl, rfl⟩
  | indexError =>
      intro h
      exact absurd h (by simp)

/-- What a request is checked against, in a state that any calls may have led to. -/
theorem sameFuture_timed_iff (history : List Check) (hpast : ∀ check ∈ history, check.call.now ≤ clock 0)
    (hclock : Monotone clock) {keys : List (Scope × Text)} (hkeys : (keys.map Prod.fst).Nodup) {check : Check} {r : ℤ}
    (h : (((Limiters.init settings).after history).checkAll (timed clock keys)).1 = .refused check r) :
    SameFuture check.call.now (((Limiters.init settings).after history).checkAll (timed clock keys)).2
        ((Limiters.init settings).after history) ↔
      Spared settings.windowSeconds ((Limiters.init settings).after history) (timed clock keys) := by
  refine sameFuture_checkAll_iff (by rwa [timed_scopes]) (timed_ordered hclock keys) (fun scope => ?_) ?_ h
  · rw [Limiters.after_windowSeconds]
    rfl
  · intro c hc
    obtain ⟨i, hi⟩ := mem_timed hc
    rw [hi]
    exact Limiters.after_past (fun _ _ _ hx => nomatch hx)
      (fun p hp => (hpast p hp).trans (hclock (Nat.zero_le i)))

end Rejections

/-- A rejected request costs nothing exactly when the checks it passed before the refusal no longer count. -/
theorem rejection_costs_nothing_iff (settings : RateLimitSettings) (history : List Check) (clock : ℕ → ℚ)
    (hpast : ∀ check ∈ history, check.call.now ≤ clock 0) (hclock : Monotone clock) (clientHost : Option Text)
    (request : Iam.Request) (principal : Iam.AuthenticatedPrincipal) :
    let l := (Limiters.init settings).after history
    (∀ response, (dispatch settings l clock clientHost request).1 = .tooManyRequests response →
      (SameFuture response.check.call.now (dispatch settings l clock clientHost request).2 l ↔
        Spared settings.windowSeconds l (timed clock (middlewareScopes settings clientHost request)))) ∧
    (∀ check r, (checkAuthenticatedRateLimits settings l clock request principal).1 = .refused check r →
      (SameFuture check.call.now (checkAuthenticatedRateLimits settings l clock request principal).2 l ↔
        Spared settings.windowSeconds l (timed clock (authenticatedScopes settings request principal)))) ∧
    ∀ check r, (serve settings l clock clientHost request principal).1 = .refused check r →
      (SameFuture check.call.now (serve settings l clock clientHost request principal).2 l ↔
        Spared settings.windowSeconds l (timed clock (middlewareScopes settings clientHost request ++
          authenticatedScopes settings request principal))) := by
  intro l
  have hnodup := servedScopes_nodup settings clientHost request principal
  have hparts := hnodup
  rw [List.map_append] at hparts
  refine ⟨fun response h => ?_, fun check r h => ?_, fun check r h => ?_⟩
  · obtain ⟨hrefused, hafter⟩ := dispatch_refused h
    rw [hafter]
    exact sameFuture_timed_iff history hpast hclock hparts.of_append_left hrefused
  · exact sameFuture_timed_iff history hpast hclock hparts.of_append_right h
  · rw [serve_eq] at h ⊢
    exact sameFuture_timed_iff history hpast hclock hnodup h

/-- Someone from the address `a` uses up an endpoint, where one call a minute is allowed. -/
def endpointUsed : List Check :=
  [⟨.ip, "ip:a".toList, 0⟩, ⟨.endpoint, "endpoint:GET:/x".toList, 0⟩]

def oneEach : RateLimitSettings where
  enabled := true
  windowSeconds := 60
  perIp := 1
  perEndpoint := 1
  perOrganization := 1

def getX : Iam.Request := { method := "GET".toList, path := "/x".toList, urlPath := "/x".toList }

theorem rejection_costs_nothing_iff_getX :
    let l := (Limiters.init oneEach).after endpointUsed
    (∀ response, (dispatch oneEach l (fun i => i + 1) (some "b".toList) getX).1 = .tooManyRequests response →
      (SameFuture response.check.call.now (dispatch oneEach l (fun i => i + 1) (some "b".toList) getX).2 l ↔
        Spared 60 l (timed (fun i => i + 1) (middlewareScopes oneEach (some "b".toList) getX)))) :=
  (rejection_costs_nothing_iff oneEach endpointUsed (fun i => i + 1) (by decide +kernel)
    (fun i j h => by simpa using h) (some "b".toList) getX
    ⟨none, Iam.Uuid.ofInt 1, none, .null, [], .jwt, none, none⟩).1

/-- The endpoint refuses a request from another address, and the next request from there is refused for it, whatever
its endpoint. -/
theorem rejected_request_charged :
    ∃ response, (dispatch oneEach ((Limiters.init oneEach).after endpointUsed) (fun _ => 1) (some "b".toList) getX).1 =
        .tooManyRequests response ∧
      ¬SameFuture response.check.call.now
        (dispatch oneEach ((Limiters.init oneEach).after endpointUsed) (fun _ => 1) (some "b".toList) getX).2
        ((Limiters.init oneEach).after endpointUsed) := by
  refine ⟨tooManyRequests oneEach ⟨.endpoint, "endpoint:GET:/x".toList, 1⟩ 59, by decide +kernel, fun h => ?_⟩
  have hnext := h [⟨.ip, "ip:b".toList, 2⟩] (by decide +kernel) (by decide +kernel)
  exact absurd hnext (by decide +kernel)

end Voxera.RateLimit
