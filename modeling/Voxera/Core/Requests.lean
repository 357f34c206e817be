import Voxera.EventLoop.Run
import Voxera.Text
import Mathlib.Tactic.Common

/-!
# Requests and the shutdown of the server

The requests behind `RateLimitMiddleware`: `RequestTimeoutMiddleware` passes one on to `RequestContextMiddleware`, which counts it
with `ShutdownManager`, and that to the handlers; the shutdown of the server runs beside them. A handler may answer, raise or be
cancelled at any time. What is behind a middleware runs in a task of its own: when the time of a request is over, only the wait for
it is cancelled. The lock of `ShutdownManager` is held over no `await`, so its methods are one step each.

* `ShutdownManager`, `PlatformMetrics` : the counters; `Request` : where a request is;
* `Server.step` : the server from one event to the next; `Change`, `Moved` : what a step does, from which the invariants are proved;
* `counted_of_run` : what the counters say; `refused_of_run`, `drained_of_run` : who is let in once the shutdown has begun, and
  what is left when it is over.
-/

namespace Voxera.Core

open EventLoop

structure ShutdownManager where
  shuttingDown : Bool := false
  activeRequests : ℕ := 0
  drainEvent : Bool := true
  deriving DecidableEq

namespace ShutdownManager

/-- `begin_request`; `none` is the `RuntimeError`. -/
def beginRequest (m : ShutdownManager) : Option ShutdownManager :=
  if m.shuttingDown then none else some { m with activeRequests := m.activeRequests + 1, drainEvent := false }

/-- `end_request` -/
def endRequest (m : ShutdownManager) : ShutdownManager :=
  { m with activeRequests := m.activeRequests - 1, drainEvent := m.drainEvent || m.activeRequests - 1 == 0 }

end ShutdownManager

/-- The counters of `PlatformMetrics`. -/
structure PlatformMetrics where
  requestCount : ℕ := 0
  errorCount : ℕ := 0
  timeoutCount : ℕ := 0
  rateLimitCount : ℕ := 0
  deriving DecidableEq

namespace PlatformMetrics

/-- `record_request` -/
def recordRequest (m : PlatformMetrics) (statusCode : ℕ) : PlatformMetrics :=
  { m with requestCount := m.requestCount + 1, errorCount := m.errorCount + (if 400 ≤ statusCode then 1 else 0) }

/-- `record_timeout` -/
def recordTimeout (m : PlatformMetrics) : PlatformMetrics :=
  { m with timeoutCount := m.timeoutCount + 1, errorCount := m.errorCount + 1 }

/-- `record_rate_limit` -/
def recordRateLimit (m : PlatformMetrics) : PlatformMetrics :=
  { m with rateLimitCount := m.rateLimitCount + 1, errorCount := m.errorCount + 1 }

end PlatformMetrics

/-- How `RequestContextMiddleware.dispatch`, or its `await call_next`, ends. -/
inductive Outcome where
  | response (status : ℕ)
  | raised
  | cancelled
  deriving DecidableEq

/-- `status_code` in the `finally` of `dispatch` -/
def Outcome.statusCode : Outcome → ℕ
  | .response status => status
  | .raised | .cancelled => 500

/-- A request: not yet at `RequestContextMiddleware`, in its `await call_next`, or past it; `admitted` if `begin_request` has let
it in. -/
inductive Request.Pc where
  | queued
  | handling
  | gone (admitted : Bool) (outcome : Outcome)
  deriving DecidableEq

/-- The `await` of `RequestTimeoutMiddleware` for the middlewares behind it. -/
inductive Request.Wait where
  | waiting
  /-- Their answer, or their exception, is passed on. -/
  | over
  /-- The answer is that the time is over. -/
  | timedOut
  deriving DecidableEq

structure Request where
  path : Text
  /-- `asyncio.wait_for` is used. -/
  timed : Bool
  pc : Request.Pc := .queued
  wait : Request.Wait := .waiting
  /-- The status that `http_exception_handler` or `validation_exception_handler` has recorded. -/
  handled : Option ℕ := none
  /-- The status that `unhandled_exception_handler` has recorded. -/
  unhandled : Option ℕ := none
  deriving DecidableEq

namespace Request

def inFlight (r : Request) : Bool := r.pc = .handling

/-- `begin_request` has let the request in. -/
def admitted (r : Request) : Bool :=
  match r.pc with
  | .queued => false
  | .handling => true
  | .gone admitted _ => admitted

def timedOut (r : Request) : Bool := r.wait = .timedOut

/-- The request is past `RequestContextMiddleware`. -/
def isGone (r : Request) : Bool :=
  match r.pc with
  | .gone _ _ => true
  | _ => false

/-- The statuses that `record_request` is called with for the request: by the `finally` of `RequestContextMiddleware` when a request
that was let in ends, and by the exception handlers. -/
def recorded (r : Request) : List ℕ :=
  (match r.pc with
    | .gone true outcome => [outcome.statusCode]
    | _ => []) ++ r.handled.toList ++ r.unhandled.toList

end Request

/-- The `lifespan` of the application; `forced` if the requests have not ended in time. -/
inductive Lifespan where
  | serving
  | draining
  | drained (forced : Bool)
  /-- The WebSockets, the HTTP client and the database are closed. -/
  | closed (forced : Bool)
  deriving DecidableEq

structure Server where
  /-- `settings.REQUEST_TIMEOUT_ENABLED` -/
  timeoutEnabled : Bool
  manager : ShutdownManager := {}
  metrics : PlatformMetrics := {}
  requests : List Request := []
  /-- The statuses that the exception handlers record for anything else: an exception in a middleware before these, or one of a
  WebSocket. -/
  outside : List ℕ := []
  lifespan : Lifespan := .serving
  deriving DecidableEq

inductive ServerLabel where
  /-- `RateLimitMiddleware` lets a request pass. -/
  | arrived (path : Text)
  /-- A limit refuses a request. -/
  | limited
  /-- `RequestContextMiddleware.dispatch` begins. -/
  | dispatched (request : ℕ)
  /-- `await call_next` ends, and with it `dispatch`. -/
  | left (request : ℕ) (outcome : Outcome)
  /-- The request is cancelled before `dispatch` begins. -/
  | dropped (request : ℕ)
  /-- `RequestTimeoutMiddleware` gets the answer or the exception from behind it. -/
  | passed (request : ℕ)
  /-- `RequestTimeoutMiddleware` gets the `TimeoutError`. -/
  | timedOut (request : ℕ)
  /-- A route raises an `HTTPException` or a `RequestValidationError`. -/
  | handled (request : ℕ) (status : ℕ)
  /-- An exception has come through all the middlewares. -/
  | unhandled (request : ℕ) (status : ℕ)
  /-- An exception handler is called for anything else. -/
  | raised (status : ℕ)
  | shutdown
  | drained
  | drainTimeout
  | closed
  deriving DecidableEq

namespace Server

/-- `RequestTimeoutMiddleware.EXEMPT_PREFIXES` -/
def exemptPrefixes : List Text := ["/api/v1/health".toList, "/twilio".toList]

/-- `request.url.path.startswith("/api/v1")` -/
def isApi (path : Text) : Bool := "/api/v1".toList.isPrefixOf path

def setRequest (s : Server) (k : ℕ) (r : Request) : Server := { s with requests := s.requests.set k r }

/-- `record_request` for the request. -/
def record (s : Server) (k : ℕ) (r : Request) (status : ℕ) : Server :=
  { s.setRequest k r with metrics := s.metrics.recordRequest status }

/-- `RequestContextMiddleware.dispatch` up to its `await` -/
def dispatch (s : Server) (k : ℕ) (r : Request) : Server :=
  if s.manager.shuttingDown && isApi r.path then s.setRequest k { r with pc := .gone false (.response 503) }
  else
    match s.manager.beginRequest with
    | none => s.setRequest k { r with pc := .gone false .raised }
    | some manager => { s.setRequest k { r with pc := .handling } with manager }

/-- The `finally` of `dispatch` -/
def left (s : Server) (k : ℕ) (r : Request) (outcome : Outcome) : Server :=
  { s.setRequest k { r with pc := .gone true outcome } with
    metrics := s.metrics.recordRequest outcome.statusCode
    manager := s.manager.endRequest }

def step (s : Server) : ServerLabel → Option Server
  | .arrived path =>
    some { s with requests := s.requests ++
      [{ path, timed := s.timeoutEnabled && !exemptPrefixes.any (fun p => p.isPrefixOf path) }] }
  | .limited => some { s with metrics := s.metrics.recordRateLimit }
  | .dispatched k => s.requests[k]?.bind (fun r => if r.pc = .queued then some (s.dispatch k r) else none)
  | .left k outcome => s.requests[k]?.bind (fun r => if r.pc = .handling then some (s.left k r outcome) else none)
  | .dropped k =>
    s.requests[k]?.bind (fun r => if r.pc = .queued then some (s.setRequest k { r with pc := .gone false .cancelled }) else none)
  | .passed k =>
    s.requests[k]?.bind (fun r =>
      if r.isGone && r.wait = .waiting then some (s.setRequest k { r with wait := .over }) else none)
  | .timedOut k =>
    s.requests[k]?.bind (fun r =>
      if r.timed && r.wait = .waiting then
        some { s.setRequest k { r with wait := .timedOut } with metrics := s.metrics.recordTimeout }
      else none)
  | .handled k status =>
    -- a handler that runs in a thread is waited for, also when its request has been cancelled
    s.requests[k]?.bind (fun r =>
      if (r.pc = .handling ∨ r.pc = .gone true .cancelled) ∧ r.handled = none then
        some (s.record k { r with handled := some status } status)
      else none)
  | .unhandled k status =>
    s.requests[k]?.bind (fun r =>
      if r.isGone ∧ r.wait ≠ .waiting ∧ r.unhandled = none then some (s.record k { r with unhandled := some status } status)
      else none)
  | .raised status => some { s with metrics := s.metrics.recordRequest status, outside := s.outside ++ [status] }
  | .shutdown =>
    if s.lifespan = .serving then some { s with manager := { s.manager with shuttingDown := true }, lifespan := .draining } else none
  | .drained => if s.lifespan = .draining ∧ s.manager.drainEvent = true then some { s with lifespan := .drained false } else none
  | .drainTimeout => if s.lifespan = .draining then some { s with lifespan := .drained true } else none
  | .closed =>
    match s.lifespan with
    | .drained forced => some { s with lifespan := .closed forced }
    | _ => none

variable {s t : Server} {r r' : Request} {k : ℕ}

/-! ## What a step does -/

/-- What a step does to a request, with the manager and the metrics before it and after it. -/
inductive Moved (m : ShutdownManager) (c : PlatformMetrics) (r : Request) : Request → ShutdownManager → PlatformMetrics → Prop
  | refused (hpc : r.pc = .queued) (outcome : Outcome)
      (hwhy : outcome = .cancelled ∨ m.shuttingDown = true ∧ outcome = if isApi r.path then .response 503 else .raised) :
      Moved m c r { r with pc := .gone false outcome } m c
  | admitted (hpc : r.pc = .queued) (hopen : m.shuttingDown = false) :
      Moved m c r { r with pc := .handling } { m with activeRequests := m.activeRequests + 1, drainEvent := false } c
  | left (hpc : r.pc = .handling) (outcome : Outcome) :
      Moved m c r { r with pc := .gone true outcome } m.endRequest (c.recordRequest outcome.statusCode)
  | passed (hgone : r.isGone = true) (hwait : r.wait = .waiting) : Moved m c r { r with wait := .over } m c
  | timedOut (hwait : r.wait = .waiting) : Moved m c r { r with wait := .timedOut } m c.recordTimeout
  | handled (hnone : r.handled = none) (status : ℕ) :
      Moved m c r { r with handled := some status } m (c.recordRequest status)
  | unhandled (hnone : r.unhandled = none) (status : ℕ) :
      Moved m c r { r with unhandled := some status } m (c.recordRequest status)

/-- What a step does to the server. -/
inductive Change (s : Server) : Server → Prop
  | arrived (path : Text) (timed : Bool) : Change s { s with requests := s.requests ++ [{ path, timed }] }
  | moved {k : ℕ} {r r' : Request} {manager : ShutdownManager} {metrics : PlatformMetrics} (hk : s.requests[k]? = some r)
      (hmoved : Moved s.manager s.metrics r r' manager metrics) : Change s { s.setRequest k r' with manager, metrics }
  | limited : Change s { s with metrics := s.metrics.recordRateLimit }
  | raised (status : ℕ) : Change s { s with metrics := s.metrics.recordRequest status, outside := s.outside ++ [status] }
  | shutdown (hserving : s.lifespan = .serving) :
      Change s { s with manager := { s.manager with shuttingDown := true }, lifespan := .draining }
  | drained (hdraining : s.lifespan = .draining) (forced : Bool) (hdrain : forced = true ∨ s.manager.drainEvent = true) :
      Change s { s with lifespan := .drained forced }
  | closed {forced : Bool} (hdrained : s.lifespan = .drained forced) : Change s { s with lifespan := .closed forced }

theorem change_of_dispatch (hk : s.requests[k]? = some r) (hpc : r.pc = .queued) : Change s (s.dispatch k r) := by
  unfold dispatch
  by_cases hdown : s.manager.shuttingDown = true
  · have hbegin : s.manager.beginRequest = none := if_pos hdown
    have hmoved := Change.moved hk (.refused hpc _ (Or.inr ⟨hdown, rfl⟩))
    by_cases hapi : isApi r.path = true
    · rw [if_pos (by rw [hdown, hapi]; rfl)]
      rw [if_pos hapi] at hmoved
      exact hmoved
    · rw [if_neg (by rw [hdown, Bool.true_and]; exact hapi), hbegin]
      rw [if_neg hapi] at hmoved
      exact hmoved
  · have hopen := Bool.not_eq_true _ ▸ hdown
    have hbegin : s.manager.beginRequest =
        some { s.manager with activeRequests := s.manager.activeRequests + 1, drainEvent := false } := if_neg hdown
    rw [hopen, Bool.false_and, if_neg Bool.false_ne_true, hbegin]
    exact .moved hk (.admitted hpc hopen)

theorem change_of_step {l : ServerLabel} (h : s.step l = some t) : Change s t := by
  cases l with
  | arrived path =>
      cases h
      exact .arrived path _
  | limited =>
      cases h
      exact .limited
  | raised status =>
      cases h
      exact .raised status
  | dispatched k =>
      obtain ⟨r, hk, h⟩ := Option.bind_eq_some_iff.mp h
      split_ifs at h with hpc
      cases h
      exact change_of_dispatch hk hpc
  | left k outcome =>
      obtain ⟨r, hk, h⟩ := Option.bind_eq_some_iff.mp h
      split_ifs at h with hpc
      cases h
      exact .moved hk (.left hpc outcome)
  | dropped k =>
      obtain ⟨r, hk, h⟩ := Option.bind_eq_some_iff.mp h
      split_ifs at h with hpc
      cases h
      exact .moved hk (.refused hpc _ (Or.inl rfl))
  | passed k =>
      obtain ⟨r, hk, h⟩ := Option.bind_eq_some_iff.mp h
      split_ifs at h with hgone
      cases h
      rw [Bool.and_eq_true, decide_eq_true_eq] at hgone
      exact .moved hk (.passed hgone.1 hgone.2)
  | timedOut k =>
      obtain ⟨r, hk, h⟩ := Option.bind_eq_some_iff.mp h
      split_ifs at h with htimed
      cases h
      rw [Bool.and_eq_true, decide_eq_true_eq] at htimed
      exact .moved hk (.timedOut htimed.2)
  | handled k status =>
      obtain ⟨r, hk, h⟩ := Option.bind_eq_some_iff.mp h
      split_ifs at h with hnone
      cases h
      exact .moved hk (.handled hnone.2 status)
  | unhandled k status =>
      obtain ⟨r, hk, h⟩ := Option.bind_eq_some_iff.mp h
      split_ifs at h with hnone
      cases h
      exact .moved hk (.unhandled hnone.2.2 status)
  | shutdown =>
      simp only [step] at h
      split_ifs at h with hserving
      cases h
      exact .shutdown hserving
  | drained =>
      simp only [step] at h
      split_ifs at h with hdrain
      cases h
      exact .drained hdrain.1 false (Or.inr hdrain.2)
  | drainTimeout =>
      simp only [step] at h
      split_ifs at h with hdraining
      cases h
      exact .drained hdraining true (Or.inl rfl)
  | closed =>
      simp only [step] at h
      split at h
      · rename_i forced hlifespan
        cases h
        exact .closed hlifespan
      · cases h

/-! ## The counters -/

/-- The statuses that `record_request` has been called with, by request. -/
def recorded (s : Server) : List ℕ := s.requests.flatMap Request.recorded ++ s.outside

structure Counted (s : Server) : Prop where
  active : s.manager.activeRequests = s.requests.countP Request.inFlight
  drain : s.manager.drainEvent = true ↔ s.manager.activeRequests = 0
  requests : s.metrics.requestCount = s.recorded.length
  timeouts : s.metrics.timeoutCount = s.requests.countP Request.timedOut
  errors : s.metrics.errorCount =
    s.recorded.countP (fun status => 400 ≤ status) + s.metrics.timeoutCount + s.metrics.rateLimitCount

/-- What one request adds to a count. -/
def one (p : Request → Bool) (r : Request) : ℕ := if p r = true then 1 else 0

theorem countP_setRequest (p : Request → Bool) (r' : Request) (hk : s.requests[k]? = some r) :
    (s.setRequest k r').requests.countP p + one p r = s.requests.countP p + one p r' := by
  obtain ⟨hlt, hget⟩ := List.getElem?_eq_some_iff.mp hk
  have hle : one p r ≤ s.requests.countP p := by
    unfold one
    split
    · rename_i hp
      exact List.countP_pos_iff.mpr ⟨r, List.mem_of_getElem? hk, hp⟩
    · exact Nat.zero_le _
  unfold setRequest
  rw [List.countP_set hlt, hget]
  unfold one at hle ⊢
  omega

/-- The statuses of a request take the place of those it had. -/
theorem countP_recorded (p : ℕ → Bool) (r' : Request) (hk : s.requests[k]? = some r) :
    (s.setRequest k r').recorded.countP p + r.recorded.countP p = s.recorded.countP p + r'.recorded.countP p := by
  obtain ⟨hlt, hget⟩ := List.getElem?_eq_some_iff.mp hk
  have hold : s.requests = s.requests.take k ++ r :: s.requests.drop (k + 1) := by
    rw [← hget, List.getElem_cons_drop, List.take_append_drop]
  have hnew : (s.setRequest k r').requests = s.requests.take k ++ r' :: s.requests.drop (k + 1) := by
    unfold setRequest
    rw [List.set_eq_take_append_cons_drop, if_pos hlt]
  unfold recorded
  rw [hnew]
  conv_rhs => rw [hold]
  simp only [List.flatMap_append, List.flatMap_cons, List.countP_append]
  show _ + List.countP p s.outside + _ = _ + List.countP p s.outside + _
  omega

theorem length_recorded (r' : Request) (hk : s.requests[k]? = some r) :
    (s.setRequest k r').recorded.length + r.recorded.length = s.recorded.length + r'.recorded.length := by
  have hcount := countP_recorded (fun _ => true) r' hk
  simpa using hcount

/-- A request changes, and every counter by what the request adds to it before and after. -/
theorem Counted.setRequest {manager : ShutdownManager} {metrics : PlatformMetrics} (h : s.Counted) (hk : s.requests[k]? = some r)
    (hactive : manager.activeRequests + one Request.inFlight r = s.manager.activeRequests + one Request.inFlight r')
    (hdrain : manager.drainEvent = true ↔ manager.activeRequests = 0)
    (hrequests : metrics.requestCount + r.recorded.length = s.metrics.requestCount + r'.recorded.length)
    (htimeouts : metrics.timeoutCount + one Request.timedOut r = s.metrics.timeoutCount + one Request.timedOut r')
    (herrors : metrics.errorCount + r.recorded.countP (fun status => 400 ≤ status) + s.metrics.timeoutCount +
        s.metrics.rateLimitCount =
      s.metrics.errorCount + r'.recorded.countP (fun status => 400 ≤ status) + metrics.timeoutCount + metrics.rateLimitCount) :
    ({ s.setRequest k r' with manager, metrics } : Server).Counted := by
  obtain ⟨hactive', -, hrequests', htimeouts', herrors'⟩ := h
  refine ⟨?_, hdrain, ?_, ?_, ?_⟩
  · have hcount := countP_setRequest Request.inFlight r' hk
    show manager.activeRequests = (s.setRequest k r').requests.countP Request.inFlight
    omega
  · have hcount := length_recorded r' hk
    show metrics.requestCount = (s.setRequest k r').recorded.length
    omega
  · have hcount := countP_setRequest Request.timedOut r' hk
    show metrics.timeoutCount = (s.setRequest k r').requests.countP Request.timedOut
    omega
  · have hcount := countP_recorded (fun status => 400 ≤ status) r' hk
    show metrics.errorCount = (s.setRequest k r').recorded.countP (fun status => 400 ≤ status) + metrics.timeoutCount +
      metrics.rateLimitCount
    omega

/-- A request changes, and the counters with it. -/
theorem Counted.moved {manager : ShutdownManager} {metrics : PlatformMetrics} (h : s.Counted)
    (hk : s.requests[k]? = some r) (hmoved : Moved s.manager s.metrics r r' manager metrics) :
    ({ s.setRequest k r' with manager, metrics } : Server).Counted := by
  cases hmoved with
  | refused hpc outcome =>
      apply h.setRequest hk
      · simp [one, Request.inFlight, hpc]
      · exact h.drain
      · simp [Request.recorded, hpc]
      · rfl
      · simp [Request.recorded, hpc]
  | admitted hpc =>
      apply h.setRequest hk
      · simp [one, Request.inFlight, hpc]
      · simp
      · simp [Request.recorded, hpc]
      · rfl
      · simp [Request.recorded, hpc]
  | left hpc outcome =>
      have hpos : 0 < s.manager.activeRequests := by
        rw [h.active, List.countP_pos_iff]
        exact ⟨r, List.mem_of_getElem? hk, by simp [Request.inFlight, hpc]⟩
      apply h.setRequest hk
      · simp only [one, Request.inFlight, hpc, ShutdownManager.endRequest]
        simp
        omega
      · simp only [ShutdownManager.endRequest, Bool.or_eq_true, beq_iff_eq, h.drain]
        omega
      · simp [Request.recorded, hpc, PlatformMetrics.recordRequest]
        omega
      · rfl
      · simp [Request.recorded, hpc, PlatformMetrics.recordRequest, List.countP_cons]
        omega
  | passed hgone hwait =>
      apply h.setRequest hk
      · rfl
      · exact h.drain
      · rfl
      · simp [one, Request.timedOut, hwait]
      · rfl
  | timedOut hwait =>
      apply h.setRequest hk
      · rfl
      · exact h.drain
      · rfl
      · simp [one, Request.timedOut, hwait, PlatformMetrics.recordTimeout]
      · simp [Request.recorded, PlatformMetrics.recordTimeout]
        omega
  | handled hnone status =>
      apply h.setRequest hk
      · rfl
      · exact h.drain
      · simp [Request.recorded, hnone, PlatformMetrics.recordRequest]
        omega
      · rfl
      · simp [Request.recorded, hnone, PlatformMetrics.recordRequest, List.countP_cons]
        omega
  | unhandled hnone status =>
      apply h.setRequest hk
      · rfl
      · exact h.drain
      · simp [Request.recorded, hnone, PlatformMetrics.recordRequest]
        omega
      · rfl
      · simp [Request.recorded, hnone, PlatformMetrics.recordRequest, List.countP_cons]
        omega

theorem Counted.change (h : s.Counted) (ht : Change s t) : t.Counted := by
  cases ht with
  | arrived path timed =>
      have hnone : ({ path, timed } : Request).recorded = [] := rfl
      have hrecorded : ({ s with requests := s.requests ++ [{ path, timed }] } : Server).recorded = s.recorded := by
        simp [Server.recorded, hnone]
      have hcount : ∀ p : Request → Bool, p ({ path, timed } : Request) = false →
          (s.requests ++ [({ path, timed } : Request)]).countP p = s.requests.countP p := by
        intro p hp
        rw [List.countP_append, List.countP_singleton, hp]
        rfl
      refine ⟨?_, h.drain, ?_, ?_, ?_⟩
      · exact h.active.trans (hcount _ rfl).symm
      · exact h.requests.trans (congrArg List.length hrecorded).symm
      · exact h.timeouts.trans (hcount _ rfl).symm
      · rw [hrecorded]
        exact h.errors
  | moved hk hmoved => exact h.moved hk hmoved
  | limited =>
      refine ⟨h.active, h.drain, h.requests, h.timeouts, ?_⟩
      show s.metrics.errorCount + 1 = s.recorded.countP (fun status => 400 ≤ status) + s.metrics.timeoutCount +
        (s.metrics.rateLimitCount + 1)
      rw [h.errors]
      rfl
  | raised status =>
      refine ⟨h.active, h.drain, ?_, h.timeouts, ?_⟩
      · simp only [Server.recorded, PlatformMetrics.recordRequest, h.requests, List.length_append, List.length_singleton]
        rfl
      · simp only [PlatformMetrics.recordRequest, h.errors]
        simp [Server.recorded, List.countP_cons]
        omega
  | shutdown => exact ⟨h.active, h.drain, h.requests, h.timeouts, h.errors⟩
  | drained => exact ⟨h.active, h.drain, h.requests, h.timeouts, h.errors⟩
  | closed => exact ⟨h.active, h.drain, h.requests, h.timeouts, h.errors⟩

theorem counted_new (timeoutEnabled : Bool) : ({ timeoutEnabled } : Server).Counted :=
  ⟨rfl, iff_of_true rfl rfl, rfl, rfl, rfl⟩

/-- **The counters** in every run: `active_requests` is the number of the requests that are in flight, also of those whose time is
over, and the drain event is set exactly when there is none; a request that was let in is recorded when it ends, and again by every
exception handler that is called for it; and the errors are the statuses recorded from 400 on, the timeouts and the refusals by a
limit. -/
theorem counted_of_run {ls : List ServerLabel} {timeoutEnabled : Bool} (h : Run step (fun _ _ => True) { timeoutEnabled } ls s) :
    s.Counted :=
  h.invariant (counted_new timeoutEnabled) (fun hs _ ht => hs.change (change_of_step ht))

/-- A route raises that something is not found, one is still at work when its time is over, and one is in flight. -/
def threeRequests : List ServerLabel :=
  [.arrived "/api/v1/iam/users".toList, .arrived "/api/v1/tools".toList, .arrived "/twilio/voice".toList, .dispatched 0, .dispatched 1,
    .dispatched 2, .handled 0 404, .left 0 (.response 404), .timedOut 1, .limited]

theorem counted_of_run_threeRequests : ∃ s, Run step (fun _ _ => True) { timeoutEnabled := true } threeRequests s ∧ s.Counted ∧
    s.manager.activeRequests = 2 ∧ s.metrics.requestCount = 2 ∧ s.metrics.errorCount = 4 := by
  obtain ⟨s, hrun, hend⟩ := Run.exists_of_exec
    (P := fun s : Server =>
      decide (s.manager.activeRequests = 2 ∧ s.metrics.requestCount = 2 ∧ s.metrics.errorCount = 4))
    (s := ({ timeoutEnabled := true } : Server)) (show (exec step (fun _ _ => True) _ threeRequests).any _ = true by decide +kernel)
  exact ⟨s, hrun, counted_of_run hrun, of_decide_eq_true hend⟩

/-! ## The shutdown -/

/-- A request that is not let in: at its turn a call of the API is answered 503, and any other one raises. -/
def Refused (r : Request) : Prop :=
  r.pc = .queued ∨ r.pc = .gone false .cancelled ∨ r.pc = .gone false (if isApi r.path then .response 503 else .raised)

/-- What has become of the requests of `s`, when none is let in any more. -/
structure Refuses (s t : Server) : Prop where
  shuttingDown : t.manager.shuttingDown = true
  requests : ∀ (k : ℕ) (r' : Request), t.requests[k]? = some r' →
    Refused r' ∨ ∃ r, s.requests[k]? = some r ∧ r.pc ≠ .queued ∧ r'.pc ≠ .queued ∧ r'.admitted = r.admitted

theorem Refuses.refl (h : s.manager.shuttingDown = true) : Refuses s s := by
  refine ⟨h, fun k r' hk => ?_⟩
  by_cases hpc : r'.pc = .queued
  · exact Or.inl (Or.inl hpc)
  · exact Or.inr ⟨r', hk, hpc, hpc, rfl⟩

theorem Refuses.congr {u : Server} (h : Refuses s t) (hrequests : u.requests = t.requests)
    (hshutting : u.manager.shuttingDown = true) : Refuses s u :=
  ⟨hshutting, fun k r' hk => h.requests k r' (hrequests ▸ hk)⟩

/-- One of the requests changes. -/
theorem Refuses.set {u : Server} (h : Refuses s t) (hk : t.requests[k]? = some r)
    (hrequests : u.requests = t.requests.set k r') (hshutting : u.manager.shuttingDown = true)
    (hrefused : r.pc = .queued → Refused r') (hkept : r.pc ≠ .queued → Refused r → Refused r')
    (hsame : r.pc ≠ .queued → r'.pc ≠ .queued ∧ r'.admitted = r.admitted) : Refuses s u := by
  refine ⟨hshutting, fun i new hi => ?_⟩
  rw [hrequests, List.getElem?_set] at hi
  split_ifs at hi with hik hlt
  · cases hi
    subst hik
    by_cases hpc : r.pc = .queued
    · exact Or.inl (hrefused hpc)
    · rcases h.requests k r hk with hold | ⟨old, hold, hne, -, hadmitted⟩
      · exact Or.inl (hkept hpc hold)
      · obtain ⟨hne', heq⟩ := hsame hpc
        exact Or.inr ⟨old, hold, hne, hne', heq.trans hadmitted⟩
  · exact h.requests i new hi

theorem Refuses.change {u : Server} (h : Refuses s t) (hu : Change t u) : Refuses s u := by
  have hshutting := h.shuttingDown
  cases hu with
  | arrived path timed =>
      refine ⟨hshutting, fun k r' hk => ?_⟩
      rw [List.getElem?_append] at hk
      split_ifs at hk with hlt
      · exact h.requests k r' hk
      · have hmem := List.mem_of_getElem? hk
        rw [List.mem_singleton.mp hmem]
        exact Or.inl (Or.inl rfl)
  | moved hk hmoved =>
      cases hmoved with
      | refused hpc outcome hwhy =>
          refine h.set hk rfl hshutting (fun _ => ?_) (fun hne => absurd hpc hne) (fun hne => absurd hpc hne)
          rcases hwhy with rfl | ⟨-, rfl⟩
          · exact Or.inr (Or.inl rfl)
          · exact Or.inr (Or.inr rfl)
      | admitted hpc hopen => cases hopen.symm.trans hshutting
      | left hpc outcome =>
          refine h.set hk rfl hshutting (fun heq => ?_) (fun _ hrefused => ?_) (fun _ => ⟨nofun, ?_⟩)
          · cases hpc.symm.trans heq
          · rcases hrefused with heq | heq | heq <;> cases hpc.symm.trans heq
          · simp [Request.admitted, hpc]
      | passed =>
          exact h.set hk rfl hshutting (fun heq => Or.inl heq) (fun _ hrefused => hrefused) (fun hne => ⟨hne, rfl⟩)
      | timedOut =>
          exact h.set hk rfl hshutting (fun heq => Or.inl heq) (fun _ hrefused => hrefused) (fun hne => ⟨hne, rfl⟩)
      | handled =>
          exact h.set hk rfl hshutting (fun heq => Or.inl heq) (fun _ hrefused => hrefused) (fun hne => ⟨hne, rfl⟩)
      | unhandled =>
          exact h.set hk rfl hshutting (fun heq => Or.inl heq) (fun _ hrefused => hrefused) (fun hne => ⟨hne, rfl⟩)
  | limited => exact h.congr rfl hshutting
  | raised => exact h.congr rfl hshutting
  | shutdown => exact h.congr rfl rfl
  | drained => exact h.congr rfl hshutting
  | closed => exact h.congr rfl hshutting

/-- **Nobody is let in** once the shutdown has begun: whatever happens from there on, a request that was not yet at the middleware
stays out, and at its turn it is answered 503 or raises; and the requests that were let in are those from before. -/
theorem refused_of_run {ls : List ServerLabel} (hs : s.manager.shuttingDown = true) (h : Run step (fun _ _ => True) s ls t) :
    t.manager.shuttingDown = true ∧ ∀ (k : ℕ) (r' : Request), t.requests[k]? = some r' →
      Refused r' ∨ ∃ r, s.requests[k]? = some r ∧ r.pc ≠ .queued ∧ r'.pc ≠ .queued ∧ r'.admitted = r.admitted := by
  have hrefuses : Refuses s t := h.invariant (I := Refuses s) (.refl hs) (fun ht _ hu => ht.change (change_of_step hu))
  exact ⟨hrefuses.shuttingDown, hrefuses.requests⟩

/-- A request of the API, and another one, come after the shutdown has begun. -/
def twoLate : List ServerLabel :=
  [.arrived "/api/v1/tools".toList, .arrived "/docs".toList, .dispatched 0, .dispatched 1]

theorem refused_of_run_twoLate : ∃ t, Run step (fun _ _ => True)
    ({ timeoutEnabled := true, manager := { shuttingDown := true }, lifespan := .draining } : Server) twoLate t ∧
    t.requests.map Request.pc = [.gone false (.response 503), .gone false .raised] ∧ t.manager.shuttingDown = true := by
  obtain ⟨t, hrun, hend⟩ := Run.exists_of_exec
    (P := fun t : Server => decide (t.requests.map Request.pc = [.gone false (.response 503), .gone false .raised]))
    (s := ({ timeoutEnabled := true, manager := { shuttingDown := true }, lifespan := .draining } : Server))
    (show (exec step (fun _ _ => True) _ twoLate).any _ = true by decide +kernel)
  exact ⟨t, hrun, of_decide_eq_true hend, (refused_of_run rfl hrun).1⟩

/-- The lifespan of the application and what it stands for. -/
structure Drained (s : Server) : Prop where
  counted : s.Counted
  serving : s.lifespan = .serving ∨ s.manager.shuttingDown = true
  empty : s.lifespan = .drained false ∨ s.lifespan = .closed false → s.manager.activeRequests = 0

theorem Drained.shuttingDown (h : s.Drained) (hs : s.lifespan ≠ .serving) : s.manager.shuttingDown = true :=
  h.serving.resolve_left hs

/-- A step that changes neither the lifespan nor who is let in. -/
theorem Drained.keep (h : s.Drained) (ht : t.Counted) (hlifespan : t.lifespan = s.lifespan)
    (hshutting : t.manager.shuttingDown = s.manager.shuttingDown)
    (hactive : s.manager.shuttingDown = true → t.manager.activeRequests ≤ s.manager.activeRequests) : t.Drained := by
  refine ⟨ht, by rw [hlifespan, hshutting]; exact h.serving, fun hdrained => ?_⟩
  rw [hlifespan] at hdrained
  have hle := hactive (h.shuttingDown (by rcases hdrained with heq | heq <;> rw [heq] <;> exact nofun))
  rw [h.empty hdrained] at hle
  exact Nat.le_zero.mp hle

theorem Drained.change (h : s.Drained) (ht : Change s t) : t.Drained := by
  have hcounted := h.counted.change ht
  cases ht with
  | arrived => exact h.keep hcounted rfl rfl (fun _ => le_refl _)
  | moved hk hmoved =>
      cases hmoved with
      | admitted hpc hopen => exact h.keep hcounted rfl rfl (fun hshutting => nomatch hopen.symm.trans hshutting)
      | left => exact h.keep hcounted rfl rfl (fun _ => Nat.sub_le _ _)
      | refused => exact h.keep hcounted rfl rfl (fun _ => le_refl _)
      | passed => exact h.keep hcounted rfl rfl (fun _ => le_refl _)
      | timedOut => exact h.keep hcounted rfl rfl (fun _ => le_refl _)
      | handled => exact h.keep hcounted rfl rfl (fun _ => le_refl _)
      | unhandled => exact h.keep hcounted rfl rfl (fun _ => le_refl _)
  | limited => exact h.keep hcounted rfl rfl (fun _ => le_refl _)
  | raised => exact h.keep hcounted rfl rfl (fun _ => le_refl _)
  | shutdown => exact ⟨hcounted, Or.inr rfl, by rintro (heq | heq) <;> cases heq⟩
  | drained hdraining forced hdrain =>
      refine ⟨hcounted, Or.inr (h.shuttingDown (by rw [hdraining]; exact nofun)), ?_⟩
      rintro (heq | heq) <;> cases heq
      exact h.counted.drain.mp (hdrain.resolve_left Bool.false_ne_true)
  | closed hlifespan =>
      refine ⟨hcounted, Or.inr (h.shuttingDown (by rw [hlifespan]; exact nofun)), ?_⟩
      rintro (heq | heq) <;> cases heq
      exact h.empty (Or.inl hlifespan)

/-- **The drain** in every run: it ends, without force, exactly when no request is in flight; and from there on, up to the end of
the server and after it, none is. -/
theorem drained_of_run {ls : List ServerLabel} {timeoutEnabled : Bool} (h : Run step (fun _ _ => True) { timeoutEnabled } ls s) :
    (s.lifespan = .draining → ((s.step .drained).isSome = true ↔ ∀ r ∈ s.requests, r.inFlight = false)) ∧
    (s.lifespan = .drained false ∨ s.lifespan = .closed false → ∀ r ∈ s.requests, r.inFlight = false) := by
  have hdrained : s.Drained := by
    refine h.invariant (I := Drained) ⟨counted_new timeoutEnabled, Or.inl rfl, fun _ => rfl⟩
      (fun hs _ ht => hs.change (change_of_step ht))
  have hnone : s.manager.activeRequests = 0 ↔ ∀ r ∈ s.requests, r.inFlight = false := by
    rw [hdrained.counted.active, List.countP_eq_zero]
    simp only [Bool.not_eq_true]
  refine ⟨fun hdraining => ?_, fun hend => hnone.mp (hdrained.empty hend)⟩
  rw [← hnone, ← hdrained.counted.drain]
  simp [Server.step, hdraining]

theorem drained_of_run_oneRequest : ∃ s, Run step (fun _ _ => True) { timeoutEnabled := true }
    [.arrived "/api/v1/tools".toList, .dispatched 0, .shutdown, .left 0 (.response 200), .drained, .closed] s ∧
    s.lifespan = .closed false ∧ ∀ r ∈ s.requests, r.inFlight = false := by
  obtain ⟨s, hrun, hend⟩ := Run.exists_of_exec (P := fun s : Server => decide (s.lifespan = .closed false))
    (s := ({ timeoutEnabled := true } : Server))
    (show (exec step (fun _ _ => True) _ [.arrived "/api/v1/tools".toList, .dispatched 0, .shutdown, .left 0 (.response 200),
      .drained, .closed]).any _ = true by decide +kernel)
  have hclosed := of_decide_eq_true hend
  exact ⟨s, hrun, hclosed, (drained_of_run hrun).2 (Or.inr hclosed)⟩

end Server

end Voxera.Core
