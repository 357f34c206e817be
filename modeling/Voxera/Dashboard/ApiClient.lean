import Voxera.EventLoop.Run
import Voxera.Text

/-!
# The API client of the dashboard

The calls of `apiRequest` of one page, and the refresh of the access token that they share. The network answers in any order;
an `await` goes on at any time after what it waits for.

* `Refresh`, `Call` : a call of `refreshAccessToken`, and one of `apiRequest`;
* `ApiClient.step` : the page from one event to the next; `Change` : what a step does to the refreshes and the tokens;
* `refresh_of_run` : one refresh at a time, the two tokens belong together, and which tokens are sent again; the last when the
  server gives no refresh token twice (`Fresh`), which the others do not need;
* `calls_of_run` : what becomes of the calls;
* `signedIn_of_run` : the page signs the user out only when a refresh has failed.

`bearers`, `redeemed` and `stored` are records that the source does not have and nothing reads. `refreshSession` of `iam.ts`, which
sends a refresh token on its own, is called by nothing.
-/

namespace Voxera.Dashboard

open EventLoop

/-- What the server gives for a session. -/
structure TokenPair where
  access : Text
  refresh : Text
  deriving DecidableEq

/-- `refreshAccessToken` : in its `fetch`, in `res.json()`, returned, or with its `finally` behind it. -/
inductive Refresh.Pc where
  | fetching
  | reading
  | returned (result : Bool)
  | over (result : Bool)
  deriving DecidableEq

/-- A call of `refreshAccessToken`, with the token that it sends, if there is one to send; `redeemed` if the server has answered
that it is good. -/
structure Refresh where
  sent : Option Text
  pc : Refresh.Pc
  redeemed : Bool := false
  deriving DecidableEq

namespace Refresh

/-- The refresh has brought new tokens. -/
def renewed (r : Refresh) : Bool := r.pc = .returned true || r.pc = .over true

def failed (r : Refresh) : Bool := r.pc = .returned false || r.pc = .over false

def isOver (r : Refresh) : Bool := r.pc = .over true || r.pc = .over false

end Refresh

/-- `apiRequest` : in its `fetch`, in `refreshOnce()`, or settled with the status of the answer, if there was one. -/
inductive Call.Pc where
  | fetching (retried : Bool)
  | refreshing (refresh : ℕ)
  | settled (status : Option ℕ)
  deriving DecidableEq

/-- A call of `apiRequest`, with the access tokens that its requests have carried. -/
structure Call where
  skipAuth : Bool
  pc : Call.Pc
  bearers : List (Option Text)
  deriving DecidableEq

structure ApiClient where
  /-- What `localStorage` has under `ACCESS_TOKEN_KEY`, and under `REFRESH_TOKEN_KEY`. -/
  accessToken : Option Text := none
  refreshToken : Option Text := none
  refreshPromise : Option ℕ := none
  refreshes : List Refresh := []
  calls : List Call := []
  stored : List TokenPair := []
  deriving DecidableEq

/-- What can happen. -/
inductive ApiLabel where
  | request (skipAuth : Bool)
  | answered (call status : ℕ)
  | rejected (call : ℕ)
  | refreshAnswered (refresh : ℕ) (ok : Bool)
  /-- The `fetch` or the `res.json()` of a refresh throws. -/
  | refreshRejected (refresh : ℕ)
  | refreshRead (refresh : ℕ) (pair : TokenPair)
  /-- `refreshPromise = null` -/
  | finished (refresh : ℕ)
  /-- `await refreshOnce()` comes back. -/
  | resumed (call : ℕ)
  /-- `login` of `iam.ts` has its answer. -/
  | signedIn (pair : TokenPair)
  /-- `logout` of `iam.ts` -/
  | signedOut
  deriving DecidableEq

namespace ApiClient

/-- A text that JavaScript takes for true. -/
def truthy (t : Option Text) : Option Text := t.filter (fun text => !text.isEmpty)

def storeTokens (c : ApiClient) (pair : TokenPair) : ApiClient :=
  { c with accessToken := some pair.access, refreshToken := some pair.refresh, stored := c.stored ++ [pair] }

def clearTokens (c : ApiClient) : ApiClient := { c with accessToken := none, refreshToken := none }

/-- `authHeaders()` -/
def bearer (c : ApiClient) (skipAuth : Bool) : Option Text := if skipAuth then none else truthy c.accessToken

def setCall (c : ApiClient) (i : ℕ) (call : Call) : ApiClient := { c with calls := c.calls.set i call }

def setRefresh (c : ApiClient) (r : ℕ) (refresh : Refresh) : ApiClient := { c with refreshes := c.refreshes.set r refresh }

/-- `refreshAccessToken` up to its first `await` -/
def refreshAccessToken (c : ApiClient) : Refresh :=
  match truthy c.refreshToken with
  | none => { sent := none, pc := .returned false }
  | some token => { sent := some token, pc := .fetching }

/-- `refreshOnce`, with the refresh that it waits for. -/
def refreshOnce (c : ApiClient) : ApiClient × ℕ :=
  match c.refreshPromise with
  | some r => (c, r)
  | none =>
    ({ c with refreshes := c.refreshes ++ [c.refreshAccessToken], refreshPromise := some c.refreshes.length }, c.refreshes.length)

/-- `apiRequest` up to its `fetch` -/
def apiRequest (c : ApiClient) (skipAuth : Bool) : ApiClient :=
  { c with calls := c.calls ++ [{ skipAuth, pc := .fetching false, bearers := [c.bearer skipAuth] }] }

/-- `apiRequest` behind its `fetch` -/
def answered (c : ApiClient) (i : ℕ) (call : Call) (retried : Bool) (status : ℕ) : ApiClient :=
  if status = 401 ∧ call.skipAuth = false ∧ retried = false ∧ (truthy c.accessToken).isSome then
    let (c, r) := c.refreshOnce
    c.setCall i { call with pc := .refreshing r }
  else c.setCall i { call with pc := .settled (some status) }

/-- `apiRequest` behind `refreshOnce()` -/
def resumed (c : ApiClient) (i : ℕ) (call : Call) (result : Bool) : ApiClient :=
  if result then c.setCall i { call with pc := .fetching true, bearers := call.bearers ++ [c.bearer call.skipAuth] }
  else c.clearTokens.setCall i { call with pc := .settled (some 401) }

def step (c : ApiClient) : ApiLabel → Option ApiClient
  | .request skipAuth => some (c.apiRequest skipAuth)
  | .answered i status =>
    c.calls[i]?.bind (fun call =>
      match call.pc with
      | .fetching retried => some (c.answered i call retried status)
      | _ => none)
  | .rejected i =>
    c.calls[i]?.bind (fun call =>
      match call.pc with
      | .fetching _ => some (c.setCall i { call with pc := .settled none })
      | _ => none)
  | .refreshAnswered r ok =>
    c.refreshes[r]?.bind (fun refresh =>
      if refresh.pc = .fetching then
        some (c.setRefresh r { refresh with pc := if ok then .reading else .returned false, redeemed := ok })
      else none)
  | .refreshRejected r =>
    c.refreshes[r]?.bind (fun refresh =>
      if refresh.pc = .fetching ∨ refresh.pc = .reading then some (c.setRefresh r { refresh with pc := .returned false }) else none)
  | .refreshRead r pair =>
    c.refreshes[r]?.bind (fun refresh =>
      if refresh.pc = .reading then some ((c.storeTokens pair).setRefresh r { refresh with pc := .returned true }) else none)
  | .finished r =>
    c.refreshes[r]?.bind (fun refresh =>
      match refresh.pc with
      | .returned result => some { c.setRefresh r { refresh with pc := .over result } with refreshPromise := none }
      | _ => none)
  | .resumed i =>
    c.calls[i]?.bind (fun call =>
      match call.pc with
      | .refreshing r =>
        c.refreshes[r]?.bind (fun refresh =>
          match refresh.pc with
          | .over result => some (c.resumed i call result)
          | _ => none)
      | _ => none)
  | .signedIn pair => some (c.storeTokens pair)
  | .signedOut => some c.clearTokens

/-- The page is loaded, with the tokens that are there from before. -/
def loaded : Option TokenPair → ApiClient
  | none => {}
  | some pair => ({} : ApiClient).storeTokens pair

variable {c c' : ApiClient} {refresh : Refresh} {r : ℕ}

/-! ## What a step does -/

/-- The refreshes and the tokens are the same. -/
structure Same (c c' : ApiClient) : Prop where
  refreshes : c'.refreshes = c.refreshes
  refreshPromise : c'.refreshPromise = c.refreshPromise
  accessToken : c'.accessToken = c.accessToken
  refreshToken : c'.refreshToken = c.refreshToken
  stored : c'.stored = c.stored

/-- A refresh goes on. -/
inductive Refresh.Advance (refresh : Refresh) : Refresh → Prop
  | answered (hpc : refresh.pc = .fetching) : Advance refresh { refresh with pc := .reading, redeemed := true }
  | failed (redeemed : Bool) (hpc : refresh.pc = .fetching ∨ refresh.pc = .reading) :
      Advance refresh { refresh with pc := .returned false, redeemed }

/-- What a step does to the refreshes and the tokens. -/
inductive Change (c : ApiClient) : ApiLabel → ApiClient → Prop
  | same {l : ApiLabel} {c' : ApiClient} (h : Same c c') : Change c l c'
  | begun {l : ApiLabel} {c' : ApiClient} (hnone : c.refreshPromise = none)
      (h : Same { c with refreshes := c.refreshes ++ [c.refreshAccessToken], refreshPromise := some c.refreshes.length } c') :
      Change c l c'
  | advanced {l : ApiLabel} {r : ℕ} {refresh new : Refresh} (hr : c.refreshes[r]? = some refresh)
      (hadvance : Refresh.Advance refresh new) : Change c l (c.setRefresh r new)
  | read {r : ℕ} {refresh : Refresh} {pair : TokenPair} (hr : c.refreshes[r]? = some refresh) (hpc : refresh.pc = .reading) :
      Change c (.refreshRead r pair) ((c.storeTokens pair).setRefresh r { refresh with pc := .returned true })
  | finished {r : ℕ} {refresh : Refresh} {result : Bool} (hr : c.refreshes[r]? = some refresh)
      (hpc : refresh.pc = .returned result) :
      Change c (.finished r) { c.setRefresh r { refresh with pc := .over result } with refreshPromise := none }
  | stored (pair : TokenPair) : Change c (.signedIn pair) (c.storeTokens pair)
  | cleared {l : ApiLabel} {c' : ApiClient} (hwhy : l = .signedOut ∨ ∃ refresh ∈ c.refreshes, refresh.failed = true)
      (h : Same c.clearTokens c') : Change c l c'

theorem change_of_refreshOnce {l : ApiLabel} (h : Same c.refreshOnce.1 c') : Change c l c' := by
  unfold refreshOnce at h
  split at h
  · exact .same h
  · rename_i hnone
    exact .begun hnone h

theorem change_of_step {l : ApiLabel} (h : c.step l = some c') : Change c l c' := by
  cases l with
  | request skipAuth => exact Option.some.inj h ▸ .same ⟨rfl, rfl, rfl, rfl, rfl⟩
  | answered i status =>
      obtain ⟨call, hcall, h⟩ := Option.bind_eq_some_iff.mp h
      split at h
      · cases h
        unfold answered
        split
        · exact change_of_refreshOnce ⟨rfl, rfl, rfl, rfl, rfl⟩
        · exact .same ⟨rfl, rfl, rfl, rfl, rfl⟩
      · cases h
  | rejected i =>
      obtain ⟨call, hcall, h⟩ := Option.bind_eq_some_iff.mp h
      split at h
      · cases h
        exact .same ⟨rfl, rfl, rfl, rfl, rfl⟩
      · cases h
  | refreshAnswered r ok =>
      obtain ⟨refresh, hr, h⟩ := Option.bind_eq_some_iff.mp h
      split at h
      · rename_i hpc
        cases h
        cases ok with
        | true => exact .advanced hr (.answered hpc)
        | false => exact .advanced hr (.failed false (Or.inl hpc))
      · cases h
  | refreshRejected r =>
      obtain ⟨refresh, hr, h⟩ := Option.bind_eq_some_iff.mp h
      split_ifs at h with hpc
      cases h
      exact .advanced hr (.failed refresh.redeemed hpc)
  | refreshRead r pair =>
      obtain ⟨refresh, hr, h⟩ := Option.bind_eq_some_iff.mp h
      split_ifs at h with hpc
      cases h
      exact .read hr hpc
  | finished r =>
      obtain ⟨refresh, hr, h⟩ := Option.bind_eq_some_iff.mp h
      split at h
      · rename_i result hpc
        cases h
        exact .finished hr hpc
      · cases h
  | resumed i =>
      obtain ⟨call, hcall, h⟩ := Option.bind_eq_some_iff.mp h
      split at h
      · obtain ⟨refresh, hr, h⟩ := Option.bind_eq_some_iff.mp h
        split at h
        · rename_i result hpc
          cases h
          cases result with
          | true => exact .same ⟨rfl, rfl, rfl, rfl, rfl⟩
          | false =>
              have hfailed : refresh.failed = true := by simp [Refresh.failed, hpc]
              exact .cleared (Or.inr ⟨refresh, List.mem_of_getElem? hr, hfailed⟩) ⟨rfl, rfl, rfl, rfl, rfl⟩
        · cases h
      · cases h
  | signedIn pair => exact Option.some.inj h ▸ .stored pair
  | signedOut => exact Option.some.inj h ▸ .cleared (Or.inl rfl) ⟨rfl, rfl, rfl, rfl, rfl⟩

/-! ## The refreshes -/

/-- The tokens are the pair that was stored last. -/
def Latest (c : ApiClient) : Prop :=
  ∃ front pair, c.stored = front ++ [pair] ∧ c.accessToken = some pair.access ∧ c.refreshToken = some pair.refresh

structure Sound (c : ApiClient) : Prop where
  single : ∀ (r : ℕ) (refresh : Refresh), c.refreshes[r]? = some refresh → refresh.isOver = false → c.refreshPromise = some r
  promise : ∀ r, c.refreshPromise = some r → r + 1 = c.refreshes.length
  tokens : c.accessToken = none ∧ c.refreshToken = none ∨ c.Latest

theorem Latest.same (h : c.Latest) (hsame : Same c c') : c'.Latest := by
  unfold Latest
  rw [hsame.stored, hsame.accessToken, hsame.refreshToken]
  exact h

theorem Sound.same (h : c.Sound) (hsame : Same c c') : c'.Sound := by
  refine ⟨?_, ?_, ?_⟩
  · rw [hsame.refreshes, hsame.refreshPromise]
    exact h.single
  · rw [hsame.refreshes, hsame.refreshPromise]
    exact h.promise
  · rw [hsame.accessToken, hsame.refreshToken]
    exact h.tokens.imp_right (fun hlatest => hlatest.same hsame)

/-- A refresh that is not over is the last one. -/
theorem Sound.last (h : c.Sound) (hr : c.refreshes[r]? = some refresh) (hover : refresh.isOver = false) :
    ∃ front, c.refreshes = front ++ [refresh] ∧ front.length = r := by
  have hlast : c.refreshes.length - 1 = r := by
    have := h.promise r (h.single r refresh hr hover)
    omega
  have hget : c.refreshes.getLast? = some refresh := by rw [List.getLast?_eq_getElem?, hlast, hr]
  obtain ⟨front, hfront⟩ := List.getLast?_eq_some_iff.mp hget
  refine ⟨front, hfront, ?_⟩
  rw [hfront, List.length_append] at hlast
  simpa using hlast

/-- A refresh goes on, and the promise is given up when it is over. -/
theorem Sound.set {new : Refresh} (h : c.Sound) (hr : c.refreshes[r]? = some refresh) (hover : refresh.isOver = false)
    (hpromise : c'.refreshPromise = if new.isOver = true then none else c.refreshPromise)
    (hrefreshes : c'.refreshes = c.refreshes.set r new)
    (htokens : c'.accessToken = none ∧ c'.refreshToken = none ∨ c'.Latest) : c'.Sound := by
  have hsome := h.single r refresh hr hover
  refine ⟨?_, ?_, htokens⟩
  · intro i rf hi hnot
    rw [hrefreshes, List.getElem?_set] at hi
    split_ifs at hi with hri hlt
    · cases hi
      rw [hpromise, if_neg (by rw [hnot]; exact nofun), hsome, hri]
    · have hother := h.single i rf hi hnot
      exact absurd (Option.some.inj (hsome.symm.trans hother)) hri
  · intro i hi
    rw [hpromise] at hi
    split_ifs at hi
    rw [hrefreshes, List.length_set]
    exact h.promise i hi

/-- A refresh is started when all the others are over. -/
theorem Sound.over (h : c.Sound) (hnone : c.refreshPromise = none) (hr : c.refreshes[r]? = some refresh) :
    refresh.isOver = true := by
  by_contra hnot
  cases hnone.symm.trans (h.single r refresh hr (Bool.eq_false_iff.mpr hnot))

theorem Sound.begun (h : c.Sound) (hnone : c.refreshPromise = none) :
    ({ c with refreshes := c.refreshes ++ [c.refreshAccessToken], refreshPromise := some c.refreshes.length } : ApiClient).Sound := by
  refine ⟨?_, ?_, h.tokens⟩
  · intro r refresh hr hnot
    rw [List.getElem?_append] at hr
    split_ifs at hr with hlt
    · rw [h.over hnone hr] at hnot
      cases hnot
    · have hzero : r - c.refreshes.length = 0 := by
        have := (List.getElem?_eq_some_iff.mp hr).1
        simpa using this
      show some c.refreshes.length = some r
      rw [show r = c.refreshes.length by omega]
  · rintro r ⟨⟩
    simp

theorem Refresh.Advance.notOver {new : Refresh} (h : Refresh.Advance refresh new) :
    refresh.isOver = false ∧ new.isOver = false ∧ new.sent = refresh.sent ∧ new.renewed = false ∧ refresh.failed = false := by
  cases h with
  | answered hpc => simp [Refresh.isOver, Refresh.renewed, Refresh.failed, hpc]
  | failed redeemed hpc => rcases hpc with hpc | hpc <;> simp [Refresh.isOver, Refresh.renewed, Refresh.failed, hpc]

theorem Sound.change {l : ApiLabel} (h : c.Sound) (hc' : Change c l c') : c'.Sound := by
  cases hc' with
  | same hsame => exact h.same hsame
  | begun hnone hsame => exact (h.begun hnone).same hsame
  | advanced hr hadvance =>
      obtain ⟨hover, hnew, -⟩ := hadvance.notOver
      exact h.set hr hover (by rw [hnew]; rfl) rfl h.tokens
  | read hr hpc => exact h.set hr (by simp [Refresh.isOver, hpc]) rfl rfl (Or.inr ⟨c.stored, _, rfl, rfl, rfl⟩)
  | finished hr hpc =>
      rename_i result
      exact h.set hr (by simp [Refresh.isOver, hpc]) (by cases result <;> rfl) rfl h.tokens
  | stored pair => exact ⟨h.single, h.promise, Or.inr ⟨c.stored, pair, rfl, rfl, rfl⟩⟩
  | cleared hwhy hsame =>
      have hclear : c.clearTokens.Sound := ⟨h.single, h.promise, Or.inl ⟨rfl, rfl⟩⟩
      exact hclear.same hsame

theorem sound_loaded (before : Option TokenPair) : (loaded before).Sound := by
  cases before with
  | none => exact ⟨by simp [loaded], nofun, Or.inl ⟨rfl, rfl⟩⟩
  | some pair => exact ⟨by simp [loaded, storeTokens], nofun, Or.inr ⟨[], pair, rfl, rfl, rfl⟩⟩

theorem sound_of_run {ok : ApiClient → ApiLabel → Prop} {ls : List ApiLabel} {before : Option TokenPair}
    (h : Run step ok (loaded before) ls c) : c.Sound :=
  h.invariant (sound_loaded before) (fun hs _ hc' => hs.change (change_of_step hc'))

/-! ## The tokens that are sent -/

/-- The server gives a refresh token that it has not given before. -/
def Fresh (c : ApiClient) : ApiLabel → Prop
  | .refreshRead _ pair | .signedIn pair => ∀ old ∈ c.stored, old.refresh ≠ pair.refresh
  | _ => True

instance (c : ApiClient) (l : ApiLabel) : Decidable (c.Fresh l) := by
  cases l <;> unfold Fresh <;> infer_instance

/-- What the refreshes have sent: tokens that were stored, and none for a second time but after a failure. -/
structure Unspent (c : ApiClient) : Prop where
  known : ∀ refresh ∈ c.refreshes, ∀ token, refresh.sent = some token → ∃ pair ∈ c.stored, pair.refresh = token
  spent : ∀ refresh ∈ c.refreshes, refresh.renewed = true → ∀ token, refresh.sent = some token → c.refreshToken ≠ some token
  once : c.refreshes.Pairwise (fun refresh later => refresh.failed = false → ∀ token, refresh.sent = some token →
    later.sent ≠ some token)

theorem Unspent.same (h : c.Unspent) (hsame : Same c c') : c'.Unspent := by
  refine ⟨?_, ?_, ?_⟩
  · rw [hsame.refreshes, hsame.stored]
    exact h.known
  · rw [hsame.refreshes, hsame.refreshToken]
    exact h.spent
  · rw [hsame.refreshes]
    exact h.once

/-- A token that has been sent is not the one that is stored anew. -/
theorem Unspent.ne_of_fresh (h : c.Unspent) {pair : TokenPair} (hfresh : ∀ old ∈ c.stored, old.refresh ≠ pair.refresh)
    (hmem : refresh ∈ c.refreshes) {token : Text} (hsent : refresh.sent = some token) : some pair.refresh ≠ some token := by
  obtain ⟨old, hold, heq⟩ := h.known refresh hmem token hsent
  exact fun h => hfresh old hold (heq.trans (Option.some.inj h).symm)

theorem Unspent.store (h : c.Unspent) {pair : TokenPair} (hfresh : ∀ old ∈ c.stored, old.refresh ≠ pair.refresh) :
    (c.storeTokens pair).Unspent := by
  refine ⟨?_, ?_, h.once⟩
  · intro refresh hmem token hsent
    obtain ⟨old, hold, heq⟩ := h.known refresh hmem token hsent
    exact ⟨old, List.mem_append_left _ hold, heq⟩
  · intro refresh hmem _ token hsent
    exact h.ne_of_fresh hfresh hmem hsent

/-- The last refresh goes on. -/
theorem Unspent.set {new : Refresh} (h : c.Unspent) (hs : c.Sound) (hr : c.refreshes[r]? = some refresh)
    (hover : refresh.isOver = false) (hsent : new.sent = refresh.sent)
    (hspent : new.renewed = true → ∀ token, refresh.sent = some token → c.refreshToken ≠ some token)
    (hrefreshes : c'.refreshes = c.refreshes.set r new) (hrefresh : c'.refreshToken = c.refreshToken)
    (hstored : c'.stored = c.stored) : c'.Unspent := by
  obtain ⟨front, hfront, hlength⟩ := hs.last hr hover
  have hset : c'.refreshes = front ++ [new] := by
    rw [hrefreshes, hfront, ← hlength, List.set_append_right _ _ (le_refl _), Nat.sub_self]
    rfl
  have hmem : ∀ {rf}, rf ∈ c'.refreshes → rf ∈ c.refreshes ∨ rf = new := by
    intro rf hrf
    rw [hset] at hrf
    rcases List.mem_append.mp hrf with hrf | hrf
    · exact Or.inl (hfront ▸ List.mem_append_left _ hrf)
    · exact Or.inr (List.mem_singleton.mp hrf)
  refine ⟨?_, ?_, ?_⟩
  · intro rf hrf token htoken
    rw [hstored]
    rcases hmem hrf with hrf | rfl
    · exact h.known rf hrf token htoken
    · exact h.known refresh (List.mem_of_getElem? hr) token (hsent ▸ htoken)
  · intro rf hrf hrenewed token htoken
    rw [hrefresh]
    rcases hmem hrf with hrf | rfl
    · exact h.spent rf hrf hrenewed token htoken
    · exact hspent hrenewed token (hsent ▸ htoken)
  · have honce := h.once
    rw [hfront, List.pairwise_append] at honce
    rw [hset, List.pairwise_append]
    refine ⟨honce.1, List.pairwise_singleton _ _, ?_⟩
    intro rf hrf rf' hrf' hgood token htoken
    rw [List.mem_singleton.mp hrf', hsent]
    exact honce.2.2 rf hrf refresh (List.mem_singleton_self _) hgood token htoken

theorem sent_refreshAccessToken {token : Text} (h : c.refreshAccessToken.sent = some token) : c.refreshToken = some token := by
  unfold refreshAccessToken truthy at h
  split at h
  · cases h
  · rename_i text htext
    exact (Option.some.inj h) ▸ (Option.filter_eq_some_iff.mp htext).1

/-- A refresh that is over has failed, or has brought new tokens. -/
theorem Refresh.renewed_of_isOver (hover : refresh.isOver = true) (hgood : refresh.failed = false) : refresh.renewed = true := by
  rw [Refresh.isOver, Bool.or_eq_true, decide_eq_true_eq, decide_eq_true_eq] at hover
  rcases hover with hpc | hpc
  · simp [Refresh.renewed, hpc]
  · simp [Refresh.failed, hpc] at hgood

theorem Unspent.begun (h : c.Unspent) (hs : c.Sound) (hnone : c.refreshPromise = none) :
    ({ c with refreshes := c.refreshes ++ [c.refreshAccessToken], refreshPromise := some c.refreshes.length } : ApiClient).Unspent := by
  refine ⟨?_, ?_, ?_⟩
  · intro refresh hmem token hsome
    rcases List.mem_append.mp hmem with hmem | hmem
    · exact h.known refresh hmem token hsome
    · rw [List.mem_singleton.mp hmem] at hsome
      rcases hs.tokens with ⟨-, htoken⟩ | ⟨front, pair, hstored, -, htoken⟩
      · cases htoken.symm.trans (sent_refreshAccessToken hsome)
      · refine ⟨pair, hstored ▸ List.mem_append_right _ (List.mem_singleton_self pair), ?_⟩
        exact Option.some.inj (htoken.symm.trans (sent_refreshAccessToken hsome))
  · intro refresh hmem hrenewed token hsome
    rcases List.mem_append.mp hmem with hmem | hmem
    · exact h.spent refresh hmem hrenewed token hsome
    · have hnew : c.refreshAccessToken.renewed = false := by
        unfold refreshAccessToken
        split <;> rfl
      rw [List.mem_singleton.mp hmem, hnew] at hrenewed
      cases hrenewed
  · rw [List.pairwise_append]
    refine ⟨h.once, List.pairwise_singleton _ _, ?_⟩
    intro refresh hmem later hlater hgood token hsome heq
    obtain ⟨r, hr⟩ := List.mem_iff_getElem?.mp hmem
    have hrenewed := Refresh.renewed_of_isOver (hs.over hnone hr) hgood
    rw [List.mem_singleton.mp hlater] at heq
    exact h.spent refresh hmem hrenewed token hsome (sent_refreshAccessToken heq)

theorem Unspent.change {l : ApiLabel} (h : c.Unspent) (hs : c.Sound) (hl : c.Fresh l) (hc' : Change c l c') : c'.Unspent := by
  cases hc' with
  | same hsame => exact h.same hsame
  | begun hnone hsame => exact (h.begun hs hnone).same hsame
  | advanced hr hadvance =>
      obtain ⟨hover, -, hsent, hnew, -⟩ := hadvance.notOver
      exact h.set hs hr hover hsent (fun hrenewed => nomatch hnew.symm.trans hrenewed) rfl rfl rfl
  | @read r refresh pair hr hpc =>
      have hstored : (c.storeTokens pair).Sound := hs.change (.stored pair)
      have hsent : ({ refresh with pc := .returned true } : Refresh).sent = refresh.sent := rfl
      refine (h.store hl).set hstored hr (by simp [Refresh.isOver, hpc]) hsent (fun _ token htoken => ?_) rfl rfl rfl
      exact h.ne_of_fresh hl (List.mem_of_getElem? hr) htoken
  | @finished r refresh result hr hpc =>
      have hsent : ({ refresh with pc := .over result } : Refresh).sent = refresh.sent := rfl
      refine h.set hs hr (by simp [Refresh.isOver, hpc]) hsent (fun hrenewed => ?_) rfl rfl rfl
      have hresult : result = true := by simpa [Refresh.renewed] using hrenewed
      exact h.spent _ (List.mem_of_getElem? hr) (by simp [Refresh.renewed, hpc, hresult])
  | stored pair => exact h.store hl
  | cleared hwhy hsame =>
      have hclear : c.clearTokens.Unspent := ⟨h.known, fun _ _ _ _ _ => nofun, h.once⟩
      exact hclear.same hsame

theorem unspent_loaded (before : Option TokenPair) : (loaded before).Unspent := by
  cases before with
  | none => exact ⟨by simp [loaded], by simp [loaded], List.Pairwise.nil⟩
  | some pair => exact ⟨by simp [loaded, storeTokens], by simp [loaded, storeTokens], List.Pairwise.nil⟩

/-- **The refresh** in every run: one at a time; the access token and the refresh token are both gone or those of one pair, the one
that was stored last; and when the server gives no refresh token twice, one is sent a second time only after the refresh that has
sent it has failed, also one that the server has redeemed. -/
theorem refresh_of_run {ok : ApiClient → ApiLabel → Prop} {ls : List ApiLabel} {before : Option TokenPair}
    (h : Run step ok (loaded before) ls c) :
    (∀ (r r' : ℕ) (refresh refresh' : Refresh), c.refreshes[r]? = some refresh → c.refreshes[r']? = some refresh' →
      refresh.isOver = false → refresh'.isOver = false → r = r') ∧
    (c.accessToken = none ∧ c.refreshToken = none ∨ c.Latest) ∧
    (Run step Fresh (loaded before) ls c → ∀ (r r' : ℕ) (refresh refresh' : Refresh), c.refreshes[r]? = some refresh →
      c.refreshes[r']? = some refresh' → r < r' → refresh.sent ≠ none → refresh'.sent = refresh.sent →
      refresh.failed = true ∧ refresh.isOver = true) := by
  have hs := sound_of_run h
  refine ⟨?_, hs.tokens, ?_⟩
  · intro r r' refresh refresh' hr hr' hover hover'
    exact Option.some.inj ((hs.single r refresh hr hover).symm.trans (hs.single r' refresh' hr' hover'))
  · intro hfresh r r' refresh refresh' hr hr' hlt hsent heq
    have hunspent : c.Sound ∧ c.Unspent := by
      refine hfresh.invariant (I := fun c => c.Sound ∧ c.Unspent) ⟨sound_loaded before, unspent_loaded before⟩ ?_
      intro c l c' ⟨hs, hu⟩ hl hc'
      exact ⟨hs.change (change_of_step hc'), hu.change hs hl (change_of_step hc')⟩
    obtain ⟨token, htoken⟩ := Option.ne_none_iff_exists'.mp hsent
    obtain ⟨hi, rfl⟩ := List.getElem?_eq_some_iff.mp hr
    obtain ⟨hj, rfl⟩ := List.getElem?_eq_some_iff.mp hr'
    constructor
    · by_contra hgood
      have honce := List.pairwise_iff_getElem.mp hunspent.2.once r r' hi hj hlt (Bool.eq_false_iff.mpr hgood)
      exact honce token htoken (heq.trans htoken)
    · by_contra hnot
      -- one that is not over is the last one
      have hpromise := hs.promise r (hs.single r _ hr (Bool.eq_false_iff.mpr hnot))
      omega

/-- Two calls are refused at once, and both are sent again. -/
def refusedTwice : List ApiLabel :=
  [.request false, .request false, .answered 0 401, .answered 1 401, .refreshAnswered 0 true,
    .refreshRead 0 ⟨"access-1".toList, "refresh-1".toList⟩, .finished 0, .resumed 1, .resumed 0]

def pairZero : TokenPair := ⟨"access-0".toList, "refresh-0".toList⟩

/-- The server redeems a token, its answer is not readable, and before the first call goes on the second one is refused. -/
def unreadable : List ApiLabel :=
  [.request false, .request false, .answered 0 401, .refreshAnswered 0 true, .refreshRejected 0, .finished 0, .answered 1 401]

theorem refresh_of_run_unreadable : ∃ c, Run step Fresh (loaded (some pairZero)) unreadable c ∧
    ∃ refresh, c.refreshes[0]? = some refresh ∧ refresh.redeemed = true ∧ refresh.failed = true := by
  obtain ⟨c, hrun, hend⟩ := Run.exists_of_exec
    (P := fun c : ApiClient => decide (c.refreshes.map (fun r => (r.sent, r.redeemed)) =
      [(some "refresh-0".toList, true), (some "refresh-0".toList, false)])) (s := loaded (some pairZero))
    (show (exec step Fresh _ unreadable).any _ = true by decide +kernel)
  obtain ⟨first, rest, hlist, hfirst, hrest⟩ := List.map_eq_cons_iff.mp (of_decide_eq_true hend)
  obtain ⟨second, rfl, hsecond⟩ := List.map_eq_singleton_iff.mp hrest
  have hzero : c.refreshes[0]? = some first := by rw [hlist]; rfl
  have hone : c.refreshes[1]? = some second := by rw [hlist]; rfl
  obtain ⟨hsent, hredeemed⟩ := Prod.mk.inj hfirst
  have hsame : second.sent = first.sent := (Prod.mk.inj hsecond).1.trans hsent.symm
  have hfailed := (refresh_of_run hrun).2.2 hrun 0 1 first second hzero hone Nat.zero_lt_one (by rw [hsent]; exact nofun) hsame
  exact ⟨c, hrun, first, hzero, hredeemed, hfailed.1⟩

/-! ## The calls -/

/-- What the requests of a call have been. -/
def CallSound (c : ApiClient) (call : Call) : Prop :=
  match call.pc with
  | .fetching false => call.bearers.length = 1
  | .fetching true => call.bearers.length = 2 ∧ call.skipAuth = false ∧ ∃ refresh ∈ c.refreshes, refresh.pc = .over true
  | .refreshing r => call.bearers.length = 1 ∧ call.skipAuth = false ∧ r < c.refreshes.length
  | .settled _ => call.bearers.length ≤ 2 ∧ (call.skipAuth = true → call.bearers.length = 1) ∧
    (call.bearers.length = 2 → ∃ refresh ∈ c.refreshes, refresh.pc = .over true)

/-- A refresh that is over stays so, and none is forgotten. -/
structure Onward (c c' : ApiClient) : Prop where
  length : c.refreshes.length ≤ c'.refreshes.length
  settled : ∀ refresh ∈ c.refreshes, refresh.pc = .over true → refresh ∈ c'.refreshes

theorem Onward.of_eq (h : c'.refreshes = c.refreshes) : Onward c c' := ⟨by rw [h], fun _ hmem _ => h ▸ hmem⟩

theorem Onward.set {new : Refresh} (hr : c.refreshes[r]? = some refresh) (hover : refresh.isOver = false)
    (h : c'.refreshes = c.refreshes.set r new) : Onward c c' := by
  refine ⟨by rw [h, List.length_set], fun rf hmem hrf => ?_⟩
  obtain ⟨i, hi⟩ := List.mem_iff_getElem?.mp hmem
  refine List.mem_iff_getElem?.mpr ⟨i, ?_⟩
  have hne : r ≠ i := by
    rintro rfl
    cases hr.symm.trans hi
    rw [Refresh.isOver, hrf] at hover
    cases hover
  rw [h, List.getElem?_set_ne hne, hi]

theorem onward_of_change {l : ApiLabel} (h : Change c l c') : Onward c c' := by
  cases h with
  | same hsame => exact .of_eq hsame.refreshes
  | begun hnone hsame =>
      refine ⟨?_, fun refresh hmem _ => ?_⟩
      · rw [hsame.refreshes, List.length_append]
        exact Nat.le_add_right _ _
      · rw [hsame.refreshes]
        exact List.mem_append_left _ hmem
  | advanced hr hadvance => exact .set hr hadvance.notOver.1 rfl
  | read hr hpc => exact .set hr (by simp [Refresh.isOver, hpc]) rfl
  | finished hr hpc => exact .set hr (by simp [Refresh.isOver, hpc]) rfl
  | stored pair => exact .of_eq rfl
  | cleared hwhy hsame => exact .of_eq hsame.refreshes

theorem CallSound.onward {call : Call} (h : c.CallSound call) (hon : Onward c c') : c'.CallSound call := by
  unfold CallSound at h ⊢
  split at h
  · exact h
  · obtain ⟨hlength, hauth, rf, hmem, hpc⟩ := h
    exact ⟨hlength, hauth, rf, hon.settled rf hmem hpc, hpc⟩
  · exact ⟨h.1, h.2.1, lt_of_lt_of_le h.2.2 hon.length⟩
  · refine ⟨h.1, h.2.1, fun htwo => ?_⟩
    obtain ⟨rf, hmem, hpc⟩ := h.2.2 htwo
    exact ⟨rf, hon.settled rf hmem hpc, hpc⟩

/-- A call is settled after its only request. -/
theorem CallSound.settled_one {call : Call} (h : call.bearers.length = 1) (status : Option ℕ) :
    c.CallSound { call with pc := .settled status } :=
  ⟨h.le.trans (by decide), fun _ => h, fun htwo => nomatch h.symm.trans htwo⟩

/-- A call is settled after its first or its second request. -/
theorem CallSound.settled {call : Call} {retried : Bool} (h : c.CallSound call) (hpc : call.pc = .fetching retried)
    (status : Option ℕ) : c.CallSound { call with pc := .settled status } := by
  unfold CallSound at h
  rw [hpc] at h
  cases retried with
  | false => exact .settled_one h status
  | true => exact ⟨h.1.le, fun hskip => absurd (hskip.symm.trans h.2.1) (by decide), fun _ => h.2.2⟩

theorem mem_setCall {i : ℕ} {call call' : Call} (h : call' ∈ (c.setCall i call).calls) : call' ∈ c.calls ∨ call' = call :=
  List.mem_or_eq_of_mem_set h

theorem refreshOnce_spec (h : c.Sound) : c.refreshOnce.1.calls = c.calls ∧
    c.refreshOnce.2 < c.refreshOnce.1.refreshes.length := by
  unfold refreshOnce
  split
  · rename_i r hr
    exact ⟨rfl, (h.promise r hr) ▸ Nat.lt_succ_self r⟩
  · exact ⟨rfl, by simp⟩

theorem calls_of_step {l : ApiLabel} (h : c.Sound) (hcalls : ∀ call ∈ c.calls, c.CallSound call) (hc' : c.step l = some c') :
    ∀ call ∈ c'.calls, c'.CallSound call := by
  have honward : Onward c c' := onward_of_change (change_of_step hc')
  have hkept : ∀ call ∈ c.calls, c'.CallSound call := fun call hmem => (hcalls call hmem).onward honward
  cases l with
  | request skipAuth =>
      cases hc'
      intro call hmem
      rcases List.mem_append.mp hmem with hmem | hmem
      · exact hkept call hmem
      · rw [List.mem_singleton.mp hmem]
        rfl
  | answered i status =>
      obtain ⟨call, hcall, hc'⟩ := Option.bind_eq_some_iff.mp hc'
      split at hc'
      · rename_i retried hpc
        cases hc'
        have hcall' := hkept call (List.mem_of_getElem? hcall)
        have hold := hcalls call (List.mem_of_getElem? hcall)
        unfold CallSound at hold
        rw [hpc] at hold
        intro call' hmem
        unfold answered at hmem hkept hcall' ⊢
        split at hmem
        · rename_i hrefused
          rw [if_pos hrefused] at hkept ⊢
          obtain ⟨heq, hlt⟩ := refreshOnce_spec h
          rcases mem_setCall hmem with hmem | rfl
          · exact hkept call' (heq ▸ hmem)
          · obtain ⟨-, hauth, rfl, -⟩ := hrefused
            exact ⟨hold, hauth, hlt⟩
        · rename_i hother
          rw [if_neg hother] at hkept hcall' ⊢
          rcases mem_setCall hmem with hmem | rfl
          · exact hkept call' hmem
          · exact hcall'.settled hpc _
      · cases hc'
  | rejected i =>
      obtain ⟨call, hcall, hc'⟩ := Option.bind_eq_some_iff.mp hc'
      split at hc'
      · rename_i retried hpc
        cases hc'
        intro call' hmem
        rcases mem_setCall hmem with hmem | rfl
        · exact hkept call' hmem
        · exact (hkept call (List.mem_of_getElem? hcall)).settled hpc _
      · cases hc'
  | refreshAnswered r ok =>
      obtain ⟨refresh, hr, hc'⟩ := Option.bind_eq_some_iff.mp hc'
      split at hc'
      · cases hc'
        exact hkept
      · cases hc'
  | refreshRejected r =>
      obtain ⟨refresh, hr, hc'⟩ := Option.bind_eq_some_iff.mp hc'
      split at hc'
      · cases hc'
        exact hkept
      · cases hc'
  | refreshRead r pair =>
      obtain ⟨refresh, hr, hc'⟩ := Option.bind_eq_some_iff.mp hc'
      split at hc'
      · cases hc'
        exact hkept
      · cases hc'
  | finished r =>
      obtain ⟨refresh, hr, hc'⟩ := Option.bind_eq_some_iff.mp hc'
      split at hc'
      · cases hc'
        exact hkept
      · cases hc'
  | resumed i =>
      obtain ⟨call, hcall, hc'⟩ := Option.bind_eq_some_iff.mp hc'
      split at hc'
      · rename_i r hpc
        obtain ⟨refresh, hr, hc'⟩ := Option.bind_eq_some_iff.mp hc'
        split at hc'
        · rename_i result hover
          cases hc'
          have hold := hcalls call (List.mem_of_getElem? hcall)
          unfold CallSound at hold
          rw [hpc] at hold
          intro call' hmem
          cases result with
          | true =>
              rcases mem_setCall hmem with hmem | rfl
              · exact hkept call' hmem
              · refine ⟨?_, hold.2.1, refresh, List.mem_of_getElem? hr, hover⟩
                rw [List.length_append, hold.1]
                rfl
          | false =>
              rcases mem_setCall hmem with hmem | rfl
              · exact hkept call' hmem
              · exact .settled_one hold.1 _
        · cases hc'
      · cases hc'
  | signedIn pair =>
      cases hc'
      exact hkept
  | signedOut =>
      cases hc'
      exact hkept

/-- **The calls** in every run: each makes at most two requests, the second one only after a refresh that has brought new tokens;
one that sends no token makes only one; and one that waits for a refresh goes on when that is over. -/
theorem calls_of_run {ok : ApiClient → ApiLabel → Prop} {ls : List ApiLabel} {before : Option TokenPair}
    (h : Run step ok (loaded before) ls c) {i : ℕ} {call : Call} (hcall : c.calls[i]? = some call) :
    call.bearers.length ≤ 2 ∧ (call.skipAuth = true → call.bearers.length = 1) ∧
    (call.pc = .fetching true ∨ call.bearers.length = 2 → ∃ refresh ∈ c.refreshes, refresh.pc = .over true) ∧
    ∀ r, call.pc = .refreshing r → ∃ refresh, c.refreshes[r]? = some refresh ∧
      (refresh.isOver = true → (c.step (.resumed i)).isSome = true) := by
  have hempty : ∀ call ∈ (loaded before).calls, (loaded before).CallSound call := by cases before <;> simp [loaded, storeTokens]
  have hinv : c.Sound ∧ ∀ call ∈ c.calls, c.CallSound call := by
    refine h.invariant (I := fun c => c.Sound ∧ ∀ call ∈ c.calls, c.CallSound call) ⟨sound_loaded before, hempty⟩ ?_
    intro c l c' ⟨hs, hcalls⟩ _ hc'
    exact ⟨hs.change (change_of_step hc'), calls_of_step hs hcalls hc'⟩
  have hsound := hinv.2 call (List.mem_of_getElem? hcall)
  have hother : ∀ {pc pc' : Call.Pc}, call.pc = pc → pc ≠ pc' → call.pc ≠ pc' := fun hpc hne heq => hne (hpc.symm.trans heq)
  unfold CallSound at hsound
  split at hsound
  · rename_i hpc
    refine ⟨hsound.le.trans (by decide), fun _ => hsound, ?_, fun r heq => absurd heq (hother hpc nofun)⟩
    rintro (heq | htwo)
    · exact absurd heq (hother hpc (by decide))
    · cases hsound.symm.trans htwo
  · rename_i hpc
    refine ⟨hsound.1.le, fun hskip => ?_, fun _ => hsound.2.2, fun r heq => absurd heq (hother hpc nofun)⟩
    exact absurd (hskip.symm.trans hsound.2.1) (by decide)
  · rename_i r hpc
    refine ⟨hsound.1.le.trans (by decide), fun _ => hsound.1, ?_, ?_⟩
    · rintro (heq | htwo)
      · exact absurd heq (hother hpc nofun)
      · cases hsound.1.symm.trans htwo
    · intro r' heq
      obtain rfl := Call.Pc.refreshing.inj (hpc.symm.trans heq)
      obtain ⟨refresh, hr⟩ : ∃ refresh, c.refreshes[r]? = some refresh := ⟨_, List.getElem?_eq_getElem hsound.2.2⟩
      refine ⟨refresh, hr, fun hover => ?_⟩
      have hresult : ∃ result, refresh.pc = .over result := by
        rw [Refresh.isOver, Bool.or_eq_true, decide_eq_true_eq, decide_eq_true_eq] at hover
        exact hover.elim (fun h => ⟨true, h⟩) (fun h => ⟨false, h⟩)
      obtain ⟨result, hresult⟩ := hresult
      simp [step, hcall, hpc, hr, hresult]
  · rename_i hpc
    refine ⟨hsound.1, hsound.2.1, ?_, fun r heq => absurd heq (hother hpc nofun)⟩
    rintro (heq | htwo)
    · exact absurd heq (hother hpc nofun)
    · exact hsound.2.2 htwo

/-- The second of the two calls waits while the first one goes on. -/
theorem calls_of_run_refusedTwice : ∃ (c : ApiClient) (call : Call),
    Run step Fresh (loaded (some pairZero)) (refusedTwice.take 7) c ∧ c.calls[1]? = some call ∧
    (c.step (.resumed 1)).isSome = true := by
  obtain ⟨c, hrun, hend⟩ := Run.exists_of_exec
    (P := fun c : ApiClient => decide (c.calls[1]?.map Call.pc = some (.refreshing 0) ∧
      c.refreshes.map Refresh.isOver = [true])) (s := loaded (some pairZero))
    (show (exec step Fresh _ (refusedTwice.take 7)).any _ = true by decide +kernel)
  obtain ⟨hcall, hover⟩ := of_decide_eq_true hend
  obtain ⟨call, hcall, hpc⟩ := Option.map_eq_some_iff.mp hcall
  obtain ⟨refresh, hr, hresumed⟩ := (calls_of_run hrun hcall).2.2.2 0 hpc
  obtain ⟨only, honly, hdone⟩ := List.map_eq_singleton_iff.mp hover
  rw [honly] at hr
  cases hr
  exact ⟨c, call, hrun, hcall, hresumed hdone⟩

/-! ## The tokens -/

/-- A refresh has failed, or the tokens are those of the pair that was stored last, if there is one. -/
def Kept (c : ApiClient) : Prop := (∃ refresh ∈ c.refreshes, refresh.failed = true) ∨ c.stored = [] ∨ c.Latest

theorem Kept.same (h : c.Kept) (hsame : Same c c') : c'.Kept := by
  rcases h with hfailed | hempty | hlatest
  · exact Or.inl (hsame.refreshes ▸ hfailed)
  · exact Or.inr (Or.inl (hsame.stored.trans hempty))
  · exact Or.inr (Or.inr (hlatest.same hsame))

/-- A refresh that has failed stays so. -/
theorem Kept.set {new : Refresh} (h : c.Kept) (hr : c.refreshes[r]? = some refresh)
    (hfailed : refresh.failed = true → new.failed = true) (hrefreshes : c'.refreshes = c.refreshes.set r new)
    (htokens : c.stored = [] ∨ c.Latest → c'.stored = [] ∨ c'.Latest) : c'.Kept := by
  rcases h with ⟨rf, hmem, hrf⟩ | hkept
  · left
    obtain ⟨i, hi⟩ := List.mem_iff_getElem?.mp hmem
    by_cases hri : r = i
    · subst hri
      cases hr.symm.trans hi
      exact ⟨_, hrefreshes ▸ List.mem_set (List.getElem?_eq_some_iff.mp hr).1 _, hfailed hrf⟩
    · exact ⟨rf, List.mem_of_getElem? (by rw [hrefreshes, List.getElem?_set_ne hri, hi]), hrf⟩
  · exact Or.inr (htokens hkept)

theorem Kept.change {l : ApiLabel} (h : c.Kept) (hl : l ≠ .signedOut) (hc' : Change c l c') : c'.Kept := by
  cases hc' with
  | same hsame => exact h.same hsame
  | begun hnone hsame =>
      have hbegun : ({ c with
          refreshes := c.refreshes ++ [c.refreshAccessToken], refreshPromise := some c.refreshes.length } : ApiClient).Kept :=
        h.imp_left (fun ⟨refresh, hmem, hfailed⟩ => ⟨refresh, List.mem_append_left _ hmem, hfailed⟩)
      exact hbegun.same hsame
  | advanced hr hadvance =>
      obtain ⟨-, -, -, -, hgood⟩ := hadvance.notOver
      exact h.set hr (fun hfailed => nomatch hgood.symm.trans hfailed) rfl (fun hkept => hkept)
  | read hr hpc => exact Or.inr (Or.inr ⟨c.stored, _, rfl, rfl, rfl⟩)
  | finished hr hpc =>
      refine h.set hr (fun hfailed => ?_) rfl (fun hkept => hkept)
      rename_i result
      have hresult : result = false := by simpa [Refresh.failed, hpc] using hfailed
      rw [hresult]
      rfl
  | stored pair => exact Or.inr (Or.inr ⟨c.stored, pair, rfl, rfl, rfl⟩)
  | cleared hwhy hsame =>
      obtain ⟨refresh, hmem, hfailed⟩ := hwhy.resolve_left hl
      exact Or.inl ⟨refresh, hsame.refreshes ▸ hmem, hfailed⟩

/-- **The user stays signed in**: in every run in which the user does not sign out and no refresh fails, the page has the tokens
of the pair that was stored last, if one was stored, whatever the requests are answered. -/
theorem signedIn_of_run {ok : ApiClient → ApiLabel → Prop} {ls : List ApiLabel} {before : Option TokenPair}
    (h : Run step ok (loaded before) ls c) (hin : .signedOut ∉ ls)
    (hgood : ∀ refresh ∈ c.refreshes, refresh.failed = false) : c.stored = [] ∨ c.Latest := by
  have hloaded : (loaded before).Kept := by
    cases before with
    | none => exact Or.inr (Or.inl rfl)
    | some pair => exact Or.inr (Or.inr ⟨[], pair, rfl, rfl, rfl⟩)
  have hkept : c.Kept := by
    have hrun := h.labels (P := fun l => l ≠ .signedOut) (fun l hl heq => hin (heq ▸ hl))
    exact hrun.invariant hloaded (fun hk hl hc' => hk.change hl.2 (change_of_step hc'))
  rcases hkept with ⟨refresh, hmem, hfailed⟩ | hkept
  · rw [hgood refresh hmem] at hfailed
    cases hfailed
  · exact hkept

/-- The user signs in, and two calls are refused at once. -/
theorem signedIn_of_run_refusedTwice : ∃ c, Run step (fun _ _ => True) (loaded none) (.signedIn pairZero :: refusedTwice) c ∧
    c.Latest ∧ c.accessToken = some "access-1".toList := by
  obtain ⟨c, hrun, hend⟩ := Run.exists_of_exec
    (P := fun c : ApiClient => decide ((∀ refresh ∈ c.refreshes, refresh.failed = false) ∧
      c.accessToken = some "access-1".toList ∧ c.stored ≠ [])) (s := loaded none)
    (show (exec step (fun _ _ => True) _ (.signedIn pairZero :: refusedTwice)).any _ = true by decide +kernel)
  obtain ⟨hgood, haccess, hstored⟩ := of_decide_eq_true hend
  exact ⟨c, hrun, (signedIn_of_run hrun (by decide) hgood).resolve_left hstored, haccess⟩

end ApiClient

end Voxera.Dashboard
