import Voxera.Numbers
import Voxera.SlidingWindow
import Voxera.Text
import Mathlib.Algebra.Order.Field.Rat
import Mathlib.Logic.Function.Basic
import Mathlib.Tactic.Push

/-!
# `_SlidingWindowCounter`

The deques of the source are lists, the oldest time first, and a key that was never used has the empty one. The clock is
`time.monotonic`, exact, and read once in a call.

* `SlidingWindowCounter.allow` : the method, at a reading of the clock;
* `answers`, `after`, `admitted` : the answers to a sequence of calls, the counter after it, and the times of the
  calls for one key that it allowed;
* `Tracks` : what the deques hold, against the times that were admitted (`tracks_after`);
* `exactWindow_iff` : the law of the limiter, and for which sequences of calls it holds.
-/

namespace Voxera.RateLimit

open SlidingWindow

structure SlidingWindowCounter where
  limit : ℤ
  windowSeconds : ℤ
  /-- `_events` -/
  events : Text → List ℚ := fun _ => []

inductive Allowance where
  | allowed
  | denied (retryAfter : ℤ)
  /-- `window[0]` of an empty deque. -/
  | indexError
  deriving DecidableEq, Repr

/-- A call of `allow`. -/
structure Call where
  key : Text
  now : ℚ
  deriving DecidableEq

namespace SlidingWindowCounter

/-- `__init__` -/
def init (limit windowSeconds : ℤ) : SlidingWindowCounter := { limit, windowSeconds }

@[simp] theorem init_limit (limit windowSeconds : ℤ) : (init limit windowSeconds).limit = limit := rfl

@[simp] theorem init_windowSeconds (limit windowSeconds : ℤ) :
    (init limit windowSeconds).windowSeconds = windowSeconds := rfl

/-- The deque of a key after the eviction. -/
def window (c : SlidingWindowCounter) (call : Call) : List ℚ := evict (call.now - c.windowSeconds) (c.events call.key)

/-- `max(1, int(self.window_seconds - (now - window[0])))` -/
def retryAfter (c : SlidingWindowCounter) (now oldest : ℚ) : ℤ := max 1 (trunc (c.windowSeconds - (now - oldest)))

def setEvents (c : SlidingWindowCounter) (key : Text) (times : List ℚ) : SlidingWindowCounter :=
  { c with events := Function.update c.events key times }

def allow (c : SlidingWindowCounter) (call : Call) : Allowance × SlidingWindowCounter :=
  let window := c.window call
  if c.limit ≤ window.length then
    (match window with
      | [] => .indexError
      | oldest :: _ => .denied (c.retryAfter call.now oldest), c.setEvents call.key window)
  else (.allowed, c.setEvents call.key (window ++ [call.now]))

def answers (c : SlidingWindowCounter) : List Call → List Allowance
  | [] => []
  | call :: calls => (c.allow call).1 :: answers (c.allow call).2 calls

def after (c : SlidingWindowCounter) : List Call → SlidingWindowCounter
  | [] => c
  | call :: calls => after (c.allow call).2 calls

/-- The times of the calls for `key` that were allowed. -/
def admitted (c : SlidingWindowCounter) (key : Text) : List Call → List ℚ
  | [] => []
  | call :: calls =>
    (if call.key = key ∧ (c.allow call).1 = .allowed then [call.now] else []) ++ admitted (c.allow call).2 key calls

/-- The answers to the calls for `key`. -/
def answersFor (c : SlidingWindowCounter) (key : Text) : List Call → List Allowance
  | [] => []
  | call :: calls => (if call.key = key then [(c.allow call).1] else []) ++ answersFor (c.allow call).2 key calls

/-! ## One call -/

section Allow
variable {c : SlidingWindowCounter} {call : Call} {key : Text}

/-- No room at the call: as many times count as the limit allows. -/
def Exhausted (c : SlidingWindowCounter) (call : Call) : Prop := c.limit ≤ (c.window call).length

instance : Decidable (c.Exhausted call) := inferInstanceAs (Decidable (_ ≤ _))

theorem allow_of_exhausted (h : c.Exhausted call) :
    (c.allow call).2 = c.setEvents call.key (c.window call) ∧ (c.allow call).1 ≠ .allowed := by
  unfold Exhausted at h
  simp only [allow, if_pos h, true_and]
  split <;> simp

theorem allow_denied {oldest : ℚ} {more : List ℚ} (h : c.Exhausted call) (hw : c.window call = oldest :: more) :
    (c.allow call).1 = .denied (c.retryAfter call.now oldest) := by
  rw [Exhausted, hw] at h
  simp only [allow, hw, if_pos h]

theorem allow_of_not_exhausted (h : ¬c.Exhausted call) :
    c.allow call = (.allowed, c.setEvents call.key (c.window call ++ [call.now])) := if_neg h

theorem allowed_iff : (c.allow call).1 = .allowed ↔ ¬c.Exhausted call := by
  constructor
  · intro h hex
    exact (allow_of_exhausted hex).2 h
  · intro h
    rw [allow_of_not_exhausted h]

theorem exhausted_of_denied {r : ℤ} (h : (c.allow call).1 = .denied r) : c.Exhausted call := by
  by_contra hroom
  rw [allowed_iff.mpr hroom] at h
  exact absurd h (by simp)

@[simp] theorem allow_limit : (c.allow call).2.limit = c.limit := by
  by_cases h : c.Exhausted call
  · rw [(allow_of_exhausted h).1]
    rfl
  · rw [allow_of_not_exhausted h]
    rfl

@[simp] theorem allow_windowSeconds : (c.allow call).2.windowSeconds = c.windowSeconds := by
  by_cases h : c.Exhausted call
  · rw [(allow_of_exhausted h).1]
    rfl
  · rw [allow_of_not_exhausted h]
    rfl

theorem allow_events_of_ne (h : key ≠ call.key) : (c.allow call).2.events key = c.events key := by
  by_cases hex : c.Exhausted call
  · rw [(allow_of_exhausted hex).1]
    exact Function.update_of_ne h _ _
  · rw [allow_of_not_exhausted hex]
    exact Function.update_of_ne h _ _

/-- A refused call evicts and leaves no other trace. -/
theorem allow_events_of_exhausted (h : c.Exhausted call) : (c.allow call).2.events call.key = c.window call := by
  rw [(allow_of_exhausted h).1]
  exact Function.update_self ..

theorem allow_events_of_room (h : ¬c.Exhausted call) :
    (c.allow call).2.events call.key = c.window call ++ [call.now] := by
  rw [allow_of_not_exhausted h]
  exact Function.update_self ..

/-- Of the deques, only what the eviction leaves counts. -/
theorem allow_fst_congr {d : SlidingWindowCounter} (hlimit : c.limit = d.limit)
    (hwindow : c.windowSeconds = d.windowSeconds) (hw : c.window call = d.window call) :
    (c.allow call).1 = (d.allow call).1 := by
  simp only [allow, retryAfter, hw, hlimit, hwindow]
  split <;> rfl

theorem allow_events_congr {d : SlidingWindowCounter} (hlimit : c.limit = d.limit)
    (hw : c.window call = d.window call) : (c.allow call).2.events call.key = (d.allow call).2.events call.key := by
  have hex : c.Exhausted call ↔ d.Exhausted call := by rw [Exhausted, Exhausted, hw, hlimit]
  by_cases h : c.Exhausted call
  · rw [allow_events_of_exhausted h, allow_events_of_exhausted (hex.mp h), hw]
  · rw [allow_events_of_room h, allow_events_of_room (fun hd => h (hex.mpr hd)), hw]

end Allow

/-! ## Sequences of calls -/

section Runs
variable {c : SlidingWindowCounter} {key : Text} {calls more : List Call}

@[simp] theorem after_limit : (c.after calls).limit = c.limit := by
  induction calls generalizing c with
  | nil => rfl
  | cons call calls ih => rw [after, ih, allow_limit]

@[simp] theorem after_windowSeconds : (c.after calls).windowSeconds = c.windowSeconds := by
  induction calls generalizing c with
  | nil => rfl
  | cons call calls ih => rw [after, ih, allow_windowSeconds]

theorem after_append : c.after (calls ++ more) = (c.after calls).after more := by
  induction calls generalizing c with
  | nil => rfl
  | cons call calls ih => rw [List.cons_append, after, after, ih]

/-- Two counters that hold the same times for a key answer the same to the calls for it. -/
theorem answersFor_eq {d : SlidingWindowCounter} (hlimit : c.limit = d.limit)
    (hwindow : c.windowSeconds = d.windowSeconds) (hevents : c.events key = d.events key) :
    c.answersFor key calls = d.answers (calls.filter (fun call => call.key = key)) := by
  induction calls generalizing c d with
  | nil => rfl
  | cons call calls ih =>
      by_cases hkey : call.key = key
      · subst hkey
        have hw : c.window call = d.window call := by rw [window, window, hwindow, hevents]
        rw [answersFor, if_pos rfl, List.filter_cons_of_pos (by simp), answers, allow_fst_congr hlimit hwindow hw,
          ih (by simp [hlimit]) (by simp [hwindow]) (allow_events_congr hlimit hw), List.singleton_append]
      · rw [answersFor, if_neg hkey, List.filter_cons_of_neg (by simpa using hkey), List.nil_append]
        refine ih (by simp [hlimit]) (by simp [hwindow]) ?_
        rw [allow_events_of_ne (fun h => hkey h.symm), hevents]

end Runs

/-! ## What the deques hold -/

/-- The clock does not go back. -/
def Ordered (calls : List Call) : Prop := calls.Pairwise (·.now ≤ ·.now)

instance (calls : List Call) : Decidable (Ordered calls) := inferInstanceAs (Decidable (List.Pairwise _ _))

/-- What the deques hold at the time `t`, when `times key` were admitted before it. -/
structure Tracks (c : SlidingWindowCounter) (times : Text → List ℚ) (t : ℚ) : Prop where
  sorted : ∀ key, (times key).Pairwise (· ≤ ·)
  le : ∀ key, ∀ x ∈ times key, x ≤ t
  kept : ∀ key, evict (t - c.windowSeconds) (c.events key) = evict (t - c.windowSeconds) (times key)
  bounded : ∀ key x, (inWindow (c.windowSeconds : ℚ) x (times key)).length ≤ c.limit.toNat

section Tracks
variable {c : SlidingWindowCounter} {times : Text → List ℚ} {t t' : ℚ}

theorem tracks_init (limit windowSeconds : ℤ) (t : ℚ) : Tracks (init limit windowSeconds) (fun _ => []) t where
  sorted _ := .nil
  le _ _ h := nomatch h
  kept _ := rfl
  bounded _ _ := Nat.zero_le _

theorem Tracks.mono (h : Tracks c times t) (ht : t ≤ t') : Tracks c times t' where
  sorted := h.sorted
  le key x hx := (h.le key x hx).trans ht
  kept key := by
    have hcut : t - c.windowSeconds ≤ t' - c.windowSeconds := by linarith
    rw [← evict_evict hcut, h.kept key, evict_evict hcut]
  bounded := h.bounded

theorem Tracks.window_eq {call : Call} (h : Tracks c times call.now) :
    c.window call = inWindow (c.windowSeconds : ℚ) call.now (times call.key) := by
  rw [window, h.kept call.key, evict_eq_inWindow (h.sorted call.key) (h.le call.key)]

/-- A call keeps the deques in step with what is admitted. -/
theorem Tracks.allow {call : Call} (h : Tracks c times call.now) (hw : 1 ≤ c.windowSeconds) :
    Tracks (c.allow call).2
      (fun key => times key ++ if call.key = key ∧ (c.allow call).1 = .allowed then [call.now] else []) call.now := by
  have hcut : call.now - c.windowSeconds < call.now := by
    have : (1 : ℚ) ≤ c.windowSeconds := by exact_mod_cast hw
    linarith
  by_cases hex : c.Exhausted call
  · have hno : ∀ key, ¬(call.key = key ∧ (c.allow call).1 = .allowed) := fun _ hk => allowed_iff.mp hk.2 hex
    simp only [hno, if_false, List.append_nil]
    refine ⟨h.sorted, h.le, fun key => ?_, fun key x => ?_⟩
    · by_cases hkey : key = call.key
      · rw [hkey, allow_events_of_exhausted hex, allow_windowSeconds, window, evict_evict le_rfl, h.kept]
      · rw [allow_events_of_ne hkey, allow_windowSeconds, h.kept]
    · simpa using h.bounded key x
  · have hyes : (c.allow call).1 = .allowed := allowed_iff.mpr hex
    simp only [hyes, and_true]
    refine ⟨fun key => ?_, fun key x hx => ?_, fun key => ?_, fun key x => ?_⟩
    · by_cases hkey : call.key = key
      · rw [if_pos hkey, List.pairwise_append]
        refine ⟨h.sorted key, List.pairwise_singleton _ _, fun x hx y hy => ?_⟩
        rw [List.mem_singleton.mp hy]
        exact h.le key x hx
      · rw [if_neg hkey, List.append_nil]
        exact h.sorted key
    · rcases List.mem_append.mp hx with hx | hx
      · exact h.le key x hx
      · split at hx
        · exact (List.mem_singleton.mp hx).le
        · exact nomatch hx
    · by_cases hkey : call.key = key
      · subst hkey
        rw [if_pos rfl, allow_events_of_room hex, allow_windowSeconds, evict_concat hcut, evict_concat hcut, window,
          evict_evict le_rfl, h.kept]
      · rw [if_neg hkey, List.append_nil, allow_events_of_ne (fun he => hkey he.symm), allow_windowSeconds, h.kept]
    · rw [allow_windowSeconds, allow_limit]
      by_cases hkey : call.key = key
      · subst hkey
        rw [if_pos rfl]
        refine length_inWindow_concat (h.le call.key) ?_ (h.bounded call.key) x
        rw [← h.window_eq]
        unfold Exhausted at hex
        omega
      · rw [if_neg hkey, List.append_nil]
        exact h.bounded key x

/-- What a sequence of calls leaves behind. -/
theorem Tracks.after (h : Tracks c times t) (hw : 1 ≤ c.windowSeconds) {calls : List Call} (hc : Ordered calls)
    (hfrom : ∀ call ∈ calls, t ≤ call.now) (hto : ∀ call ∈ calls, call.now ≤ t') (ht : t ≤ t') :
    Tracks (c.after calls) (fun key => times key ++ c.admitted key calls) t' := by
  induction calls generalizing c times t with
  | nil =>
      simp only [admitted, List.append_nil]
      exact h.mono ht
  | cons call calls ih =>
      have hc' := List.pairwise_cons.mp hc
      have hfirst := (h.mono (hfrom call (by simp))).allow hw
      have hrest := ih hfirst (by simpa using hw) hc'.2 hc'.1 (fun x hx => hto x (by simp [hx])) (hto call (by simp))
      simpa only [SlidingWindowCounter.after, admitted, List.append_assoc] using hrest

end Tracks

theorem exists_last (calls : List Call) : ∃ last : ℚ, ∀ call ∈ calls, call.now ≤ last := by
  induction calls with
  | nil => exact ⟨0, fun _ h => nomatch h⟩
  | cons call calls ih =>
      obtain ⟨last, hlast⟩ := ih
      refine ⟨max call.now last, fun x hx => ?_⟩
      rcases List.mem_cons.mp hx with rfl | hx
      · exact le_max_left _ _
      · exact (hlast x hx).trans (le_max_right _ _)

theorem tracks_after (limit : ℤ) {windowSeconds : ℤ} (hw : 1 ≤ windowSeconds) {calls : List Call} (hc : Ordered calls)
    {t : ℚ} (hto : ∀ call ∈ calls, call.now ≤ t) :
    Tracks ((init limit windowSeconds).after calls) (fun key => (init limit windowSeconds).admitted key calls) t := by
  cases calls with
  | nil => exact tracks_init limit windowSeconds t
  | cons call calls =>
      have hfrom : ∀ x ∈ call :: calls, call.now ≤ x.now := by
        intro x hx
        rcases List.mem_cons.mp hx with rfl | hx
        · exact le_rfl
        · exact (List.pairwise_cons.mp hc).1 x hx
      simpa using (tracks_init limit windowSeconds call.now).after hw hc hfrom hto (hto call (by simp))

/-! ## The law of the limiter -/

/-- The limiter is an exact sliding window over `calls`, and its `retry_after` is the truth. -/
structure ExactWindow (limit windowSeconds : ℤ) (calls : List Call) : Prop where
  /-- A call is allowed when fewer than `limit` calls for its key were allowed in the window that ends with it. -/
  exact : ∀ before call rest, calls = before ++ call :: rest →
    ((((init limit windowSeconds).after before).allow call).1 = .allowed ↔
      ((inWindow (windowSeconds : ℚ) call.now
        ((init limit windowSeconds).admitted call.key before)).length : ℤ) < limit)
  bounded : ∀ key t,
    ((inWindow (windowSeconds : ℚ) t ((init limit windowSeconds).admitted key calls)).length : ℤ) ≤ limit
  /-- The answers for a key are those of a limiter that is only called for it. -/
  separate : ∀ key, (init limit windowSeconds).answersFor key calls =
    (init limit windowSeconds).answers (calls.filter (fun call => call.key = key))
  /-- Who comes back after `retry_after` seconds, with no call for the key allowed in between, is let in. -/
  truthful : ∀ before call rest r, calls = before ++ call :: rest →
    (((init limit windowSeconds).after before).allow call).1 = .denied r →
    ∀ later t, Ordered (call :: later ++ [⟨call.key, t⟩]) →
      ((init limit windowSeconds).after (before ++ [call])).admitted call.key later = [] → call.now + r ≤ t →
      (((init limit windowSeconds).after (before ++ call :: later)).allow ⟨call.key, t⟩).1 = .allowed

/-- At every call that finds no room, the oldest call that counts stops to do so within a second, or after a whole
number of seconds. -/
def WholeSeconds (limit windowSeconds : ℤ) (calls : List Call) : Prop :=
  ∀ before call rest oldest more, calls = before ++ call :: rest →
    inWindow (windowSeconds : ℚ) call.now ((init limit windowSeconds).admitted call.key before) = oldest :: more →
    limit ≤ (oldest :: more).length →
    windowSeconds - (call.now - oldest) ≤ 1 ∨ ∃ n : ℤ, windowSeconds - (call.now - oldest) = n

section Law
variable {limit windowSeconds : ℤ} {calls before rest later : List Call} {call : Call} {oldest t : ℚ} {more : List ℚ}

variable (limit) in
theorem tracks_before (hw : 1 ≤ windowSeconds) (hc : Ordered (before ++ call :: rest)) :
    Tracks ((init limit windowSeconds).after before) (fun key => (init limit windowSeconds).admitted key before)
      call.now := by
  have hsplit := List.pairwise_append.mp hc
  exact tracks_after limit hw hsplit.1 (fun x hx => hsplit.2.2 x hx call (by simp))

theorem window_before (hw : 1 ≤ windowSeconds) (hc : Ordered (before ++ call :: rest)) :
    ((init limit windowSeconds).after before).window call =
      inWindow (windowSeconds : ℚ) call.now ((init limit windowSeconds).admitted call.key before) := by
  have h := (tracks_before limit hw hc).window_eq
  rw [after_windowSeconds] at h
  exact h

/-- The deque of a refused call when its key is called again, no call for the key having been allowed meanwhile. -/
theorem window_later (hw : 1 ≤ windowSeconds) (hc : Ordered (before ++ call :: rest))
    (hex : ((init limit windowSeconds).after before).Exhausted call)
    (hlater : Ordered (call :: later ++ [⟨call.key, t⟩]))
    (hnone : ((init limit windowSeconds).after (before ++ [call])).admitted call.key later = []) :
    ((init limit windowSeconds).after (before ++ call :: later)).window ⟨call.key, t⟩ =
      evict (t - windowSeconds) (((init limit windowSeconds).after before).window call) := by
  have hsplit := List.pairwise_append.mp hlater
  have hhead := List.pairwise_cons.mp hsplit.1
  have ht : call.now ≤ t := hsplit.2.2 call (by simp) ⟨call.key, t⟩ (by simp)
  have hcut : call.now - windowSeconds ≤ t - windowSeconds := by linarith
  have hrefused : (((init limit windowSeconds).after before).allow call).1 ≠ .allowed := fun h => allowed_iff.mp h hex
  have h0 := tracks_before limit hw hc
  have h1 := h0.allow (by simpa using hw)
  have h2 := h1.after (by simpa using hw) hhead.2 hhead.1
    (fun x hx => hsplit.2.2 x (by simp [hx]) ⟨call.key, t⟩ (by simp)) ht
  have hafter : (init limit windowSeconds).after (before ++ [call]) =
      (((init limit windowSeconds).after before).allow call).2 := by rw [after_append]; rfl
  have hstate : (init limit windowSeconds).after (before ++ call :: later) =
      (((init limit windowSeconds).after before).allow call).2.after later := by rw [after_append]; rfl
  have hkept := h2.kept call.key
  rw [hafter] at hnone
  simp only [hrefused, and_false, if_false, List.append_nil, hnone, after_windowSeconds, allow_windowSeconds] at hkept
  have hkept0 := h0.kept call.key
  rw [after_windowSeconds] at hkept0
  rw [hstate, window, window]
  simp only [after_windowSeconds, allow_windowSeconds]
  rw [init_windowSeconds] at hkept hkept0 ⊢
  rw [hkept, hkept0, evict_evict hcut]

/-- While no call for the key of a refused call is allowed, the next one that is comes when the oldest call that
counted no longer does. -/
theorem allowed_later_iff (hw : 1 ≤ windowSeconds) (hc : Ordered (before ++ call :: rest))
    (hwin : ((init limit windowSeconds).after before).window call = oldest :: more)
    (hex : ((init limit windowSeconds).after before).Exhausted call)
    (hlater : Ordered (call :: later ++ [⟨call.key, t⟩]))
    (hnone : ((init limit windowSeconds).after (before ++ [call])).admitted call.key later = []) :
    (((init limit windowSeconds).after (before ++ call :: later)).allow ⟨call.key, t⟩).1 = .allowed ↔
      oldest + windowSeconds ≤ t := by
  have hlimit : (oldest :: more).length ≤ limit.toNat := by
    have h := (tracks_before limit hw hc).bounded call.key call.now
    rw [after_windowSeconds, after_limit] at h
    rw [← hwin, window_before hw hc]
    exact h
  rw [allowed_iff, Exhausted, window_later hw hc hex hlater hnone, hwin]
  rw [Exhausted, hwin] at hex
  simp only [after_limit, init_limit, List.length_cons] at hex hlimit ⊢
  by_cases hold : oldest + windowSeconds ≤ t
  · rw [evict_cons_of_le (by linarith)]
    have := (evict_suffix (t - windowSeconds) more).length_le
    constructor
    · intro _
      exact hold
    · intro _
      omega
  · rw [evict_cons_of_lt (by linarith)]
    constructor
    · intro h
      exact absurd hex h
    · intro h
      exact absurd h hold

theorem le_retryAfter_iff {c : SlidingWindowCounter} {now : ℚ} (h : now - c.windowSeconds < oldest) :
    c.windowSeconds - (now - oldest) ≤ c.retryAfter now oldest ↔
      c.windowSeconds - (now - oldest) ≤ 1 ∨ ∃ n : ℤ, c.windowSeconds - (now - oldest) = n := by
  have hpos : 0 ≤ c.windowSeconds - (now - oldest) := by linarith
  rw [retryAfter, Int.cast_max, le_max_iff, Int.cast_one, le_trunc_iff hpos]

theorem answer_eq_denied {r : ℤ} (h : (((init limit windowSeconds).after before).allow call).1 = .denied r) :
    ∃ oldest more, ((init limit windowSeconds).after before).window call = oldest :: more ∧
      r = ((init limit windowSeconds).after before).retryAfter call.now oldest := by
  have hex := exhausted_of_denied h
  cases hwin : ((init limit windowSeconds).after before).window call with
  | nil =>
      simp only [allow, hwin] at h
      split at h <;> simp at h
  | cons oldest more =>
      rw [allow_denied hex hwin] at h
      exact ⟨oldest, more, rfl, (Allowance.denied.inj h).symm⟩

theorem exact_before (hw : 1 ≤ windowSeconds) (hc : Ordered (before ++ call :: rest)) :
    (((init limit windowSeconds).after before).allow call).1 = .allowed ↔
      ((inWindow (windowSeconds : ℚ) call.now
        ((init limit windowSeconds).admitted call.key before)).length : ℤ) < limit := by
  rw [allowed_iff, Exhausted, window_before hw hc, after_limit]
  exact not_le

theorem bounded_after (hl : 1 ≤ limit) (hw : 1 ≤ windowSeconds) (hc : Ordered calls) (key : Text) (t : ℚ) :
    ((inWindow (windowSeconds : ℚ) t ((init limit windowSeconds).admitted key calls)).length : ℤ) ≤ limit := by
  obtain ⟨last, hlast⟩ := exists_last calls
  have h := (tracks_after limit hw hc hlast).bounded key t
  rw [after_windowSeconds, after_limit] at h
  rw [init_windowSeconds, init_limit] at h
  omega

/-- The promise of a refusal is kept when the rounding of the time to wait does not shorten it. -/
theorem truthful_iff (hw : 1 ≤ windowSeconds) (hc : Ordered (before ++ call :: rest))
    (hwin : ((init limit windowSeconds).after before).window call = oldest :: more)
    (hex : ((init limit windowSeconds).after before).Exhausted call) :
    (∀ later t, Ordered (call :: later ++ [⟨call.key, t⟩]) →
      ((init limit windowSeconds).after (before ++ [call])).admitted call.key later = [] →
      call.now + ((init limit windowSeconds).after before).retryAfter call.now oldest ≤ t →
      (((init limit windowSeconds).after (before ++ call :: later)).allow ⟨call.key, t⟩).1 = .allowed) ↔
    windowSeconds - (call.now - oldest) ≤ 1 ∨ ∃ n : ℤ, windowSeconds - (call.now - oldest) = n := by
  have hcounts := lt_of_evict_eq hwin
  have hr := le_retryAfter_iff hcounts
  simp only [after_windowSeconds, init_windowSeconds] at hr
  rw [← hr]
  constructor
  · intro h
    have hone : (1 : ℚ) ≤ ((init limit windowSeconds).after before).retryAfter call.now oldest := by
      exact_mod_cast le_max_left 1 _
    have hlater : Ordered (call :: [] ++ [⟨call.key, call.now +
        ((init limit windowSeconds).after before).retryAfter call.now oldest⟩]) := by
      refine List.pairwise_pair.mpr ?_
      dsimp only
      linarith
    have hin := (allowed_later_iff hw hc hwin hex hlater rfl).mp (h [] _ hlater rfl le_rfl)
    linarith
  · intro h later t hlater hnone ht
    exact (allowed_later_iff hw hc hwin hex hlater hnone).mpr (by linarith)

end Law

theorem exactWindow_iff (limit windowSeconds : ℤ) (hl : 1 ≤ limit) (hw : 1 ≤ windowSeconds) (calls : List Call)
    (hc : Ordered calls) : ExactWindow limit windowSeconds calls ↔ WholeSeconds limit windowSeconds calls := by
  constructor
  · rintro ⟨-, -, -, htruth⟩ before call rest oldest more rfl hwin hlimit
    rw [← window_before hw hc] at hwin
    have hex : ((init limit windowSeconds).after before).Exhausted call := by
      rw [Exhausted, hwin, after_limit]
      exact hlimit
    exact (truthful_iff hw hc hwin hex).mp (htruth before call rest _ rfl (allow_denied hex hwin))
  · intro h
    refine ⟨?_, bounded_after hl hw hc, fun key => answersFor_eq rfl rfl rfl, ?_⟩
    · rintro before call rest rfl
      exact exact_before hw hc
    · rintro before call rest r rfl hdenied
      obtain ⟨oldest, more, hwin, rfl⟩ := answer_eq_denied hdenied
      have hex := exhausted_of_denied hdenied
      refine (truthful_iff hw hc hwin hex).mpr (h before call rest oldest more rfl ?_ ?_)
      · rw [← window_before hw hc, hwin]
      · rw [Exhausted, hwin, after_limit] at hex
        exact hex

theorem exactWindow_iff_twice : ExactWindow 1 60 [⟨"ip".toList, 0⟩, ⟨"ip".toList, 30⟩] ↔
    WholeSeconds 1 60 [⟨"ip".toList, 0⟩, ⟨"ip".toList, 30⟩] :=
  exactWindow_iff 1 60 (by decide) (by decide) _ (by decide +kernel)

/-- A call half a second after the only one that is allowed is told to come back in 59 seconds, and comes too early. -/
theorem retryAfter_too_early : ¬ExactWindow 1 60 [⟨"ip".toList, 1 / 2⟩, ⟨"ip".toList, 1⟩] := by
  intro h
  have hdenied : (((init 1 60).after [⟨"ip".toList, 1 / 2⟩]).allow ⟨"ip".toList, 1⟩).1 = .denied 59 := by
    decide +kernel
  have hallowed := h.truthful [⟨"ip".toList, 1 / 2⟩] ⟨"ip".toList, 1⟩ [] 59 rfl hdenied [] 60 (by decide +kernel) rfl
    (by decide +kernel)
  exact absurd hallowed (by decide +kernel)

end SlidingWindowCounter

end Voxera.RateLimit
