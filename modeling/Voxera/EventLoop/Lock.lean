import Mathlib.Data.List.Basic

/-!
# `asyncio.Lock`

The lock is not reentrant and hands itself over in the order of arrival. `release` frees it and gives
the first waiter its turn; that waiter takes it when it runs, and until then nobody else can. A
waiter that was asked to cancel before it was given its turn is passed over, and one that was asked
afterwards passes its turn on when it runs.

`cancelled` is the set of the waiters that were asked to cancel, of the owner of the lock.

* `Lock.free`, `Lock.hold`, `Lock.wait` : `acquire` when it returns at once, and when it suspends;
* `Lock.take`, `Lock.abandon` : `acquire` when the waiter runs again, with its turn or cancelled;
* `Lock.release`.
-/

namespace EventLoop

inductive Owner (τ : Type*) where
  | free
  /-- The lock is free, and the waiter that was the first has its turn. -/
  | handed (me : τ)
  | held (me : τ)
  deriving DecidableEq, Repr

structure Lock (τ : Type*) where
  owner : Owner τ := .free
  /-- The waiters that have not been given their turn, the first to arrive first. -/
  waiters : List τ := []
  deriving DecidableEq, Repr

namespace Lock

variable {τ : Type*} [DecidableEq τ] (l : Lock τ) (me : τ) (cancelled : τ → Bool)

/-- The task that holds the lock. -/
def holder : Option τ :=
  match l.owner with
  | .held me => some me
  | _ => none

/-- `acquire` returns at once. -/
def free : Bool := l.owner = .free && l.waiters.all cancelled

/-- `me` takes the lock. -/
def hold : Lock τ := { l with owner := .held me }

/-- `me` suspends in `acquire`. -/
def wait : Lock τ := { l with waiters := l.waiters ++ [me] }

/-- It is the turn of `me`. -/
def isTurn : Bool := l.owner = .handed me

/-- `_wake_up_first` -/
def wakeUpFirst : Lock τ :=
  match l.owner, l.waiters with
  | .free, first :: rest => if cancelled first then l else { owner := .handed first, waiters := rest }
  | _, _ => l

/-- `release` -/
def release : Lock τ := wakeUpFirst { l with owner := .free } cancelled

/-- `me` runs in `acquire` with a `CancelledError`. -/
def abandon : Lock τ :=
  if l.owner = .handed me then wakeUpFirst { l with owner := .free } cancelled
  else wakeUpFirst { l with waiters := l.waiters.erase me } cancelled

omit [DecidableEq τ] in
@[simp] theorem holder_hold : (l.hold me).holder = some me := rfl

omit [DecidableEq τ] in
@[simp] theorem holder_wait : (l.wait me).holder = l.holder := rfl

variable {l me cancelled}

omit [DecidableEq τ] in
@[simp] theorem holder_wakeUpFirst : (l.wakeUpFirst cancelled).holder = l.holder := by
  unfold wakeUpFirst
  split
  · rename_i howner hwaiters
    split
    · rfl
    · simp [holder, howner]
  · rfl

omit [DecidableEq τ] in
@[simp] theorem holder_release : (l.release cancelled).holder = none := by
  unfold release
  rw [holder_wakeUpFirst]
  rfl

theorem holder_of_free (h : l.free cancelled = true) : l.holder = none := by
  simp only [free, Bool.and_eq_true, decide_eq_true_eq] at h
  simp [holder, h.1]

theorem holder_of_isTurn (h : l.isTurn me = true) : l.holder = none := by
  simp only [isTurn, decide_eq_true_eq] at h
  simp [holder, h]

/-- To give up waiting leaves the lock with its holder. -/
@[simp] theorem holder_abandon : (l.abandon me cancelled).holder = l.holder := by
  unfold abandon
  split
  · rename_i howner
    rw [holder_wakeUpFirst]
    simp [holder, howner]
  · rw [holder_wakeUpFirst]
    rfl

end Lock

end EventLoop
