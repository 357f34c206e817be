import Mathlib.Logic.Function.Basic

/-!
# Tasks of a cooperative event loop

Between two steps of the loop a task is suspended at an `await` or done. `cancel` is the request of
`asyncio.Task.cancel`: it marks a suspended task, whose next step then raises `CancelledError` at
the point where it is suspended, whatever it was waiting for, and it does nothing to a task that is
done. What that error does (a cleanup, another `await`, the end of the task) is the coroutine's own
code; a second request during the cleanup marks the task again.

* `Coroutine κ` : a task whose suspension points are the values of `κ`;
* `Coroutine.cancel`, `Coroutine.Alive`;
* `wakes t w` : the await comes back with a `CancelledError` exactly when the task was asked to
  cancel.
-/

namespace EventLoop

/-- A task between two of its steps. -/
inductive Coroutine (κ : Type*) where
  /-- Suspended at `pc`; `cancelling` when it has been asked to cancel since it was suspended. -/
  | suspended (pc : κ) (cancelling : Bool)
  | done
  deriving DecidableEq, Repr

namespace Coroutine

variable {κ : Type*}

instance : Inhabited (Coroutine κ) := ⟨done⟩

def isDone : Coroutine κ → Bool
  | suspended _ _ => false
  | done => true

/-- `asyncio.Task.cancel`. -/
def cancel : Coroutine κ → Coroutine κ
  | suspended pc _ => suspended pc true
  | done => done

/-- A task that has just suspended at `pc`. -/
def await (pc : κ) : Coroutine κ := suspended pc false

/-- Not done yet. -/
def Alive (t : Coroutine κ) : Prop := t ≠ done

/-- The suspension point, when there is one. -/
def pc? : Coroutine κ → Option κ
  | suspended pc _ => some pc
  | done => none

/-- The task has been asked to cancel and has not run since. -/
def asked : Coroutine κ → Bool
  | suspended _ c => c
  | done => false

/-- The task runs: the request has been delivered. -/
def woken : Coroutine κ → Coroutine κ
  | suspended pc _ => suspended pc false
  | done => done

@[simp] theorem isDone_suspended (pc : κ) (c : Bool) : (suspended pc c).isDone = false := rfl
@[simp] theorem isDone_done : (done : Coroutine κ).isDone = true := rfl
@[simp] theorem cancel_suspended (pc : κ) (c : Bool) : (suspended pc c).cancel = suspended pc true := rfl
@[simp] theorem cancel_done : (done : Coroutine κ).cancel = done := rfl
@[simp] theorem isDone_await (pc : κ) : (await pc).isDone = false := rfl
@[simp] theorem pc?_suspended (pc : κ) (c : Bool) : (suspended pc c).pc? = some pc := rfl
@[simp] theorem pc?_done : (done : Coroutine κ).pc? = none := rfl
@[simp] theorem pc?_cancel (t : Coroutine κ) : t.cancel.pc? = t.pc? := by cases t <;> rfl
@[simp] theorem isDone_cancel (t : Coroutine κ) : t.cancel.isDone = t.isDone := by cases t <;> rfl

@[simp] theorem pc?_woken (t : Coroutine κ) : t.woken.pc? = t.pc? := by cases t <;> rfl

theorem pc?_eq_none_iff {t : Coroutine κ} : t.pc? = none ↔ t = done := by cases t <;> simp

theorem isDone_iff {t : Coroutine κ} : t.isDone = true ↔ t = done := by cases t <;> simp

end Coroutine

/-- How the `await` of a suspended task comes back. -/
inductive Wake (α : Type*) where
  /-- It returns, with a value. -/
  | ok (a : α)
  /-- It raises an `Exception`. -/
  | raised
  /-- It raises a `CancelledError`. -/
  | cancelled
  deriving DecidableEq, Repr

/-- A task that was asked to cancel wakes up with a `CancelledError`, and only such a task does. -/
def Wake.fits {α : Type*} (w : Wake α) (cancelling : Bool) : Bool :=
  match w with
  | .cancelled => cancelling
  | _ => !cancelling

end EventLoop
