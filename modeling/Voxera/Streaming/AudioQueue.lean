import Voxera.EventLoop.Run
import Voxera.Ledger
import Voxera.Vad
import Mathlib.Logic.Function.Basic

/-!
# `AudioFrameQueue`

`enqueue` and `dequeue` do not suspend while they hold the lock, and `clear` takes no lock: on the event loop each is
one step. `wait_for_frame` is a step when a frame is waiting, and otherwise goes on in later ones.

* `AudioFrameQueue.enqueue`, `dequeue`, `clear` : the operations;
* `AudioFrames.step` : the queue with its callers, and a ledger of all the frames, which the code reads nothing of;
* `Accounted` : what holds between any two operations (`run_accounted`).
-/

namespace Voxera.Streaming

open EventLoop Ledger

structure FrameWithId where
  frame : Bytes
  frameId : ℤ
  deriving DecidableEq, Repr

/-- `asyncio.Event`, with the tasks that sleep in its `wait`. -/
structure Event where
  value : Bool := false
  waiters : List Nat := []
  deriving DecidableEq, Repr

namespace Event

def set (_ : Event) : Event := { value := true, waiters := [] }

def clear (e : Event) : Event := { e with value := false }

/-- The task goes to sleep. -/
def sleep (e : Event) (task : Nat) : Event := { e with waiters := e.waiters ++ [task] }

/-- The task is woken by a timeout or a cancellation. -/
def forget (e : Event) (task : Nat) : Event := { e with waiters := e.waiters.filter (· ≠ task) }

end Event

/-- `append` of a `deque` with a `maxlen`. -/
def dequeAppend {α : Type} (maxlen : Nat) (queue : List α) (x : α) : List α :=
  if (queue ++ [x]).length > maxlen then (queue ++ [x]).tail else queue ++ [x]

structure AudioFrameQueue where
  maxSize : Nat
  queue : List FrameWithId := []
  notEmpty : Event := {}
  framesDropped : Nat := 0
  framesEnqueued : Nat := 0
  deriving DecidableEq, Repr

namespace AudioFrameQueue

/-- `__init__`; `none` where it raises. -/
def init (maxSize : ℤ) : Option AudioFrameQueue := if maxSize < 1 then none else some { maxSize := maxSize.toNat }

def isFull (q : AudioFrameQueue) : Bool := q.maxSize ≤ q.queue.length

/-- `enqueue`; `frameId` is the id from the metrics, when there are any. -/
def enqueue (q : AudioFrameQueue) (frame : Bytes) (frameId : Option ℤ) : AudioFrameQueue :=
  { q with
    framesDropped := if q.isFull then q.framesDropped + 1 else q.framesDropped
    queue := dequeAppend q.maxSize q.queue { frame, frameId := frameId.getD (-1) }
    framesEnqueued := q.framesEnqueued + 1
    notEmpty := q.notEmpty.set }

def dequeue (q : AudioFrameQueue) : Option FrameWithId × AudioFrameQueue :=
  match q.queue with
  | frame :: queue => (some frame, { q with queue, notEmpty := if queue = [] then q.notEmpty.clear else q.notEmpty })
  | [] => (none, { q with notEmpty := q.notEmpty.clear })

def clear (q : AudioFrameQueue) : AudioFrameQueue := { q with queue := [], notEmpty := q.notEmpty.clear }

variable {q : AudioFrameQueue}

/-- What is left in the queue when a frame comes. -/
def kept (q : AudioFrameQueue) : List FrameWithId := if q.isFull then q.queue.tail else q.queue

theorem enqueue_queue (hpos : 1 ≤ q.maxSize) (hbounded : q.queue.length ≤ q.maxSize) (frame : Bytes) (frameId : Option ℤ) :
    (q.enqueue frame frameId).queue = q.kept ++ [{ frame, frameId := frameId.getD (-1) }] := by
  show dequeAppend q.maxSize q.queue _ = _
  unfold dequeAppend kept isFull
  rw [List.length_append, List.length_singleton]
  by_cases hfull : q.maxSize ≤ q.queue.length
  · have hne : q.queue ≠ [] := List.ne_nil_of_length_pos (by omega)
    rw [if_pos (by omega), if_pos (by simpa using hfull), List.tail_append_of_ne_nil hne]
  · rw [if_neg (by omega), if_neg (by simpa using hfull)]

/-- A full queue has an oldest frame. -/
theorem exists_cons_of_isFull (hpos : 1 ≤ q.maxSize) (hfull : q.isFull = true) : ∃ oldest rest, q.queue = oldest :: rest := by
  have hle : q.maxSize ≤ q.queue.length := by simpa [isFull] using hfull
  exact List.exists_cons_of_ne_nil (List.ne_nil_of_length_pos (by omega))

theorem length_kept (hpos : 1 ≤ q.maxSize) (hbounded : q.queue.length ≤ q.maxSize) : q.kept.length < q.maxSize := by
  unfold kept isFull
  split
  · rw [List.length_tail]
    omega
  · rename_i hfull
    simpa using hfull

theorem kept_suffix (q : AudioFrameQueue) : q.kept <:+ q.queue := by
  unfold kept
  split
  · exact List.tail_suffix _
  · exact List.suffix_refl _

end AudioFrameQueue

/-- What has become of a frame. -/
inductive Fate where
  | queued | handedOut | dropped | cleared
  deriving DecidableEq, Repr

/-- Where a call of `wait_for_frame` is. -/
inductive Waiter where
  /-- The wait has not looked at the event yet. -/
  | entering
  /-- In `wait` of the event: asleep while the event has it among its waiters. -/
  | waiting
  deriving DecidableEq, Repr

/-- The queue, the calls of `wait_for_frame` by their tasks, and what has passed. -/
structure AudioFrames where
  audio : AudioFrameQueue
  waiter : Nat → Option Waiter := fun _ => none
  /-- All the frames ever enqueued. -/
  ledger : List (FrameWithId × Fate) := []
  /-- The frames that `dequeue` has returned. -/
  returned : List FrameWithId := []
  /-- The frames enqueued since the last `clear`. -/
  recent : List FrameWithId := []

inductive AudioLabel where
  | enqueue (frame : Bytes) (frameId : Option ℤ)
  | dequeue
  | clear
  /-- A task calls `wait_for_frame`. -/
  | waitForFrame (task : Nat)
  /-- The wait looks at the event. -/
  | enter (task : Nat)
  /-- The event has woken the task, and `wait_for_frame` returns. -/
  | wake (task : Nat)
  /-- The timeout passes, or the task is cancelled. -/
  | leave (task : Nat)
  deriving DecidableEq, Repr

/-- The frame that a step enqueues. -/
def AudioLabel.frame? : AudioLabel → Option Bytes
  | .enqueue frame _ => some frame
  | _ => none

namespace AudioFrames

/-- A task sleeps in `wait_for_frame`. -/
def Asleep (s : AudioFrames) (task : Nat) : Prop := s.waiter task = some .waiting ∧ task ∈ s.audio.notEmpty.waiters

def step (s : AudioFrames) : AudioLabel → Option AudioFrames
  | .enqueue frame frameId =>
    let entry : FrameWithId := { frame, frameId := frameId.getD (-1) }
    some { s with
      audio := s.audio.enqueue frame frameId
      ledger := (if s.audio.isFull then move .queued .dropped s.ledger else s.ledger) ++ [(entry, .queued)]
      recent := s.recent ++ [entry] }
  | .dequeue =>
    let (frame, audio) := s.audio.dequeue
    some { s with
      audio
      ledger := if frame.isSome then move .queued .handedOut s.ledger else s.ledger
      returned := s.returned ++ frame.toList }
  | .clear => some { s with audio := s.audio.clear, ledger := moveAll .queued .cleared s.ledger, recent := [] }
  | .waitForFrame task =>
    if s.waiter task = none then
      some (if s.audio.queue ≠ [] then s else { s with waiter := Function.update s.waiter task (some .entering) })
    else none
  | .enter task =>
    if s.waiter task = some .entering then
      some (if s.audio.notEmpty.value then { s with waiter := Function.update s.waiter task none }
        else { s with
          waiter := Function.update s.waiter task (some .waiting)
          audio := { s.audio with notEmpty := s.audio.notEmpty.sleep task } })
    else none
  | .wake task =>
    if s.waiter task = some .waiting ∧ task ∉ s.audio.notEmpty.waiters then
      some { s with waiter := Function.update s.waiter task none }
    else none
  | .leave task =>
    if s.waiter task ≠ none then
      some { s with
        waiter := Function.update s.waiter task none
        audio := { s.audio with notEmpty := s.audio.notEmpty.forget task } }
    else none

/-- What holds between any two operations, when the frames of `received` were enqueued. -/
structure Accounted (maxSize : Nat) (received : List Bytes) (s : AudioFrames) : Prop where
  bounded : s.audio.queue.length ≤ maxSize
  /-- The queue holds the last frames enqueued since the last `clear`. -/
  latest : s.audio.queue <:+ s.recent
  recent : s.recent <:+ s.ledger.map Prod.fst
  /-- Every frame enqueued has one fate. -/
  ledger : s.ledger.map (fun e => e.1.frame) = received
  queued : select (· = .queued) s.ledger = s.audio.queue
  /-- In the order of their arrival. -/
  handedOut : select (· = .handedOut) s.ledger = s.returned
  enqueued : s.audio.framesEnqueued = received.length
  dropped : s.audio.framesDropped = (select (· = .dropped) s.ledger).length
  event : s.audio.notEmpty.value = true ↔ s.audio.queue ≠ []
  /-- Nobody sleeps while a frame is waiting. -/
  awake : ∀ task, s.Asleep task → s.audio.queue = []

theorem frames_eq (ledger : List (FrameWithId × Fate)) :
    ledger.map (fun e => e.1.frame) = (ledger.map Prod.fst).map FrameWithId.frame := by
  rw [List.map_map]
  rfl

theorem suffix_append_right {α : Type} {l l' : List α} (h : l <:+ l') (more : List α) : l ++ more <:+ l' ++ more := by
  obtain ⟨front, rfl⟩ := h
  exact ⟨front, (List.append_assoc _ _ _).symm⟩

structure Invariant (maxSize : Nat) (received : List Bytes) (s : AudioFrames) : Prop where
  accounted : s.Accounted maxSize received
  positive : 1 ≤ maxSize
  size : s.audio.maxSize = maxSize
  /-- Behind a queued frame there are queued ones only. -/
  ordered : Ordered (fun i j => i = .queued → j = .queued) s.ledger
  waiters : s.audio.queue ≠ [] → s.audio.notEmpty.waiters = []

namespace Invariant

variable {maxSize : Nat} {received : List Bytes} {s t : AudioFrames} {l : AudioLabel}

theorem init {maxSize : ℤ} {q : AudioFrameQueue} (h : AudioFrameQueue.init maxSize = some q) :
    Invariant maxSize.toNat [] { audio := q } := by
  obtain ⟨hpos, rfl⟩ : 1 ≤ maxSize ∧ { maxSize := maxSize.toNat } = q := by
    simpa [AudioFrameQueue.init] using h
  refine ⟨?_, by omega, rfl, List.Pairwise.nil, fun hne => absurd rfl hne⟩
  exact ⟨Nat.zero_le _, List.suffix_refl _, List.suffix_refl _, rfl, rfl, rfl, rfl, rfl, by simp, fun _ _ => rfl⟩

/-- The ledger after the oldest frame was dropped, if the queue is full. -/
theorem dropOldest (h : Invariant maxSize received s) {ledger : List (FrameWithId × Fate)}
    (hledger : (if s.audio.isFull then move .queued .dropped s.ledger else s.ledger) = ledger) :
    ledger.map Prod.fst = s.ledger.map Prod.fst ∧ Ordered (fun i j => i = .queued → j = .queued) ledger ∧
      select (· = .queued) ledger = s.audio.kept ∧ select (· = .handedOut) ledger = s.returned ∧
      (select (· = .dropped) ledger).length = if s.audio.isFull then s.audio.framesDropped + 1 else s.audio.framesDropped := by
  have hacc := h.accounted
  unfold AudioFrameQueue.kept
  cases hfull : s.audio.isFull with
  | false =>
      rw [hfull, if_neg Bool.false_ne_true] at hledger
      subst hledger
      exact ⟨rfl, h.ordered, hacc.queued, hacc.handedOut, hacc.dropped.symm⟩
  | true =>
      rw [hfull, if_pos rfl] at hledger
      subst hledger
      obtain ⟨oldest, rest, hqueue⟩ := AudioFrameQueue.exists_cons_of_isFull (h.size ▸ h.positive) hfull
      refine ⟨map_fst_move _ _ _, h.ordered.move (fun j hj hR => ?_) (fun j _ hk => by cases hk), ?_, ?_, ?_⟩
      · exact fun hj' => absurd hj' hj
      · rw [select_move_tail (by simp) (by decide), hacc.queued]
        rfl
      · rw [select_move_eq (by rfl), hacc.handedOut]
      · rw [length_select_move (q := (· = .queued)) (by simp) (by rfl) (by rfl), hacc.queued, hqueue, ← hacc.dropped]
        rfl

theorem enqueue (h : Invariant maxSize received s) (frame : Bytes) (frameId : Option ℤ)
    (hstep : s.step (.enqueue frame frameId) = some t) : Invariant maxSize (received ++ [frame]) t := by
  have hacc := h.accounted
  have hpos := h.size ▸ h.positive
  have hbounded := hacc.bounded
  rw [← h.size] at hbounded
  have hqueue := AudioFrameQueue.enqueue_queue hpos hbounded frame frameId
  have hroom := AudioFrameQueue.length_kept hpos hbounded
  simp only [step, Option.some.injEq] at hstep
  generalize hledger : (if s.audio.isFull then move .queued .dropped s.ledger else s.ledger) = ledger at hstep
  obtain ⟨hitems, hordered, hkept, hhanded, hdropped⟩ := h.dropOldest hledger
  subst hstep
  generalize hentry : ({ frame, frameId := frameId.getD (-1) } : FrameWithId) = entry at hqueue
  have hframe : entry.frame = frame := by rw [← hentry]
  have hne : (s.audio.enqueue frame frameId).queue ≠ [] := by
    rw [hqueue]
    exact List.append_ne_nil_of_right_ne_nil _ (List.cons_ne_nil _ _)
  have hselect : ∀ p : Fate → Bool, p .queued = false → select p (ledger ++ [(entry, .queued)]) = select p ledger := by
    intro p hp
    rw [select_append, select_cons_of_neg hp, select_nil, List.append_nil]
  refine ⟨?_, h.positive, h.size, ?_, fun _ => rfl⟩
  · exact {
      bounded := by
        show (s.audio.enqueue frame frameId).queue.length ≤ maxSize
        rw [hqueue, List.length_append, List.length_singleton, ← h.size]
        omega
      latest := by
        show (s.audio.enqueue frame frameId).queue <:+ s.recent ++ [entry]
        rw [hqueue]
        exact suffix_append_right (s.audio.kept_suffix.trans hacc.latest) _
      recent := by
        show s.recent ++ [entry] <:+ (ledger ++ [(entry, Fate.queued)]).map Prod.fst
        rw [List.map_append, hitems]
        exact suffix_append_right hacc.recent _
      ledger := by
        show (ledger ++ [(entry, Fate.queued)]).map (fun e => e.1.frame) = received ++ [frame]
        rw [frames_eq, List.map_append, hitems, List.map_append, ← frames_eq, hacc.ledger, ← hframe]
        rfl
      queued := by
        show select (· = .queued) (ledger ++ [(entry, Fate.queued)]) = (s.audio.enqueue frame frameId).queue
        rw [select_append, hkept, hqueue]
        rfl
      handedOut := (hselect (· = .handedOut) rfl).trans hhanded
      enqueued := by
        rw [List.length_append, ← hacc.enqueued]
        rfl
      dropped := by
        show _ = (select (· = .dropped) (ledger ++ [(entry, Fate.queued)])).length
        rw [hselect (· = .dropped) rfl, hdropped]
        rfl
      event := iff_of_true rfl hne
      awake := fun task ⟨_, htask⟩ => absurd htask List.not_mem_nil }
  · exact hordered.append (fun _ _ _ => rfl)

theorem dequeue (h : Invariant maxSize received s) (hstep : s.step .dequeue = some t) : Invariant maxSize received t := by
  have hacc := h.accounted
  cases hqueue : s.audio.queue with
  | nil =>
      have hdequeue : s.audio.dequeue = (none, { s.audio with notEmpty := s.audio.notEmpty.clear }) := by
        simp only [AudioFrameQueue.dequeue, hqueue]
      simp only [step, hdequeue, Option.some.injEq] at hstep
      subst hstep
      refine ⟨?_, h.positive, h.size, h.ordered, h.waiters⟩
      exact { hacc with
        handedOut := hacc.handedOut.trans (List.append_nil _).symm
        event := iff_of_false Bool.false_ne_true (fun hne => hne hqueue) }
  | cons frame rest =>
      have hdequeue : s.audio.dequeue = (some frame, { s.audio with
          queue := rest, notEmpty := if rest = [] then s.audio.notEmpty.clear else s.audio.notEmpty }) := by
        simp only [AudioFrameQueue.dequeue, hqueue]
      have hwaiters : s.audio.notEmpty.waiters = [] := h.waiters (by rw [hqueue]; exact List.cons_ne_nil _ _)
      have hvalue : s.audio.notEmpty.value = true := hacc.event.mpr (by rw [hqueue]; exact List.cons_ne_nil _ _)
      have hwaiters' : (if rest = [] then s.audio.notEmpty.clear else s.audio.notEmpty).waiters = [] := by
        split <;> exact hwaiters
      simp only [step, hdequeue, Option.isSome_some, if_true, Option.toList_some, Option.some.injEq] at hstep
      subst hstep
      refine ⟨?_, h.positive, h.size, ?_, fun _ => hwaiters'⟩
      · exact {
          bounded := by
            have hbounded := hacc.bounded
            rw [hqueue, List.length_cons] at hbounded
            show rest.length ≤ maxSize
            omega
          latest := by
            have hlatest := hacc.latest
            rw [hqueue] at hlatest
            exact (List.suffix_cons frame rest).trans hlatest
          recent := by
            rw [map_fst_move]
            exact hacc.recent
          ledger := by
            rw [frames_eq, map_fst_move, ← frames_eq]
            exact hacc.ledger
          queued := by
            rw [select_move_tail (by simp) (by decide), hacc.queued, hqueue]
            rfl
          handedOut := by
            have hordered : Ordered (fun i j => i = Fate.queued → decide (j = Fate.handedOut) = false) s.ledger :=
              h.ordered.imp (fun hR hi => by rw [hR hi]; rfl)
            rw [select_move_head (q := (· = .queued)) (by simp) (by rfl) (by rfl) hordered, hacc.handedOut, hacc.queued, hqueue]
            rfl
          enqueued := hacc.enqueued
          dropped := by
            rw [select_move_eq (by rfl)]
            exact hacc.dropped
          event := by
            cases rest with
            | nil => exact iff_of_false Bool.false_ne_true (fun hne => hne rfl)
            | cons next rest => exact iff_of_true hvalue (List.cons_ne_nil _ _)
          awake := fun task ⟨_, htask⟩ => by
            rw [hwaiters'] at htask
            exact absurd htask List.not_mem_nil }
      · exact h.ordered.move (fun j hj _ hj' => absurd hj' hj) (fun j _ hk => by cases hk)

theorem clear (h : Invariant maxSize received s) (hstep : s.step .clear = some t) : Invariant maxSize received t := by
  have hacc := h.accounted
  cases hstep
  refine ⟨?_, h.positive, h.size, ?_, fun hne => absurd rfl hne⟩
  · exact {
      bounded := Nat.zero_le _
      latest := List.suffix_refl _
      recent := List.nil_suffix
      ledger := by
        rw [frames_eq, map_fst_moveAll, ← frames_eq]
        exact hacc.ledger
      queued := select_moveAll_nil (by simp) (by decide) s.ledger
      handedOut := (select_moveAll_eq (by rfl) s.ledger).trans hacc.handedOut
      enqueued := hacc.enqueued
      dropped := by
        rw [select_moveAll_eq (by rfl)]
        exact hacc.dropped
      event := iff_of_false Bool.false_ne_true (fun hne => hne rfl)
      awake := fun _ _ => rfl }
  · refine h.ordered.moveAll (fun i j hR => ?_)
    split
    · exact fun hi => by cases hi
    · rename_i hi
      exact fun hi' => absurd hi' hi

/-- The calls of `wait_for_frame` touch the waiters only. -/
theorem wait (h : Invariant maxSize received s) (waiter : Nat → Option Waiter) {notEmpty : Event}
    (hvalue : notEmpty.value = s.audio.notEmpty.value) (hwaiters : s.audio.queue ≠ [] → notEmpty.waiters = []) :
    Invariant maxSize received { s with waiter, audio := { s.audio with notEmpty } } where
  accounted := { h.accounted with
    event := by
      show notEmpty.value = true ↔ _
      rw [hvalue]
      exact h.accounted.event
    awake := fun task ⟨_, htask⟩ => by
      by_contra hne
      have htask : task ∈ notEmpty.waiters := htask
      rw [hwaiters hne] at htask
      exact List.not_mem_nil htask }
  positive := h.positive
  size := h.size
  ordered := h.ordered
  waiters := hwaiters

theorem step (h : Invariant maxSize received s) (hstep : s.step l = some t) :
    Invariant maxSize (received ++ l.frame?.toList) t := by
  have hsame : ∀ {t}, Invariant maxSize received t → Invariant maxSize (received ++ []) t := by
    intro t ht
    rw [List.append_nil]
    exact ht
  cases l with
  | enqueue frame frameId => exact h.enqueue frame frameId hstep
  | dequeue => exact hsame (h.dequeue hstep)
  | clear => exact hsame (h.clear hstep)
  | waitForFrame task =>
      apply hsame
      simp only [AudioFrames.step, Option.ite_none_right_eq_some, Option.some.injEq] at hstep
      obtain ⟨-, rfl⟩ := hstep
      split
      · exact h
      · exact h.wait _ rfl h.waiters
  | enter task =>
      apply hsame
      simp only [AudioFrames.step, Option.ite_none_right_eq_some, Option.some.injEq] at hstep
      obtain ⟨-, rfl⟩ := hstep
      split
      · exact h.wait _ rfl h.waiters
      · rename_i hvalue
        refine h.wait _ rfl (fun hne => ?_)
        exact absurd (h.accounted.event.mpr hne) hvalue
  | wake task =>
      apply hsame
      simp only [AudioFrames.step, Option.ite_none_right_eq_some, Option.some.injEq] at hstep
      obtain ⟨-, rfl⟩ := hstep
      exact h.wait _ rfl h.waiters
  | leave task =>
      apply hsame
      simp only [AudioFrames.step, Option.ite_none_right_eq_some, Option.some.injEq] at hstep
      obtain ⟨-, rfl⟩ := hstep
      refine h.wait _ rfl (fun hne => ?_)
      show s.audio.notEmpty.waiters.filter _ = []
      rw [h.waiters hne]
      rfl

end Invariant

/-- Between any two operations, in any order, every frame is accounted for and no task sleeps beside a frame. -/
theorem run_accounted {maxSize : ℤ} {q : AudioFrameQueue} (hinit : AudioFrameQueue.init maxSize = some q)
    {ls : List AudioLabel} {s : AudioFrames} (h : Run step (fun _ _ => True) { audio := q } ls s) :
    s.Accounted maxSize.toNat (ls.filterMap AudioLabel.frame?) := by
  have hinv := h.invariant₂ (I := fun ls s => Invariant maxSize.toNat (ls.filterMap AudioLabel.frame?) s)
    (Invariant.init hinit) (fun {ls t u l} ht _ hu => by
      rw [List.filterMap_append, List.filterMap_cons, List.filterMap_nil]
      have hnext := ht.step hu
      cases hframe : l.frame? <;> rw [hframe] at hnext <;> exact hnext)
  exact hinv.accounted

/-- Two frames, an overflow, and a task that the next frame wakes. -/
theorem run_accounted_overflow : ∃ q, AudioFrameQueue.init 1 = some q ∧
    ∃ s, Run step (fun _ _ => True) { audio := q }
      [.waitForFrame 0, .enter 0, .enqueue [1] none, .enqueue [2] (some 7), .dequeue, .wake 0] s ∧
      s.returned = [⟨[2], 7⟩] ∧ s.Accounted 1 [[1], [2]] := by
  have hexec : (exec step (fun _ _ => True) { audio := { maxSize := 1 } }
      [.waitForFrame 0, .enter 0, .enqueue [1] none, .enqueue [2] (some 7), .dequeue, .wake 0]).any
      (fun s => s.returned = [⟨[2], 7⟩]) = true := by decide +kernel
  obtain ⟨s, hrun, hreturned⟩ := Run.exists_of_exec hexec
  exact ⟨_, rfl, s, hrun, of_decide_eq_true hreturned, run_accounted (show AudioFrameQueue.init 1 = some _ from rfl) hrun⟩

end AudioFrames

end Voxera.Streaming
