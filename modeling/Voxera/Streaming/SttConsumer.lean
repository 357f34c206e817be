import Voxera.EventLoop.Run
import Voxera.EventLoop.Coroutine
import Voxera.Vad

/-!
# `STTConsumer`

One consumer that is started once, with its process loop and a call of `stop`. `process_frame` does not suspend.

* `LoopPc`, `StopPc` : the suspension points of `_process_loop` and of `stop`; an await whose other side is at hand is a
  suspension point that the scheduler may leave at once;
* `SttConsumer.step` : the consumer from one suspension point to the next;
* `Stuck` : `stop` waits for a place in a queue that nobody takes anything from any more;
* `roomToStop` : the steps that keep it from that (`run_roomToStop_iff`).
-/

namespace Voxera.Streaming

open EventLoop

/-- The suspension points of `_process_loop`. -/
inductive LoopPc where
  | created
  | queueGet
  | processAudio (frame : Bytes)
  | transcriptCallback
  | errorCallback
  deriving DecidableEq, Repr

/-- The suspension points of `stop`. -/
inductive StopPc where
  | finalize
  | transcriptCallback
  | put
  | join
  /-- The loop was cancelled after the timeout. -/
  | joinCancelled
  | close
  deriving DecidableEq, Repr

/-- The await is in code from outside, which can raise what it likes. -/
def LoopPc.outside : LoopPc → Bool
  | .processAudio _ | .transcriptCallback | .errorCallback => true
  | _ => false

def StopPc.outside : StopPc → Bool
  | .finalize | .transcriptCallback | .close => true
  | _ => false

structure SttConsumer where
  maxQueueSize : Nat
  hasTranscriptCallback : Bool := true
  hasErrorCallback : Bool := true
  queue : List (Option Bytes) := []
  running : Bool := false
  /-- `self._task` -/
  task : Option (Coroutine LoopPc) := none
  /-- The loop has ended with a `CancelledError`. -/
  loopCancelled : Bool := false
  stop : Coroutine StopPc := .done
  framesProcessed : Nat := 0
  framesDropped : Nat := 0
  deriving DecidableEq, Repr

/-- What can happen; an await of an engine call returns whether there is a transcript event. -/
inductive SttLabel where
  | start
  | processFrame (frame : Bytes)
  /-- The process loop runs on. -/
  | loop (w : Wake Bool)
  | stop
  /-- `stop` runs on. -/
  | stopping (w : Wake Bool)
  /-- The two seconds for the loop to end have passed. -/
  | timeout
  deriving DecidableEq, Repr

namespace SttConsumer

/-- `self._queue.full()` -/
def full (c : SttConsumer) : Bool := 0 < c.maxQueueSize ∧ c.maxQueueSize ≤ c.queue.length

/-- `process_frame` -/
def processFrame (c : SttConsumer) (frame : Bytes) : Bool × SttConsumer :=
  if c.full then (false, { c with framesDropped := c.framesDropped + 1 })
  else (true, { c with queue := c.queue ++ [some frame] })

/-- `frame = await self._queue.get()` and what follows it. -/
def getFrame (c : SttConsumer) : SttConsumer :=
  match c.queue with
  | [] => { c with task := some (.await .queueGet) }
  | none :: queue => { c with queue, task := some .done }
  | some frame :: queue => { c with queue, task := some (.await (.processAudio frame)) }

/-- `while self._running` -/
def next (c : SttConsumer) : SttConsumer := if c.running then c.getFrame else { c with task := some .done }

/-- The end of the body of the loop. -/
def frameDone (c : SttConsumer) : SttConsumer := { c with framesProcessed := c.framesProcessed + 1 }.next

/-- `_process_loop` from the suspension point `pc` to the next one. A `CancelledError` is caught around the engine and
the transcript callback, and ends the loop everywhere. -/
def loopResume (c : SttConsumer) : LoopPc → Wake Bool → SttConsumer
  | .created, .ok _ => c.next
  | .queueGet, .ok _ => c.getFrame
  | .processAudio _, .ok event =>
    if event ∧ c.hasTranscriptCallback then { c with task := some (.await .transcriptCallback) } else c.frameDone
  | .processAudio _, .raised => if c.hasErrorCallback then { c with task := some (.await .errorCallback) } else c.next
  | .transcriptCallback, .ok _ | .transcriptCallback, .raised => c.frameDone
  | .errorCallback, .ok _ | .errorCallback, .raised => c.next
  | .created, _ | .errorCallback, _ => { c with task := some .done, loopCancelled := true }
  | _, _ => { c with task := some .done }

/-- `await self._queue.put(None)` and what follows it. -/
def putMarker (c : SttConsumer) : SttConsumer :=
  if c.full then { c with stop := .await .put }
  else { c with queue := c.queue ++ [none], stop := .await .join }

/-- `stop` from the suspension point `pc` to the next one. -/
def stopResume (c : SttConsumer) : StopPc → Wake Bool → SttConsumer
  | .finalize, .ok event =>
    if event ∧ c.hasTranscriptCallback then { c with stop := .await .transcriptCallback } else c.putMarker
  | .finalize, .raised => c.putMarker
  | .transcriptCallback, .ok _ | .transcriptCallback, .raised => c.putMarker
  | .put, .ok _ => c.putMarker
  | .join, .ok _ => if c.loopCancelled then { c with stop := .done } else { c with stop := .await .close }
  | .joinCancelled, .ok _ => { c with stop := .await .close }
  | _, _ => { c with stop := .done }

/-- The loop has ended. -/
def ended (c : SttConsumer) : Bool := c.task.any Coroutine.isDone

/-- The awaits of the loop that can come back this way. -/
def loopEnabled (c : SttConsumer) (pc : LoopPc) (cancelling : Bool) (w : Wake Bool) : Bool :=
  (w.fits cancelling || pc.outside && w = .cancelled) &&
    match pc, w with
    | .queueGet, .ok _ => c.queue ≠ []
    | pc, .raised => pc.outside
    | _, _ => true

def stopEnabled (c : SttConsumer) (pc : StopPc) (cancelling : Bool) (w : Wake Bool) : Bool :=
  (w.fits cancelling || pc.outside && w = .cancelled) &&
    match pc, w with
    | .put, .ok _ => !c.full
    | .join, .ok _ | .joinCancelled, .ok _ => c.ended
    | pc, .raised => pc.outside
    | _, _ => true

def step (c : SttConsumer) : SttLabel → Option SttConsumer
  | .start => if c.task = none then some { c with running := true, task := some (.await .created) } else none
  | .processFrame frame => some (c.processFrame frame).2
  | .loop w =>
    match c.task with
    | some (.suspended pc cancelling) => if c.loopEnabled pc cancelling w then some (c.loopResume pc w) else none
    | _ => none
  | .stop => some (if c.running then { c with running := false, stop := .await .finalize } else c)
  | .stopping w =>
    match c.stop with
    | .suspended pc cancelling => if c.stopEnabled pc cancelling w then some (c.stopResume pc w) else none
    | .done => none
  | .timeout =>
    if c.stop = .await .join then some { c with task := c.task.map Coroutine.cancel, stop := .await .joinCancelled } else none

/-- The loop is waiting in `get` and has not been asked to end. -/
def atGet (c : SttConsumer) : Bool := c.task = some (.await .queueGet)

/-- The loop will take another item: it waits for one, or it finds `_running` set when it comes to the `while`. -/
def takes (c : SttConsumer) : Bool := c.atGet || (c.running && !c.ended)

/-- `stop` waits to put the marker. -/
def atPut (c : SttConsumer) : Bool := c.stop = .await .put

/-- `stop` waits to put the marker on a full queue, and the loop takes nothing from it any more. -/
def Stuck (c : SttConsumer) : Prop := c.atPut = true ∧ c.full = true ∧ c.takes = false

/-- `stop` goes on to put the marker when it wakes up this way. -/
def comesToPut (c : SttConsumer) : StopPc → Wake Bool → Bool
  | .finalize, .ok event => !(event && c.hasTranscriptCallback)
  | .finalize, .raised | .transcriptCallback, .ok _ | .transcriptCallback, .raised => true
  | _, _ => false

/-- `stop` comes to put the marker while there is a place for it or the loop waits in `get`, and no frame takes the
last place while `stop` waits for it and the loop is elsewhere. -/
def roomToStop (c : SttConsumer) : SttLabel → Bool
  | .stopping w => !(c.stop.pc?.any (fun pc => c.comesToPut pc w) && c.full && !c.atGet)
  | .processFrame _ => !(c.atPut && !c.atGet && c.queue.length + 1 = c.maxQueueSize)
  | _ => true

variable {c t : SttConsumer} {l : SttLabel}

/-! ## What a step can do -/

theorem start_of_step (hstep : c.step .start = some t) :
    c.task = none ∧ t = { c with running := true, task := some (.await .created) } := by
  simp only [SttConsumer.step, Option.ite_none_right_eq_some, Option.some.injEq] at hstep
  exact ⟨hstep.1, hstep.2.symm⟩

theorem loop_of_step {w : Wake Bool} (hstep : c.step (.loop w) = some t) : ∃ pc cancelling,
    c.task = some (.suspended pc cancelling) ∧ c.loopEnabled pc cancelling w = true ∧ t = c.loopResume pc w := by
  simp only [SttConsumer.step] at hstep
  split at hstep
  · rename_i pc cancelling hpc
    simp only [Option.ite_none_right_eq_some, Option.some.injEq] at hstep
    exact ⟨pc, cancelling, hpc, hstep.1, hstep.2.symm⟩
  · cases hstep

theorem stopping_of_step {w : Wake Bool} (hstep : c.step (.stopping w) = some t) : ∃ pc cancelling,
    c.stop = .suspended pc cancelling ∧ c.stopEnabled pc cancelling w = true ∧ t = c.stopResume pc w := by
  simp only [SttConsumer.step] at hstep
  split at hstep
  · rename_i pc cancelling hpc
    simp only [Option.ite_none_right_eq_some, Option.some.injEq] at hstep
    exact ⟨pc, cancelling, hpc, hstep.1, hstep.2.symm⟩
  · cases hstep

theorem timeout_of_step (hstep : c.step .timeout = some t) :
    c.stop = .await .join ∧ t = { c with task := c.task.map Coroutine.cancel, stop := .await .joinCancelled } := by
  simp only [SttConsumer.step, Option.ite_none_right_eq_some, Option.some.injEq] at hstep
  exact ⟨hstep.1, hstep.2.symm⟩

/-! ## What a step leaves alone -/

structure Invariant (c : SttConsumer) : Prop where
  bounded : 0 < c.maxQueueSize → c.queue.length ≤ c.maxQueueSize
  notStarted : c.task = none → c.running = false ∧ c.stop = .done
  stopping : c.stop ≠ .done → c.running = false

/-- The part of the consumer that the loop only reads, and the queue, which it takes from. -/
def Took (c t : SttConsumer) : Prop :=
  t.queue <:+ c.queue ∧ t.stop = c.stop ∧ t.running = c.running ∧ t.maxQueueSize = c.maxQueueSize ∧ t.task ≠ none

theorem took_getFrame (c : SttConsumer) : c.Took c.getFrame := by
  unfold getFrame
  split
  · exact ⟨List.suffix_refl _, rfl, rfl, rfl, Option.some_ne_none _⟩
  · rename_i queue hqueue
    exact ⟨hqueue ▸ List.suffix_cons _ _, rfl, rfl, rfl, Option.some_ne_none _⟩
  · rename_i frame queue hqueue
    exact ⟨hqueue ▸ List.suffix_cons _ _, rfl, rfl, rfl, Option.some_ne_none _⟩

theorem took_next (c : SttConsumer) : c.Took c.next := by
  unfold next
  split
  · exact took_getFrame c
  · exact ⟨List.suffix_refl _, rfl, rfl, rfl, Option.some_ne_none _⟩

theorem took_loopResume (c : SttConsumer) (pc : LoopPc) (w : Wake Bool) : c.Took (c.loopResume pc w) := by
  have hsame : ∀ {task : Option (Coroutine LoopPc)} (_ : task ≠ none) (b : Bool),
      c.Took { c with task, loopCancelled := b } := fun htask _ => ⟨List.suffix_refl _, rfl, rfl, rfl, htask⟩
  unfold loopResume
  split
  · exact took_next c
  · exact took_getFrame c
  · split
    · exact hsame (Option.some_ne_none _) _
    · exact took_next _
  · split
    · exact hsame (Option.some_ne_none _) _
    · exact took_next c
  · exact took_next _
  · exact took_next _
  · exact took_next c
  · exact took_next c
  · exact hsame (Option.some_ne_none _) _
  · exact hsame (Option.some_ne_none _) _
  · exact hsame (Option.some_ne_none _) _

theorem hasTranscriptCallback_loopResume (c : SttConsumer) (pc : LoopPc) (w : Wake Bool) :
    (c.loopResume pc w).hasTranscriptCallback = c.hasTranscriptCallback := by
  have hget : ∀ c : SttConsumer, c.getFrame.hasTranscriptCallback = c.hasTranscriptCallback := by
    intro c
    unfold getFrame
    split <;> rfl
  have hnext : ∀ c : SttConsumer, c.next.hasTranscriptCallback = c.hasTranscriptCallback := by
    intro c
    unfold next
    split
    · exact hget c
    · rfl
  unfold loopResume
  split
  · exact hnext c
  · exact hget c
  · split
    · rfl
    · exact hnext _
  · split
    · rfl
    · exact hnext c
  · exact hnext _
  · exact hnext _
  · exact hnext c
  · exact hnext c
  · rfl
  · rfl
  · rfl

/-- Once `_running` is cleared the loop does not come back to `get`. -/
theorem atGet_loopResume (hrunning : c.running = false) {pc : LoopPc} {w : Wake Bool} (hpc : pc ≠ .queueGet ∨ w = .cancelled) :
    (c.loopResume pc w).atGet = false ∧ (c.loopResume pc w).queue = c.queue := by
  have hnext : ∀ {c : SttConsumer}, c.running = false → c.next = { c with task := some .done } := by
    intro c hc
    unfold next
    rw [if_neg (by rw [hc]; exact Bool.false_ne_true)]
  have hdone : c.frameDone = { c with framesProcessed := c.framesProcessed + 1, task := some .done } := hnext hrunning
  unfold loopResume
  split
  · rw [hnext hrunning]
    exact ⟨rfl, rfl⟩
  · rcases hpc with hpc | hw
    · exact absurd rfl hpc
    · cases hw
  · split
    · exact ⟨rfl, rfl⟩
    · rw [hdone]
      exact ⟨rfl, rfl⟩
  · split
    · exact ⟨rfl, rfl⟩
    · rw [hnext hrunning]
      exact ⟨rfl, rfl⟩
  · rw [hdone]
    exact ⟨rfl, rfl⟩
  · rw [hdone]
    exact ⟨rfl, rfl⟩
  · rw [hnext hrunning]
    exact ⟨rfl, rfl⟩
  · rw [hnext hrunning]
    exact ⟨rfl, rfl⟩
  · exact ⟨rfl, rfl⟩
  · exact ⟨rfl, rfl⟩
  · exact ⟨rfl, rfl⟩

theorem stopResume_of_comesToPut {pc : StopPc} {w : Wake Bool} (h : c.comesToPut pc w = true) :
    c.stopResume pc w = c.putMarker := by
  unfold comesToPut at h
  split at h
  · rename_i event
    have hevent : ¬ ((event = true) ∧ c.hasTranscriptCallback = true) := by
      rintro ⟨rfl, hcallback⟩
      rw [hcallback] at h
      cases h
    simp only [stopResume, if_neg hevent]
  · rfl
  · rfl
  · rfl
  · cases h

/-- Everywhere else `stop` leaves the queue alone and does not come to put the marker. -/
theorem stopResume_of_not_comesToPut {pc : StopPc} {w : Wake Bool} (h : c.comesToPut pc w = false) (hpc : pc ≠ .put) :
    ∃ stop, c.stopResume pc w = { c with stop } ∧ stop ≠ .await .put := by
  unfold stopResume
  split
  · rename_i event
    have hevent : (event = true) ∧ c.hasTranscriptCallback = true := by simpa [comesToPut] using h
    rw [if_pos hevent]
    exact ⟨_, rfl, by decide⟩
  · cases h
  · cases h
  · cases h
  · exact absurd rfl hpc
  · split
    · exact ⟨_, rfl, by decide⟩
    · exact ⟨_, rfl, by decide⟩
  · exact ⟨_, rfl, by decide⟩
  · exact ⟨_, rfl, by decide⟩

theorem bounded_append {c : SttConsumer} (hfull : c.full = false) (item : Option Bytes) (hpos : 0 < c.maxQueueSize) :
    (c.queue ++ [item]).length ≤ c.maxQueueSize := by
  have hroom : 0 < c.maxQueueSize → c.queue.length < c.maxQueueSize := by simpa [full] using hfull
  rw [List.length_append, List.length_singleton]
  exact hroom hpos

theorem invariant_putMarker (h : c.Invariant) (hstop : c.stop ≠ .done) : c.putMarker.Invariant := by
  have hrunning := h.stopping hstop
  have htask : c.task ≠ none := fun htask => hstop (h.notStarted htask).2
  unfold putMarker
  split
  · exact ⟨h.bounded, fun htask' => absurd htask' htask, fun _ => hrunning⟩
  · rename_i hfull
    exact ⟨bounded_append (by simpa using hfull) none, fun htask' => absurd htask' htask, fun _ => hrunning⟩

theorem Took.invariant (htook : c.Took t) (h : c.Invariant) : t.Invariant := by
  obtain ⟨⟨front, hqueue⟩, hstop, hrunning, hmax, htask⟩ := htook
  refine ⟨fun hpos => ?_, fun htask' => absurd htask' htask, fun hne => ?_⟩
  · rw [hmax] at hpos ⊢
    have hbounded := h.bounded hpos
    rw [← hqueue, List.length_append] at hbounded
    omega
  · rw [hrunning]
    exact h.stopping (hstop ▸ hne)

theorem Invariant.step (h : c.Invariant) (hstep : c.step l = some t) : t.Invariant := by
  cases l with
  | start =>
      obtain ⟨htask, rfl⟩ := start_of_step hstep
      exact ⟨h.bounded, fun hnone => absurd hnone (Option.some_ne_none _), fun hne => absurd (h.notStarted htask).2 hne⟩
  | processFrame frame =>
      cases hstep
      unfold processFrame
      split
      · exact ⟨h.bounded, h.notStarted, h.stopping⟩
      · rename_i hfull
        exact ⟨bounded_append (by simpa using hfull) (some frame), h.notStarted, h.stopping⟩
  | loop w =>
      obtain ⟨pc, -, -, -, rfl⟩ := loop_of_step hstep
      exact (took_loopResume c pc w).invariant h
  | stop =>
      cases hstep
      split
      · rename_i hrunning
        have htask : c.task ≠ none := fun htask => by
          rw [(h.notStarted htask).1] at hrunning
          cases hrunning
        exact ⟨h.bounded, fun htask' => absurd htask' htask, fun _ => rfl⟩
      · exact h
  | stopping w =>
      obtain ⟨pc, cancelling, hpc, -, rfl⟩ := stopping_of_step hstep
      have hstop : c.stop ≠ .done := by
        rw [hpc]
        exact fun hdone => by cases hdone
      have htask : c.task ≠ none := fun htask => hstop (h.notStarted htask).2
      have hother : ∀ stop, ({ c with stop } : SttConsumer).Invariant := fun _ =>
        ⟨h.bounded, fun htask' => absurd htask' htask, fun _ => h.stopping hstop⟩
      cases hput : c.comesToPut pc w with
      | true =>
          rw [stopResume_of_comesToPut hput]
          exact invariant_putMarker h hstop
      | false =>
          by_cases hat : pc = .put
          · subst hat
            cases w with
            | ok event => exact invariant_putMarker h hstop
            | raised | cancelled => exact hother _
          · obtain ⟨stop, heq, -⟩ := stopResume_of_not_comesToPut hput hat
            rw [heq]
            exact hother stop
  | timeout =>
      obtain ⟨hstop, rfl⟩ := timeout_of_step hstep
      have hne : c.stop ≠ .done := by
        rw [hstop]
        exact fun hdone => by cases hdone
      have htask : c.task ≠ none := fun htask => hne (h.notStarted htask).2
      exact ⟨h.bounded, fun htask' => absurd (Option.map_eq_none_iff.mp htask') htask, fun _ => h.stopping hne⟩

/-! ## When `stop` gets stuck -/

theorem takes_eq (hrunning : c.running = false) : c.takes = c.atGet := by
  unfold takes
  rw [hrunning, Bool.false_and, Bool.or_false]

theorem Invariant.running (h : c.Invariant) (hput : c.atPut = true) : c.running = false := by
  apply h.stopping
  have hstop : c.stop = .await .put := of_decide_eq_true hput
  rw [hstop]
  exact fun hdone => by cases hdone

theorem not_stuck_of_stop (stop : Coroutine StopPc) (hstop : c.stop = stop) (hne : stop ≠ .await .put) : ¬ c.Stuck := by
  intro hstuck
  have hput : c.stop = .await .put := of_decide_eq_true hstuck.1
  exact hne (hstop.symm.trans hput)

/-- While `stop` waits, the loop does not fill the queue, and it leaves `get` with a frame in its hand. -/
theorem not_stuck_loopResume (h : c.Invariant) (hstuck : ¬ c.Stuck) {pc : LoopPc} {cancelling : Bool} {w : Wake Bool}
    (hpc : c.task = some (.suspended pc cancelling)) (henabled : c.loopEnabled pc cancelling w = true) :
    ¬ (c.loopResume pc w).Stuck := by
  rintro ⟨hput, hfull, -⟩
  obtain ⟨⟨front, hqueue⟩, hstop, hrunning, hmax, -⟩ := took_loopResume c pc w
  have hput' : c.atPut = true := by
    unfold atPut at hput ⊢
    rw [← hstop]
    exact hput
  have hfull' : 0 < c.maxQueueSize ∧ c.maxQueueSize ≤ (c.loopResume pc w).queue.length := by
    have hfull := of_decide_eq_true hfull
    rw [hmax] at hfull
    exact hfull
  have hlength : front.length + (c.loopResume pc w).queue.length = c.queue.length := by
    rw [← hqueue, List.length_append]
  have hget : c.atGet = true := by
    by_contra hget
    refine hstuck ⟨hput', decide_eq_true ⟨hfull'.1, by omega⟩, ?_⟩
    rw [takes_eq (h.running hput')]
    exact Bool.eq_false_iff.mpr hget
  have hat : c.task = some (.suspended .queueGet false) := of_decide_eq_true hget
  rw [hpc, Option.some.injEq, Coroutine.suspended.injEq] at hat
  obtain ⟨rfl, rfl⟩ := hat
  -- The loop waits in `get`, so it takes an item.
  cases w with
  | raised | cancelled => simp [loopEnabled, LoopPc.outside, Wake.fits] at henabled
  | ok event =>
      have hbounded := h.bounded hfull'.1
      have htaken : (c.loopResume .queueGet (.ok event)).queue.length + 1 ≤ c.queue.length ∨ c.queue = [] := by
        show c.getFrame.queue.length + 1 ≤ _ ∨ _
        unfold getFrame
        split
        · exact Or.inr (by assumption)
        · rename_i heq
          exact Or.inl (by rw [heq]; exact le_refl _)
        · rename_i heq
          exact Or.inl (by rw [heq]; exact le_refl _)
      rcases htaken with htaken | hnil
      · omega
      · simp [loopEnabled, hnil] at henabled

theorem stuck_processFrame_iff (h : c.Invariant) (hstuck : ¬ c.Stuck) (frame : Bytes) :
    (c.processFrame frame).2.Stuck ↔ c.roomToStop (.processFrame frame) = false := by
  have hroom : c.roomToStop (.processFrame frame) = false ↔
      c.atPut = true ∧ c.atGet = false ∧ c.queue.length + 1 = c.maxQueueSize := by
    simp [roomToStop, and_assoc]
  rw [hroom]
  unfold processFrame
  split
  · rename_i hfull
    refine iff_of_false hstuck ?_
    rintro ⟨-, -, hlast⟩
    have hle := (of_decide_eq_true hfull).2
    omega
  · rename_i hfull
    have hshort : 0 < c.maxQueueSize → c.queue.length < c.maxQueueSize := by simpa [full] using hfull
    constructor
    · rintro ⟨hput, hfull', htakes⟩
      have htakes' : c.atGet = false := (takes_eq (h.running hput)).symm.trans htakes
      have hle : 0 < c.maxQueueSize ∧ c.maxQueueSize ≤ (c.queue ++ [some frame]).length := of_decide_eq_true hfull'
      rw [List.length_append, List.length_singleton] at hle
      exact ⟨hput, htakes', by have hlt := hshort hle.1; omega⟩
    · rintro ⟨hput, hget, hlast⟩
      have hpos : 0 < c.maxQueueSize := by omega
      refine ⟨hput, decide_eq_true ⟨hpos, ?_⟩, (takes_eq (h.running hput)).trans hget⟩
      show c.maxQueueSize ≤ (c.queue ++ [some frame]).length
      rw [List.length_append, List.length_singleton]
      omega

theorem stuck_stopResume_iff (h : c.Invariant) {pc : StopPc} {cancelling : Bool} {w : Wake Bool}
    (hpc : c.stop = .suspended pc cancelling) (henabled : c.stopEnabled pc cancelling w = true) :
    (c.stopResume pc w).Stuck ↔ c.roomToStop (.stopping w) = false := by
  have hroom : c.roomToStop (.stopping w) = false ↔ c.comesToPut pc w = true ∧ c.full = true ∧ c.atGet = false := by
    simp [roomToStop, hpc, and_assoc]
  have hrunning : c.running = false := h.stopping (by rw [hpc]; exact fun hdone => by cases hdone)
  rw [hroom]
  cases hput : c.comesToPut pc w with
  | true =>
      rw [stopResume_of_comesToPut hput]
      unfold putMarker
      split
      · rename_i hfull
        have htakes : ({ c with stop := .await .put } : SttConsumer).takes = c.atGet := takes_eq hrunning
        refine ⟨fun hstuck => ⟨rfl, hfull, htakes.symm.trans hstuck.2.2⟩, fun hget => ⟨rfl, hfull, htakes.trans hget.2.2⟩⟩
      · rename_i hfull
        exact iff_of_false (not_stuck_of_stop (.await .join) rfl (by decide)) (fun hget => hfull hget.2.1)
  | false =>
      refine iff_of_false (fun hstuck => ?_) (fun hget => Bool.false_ne_true hget.1)
      by_cases hat : pc = .put
      · subst hat
        cases w with
        | ok event =>
            have hfull : c.full = false := by
              simp only [stopEnabled, Bool.and_eq_true, Bool.not_eq_true'] at henabled
              exact henabled.2
            have hplaced : c.stopResume .put (.ok event) = { c with queue := c.queue ++ [none], stop := .await .join } :=
              if_neg (by rw [hfull]; exact Bool.false_ne_true)
            rw [hplaced] at hstuck
            exact not_stuck_of_stop (.await .join) rfl (by decide) hstuck
        | raised | cancelled => exact not_stuck_of_stop .done rfl (by decide) hstuck
      · obtain ⟨stop, heq, hne⟩ := stopResume_of_not_comesToPut hput hat
        rw [heq] at hstuck
        exact not_stuck_of_stop stop rfl hne hstuck

/-- A step gets `stop` stuck exactly when there is no room for it. -/
theorem stuck_step_iff (h : c.Invariant) (hstuck : ¬ c.Stuck) (hstep : c.step l = some t) :
    t.Stuck ↔ c.roomToStop l = false := by
  cases l with
  | start =>
      obtain ⟨htask, rfl⟩ := start_of_step hstep
      refine iff_of_false (fun hs => ?_) Bool.noConfusion
      have hstop : c.stop = .await .put := of_decide_eq_true hs.1
      rw [(h.notStarted htask).2] at hstop
      cases hstop
  | processFrame frame =>
      cases hstep
      exact stuck_processFrame_iff h hstuck frame
  | loop w =>
      obtain ⟨pc, cancelling, hpc, henabled, rfl⟩ := loop_of_step hstep
      exact iff_of_false (not_stuck_loopResume h hstuck hpc henabled) Bool.noConfusion
  | stop =>
      cases hstep
      refine iff_of_false ?_ Bool.noConfusion
      split
      · exact not_stuck_of_stop (.await .finalize) rfl (by decide)
      · exact hstuck
  | stopping w =>
      obtain ⟨pc, cancelling, hpc, henabled, rfl⟩ := stopping_of_step hstep
      exact stuck_stopResume_iff h hpc henabled
  | timeout =>
      obtain ⟨-, rfl⟩ := timeout_of_step hstep
      exact iff_of_false (not_stuck_of_stop (.await .joinCancelled) rfl (by decide)) Bool.noConfusion

/-- Nothing gets `stop` out of it. -/
theorem stuck_step (h : c.Invariant) (hstuck : c.Stuck) (hstep : c.step l = some t) : t.Stuck := by
  obtain ⟨hput, hfull, htakes⟩ := hstuck
  have hrunning := h.running hput
  have hget : c.atGet = false := (takes_eq hrunning).symm.trans htakes
  have hstop : c.stop = .await .put := of_decide_eq_true hput
  cases l with
  | start =>
      obtain ⟨htask, rfl⟩ := start_of_step hstep
      rw [(h.notStarted htask).2] at hstop
      cases hstop
  | processFrame frame =>
      cases hstep
      unfold processFrame
      rw [if_pos hfull]
      exact ⟨hput, hfull, htakes⟩
  | loop w =>
      obtain ⟨pc, cancelling, hpc, henabled, rfl⟩ := loop_of_step hstep
      obtain ⟨-, hstop', hrunning', hmax, -⟩ := took_loopResume c pc w
      have hat : pc ≠ .queueGet ∨ w = .cancelled := by
        by_contra hor
        obtain ⟨hpc', hw⟩ := not_or.mp hor
        obtain rfl := not_not.mp hpc'
        cases cancelling with
        | false => exact absurd (decide_eq_true hpc) (Bool.eq_false_iff.mp hget)
        | true => cases w <;> simp [loopEnabled, Wake.fits] at henabled hw
      obtain ⟨hget', hqueue⟩ := atGet_loopResume hrunning hat
      refine ⟨?_, ?_, (takes_eq (hrunning'.trans hrunning)).trans hget'⟩
      · exact decide_eq_true (hstop'.trans hstop)
      · unfold full at hfull ⊢
        rw [hmax, hqueue]
        exact hfull
  | stop =>
      cases hstep
      rw [if_neg (by rw [hrunning]; exact Bool.false_ne_true)]
      exact ⟨hput, hfull, htakes⟩
  | stopping w =>
      simp only [SttConsumer.step] at hstep
      rw [hstop] at hstep
      cases w <;> simp [Coroutine.await, stopEnabled, StopPc.outside, Wake.fits, hfull] at hstep
  | timeout =>
      obtain ⟨hjoin, -⟩ := timeout_of_step hstep
      rw [hstop] at hjoin
      cases hjoin

theorem invariant_init (maxQueueSize : Nat) (transcript error : Bool) :
    ({ maxQueueSize, hasTranscriptCallback := transcript, hasErrorCallback := error } : SttConsumer).Invariant :=
  ⟨fun _ => Nat.zero_le _, fun _ => ⟨rfl, rfl⟩, fun _ => rfl⟩

/-- A run leaves `stop` able to end exactly when all its steps leave it room; one that does not is never made good. -/
theorem run_roomToStop_iff (maxQueueSize : Nat) (transcript error : Bool) {ls : List SttLabel}
    (h : Run step (fun _ _ => True)
      { maxQueueSize, hasTranscriptCallback := transcript, hasErrorCallback := error } ls c) :
    Run step (fun c l => c.roomToStop l = true)
        { maxQueueSize, hasTranscriptCallback := transcript, hasErrorCallback := error } ls c ↔ ¬ c.Stuck := by
  have hinv := fun {ls c} (h : Run step (fun _ _ => True)
      { maxQueueSize, hasTranscriptCallback := transcript, hasErrorCallback := error } ls c) =>
    h.invariant (invariant_init maxQueueSize transcript error) (fun ht _ hu => ht.step hu)
  induction h with
  | nil => exact iff_of_true .nil (not_stuck_of_stop .done rfl (by decide))
  | @snoc ls t u l hrun _ hstep ih =>
      have ht := hinv hrun
      constructor
      · intro hroom hstuck
        obtain ⟨t', hrun', hl, -⟩ := hroom.last
        obtain rfl := hrun'.unique hrun
        rw [(stuck_step_iff ht (ih.mp hrun') hstep).mp hstuck] at hl
        cases hl
      · intro hstuck
        have ht' : ¬ t.Stuck := fun ht' => hstuck (stuck_step ht ht' hstep)
        have hl : t.roomToStop l = true := by
          by_contra hl
          exact hstuck ((stuck_step_iff ht ht' hstep).mpr (Bool.eq_false_iff.mpr hl))
        exact (ih.mpr ht').snoc hl hstep

/-- The frames of a turn end while the recogniser is busy: the loop ends after its frame, and the queue stays full. -/
theorem stuck_of_busy : ∃ ls c, Run step (fun _ _ => True) { maxQueueSize := 1 } ls c ∧ c.Stuck := by
  let ls : List SttLabel := [.start, .loop (.ok false), .processFrame [1], .loop (.ok false), .processFrame [2], .stop,
    .loop (.ok false), .stopping (.ok false)]
  have hexec : (exec step (fun _ _ => True) { maxQueueSize := 1 } ls).any (fun c => c.atPut && c.full && !c.takes) = true := by
    decide +kernel
  obtain ⟨c, hrun, hc⟩ := Run.exists_of_exec hexec
  exact ⟨ls, c, hrun, by simpa [Stuck, and_assoc] using hc⟩

/-- A call with a frame on the way leaves `stop` its room. -/
theorem run_roomToStop_iff_idle : ∃ ls c, Run step (fun c l => c.roomToStop l = true) { maxQueueSize := 2 } ls c ∧
    c.stop = .await .join ∧ ¬ c.Stuck := by
  let ls : List SttLabel := [.start, .loop (.ok false), .processFrame [1], .loop (.ok false), .processFrame [2], .stop,
    .stopping (.ok false)]
  have hexec : (exec step (fun c l => c.roomToStop l = true) { maxQueueSize := 2 } ls).any
      (fun c => c.stop = .await .join) = true := by decide +kernel
  obtain ⟨c, hrun, hc⟩ := Run.exists_of_exec hexec
  exact ⟨ls, c, hrun, of_decide_eq_true hc,
    (run_roomToStop_iff 2 true true (hrun.mono (fun _ _ _ => trivial))).mp hrun⟩

end SttConsumer

end Voxera.Streaming
