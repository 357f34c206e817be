import Voxera.Streaming.AudioQueue
import Voxera.Streaming.SttConsumer

/-!
# The way of an audio frame

The receive loop puts each frame on the `AudioFrameQueue`, `_dispatch_loop` takes it there, gives it to its callback and
puts it on the queue of the `STTConsumer`, whose loop passes it to the engine.

* `Inbound.step` : the three loops, `stop` of both consumers, and a ledger of the frames received;
* `Place` : where a frame is, or what has become of it; `Place.notBehind` : no frame overtakes another;
* `Inbound.Accounted` : what holds in every run (`run_accounted_inbound`).
-/

namespace Voxera.Streaming

open EventLoop Ledger

inductive Place where
  | audioQueue
  | droppedByAudioQueue
  /-- In the callback of the dispatcher. -/
  | dispatching
  /-- The callback raised, or the STT consumer was not running. -/
  | skipped
  | sttQueue
  | droppedBySttQueue
  /-- In `process_audio`. -/
  | recognizing
  | processed
  /-- `process_audio` raised. -/
  | failed
  deriving DecidableEq, Repr

namespace Place

/-- The frame was passed to the engine. -/
def passed : Place → Bool
  | .recognizing | .processed | .failed => true
  | _ => false

/-- How far a frame has come that was not dropped or skipped. -/
def rank : Place → Option Nat
  | .audioQueue => some 0
  | .dispatching => some 1
  | .sttQueue => some 2
  | .recognizing | .processed | .failed => some 3
  | _ => none

/-- A frame at `i` is not behind a later one at `j`. -/
def notBehind (i j : Place) : Bool := i.rank.all (fun a => j.rank.all (fun b => b ≤ a))

end Place

/-- The suspension points of `_dispatch_loop`. -/
inductive DispatchPc where
  | created
  /-- The idle wait; it ends with its timeout at the latest. -/
  | waitForFrame
  | callback (frame : FrameWithId)
  | sleep
  deriving DecidableEq, Repr

/-- The dispatcher between its two queues. -/
structure Inbound where
  audio : AudioFrameQueue
  stt : SttConsumer
  /-- `register_stt_consumer` was called. -/
  registered : Bool := true
  running : Bool := true
  task : Coroutine DispatchPc := .await .created
  framesDispatched : Nat := 0
  /-- All the frames received. -/
  ledger : List (FrameWithId × Place) := []
  /-- The frames passed to `process_audio`. -/
  passed : List Bytes := []

inductive InboundLabel where
  /-- The receive loop enqueues a frame. -/
  | receive (frame : Bytes) (frameId : Option ℤ)
  /-- `_dispatch_loop` runs on. -/
  | dispatch (w : Wake Unit)
  | stop
  /-- The dispatcher did not end in time. -/
  | cancel
  /-- The STT consumer takes a step other than `process_frame`. -/
  | stt (l : SttLabel)
  deriving DecidableEq, Repr

def InboundLabel.frame? : InboundLabel → Option Bytes
  | .receive frame _ => some frame
  | _ => none

namespace SttConsumer

/-- The frame in `process_audio`. -/
def inHand (c : SttConsumer) : Option Bytes :=
  match c.task with
  | some (.suspended (.processAudio frame) _) => some frame
  | _ => none

/-- The frames on the queue. -/
def frames (c : SttConsumer) : List Bytes := c.queue.filterMap id

/-- The loop takes the first frame of the queue, or none. -/
def Takes (c t : SttConsumer) : Prop := c.frames = t.inHand.toList ++ t.frames ∧ t.framesDropped = c.framesDropped

theorem takes_getFrame (c : SttConsumer) : c.Takes c.getFrame := by
  unfold getFrame Takes
  split
  · exact ⟨rfl, rfl⟩
  · rename_i queue hqueue
    refine ⟨?_, rfl⟩
    unfold frames
    rw [hqueue]
    rfl
  · rename_i frame queue hqueue
    refine ⟨?_, rfl⟩
    unfold frames
    rw [hqueue]
    rfl

theorem takes_next (c : SttConsumer) : c.Takes c.next := by
  unfold next
  split
  · exact takes_getFrame c
  · exact ⟨rfl, rfl⟩

theorem takes_loopResume (c : SttConsumer) (pc : LoopPc) (w : Wake Bool) : c.Takes (c.loopResume pc w) := by
  unfold loopResume
  split
  · exact takes_next c
  · exact takes_getFrame c
  · split
    · exact ⟨rfl, rfl⟩
    · exact takes_next { c with framesProcessed := c.framesProcessed + 1 }
  · split
    · exact ⟨rfl, rfl⟩
    · exact takes_next c
  · exact takes_next { c with framesProcessed := c.framesProcessed + 1 }
  · exact takes_next { c with framesProcessed := c.framesProcessed + 1 }
  · exact takes_next c
  · exact takes_next c
  · exact ⟨rfl, rfl⟩
  · exact ⟨rfl, rfl⟩
  · exact ⟨rfl, rfl⟩

/-- The steps other than those of the loop and of `process_frame` leave the frames where they are. -/
def Leaves (c t : SttConsumer) : Prop :=
  t.frames = c.frames ∧ t.inHand = c.inHand ∧ t.framesDropped = c.framesDropped

theorem leaves_putMarker (c : SttConsumer) : c.Leaves c.putMarker := by
  unfold putMarker
  split
  · exact ⟨rfl, rfl, rfl⟩
  · refine ⟨?_, rfl, rfl⟩
    show (c.queue ++ [none]).filterMap id = c.queue.filterMap id
    rw [List.filterMap_append]
    exact List.append_nil _

theorem leaves_stopResume (c : SttConsumer) (pc : StopPc) (w : Wake Bool) : c.Leaves (c.stopResume pc w) := by
  unfold stopResume
  split
  · split
    · exact ⟨rfl, rfl, rfl⟩
    · exact leaves_putMarker c
  · exact leaves_putMarker c
  · exact leaves_putMarker c
  · exact leaves_putMarker c
  · exact leaves_putMarker c
  · split <;> exact ⟨rfl, rfl, rfl⟩
  · exact ⟨rfl, rfl, rfl⟩
  · exact ⟨rfl, rfl, rfl⟩

theorem leaves_step {c t : SttConsumer} {l : SttLabel} (hloop : ∀ w, l ≠ .loop w) (hframe : ∀ frame, l ≠ .processFrame frame)
    (hstep : c.step l = some t) : c.Leaves t := by
  cases l with
  | loop w => exact absurd rfl (hloop w)
  | processFrame frame => exact absurd rfl (hframe frame)
  | start =>
      simp only [step, Option.ite_none_right_eq_some, Option.some.injEq] at hstep
      obtain ⟨htask, rfl⟩ := hstep
      refine ⟨rfl, ?_, rfl⟩
      unfold inHand
      rw [htask]
      rfl
  | stop =>
      cases hstep
      split <;> exact ⟨rfl, rfl, rfl⟩
  | stopping w =>
      simp only [step] at hstep
      split at hstep
      · simp only [Option.ite_none_right_eq_some, Option.some.injEq] at hstep
        obtain ⟨-, rfl⟩ := hstep
        exact leaves_stopResume c _ w
      · cases hstep
  | timeout =>
      simp only [step, Option.ite_none_right_eq_some, Option.some.injEq] at hstep
      obtain ⟨-, rfl⟩ := hstep
      refine ⟨rfl, ?_, rfl⟩
      unfold inHand
      cases c.task with
      | none => rfl
      | some task =>
          cases task with
          | done => rfl
          | suspended pc cancelling => cases pc <;> rfl

end SttConsumer

namespace Inbound

/-- `while self._running` and `dequeue`. -/
def next (s : Inbound) : Inbound :=
  if s.running then
    match s.audio.dequeue with
    | (some frame, audio) =>
      { s with audio, task := .await (.callback frame), ledger := move .audioQueue .dispatching s.ledger }
    | (none, audio) => { s with audio, task := .await .waitForFrame }
  else { s with task := .done }

/-- The callback has returned. -/
def handOver (s : Inbound) (frame : FrameWithId) : Inbound :=
  let s := { s with framesDispatched := s.framesDispatched + 1, task := .await .sleep }
  if s.registered ∧ s.stt.running then
    let (queued, stt) := s.stt.processFrame frame.frame
    { s with stt, ledger := move .dispatching (if queued then .sttQueue else .droppedBySttQueue) s.ledger }
  else { s with ledger := move .dispatching .skipped s.ledger }

/-- `_dispatch_loop` from the suspension point `pc` to the next one. -/
def resume (s : Inbound) : DispatchPc → Wake Unit → Inbound
  | .created, .ok _ | .waitForFrame, .ok _ | .sleep, .ok _ => s.next
  | .callback frame, .ok _ => s.handOver frame
  | .callback _, .raised => { s with task := .await .sleep, ledger := move .dispatching .skipped s.ledger }
  | .callback _, .cancelled => { s with task := .done, ledger := move .dispatching .skipped s.ledger }
  | _, _ => { s with task := .done }

def enabled (pc : DispatchPc) (cancelling : Bool) (w : Wake Unit) : Bool :=
  match pc with
  | .callback _ => w.fits cancelling || w = .cancelled
  | _ => w.fits cancelling && w ≠ .raised

/-- What becomes of the frame in `process_audio`. -/
def afterEngine : Wake Bool → Place
  | .ok _ => .processed
  | _ => .failed

/-- The ledger when the process loop has run on, from `c` to `t`. -/
def recognized (c t : SttConsumer) (w : Wake Bool) (ledger : List (FrameWithId × Place)) : List (FrameWithId × Place) :=
  let ledger := if c.inHand.isSome then move .recognizing (afterEngine w) ledger else ledger
  if t.inHand.isSome then move .sttQueue .recognizing ledger else ledger

def step (s : Inbound) : InboundLabel → Option Inbound
  | .receive frame frameId =>
    let entry : FrameWithId := { frame, frameId := frameId.getD (-1) }
    some { s with
      audio := s.audio.enqueue frame frameId
      ledger := (if s.audio.isFull then move .audioQueue .droppedByAudioQueue s.ledger else s.ledger) ++ [(entry, .audioQueue)] }
  | .dispatch w =>
    match s.task with
    | .suspended pc cancelling => if enabled pc cancelling w then some (s.resume pc w) else none
    | .done => none
  | .stop => some { s with running := false }
  | .cancel => if s.running then none else some { s with task := s.task.cancel }
  | .stt (.processFrame _) => none
  | .stt (.loop w) =>
    (s.stt.step (.loop w)).map (fun stt =>
      { s with stt, ledger := recognized s.stt stt w s.ledger, passed := s.passed ++ stt.inHand.toList })
  | .stt l => (s.stt.step l).map (fun stt => { s with stt })

/-- The dispatcher leaves the loop of the STT consumer alone. -/
theorem stt_dispatch {s t : Inbound} {w : Wake Unit} (hstep : s.step (.dispatch w) = some t) :
    t.stt.task = s.stt.task ∧ t.stt.hasTranscriptCallback = s.stt.hasTranscriptCallback := by
  have hnext : s.next.stt = s.stt := by
    unfold next
    split
    · split <;> rfl
    · rfl
  have hhandOver : ∀ frame, (s.handOver frame).stt.task = s.stt.task ∧
      (s.handOver frame).stt.hasTranscriptCallback = s.stt.hasTranscriptCallback := by
    intro frame
    unfold handOver SttConsumer.processFrame
    dsimp only
    split
    · split <;> exact ⟨rfl, rfl⟩
    · exact ⟨rfl, rfl⟩
  simp only [step] at hstep
  split at hstep
  · simp only [Option.ite_none_right_eq_some, Option.some.injEq] at hstep
    obtain ⟨-, rfl⟩ := hstep
    unfold resume
    split
    · exact ⟨by rw [hnext], by rw [hnext]⟩
    · exact ⟨by rw [hnext], by rw [hnext]⟩
    · exact ⟨by rw [hnext], by rw [hnext]⟩
    · exact hhandOver _
    · exact ⟨rfl, rfl⟩
    · exact ⟨rfl, rfl⟩
    · exact ⟨rfl, rfl⟩
  · cases hstep

/-- The frame in the callback. -/
def inCallback (s : Inbound) : Option FrameWithId :=
  match s.task with
  | .suspended (.callback frame) _ => some frame
  | _ => none

/-- The ledger places the frames where they are. -/
structure Placed (s : Inbound) : Prop where
  audioQueue : select (· = .audioQueue) s.ledger = s.audio.queue
  dispatching : select (· = .dispatching) s.ledger = s.inCallback.toList
  sttQueue : (select (· = .sttQueue) s.ledger).map FrameWithId.frame = s.stt.frames
  recognizing : (select (· = .recognizing) s.ledger).map FrameWithId.frame = s.stt.inHand.toList
  droppedByAudioQueue : s.audio.framesDropped = (select (· = .droppedByAudioQueue) s.ledger).length
  droppedBySttQueue : s.stt.framesDropped = (select (· = .droppedBySttQueue) s.ledger).length
  passed : (select Place.passed s.ledger).map FrameWithId.frame = s.passed

/-- What holds when the frames of `received` have come. -/
structure Accounted (received : List Bytes) (s : Inbound) : Prop extends s.Placed where
  /-- Every frame received is at one place. -/
  ledger : s.ledger.map (fun e => e.1.frame) = received
  /-- The frames passed to the engine are some of the frames received, in their order. -/
  inOrder : s.passed.Sublist received

/-- No frame is behind a later one. -/
def InOrder (ledger : List (FrameWithId × Place)) : Prop := Ordered (fun i j => i.notBehind j = true) ledger

structure Invariant (maxSize : Nat) (received : List Bytes) (s : Inbound) : Prop where
  placed : s.Placed
  items : (s.ledger.map Prod.fst).map FrameWithId.frame = received
  ordered : InOrder s.ledger
  positive : 1 ≤ maxSize
  size : s.audio.maxSize = maxSize
  bounded : s.audio.queue.length ≤ maxSize

variable {maxSize : Nat} {received : List Bytes} {s t : Inbound} {l : InboundLabel}
  {ledger : List (FrameWithId × Place)} {k k' : Place}

theorem Invariant.accounted (h : Invariant maxSize received s) : s.Accounted received where
  toPlaced := h.placed
  ledger := by
    rw [← h.items, List.map_map]
    rfl
  inOrder := by
    rw [← h.placed.passed, ← h.items]
    exact (select_sublist _ _).map _

/-! ## Moves of the ledger -/

/-- A frame goes to a place from where no later frame has overtaken it. -/
theorem InOrder.move (h : InOrder ledger)
    (hearlier : ∀ j, j ≠ k → j.notBehind k = true → j.notBehind k' = true)
    (hlater : ∀ j, k.notBehind j = true → k'.notBehind j = true) : InOrder (move k k' ledger) :=
  Ordered.move h hearlier hlater

/-- The frames at `k` are the last ones before the selection. -/
theorem InOrder.none_behind (h : InOrder ledger) {p : Place → Bool} (hp : ∀ j, k.notBehind j = true → p j = false) :
    Ordered (fun i j => i = k → p j = false) ledger := h.imp (fun hR hi => hp _ (hi ▸ hR))

theorem select_move_other {j : Place} (hk : (k == j) = false) (hk' : (k' == j) = false) (ledger : List (FrameWithId × Place)) :
    select (· = j) (move k k' ledger) = select (· = j) ledger := by
  apply select_move_eq
  rw [decide_eq_false (beq_eq_false_iff_ne.mp hk), decide_eq_false (beq_eq_false_iff_ne.mp hk')]

theorem select_move_from (hne : k ≠ k') (ledger : List (FrameWithId × Place)) :
    select (· = k) (move k k' ledger) = (select (· = k) ledger).tail :=
  select_move_tail (by simp) hne ledger

theorem select_move_to (h : InOrder ledger) (hne : k ≠ k') (hbehind : k.notBehind k' = false) :
    select (· = k') (move k k' ledger) = select (· = k') ledger ++ (select (· = k) ledger).head?.toList := by
  apply select_move_head (p := (· = k')) (q := (· = k)) (by simp) (decide_eq_false hne) (decide_eq_true rfl)
  apply h.none_behind
  intro j hj
  apply decide_eq_false
  intro hj'
  rw [hj', hbehind] at hj
  cases hj

theorem length_select_move_to (hne : k ≠ k') (ledger : List (FrameWithId × Place)) :
    (select (· = k') (move k k' ledger)).length =
      (select (· = k') ledger).length + (select (· = k) ledger).head?.toList.length :=
  length_select_move (p := (· = k')) (q := (· = k)) (by simp) (decide_eq_false hne) (decide_eq_true rfl) ledger

/-! ## The steps -/

/-- The ledger after the oldest frame of the audio queue was dropped, if that is full. -/
theorem Invariant.dropOldest (h : Invariant maxSize received s)
    (hledger : (if s.audio.isFull then move .audioQueue .droppedByAudioQueue s.ledger else s.ledger) = ledger) :
    ledger.map Prod.fst = s.ledger.map Prod.fst ∧ InOrder ledger ∧
      ({ s with
        ledger
        audio := { s.audio with
          queue := s.audio.kept
          framesDropped := if s.audio.isFull then s.audio.framesDropped + 1 else s.audio.framesDropped } } : Inbound).Placed := by
  have hp := h.placed
  unfold AudioFrameQueue.kept
  cases hfull : s.audio.isFull with
  | false =>
      rw [hfull, if_neg Bool.false_ne_true] at hledger
      subst hledger
      exact ⟨rfl, h.ordered, { hp with }⟩
  | true =>
      rw [hfull, if_pos rfl] at hledger
      subst hledger
      obtain ⟨oldest, rest, hqueue⟩ := AudioFrameQueue.exists_cons_of_isFull (h.size ▸ h.positive) hfull
      refine ⟨map_fst_move _ _ _, h.ordered.move (by intro j; cases j <;> decide) (by intro j; cases j <;> decide), ?_⟩
      exact {
        audioQueue := (select_move_from (by decide) _).trans (congrArg List.tail hp.audioQueue)
        dispatching := (select_move_other rfl rfl _).trans hp.dispatching
        sttQueue := (congrArg _ (select_move_other rfl rfl _)).trans hp.sttQueue
        recognizing := (congrArg _ (select_move_other rfl rfl _)).trans hp.recognizing
        droppedByAudioQueue := by
          show s.audio.framesDropped + 1 = (select _ (Ledger.move _ _ _)).length
          rw [length_select_move_to (by decide), ← hp.droppedByAudioQueue, hp.audioQueue, hqueue]
          rfl
        droppedBySttQueue := hp.droppedBySttQueue.trans (congrArg _ (select_move_other rfl rfl _)).symm
        passed := (congrArg _ (select_move_eq (by rfl) _)).trans hp.passed }

theorem Invariant.receive (h : Invariant maxSize received s) (frame : Bytes) (frameId : Option ℤ)
    (hstep : s.step (.receive frame frameId) = some t) : Invariant maxSize (received ++ [frame]) t := by
  have hpos := h.size ▸ h.positive
  have hbounded := h.bounded
  rw [← h.size] at hbounded
  have hqueue := AudioFrameQueue.enqueue_queue hpos hbounded frame frameId
  have hroom := AudioFrameQueue.length_kept hpos hbounded
  simp only [step, Option.some.injEq] at hstep
  generalize hledger : (if s.audio.isFull then Ledger.move .audioQueue .droppedByAudioQueue s.ledger else s.ledger) = ledger
    at hstep
  obtain ⟨hitems, hordered, hp⟩ := h.dropOldest hledger
  subst hstep
  generalize hentry : ({ frame, frameId := frameId.getD (-1) } : FrameWithId) = entry at hqueue
  have hframe : entry.frame = frame := by rw [← hentry]
  have hselect : ∀ p : Place → Bool, p .audioQueue = false → select p (ledger ++ [(entry, .audioQueue)]) = select p ledger := by
    intro p hp
    rw [select_append, select_cons_of_neg hp, select_nil, List.append_nil]
  exact {
    placed := {
      audioQueue := by
        show select (· = .audioQueue) (ledger ++ [(entry, Place.audioQueue)]) = (s.audio.enqueue frame frameId).queue
        rw [select_append, hp.audioQueue, hqueue]
        rfl
      dispatching := (hselect (· = .dispatching) rfl).trans hp.dispatching
      sttQueue := (congrArg _ (hselect (· = .sttQueue) rfl)).trans hp.sttQueue
      recognizing := (congrArg _ (hselect (· = .recognizing) rfl)).trans hp.recognizing
      droppedByAudioQueue := hp.droppedByAudioQueue.trans (congrArg _ (hselect (· = .droppedByAudioQueue) rfl)).symm
      droppedBySttQueue := hp.droppedBySttQueue.trans (congrArg _ (hselect (· = .droppedBySttQueue) rfl)).symm
      passed := (congrArg _ (hselect Place.passed rfl)).trans hp.passed }
    items := by
      show ((ledger ++ [(entry, Place.audioQueue)]).map Prod.fst).map FrameWithId.frame = received ++ [frame]
      rw [List.map_append, hitems, List.map_append, h.items, ← hframe]
      rfl
    ordered := hordered.append (by intro a _; cases a.2 <;> rfl)
    positive := h.positive
    size := h.size
    bounded := by
      show (s.audio.enqueue frame frameId).queue.length ≤ maxSize
      rw [hqueue, List.length_append, List.length_singleton, ← h.size]
      omega }

/-- A step that leaves the ledger and the frames where they are. -/
theorem Invariant.same (h : Invariant maxSize received s) (hledger : t.ledger = s.ledger) (hpassed : t.passed = s.passed)
    (hqueue : t.audio.queue = s.audio.queue) (hsize : t.audio.maxSize = s.audio.maxSize)
    (hdropped : t.audio.framesDropped = s.audio.framesDropped) (hcallback : t.inCallback = s.inCallback)
    (hframes : t.stt.frames = s.stt.frames) (hhand : t.stt.inHand = s.stt.inHand)
    (hdropped' : t.stt.framesDropped = s.stt.framesDropped) : Invariant maxSize received t := by
  have hp := h.placed
  refine ⟨⟨?_, ?_, ?_, ?_, ?_, ?_, ?_⟩, ?_, ?_, h.positive, ?_, ?_⟩
  · rw [hledger, hqueue, hp.audioQueue]
  · rw [hledger, hcallback, hp.dispatching]
  · rw [hledger, hframes, hp.sttQueue]
  · rw [hledger, hhand, hp.recognizing]
  · rw [hledger, hdropped, hp.droppedByAudioQueue]
  · rw [hledger, hdropped', hp.droppedBySttQueue]
  · rw [hledger, hpassed, hp.passed]
  · rw [hledger, h.items]
  · rw [hledger]
    exact h.ordered
  · rw [hsize, h.size]
  · rw [hqueue]
    exact h.bounded

/-- The dispatcher is not in its callback, and goes on. -/
theorem Invariant.next (h : Invariant maxSize received s) (hcallback : s.inCallback = none) :
    Invariant maxSize received s.next := by
  have hp := h.placed
  unfold Inbound.next
  split
  · cases hqueue : s.audio.queue with
    | nil =>
        have hdequeue : s.audio.dequeue = (none, { s.audio with notEmpty := s.audio.notEmpty.clear }) := by
          simp only [AudioFrameQueue.dequeue, hqueue]
        rw [hdequeue]
        exact h.same rfl rfl rfl rfl rfl hcallback.symm rfl rfl rfl
    | cons frame rest =>
        have hdequeue : s.audio.dequeue = (some frame, { s.audio with
            queue := rest, notEmpty := if rest = [] then s.audio.notEmpty.clear else s.audio.notEmpty }) := by
          simp only [AudioFrameQueue.dequeue, hqueue]
        have hhead : (select (· = .audioQueue) s.ledger).head?.toList = [frame] := by
          rw [hp.audioQueue, hqueue]
          rfl
        rw [hdequeue]
        exact {
          placed := {
            audioQueue := by
              show select _ (Ledger.move _ _ _) = rest
              rw [select_move_from (by decide), hp.audioQueue, hqueue]
              rfl
            dispatching := by
              show select _ (Ledger.move _ _ _) = [frame]
              rw [select_move_to h.ordered (by decide) (by rfl), hp.dispatching, hcallback, hhead]
              rfl
            sttQueue := (congrArg _ (select_move_other rfl rfl _)).trans hp.sttQueue
            recognizing := (congrArg _ (select_move_other rfl rfl _)).trans hp.recognizing
            droppedByAudioQueue := hp.droppedByAudioQueue.trans (congrArg _ (select_move_other rfl rfl _)).symm
            droppedBySttQueue := hp.droppedBySttQueue.trans (congrArg _ (select_move_other rfl rfl _)).symm
            passed := (congrArg _ (select_move_eq (by rfl) _)).trans hp.passed }
          items := by
            rw [map_fst_move]
            exact h.items
          ordered := h.ordered.move (by intro j; cases j <;> decide) (by intro j; cases j <;> decide)
          positive := h.positive
          size := h.size
          bounded := by
            have hbounded := h.bounded
            rw [hqueue, List.length_cons] at hbounded
            show rest.length ≤ maxSize
            omega }
  · exact h.same rfl rfl rfl rfl rfl hcallback.symm rfl rfl rfl

/-- The frame of the callback goes to another place. -/
theorem Invariant.leaveCallback (h : Invariant maxSize received s) {frame : FrameWithId} (hcallback : s.inCallback = some frame)
    {task : Coroutine DispatchPc} (htask : ∀ frame c, task ≠ .suspended (.callback frame) c)
    (hplace : k = .skipped ∨ k = .droppedBySttQueue ∨ k = .sttQueue) {stt : SttConsumer} (n : Nat)
    (hframes : stt.frames = s.stt.frames ++ if k = .sttQueue then [frame.frame] else [])
    (hhand : stt.inHand = s.stt.inHand)
    (hdropped : stt.framesDropped = s.stt.framesDropped + if k = .droppedBySttQueue then 1 else 0) :
    Invariant maxSize received
      { s with task, stt, framesDispatched := n, ledger := move .dispatching k s.ledger } := by
  have hp := h.placed
  have hhead : (select (· = .dispatching) s.ledger).head?.toList = [frame] := by
    rw [hp.dispatching, hcallback]
    rfl
  have hdone : ({ s with task, stt, framesDispatched := n, ledger := Ledger.move .dispatching k s.ledger } : Inbound).inCallback =
      none := by
    unfold inCallback
    split
    · exact absurd ‹_› (htask _ _)
    · rfl
  have hne : Place.dispatching ≠ k := by rcases hplace with rfl | rfl | rfl <;> decide
  refine ⟨⟨?_, ?_, ?_, ?_, ?_, ?_, ?_⟩, ?_, ?_, h.positive, h.size, h.bounded⟩
  · exact (select_move_other rfl (by rcases hplace with rfl | rfl | rfl <;> rfl) _).trans hp.audioQueue
  · rw [hdone]
    show select _ (Ledger.move _ _ _) = []
    rw [select_move_from hne, hp.dispatching, hcallback]
    rfl
  · show (select _ (Ledger.move _ _ _)).map _ = stt.frames
    rw [hframes]
    split
    · rename_i hk
      subst hk
      rw [select_move_to h.ordered (by decide) (by rfl), hhead, List.map_append, hp.sttQueue]
      rfl
    · rename_i hk
      rw [select_move_other rfl (beq_eq_false_iff_ne.mpr hk), hp.sttQueue, List.append_nil]
  · show (select _ (Ledger.move _ _ _)).map _ = stt.inHand.toList
    rw [hhand, select_move_other rfl (by rcases hplace with rfl | rfl | rfl <;> rfl), hp.recognizing]
  · exact hp.droppedByAudioQueue.trans
      (congrArg _ (select_move_other rfl (by rcases hplace with rfl | rfl | rfl <;> rfl) _)).symm
  · show stt.framesDropped = (select _ (Ledger.move _ _ _)).length
    rw [hdropped]
    split
    · rename_i hk
      subst hk
      rw [length_select_move_to (by decide), hhead, hp.droppedBySttQueue]
      rfl
    · rename_i hk
      rw [select_move_other rfl (beq_eq_false_iff_ne.mpr hk), hp.droppedBySttQueue, Nat.add_zero]
  · have hpassed : Place.passed .dispatching = Place.passed k := by rcases hplace with rfl | rfl | rfl <;> rfl
    exact (congrArg _ (select_move_eq hpassed _)).trans hp.passed
  · rw [map_fst_move]
    exact h.items
  · rcases hplace with rfl | rfl | rfl <;> exact h.ordered.move (by intro j; cases j <;> decide) (by intro j; cases j <;> decide)

theorem Invariant.resume (h : Invariant maxSize received s) {pc : DispatchPc} {cancelling : Bool}
    (hpc : s.task = .suspended pc cancelling) (w : Wake Unit) : Invariant maxSize received (s.resume pc w) := by
  cases pc with
  | callback frame =>
      have hcallback : s.inCallback = some frame := by
        unfold inCallback
        rw [hpc]
      cases w with
      | ok _ =>
          show Invariant maxSize received (s.handOver frame)
          unfold handOver
          dsimp only
          split
          · unfold SttConsumer.processFrame
            split
            · exact h.leaveCallback (k := .droppedBySttQueue) hcallback (by rintro _ _ ⟨⟩) (Or.inr (Or.inl rfl)) _
                (List.append_nil _).symm rfl rfl
            · refine h.leaveCallback (k := .sttQueue) hcallback (by rintro _ _ ⟨⟩) (Or.inr (Or.inr rfl)) _ ?_ rfl rfl
              exact List.filterMap_append
          · exact h.leaveCallback (k := .skipped) hcallback (by rintro _ _ ⟨⟩) (Or.inl rfl) _ (List.append_nil _).symm rfl rfl
      | raised =>
          exact h.leaveCallback (k := .skipped) hcallback (by rintro _ _ ⟨⟩) (Or.inl rfl) _ (List.append_nil _).symm rfl rfl
      | cancelled =>
          exact h.leaveCallback (k := .skipped) hcallback (by rintro _ _ ⟨⟩) (Or.inl rfl) _ (List.append_nil _).symm rfl rfl
  | created | waitForFrame | sleep =>
      have hcallback : s.inCallback = none := by
        unfold inCallback
        rw [hpc]
      cases w with
      | ok _ => exact h.next hcallback
      | raised | cancelled => exact h.same rfl rfl rfl rfl rfl hcallback.symm rfl rfl rfl

/-- The engine is through with its frame. -/
theorem Invariant.recognized (h : Invariant maxSize received s) (hplace : k = .processed ∨ k = .failed) {stt : SttConsumer}
    (hframes : stt.frames = s.stt.frames) (hhand : stt.inHand = none) (hdropped : stt.framesDropped = s.stt.framesDropped) :
    Invariant maxSize received
      { s with stt, ledger := if s.stt.inHand.isSome then move .recognizing k s.ledger else s.ledger } := by
  have hp := h.placed
  cases hinHand : s.stt.inHand with
  | none => exact h.same rfl rfl rfl rfl rfl rfl hframes (hhand.trans hinHand.symm) hdropped
  | some frame =>
      have hne : Place.recognizing ≠ k := by rcases hplace with rfl | rfl <;> decide
      have hother : ∀ j, (Place.recognizing == j) = false → (k == j) = false →
          select (· = j) (Ledger.move .recognizing k s.ledger) = select (· = j) s.ledger :=
        fun j hk hk' => select_move_other hk hk' _
      have hone : select (· = .recognizing) (Ledger.move .recognizing k s.ledger) = [] := by
        rw [select_move_from hne]
        apply List.map_eq_nil_iff.mp
        rw [List.map_tail, hp.recognizing, hinHand]
        rfl
      exact {
        placed := {
          audioQueue := (hother _ rfl (by rcases hplace with rfl | rfl <;> rfl)).trans hp.audioQueue
          dispatching := (hother _ rfl (by rcases hplace with rfl | rfl <;> rfl)).trans hp.dispatching
          sttQueue := by
            show (select _ (Ledger.move _ _ _)).map _ = stt.frames
            rw [hother _ rfl (by rcases hplace with rfl | rfl <;> rfl), hframes, hp.sttQueue]
          recognizing := by
            show (select _ (Ledger.move _ _ _)).map _ = stt.inHand.toList
            rw [hone, hhand]
            rfl
          droppedByAudioQueue := hp.droppedByAudioQueue.trans
            (congrArg _ (hother _ rfl (by rcases hplace with rfl | rfl <;> rfl))).symm
          droppedBySttQueue := (hdropped.trans hp.droppedBySttQueue).trans
            (congrArg _ (hother _ rfl (by rcases hplace with rfl | rfl <;> rfl))).symm
          passed := by
            have hpassed : Place.passed .recognizing = Place.passed k := by rcases hplace with rfl | rfl <;> rfl
            exact (congrArg _ (select_move_eq hpassed _)).trans hp.passed }
        items := by
          show ((Ledger.move _ _ _).map Prod.fst).map _ = received
          rw [map_fst_move]
          exact h.items
        ordered := by
          rcases hplace with rfl | rfl <;> exact h.ordered.move (by intro j; cases j <;> decide) (by intro j; cases j <;> decide)
        positive := h.positive
        size := h.size
        bounded := h.bounded }

/-- The loop takes the next frame of its queue to the engine. -/
theorem Invariant.take (h : Invariant maxSize received s) (hhand : s.stt.inHand = none) {stt : SttConsumer}
    (htakes : s.stt.Takes stt) :
    Invariant maxSize received
      { s with
        stt
        ledger := if stt.inHand.isSome then move .sttQueue .recognizing s.ledger else s.ledger
        passed := s.passed ++ stt.inHand.toList } := by
  have hp := h.placed
  obtain ⟨hframes, hdropped⟩ := htakes
  cases hinHand : stt.inHand with
  | none =>
      rw [hinHand] at hframes
      exact h.same rfl (List.append_nil _) rfl rfl rfl rfl hframes.symm (hinHand.trans hhand.symm) hdropped
  | some frame =>
      rw [hinHand] at hframes
      have hqueue : (select (· = .sttQueue) s.ledger).map FrameWithId.frame = frame :: stt.frames := hp.sttQueue.trans hframes
      obtain ⟨entry, rest, hselect, rfl, hrest⟩ := List.map_eq_cons_iff.mp hqueue
      exact {
        placed := {
          audioQueue := (select_move_other rfl rfl _).trans hp.audioQueue
          dispatching := (select_move_other rfl rfl _).trans hp.dispatching
          sttQueue := by
            show (select _ (Ledger.move _ _ _)).map _ = stt.frames
            rw [select_move_from (by decide), hselect]
            exact hrest
          recognizing := by
            show (select _ (Ledger.move _ _ _)).map _ = stt.inHand.toList
            rw [select_move_to h.ordered (by decide) (by rfl), hselect, List.map_append, hp.recognizing, hhand, hinHand]
            rfl
          droppedByAudioQueue := hp.droppedByAudioQueue.trans (congrArg _ (select_move_other rfl rfl _)).symm
          droppedBySttQueue := (hdropped.trans hp.droppedBySttQueue).trans (congrArg _ (select_move_other rfl rfl _)).symm
          passed := by
            have hbehind : Ordered (fun i j => i = Place.sttQueue → Place.passed j = false) s.ledger :=
              h.ordered.none_behind (by intro j; cases j <;> decide)
            show (select Place.passed (Ledger.move _ _ _)).map _ = s.passed ++ [entry.frame]
            rw [select_move_head (q := (· = .sttQueue)) (by simp) (by rfl) (by rfl) hbehind, hselect, List.map_append, hp.passed]
            rfl }
        items := by
          show ((Ledger.move _ _ _).map Prod.fst).map _ = received
          rw [map_fst_move]
          exact h.items
        ordered := h.ordered.move (by intro j; cases j <;> decide) (by intro j; cases j <;> decide)
        positive := h.positive
        size := h.size
        bounded := h.bounded }

theorem Invariant.loop (h : Invariant maxSize received s) {w : Wake Bool} {stt : SttConsumer}
    (hstep : s.stt.step (.loop w) = some stt) :
    Invariant maxSize received
      { s with stt, ledger := Inbound.recognized s.stt stt w s.ledger, passed := s.passed ++ stt.inHand.toList } := by
  have htakes : s.stt.Takes stt := by
    obtain ⟨pc, -, -, -, rfl⟩ := SttConsumer.loop_of_step hstep
    exact SttConsumer.takes_loopResume s.stt pc w
  -- Between the two moves the loop has no frame in its hand.
  have hplace : afterEngine w = .processed ∨ afterEngine w = .failed := by cases w <;> simp [afterEngine]
  have hended : Invariant maxSize received { s with
      stt := { s.stt with task := some .done }
      ledger := if s.stt.inHand.isSome then move .recognizing (afterEngine w) s.ledger else s.ledger } :=
    h.recognized hplace rfl rfl rfl
  exact hended.take rfl htakes

theorem step_stt (s : Inbound) {l : SttLabel} (hloop : ∀ w, l ≠ .loop w) (hframe : ∀ frame, l ≠ .processFrame frame) :
    s.step (.stt l) = (s.stt.step l).map (fun stt => { s with stt }) := by
  cases l with
  | loop w => exact absurd rfl (hloop w)
  | processFrame frame => exact absurd rfl (hframe frame)
  | start | stop | stopping w | timeout => rfl

theorem Invariant.step (h : Invariant maxSize received s) (hstep : s.step l = some t) :
    Invariant maxSize (received ++ l.frame?.toList) t := by
  have hsame : ∀ {t}, Invariant maxSize received t → Invariant maxSize (received ++ []) t := by
    intro t ht
    rw [List.append_nil]
    exact ht
  cases l with
  | receive frame frameId => exact h.receive frame frameId hstep
  | dispatch w =>
      apply hsame
      simp only [Inbound.step] at hstep
      split at hstep
      · rename_i pc cancelling hpc
        simp only [Option.ite_none_right_eq_some, Option.some.injEq] at hstep
        obtain ⟨-, rfl⟩ := hstep
        exact h.resume hpc w
      · cases hstep
  | stop =>
      apply hsame
      cases hstep
      exact h.same rfl rfl rfl rfl rfl rfl rfl rfl rfl
  | cancel =>
      apply hsame
      simp only [Inbound.step] at hstep
      split at hstep
      · cases hstep
      · cases hstep
        refine h.same rfl rfl rfl rfl rfl ?_ rfl rfl rfl
        unfold inCallback
        dsimp only
        cases s.task with
        | done => rfl
        | suspended pc cancelling => cases pc <;> rfl
  | stt l =>
      apply hsame
      by_cases hframe : ∃ frame, l = .processFrame frame
      · obtain ⟨frame, rfl⟩ := hframe
        cases hstep
      by_cases hloop : ∃ w, l = .loop w
      · obtain ⟨w, rfl⟩ := hloop
        obtain ⟨stt, hstt, rfl⟩ := Option.map_eq_some_iff.mp hstep
        exact h.loop hstt
      have hloop' : ∀ w, l ≠ .loop w := fun w hw => hloop ⟨w, hw⟩
      have hframe' : ∀ frame, l ≠ .processFrame frame := fun frame hf => hframe ⟨frame, hf⟩
      rw [step_stt s hloop' hframe'] at hstep
      obtain ⟨stt, hstt, rfl⟩ := Option.map_eq_some_iff.mp hstep
      obtain ⟨hframes, hhand, hdropped⟩ := SttConsumer.leaves_step hloop' hframe' hstt
      exact h.same rfl rfl rfl rfl rfl rfl hframes hhand hdropped

theorem Invariant.init {maxSize : ℤ} {q : AudioFrameQueue} (hinit : AudioFrameQueue.init maxSize = some q)
    (maxQueueSize : Nat) (transcript error registered : Bool) :
    Invariant maxSize.toNat [] { audio := q, registered, stt := {
      maxQueueSize, hasTranscriptCallback := transcript, hasErrorCallback := error } } := by
  obtain ⟨hpos, rfl⟩ : 1 ≤ maxSize ∧ { maxSize := maxSize.toNat } = q := by
    simpa [AudioFrameQueue.init] using hinit
  exact ⟨⟨rfl, rfl, rfl, rfl, rfl, rfl, rfl⟩, rfl, List.Pairwise.nil, by omega, rfl, Nat.zero_le _⟩

/-- Whatever the loops do and whoever raises, every frame received is at one place, and the engine gets frames in the
order of their arrival. -/
theorem run_accounted_inbound {maxSize : ℤ} {q : AudioFrameQueue} (hinit : AudioFrameQueue.init maxSize = some q)
    {maxQueueSize : Nat} {transcript error registered : Bool} {ls : List InboundLabel}
    (h : Run Inbound.step (fun _ _ => True) { audio := q, registered, stt := {
      maxQueueSize, hasTranscriptCallback := transcript, hasErrorCallback := error } } ls s) :
    s.Accounted (ls.filterMap InboundLabel.frame?) := by
  have hinv := h.invariant₂ (I := fun ls s => Invariant maxSize.toNat (ls.filterMap InboundLabel.frame?) s)
    (Invariant.init hinit maxQueueSize transcript error registered) (fun {ls t u l} ht _ hu => by
      rw [List.filterMap_append, List.filterMap_cons, List.filterMap_nil]
      have hnext := ht.step hu
      cases hframe : l.frame? <;> rw [hframe] at hnext <;> exact hnext)
  exact hinv.accounted

/-- The oldest of three frames is dropped, the callback raises at the second one, and the third one gets to the engine. -/
theorem run_accounted_inbound_threeFrames : ∃ q, AudioFrameQueue.init 2 = some q ∧
    ∃ ls s, Run Inbound.step (fun _ _ => True) { audio := q, stt := { maxQueueSize := 1 } } ls s ∧
      s.passed = [[3]] ∧ s.ledger.map Prod.snd = [.droppedByAudioQueue, .skipped, .recognizing] ∧
      s.Accounted [[1], [2], [3]] := by
  let ls : List InboundLabel := [.stt .start, .stt (.loop (.ok false)), .receive [1] none, .receive [2] none, .receive [3] none,
    .dispatch (.ok ()), .dispatch .raised, .dispatch (.ok ()), .dispatch (.ok ()), .stt (.loop (.ok false))]
  have hexec : (exec Inbound.step (fun _ _ => True) { audio := { maxSize := 2 }, stt := { maxQueueSize := 1 } } ls).any
      (fun s => s.passed = [[3]] ∧ s.ledger.map Prod.snd = [.droppedByAudioQueue, .skipped, .recognizing]) = true := by
    decide +kernel
  obtain ⟨s, hrun, hs⟩ := Run.exists_of_exec hexec
  obtain ⟨hpassed, hledger⟩ := of_decide_eq_true hs
  exact ⟨_, rfl, ls, s, hrun, hpassed, hledger, run_accounted_inbound (show AudioFrameQueue.init 2 = some _ from rfl) hrun⟩

end Inbound

end Voxera.Streaming
