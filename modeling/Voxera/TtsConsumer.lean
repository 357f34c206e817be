import Voxera.EventLoop.Coroutine
import Voxera.Vad
import Voxera.Text

/-!
# `TTSConsumer`

One consumer holds the reply tasks it has created, each with the queue of its text segments, and the
index of the current one (`_task`; `_queue` and `_utterance_id` are written together with it).

* `Pc` : the suspension points of `_run`. A task inside the `send_bytes` or the `on_playback_end`
  callback also carries where it is suspended in the callback (`ι`, of the owner of the consumer).
* `Reply.resume` : `_run` from one suspension point to the next.
* `Consumer.cancelCurrent`, `Consumer.openReply` : the two halves of `begin` around the await of
  `stop`; `Consumer.speak`, `Consumer.finish`.

The clock is not part of the model: a pacing or a final sleep of any length, zero included, is a
suspension point that the scheduler may leave at once.
-/

namespace Voxera.Tts

open EventLoop

/-- The JSON events a reply sends to the client. -/
inductive Message where
  | ttsStart
  | ttsEnd
  | ttsClear (reason : Text)
  | ttsMetrics (frameCount segments audioBytes : Nat) (interrupted : Bool)
  | error
  deriving DecidableEq, Repr

/-- The suspension points of `_run`. -/
inductive Pc (ι : Type) where
  | created
  | queueGet
  /-- In `async for frame in self.engine.stream(...)`. -/
  | engineNext
  | sendStart (frame : Bytes)
  | sendBytes (frame : Bytes) (inner : ι)
  | pacing
  | drain
  | sendEnd
  | sendError
  | sendMetrics (interrupted : Bool)
  | playbackEnd (interrupted : Bool) (inner : ι)
  deriving DecidableEq, Repr

/-- What the engine's stream gives to `async for`. -/
inductive Item where
  /-- The await is not one of the engine's, or the stream has ended. -/
  | none
  | frame (bytes : Bytes)
  deriving DecidableEq, Repr

/-- The queue and the local variables of one `_run`. -/
structure Reply where
  utteranceId : Text := []
  queue : List (Option Text) := []
  frames : Nat := 0
  segments : Nat := 0
  audioBytes : Nat := 0
  deriving DecidableEq, Repr

namespace Pc

variable {ι : Type}

/-- The await is in the `try` block, and an exception that it raises is caught there. -/
def raises : Pc ι → Bool
  | .engineNext | .sendStart _ | .sendBytes _ _ | .sendEnd => true
  | _ => false

/-- The reply has failed or was cancelled: `interrupted` is set. -/
def interrupted : Pc ι → Bool
  | .sendError | .sendMetrics true | .playbackEnd true _ => true
  | _ => false

/-- The reply is in a callback. -/
def inCallback : Pc ι → Bool
  | .sendBytes _ _ | .playbackEnd _ _ => true
  | _ => false

/-- The task has left the `try` block. -/
def cleanup : Pc ι → Bool
  | .sendError | .sendMetrics _ | .playbackEnd _ _ => true
  | _ => false

/-- The end marker has been taken from the queue. -/
def pastText : Pc ι → Bool
  | .drain | .sendEnd | .sendMetrics false | .playbackEnd false _ => true
  | _ => false

end Pc

namespace Reply

variable {ι : Type} [Inhabited ι]

/-- `text = await queue.get()` and what follows it; `get` does not suspend while there is an item. -/
def getNext (r : Reply) : Reply × Option (Pc ι) :=
  match r.queue with
  | [] => (r, some .queueGet)
  | some _ :: queue => ({ r with queue, segments := r.segments + 1 }, some .engineNext)
  | none :: queue => ({ r with queue }, some (if r.frames ≠ 0 then .drain else .sendMetrics false))

/-- `_run` from the suspension point `pc` to the next one, `none` where the task ends. A
`CancelledError` before the first step ends the task at once, one in the `try` block goes on to the
`finally` block with `interrupted`, and one inside the `finally` block ends the task there. -/
def resume (r : Reply) : Pc ι → Wake Item → Reply × Option (Pc ι)
  | .created, .ok _ => r.getNext
  | .created, _ => (r, none)
  | .queueGet, .ok _ => r.getNext
  | .engineNext, .ok (.frame bytes) =>
    if bytes = [] then (r, some .engineNext)
    else if r.frames = 0 then (r, some (.sendStart bytes))
    else (r, some (.sendBytes bytes default))
  | .engineNext, .ok .none => r.getNext
  | .sendStart bytes, .ok _ => (r, some (.sendBytes bytes default))
  | .sendBytes bytes _, .ok _ =>
    ({ r with frames := r.frames + 1, audioBytes := r.audioBytes + bytes.length }, some .pacing)
  | .pacing, .ok _ => (r, some .engineNext)
  | .drain, .ok _ => (r, some .sendEnd)
  | .sendEnd, .ok _ => (r, some (.sendMetrics false))
  | .sendMetrics _, .cancelled => (r, none)
  | .sendMetrics interrupted, _ => (r, some (.playbackEnd interrupted default))
  | .playbackEnd _ _, _ => (r, none)
  | .sendError, _ => (r, some (.sendMetrics true))
  | _, .raised => (r, some .sendError)
  | _, .cancelled => (r, some (.sendMetrics true))

omit [Inhabited ι] in
@[simp] theorem getNext_utteranceId (r : Reply) : (@getNext ι r).1.utteranceId = r.utteranceId := by
  unfold getNext
  split <;> rfl

@[simp] theorem resume_utteranceId (r : Reply) (pc : Pc ι) (w : Wake Item) :
    (r.resume pc w).1.utteranceId = r.utteranceId := by
  unfold resume
  split <;> first | exact getNext_utteranceId r | split_ifs <;> rfl | rfl

omit [Inhabited ι] in
theorem getNext_snd (r : Reply) : ∃ pc, (@getNext ι r).2 = some pc ∧ pc.interrupted = false := by
  unfold getNext
  split
  · exact ⟨_, rfl, rfl⟩
  · exact ⟨_, rfl, rfl⟩
  · refine ⟨_, rfl, ?_⟩
    split <;> rfl

omit [Inhabited ι] in
theorem getNext_marker (r : Reply) (h : none ∈ (@getNext ι r).1.queue) : none ∈ r.queue := by
  unfold getNext at h
  split at h
  · exact h
  · rename_i text queue hqueue
    rw [hqueue]
    exact List.mem_cons_of_mem _ h
  · rename_i queue hqueue
    rw [hqueue]
    exact List.mem_cons_of_mem _ h

omit [Inhabited ι] in
theorem getNext_pastText (r : Reply) {pc : Pc ι} (h : (@getNext ι r).2 = some pc) (hpc : pc.pastText = true) :
    none ∈ r.queue := by
  unfold getNext at h
  split at h
  · cases h
    cases hpc
  · cases h
    cases hpc
  · rename_i queue hqueue
    rw [hqueue]
    exact List.mem_cons_self

/-- A reply is past its text only when the end marker has been on its queue. -/
theorem resume_marker (r : Reply) {pc : Pc ι} {w : Wake Item}
    (h : none ∈ (r.resume pc w).1.queue ∨ ∃ pc', (r.resume pc w).2 = some pc' ∧ pc'.pastText = true) :
    none ∈ r.queue ∨ pc.pastText = true := by
  have hget : (none ∈ (@getNext ι r).1.queue ∨ ∃ pc', (@getNext ι r).2 = some pc' ∧ pc'.pastText = true) →
      none ∈ r.queue := by
    rintro (h | ⟨pc', h, hpc⟩)
    · exact getNext_marker r h
    · exact getNext_pastText r h hpc
  cases pc with
  | drain | sendEnd => exact Or.inr rfl
  | sendMetrics interrupted | playbackEnd interrupted inner =>
      cases interrupted with
      | false => exact Or.inr rfl
      | true => cases w <;> simpa [resume, Pc.pastText] using h
  | engineNext =>
      cases w with
      | ok item =>
          cases item with
          | none => exact Or.inl (hget h)
          | frame bytes =>
              simp only [resume] at h
              split_ifs at h <;> simpa [Pc.pastText] using h
      | _ => simpa [resume, Pc.pastText] using h
  | created | queueGet =>
      cases w with
      | ok item => exact Or.inl (hget h)
      | _ => simpa [resume, Pc.pastText] using h
  | _ => cases w <;> simpa [resume, Pc.pastText] using h

/-- A reply that is not asked to cancel and meets no exception goes on until it has ended its playback. -/
theorem resume_of_not_interrupted (r : Reply) {pc : Pc ι} {w : Wake Item} (hpc : pc.interrupted = false)
    (hw : w ≠ .cancelled) (hraised : w = .raised → (∃ i, pc = .sendMetrics i) ∨ ∃ i inner, pc = .playbackEnd i inner) :
    (∃ pc', (r.resume pc w).2 = some pc' ∧ pc'.interrupted = false) ∨
      ∃ inner, pc = .playbackEnd false inner ∧ (r.resume pc w).2 = none := by
  cases w with
  | cancelled => exact absurd rfl hw
  | raised =>
      rcases hraised rfl with ⟨i, rfl⟩ | ⟨i, inner, rfl⟩
      · cases i with
        | false => exact Or.inl ⟨_, rfl, rfl⟩
        | true => cases hpc
      · cases i with
        | false => exact Or.inr ⟨inner, rfl, rfl⟩
        | true => cases hpc
  | ok item =>
      cases pc with
      | created | queueGet => exact Or.inl (getNext_snd r)
      | engineNext =>
          cases item with
          | none => exact Or.inl (getNext_snd r)
          | frame bytes =>
              simp only [resume]
              split_ifs <;> exact Or.inl ⟨_, rfl, rfl⟩
      | sendError => cases hpc
      | sendMetrics i =>
          cases i with
          | false => exact Or.inl ⟨_, rfl, rfl⟩
          | true => cases hpc
      | playbackEnd i inner =>
          cases i with
          | false => exact Or.inr ⟨inner, rfl, rfl⟩
          | true => cases hpc
      | _ => exact Or.inl ⟨_, rfl, rfl⟩

/-- The task ends with `_on_playback_end`. -/
theorem resume_playbackEnd (r : Reply) (interrupted : Bool) (inner : ι) (w : Wake Item) :
    r.resume (.playbackEnd interrupted inner) w = (r, none) := by
  cases w <;> rfl

theorem resume_cleanup (r : Reply) {pc pc' : Pc ι} {w : Wake Item} (hpc : pc.cleanup = true ∨ w = .cancelled)
    (h : (r.resume pc w).2 = some pc') : pc'.cleanup = true := by
  rcases hpc with hpc | rfl
  · cases pc with
    | sendError => cases w <;> (cases h; rfl)
    | sendMetrics i =>
        cases w with
        | cancelled => cases h
        | _ => cases h; rfl
    | playbackEnd i inner =>
        rw [resume_playbackEnd] at h
        cases h
    | _ => cases hpc
  · cases pc <;> cases h <;> rfl

/-- A frame is handed to `send_bytes` only from the `try` block. -/
theorem resume_sendBytes (r : Reply) {pc : Pc ι} {w : Wake Item} {frame : Bytes} {inner : ι}
    (h : (r.resume pc w).2 = some (.sendBytes frame inner)) : pc.cleanup = false ∧ ∃ item, w = .ok item := by
  cases pc <;> cases w <;> first | exact ⟨rfl, _, rfl⟩ | cases h

end Reply

/-- The calls a reply task makes to the outside when it arrives at a suspension point. -/
inductive Event where
  /-- `send_json`. -/
  | json (message : Message)
  /-- `send_bytes`. -/
  | audio (frame : Bytes)
  deriving DecidableEq, Repr

variable {ι : Type}

/-- The call whose await the suspension point `pc` is. -/
def Reply.calls (r : Reply) : Option (Pc ι) → List Event
  | some (.sendStart _) => [.json .ttsStart]
  | some (.sendBytes frame _) => [.audio frame]
  | some .sendEnd => [.json .ttsEnd]
  | some .sendError => [.json .error]
  | some (.sendMetrics interrupted) => [.json (.ttsMetrics r.frames r.segments r.audioBytes interrupted)]
  | _ => []

theorem Reply.audio_of_calls {r : Reply} {next : Option (Pc ι)} {frame : Bytes}
    (h : .audio frame ∈ r.calls next) : ∃ inner, next = some (.sendBytes frame inner) := by
  unfold Reply.calls at h
  split at h <;> simp at h
  subst h
  exact ⟨_, rfl⟩

/-- `send_bytes` has returned: `self._audio_sent = True`. -/
def Pc.sent : Pc ι → Wake Item → Bool
  | .sendBytes _ _, .ok _ => true
  | _, _ => false

/-- The consumer and the reply tasks it has created, numbered in the order of their creation. -/
structure Consumer (ι : Type) where
  current : Option Nat := none
  audioSent : Bool := false
  count : Nat := 0
  reply : Nat → Reply := fun _ => {}
  task : Nat → Coroutine (Pc ι) := fun _ => .done

namespace Consumer

variable (c : Consumer ι)

/-- The current reply when it `is_active`. -/
def active : Option Nat := c.current.filter (fun n => !(c.task n).isDone)

def isActive : Bool := c.active.isSome

def currentUtteranceId : Option Text := c.active.map (fun n => (c.reply n).utteranceId)

/-- `task.cancel()`. -/
def cancel (n : Nat) : Consumer ι := { c with task := Function.update c.task n (c.task n).cancel }

/-- `begin` once `stop` has returned: a new queue and a new task for it. -/
def openReply (utteranceId : Text) : Consumer ι :=
  { current := some c.count
    audioSent := false
    count := c.count + 1
    reply := Function.update c.reply c.count { utteranceId }
    task := Function.update c.task c.count (.await .created) }

/-- `self._queue.put_nowait(item)`. -/
def put (n : Nat) (item : Option Text) : Consumer ι :=
  { c with reply := Function.update c.reply n { c.reply n with queue := (c.reply n).queue ++ [item] } }

/-- `speak`; the flag says whether the segment was queued. -/
def speak (text : Text) : Option Nat × Consumer ι :=
  match c.active with
  | some n => if Text.strip text ≠ [] then (some n, c.put n (some text)) else (none, c)
  | none => (none, c)

/-- `finish`. -/
def finish : Option Nat × Consumer ι :=
  match c.active with
  | some n => (some n, c.put n none)
  | none => (none, c)

/-- The awaits that can come back this way at this time. -/
def enabled (n : Nat) (pc : Pc ι) (cancelling : Bool) (w : Wake Item) : Bool :=
  w.fits cancelling &&
    match pc, w with
    | .queueGet, .ok _ => (c.reply n).queue ≠ []
    | .created, .raised | .queueGet, .raised | .pacing, .raised | .drain, .raised => false
    | .engineNext, .ok _ => true
    | _, .ok (.frame _) => false
    | _, _ => true

/-- The reply task `n` takes a step: `_run` goes on until it awaits again or ends. -/
def resume [Inhabited ι] (n : Nat) (w : Wake Item) : Option (Consumer ι × List Event) :=
  match c.task n with
  | .done => none
  | .suspended pc cancelling =>
    if c.enabled n pc cancelling w then
      let (r, next) := (c.reply n).resume pc w
      some ({ c with
        audioSent := pc.sent w || c.audioSent
        reply := Function.update c.reply n r
        task := Function.update c.task n (next.elim .done .await) }, r.calls next)
    else none

variable {c}

theorem active_eq_some {n : Nat} : c.active = some n ↔ c.current = some n ∧ (c.task n).isDone = false := by
  unfold active
  rw [Option.filter_eq_some_iff]
  simp

/-- `speak` only puts a segment on a queue. -/
theorem speak_snd (c : Consumer ι) (text : Text) :
    (c.speak text).2.current = c.current ∧ (c.speak text).2.count = c.count ∧ (c.speak text).2.task = c.task ∧
      (c.speak text).2.audioSent = c.audioSent := by
  unfold speak
  split
  · split <;> exact ⟨rfl, rfl, rfl, rfl⟩
  · exact ⟨rfl, rfl, rfl, rfl⟩

/-- `finish` only puts the end marker on a queue. -/
theorem finish_snd (c : Consumer ι) :
    c.finish.2.current = c.current ∧ c.finish.2.count = c.count ∧ c.finish.2.task = c.task ∧
      c.finish.2.audioSent = c.audioSent := by
  unfold finish
  split <;> exact ⟨rfl, rfl, rfl, rfl⟩

theorem active_congr {c' : Consumer ι} (hcurrent : c'.current = c.current)
    (hdone : ∀ r, (c'.task r).isDone = (c.task r).isDone) : c'.active = c.active := by
  unfold active
  rw [hcurrent]
  simp only [hdone]

theorem currentUtteranceId_congr {c' : Consumer ι} (hactive : c'.active = c.active)
    (hutterance : ∀ r, (c'.reply r).utteranceId = (c.reply r).utteranceId) :
    c'.currentUtteranceId = c.currentUtteranceId := by
  unfold currentUtteranceId
  rw [hactive]
  simp only [hutterance]

theorem cancelling_of_enabled {n : Nat} {pc : Pc ι} {cancelling : Bool} {w : Wake Item}
    (h : c.enabled n pc cancelling w = true) : (w = .cancelled ↔ cancelling = true) := by
  unfold enabled at h
  rw [Bool.and_eq_true] at h
  cases w <;> simpa [Wake.fits] using h.1

/-- The reply has ended, has been asked to cancel, or is in its cleanup: it hands over no frame any more. -/
def Dying (c : Consumer ι) (n : Nat) : Prop :=
  ∀ pc cancelling, c.task n = .suspended pc cancelling → cancelling = true ∨ pc.cleanup = true

theorem Dying.of_done {n : Nat} (h : (c.task n).isDone = true) : c.Dying n := by
  intro pc cancelling hpc
  simp [hpc] at h

theorem dying_cancel (c : Consumer ι) (n : Nat) : (c.cancel n).Dying n := by
  intro pc cancelling hpc
  simp only [cancel, Function.update_self] at hpc
  cases ht : c.task n with
  | done => simp [ht] at hpc
  | suspended pc' c' =>
      simp only [ht, Coroutine.cancel_suspended, Coroutine.suspended.injEq] at hpc
      exact Or.inl hpc.2.symm

theorem task_cancel_done {n : Nat} (h : c.task n = .done) (m : Nat) : (c.cancel m).task n = .done := by
  by_cases heq : n = m
  · subst heq
    simp [Consumer.cancel, h]
  · simpa [Consumer.cancel, Function.update_of_ne heq] using h

theorem Dying.cancel {n : Nat} (h : c.Dying n) (m : Nat) : (c.cancel m).Dying n := by
  by_cases heq : n = m
  · exact heq ▸ dying_cancel c n
  · intro pc cancelling hpc
    exact h pc cancelling (by simpa [Consumer.cancel, Function.update_of_ne heq] using hpc)

/-- Only the current reply can be other than dying, and only when it is active. -/
theorem dying_of_active {n : Nat} (h : ¬ c.Dying n → c.current = some n) (hactive : c.active = none) : c.Dying n := by
  by_contra hn
  have hdone : (c.task n).isDone = false := by
    by_contra hd
    exact hn (.of_done (by simpa using hd))
  simp [active_eq_some.mpr ⟨h hn, hdone⟩] at hactive

/-- The awaits that can raise an exception. -/
theorem raised_of_enabled {n : Nat} {pc : Pc ι} {cancelling : Bool}
    (h : c.enabled n pc cancelling .raised = true) (hpc : pc.interrupted = false) (hraises : pc.raises = false) :
    (∃ i, pc = .sendMetrics i) ∨ ∃ i inner, pc = .playbackEnd i inner := by
  cases pc with
  | sendMetrics i => exact Or.inl ⟨i, rfl⟩
  | playbackEnd i inner => exact Or.inr ⟨i, inner, rfl⟩
  | sendError => cases hpc
  | engineNext | sendStart | sendBytes | sendEnd => cases hraises
  | created | queueGet | pacing | drain => simp [enabled] at h

/-- What a step of the reply `n` is. -/
theorem resume_eq_some [Inhabited ι] {n : Nat} {w : Wake Item} {c' : Consumer ι} {calls : List Event}
    (h : c.resume n w = some (c', calls)) :
    ∃ pc cancelling, c.task n = .suspended pc cancelling ∧ c.enabled n pc cancelling w = true ∧
      c' = { c with
        audioSent := pc.sent w || c.audioSent
        reply := Function.update c.reply n ((c.reply n).resume pc w).1
        task := Function.update c.task n (((c.reply n).resume pc w).2.elim .done .await) } ∧
      calls = ((c.reply n).resume pc w).1.calls ((c.reply n).resume pc w).2 := by
  unfold resume at h
  split at h
  · cases h
  · rename_i pc cancelling hpc
    simp only [Option.ite_none_right_eq_some, Option.some.injEq, Prod.mk.injEq] at h
    obtain ⟨henabled, rfl, rfl⟩ := h
    exact ⟨pc, cancelling, hpc, henabled, rfl, rfl⟩

end Consumer

end Voxera.Tts
