import Voxera.Conversation
import Voxera.EventLoop.Lock
import Voxera.EventLoop.Run
import Voxera.LlmConsumer
import Voxera.TtsConsumer
import Mathlib.Tactic.Simps.Basic

/-!
# `CallSession` as a system of tasks

The tasks of one phone call: the recogniser's loop (`STTConsumer._process_loop`, with the transcript
callback that it awaits), the handler of the Twilio stream (`feed_mulaw`, `stop`), the silence loop,
the tasks created for a loud frame, for an error of the recogniser and for each generation's
watchdog, the generation tasks of the `LLMConsumer` and the reply tasks of the `TTSConsumer`.

A transcript event is the engine's answer to a frame, or comes by itself (`Label.transcript`: an engine
that speaks on its own, or a caller of `process_transcript_event`, as the tests are). The task of the
recogniser's loop processes both, one event after another.

One task runs at a time, until it awaits something that is not ready. `running` is the task that
runs and the place (`Point`) it is at; `pc` holds what the other tasks await (`Await`). A generation
or a reply is in `pc` or `running` only while it is in a callback of the session, and its own
coroutine says which one. The lock is taken at `Point.acquire`; a `Section` is a block under it.

* `enter`, `stopped` : the body of a section up to `tts.stop`, and from its return on;
* `advance` : one piece of the running task; `resume` : how a suspended task goes on;
* `Label`, `step` : what the scheduler and the environment choose.

The system starts where `CallSession.start` returns. `trace` is a record that no task reads, and so
are the counters of the calls of `begin`, of the turns and of the failures, and `hearing`.
-/

namespace Voxera.Call

open EventLoop
open Llm (Entry Role Outcome)

structure Config where
  /-- `VOICE_HISTORY_TURNS` -/
  historyTurns : Nat := 6
  /-- `normalize_pcm16(convert_twilio_audio(mulaw_bytes))` -/
  toPcm : Bytes → Bytes
  /-- `pcm16_16k_to_twilio_audio` -/
  toMulaw : Bytes → Bytes

/-- `CallSessionState` -/
inductive State where
  | INCOMING
  | CONNECTING
  | CONNECTED
  | STREAMING
  | LISTENING
  | PROCESSING
  | SPEAKING
  | PAUSED
  | INTERRUPTED
  | TRANSFERRED
  | FAILED
  | TIMEOUT
  | CANCELLED
  | ENDED
  deriving DecidableEq, Repr

namespace State

/-- The pairs `_VALID_TRANSITIONS` is written with. -/
def transitions : List (State × State) :=
  [(INCOMING, CONNECTING), (CONNECTING, CONNECTED), (CONNECTING, LISTENING), (CONNECTED, STREAMING),
    (CONNECTED, LISTENING), (STREAMING, LISTENING), (LISTENING, STREAMING), (LISTENING, PROCESSING),
    (PROCESSING, SPEAKING), (PROCESSING, LISTENING), (PROCESSING, INTERRUPTED), (SPEAKING, INTERRUPTED),
    (SPEAKING, LISTENING), (SPEAKING, PAUSED), (PAUSED, LISTENING), (INTERRUPTED, LISTENING),
    (LISTENING, TIMEOUT), (PROCESSING, FAILED), (SPEAKING, FAILED), (STREAMING, TRANSFERRED)]

/-- `_VALID_TRANSITIONS`, with every other state to `ENDED`. -/
def valid (a b : State) : Bool := (a, b) ∈ transitions || (a ≠ ENDED && b = ENDED)

/-- `_apply_transition` -/
def apply (a b : State) : State := if a ≠ ENDED && a.valid b then b else a

/-- The system answers. -/
def answering (a : State) : Bool := a = PROCESSING || a = SPEAKING

end State

/-- The tasks of a call. -/
inductive Task where
  | stt
  | twilio
  | silence
  /-- `_request_barge_in`, for a loud frame. -/
  | vad (n : Nat)
  /-- `_handle_pipeline_error`, from `_on_stt_error`. -/
  | sttError (n : Nat)
  /-- `_watchdog` of the generation `g`. -/
  | watchdog (g : Nat)
  | generation (g : Nat)
  | reply (r : Nat)
  deriving DecidableEq, Repr

/-- What `tts.begin` is called for. The number `n` of a fallback is that of the failure. -/
inductive Opening where
  | answer (turn : UserTurnCompleted) (history : List Entry) (k : Nat)
  | fallback (n : Nat)
  | silencePrompt
  deriving DecidableEq, Repr

/-- The blocks under the lock. -/
inductive Section where
  /-- `_on_user_turn_started` -/
  | turnStarted (k : TurnManager.After)
  /-- `_on_user_turn_completed`, for the turn number `k`. -/
  | turnCompleted (turn : UserTurnCompleted) (k : Nat)
  /-- `_on_system_turn_start` -/
  | systemTurn (turn : UserTurnCompleted) (history : List Entry) (k : Nat)
  /-- `_handle_barge_in`, from `process_transcript_event` or (`none`) from `_request_barge_in`. -/
  | bargeIn (k : Option TurnManager.After)
  /-- `_handle_pipeline_error`, for the failure number `n`. -/
  | recovery (n : Nat)
  /-- `_play_fallback_tts` -/
  | fallback (n : Nat)
  /-- `_on_llm_segment` -/
  | segment (text : Text)
  /-- `_on_tts_playback_end` -/
  | playbackEnd
  /-- `feed_mulaw` -/
  | feed (pcm : Bytes)
  /-- `send_audio_frame` before the conversion. -/
  | frameCheck (frame : Bytes)
  /-- `send_audio_frame` after the conversion. -/
  | frameSend
  /-- `_silence_loop`, with what the clock says once the lock is free again: the caller has been
  quiet for `SILENCE_PROMPT_SECONDS`; the prompt was that long ago. -/
  | silenceCheck (quiet late : Bool)
  /-- `_silence_loop`: the prompt. -/
  | silencePrompt
  | stop
  deriving DecidableEq, Repr

/-- What awaits `tts.stop`: a section that holds the lock, or `tts.begin` in its call number `ticket`. -/
inductive StopFor where
  | systemTurn (turn : UserTurnCompleted) (history : List Entry) (k : Nat)
  | bargeIn (k : Option TurnManager.After)
  | recovery (n : Nat)
  | fallback (n : Nat)
  | silencePrompt
  | stop
  | begin (ticket : Nat) (opening : Opening)
  deriving DecidableEq, Repr

/-- Where the running task is. -/
inductive Point where
  | acquire (sec : Section)
  /-- The lock has been taken. -/
  | enter (sec : Section)
  /-- `tts.stop` is called. -/
  | ttsStop (k : StopFor)
  /-- `tts.stop` has returned. -/
  | stopped (k : StopFor)
  /-- `process_transcript_event` goes on to `next`. -/
  | turn (next : TurnManager.Next)
  /-- The call into the session, or the callback, returns. -/
  | leave
  deriving DecidableEq, Repr

/-- What a suspended task awaits. -/
inductive Await where
  /-- Its first step. -/
  | created
  | acquiring (sec : Section)
  /-- `tts.stop`: the end of the cancelled reply task `r`. -/
  | gathering (r : Nat) (hadAudio : Bool) (k : StopFor)
  /-- `tts.stop`: `clear` and `tts_clear` are sent. -/
  | clearing (k : StopFor)
  /-- `_process_loop`: `self._queue.get()`. -/
  | queueGet
  /-- `_process_loop`: `self.engine.process_audio(frame)`. -/
  | engine
  /-- `stop`: `self.engine.finalize_utterance()` in `stt_consumer.stop`. -/
  | finalizing
  /-- `stop`: `self._queue.put(None)` there. -/
  | putting
  /-- `stop`: `wait_for(self._task, timeout=2.0)` there. -/
  | loopEnding
  /-- `stop`: the same after the timeout, the loop asked to cancel. -/
  | loopCancelled
  /-- `stop`: `self.engine.close()` there. -/
  | consumerClosing
  /-- `stop`: `self.stt_engine.close()`. -/
  | engineClosing
  /-- `stop`: `wait_for(silence_task, timeout=2.0)`, outside the lock. -/
  | silenceEnding
  | silenceCancelled
  /-- `_silence_loop`: `asyncio.sleep`. -/
  | sleeping
  /-- `_silence_loop`: `self._on_silence_hangup()`. -/
  | hangup
  /-- `_watchdog`: `wait_for(first_token.wait(), ...)`. -/
  | watching
  /-- `_watchdog`: the time is over, and the inner wait is cancelled. -/
  | expiring
  /-- `send_audio_frame`: `send_text(msg)`. -/
  | sendMedia
  deriving DecidableEq, Repr

/-- What an await gives. -/
inductive Result where
  | none
  | transcript (ev : TranscriptEvent)
  | clock (quiet late : Bool)
  | timeout
  deriving DecidableEq, Repr

inductive Event where
  /-- The turn number `k` moves the call to `PROCESSING`; so many generations and replies exist. -/
  | processing (k generations replies : Nat)
  /-- `llm.start_generation` is called, for the `g`-th time, by the turn number `k`. -/
  | generation (g k : Nat) (prompt : Text)
  /-- `_on_user_turn_completed` returns to the recogniser. -/
  | turnReturned (k : Nat) (turn : UserTurnCompleted)
  /-- `process_transcript_event` returns: `begun` and `active` are the calls of `begin` made when it
  was called, and the reply that is active. -/
  | processed (ev : TranscriptEvent) (begun : Nat) (active : Option Nat)
  /-- `tts.begin` is called, for the `ticket`-th time. -/
  | begin (ticket : Nat)
  /-- The call `ticket` of `tts.begin` creates the reply task `r`. -/
  | opened (ticket r : Nat)
  /-- `send_text` is called with a media message. -/
  | media (me : Task)
  /-- `send_text` is called with a `clear` message. -/
  | clear
  /-- `_handle_barge_in` has returned the call to `LISTENING`. -/
  | bargedIn
  /-- `stop` has moved the call to `ENDED`. -/
  | ended
  /-- `_handle_pipeline_error` is called, for the `n`-th time. -/
  | failure (n : Nat)
  /-- The fallback message of the failure `n` is begun. -/
  | fallback (n : Nat)
  deriving DecidableEq, Repr

structure Session where
  state : State := .LISTENING
  conversation : ConversationState := {}
  lock : Lock Task := {}
  /-- `_outbound_muted` -/
  muted : Bool := false
  /-- `_send_text` is set. -/
  sendText : Bool := true
  pcmBuffer : Bytes := []
  /-- `_silence_prompt_played`; `_silence_prompt_time` is written together with it. -/
  prompted : Bool := false
  history : List Entry := []
  llm : Llm.Consumer Unit := {}
  tts : Tts.Consumer Unit := {}
  /-- `first_token` of the turn that started the generation. -/
  firstToken : Nat → Bool := fun _ => false
  /-- `STTConsumer._queue`. -/
  queue : List (Option Bytes) := []
  /-- The frames whose `process_frame` task has not run yet. -/
  frames : List Bytes := []
  /-- `STTConsumer._running` -/
  listening : Bool := true
  vads : Nat := 0
  errors : Nat := 0
  pc : Task → Option Await := fun _ => none
  /-- The tasks other than generations and replies that were asked to cancel and have not run since. -/
  asked : Task → Bool := fun _ => false
  running : Option (Task × Point) := none
  begun : Nat := 0
  turns : Nat := 0
  failures : Nat := 0
  hearing : Task → Option (TranscriptEvent × Nat) := fun _ => none
  trace : List Event := []

/-- `FALLBACK_TTS_MESSAGE` -/
def fallbackMessage : Text := "Sorry, I'm having trouble right now. Let me transfer you.".toList

/-- `SILENCE_PROMPT_MESSAGE` -/
def silencePromptMessage : Text := "Are you still there?".toList

/-- `PCM_FRAME_BYTES` -/
def pcmFrameBytes : Nat := 640

/-- `BARGE_IN_ENERGY_THRESHOLD` -/
def bargeInEnergyThreshold : ℚ := 400

/-- `max_queue_size` of the recogniser's queue. -/
def maxQueueSize : Nat := 50

/-- The frames that `feed_mulaw` takes off the front of the buffer, and what is left of it. -/
def takeFrames (buffer : Bytes) : List Bytes × Bytes :=
  if pcmFrameBytes ≤ buffer.length then
    let (frames, rest) := takeFrames (buffer.drop pcmFrameBytes)
    (buffer.take pcmFrameBytes :: frames, rest)
  else ([], buffer)
termination_by buffer.length
decreasing_by
  simp only [List.length_drop]
  simp only [pcmFrameBytes] at *
  omega

namespace Session

variable (cfg : Config) (me : Task) (s : Session)

/-- The call when `start` returns. -/
def started : Session where
  pc
    | .stt | .silence => some .created
    | _ => none

@[simps]
def emit (e : Event) : Session := { s with trace := s.trace ++ [e] }

/-- The running task goes on at `p`. -/
@[simps]
def goto (p : Point) : Session := { s with running := some (me, p) }

/-- The running task suspends. -/
@[simps]
def suspend (a : Await) : Session := { s with running := none, pc := Function.update s.pc me (some a) }

/-- The running task ends, or returns to its caller outside the session. -/
@[simps]
def finish : Session := { s with running := none }

/-- The task has been asked to cancel and has not run since. -/
def cancelling : Bool :=
  match me with
  | .generation g => (s.llm.task g).asked
  | .reply r => (s.tts.task r).asked
  | me => s.asked me

/-- The task runs: what it awaited is over, and a request to cancel has been delivered. -/
def wake : Session :=
  let s := { s with pc := Function.update s.pc me none }
  match me with
  | .generation g =>
    { s with llm := { s.llm with task := Function.update s.llm.task g (s.llm.task g).woken } }
  | .reply r => { s with tts := { s.tts with task := Function.update s.tts.task r (s.tts.task r).woken } }
  | me => { s with asked := Function.update s.asked me false }

/-- The replies after `task.cancel()` of `me`: the request also reaches the reply task that `me` waits
for in `gather`. -/
def cancelAwaited : Tts.Consumer Unit :=
  match s.pc me with
  | some (.gathering r _ _) => s.tts.cancel r
  | _ => s.tts

/-- `llm.cancel()` -/
@[simps]
def cancelGeneration : Session :=
  { s with
    llm := s.llm.cancel
    tts := (s.llm.active.map (fun g => s.cancelAwaited (.generation g))).getD s.tts }

/-- `task.cancel()` of the recogniser's loop or of the silence loop. -/
@[simps]
def askCancel : Session := { s with asked := Function.update s.asked me true, tts := s.cancelAwaited me }

/-- The end of an `async with self._lock` block. -/
@[simps]
def release : Session := { s with lock := s.lock.release s.cancelling }

@[simps]
def applyTransition (state : State) : Session := { s with state := s.state.apply state }

/-- The history after `_remember`. -/
def remembered (history : List Entry) (entry : Entry) : List Entry :=
  if entry.content = [] ∨ cfg.historyTurns = 0 then history
  else
    let history := history ++ [entry]
    history.drop (history.length - cfg.historyTurns * 2)

/-- `_remember` -/
@[simps]
def remember (role : Role) (content : Text) : Session :=
  { s with history := remembered cfg s.history ⟨role, content⟩ }

/-- `_handle_pipeline_error` -/
@[simps!]
def failure : Session :=
  { s with failures := s.failures + 1 }.emit (.failure s.failures) |>.goto me (.acquire (.recovery s.failures))

/-! ## The consumers' tasks -/

/-- `on_complete` of the generation `g`; a failure is reported before the task ends. -/
def onComplete (g : Nat) (outcome : Outcome) : Session :=
  let s := { s with firstToken := Function.update s.firstToken g true }
  let text := Text.strip (s.llm.gen g).text
  let s := if text ≠ [] then s.remember cfg .assistant text else s
  match outcome with
  | .completed => { s with tts := s.tts.finish.2, llm := s.llm.finish g, running := none }
  | .cancelled => { s with llm := s.llm.finish g, running := none }
  | .failed => s.failure (.generation g)

/-- The generation `g`, which runs, comes to its next await or to its next callback. -/
def generationGoesOn (g : Nat) (next : Llm.Next Unit) : Session :=
  let at_ (pc : Llm.Pc Unit) : Session :=
    { s with llm.task := Function.update s.llm.task g (.suspended pc (s.llm.task g).asked) }
  match next with
  | .await pc => (at_ pc).finish
  | .segments [] flushed => (at_ (Llm.Gen.afterSegments flushed)).finish
  | .segments (segment :: rest) flushed =>
    (at_ (.onSegment rest flushed ())).goto (.generation g) (.acquire (.segment segment))
  | .complete outcome => (at_ (.onComplete outcome ())).onComplete cfg g outcome
  | .ended => { s with llm := s.llm.finish g }.finish

/-- A callback returns to the generation `g`, or raises a `CancelledError` in it. -/
def generationReturned (g : Nat) (w : Wake Llm.Item) : Session :=
  match (s.llm.task g).pc? with
  | some pc =>
    let (gen, next) := (s.llm.gen g).resume pc w
    { s with llm.gen := Function.update s.llm.gen g gen }.generationGoesOn cfg g next
  | none => s.finish

/-- A callback returns to the reply `r`, or raises a `CancelledError` in it. -/
def replyReturned (r : Nat) (w : Wake Tts.Item) : Session :=
  match s.tts.task r with
  | .suspended pc asked =>
    let (reply, next) := (s.tts.reply r).resume pc w
    { s with
      tts.audioSent := pc.sent w || s.tts.audioSent
      tts.reply := Function.update s.tts.reply r reply
      tts.task := Function.update s.tts.task r (next.elim .done (.suspended · asked)) }.finish
  | .done => s.finish

/-- The reply `r`, which runs, has come to an await: it may be that of a callback. `send_audio_frame`
returns at once for an empty frame or without `_send_text`, and `_on_tts_playback_end` for an
interrupted reply. -/
def replyArrives (r : Nat) : Session :=
  match s.tts.task r with
  | .suspended (.sendBytes frame _) _ =>
    if frame = [] ∨ s.sendText = false then s.replyReturned r (.ok .none)
    else s.goto (.reply r) (.acquire (.frameCheck frame))
  | .suspended (.playbackEnd interrupted _) _ =>
    if interrupted then s.replyReturned r (.ok .none) else s.goto (.reply r) (.acquire .playbackEnd)
  | _ => s.finish

/-! ## The recogniser -/

/-- `_process_loop` takes the next item of the queue. -/
def nextFrame : Session :=
  match s.queue with
  | [] => s.suspend .stt .queueGet
  | none :: queue => { s with queue }.finish
  | some _ :: queue => { s with queue }.suspend .stt .engine

/-- `_process_loop` -/
def processLoop : Session := if s.listening then s.nextFrame else s.finish

/-- `_on_stt_error` -/
@[simps]
def onSttError : Session :=
  { s with errors := s.errors + 1, pc := Function.update s.pc (.sttError s.errors) (some .created) }

/-- `STTConsumer.stop` once the last utterance has been handled. -/
def finalized : Session :=
  if s.queue.length < maxQueueSize then { s with queue := s.queue ++ [none] }.suspend .twilio .loopEnding
  else s.suspend .twilio .putting

/-- The callback, or the call into the session, returns to the task. -/
def leave : Session :=
  match me with
  | .stt => s.processLoop
  | .twilio => s.finalized
  | .silence => s.suspend .silence .sleeping
  | .generation g => s.generationReturned cfg g (.ok .none)
  | .reply r => s.replyReturned r (.ok .none)
  | _ => s.finish

/-- A `CancelledError` leaves the session's code; it releases the lock where it is held. -/
def unwind : Session :=
  let s := if s.lock.holder = some me then s.release else s
  match me with
  | .generation g => s.generationReturned cfg g .cancelled
  | .reply r => s.replyReturned r .cancelled
  | _ => s.finish

/-! ## Turn events -/

/-- `process_transcript_event` from the start or from the return of a callback up to the next one. -/
@[simps!]
def turn (next : ConversationState × TurnManager.Next) : Session :=
  { s with conversation := next.1 }.goto me (.turn next.2)

/-- `process_transcript_event` returns. -/
def processed : Session :=
  match s.hearing me with
  | some (ev, begun) => s.emit (.processed ev begun s.tts.active) |>.goto me .leave
  | none => s.goto me .leave

/-- The callback that `process_transcript_event` calls next. An exception of it is a failure. -/
def callback (next : TurnManager.Next) : Session :=
  match next with
  | .onUserInterrupted k => s.goto me (.acquire (.bargeIn (some k)))
  | .onUserTurnStarted _ k => s.goto me (.acquire (.turnStarted k))
  | .onUserTurnCompleted turn _ => { s with turns := s.turns + 1 }.goto me (.acquire (.turnCompleted turn s.turns))
  | .returned => s.processed me
  | .raised => s.failure me

/-- `_transcript_callback` -/
def transcriptCallback (ev : TranscriptEvent) : Session :=
  { s with hearing := Function.update s.hearing me (some (ev, s.begun)) }.turn me
    (TurnManager.processTranscriptEvent ev s.conversation)

/-- `_on_user_turn_completed` returns. -/
@[simps!]
def turnReturned (turn : UserTurnCompleted) (k : Nat) : Session :=
  (s.emit (.turnReturned k turn)).turn me (TurnManager.resume .completed s.conversation)

/-- `_handle_barge_in` returns. -/
def bargeInReturned (k : Option TurnManager.After) : Session :=
  match k with
  | some k => s.turn me (TurnManager.resume k s.conversation)
  | none => s.goto me .leave

/-! ## `tts.begin` -/

/-- `tts.begin` up to its call of `stop`. -/
@[simps!]
def begins (opening : Opening) : Session :=
  { s with begun := s.begun + 1 }.emit (.begin s.begun) |>.goto me (.ttsStop (.begin s.begun opening))

/-- `tts.begin` from the return of `stop` on. The name of a fallback or of a prompt also has a fresh
`uuid4`, which nothing reads. -/
@[simps!]
def opens (ticket : Nat) (utteranceId : Text) : Session :=
  { s with tts := s.tts.openReply utteranceId }.emit (.opened ticket s.tts.count)

/-- `_on_user_turn_completed` once its reply is open: `start_generation`, and the watchdog. -/
@[simps!]
def startGeneration (turn : UserTurnCompleted) (history : List Entry) (k : Nat) : Session :=
  let g := s.llm.count
  let text := Text.strip turn.transcript
  let s := s.emit (.generation g k text)
  let s := s.cancelGeneration
  { s with
    llm := s.llm.startGeneration text turn.utteranceId history
    pc := Function.update s.pc (.watchdog g) (some .created) }

/-- `tts.speak` and `tts.finish` of one complete text. -/
@[simps]
def speakAll (text : Text) : Session := { s with tts := (s.tts.speak text).2.finish.2 }

/-- `stop` has returned to `tts.begin`. -/
def beginGoesOn (ticket : Nat) (opening : Opening) : Session :=
  match opening with
  | .answer turn history k =>
    (s.opens ticket turn.utteranceId).startGeneration turn history k |>.turnReturned me turn k
  | .fallback n =>
    ((s.opens ticket "fallback".toList).speakAll fallbackMessage).emit (.fallback n) |>.goto me .leave
  | .silencePrompt => (s.opens ticket "silence-prompt".toList).speakAll silencePromptMessage |>.goto me .leave

/-! ## The sections -/

/-- `_on_user_turn_started` -/
def turnStarted (k : TurnManager.After) : Session :=
  let s :=
    if s.state = .ENDED then s
    else
      let s := s.cancelGeneration
      if s.state = .PROCESSING then s.applyTransition .LISTENING else s
  s.release.turn me (TurnManager.resume k s.conversation)

/-- `_on_user_turn_completed` up to its call of `_on_system_turn_start`. -/
def turnCompleted (turn : UserTurnCompleted) (k : Nat) : Session :=
  if s.state ≠ .LISTENING then s.release.turnReturned me turn k
  else
    let s := (s.applyTransition .PROCESSING).emit (.processing k s.llm.count s.tts.count) |>.release
    let history := s.history
    (s.remember cfg .user (Text.strip turn.transcript)).goto me (.acquire (.systemTurn turn history k))

/-- `_on_llm_segment`; a segment is spoken by the reply that is current then. -/
def onLlmSegment (segment : Text) : Session :=
  if s.state.answering = false then s.release.goto me .leave
  else
    let s := if s.state = .PROCESSING then s.applyTransition .SPEAKING else s
    let s := s.release
    { s with tts := (s.tts.speak segment).2 }.goto me .leave

/-- `_on_tts_playback_end` of a reply that was heard to its end. -/
def onTtsPlaybackEnd : Session :=
  let s :=
    if s.state = .ENDED then s
    else
      let s := { s with conversation := s.conversation.completeSystemTurn }
      if s.state.answering then s.applyTransition .LISTENING else s
  s.release.goto me .leave

/-- `feed_mulaw` -/
def feedMulaw (pcm : Bytes) : Session :=
  if s.state = .ENDED then s.release.finish
  else
    let s := if s.state = .CONNECTED ∨ s.state = .LISTENING then s.applyTransition .STREAMING else s
    let (frames, pcmBuffer) := takeFrames (s.pcmBuffer ++ pcm)
    let loud := frames.filter (fun frame => s.state = .SPEAKING && bargeInEnergyThreshold ≤ pcmFrameEnergy frame)
    { s with
      prompted := false
      pcmBuffer
      frames := s.frames ++ frames
      vads := s.vads + loud.length
      pc := fun t => match t with
        | .vad n => if s.vads ≤ n ∧ n < s.vads + loud.length then some .created else s.pc t
        | _ => s.pc t }.release.finish

/-- `_silence_loop` between its two blocks. -/
def silenceChecked (quiet late : Bool) : Session :=
  if s.state = .ENDED then s.release.finish
  else if s.state ≠ .LISTENING ∨ quiet = false then s.release.goto me .leave
  else if s.prompted = false then s.release.goto me (.acquire .silencePrompt)
  else if late then s.release.suspend me .hangup
  else s.release.goto me .leave

/-- The body of a section, up to its call of `tts.stop` or to its end and what follows. -/
def enter (sec : Section) : Session :=
  match sec with
  | .turnStarted k => s.turnStarted me k
  | .turnCompleted turn k => s.turnCompleted cfg me turn k
  | .systemTurn turn history k =>
    if s.state = .ENDED then s.release.begins me (.answer turn history k)
    else s.goto me (.ttsStop (.systemTurn turn history k))
  | .bargeIn k =>
    if s.state.answering then ({ s with muted := true }.cancelGeneration).goto me (.ttsStop (.bargeIn k))
    else s.release.bargeInReturned me k
  | .recovery n =>
    if s.state = .ENDED then s.release.goto me .leave
    else s.cancelGeneration.goto me (.ttsStop (.recovery n))
  | .fallback n =>
    if s.state = .ENDED then s.release.goto me .leave else s.goto me (.ttsStop (.fallback n))
  | .segment text => s.onLlmSegment me text
  | .playbackEnd => s.onTtsPlaybackEnd me
  | .feed pcm => s.feedMulaw pcm
  | .frameCheck frame =>
    if s.muted ∨ s.state = .ENDED ∨ cfg.toMulaw frame = [] then s.release.goto me .leave
    else s.release.goto me (.acquire .frameSend)
  | .frameSend =>
    if s.muted ∨ s.state = .ENDED ∨ s.sendText = false then s.release.goto me .leave
    else s.release.emit (.media me) |>.suspend me .sendMedia
  | .silenceCheck quiet late => s.silenceChecked me quiet late
  | .silencePrompt =>
    if s.state ≠ .LISTENING ∨ s.prompted then s.release.goto me .leave
    else { s with prompted := true }.goto me (.ttsStop .silencePrompt)
  | .stop =>
    if s.state = .ENDED then s.release.finish
    else
      let s := (s.applyTransition .ENDED).emit .ended
      ({ s with sendText := false, muted := true }.cancelGeneration).goto me (.ttsStop .stop)

/-- The user turn and the system turn are over. -/
@[simps]
def closeTurns : Session := { s with conversation := s.conversation.interruptUser.completeSystemTurn }

/-- INTERRUPTED → LISTENING. -/
@[simps!]
def listenAgain : Session := (s.applyTransition .INTERRUPTED).applyTransition .LISTENING

/-- `tts.stop` has returned: the rest of the section and what follows it, or the rest of `tts.begin`. -/
def stopped (k : StopFor) : Session :=
  match k with
  | .systemTurn turn history k =>
    { s with conversation := s.conversation.startSystemTurn }.release.begins me (.answer turn history k)
  | .bargeIn k =>
    ({ s.closeTurns.listenAgain with muted := false }.emit .bargedIn).release.bargeInReturned me k
  | .recovery n =>
    let s := if s.state.answering then s.listenAgain else s
    s.closeTurns.release.goto me (.acquire (.fallback n))
  | .fallback n => s.release.begins me (.fallback n)
  | .silencePrompt => s.release.begins me .silencePrompt
  | .stop => { s with listening := false }.suspend me .finalizing
  | .begin ticket opening => s.beginGoesOn me ticket opening

/-- `tts.stop` up to its first await. -/
def ttsStop (k : StopFor) : Session :=
  match s.tts.active with
  | none => s.goto me (.stopped k)
  | some r =>
    let tts := { s with tts := s.tts.cancel r }.cancelAwaited (.reply r)
    { s with tts }.suspend me (.gathering r s.tts.audioSent k)

/-- `async with self._lock` -/
def acquire (sec : Section) : Session :=
  if s.lock.free s.cancelling then { s with lock := s.lock.hold me }.goto me (.enter sec)
  else { s with lock := s.lock.wait me }.suspend me (.acquiring sec)

/-- One piece of the running task. -/
def advance : Point → Session
  | .acquire sec => s.acquire me sec
  | .enter sec => s.enter cfg me sec
  | .ttsStop k => s.ttsStop me k
  | .stopped k => s.stopped me k
  | .turn next => s.callback me next
  | .leave => s.leave cfg me

/-! ## Resuming a task -/

/-- The first step of a task that was created for a call into the session, or of a loop. -/
def start : Session :=
  match me with
  | .stt => s.processLoop
  | .silence => s.suspend .silence .sleeping
  | .vad _ => s.goto me (.acquire (.bargeIn none))
  | .sttError _ => s.failure me
  | .watchdog _ => s.suspend me .watching
  | _ => s.finish

/-- `stop` after the engine is closed: the end of its section, and the wait for the silence loop. -/
def tornDown : Session :=
  let s := { s with muted := false, pcmBuffer := [] }.release
  if s.pc .silence = none then s.finish else (s.askCancel .silence).suspend me .silenceEnding

/-- The await at `a` returns. -/
def resumeOk (a : Await) (result : Result) : Session :=
  match a with
  | .created => s.start me
  | .acquiring sec => { s with lock := s.lock.hold me }.goto me (.enter sec)
  | .gathering _ hadAudio k =>
    if hadAudio then (if s.sendText then s.emit .clear else s).suspend me (.clearing k) else s.goto me (.stopped k)
  | .clearing k => s.goto me (.stopped k)
  | .queueGet => s.nextFrame
  | .engine =>
    match result with
    | .transcript ev => s.transcriptCallback me ev
    | _ => s.processLoop
  | .finalizing =>
    match result with
    | .transcript ev => s.transcriptCallback me ev
    | _ => s.finalized
  | .putting => { s with queue := s.queue ++ [none] }.suspend me .loopEnding
  | .loopEnding =>
    if result = .timeout then (s.askCancel .stt).suspend me .loopCancelled else s.suspend me .consumerClosing
  | .loopCancelled => s.suspend me .consumerClosing
  | .consumerClosing => s.suspend me .engineClosing
  | .engineClosing => s.tornDown me
  | .silenceEnding =>
    if result = .timeout then (s.askCancel .silence).suspend me .silenceCancelled else s.finish
  | .silenceCancelled => s.finish
  | .sleeping =>
    match result with
    | .clock quiet late => s.goto me (.acquire (.silenceCheck quiet late))
    | _ => s.finish
  | .hangup => s.finish
  | .watching => if result = .timeout then s.suspend me .expiring else s.finish
  | .expiring => s.finish
  | .sendMedia => s.goto me .leave

/-- The await at `a` raises an `Exception`. -/
def resumeRaised (a : Await) : Session :=
  match a with
  | .engine => s.onSttError.processLoop
  | .finalizing => s.finalized
  | .consumerClosing | .engineClosing => s.release.finish
  | .expiring => s.cancelGeneration.failure me
  | .sendMedia => s.failure me
  | _ => s.finish

/-- The await at `a` raises a `CancelledError`. -/
def resumeCancelled (a : Await) : Session :=
  match a with
  | .acquiring _ => { s with lock := s.lock.abandon me s.cancelling }.unwind cfg me
  | _ => s.unwind cfg me

/-- The task that awaited `a` goes on. -/
def resume (a : Await) : Wake Result → Session
  | .ok result => s.resumeOk me a result
  | .raised => s.resumeRaised me a
  | .cancelled => s.resumeCancelled cfg me a

/-- The await at `a` can come back this way at this time. A cancelled `gather` comes back only when the
reply task has ended, too. -/
def enabled (a : Await) : Wake Result → Bool
  | .ok result =>
    match a, result with
    | .engine, .transcript _ | .finalizing, .transcript _ | .sleeping, .clock _ _ => true
    | .loopEnding, .timeout | .silenceEnding, .timeout => true
    | .watching, .timeout => match me with
      | .watchdog g => !s.firstToken g
      | _ => false
    | .sleeping, .none => false
    | _, .none => match a with
      | .acquiring _ => s.lock.isTurn me
      | .gathering r _ _ => (s.tts.task r).isDone
      | .queueGet => s.queue ≠ []
      | .putting => s.queue.length < maxQueueSize
      | .loopEnding | .loopCancelled => s.pc .stt = none
      | .silenceEnding | .silenceCancelled => s.pc .silence = none
      | .watching | .expiring => match me with
        | .watchdog g => s.firstToken g
        | _ => false
      | _ => true
    | _, _ => false
  | .raised =>
    match a with
    | .engine | .finalizing | .consumerClosing | .engineClosing | .expiring | .hangup | .sendMedia => true
    | _ => false
  | .cancelled =>
    match a with
    | .gathering r _ _ => (s.tts.task r).isDone
    | _ => true

end Session

open Session

/-- The choices of the scheduler and of the environment. -/
inductive Label where
  /-- The running task goes on. -/
  | run
  /-- The task `me`, suspended in the session's code, runs. -/
  | wake (me : Task) (w : Wake Result)
  /-- The generation `g`, suspended in its own code, runs. -/
  | generation (g : Nat) (w : Wake Llm.Item)
  /-- The reply `r`, suspended in its own code, runs. -/
  | reply (r : Nat) (w : Wake Tts.Item)
  /-- The oldest `process_frame` task runs. -/
  | processFrame
  /-- A transcript event comes while the recogniser's loop waits for a frame. -/
  | transcript (ev : TranscriptEvent)
  | feedMulaw (bytes : Bytes)
  | stop
  deriving DecidableEq, Repr

namespace Session

variable (cfg : Config) (s : Session)

/-- A generation's first token sets `first_token`. -/
def tokenSeen (g : Nat) (w : Wake Llm.Item) : Session :=
  match w with
  | .ok (.token _ _) =>
    if (s.llm.gen g).parts = [] then { s with firstToken := Function.update s.firstToken g true } else s
  | _ => s

/-- The generation `g` runs. -/
def resumeGeneration (g : Nat) (w : Wake Llm.Item) : Option Session :=
  (s.llm.resume g w).map fun (llm, next) =>
    ({ s.tokenSeen g w with llm }.wake (.generation g)).generationGoesOn cfg g next

/-- The reply `r` runs. -/
def resumeReply (r : Nat) (w : Wake Tts.Item) : Option Session :=
  (s.tts.resume r w).map fun (tts, _) => { s with tts }.replyArrives r

/-- `process_frame`: `put_nowait`, which drops the frame when the queue is full. -/
def processFrame (frame : Bytes) : Session :=
  if s.queue.length < maxQueueSize then { s with queue := s.queue ++ [some frame] } else s

end Session

/-- One step of the call's tasks. -/
def step (cfg : Config) (s : Session) (l : Label) : Option Session :=
  match s.running, l with
  | some (me, p), .run => some (s.advance cfg me p)
  | none, .wake me w =>
    match s.pc me with
    | some a =>
      if w.fits (s.cancelling me) && s.enabled me a w then some ((s.wake me).resume cfg me a w) else none
    | none => none
  | none, .generation g w => if s.pc (.generation g) = none then s.resumeGeneration cfg g w else none
  | none, .reply r w => if s.pc (.reply r) = none then s.resumeReply r w else none
  | none, .processFrame =>
    match s.frames with
    | frame :: frames => some ({ s with frames }.processFrame frame)
    | [] => none
  | none, .transcript ev =>
    if s.pc .stt = some .queueGet && !s.cancelling .stt then some ((s.wake .stt).transcriptCallback .stt ev) else none
  | none, .feedMulaw bytes =>
    if s.pc .twilio = none then
      some (if bytes = [] then s else s.goto .twilio (.acquire (.feed (cfg.toPcm bytes))))
    else none
  | none, .stop => if s.pc .twilio = none then some (s.goto .twilio (.acquire .stop)) else none
  | _, _ => none

end Voxera.Call
