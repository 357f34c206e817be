import Voxera.Conversation
import Voxera.EndOfTurn
import Voxera.EventLoop.Run
import Voxera.LlmConsumer
import Voxera.TtsConsumer
import Mathlib.Tactic.Simps.Basic

/-!
# `VoiceSession` as a system of tasks

The tasks of one browser connection: the recogniser's task (`stt`) and the dispatcher's task, each of
which awaits one call into the session at a time, the endpoint's task (`close`, `speak_text`, and the
last transcript the recogniser is asked for once the session is closed), the hold timers, the
generation tasks of the `LLMConsumer` and the reply tasks of the `TTSConsumer`.

A step of the system is what one task does between two of its awaits. A coroutine that awaits `stop`
or sends an event is suspended at a `Pc` that says what it goes on with; where the source function
has an `await` in the middle, the definition here ends and a second one, called when the await comes
back, holds the rest of the body.

`trace` lists the calls that are made to the consumers and to the client, in order. The entries say
more than the source records: which call of `begin`, which reply task and which generation it was, and
the value of `is_user_speaking` at that moment.
-/

namespace Voxera.Voice

open EventLoop
open Llm (Entry Role Outcome)

structure Config where
  /-- `history_turns` -/
  historyTurns : Nat := 6
  /-- `eot_hold_ms` -/
  eotHoldMs : Nat := 1200
  /-- `EnergyVAD(...)`, or `none` with `vad_barge_in` off. -/
  vad : Option EnergyVAD := some {}
  /-- The class `\w` of `re`. -/
  wordChar : Char → Bool := asciiWordChar

structure TurnTiming where
  utteranceId : Text
  interrupted : Bool := false
  deriving DecidableEq, Repr

/-- The tasks that call into the session. -/
inductive Handler where
  | stt
  | dispatcher
  | endpoint
  | timer (n : Nat)
  deriving DecidableEq, Repr

/-- What awaits `handle_interruption`: `process_transcript_event`, or `process_audio_frame`. -/
inductive AfterInterruption where
  | turn (k : TurnManager.After)
  | vad
  deriving DecidableEq, Repr

/-- What had happened when `handle_interruption` was called: the calls of `tts.begin` made, the
generations started, and the current reply if audio of it had been handed to `send_bytes`. -/
structure Cut where
  begun : Nat
  generations : Nat
  heard : Option Nat
  deriving DecidableEq, Repr

/-- What awaits `tts.stop`. -/
inductive StopFor where
  | interruption (k : AfterInterruption) (cut : Cut)
  /-- `_reply`, in the call number `ticket` of `tts.begin`. -/
  | reply (turn : UserTurnCompleted) (history : List Entry) (ticket : Nat)
  /-- `speak_text`, in the call number `ticket` of `tts.begin`. -/
  | speakText (text utteranceId : Text) (ticket : Nat)
  | close
  deriving DecidableEq, Repr

/-- The suspension points of the calls into the session. -/
inductive Pc where
  /-- `stop`: waits for the cancelled reply task `r` to end. -/
  | stopping (r : Nat) (hadAudio : Bool) (k : StopFor)
  /-- `stop`: sends `tts_clear`. -/
  | clearing (k : StopFor)
  /-- `_on_user_interrupted`: sends `barge_in`. -/
  | bargeIn (k : AfterInterruption) (cut : Cut)
  /-- `_on_user_turn_completed`: sends `turn_held`. -/
  | turnHeld
  /-- `_release_held_turn`: sleeps. -/
  | holdSleep
  /-- `close`: waits in `llm.aclose` for the generation `g` to end. -/
  | closing (g : Nat)
  deriving DecidableEq, Repr

inductive Event where
  /-- `_reply` is called. -/
  | reply (turn : UserTurnCompleted) (userSpeaking : Bool)
  /-- `tts.begin` is called, for the `ticket`-th time. -/
  | begin (ticket : Nat) (userSpeaking : Bool)
  /-- The call `ticket` of `tts.begin` creates the reply task `r`. -/
  | opened (ticket r : Nat)
  /-- `llm.start_generation` is called, for the `g`-th time, by the `_reply` that opened `r`. -/
  | generation (g r : Nat) (prompt : Text) (history : List Entry) (userSpeaking : Bool)
  /-- A segment or the end marker (`none`) is put on the queue of `r`, by the generation `g`. -/
  | queued (r : Nat) (g : Option Nat) (item : Option Text)
  | llm (g : Nat) (message : Llm.Message)
  | tts (r : Nat) (call : Tts.Event)
  /-- `handle_interruption` is called while the system is speaking. -/
  | interruption (cut : Cut)
  | interruptionReturned (cut : Cut)
  | bargeIn
  | turnHeld (utteranceId : Text)
  | turnMetrics (timing : TurnTiming)
  deriving DecidableEq, Repr

structure Session where
  state : ConversationState := {}
  history : List Entry := []
  timing : Option TurnTiming := none
  llm : Llm.Consumer Unit := {}
  tts : Tts.Consumer Unit := {}
  vad : Option EnergyVAD := none
  held : Option UserTurnCompleted := none
  holdTask : Option Nat := none
  /-- The hold timers started so far. -/
  timers : Nat := 0
  /-- The calls of `tts.begin` made so far. -/
  begun : Nat := 0
  /-- `close` has returned. -/
  closed : Bool := false
  handler : Handler → Coroutine Pc := fun _ => .done
  trace : List Event := []

namespace Session

variable (cfg : Config) (me : Handler) (s : Session)

def fresh : Session := { vad := cfg.vad }

@[simps]
def emit (e : Event) : Session := { s with trace := s.trace ++ [e] }

@[simps]
def emits (es : List Event) : Session := { s with trace := s.trace ++ es }

/-- The running call suspends at `pc`. -/
@[simps]
def park (pc : Pc) : Session := { s with handler := Function.update s.handler me (.await pc) }

/-- The running call returns to its task (a hold timer's task ends). -/
@[simps]
def leave : Session := { s with handler := Function.update s.handler me .done }

/-- The history after `_remember`. -/
def remembered (history : List Entry) (entry : Entry) : List Entry :=
  if cfg.historyTurns = 0 then history
  else
    let history := history ++ [entry]
    history.drop (history.length - cfg.historyTurns * 2)

/-- `_remember` -/
@[simps]
def remember (role : Role) (content : Text) : Session :=
  { s with history := remembered cfg s.history ⟨role, content⟩ }

/-! ## Hold timers -/

/-- `_cancel_hold_timer` -/
def cancelHoldTimer : Session :=
  match s.holdTask with
  | none => s
  | some n =>
    let s := { s with holdTask := none }
    if me = .timer n then s
    else { s with handler := Function.update s.handler (.timer n) (s.handler (.timer n)).cancel }

/-- `_start_hold_timer` -/
def startHoldTimer : Session :=
  let s := s.cancelHoldTimer me
  { s with
    holdTask := some s.timers
    timers := s.timers + 1
    handler := Function.update s.handler (.timer s.timers) (.await .holdSleep) }

/-! ## `_reply` -/

/-- `tts.stop` up to its first await, with `k` after it: `next` is what follows when no reply is in
progress and `stop` returns `False` at once. -/
def ttsStop (k : StopFor) (next : Session → Session) : Session :=
  match s.tts.active with
  | none => next s
  | some r => { s with tts := s.tts.cancel r }.park me (.stopping r s.tts.audioSent k)

/-- `_reply` after `stop` has returned to `tts.begin`: the rest of `begin`, and `start_generation`. -/
def replyBegun (turn : UserTurnCompleted) (history : List Entry) (ticket : Nat) : Session :=
  let r := s.tts.count
  let g := s.llm.count
  let text := Text.strip turn.transcript
  let s := { s with tts := s.tts.openReply turn.utteranceId }.emit (.opened ticket r)
  let s := s.emit (.generation g r text history s.state.isUserSpeaking)
  { s with llm := s.llm.startGeneration text turn.utteranceId history }.leave me

/-- `_reply` up to its call of `tts.begin`. -/
@[simps!]
def replyBegins (turn : UserTurnCompleted) : Session :=
  let s := s.emit (.reply turn s.state.isUserSpeaking)
  let s := { s with timing := some { utteranceId := turn.utteranceId } }
  let s := s.remember cfg .user (Text.strip turn.transcript)
  let s := { s with state := s.state.startSystemTurn }
  { s with begun := s.begun + 1 }.emit (.begin s.begun s.state.isUserSpeaking)

/-- `_reply` -/
def reply (turn : UserTurnCompleted) : Session :=
  let history := s.history
  let ticket := s.begun
  (s.replyBegins cfg turn).ttsStop me (.reply turn history ticket)
    (fun s => s.replyBegun me turn history ticket)

/-! ## Turn events -/

/-- `_on_user_turn_started` -/
def onUserTurnStarted : Session := { s with llm := s.llm.cancel }.cancelHoldTimer me

/-- The turn that is complete, and its text: the held turn and what came after it are one turn. -/
def continued (turn : UserTurnCompleted) : UserTurnCompleted × Text :=
  match s.held with
  | some held =>
    let text := Text.strip (Text.joinSpace (Text.strip held.transcript) (Text.strip turn.transcript))
    ({ utteranceId := held.utteranceId, transcript := text }, text)
  | none => (turn, Text.strip turn.transcript)

/-- `self._eot_hold_seconds > 0 and sounds_unfinished(text)` -/
def unfinished (text : Text) : Bool := 0 < cfg.eotHoldMs && soundsUnfinished cfg.wordChar text

/-- `_on_user_turn_completed` with a turn that sounds unfinished. -/
def holdTurn (turn : UserTurnCompleted) : Session :=
  let s := { s with held := some turn }.startHoldTimer me
  s.emit (.turnHeld turn.utteranceId) |>.park me .turnHeld

/-- `_on_user_turn_completed` -/
def onUserTurnCompleted (turn : UserTurnCompleted) : Session :=
  let (turn, text) := s.continued turn
  let s := { s with held := none }.cancelHoldTimer me
  if text = [] then s.leave me
  else if unfinished cfg text then s.holdTurn me turn
  else s.reply cfg me turn

/-- `process_transcript_event` from a place where the only callback left is `on_user_turn_completed`. -/
def turnCompleted (next : ConversationState × TurnManager.Next) : Session :=
  let s := { s with state := next.1 }
  match next.2 with
  | .onUserTurnCompleted turn _ => s.onUserTurnCompleted cfg me turn
  | _ => s.leave me

/-- `process_transcript_event` from the end of the barge-in check. -/
def turnStarted (next : ConversationState × TurnManager.Next) : Session :=
  match next.2 with
  | .onUserTurnStarted _ k =>
    let s := { s with state := next.1 }.onUserTurnStarted me
    s.turnCompleted cfg me (TurnManager.resume k s.state)
  | _ => s.turnCompleted cfg me next

/-- `handle_interruption` returns. -/
def interruptionReturned (k : AfterInterruption) (cut : Cut) : Session :=
  let s := s.emit (.interruptionReturned cut)
  match k with
  | .turn k => s.turnStarted cfg me (TurnManager.resume k s.state)
  | .vad => s.leave me

/-- `_on_user_interrupted` up to its call of `tts.stop`. -/
@[simps]
def stopGenerating : Session :=
  { s with
    timing := s.timing.map (fun t : TurnTiming => { t with interrupted := true })
    llm := s.llm.cancel }

/-- `_on_user_interrupted` -/
def onUserInterrupted (k : AfterInterruption) (cut : Cut) : Session :=
  s.stopGenerating.ttsStop me (.interruption k cut) (fun s => s.interruptionReturned cfg me k cut)

/-- Audio of the current reply has been handed to `send_bytes`. -/
def heard : Option Nat :=
  s.tts.active.filter (fun r => s.trace.any (fun e => match e with
    | .tts r' (.audio _) => r' == r
    | _ => false))

/-- What has happened so far. -/
def cut : Cut := ⟨s.begun, s.llm.count, s.heard⟩

/-- `handle_interruption` with the state it has written, up to its callback. -/
def interrupt (state : ConversationState) (k : AfterInterruption) : Session :=
  { s with state }.emit (.interruption s.cut) |>.onUserInterrupted cfg me k s.cut

/-- `process_transcript_event` -/
def processTranscriptEvent (ev : TranscriptEvent) : Session :=
  let next := TurnManager.processTranscriptEvent ev s.state
  match next.2 with
  | .onUserInterrupted k => s.interrupt cfg me next.1 (.turn k)
  | _ => s.turnStarted cfg me next

/-- `process_audio_frame` -/
def processAudioFrame (frame : Bytes) : Session :=
  match s.vad with
  | none => s
  | some vad =>
    let (speechStarted, vad) := vad.update frame
    let s := { s with vad := some vad }
    if speechStarted then
      match TurnManager.handleInterruption s.state with
      | some state => s.interrupt cfg me state .vad
      | none => if s.held.isSome then s.startHoldTimer me else s
    else s

/-! ## `speak_text` and `close` -/

/-- `speak_text` after `stop` has returned to `tts.begin`. -/
def speakTextBegun (text utteranceId : Text) (ticket : Nat) : Session :=
  let r := s.tts.count
  let s := { s with tts := s.tts.openReply utteranceId }.emit (.opened ticket r)
  let (put, tts) := s.tts.speak text
  let s := { s with tts }.emits (put.toList.map (fun r => .queued r none (some text)))
  let (put, tts) := s.tts.finish
  ({ s with tts }.emits (put.toList.map (fun r => .queued r none none))).leave me

/-- `speak_text` -/
def speakText (text utteranceId : Text) : Session :=
  let s := { s with timing := none, state := s.state.startSystemTurn }
  let ticket := s.begun
  let s := { s with begun := ticket + 1 }.emit (.begin ticket s.state.isUserSpeaking)
  s.ttsStop me (.speakText text utteranceId ticket) (fun s => s.speakTextBegun me text utteranceId ticket)

def closeReturned : Session := { s with closed := true }.leave me

/-- `close` after `llm.aclose`. -/
def closeTts : Session := s.ttsStop me .close (fun s => s.closeReturned me)

/-- `close` -/
def close : Session :=
  let s := { s.cancelHoldTimer me with held := none }
  match s.llm.active with
  | none => s.closeTts me
  | some g => { s with llm := s.llm.cancel }.park me (.closing g)

/-! ## Resuming a call -/

/-- `reason` -/
def StopFor.reason : StopFor → Text
  | .interruption _ _ => "barge_in".toList
  | .reply _ _ _ => "superseded".toList
  | .speakText _ _ _ => "superseded".toList
  | .close => "closed".toList

/-- `stop` returns `True` to the call that awaits it. -/
def stopReturned (k : StopFor) : Session :=
  match k with
  | .interruption k cut => s.emit .bargeIn |>.park me (.bargeIn k cut)
  | .reply turn history ticket => s.replyBegun me turn history ticket
  | .speakText text utteranceId ticket => s.speakTextBegun me text utteranceId ticket
  | .close => s.closeReturned me

/-- The cancelled reply task has ended: the rest of `stop`. -/
def replyStopped (r : Nat) (hadAudio : Bool) (k : StopFor) : Session :=
  if hadAudio then s.emit (.tts r (.json (.ttsClear (StopFor.reason k)))) |>.park me (.clearing k)
  else s.stopReturned me k

/-- `_release_held_turn` after its sleep. -/
def releaseHeldTurn : Session :=
  let held := s.held
  let s := { s with held := none, holdTask := none }
  match held with
  | some turn => s.reply cfg me turn
  | none => s.leave me

/-- The await at `pc` can come back this way at this time. No event that is sent here raises: the
session's `_safe_send` and the consumer's catch what `send_json` raises. -/
def enabled (pc : Pc) : Wake Unit → Bool
  | .cancelled => true
  | .raised => false
  | .ok _ => match pc with
    | .stopping r _ _ => (s.tts.task r).isDone
    | .closing g => (s.llm.task g).isDone
    | _ => true

/-- The call that was suspended at `pc` goes on. A `CancelledError` is caught nowhere in it. -/
def resumeHandler (pc : Pc) : Wake Unit → Session
  | .ok _ => match pc with
    | .stopping r hadAudio k => s.replyStopped me r hadAudio k
    | .clearing k => s.stopReturned me k
    | .bargeIn k cut => s.interruptionReturned cfg me k cut
    | .turnHeld => s.leave me
    | .holdSleep => s.releaseHeldTurn cfg me
    | .closing _ => s.closeTts me
  | _ => s.leave me

/-! ## The generation and reply tasks -/

/-- `on_segment` of the generation `g`, for each of the segments in turn. -/
def onSegments (g : Nat) : List Text → Session → Session
  | [], s => s
  | segment :: rest, s =>
    let (put, tts) := s.tts.speak segment
    onSegments g rest ({ s with tts }.emits (put.toList.map (fun r => .queued r (some g) (some segment))))

/-- `on_complete` of the generation `g`. -/
def onComplete (g : Nat) (text : Text) (outcome : Outcome) : Session :=
  let s := if Text.strip text ≠ [] then s.remember cfg .assistant (Text.strip text) else s
  if outcome ≠ .cancelled then
    let (put, tts) := s.tts.finish
    { s with tts }.emits (put.toList.map (fun r => .queued r (some g) none))
  else s

/-- The generation `g` suspends at `pc`, where it makes the call it awaits. -/
def generationAwaits (g : Nat) (pc : Llm.Pc Unit) : Session :=
  { s with llm := s.llm.await g pc }.emits (((s.llm.gen g).calls pc).map (.llm g))

/-- The generation `g` takes a step. -/
def resumeGeneration (g : Nat) (w : Wake Llm.Item) : Option Session :=
  (s.llm.resume g w).map fun (llm, next) =>
    let s := { s with llm }
    match next with
    | .await pc => s.generationAwaits g pc
    | .segments segments flushed => (onSegments g segments s).generationAwaits g (Llm.Gen.afterSegments flushed)
    | .complete outcome =>
      let s := s.onComplete cfg g (s.llm.gen g).text outcome
      { s with llm := s.llm.finish g }
    | .ended => { s with llm := s.llm.finish g }

/-- `_on_playback_end` from its last condition on. -/
def playbackEnded (utteranceId : Text) (interrupted : Bool) : Session :=
  if !interrupted && !s.llm.isGenerating &&
      (s.tts.currentUtteranceId = none || s.tts.currentUtteranceId = some utteranceId) then
    { s with state := s.state.completeSystemTurn }
  else s

/-- `_on_playback_end` of the reply `r`, called at the suspension point where `_run` awaits it; it
sends `turn_metrics` when the timing is this reply's, and otherwise returns at once. -/
def onPlaybackEnd (r : Nat) (interrupted : Bool) : Session :=
  let utteranceId := (s.tts.reply r).utteranceId
  let done (s : Session) : Session :=
    { s with tts := { s.tts with task := Function.update s.tts.task r .done } }
  match s.timing with
  | some timing =>
    if timing.utteranceId = utteranceId then
      let timing := { timing with interrupted := timing.interrupted || interrupted }
      { s with timing := some timing }.emit (.turnMetrics timing)
    else done (s.playbackEnded utteranceId interrupted)
  | none => done (s.playbackEnded utteranceId interrupted)

/-- What is left of `_on_playback_end` when the reply `r` is suspended in it: `turn_metrics` has been
sent, and the task ends with what follows. A `CancelledError` there skips it. -/
def metricsSent (r : Nat) (w : Wake Tts.Item) : Session :=
  match s.tts.task r, w with
  | .suspended (.playbackEnd _ _) _, .cancelled => s
  | .suspended (.playbackEnd interrupted _) _, _ =>
    { s with timing := none }.playbackEnded (s.tts.reply r).utteranceId interrupted
  | _, _ => s

/-- The reply task `r` takes a step. -/
def resumeReply (r : Nat) (w : Wake Tts.Item) : Option Session :=
  (s.tts.resume r w).map fun (tts, calls) =>
    let s := { s.metricsSent r w with tts }.emits (calls.map (.tts r))
    match tts.task r with
    | .suspended (.playbackEnd interrupted _) _ => s.onPlaybackEnd r interrupted
    | _ => s

end Session

open Session

/-- The choices of the scheduler and of the environment. -/
inductive Label where
  /-- The recogniser delivers an event, in its own task or, at the end, in the endpoint's. -/
  | transcript (source : Handler) (ev : TranscriptEvent)
  | frame (bytes : Bytes)
  | speakText (text utteranceId : Text)
  | close
  | handler (h : Handler) (w : Wake Unit)
  | generation (g : Nat) (w : Wake Llm.Item)
  | reply (r : Nat) (w : Wake Tts.Item)
  deriving DecidableEq, Repr

/-- The task may start a call now. -/
def Session.idle (s : Session) (h : Handler) : Bool := (s.handler h).isDone

/-- One step of the session's tasks. -/
def step (cfg : Config) (s : Session) : Label → Option Session
  | .transcript .stt ev => if s.idle .stt then some (s.processTranscriptEvent cfg .stt ev) else none
  | .transcript .endpoint ev =>
    if s.closed && s.idle .endpoint then some (s.processTranscriptEvent cfg .endpoint ev) else none
  | .transcript _ _ => none
  | .frame bytes => if s.idle .dispatcher then some (s.processAudioFrame cfg .dispatcher bytes) else none
  | .speakText text utteranceId =>
    if s.idle .endpoint && !s.closed then some (s.speakText .endpoint text utteranceId) else none
  | .close => if s.idle .endpoint && !s.closed then some (s.close .endpoint) else none
  | .handler h w =>
    match s.handler h with
    | .done => none
    | .suspended pc cancelling =>
      -- a task that runs is not suspended
      if w.fits cancelling && s.enabled pc w then some ((s.leave h).resumeHandler cfg h pc w) else none
  | .generation g w => s.resumeGeneration cfg g w
  | .reply r w => s.resumeReply r w

end Voxera.Voice
