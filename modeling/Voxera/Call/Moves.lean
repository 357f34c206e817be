import Voxera.Call.Places

/-!
# What a step of the call does

The session seen as tasks at places around a core: the two states, the consumers' tasks, the caller's
audio and the record. The lock and the texts are left out, so a step is one of a few kinds.

* `Core`, `Session.core` : what the moves read and write; `Place`, `Session.place` : where a task is;
* `Edge` : the moves that leave the core as it is; `ReplyMove` : the moves of a reply in its own code;
* `Move l c π me p c' q` : with the label `l` the task `me` goes from `p` to `q`, and the core from `c` to
  `c'`, while the tasks are at `π`;
* `Move.of_step` : every step is a move.
-/

namespace Voxera.Call

open EventLoop

/-- The session without its lock and its texts. -/
@[ext]
structure Core where
  state : State
  conversation : ConversationState
  pcmBuffer : Bytes
  prompted : Bool
  frames : List Bytes
  queue : List (Option Bytes)
  /-- `_task` of the `LLMConsumer`, the generations it has started, and their tasks. -/
  llmCurrent : Option Nat
  llmCount : Nat
  llmTask : Nat → Coroutine (Llm.Pc Unit)
  /-- The same of the `TTSConsumer`. -/
  ttsCurrent : Option Nat
  ttsCount : Nat
  ttsTask : Nat → Coroutine (Tts.Pc Unit)
  asked : Task → Bool
  begun : Nat
  turns : Nat
  failures : Nat
  hearing : Task → Option (TranscriptEvent × Nat)
  trace : List Event

@[simps]
def Session.core (s : Session) : Core where
  state := s.state
  conversation := s.conversation
  pcmBuffer := s.pcmBuffer
  prompted := s.prompted
  frames := s.frames
  queue := s.queue
  llmCurrent := s.llm.current
  llmCount := s.llm.count
  llmTask := s.llm.task
  ttsCurrent := s.tts.current
  ttsCount := s.tts.count
  ttsTask := s.tts.task
  asked := s.asked
  begun := s.begun
  turns := s.turns
  failures := s.failures
  hearing := s.hearing
  trace := s.trace

/-- Where a task is. -/
inductive Place where
  | runs (p : Point)
  | awaits (a : Await)
  /-- Not in the session's code: in its own, over, or not created. -/
  | away
  deriving DecidableEq, Repr

namespace Session

/-- Where a suspended task is. -/
def rest (s : Session) (u : Task) : Place := (s.pc u).elim .away .awaits

def place (s : Session) (u : Task) : Place :=
  match s.running with
  | some (me, p) => if u = me then .runs p else s.rest u
  | none => s.rest u

end Session

namespace Core

variable (c : Core)

/-- `is_active` of the `TTSConsumer`, and the reply. -/
def active : Option Nat := c.ttsCurrent.filter (fun r => !(c.ttsTask r).isDone)

/-- The tasks after `llm.cancel()`. -/
def llmCancelled (g : Nat) : Coroutine (Llm.Pc Unit) :=
  if c.llmCurrent = some g then (c.llmTask g).cancel else c.llmTask g

@[simps]
def emit (e : Event) : Core := { c with trace := c.trace ++ [e] }

/-- `tts.begin` is called. -/
@[simps!]
def begins : Core := { c with begun := c.begun + 1 }.emit (.begin c.begun)

/-- `_handle_pipeline_error` is called. -/
@[simps!]
def fails : Core := { c with failures := c.failures + 1 }.emit (.failure c.failures)

/-- `tts.begin` creates its reply task. -/
@[simps!]
def opens (ticket : Nat) : Core :=
  { c with
    ttsCurrent := some c.ttsCount
    ttsCount := c.ttsCount + 1
    ttsTask := Function.update c.ttsTask c.ttsCount (.await .created) }.emit (.opened ticket c.ttsCount)

/-- `start_generation` of the turn `k`. -/
@[simps!]
def generates (k : Nat) (prompt : Text) : Core :=
  { c with
    llmCurrent := some c.llmCount
    llmCount := c.llmCount + 1
    llmTask := Function.update c.llmCancelled c.llmCount (.await .created) }.emit (.generation c.llmCount k prompt)

/-- INTERRUPTED → LISTENING, the user turn and the system turn over. -/
@[simps]
def closes : Core :=
  { c with
    state := (c.state.apply .INTERRUPTED).apply .LISTENING
    conversation := c.conversation.interruptUser.completeSystemTurn }

end Core

/-- The replies after a request to cancel tasks that await them in `tts.stop`. -/
def Asks (π : Task → Place) (before after : Nat → Coroutine (Tts.Pc Unit)) : Prop :=
  ∀ r, after r = before r ∨
    (∃ u hadAudio k, π u = .awaits (.gathering r hadAudio k)) ∧ after r = (before r).cancel

/-- Nothing of the call depends on it. -/
def Await.plain : Await → Bool
  | .acquiring _ | .gathering _ _ _ | .clearing _ | .hangup => false
  | _ => true

@[inherit_doc Await.plain]
def Place.plain : Place → Bool
  | .runs .leave | .away => true
  | .runs _ => false
  | .awaits a => a.plain

/-- `stop` is past the end of the recogniser's loop. -/
def Place.torn : Place → Bool
  | .awaits .consumerClosing | .awaits .engineClosing | .awaits .silenceEnding | .awaits .silenceCancelled => true
  | .away => true
  | _ => false

/-- The section does nothing in this state. -/
def Section.declines : Section → State → Bool
  | .bargeIn none, st | .segment _, st => !st.answering
  | .recovery _, st | .fallback _, st | .playbackEnd, st | .feed _, st | .stop, st => st = .ENDED
  | .frameCheck _, _ | .frameSend, _ | .silenceCheck _ _, _ | .silencePrompt, _ => true
  | _, _ => false

/-- What the section calls `tts.stop` for, when it does nothing else. -/
def Section.stops : Section → State → Option StopFor
  | .systemTurn turn history k, st => if st = .ENDED then none else some (.systemTurn turn history k)
  | .fallback n, st => if st = .ENDED then none else some (.fallback n)
  | _, _ => none

/-- The section that the task calls by itself. -/
def Section.first : Section → Task → Bool
  | .bargeIn none, .vad _ => true
  | .silenceCheck _ _, .silence => true
  | .feed _, .twilio | .stop, .twilio => true
  | _, _ => false

/-- Where the task calls for the section. -/
def Section.origin : Section → Place
  | .bargeIn _ => .awaits .created
  | .silenceCheck _ _ => .awaits .sleeping
  | _ => .away

/-- The moves that leave the core as it is. -/
inductive Edge (st : State) (me : Task) : Place → Place → Prop
  | plain {p q : Place} (hp : p.plain = true) (hq : q.plain = true) (hstart : p = .away → q = .away)
      (hengine : q ≠ .awaits .engine) (hstop : me = .twilio → q.torn = true → p.torn = true) : Edge st me p q
  | acquires {sec : Section} (hsec : sec.fits me = true) : Edge st me (.runs (.acquire sec)) (.runs (.enter sec))
  | waits {sec : Section} : Edge st me (.runs (.acquire sec)) (.awaits (.acquiring sec))
  | admitted {sec : Section} (hsec : sec.fits me = true) :
      Edge st me (.awaits (.acquiring sec)) (.runs (.enter sec))
  | declined {sec : Section} {q : Place} (hst : sec.declines st = true) (hq : q = .runs .leave ∨ q = .away) :
      Edge st me (.runs (.enter sec)) q
  | converted {frame : Bytes} : Edge st me (.runs (.enter (.frameCheck frame))) (.runs (.acquire .frameSend))
  | stops {sec : Section} {k : StopFor} (hst : sec.stops st = some k) :
      Edge st me (.runs (.enter sec)) (.runs (.ttsStop k))
  | cleared {k : StopFor} : Edge st me (.awaits (.clearing k)) (.runs (.stopped k))
  | tearsDown : Edge st me (.runs (.stopped .stop)) (.awaits .finalizing)
  | interrupts {k : TurnManager.After} :
      Edge st me (.runs (.turn (.onUserInterrupted k))) (.runs (.acquire (.bargeIn (some k))))
  | starts {utteranceId : Text} {k : TurnManager.After} :
      Edge st me (.runs (.turn (.onUserTurnStarted utteranceId k))) (.runs (.acquire (.turnStarted k)))

/-- A reply that is at `pc`, and was asked to cancel when `asked`, goes on in its own code. -/
inductive ReplyMove (l : Label) (r : Nat) :
    Tts.Pc Unit → Bool → Place → Coroutine (Tts.Pc Unit) → Place → Prop
  /-- It was asked to cancel, or has failed before. -/
  | interrupted {pc : Tts.Pc Unit} {asked : Bool} {p : Place} {x : Coroutine (Tts.Pc Unit)}
      (h : asked = true ∨ pc.interrupted = true) (hp : p = .away ∨ ∃ a, p = .awaits a ∧ asked = true) :
      ReplyMove l r pc asked p x .away
  /-- An exception in the `try` block. -/
  | fails {pc : Tts.Pc Unit} {x : Coroutine (Tts.Pc Unit)} (h : pc.raises = true) (hl : l = .reply r .raised) :
      ReplyMove l r pc false .away x .away
  | goesOn {pc pc' : Tts.Pc Unit} (h : pc'.interrupted = false) :
      ReplyMove l r pc false .away (.suspended pc' false) .away
  | sends {pc : Tts.Pc Unit} {frame : Bytes} {inner : Unit} :
      ReplyMove l r pc false .away (.suspended (.sendBytes frame inner) false) (.runs (.acquire (.frameCheck frame)))
  | heard {pc : Tts.Pc Unit} {inner : Unit} :
      ReplyMove l r pc false .away (.suspended (.playbackEnd false inner) false) (.runs (.acquire .playbackEnd))
  /-- `send_audio_frame` has returned. -/
  | sent {frame : Bytes} {inner : Unit} {asked : Bool} :
      ReplyMove l r (.sendBytes frame inner) asked (.runs .leave) (.suspended .pacing asked) .away
  /-- `_on_tts_playback_end` has returned. -/
  | reported {i : Bool} {inner : Unit} {asked : Bool} :
      ReplyMove l r (.playbackEnd i inner) asked (.runs .leave) .done .away

/-- The label brings the transcript event to the task. -/
def Label.brings (me : Task) (ev : TranscriptEvent) (l : Label) : Prop :=
  l = .wake me (.ok (.transcript ev)) ∨ me = .stt ∧ l = .transcript ev

theorem Label.brings_twilio {l : Label} {ev : TranscriptEvent} (h : l.brings .twilio ev) :
    l = .wake .twilio (.ok (.transcript ev)) := by
  rcases h with h | ⟨h, -⟩
  · exact h
  · cases h

/-- A task goes from one place to another. -/
inductive Move (l : Label) (c : Core) (π : Task → Place) : Task → Place → Core → Place → Prop
  | edge {me : Task} {p q : Place} (h : Edge c.state me p q) : Move l c π me p c q
  | calls {me : Task} {p : Place} {sec : Section} (hp : p = sec.origin) (hsec : sec.first me = true)
      (hl : ∀ pcm, sec = .feed pcm → ∃ bytes, l = .feedMulaw bytes) : Move l c π me p c (.runs (.acquire sec))
  | turnStartedEnded {k : TurnManager.After} (hst : c.state = .ENDED) :
      Move l c π .stt (.runs (.enter (.turnStarted k)))
        { c with conversation := (TurnManager.resume k c.conversation).1 }
        (.runs (.turn (TurnManager.resume k c.conversation).2))
  | turnStarted {k : TurnManager.After} {ttsTask : Nat → Coroutine (Tts.Pc Unit)} (hst : c.state ≠ .ENDED)
      (hasks : Asks π c.ttsTask ttsTask) :
      Move l c π .stt (.runs (.enter (.turnStarted k)))
        { c with
          state := if c.state = .PROCESSING then c.state.apply .LISTENING else c.state
          llmTask := c.llmCancelled
          ttsTask
          conversation := (TurnManager.resume k c.conversation).1 }
        (.runs (.turn (TurnManager.resume k c.conversation).2))
  | turnRejected {turn : UserTurnCompleted} {k : Nat} (hst : c.state ≠ .LISTENING) :
      Move l c π .stt (.runs (.enter (.turnCompleted turn k))) (c.emit (.turnReturned k turn))
        (.runs (.turn .returned))
  | turnAccepted {turn : UserTurnCompleted} {history : List Llm.Entry} {k : Nat} (hst : c.state = .LISTENING) :
      Move l c π .stt (.runs (.enter (.turnCompleted turn k)))
        ({ c with state := .PROCESSING }.emit (.processing k c.llmCount c.ttsCount))
        (.runs (.acquire (.systemTurn turn history k)))
  | systemTurnEnded {turn : UserTurnCompleted} {history : List Llm.Entry} {k : Nat} (hst : c.state = .ENDED) :
      Move l c π .stt (.runs (.enter (.systemTurn turn history k))) c.begins
        (.runs (.ttsStop (.begin c.begun (.answer turn history k))))
  | bargesIn {me : Task} {k : Option TurnManager.After} {ttsTask : Nat → Coroutine (Tts.Pc Unit)}
      (hst : c.state.answering = true) (hasks : Asks π c.ttsTask ttsTask) :
      Move l c π me (.runs (.enter (.bargeIn k))) { c with llmTask := c.llmCancelled, ttsTask }
        (.runs (.ttsStop (.bargeIn k)))
  | bargeInDeclined {k : TurnManager.After} (hst : c.state.answering = false) :
      Move l c π .stt (.runs (.enter (.bargeIn (some k))))
        { c with conversation := (TurnManager.resume k c.conversation).1 }
        (.runs (.turn (TurnManager.resume k c.conversation).2))
  | recovers {me : Task} {n : Nat} {ttsTask : Nat → Coroutine (Tts.Pc Unit)} (hst : c.state ≠ .ENDED)
      (hasks : Asks π c.ttsTask ttsTask) :
      Move l c π me (.runs (.enter (.recovery n))) { c with llmTask := c.llmCancelled, ttsTask }
        (.runs (.ttsStop (.recovery n)))
  | speaks {g : Nat} {text : Text} (hst : c.state.answering = true) :
      Move l c π (.generation g) (.runs (.enter (.segment text))) { c with state := .SPEAKING } (.runs .leave)
  | playbackEnded {r : Nat} (hst : c.state ≠ .ENDED) :
      Move l c π (.reply r) (.runs (.enter .playbackEnd))
        { c with
          conversation := c.conversation.completeSystemTurn
          state := if c.state.answering then c.state.apply .LISTENING else c.state }
        (.runs .leave)
  | fed {pcm : Bytes} (hst : c.state ≠ .ENDED) :
      Move l c π .twilio (.runs (.enter (.feed pcm)))
        { c with
          state := if c.state = .CONNECTED ∨ c.state = .LISTENING then c.state.apply .STREAMING else c.state
          prompted := false
          pcmBuffer := (takeFrames (c.pcmBuffer ++ pcm)).2
          frames := c.frames ++ (takeFrames (c.pcmBuffer ++ pcm)).1 } .away
  | prompts {late : Bool} (hst : c.state = .LISTENING) (h : c.prompted = false) :
      Move l c π .silence (.runs (.enter (.silenceCheck true late))) c (.runs (.acquire .silencePrompt))
  | hangsUp (hst : c.state = .LISTENING) (h : c.prompted = true) :
      Move l c π .silence (.runs (.enter (.silenceCheck true true))) c (.awaits .hangup)
  | hungUp : Move l c π .silence (.awaits .hangup) c .away
  | marks (hst : c.state = .LISTENING) (h : c.prompted = false) :
      Move l c π .silence (.runs (.enter .silencePrompt)) { c with prompted := true } (.runs (.ttsStop .silencePrompt))
  | sendsMedia {r : Nat} (hst : c.state ≠ .ENDED) :
      Move l c π (.reply r) (.runs (.enter .frameSend)) (c.emit (.media (.reply r))) (.awaits .sendMedia)
  | ends {ttsTask : Nat → Coroutine (Tts.Pc Unit)} (hst : c.state ≠ .ENDED) (hasks : Asks π c.ttsTask ttsTask) :
      Move l c π .twilio (.runs (.enter .stop))
        { c.emit .ended with state := .ENDED, llmTask := c.llmCancelled, ttsTask } (.runs (.ttsStop .stop))
  | silent {me : Task} {k : StopFor} (h : c.active = none) :
      Move l c π me (.runs (.ttsStop k)) c (.runs (.stopped k))
  | cancelsReply {me : Task} {k : StopFor} {r : Nat} {hadAudio : Bool} {ttsTask : Nat → Coroutine (Tts.Pc Unit)}
      (h : c.active = some r) (hasks : Asks π (Function.update c.ttsTask r (c.ttsTask r).cancel) ttsTask) :
      Move l c π me (.runs (.ttsStop k)) { c with ttsTask } (.awaits (.gathering r hadAudio k))
  | gathered {me : Task} {k : StopFor} {r : Nat} {hadAudio : Bool} (h : (c.ttsTask r).isDone = true) :
      Move l c π me (.awaits (.gathering r hadAudio k)) c (.runs (.stopped k))
  | clears {me : Task} {k : StopFor} {r : Nat} {hadAudio : Bool} {c' : Core} (h : (c.ttsTask r).isDone = true)
      (hc' : c' = c ∨ c' = c.emit .clear) :
      Move l c π me (.awaits (.gathering r hadAudio k)) c' (.awaits (.clearing k))
  | systemTurnStarts {turn : UserTurnCompleted} {history : List Llm.Entry} {k : Nat} :
      Move l c π .stt (.runs (.stopped (.systemTurn turn history k)))
        { c with conversation := c.conversation.startSystemTurn }.begins
        (.runs (.ttsStop (.begin c.begun (.answer turn history k))))
  | bargedIn {n : Nat} :
      Move l c π (.vad n) (.runs (.stopped (.bargeIn none))) (c.closes.emit .bargedIn) (.runs .leave)
  | bargedInAfter {k : TurnManager.After} :
      Move l c π .stt (.runs (.stopped (.bargeIn (some k))))
        { c.closes.emit .bargedIn with conversation := (TurnManager.resume k c.closes.conversation).1 }
        (.runs (.turn (TurnManager.resume k c.closes.conversation).2))
  | recovered {me : Task} {n : Nat} :
      Move l c π me (.runs (.stopped (.recovery n)))
        { c.closes with state := if c.state.answering then c.closes.state else c.state }
        (.runs (.acquire (.fallback n)))
  | fallsBack {me : Task} {n : Nat} (hme : me.recovers = true) :
      Move l c π me (.runs (.stopped (.fallback n))) c.begins (.runs (.ttsStop (.begin c.begun (.fallback n))))
  | prompted :
      Move l c π .silence (.runs (.stopped .silencePrompt)) c.begins (.runs (.ttsStop (.begin c.begun .silencePrompt)))
  | answers {ticket : Nat} {turn : UserTurnCompleted} {history : List Llm.Entry} {k : Nat}
      {ttsTask : Nat → Coroutine (Tts.Pc Unit)} (hasks : Asks π (c.opens ticket).ttsTask ttsTask) :
      Move l c π .stt (.runs (.stopped (.begin ticket (.answer turn history k))))
        ({ (c.opens ticket).generates k (Text.strip turn.transcript) with ttsTask }.emit (.turnReturned k turn))
        (.runs (.turn .returned))
  | opensFallback {me : Task} {ticket n : Nat} :
      Move l c π me (.runs (.stopped (.begin ticket (.fallback n)))) ((c.opens ticket).emit (.fallback n))
        (.runs .leave)
  | opensPrompt {ticket : Nat} :
      Move l c π .silence (.runs (.stopped (.begin ticket .silencePrompt))) (c.opens ticket) (.runs .leave)
  | completes {me : Task} {turn : UserTurnCompleted} {k : TurnManager.After} :
      Move l c π me (.runs (.turn (.onUserTurnCompleted turn k))) { c with turns := c.turns + 1 }
        (.runs (.acquire (.turnCompleted turn c.turns)))
  | returns {me : Task} {c' : Core}
      (hc' : c.hearing me = none ∧ c' = c ∨
        ∃ ev begun, c.hearing me = some (ev, begun) ∧ c' = c.emit (.processed ev begun c.active)) :
      Move l c π me (.runs (.turn .returned)) c' (.runs .leave)
  | raises {me : Task} : Move l c π me (.runs (.turn .raised)) c.fails (.runs (.acquire (.recovery c.failures)))
  | reported {n : Nat} :
      Move l c π (.sttError n) (.awaits .created) c.fails (.runs (.acquire (.recovery c.failures)))
  | sendFails {r : Nat} :
      Move l c π (.reply r) (.awaits .sendMedia) c.fails (.runs (.acquire (.recovery c.failures)))
  | expires {g : Nat} {ttsTask : Nat → Coroutine (Tts.Pc Unit)} (hasks : Asks π c.ttsTask ttsTask) :
      Move l c π (.watchdog g) (.awaits .expiring) { c with llmTask := c.llmCancelled, ttsTask }.fails
        (.runs (.acquire (.recovery c.failures)))
  | hears {me : Task} {a : Await} {ev : TranscriptEvent} (hl : l.brings me ev)
      (ha : me = .stt ∧ (a = .engine ∨ a = .queueGet) ∨ me = .twilio ∧ a = .finalizing) :
      Move l c π me (.awaits a)
        { c with
          hearing := Function.update c.hearing me (some (ev, c.begun))
          conversation := (TurnManager.processTranscriptEvent ev c.conversation).1 }
        (.runs (.turn (TurnManager.processTranscriptEvent ev c.conversation).2))
  | generates {g : Nat} {p q : Place} {x : Coroutine (Llm.Pc Unit)}
      (hp : p = .away ∨ p = .runs .leave ∨ ∃ a, p = .awaits a ∧ (c.llmTask g).asked = true)
      (hq : q = .away ∨ ∃ text, q = .runs (.acquire (.segment text))) :
      Move l c π (.generation g) p { c with llmTask := Function.update c.llmTask g x } q
  | generationFails {g : Nat} {x : Coroutine (Llm.Pc Unit)} (hx : x.asked = false) :
      Move l c π (.generation g) .away { c with llmTask := Function.update c.llmTask g x }.fails
        (.runs (.acquire (.recovery c.failures)))
  | reply {r : Nat} {p q : Place} {pc : Tts.Pc Unit} {asked : Bool} {x : Coroutine (Tts.Pc Unit)}
      (hpc : c.ttsTask r = .suspended pc asked) (h : ReplyMove l r pc asked p x q) :
      Move l c π (.reply r) p { c with ttsTask := Function.update c.ttsTask r x } q
  /-- The recogniser's loop takes a frame, or the marker of its end. -/
  | dequeues {p : Place} {frame : Bytes} {queue : List (Option Bytes)} (hp : p.plain = true) (hstart : p ≠ .away)
      (hqueue : c.queue = some frame :: queue) : Move l c π .stt p { c with queue } (.awaits .engine)
  | endsLoop {p : Place} {queue : List (Option Bytes)} (hp : p.plain = true) (hqueue : c.queue = none :: queue) :
      Move l c π .stt p { c with queue } .away
  /-- `stop` puts the marker. -/
  | marksEnd {p : Place} (hp : p.plain = true) (hstart : p ≠ .away) :
      Move l c π .twilio p { c with queue := c.queue ++ [none] } (.awaits .loopEnding)
  | loopOver {a : Await} (ha : a = .loopEnding ∨ a = .loopCancelled) (h : π .stt = .away) :
      Move l c π .twilio (.awaits a) c (.awaits .consumerClosing)
  /-- A `CancelledError` leaves the session's code. -/
  | unwinds {me : Task} {a : Await} (h : c.asked me = true) :
      Move l c π me (.awaits a) { c with asked := Function.update c.asked me false } .away
  /-- `stop` asks the recogniser's loop or the silence loop to cancel. -/
  | asks {u : Task} {a b : Await} {ttsTask : Nat → Coroutine (Tts.Pc Unit)} (hu : u = .stt ∨ u = .silence)
      (ha : a.plain = true) (hb : b.plain = true)
      (hstop : (Place.awaits b).torn = true → (Place.awaits a).torn = true) (hasks : Asks π c.ttsTask ttsTask) :
      Move l c π .twilio (.awaits a) { c with asked := Function.update c.asked u true, ttsTask } (.awaits b)
  /-- The end of `stop`, without a silence loop and with one. -/
  | tearsDown : Move l c π .twilio (.awaits .engineClosing) { c with pcmBuffer := [] } .away
  | tearsDownLoop {ttsTask : Nat → Coroutine (Tts.Pc Unit)} (hasks : Asks π c.ttsTask ttsTask) :
      Move l c π .twilio (.awaits .engineClosing)
        { c with pcmBuffer := [], asked := Function.update c.asked .silence true, ttsTask } (.awaits .silenceEnding)

/-! ## Every step is a move -/

/-- The task is one that the session creates for a call into it. -/
def Task.spawned : Task → Bool
  | .vad _ | .sttError _ | .watchdog _ => true
  | _ => false

/-- A task that does not run stays where it is, or is created. -/
def Stays (u : Task) (p q : Place) : Prop := q = p ∨ u.spawned = true ∧ p = .away ∧ q = .awaits .created

/-- The running task goes from `p` to its next place. -/
def Moved (l : Label) (c : Core) (π : Task → Place) (me : Task) (p : Place) (t : Session) : Prop :=
  ∃ q, Move l c π me p t.core q ∧ t.place me = q ∧
    ∀ u, u ≠ me → Stays u (π u) (t.place u)

/-- While `me` runs, the other tasks are where they were, but for those that it creates. -/
structure Sits (me : Task) (π : Task → Place) (s : Session) : Prop where
  idle : s.pc me = none
  others : ∀ u, u ≠ me → Stays u (π u) (s.rest u)

section Moves

variable {cfg : Config} {l : Label} {c : Core} {π : Task → Place} {me : Task} {p : Place} {s t : Session}

theorem Sits.congr (h : Sits me π s) (hpc : t.pc = s.pc) : Sits me π t where
  idle := by rw [hpc]; exact h.idle
  others u hu := by
    unfold Session.rest
    rw [hpc]
    exact h.others u hu

theorem Moved.goto {x : Point} (h : Move l c π me p s.core (.runs x)) (hs : Sits me π s) :
    Moved l c π me p (s.goto me x) := by
  refine ⟨_, h, by simp [Session.place], fun u hu => ?_⟩
  have hrest : (s.goto me x).place u = s.rest u := by simp [Session.place, Session.rest, hu]
  rw [hrest]
  exact hs.others u hu

theorem Moved.suspend {a : Await} (h : Move l c π me p s.core (.awaits a)) (hs : Sits me π s) :
    Moved l c π me p (s.suspend me a) := by
  refine ⟨_, h, by simp [Session.place, Session.rest], fun u hu => ?_⟩
  have hrest : (s.suspend me a).place u = s.rest u := by
    simp [Session.place, Session.rest, Function.update_of_ne hu]
  rw [hrest]
  exact hs.others u hu

theorem Moved.finish (h : Move l c π me p s.core .away) (hs : Sits me π s) : Moved l c π me p s.finish :=
  ⟨_, h, by simp [Session.place, Session.rest, hs.idle], fun u hu => hs.others u hu⟩

theorem asks_cancelAwaited (h : Sits me π s) (u : Task) : Asks π s.tts.task (s.cancelAwaited u).task := by
  intro r
  unfold Session.cancelAwaited
  split
  · rename_i r' hadAudio k hpc
    by_cases hr : r = r'
    · subst hr
      have hne : u ≠ me := by
        rintro rfl
        rw [h.idle] at hpc
        cases hpc
      refine Or.inr ⟨⟨u, hadAudio, k, ?_⟩, by simp [Tts.Consumer.cancel]⟩
      have hrest : s.rest u = .awaits (.gathering r hadAudio k) := by simp [Session.rest, hpc]
      rcases h.others u hne with heq | ⟨-, -, heq⟩
      · rw [← heq, hrest]
      · rw [hrest] at heq
        cases heq
    · exact Or.inl (by simp [Tts.Consumer.cancel, Function.update_of_ne hr])
  · exact Or.inl rfl

theorem asks_cancelGeneration (h : Sits me π s) : Asks π s.tts.task s.cancelGeneration.tts.task := by
  rw [Session.cancelGeneration_tts]
  cases s.llm.active with
  | none => exact fun r => Or.inl rfl
  | some g => exact asks_cancelAwaited h _

theorem cancelAwaited_current (u : Task) : (s.cancelAwaited u).current = s.tts.current := by
  unfold Session.cancelAwaited
  split <;> rfl

theorem core_cancelGeneration : s.cancelGeneration.core =
    { s.core with llmTask := s.core.llmCancelled, ttsTask := s.cancelGeneration.tts.task } := by
  have htts : s.cancelGeneration.tts.current = s.tts.current := by
    rw [Session.cancelGeneration_tts]
    cases s.llm.active with
    | none => rfl
    | some g => exact cancelAwaited_current _
  ext1 <;> try rfl
  · simp
  · simp
  · funext g
    simp [Llm.Consumer.cancel_task, Core.llmCancelled]
  · exact htts
  · exact cancelGeneration_tts_count

theorem Moved.of_eq {c' : Core} {q : Place} (h : Move l c π me p c' q) (hcore : s.core = c') :
    Move l c π me p s.core q := hcore ▸ h

theorem moved_acquire {sec : Section} (hs : Sits me π s) (hfits : s.lock.free s.cancelling = true → sec.fits me = true) :
    Moved l s.core π me (.runs (.acquire sec)) (s.acquire me sec) := by
  unfold Session.acquire
  split
  · rename_i hfree
    exact Moved.goto (s := { s with lock := s.lock.hold me }) (.edge (.acquires (hfits hfree))) (hs.congr rfl)
  · exact Moved.suspend (s := { s with lock := s.lock.wait me }) (.edge .waits) (hs.congr rfl)

/-- The section does nothing, and the task goes on or ends. -/
theorem moved_declined {sec : Section} (hs : Sits me π s) (hst : sec.declines s.state = true) :
    Moved l s.core π me (.runs (.enter sec)) (s.release.goto me .leave) :=
  Moved.goto (s := s.release) (.edge (.declined hst (Or.inl rfl))) (hs.congr rfl)

theorem moved_declined_finish {sec : Section} (hs : Sits me π s) (hst : sec.declines s.state = true) :
    Moved l s.core π me (.runs (.enter sec)) s.release.finish :=
  Moved.finish (s := s.release) (.edge (.declined hst (Or.inr rfl))) (hs.congr rfl)

theorem moved_turnStarted (hs : Sits .stt π s) (k : TurnManager.After) :
    Moved l s.core π .stt (.runs (.enter (.turnStarted k))) (s.turnStarted .stt k) := by
  unfold Session.turnStarted
  split
  · rename_i hended
    have hmove := Move.turnStartedEnded (l := l) (c := s.core) (π := π) (k := k) hended
    exact Moved.goto (s := { s.release with conversation := (TurnManager.resume k s.conversation).1 }) hmove (hs.congr rfl)
  · rename_i hended
    have hmove := Move.turnStarted (l := l) (c := s.core) (k := k) hended (asks_cancelGeneration hs)
    dsimp only
    split
    · rename_i hprocessing
      have hbefore : s.state = .PROCESSING := hprocessing
      refine Moved.goto (s := { (s.cancelGeneration.applyTransition .LISTENING).release with
        conversation := (TurnManager.resume k s.conversation).1 }) ?_ (hs.congr rfl)
      refine Moved.of_eq hmove ?_
      rw [show Session.core { (s.cancelGeneration.applyTransition .LISTENING).release with
          conversation := (TurnManager.resume k s.conversation).1 } =
        { s.cancelGeneration.core with
          state := s.state.apply .LISTENING, conversation := (TurnManager.resume k s.conversation).1 } from rfl,
        core_cancelGeneration]
      simp [hbefore]
    · rename_i hprocessing
      have hbefore : s.state ≠ .PROCESSING := hprocessing
      refine Moved.goto (s := { s.cancelGeneration.release with
        conversation := (TurnManager.resume k s.conversation).1 }) ?_ (hs.congr rfl)
      refine Moved.of_eq hmove ?_
      rw [show Session.core { s.cancelGeneration.release with
          conversation := (TurnManager.resume k s.conversation).1 } =
        { s.cancelGeneration.core with conversation := (TurnManager.resume k s.conversation).1 } from rfl,
        core_cancelGeneration]
      simp [hbefore]

theorem moved_turnCompleted (hs : Sits .stt π s) (turn : UserTurnCompleted) (k : Nat) :
    Moved l s.core π .stt (.runs (.enter (.turnCompleted turn k))) (s.turnCompleted cfg .stt turn k) := by
  unfold Session.turnCompleted
  split
  · rename_i hlistening
    exact Moved.goto (s := s.release.emit (.turnReturned k turn)) (.turnRejected hlistening) (hs.congr rfl)
  · rename_i hlistening
    have hbefore : s.state = .LISTENING := by simpa using hlistening
    refine Moved.goto (s := ((s.applyTransition .PROCESSING).emit
      (.processing k s.llm.count s.tts.count)).release.remember cfg .user (Text.strip turn.transcript)) ?_ (hs.congr rfl)
    refine Moved.of_eq (.turnAccepted hbefore) ?_
    have happly : s.state.apply .PROCESSING = .PROCESSING := by rw [hbefore]; rfl
    show { s.core with state := s.state.apply .PROCESSING }.emit _ = _
    rw [happly]
    rfl

theorem moved_segment {g : Nat} (hs : Sits (.generation g) π s) (text : Text) :
    Moved l s.core π (.generation g) (.runs (.enter (.segment text))) (s.onLlmSegment (.generation g) text) := by
  unfold Session.onLlmSegment
  split
  · rename_i hst
    exact moved_declined hs (by simpa [Section.declines] using hst)
  · rename_i hst
    have hanswering : s.state.answering = true := by simpa using hst
    dsimp only
    have hspeaking : (if s.state = .PROCESSING then s.applyTransition .SPEAKING else s).core =
        { s.core with state := .SPEAKING } := by
      split
      · rename_i hprocessing
        show { s.core with state := s.state.apply .SPEAKING } = _
        rw [hprocessing]
        rfl
      · rename_i hprocessing
        have hstate : s.state = .SPEAKING := by simpa [State.answering, hprocessing] using hanswering
        rw [← hstate]
        rfl
    have hpc : (if s.state = .PROCESSING then s.applyTransition .SPEAKING else s).pc = s.pc := by
      split <;> rfl
    generalize (if s.state = .PROCESSING then s.applyTransition .SPEAKING else s) = s' at hspeaking hpc ⊢
    obtain ⟨hcurrent, hcount, htask, -⟩ := Tts.Consumer.speak_snd s'.tts text
    refine Moved.goto (s := { s'.release with tts := (s'.tts.speak text).2 })
      (Moved.of_eq (.speaks hanswering) ?_) (hs.congr hpc)
    rw [← hspeaking]
    ext1 <;> first | rfl | exact hcurrent | exact hcount | exact htask

theorem moved_playbackEnd {r : Nat} (hs : Sits (.reply r) π s) :
    Moved l s.core π (.reply r) (.runs (.enter .playbackEnd)) (s.onTtsPlaybackEnd (.reply r)) := by
  unfold Session.onTtsPlaybackEnd
  split
  · rename_i hended
    exact moved_declined hs (by simpa [Section.declines] using hended)
  · rename_i hended
    have hmove := Move.playbackEnded (l := l) (c := s.core) (π := π) (r := r) hended
    dsimp only
    split
    · rename_i hanswering
      refine Moved.goto (s := ({ s with conversation := s.conversation.completeSystemTurn }.applyTransition
        .LISTENING).release) (Moved.of_eq hmove ?_) (hs.congr rfl)
      have hbefore : s.state.answering = true := hanswering
      ext1 <;> first | rfl | simp [hbefore]
    · rename_i hanswering
      refine Moved.goto (s := { s with conversation := s.conversation.completeSystemTurn }.release)
        (Moved.of_eq hmove ?_) (hs.congr rfl)
      have hbefore : ¬ s.state.answering = true := hanswering
      ext1 <;> first | rfl | simp [hbefore]

theorem moved_feed (hs : Sits .twilio π s) (hmade : ∀ n, s.vads ≤ n → π (.vad n) = .away) (pcm : Bytes) :
    Moved l s.core π .twilio (.runs (.enter (.feed pcm))) (s.feedMulaw pcm) := by
  unfold Session.feedMulaw
  split
  · rename_i hended
    exact moved_declined_finish hs (by simpa [Section.declines] using hended)
  · rename_i hended
    have hstreaming : (if s.state = .CONNECTED ∨ s.state = .LISTENING then s.applyTransition .STREAMING else s).core =
        { s.core with state := if s.state = .CONNECTED ∨ s.state = .LISTENING then s.state.apply .STREAMING else s.state } := by
      split <;> rfl
    have hkeep : (if s.state = .CONNECTED ∨ s.state = .LISTENING then s.applyTransition .STREAMING else s).pc = s.pc ∧
        (if s.state = .CONNECTED ∨ s.state = .LISTENING then s.applyTransition .STREAMING else s).vads = s.vads := by
      split <;> exact ⟨rfl, rfl⟩
    dsimp only
    generalize (if s.state = .CONNECTED ∨ s.state = .LISTENING then s.applyTransition .STREAMING else s) = s'
      at hstreaming hkeep ⊢
    obtain ⟨hpc, hvads⟩ := hkeep
    refine Moved.finish (Moved.of_eq (.fed hended) ?_) ⟨?_, fun u hu => ?_⟩
    · have hbuffer : s'.pcmBuffer = s.pcmBuffer := congrArg Core.pcmBuffer hstreaming
      have hframes : s'.frames = s.frames := congrArg Core.frames hstreaming
      rw [hbuffer, hframes]
      exact congrArg (fun c : Core => { c with
        prompted := false
        pcmBuffer := (takeFrames (s.pcmBuffer ++ pcm)).2
        frames := s.frames ++ (takeFrames (s.pcmBuffer ++ pcm)).1 }) hstreaming
    · show s'.pc .twilio = none
      rw [hpc]
      exact hs.idle
    · have hbefore := hs.others u hu
      unfold Session.rest at hbefore ⊢
      rw [← hpc] at hbefore
      cases u with
      | vad n =>
          simp only [Session.release]
          split
          · rename_i hn
            exact Or.inr ⟨rfl, hmade n (by omega), rfl⟩
          · exact hbefore
      | _ => exact hbefore

theorem moved_silenceChecked (hs : Sits .silence π s) (quiet late : Bool) :
    Moved l s.core π .silence (.runs (.enter (.silenceCheck quiet late))) (s.silenceChecked .silence quiet late) := by
  unfold Session.silenceChecked
  split_ifs with hended hquiet hprompted hlate
  · exact moved_declined_finish hs rfl
  · exact moved_declined hs rfl
  · obtain ⟨hlistening, rfl⟩ : s.state = .LISTENING ∧ quiet = true := by simpa using hquiet
    exact Moved.goto (s := s.release) (.prompts hlistening hprompted) (hs.congr rfl)
  · obtain ⟨hlistening, rfl⟩ : s.state = .LISTENING ∧ quiet = true := by simpa using hquiet
    subst hlate
    exact Moved.suspend (s := s.release) (.hangsUp hlistening (by simpa using hprompted)) (hs.congr rfl)
  · exact moved_declined hs rfl

/-- The section cancels the current generation and stops the reply. -/
theorem moved_cancels {k : StopFor} {s' : Session} {sec : Section} (hs : Sits me π s) (hpc : s'.pc = s.pc)
    (hllm : s'.llm = s.llm) (htts : s'.tts = s.tts)
    (hmove : ∀ ttsTask, Asks π s.tts.task ttsTask → Move l s.core π me (.runs (.enter sec))
      { s'.core with llmTask := s.core.llmCancelled, ttsTask } (.runs (.ttsStop k))) :
    Moved l s.core π me (.runs (.enter sec)) (s'.cancelGeneration.goto me (.ttsStop k)) := by
  have hs' : Sits me π s' := hs.congr hpc
  refine Moved.goto (Moved.of_eq (hmove _ (htts ▸ asks_cancelGeneration hs')) ?_) (hs'.congr rfl)
  have hcancelled : s'.core.llmCancelled = s.core.llmCancelled := by
    funext g
    show (if s'.llm.current = some g then (s'.llm.task g).cancel else s'.llm.task g) = _
    rw [hllm]
    rfl
  rw [core_cancelGeneration, hcancelled]

theorem moved_enter {sec : Section} (hs : Sits me π s) (hfits : sec.fits me = true)
    (hmade : ∀ n, s.vads ≤ n → π (.vad n) = .away) :
    Moved l s.core π me (.runs (.enter sec)) (s.enter cfg me sec) := by
  cases sec with
  | turnStarted k =>
      obtain rfl : me = .stt := by cases me <;> first | rfl | cases hfits
      exact moved_turnStarted hs k
  | turnCompleted turn k =>
      obtain rfl : me = .stt := by cases me <;> first | rfl | cases hfits
      exact moved_turnCompleted hs turn k
  | systemTurn turn history k =>
      obtain rfl : me = .stt := by cases me <;> first | rfl | cases hfits
      simp only [Session.enter]
      split
      · rename_i hended
        exact Moved.goto (c := s.core) (s := { s.release with begun := s.begun + 1 }.emit (.begin s.begun))
          (.systemTurnEnded hended) (hs.congr rfl)
      · rename_i hended
        exact Moved.goto (s := s) (.edge (.stops (by simp [Section.stops, hended]))) hs
  | bargeIn k =>
      simp only [Session.enter]
      split
      · rename_i hanswering
        exact moved_cancels hs rfl rfl rfl (fun ttsTask hasks => Move.bargesIn hanswering hasks)
      · rename_i hanswering
        have hnot : s.state.answering = false := by simpa using hanswering
        cases k with
        | none => exact moved_declined hs (by simp [Section.declines, hnot])
        | some k =>
            obtain rfl : me = .stt := by cases me <;> first | rfl | cases hfits
            exact Moved.goto (s := { s.release with conversation := (TurnManager.resume k s.conversation).1 })
              (.bargeInDeclined hnot) (hs.congr rfl)
  | recovery n =>
      simp only [Session.enter]
      split
      · rename_i hended
        exact moved_declined hs (by simpa [Section.declines] using hended)
      · rename_i hended
        exact moved_cancels hs rfl rfl rfl (fun ttsTask hasks => Move.recovers hended hasks)
  | fallback n =>
      simp only [Session.enter]
      split
      · rename_i hended
        exact moved_declined hs (by simpa [Section.declines] using hended)
      · rename_i hended
        exact Moved.goto (s := s) (.edge (.stops (by simp [Section.stops, hended]))) hs
  | segment text => cases me <;> first | exact moved_segment hs text | cases hfits
  | playbackEnd => cases me <;> first | exact moved_playbackEnd hs | cases hfits
  | feed pcm =>
      obtain rfl : me = .twilio := by cases me <;> first | rfl | cases hfits
      exact moved_feed hs hmade pcm
  | frameCheck frame =>
      simp only [Session.enter]
      split
      · exact moved_declined hs rfl
      · exact Moved.goto (s := s.release) (.edge .converted) (hs.congr rfl)
  | frameSend =>
      obtain ⟨r, rfl⟩ : ∃ r, me = .reply r := by cases me <;> first | exact ⟨_, rfl⟩ | cases hfits
      simp only [Session.enter]
      split
      · exact moved_declined hs rfl
      · rename_i hsend
        have hended : s.state ≠ .ENDED := fun heq => hsend (Or.inr (Or.inl heq))
        exact Moved.suspend (s := s.release.emit (.media (.reply r))) (.sendsMedia hended) (hs.congr rfl)
  | silenceCheck quiet late =>
      obtain rfl : me = .silence := by cases me <;> first | rfl | cases hfits
      exact moved_silenceChecked hs quiet late
  | silencePrompt =>
      simp only [Session.enter]
      split
      · exact moved_declined hs rfl
      · rename_i hprompt
        obtain ⟨hlistening, hprompted⟩ : s.state = .LISTENING ∧ s.prompted = false := by simpa using hprompt
        obtain rfl : me = .silence := by cases me <;> first | rfl | cases hfits
        exact Moved.goto (s := { s with prompted := true }) (.marks hlistening hprompted) (hs.congr rfl)
  | stop =>
      obtain rfl : me = .twilio := by cases me <;> first | rfl | cases hfits
      simp only [Session.enter]
      split
      · rename_i hended
        exact moved_declined_finish hs (by simpa [Section.declines] using hended)
      · rename_i hended
        refine moved_cancels hs rfl rfl rfl (fun ttsTask hasks => ?_)
        have happly : s.state.apply .ENDED = .ENDED := by
          cases hst : s.state <;> rfl
        have hmove := Move.ends (l := l) (c := s.core) (π := π) hended hasks
        show Move l s.core π .twilio _ { s.core.emit .ended with
          state := s.state.apply .ENDED, llmTask := s.core.llmCancelled, ttsTask } _
        rw [happly]
        exact hmove

theorem moved_ttsStop {k : StopFor} (hs : Sits me π s) :
    Moved l s.core π me (.runs (.ttsStop k)) (s.ttsStop me k) := by
  unfold Session.ttsStop
  split
  · rename_i hnone
    exact Moved.goto (.silent hnone) hs
  · rename_i r hactive
    have hbefore : s.core.active = some r := hactive
    have hs' : Sits me π { s with tts := s.tts.cancel r } := hs.congr rfl
    have hasks := asks_cancelAwaited hs' (.reply r)
    have hcurrent := cancelAwaited_current (s := { s with tts := s.tts.cancel r }) (.reply r)
    have hcount := cancelAwaited_count (s := { s with tts := s.tts.cancel r }) (.reply r)
    refine Moved.suspend (s := { s with tts := { s with tts := s.tts.cancel r }.cancelAwaited (.reply r) })
      (Moved.of_eq (.cancelsReply hbefore hasks) ?_) (hs.congr rfl)
    ext1 <;> first | rfl | exact hcurrent | exact hcount

theorem core_opens (ticket : Nat) (utteranceId : Text) : (s.opens ticket utteranceId).core = s.core.opens ticket := rfl

theorem core_startGeneration (turn : UserTurnCompleted) (history : List Llm.Entry) (k : Nat) :
    (s.startGeneration turn history k).core =
      { s.core.generates k (Text.strip turn.transcript) with ttsTask := s.cancelGeneration.tts.task } := by
  have hcore := core_cancelGeneration (s := s)
  have hcurrent : s.cancelGeneration.tts.current = s.tts.current := congrArg Core.ttsCurrent hcore
  have hcount : s.cancelGeneration.tts.count = s.tts.count := congrArg Core.ttsCount hcore
  ext1 <;> try rfl
  · show some s.llm.cancel.count = some s.llm.count
    rw [Llm.Consumer.cancel_count]
  · exact startGeneration_count turn history k
  · funext g
    show (s.startGeneration turn history k).llm.task g =
      Function.update s.core.llmCancelled s.llm.count (.await .created) g
    rw [startGeneration_task]
    by_cases hg : g = s.llm.count
    · simp [hg]
    · simp [hg, Llm.Consumer.cancel_task, Core.llmCancelled]
  · exact hcurrent
  · exact hcount

theorem core_speakAll (text : Text) : (s.speakAll text).core = s.core := by
  obtain ⟨hcurrent, hcount, htask, -⟩ := Tts.Consumer.speak_snd s.tts text
  obtain ⟨hcurrent', hcount', htask', -⟩ := Tts.Consumer.finish_snd (s.tts.speak text).2
  ext1 <;> try rfl
  · exact hcurrent'.trans hcurrent
  · exact hcount'.trans hcount
  · exact htask'.trans htask

theorem moved_stopped {k : StopFor} (hs : Sits me π s) (hfits : k.fits me = true)
    (hmade : π (.watchdog s.llm.count) = .away) : Moved l s.core π me (.runs (.stopped k)) (s.stopped me k) := by
  cases k with
  | systemTurn turn history k =>
      obtain rfl : me = .stt := by cases me <;> first | rfl | cases hfits
      exact Moved.goto (c := s.core) (s := { { s with conversation := s.conversation.startSystemTurn }.release with
        begun := s.begun + 1 }.emit (.begin s.begun)) .systemTurnStarts (hs.congr rfl)
  | bargeIn k =>
      simp only [Session.stopped, Session.bargeInReturned]
      cases k with
      | none =>
          obtain ⟨n, rfl⟩ : ∃ n, me = .vad n := by cases me <;> first | exact ⟨_, rfl⟩ | cases hfits
          have hmove := Move.bargedIn (l := l) (c := s.core) (π := π) (n := n)
          exact Moved.goto (s := ({ s.closeTurns.listenAgain with muted := false }.emit .bargedIn).release)
            hmove (hs.congr rfl)
      | some k =>
          obtain rfl : me = .stt := by cases me <;> first | rfl | cases hfits
          have hmove := Move.bargedInAfter (l := l) (c := s.core) (π := π) (k := k)
          exact Moved.goto (s := { ({ s.closeTurns.listenAgain with muted := false }.emit .bargedIn).release with
            conversation := (TurnManager.resume k s.closeTurns.conversation).1 }) hmove (hs.congr rfl)
  | recovery n =>
      simp only [Session.stopped]
      refine Moved.goto (s := (if s.state.answering then s.listenAgain else s).closeTurns.release)
        (Moved.of_eq .recovered ?_) (hs.congr ?_)
      · split
        · rename_i hanswering
          ext1 <;> first | rfl | simp [hanswering]
        · rename_i hanswering
          ext1 <;> first | rfl | simp [hanswering]
      · split <;> rfl
  | fallback n =>
      exact Moved.goto (c := s.core) (s := { s.release with begun := s.begun + 1 }.emit (.begin s.begun))
        (.fallsBack hfits) (hs.congr rfl)
  | silencePrompt =>
      obtain rfl : me = .silence := by cases me <;> first | rfl | cases hfits
      have hmove := Move.prompted (l := l) (c := s.core) (π := π)
      exact Moved.goto (s := { s.release with begun := s.begun + 1 }.emit (.begin s.begun)) hmove (hs.congr rfl)
  | stop => exact Moved.suspend (s := { s with listening := false }) (.edge .tearsDown) (hs.congr rfl)
  | begin ticket opening =>
      cases opening with
      | answer turn history k =>
          obtain rfl : me = .stt := by cases me <;> first | rfl | cases hfits
          have hs' : Sits .stt π (s.opens ticket turn.utteranceId) := hs.congr rfl
          refine Moved.goto (s := ((s.opens ticket turn.utteranceId).startGeneration turn history k).emit
            (.turnReturned k turn)) (Moved.of_eq (.answers (asks_cancelGeneration hs')) ?_) ⟨?_, fun u hu => ?_⟩
          · show (((s.opens ticket turn.utteranceId).startGeneration turn history k).core).emit _ = _
            rw [core_startGeneration, core_opens]
          · have hne : Task.stt ≠ .watchdog s.llm.count := by simp
            exact (Function.update_of_ne hne (some Await.created) s.pc).trans hs.idle
          · by_cases hwatchdog : u = .watchdog s.llm.count
            · subst hwatchdog
              exact Or.inr ⟨rfl, hmade, by simp [Session.rest, Session.startGeneration]⟩
            · have hpc : (((s.opens ticket turn.utteranceId).startGeneration turn history k).emit
                  (.turnReturned k turn)).pc u = s.pc u := Function.update_of_ne hwatchdog _ _
              unfold Session.rest
              rw [hpc]
              exact hs.others u hu
      | fallback n =>
          refine Moved.goto (s := ((s.opens ticket "fallback".toList).speakAll fallbackMessage).emit (.fallback n))
            (Moved.of_eq .opensFallback ?_) (hs.congr rfl)
          show ((s.opens ticket "fallback".toList).speakAll fallbackMessage).core.emit _ = _
          rw [core_speakAll, core_opens]
      | silencePrompt =>
          obtain rfl : me = .silence := by cases me <;> first | rfl | cases hfits
          refine Moved.goto (s := (s.opens ticket "silence-prompt".toList).speakAll silencePromptMessage)
            (Moved.of_eq .opensPrompt ?_) (hs.congr rfl)
          rw [core_speakAll, core_opens]

theorem moved_callback {next : TurnManager.Next} (hs : Sits me π s) :
    Moved l s.core π me (.runs (.turn next)) (s.callback me next) := by
  cases next with
  | onUserInterrupted k => exact Moved.goto (.edge .interrupts) hs
  | onUserTurnStarted utteranceId k => exact Moved.goto (.edge .starts) hs
  | onUserTurnCompleted turn k =>
      exact Moved.goto (c := s.core) (s := { s with turns := s.turns + 1 }) .completes (hs.congr rfl)
  | returned =>
      simp only [Session.callback, Session.processed]
      split
      · rename_i ev begun hhearing
        exact Moved.goto (c := s.core) (s := s.emit (.processed ev begun s.tts.active))
          (.returns (Or.inr ⟨ev, begun, hhearing, rfl⟩)) (hs.congr rfl)
      · rename_i hhearing
        exact Moved.goto (.returns (Or.inl ⟨hhearing, rfl⟩)) hs
  | raised =>
      exact Moved.goto (c := s.core) (s := { s with failures := s.failures + 1 }.emit (.failure s.failures)) .raises
        (hs.congr rfl)

/-- The running task stays among the places nothing depends on. -/
theorem moved_plain_suspend {a : Await} (hs : Sits me π s) (hcore : s.core = c) (hp : p.plain = true) (ha : a.plain = true)
    (hengine : a ≠ .engine) (hstart : p ≠ .away)
    (hstop : me = .twilio → (Place.awaits a).torn = true → p.torn = true) : Moved l c π me p (s.suspend me a) := by
  subst hcore
  exact Moved.suspend (.edge (.plain hp ha (fun heq => absurd heq hstart) (by simpa using hengine) hstop)) hs

theorem moved_plain_finish (hs : Sits me π s) (hcore : s.core = c) (hp : p.plain = true)
    (hstop : me = .twilio → p.torn = true) : Moved l c π me p s.finish := by
  subst hcore
  exact Moved.finish (.edge (.plain hp rfl (fun _ => rfl) (by simp) (fun hme _ => hstop hme))) hs

theorem moved_nextFrame (hs : Sits .stt π s) (hcore : s.core = c) (hp : p.plain = true) (hstart : p ≠ .away) :
    Moved l c π .stt p s.nextFrame := by
  subst hcore
  unfold Session.nextFrame
  split
  · exact moved_plain_suspend hs rfl hp rfl (by simp) hstart (by simp)
  · next queue hqueue => exact Moved.finish (c := s.core) (s := { s with queue }) (.endsLoop hp hqueue) (hs.congr rfl)
  · next frame queue hqueue =>
      exact Moved.suspend (c := s.core) (s := { s with queue }) (.dequeues hp hstart hqueue) (hs.congr rfl)

theorem moved_processLoop (hs : Sits .stt π s) (hcore : s.core = c) (hp : p.plain = true) (hstart : p ≠ .away) :
    Moved l c π .stt p s.processLoop := by
  unfold Session.processLoop
  split
  · exact moved_nextFrame hs hcore hp hstart
  · exact moved_plain_finish hs hcore hp (by simp)

theorem moved_finalized (hs : Sits .twilio π s) (hcore : s.core = c) (hp : p.plain = true) (hstart : p ≠ .away) :
    Moved l c π .twilio p s.finalized := by
  subst hcore
  unfold Session.finalized
  split
  · exact Moved.suspend (c := s.core) (s := { s with queue := s.queue ++ [none] }) (.marksEnd hp hstart) (hs.congr rfl)
  · exact moved_plain_suspend hs rfl hp rfl (by simp) hstart (fun _ h => by cases h)

/-! ### A generation in its own code -/

theorem moved_onComplete {g : Nat} {x : Coroutine (Llm.Pc Unit)} {outcome : Llm.Outcome}
    (hs : Sits (.generation g) π s) (hcore : s.core = { c with llmTask := Function.update c.llmTask g x })
    (hp : p = .away ∨ p = .runs .leave ∨ ∃ a, p = .awaits a ∧ (c.llmTask g).asked = true)
    (hfailed : outcome = .failed → p = .away ∧ x.asked = false) :
    Moved l c π (.generation g) p (s.onComplete cfg g outcome) := by
  have hremember : ∃ s' : Session, (if Text.strip (s.llm.gen g).text ≠ [] then
        { s with firstToken := Function.update s.firstToken g true }.remember cfg .assistant
          (Text.strip (s.llm.gen g).text)
      else { s with firstToken := Function.update s.firstToken g true }) = s' ∧ s'.core = s.core ∧ s'.pc = s.pc := by
    split <;> exact ⟨_, rfl, rfl, rfl⟩
  obtain ⟨s', heq, hcore', hpc⟩ := hremember
  unfold Session.onComplete
  dsimp only
  rw [heq]
  have hs' : Sits (.generation g) π s' := hs.congr hpc
  have hend {t : Session} (ht : t.core = s'.core) (htpc : t.pc = s'.pc) :
      Moved l c π (.generation g) p { t with llm := t.llm.finish g, running := none } := by
    refine Moved.finish (s := { t with llm := t.llm.finish g })
      (Moved.of_eq (Move.generates (x := .done) hp (Or.inl rfl)) ?_) (hs'.congr htpc)
    have htask : t.core = { c with llmTask := Function.update c.llmTask g x } := ht.trans (hcore'.trans hcore)
    show { t.core with llmTask := Function.update t.core.llmTask g .done } = _
    rw [htask]
    simp
  cases outcome with
  | completed =>
      obtain ⟨hcurrent, hcount, htask, -⟩ := Tts.Consumer.finish_snd s'.tts
      have hfinish : ({ s' with tts := s'.tts.finish.2 } : Session).core = s'.core := by
        ext1 <;> first | rfl | exact hcurrent | exact hcount | exact htask
      exact hend (t := { s' with tts := s'.tts.finish.2 }) hfinish rfl
  | cancelled => exact hend (t := s') rfl rfl
  | failed =>
      obtain ⟨rfl, hx⟩ := hfailed rfl
      have hmove := Move.generationFails (l := l) (c := c) (π := π) (g := g) hx
      have hcore'' := hcore'.trans hcore
      refine Moved.goto (s := { s' with failures := s'.failures + 1 }.emit (.failure s'.failures)) ?_ (hs'.congr rfl)
      have hfailures : s'.failures = c.failures := congrArg Core.failures hcore''
      rw [hfailures]
      refine Moved.of_eq hmove ?_
      show ({ s'.core with failures := c.failures + 1 }).emit (.failure c.failures) = _
      rw [hcore'']
      rfl

theorem moved_generationGoesOn {g : Nat} {next : Llm.Next Unit} (hs : Sits (.generation g) π s)
    (hcore : s.core = { c with llmTask := Function.update c.llmTask g (s.llm.task g) })
    (hp : p = .away ∨ p = .runs .leave ∨ ∃ a, p = .awaits a ∧ (c.llmTask g).asked = true)
    (hfailed : next = .complete .failed → p = .away ∧ (s.llm.task g).asked = false) :
    Moved l c π (.generation g) p (s.generationGoesOn cfg g next) := by
  have hat (x : Coroutine (Llm.Pc Unit)) :
      Session.core { s with llm.task := Function.update s.llm.task g x } =
        { c with llmTask := Function.update c.llmTask g x } := by
    have htask : s.llm.task = Function.update c.llmTask g (s.llm.task g) := congrArg Core.llmTask hcore
    show { s.core with llmTask := Function.update s.llm.task g x } = _
    rw [hcore, htask]
    simp
  unfold Session.generationGoesOn
  split
  · exact Moved.finish (s := { s with llm.task := Function.update s.llm.task g _ })
      (Moved.of_eq (.generates hp (Or.inl rfl)) (hat _)) (hs.congr rfl)
  · exact Moved.finish (s := { s with llm.task := Function.update s.llm.task g _ })
      (Moved.of_eq (.generates hp (Or.inl rfl)) (hat _)) (hs.congr rfl)
  · exact Moved.goto (s := { s with llm.task := Function.update s.llm.task g _ })
      (Moved.of_eq (.generates hp (Or.inr ⟨_, rfl⟩)) (hat _)) (hs.congr rfl)
  · refine moved_onComplete (s := { s with llm.task := Function.update s.llm.task g _ }) (hs.congr rfl) (hat _) hp
      (fun hout => ?_)
    subst hout
    exact hfailed rfl
  · exact Moved.finish (s := { s with llm := s.llm.finish g })
      (Moved.of_eq (.generates hp (Or.inl rfl)) (hat _)) (hs.congr rfl)

/-- A generation reports a failure only from its `except` block. -/
theorem not_failed_of_inCallback {gen : Llm.Gen} {pc : Llm.Pc Unit} {w : Wake Llm.Item} (hpc : pc.inCallback = true) :
    (gen.resume pc w).2 ≠ .complete .failed := by
  intro h
  rcases Llm.Gen.pc_of_complete h with ⟨hout, -⟩ | ⟨hout, -⟩ | ⟨-, rfl⟩
  · cases hout
  · cases hout
  · cases hpc

theorem moved_generationReturned {g : Nat} {w : Wake Llm.Item} (hs : Sits (.generation g) π s)
    (hcore : s.core = { c with llmTask := Function.update c.llmTask g (s.llm.task g) })
    (hp : p = .away ∨ p = .runs .leave ∨ ∃ a, p = .awaits a ∧ (c.llmTask g).asked = true)
    (hcall : s.inCall (.generation g) = true) :
    Moved l c π (.generation g) p (s.generationReturned cfg g w) := by
  unfold Session.generationReturned
  split
  · rename_i pc hpc
    have hcallback : pc.inCallback = true := by simpa [Session.inCall, hpc] using hcall
    exact moved_generationGoesOn (s := { s with llm.gen := Function.update s.llm.gen g _ }) (hs.congr rfl) hcore hp
      (fun hout => absurd hout (not_failed_of_inCallback hcallback))
  · rename_i hnone
    simp [Session.inCall, hnone] at hcall

/-! ### A reply in its own code -/

theorem core_setReply (r : Nat) (audioSent : Bool) (reply : Nat → Tts.Reply) (x : Coroutine (Tts.Pc Unit)) :
    Session.core { s with
      tts.audioSent := audioSent, tts.reply := reply, tts.task := Function.update s.tts.task r x } =
      { s.core with ttsTask := Function.update s.core.ttsTask r x } := rfl

theorem moved_replyReturned_leave {r : Nat} {pc : Tts.Pc Unit} {asked : Bool} (hs : Sits (.reply r) π s)
    (hpc : s.tts.task r = .suspended pc asked) (hcall : pc.inCallback = true) :
    Moved l s.core π (.reply r) (.runs .leave) (s.replyReturned r (.ok .none)) := by
  rw [replyReturned_eq hpc]
  refine Moved.finish (Move.reply (c := s.core) hpc ?_) (hs.congr rfl)
  cases pc with
  | sendBytes frame inner => exact .sent
  | playbackEnd i inner => exact .reported
  | _ => cases hcall

theorem moved_replyReturned_cancelled {r : Nat} {pc : Tts.Pc Unit} (asked : Bool) {a : Await}
    (hs : Sits (.reply r) π s) (hbefore : c.ttsTask r = .suspended pc true)
    (hcore : s.core = { c with ttsTask := Function.update c.ttsTask r (.suspended pc asked) }) :
    Moved l c π (.reply r) (.awaits a) (s.replyReturned r .cancelled) := by
  have hpc : s.tts.task r = .suspended pc asked := by
    have htask : s.tts.task = Function.update c.ttsTask r (.suspended pc asked) := congrArg Core.ttsTask hcore
    rw [htask, Function.update_self]
  rw [replyReturned_eq hpc]
  refine Moved.finish ?_ (hs.congr rfl)
  refine Moved.of_eq (Move.reply (x := ((s.tts.reply r).resume pc .cancelled).2.elim .done (.suspended · asked))
    hbefore (.interrupted (Or.inl rfl) (Or.inr ⟨a, rfl, rfl⟩))) ?_
  rw [core_setReply, hcore, Function.update_idem]

/-- The core when the reply `r`, which runs, has come to `x`. -/
def ReplyAt (c : Core) (r : Nat) (x : Coroutine (Tts.Pc Unit)) (s : Session) : Prop :=
  s.core = { c with ttsTask := Function.update c.ttsTask r x }

theorem ReplyAt.task {r : Nat} {x : Coroutine (Tts.Pc Unit)} (h : ReplyAt c r x s) : s.tts.task r = x := by
  have htask : s.tts.task = Function.update c.ttsTask r x := congrArg Core.ttsTask h
  rw [htask, Function.update_self]

theorem ReplyAt.returned {r : Nat} {pc : Tts.Pc Unit} {asked : Bool} (h : ReplyAt c r (.suspended pc asked) s)
    (w : Wake Tts.Item) :
    ∃ s', s.replyReturned r w = s'.finish ∧ s'.pc = s.pc ∧
      ReplyAt c r (((s.tts.reply r).resume pc w).2.elim .done (.suspended · asked)) s' := by
  refine ⟨_, replyReturned_eq h.task w, rfl, ?_⟩
  unfold ReplyAt at h ⊢
  rw [core_setReply, h, Function.update_idem]

/-- A reply that goes on without an interruption comes to its next await or callback. -/
theorem moved_replyArrives {r : Nat} {pc pc' : Tts.Pc Unit} (hs : Sits (.reply r) π s)
    (hbefore : c.ttsTask r = .suspended pc false) (hcore : ReplyAt c r (.suspended pc' false) s)
    (hpc' : pc'.interrupted = false) : Moved l c π (.reply r) .away (s.replyArrives r) := by
  have hgoes (h : ReplyMove l r pc false .away (.suspended pc' false) .away) : Moved l c π (.reply r) .away s.finish :=
    Moved.finish (Moved.of_eq (.reply hbefore h) hcore) hs
  unfold Session.replyArrives
  rw [hcore.task]
  cases pc' with
  | sendBytes frame inner =>
      dsimp only
      split
      · obtain ⟨s', heq, hpc, hat⟩ := hcore.returned (.ok .none)
        rw [heq]
        exact Moved.finish (Moved.of_eq (.reply hbefore (.goesOn rfl)) hat) (hs.congr hpc)
      · exact Moved.goto (Moved.of_eq (.reply hbefore .sends) hcore) hs
  | playbackEnd i inner =>
      cases i with
      | true => cases hpc'
      | false => exact Moved.goto (Moved.of_eq (.reply hbefore .heard) hcore) hs
  | _ => exact hgoes (.goesOn hpc')

theorem moved_replyArrives_failed {r : Nat} {pc : Tts.Pc Unit} (hs : Sits (.reply r) π s)
    (hbefore : c.ttsTask r = .suspended pc false) (hcore : ReplyAt c r (.suspended .sendError false) s)
    (hraises : pc.raises = true) (hl : l = .reply r .raised) : Moved l c π (.reply r) .away (s.replyArrives r) := by
  unfold Session.replyArrives
  rw [hcore.task]
  exact Moved.finish (Moved.of_eq (.reply hbefore (.fails hraises hl)) hcore) hs

/-- An interrupted reply only ends. -/
theorem moved_replyArrives_interrupted {r : Nat} {pc : Tts.Pc Unit} {asked : Bool} {x : Coroutine (Tts.Pc Unit)}
    (hs : Sits (.reply r) π s) (hbefore : c.ttsTask r = .suspended pc asked) (hcore : ReplyAt c r x s)
    (hpc : asked = true ∨ pc.interrupted = true) (hx : ∀ pc' b, x = .suspended pc' b → pc'.interrupted = true) :
    Moved l c π (.reply r) .away (s.replyArrives r) := by
  have hends {y : Coroutine (Tts.Pc Unit)} {s' : Session} (hat : ReplyAt c r y s') (heq : s'.pc = s.pc) :
      Moved l c π (.reply r) .away s'.finish :=
    Moved.finish (Moved.of_eq (.reply hbefore (.interrupted hpc (Or.inl rfl))) hat) (hs.congr heq)
  unfold Session.replyArrives
  rw [hcore.task]
  cases x with
  | done => exact hends hcore rfl
  | suspended pc' b =>
      have hpc' := hx pc' b rfl
      cases pc' with
      | sendBytes frame inner => cases hpc'
      | playbackEnd i inner =>
          cases i with
          | false => cases hpc'
          | true =>
              obtain ⟨s', heq, hpcs, hat⟩ := hcore.returned (.ok .none)
              simp only [if_true]
              rw [heq]
              exact hends hat hpcs
      | _ => exact hends hcore rfl

/-- A reply that was asked to cancel or has failed goes on to its end. -/
theorem interrupted_next {reply : Tts.Reply} {pc pc' : Tts.Pc Unit} {w : Wake Tts.Item}
    (hpc : w = .cancelled ∨ pc.interrupted = true) (h : (reply.resume pc w).2 = some pc') :
    pc'.interrupted = true := by
  rcases hpc with rfl | hpc
  · cases pc <;> cases h <;> rfl
  · cases pc with
    | sendError => cases w <;> (cases h; rfl)
    | sendMetrics i =>
        cases i with
        | false => cases hpc
        | true => cases w <;> cases h <;> rfl
    | playbackEnd i inner => cases w <;> cases h
    | _ => cases hpc

theorem moved_resumeReply {r : Nat} {w : Wake Tts.Item} (hs : Sits (.reply r) π s) (hl : l = .reply r w)
    (hcall : s.inCall (.reply r) = false) (ht : s.resumeReply r w = some t) :
    Moved l s.core π (.reply r) .away t := by
  obtain ⟨⟨tts, calls⟩, hresume, rfl⟩ := Option.map_eq_some_iff.mp ht
  obtain ⟨pc, asked, hbefore, henabled, rfl, -⟩ := Tts.Consumer.resume_eq_some hresume
  have hasked := Tts.Consumer.cancelling_of_enabled henabled
  have hout : pc.inCallback = false := by simpa [Session.inCall, hbefore] using hcall
  have hat {x : Coroutine (Tts.Pc Unit)} (hx : ((s.tts.reply r).resume pc w).2.elim .done .await = x) :
      ReplyAt s.core r x { s with tts := { s.tts with
        audioSent := pc.sent w || s.tts.audioSent
        reply := Function.update s.tts.reply r ((s.tts.reply r).resume pc w).1
        task := Function.update s.tts.task r (((s.tts.reply r).resume pc w).2.elim .done .await) } } := by
    subst hx
    rfl
  by_cases hpc : asked = true ∨ pc.interrupted = true
  · refine moved_replyArrives_interrupted (hs.congr rfl) hbefore (hat rfl) hpc (fun pc' b heq => ?_)
    have hcancelled : w = .cancelled ∨ pc.interrupted = true := hpc.imp_left hasked.mpr
    cases hnext : ((s.tts.reply r).resume pc w).2 with
    | none => simp [hnext] at heq
    | some pc'' =>
        rw [hnext] at heq
        cases heq
        exact interrupted_next hcancelled hnext
  · push Not at hpc
    obtain ⟨hnot, hpc⟩ := hpc
    have hasked' : asked = false := by simpa using hnot
    have hinterrupted : pc.interrupted = false := by simpa using hpc
    subst hasked'
    have hw : w ≠ .cancelled := fun heq => by simpa using hasked.mp heq
    by_cases hfails : w = .raised ∧ pc.raises = true
    · obtain ⟨rfl, hraises⟩ := hfails
      have hnext : ((s.tts.reply r).resume pc .raised).2 = some .sendError := by
        cases pc <;> first | rfl | cases hraises
      exact moved_replyArrives_failed (hs.congr rfl) hbefore (hat (x := .await .sendError) (by rw [hnext]; rfl)) hraises
        hl
    · have hraised : w = .raised → (∃ i, pc = .sendMetrics i) ∨ ∃ i inner, pc = .playbackEnd i inner := by
        rintro rfl
        exact Tts.Consumer.raised_of_enabled henabled hinterrupted (by simpa using hfails)
      rcases Tts.Reply.resume_of_not_interrupted (s.tts.reply r) hinterrupted hw hraised with
        ⟨pc', hnext, hpc'⟩ | ⟨inner, rfl, -⟩
      · exact moved_replyArrives (hs.congr rfl) hbefore (hat (x := .await pc') (by rw [hnext]; rfl)) hpc'
      · cases hout

theorem suspended_of_inCall {r : Nat} (hcall : s.inCall (.reply r) = true) :
    ∃ pc asked, s.tts.task r = .suspended pc asked ∧ pc.inCallback = true := by
  cases hpc : s.tts.task r with
  | done => simp [Session.inCall, hpc] at hcall
  | suspended pc asked => exact ⟨pc, asked, rfl, by simpa [Session.inCall, hpc] using hcall⟩

theorem moved_leave (hs : Sits me π s) (hcall : s.inCall me = true) :
    Moved l s.core π me (.runs .leave) (s.leave cfg me) := by
  have hstart : Place.runs .leave ≠ .away := by simp
  cases me with
  | stt => exact moved_processLoop hs rfl rfl hstart
  | twilio => exact moved_finalized hs rfl rfl hstart
  | silence => exact moved_plain_suspend hs rfl rfl rfl (by simp) hstart (by simp)
  | generation g =>
      refine moved_generationReturned hs ?_ (Or.inr (Or.inl rfl)) hcall
      show s.core = { s.core with llmTask := Function.update s.core.llmTask g (s.core.llmTask g) }
      rw [Function.update_eq_self]
  | reply r =>
      obtain ⟨pc, asked, hpc, hcallback⟩ := suspended_of_inCall hcall
      exact moved_replyReturned_leave hs hpc hcallback
  | vad n | sttError n | watchdog g => exact moved_plain_finish hs rfl rfl (by simp)

/-! ### Resuming a task -/

theorem core_wake (h : s.cancelling me = false) : (s.wake me).core = s.core := by
  cases me with
  | generation g =>
      have hasked : (s.llm.task g).asked = false := h
      have hwoken : (s.llm.task g).woken = s.llm.task g := by
        cases hpc : s.llm.task g with
        | done => rfl
        | suspended pc asked =>
            rw [hpc] at hasked
            cases hasked
            rfl
      ext1 <;> try rfl
      show Function.update s.llm.task g (s.llm.task g).woken = s.llm.task
      rw [hwoken, Function.update_eq_self]
  | reply r =>
      have hasked : (s.tts.task r).asked = false := h
      have hwoken : (s.tts.task r).woken = s.tts.task r := by
        cases hpc : s.tts.task r with
        | done => rfl
        | suspended pc asked =>
            rw [hpc] at hasked
            cases hasked
            rfl
      ext1 <;> try rfl
      show Function.update s.tts.task r (s.tts.task r).woken = s.tts.task
      rw [hwoken, Function.update_eq_self]
  | stt | twilio | silence | vad n | sttError n | watchdog g =>
      have hasked : s.asked _ = false := h
      ext1 <;> try rfl
      show Function.update s.asked _ false = s.asked
      rw [← hasked, Function.update_eq_self]

theorem sits_wake (hrunning : s.running = none) : Sits me s.place (s.wake me) where
  idle := by simp
  others u hu := by
    left
    simp [Session.rest, Session.place, hrunning, Function.update_of_ne hu]

theorem moved_failure (hs : Sits me π s) (hmove : Move l c π me p s.core.fails (.runs (.acquire (.recovery s.failures)))) :
    Moved l c π me p (s.failure me) :=
  Moved.goto (s := { s with failures := s.failures + 1 }.emit (.failure s.failures)) hmove (hs.congr rfl)

theorem moved_transcriptCallback {a : Await} {ev : TranscriptEvent} (hs : Sits me π s) (hl : l.brings me ev)
    (ha : me = .stt ∧ (a = .engine ∨ a = .queueGet) ∨ me = .twilio ∧ a = .finalizing) :
    Moved l s.core π me (.awaits a) (s.transcriptCallback me ev) :=
  Moved.goto (s := { s with
    hearing := Function.update s.hearing me (some (ev, s.begun))
    conversation := (TurnManager.processTranscriptEvent ev s.conversation).1 }) (.hears hl ha) (hs.congr rfl)

theorem moved_start (hs : Sits me π s) (hfits : Await.created.fits me = true) :
    Moved l s.core π me (.awaits .created) (s.start me) := by
  have hstart : Place.awaits .created ≠ .away := by simp
  cases me with
  | stt => exact moved_processLoop hs rfl rfl hstart
  | silence => exact moved_plain_suspend hs rfl rfl rfl (by simp) hstart (by simp)
  | vad n => exact Moved.goto (.calls rfl rfl (by simp)) hs
  | sttError n => exact moved_failure hs .reported
  | watchdog g => exact moved_plain_suspend hs rfl rfl rfl (by simp) hstart (by simp)
  | twilio | generation | reply => cases hfits

/-- `stop` asks a loop to cancel and waits for it. -/
theorem moved_asks {u : Task} {a b : Await} (hs : Sits .twilio π s) (hcore : s.core = c)
    (hu : u = .stt ∨ u = .silence) (ha : a.plain = true)
    (hb : b.plain = true) (hstop : (Place.awaits b).torn = true → (Place.awaits a).torn = true) :
    Moved l c π .twilio (.awaits a) ((s.askCancel u).suspend .twilio b) := by
  subst hcore
  have hmove := Move.asks (l := l) (c := s.core) (u := u) hu ha hb hstop (asks_cancelAwaited hs u)
  refine Moved.suspend (s := s.askCancel u) (Moved.of_eq hmove ?_) (hs.congr rfl)
  ext1 <;> first | rfl | exact cancelAwaited_current u | exact cancelAwaited_count u

theorem moved_tornDown (hs : Sits .twilio π s) :
    Moved l s.core π .twilio (.awaits .engineClosing) (s.tornDown .twilio) := by
  have hs' : Sits .twilio π { s with muted := false, pcmBuffer := [] }.release := hs.congr rfl
  unfold Session.tornDown
  dsimp only
  split
  · exact Moved.finish (c := s.core) (s := { s with muted := false, pcmBuffer := [] }.release) .tearsDown hs'
  · have hmove := Move.tearsDownLoop (l := l) (c := s.core) (asks_cancelAwaited hs' .silence)
    refine Moved.suspend (s := { s with muted := false, pcmBuffer := [] }.release.askCancel .silence)
      (Moved.of_eq hmove ?_) (hs'.congr rfl)
    ext1 <;> first | rfl | exact cancelAwaited_current .silence | exact cancelAwaited_count .silence

theorem moved_resumeOk {a : Await} {result : Result} (s₀ : Session) (hs : Sits me π s) (hcore : s.core = c)
    (hl : l = .wake me (.ok result))
    (hfits : a.fits me = true) (henabled : s₀.enabled me a (.ok result) = true)
    (hsec : ∀ {sec}, a = .acquiring sec → sec.fits me = true)
    (hdone : ∀ r, s₀.tts.task r = s.tts.task r) (hstt : s₀.pc .stt = none → π .stt = .away) :
    Moved l c π me (.awaits a) (s.resumeOk me a result) := by
  subst hcore
  have hplain {a b : Await} (hs : Sits me π s) (ha : a.plain = true) (hb : b.plain = true) (hengine : b ≠ .engine)
      (hstop : (Place.awaits b).torn = true → (Place.awaits a).torn = true) :
      Moved l s.core π me (.awaits a) (s.suspend me b) :=
    moved_plain_suspend hs rfl ha hb hengine (by simp) (fun _ => hstop)
  cases a with
  | created => exact moved_start hs hfits
  | acquiring sec =>
      exact Moved.goto (s := { s with lock := s.lock.hold me }) (.edge (.admitted (hsec rfl))) (hs.congr rfl)
  | gathering r hadAudio k =>
      have hover : (s.core.ttsTask r).isDone = true := by
        cases result with
        | none =>
            show (s.tts.task r).isDone = true
            rw [← hdone r]
            exact henabled
        | _ => cases henabled
      simp only [Session.resumeOk]
      split
      · split
        · exact Moved.suspend (s := s.emit .clear) (.clears hover (Or.inr rfl)) (hs.congr rfl)
        · exact Moved.suspend (.clears hover (Or.inl rfl)) hs
      · exact Moved.goto (.gathered hover) hs
  | clearing k => exact Moved.goto (.edge .cleared) hs
  | queueGet =>
      obtain rfl : me = .stt := by cases me <;> first | rfl | cases hfits
      exact moved_nextFrame hs rfl rfl (by simp)
  | engine =>
      obtain rfl : me = .stt := by cases me <;> first | rfl | cases hfits
      simp only [Session.resumeOk]
      split
      · exact moved_transcriptCallback hs (Or.inl hl) (Or.inl ⟨rfl, Or.inl rfl⟩)
      · exact moved_processLoop hs rfl rfl (by simp)
  | finalizing =>
      obtain rfl : me = .twilio := by cases me <;> first | rfl | cases hfits
      simp only [Session.resumeOk]
      split
      · exact moved_transcriptCallback hs (Or.inl hl) (Or.inr ⟨rfl, rfl⟩)
      · exact moved_finalized hs rfl rfl (by simp)
  | putting =>
      obtain rfl : me = .twilio := by cases me <;> first | rfl | cases hfits
      exact Moved.suspend (c := s.core) (s := { s with queue := s.queue ++ [none] }) (.marksEnd rfl (by simp))
        (hs.congr rfl)
  | loopEnding =>
      obtain rfl : me = .twilio := by cases me <;> first | rfl | cases hfits
      simp only [Session.resumeOk]
      split
      · exact moved_asks hs rfl (Or.inl rfl) rfl rfl (fun h => by cases h)
      · rename_i hresult
        have hover : s₀.pc .stt = none := by
          cases result with
          | none => simpa [Session.enabled] using henabled
          | timeout => exact absurd rfl hresult
          | _ => cases henabled
        exact Moved.suspend (.loopOver (Or.inl rfl) (hstt hover)) hs
  | loopCancelled =>
      obtain rfl : me = .twilio := by cases me <;> first | rfl | cases hfits
      have hover : s₀.pc .stt = none := by
        cases result with
        | none => simpa [Session.enabled] using henabled
        | _ => cases henabled
      exact Moved.suspend (.loopOver (Or.inr rfl) (hstt hover)) hs
  | consumerClosing => exact hplain hs rfl rfl (by simp) (fun _ => rfl)
  | engineClosing =>
      obtain rfl : me = .twilio := by cases me <;> first | rfl | cases hfits
      exact moved_tornDown hs
  | silenceEnding =>
      obtain rfl : me = .twilio := by cases me <;> first | rfl | cases hfits
      simp only [Session.resumeOk]
      split
      · exact moved_asks hs rfl (Or.inr rfl) rfl rfl (fun _ => rfl)
      · exact moved_plain_finish hs rfl rfl (fun _ => rfl)
  | silenceCancelled => exact moved_plain_finish hs rfl rfl (fun _ => rfl)
  | sleeping =>
      obtain rfl : me = .silence := by cases me <;> first | rfl | cases hfits
      simp only [Session.resumeOk]
      split
      · exact Moved.goto (.calls rfl rfl (by simp)) hs
      · exact moved_plain_finish hs rfl rfl (by simp)
  | hangup =>
      obtain rfl : me = .silence := by cases me <;> first | rfl | cases hfits
      exact Moved.finish .hungUp hs
  | watching =>
      obtain ⟨g, rfl⟩ : ∃ g, me = .watchdog g := by cases me <;> first | exact ⟨_, rfl⟩ | cases hfits
      simp only [Session.resumeOk]
      split
      · exact hplain hs rfl rfl (by simp) (fun h => by cases h)
      · exact moved_plain_finish hs rfl rfl (by simp)
  | expiring =>
      obtain ⟨g, rfl⟩ : ∃ g, me = .watchdog g := by cases me <;> first | exact ⟨_, rfl⟩ | cases hfits
      exact moved_plain_finish hs rfl rfl (by simp)
  | sendMedia =>
      obtain ⟨r, rfl⟩ : ∃ r, me = .reply r := by cases me <;> first | exact ⟨_, rfl⟩ | cases hfits
      exact Moved.goto (.edge (.plain rfl rfl (fun h => by cases h) (by simp) (by simp))) hs

theorem moved_resumeRaised {a : Await} (s₀ : Session) (hs : Sits me π s) (hfits : a.fits me = true)
    (hraises : s₀.enabled me a .raised = true) (hmade : π (.sttError s.errors) = .away) :
    Moved l s.core π me (.awaits a) (s.resumeRaised me a) := by
  cases a with
  | engine =>
      obtain rfl : me = .stt := by cases me <;> first | rfl | cases hfits
      refine moved_processLoop (s := s.onSttError) ⟨?_, fun u hu => ?_⟩ rfl rfl (by simp)
      · have hne : Task.stt ≠ .sttError s.errors := by simp
        exact (Function.update_of_ne hne (some Await.created) s.pc).trans hs.idle
      · by_cases hnew : u = .sttError s.errors
        · subst hnew
          exact Or.inr ⟨rfl, hmade, by simp [Session.rest]⟩
        · have hpc : s.onSttError.pc u = s.pc u := Function.update_of_ne hnew _ _
          unfold Session.rest
          rw [hpc]
          exact hs.others u hu
  | finalizing =>
      obtain rfl : me = .twilio := by cases me <;> first | rfl | cases hfits
      exact moved_finalized hs rfl rfl (by simp)
  | consumerClosing | engineClosing =>
      exact moved_plain_finish (s := s.release) (hs.congr rfl) rfl rfl (fun _ => rfl)
  | hangup =>
      obtain rfl : me = .silence := by cases me <;> first | rfl | cases hfits
      exact Moved.finish .hungUp hs
  | expiring =>
      obtain ⟨g, rfl⟩ : ∃ g, me = .watchdog g := by cases me <;> first | exact ⟨_, rfl⟩ | cases hfits
      have hmove := Move.expires (l := l) (c := s.core) (g := g) (asks_cancelGeneration hs)
      refine moved_failure (s := s.cancelGeneration) (hs.congr rfl) ?_
      show Move l s.core π (.watchdog g) _ s.cancelGeneration.core.fails _
      rw [core_cancelGeneration]
      exact hmove
  | sendMedia =>
      obtain ⟨r, rfl⟩ : ∃ r, me = .reply r := by cases me <;> first | exact ⟨_, rfl⟩ | cases hfits
      exact moved_failure hs .sendFails
  | _ => cases hraises

variable (me s) in
theorem core_unwind_release : (if s.lock.holder = some me then s.release else s).core = s.core := by
  split <;> rfl

theorem pc_unwind_release : (if s.lock.holder = some me then s.release else s).pc = s.pc := by
  split <;> rfl

/-- A `CancelledError` leaves the session's code. -/
theorem moved_unwind {a : Await} {s₀ : Session} (hs : Sits me π s) (hcancelling : s₀.cancelling me = true)
    (hcore : s.core = (s₀.wake me).core) (hcall : s.inCall me = true) :
    Moved l s₀.core π me (.awaits a) (s.unwind cfg me) := by
  have hcore' := core_unwind_release me s
  have hs' : Sits me π (if s.lock.holder = some me then s.release else s) := hs.congr pc_unwind_release
  have hcall' : (if s.lock.holder = some me then s.release else s).inCall me = true := by
    split <;> exact hcall
  unfold Session.unwind
  dsimp only
  generalize (if s.lock.holder = some me then s.release else s) = s' at hcore' hs' hcall' ⊢
  have hat : s'.core = (s₀.wake me).core := hcore'.trans hcore
  cases me with
  | generation g =>
      refine moved_generationReturned hs' ?_ (Or.inr (Or.inr ⟨a, rfl, hcancelling⟩)) hcall'
      have htask : s'.llm.task = Function.update s₀.llm.task g (s₀.llm.task g).woken := congrArg Core.llmTask hat
      rw [hat, htask, Function.update_self]
      rfl
  | reply r =>
      obtain ⟨pc, asked, hpc, -⟩ := suspended_of_inCall hcall'
      have htask : s'.tts.task = Function.update s₀.tts.task r (s₀.tts.task r).woken := congrArg Core.ttsTask hat
      have hasked : (s₀.tts.task r).asked = true := hcancelling
      rw [htask, Function.update_self] at hpc
      cases hbefore : s₀.tts.task r with
      | done =>
          rw [hbefore] at hasked
          cases hasked
      | suspended pc₀ asked₀ =>
          rw [hbefore] at hasked hpc
          cases hasked
          refine moved_replyReturned_cancelled false hs' hbefore ?_
          rw [hat]
          show { s₀.core with ttsTask := Function.update s₀.tts.task r (s₀.tts.task r).woken } = _
          rw [hbefore]
          rfl
  | stt | twilio | silence | vad n | sttError n | watchdog g =>
      exact Moved.finish (Moved.of_eq (.unwinds hcancelling) hat) hs'

theorem moved_resumeCancelled {a : Await} {s₀ : Session} (hs : Sits me π (s₀.wake me))
    (hcancelling : s₀.cancelling me = true) (hcall : (s₀.wake me).inCall me = true) :
    Moved l s₀.core π me (.awaits a) ((s₀.wake me).resumeCancelled cfg me a) := by
  cases a with
  | acquiring sec =>
      exact moved_unwind (s := { s₀.wake me with lock := (s₀.wake me).lock.abandon me (s₀.wake me).cancelling })
        (hs.congr rfl) hcancelling rfl (by simpa [Session.inCall] using hcall)
  | _ => exact moved_unwind hs hcancelling rfl hcall

end Moves

/-- A step is a call that does nothing, the step of a `process_frame` task, or a move of the only task that
can run. -/
inductive Stepped (l : Label) (s t : Session) : Prop
  | nothing (hl : l = .feedMulaw []) (h : t = s)
  | frame {frame : Bytes} {frames : List Bytes} (hl : l = .processFrame) (h : s.frames = frame :: frames)
      {queue : List (Option Bytes)} (hcore : t.core = { s.core with frames, queue }) (hplace : t.place = s.place)
  | move (me : Task) (hl : l ≠ .processFrame) (hsolo : ∀ u, u ≠ me → ∀ x, s.place u ≠ .runs x)
      (h : Moved l s.core s.place me (s.place me) t)

section Steps

variable {cfg : Config} {me : Task} {s t : Session} {l : Label}

theorem Placed.away (h : Placed s) {u : Task} (hu : s.made u = false) : s.place u = .away := by
  have hpc {o : Option Task} (ho : Others o s) : s.pc u = none := by
    by_contra hcon
    obtain ⟨a, ha⟩ := Option.ne_none_iff_exists'.mp hcon
    rw [ho.made ha] at hu
    cases hu
  unfold Placed at h
  unfold Session.place
  rcases hrunning : s.running with _ | ⟨v, p⟩
  · simp only [hrunning] at h ⊢
    simp [Session.rest, hpc h]
  · simp only [hrunning] at h ⊢
    rw [if_neg]
    · simp [Session.rest, hpc h.1.toOthers]
    · rintro rfl
      rw [h.1.madeMe] at hu
      cases hu

theorem moved_advance {p : Point} (hplaced : Placed s) (hrunning : s.running = some (me, p))
    (ht : Placed (s.advance cfg me p)) : Moved l s.core s.place me (.runs p) (s.advance cfg me p) := by
  have h := hplaced
  unfold Placed at h
  rw [hrunning] at h
  obtain ⟨h, hfits⟩ := h
  have hs : Sits me s.place s := ⟨h.idle rfl, fun u hu => Or.inl (by simp [Session.place, hrunning, hu])⟩
  cases p with
  | acquire sec =>
      refine moved_acquire hs (fun hfree => ?_)
      simp only [Session.advance, Session.acquire, hfree, if_true] at ht
      exact ht.2
  | enter sec =>
      refine moved_enter hs hfits (fun n hn => hplaced.away ?_)
      simpa [Session.made] using hn
  | ttsStop k => exact moved_ttsStop hs
  | stopped k =>
      refine moved_stopped hs hfits (hplaced.away ?_)
      simp [Session.made]
  | turn next => exact moved_callback hs
  | leave => exact moved_leave hs h.inCall

theorem moved_wake {a : Await} {w : Wake Result} (hplaced : Placed s) (hrunning : s.running = none)
    (ha : s.pc me = some a) (hfits' : w.fits (s.cancelling me) = true) (henabled : s.enabled me a w = true)
    (hl : l = .wake me w) (ht : Placed ((s.wake me).resume cfg me a w)) :
    Moved l s.core s.place me (.awaits a) ((s.wake me).resume cfg me a w) := by
  have h := hplaced
  unfold Placed at h
  rw [hrunning] at h
  have hs : Sits me s.place (s.wake me) := sits_wake hrunning
  have hacts := Others.wake h ha
  cases w with
  | ok result =>
      have hnot : s.cancelling me = false := by simpa [Wake.fits] using hfits'
      have hcore := core_wake hnot
      refine moved_resumeOk s hs hcore hl (h.fits ha) henabled (fun {sec} heq => ?_) (fun r => ?_) (fun hstt => ?_)
      · subst heq
        exact ht.2
      · exact (congrFun (congrArg Core.ttsTask hcore) r).symm
      · simp [Session.place, hrunning, Session.rest, hstt]
  | raised =>
      have hnot : s.cancelling me = false := by simpa [Wake.fits] using hfits'
      have hmade : s.made (.sttError (s.wake me).errors) = false := by
        cases me <;> simp [Session.made, Session.wake]
      have hmove := moved_resumeRaised (l := l) s hs (h.fits ha) henabled (hplaced.away hmade)
      rw [core_wake hnot] at hmove
      exact hmove
  | cancelled =>
      have hcancelling : s.cancelling me = true := by simpa [Wake.fits] using hfits'
      exact moved_resumeCancelled hs hcancelling hacts.inCall

theorem core_tokenSeen (g : Nat) (w : Wake Llm.Item) :
    (s.tokenSeen g w).core = s.core ∧ (s.tokenSeen g w).pc = s.pc := by
  unfold Session.tokenSeen
  split
  · split <;> exact ⟨rfl, rfl⟩
  · exact ⟨rfl, rfl⟩

theorem moved_resumeGeneration {g : Nat} {w : Wake Llm.Item} (hrunning : s.running = none)
    (ht : s.resumeGeneration cfg g w = some t) :
    Moved l s.core s.place (.generation g) .away t := by
  obtain ⟨⟨llm, next⟩, hresume, rfl⟩ := Option.map_eq_some_iff.mp ht
  obtain ⟨pc, cancelling, htask, -, rfl, rfl⟩ := Llm.Consumer.resume_eq_some hresume
  obtain ⟨hcore, hpc'⟩ := core_tokenSeen (s := s) g w
  have hrest : s.place = s.rest := by
    funext u
    simp [Session.place, hrunning]
  rw [hrest]
  refine moved_generationGoesOn ⟨?_, fun u hu => Or.inl ?_⟩ ?_ (Or.inl rfl) (fun _ => ⟨rfl, ?_⟩)
  · simp
  · simp [Session.rest, Function.update_of_ne hu, hpc']
  · show { (s.tokenSeen g w).core with
      llmCurrent := s.llm.current
      llmCount := s.llm.count
      llmTask := Function.update s.llm.task g (s.llm.task g).woken } = _
    rw [hcore]
    simp only [Session.wake, Function.update_self]
    rfl
  · show ((Function.update s.llm.task g (s.llm.task g).woken) g).asked = false
    rw [Function.update_self, htask]
    rfl

theorem place_ne_runs (hrunning : s.running = none) (u : Task) (x : Point) : s.place u ≠ .runs x := by
  intro heq
  have hrest : s.rest u = .runs x := by simpa [Session.place, hrunning] using heq
  unfold Session.rest at hrest
  cases hpc : s.pc u <;> simp [hpc] at hrest

theorem place_of_idle (hrunning : s.running = none) (hpc : s.pc me = none) : s.place me = .away := by
  simp [Session.place, hrunning, Session.rest, hpc]

theorem sits_of_idle (hrunning : s.running = none) (hpc : s.pc me = none) : Sits me s.place s where
  idle := hpc
  others u _ := Or.inl (by simp [Session.place, hrunning])

/-- A call into the session from outside. -/
theorem moved_calls {sec : Section} (hrunning : s.running = none) (hpc : s.pc me = none) (hsec : sec.first me = true)
    (horigin : sec.origin = .away) (hfeed : ∀ pcm, sec = .feed pcm → ∃ bytes, l = .feedMulaw bytes) :
    Moved l s.core s.place me (s.place me) (s.goto me (.acquire sec)) := by
  rw [place_of_idle hrunning hpc]
  exact Moved.goto (.calls horigin.symm hsec hfeed) (sits_of_idle hrunning hpc)

/-- The task that a step runs. -/
def Session.mover (s : Session) (l : Label) : Option Task :=
  match s.running, l with
  | some (me, _), _ => some me
  | none, .wake me _ => some me
  | none, .generation g _ => some (.generation g)
  | none, .reply r _ => some (.reply r)
  | none, .transcript _ => some .stt
  | none, .feedMulaw bytes => if bytes = [] then none else some .twilio
  | none, .stop => some .twilio
  | none, _ => none

theorem moved_of_step (h : Placed s) (ht : step cfg s l = some t) (hme : s.mover l = some me) :
    Moved l s.core s.place me (s.place me) t := by
  have hplaced := h.of_step ht
  rcases hrunning : s.running with _ | ⟨u, p⟩
  · simp only [step, Session.mover, hrunning] at ht hme
    cases l with
    | run | processFrame => cases hme
    | wake u w =>
        cases hme
        rcases ha : s.pc me with _ | a
        · simp [ha] at ht
        · simp only [ha, Option.ite_none_right_eq_some, Bool.and_eq_true] at ht
          obtain ⟨⟨hfits, henabled⟩, heq⟩ := ht
          cases heq
          have hplace : s.place me = .awaits a := by simp [Session.place, hrunning, Session.rest, ha]
          rw [hplace]
          exact moved_wake h hrunning ha hfits henabled rfl hplaced
    | generation g w =>
        cases hme
        simp only [Option.ite_none_right_eq_some] at ht
        rw [place_of_idle hrunning ht.1]
        exact moved_resumeGeneration hrunning ht.2
    | reply r w =>
        cases hme
        simp only [Option.ite_none_right_eq_some] at ht
        obtain ⟨hpc, ht⟩ := ht
        rw [place_of_idle hrunning hpc]
        refine moved_resumeReply (sits_of_idle hrunning hpc) rfl ?_ ht
        unfold Placed at h
        rw [hrunning] at h
        rw [h.reply (by simp), hpc]
        rfl
    | transcript ev =>
        cases hme
        simp only [Option.ite_none_right_eq_some, Bool.and_eq_true, decide_eq_true_eq, Bool.not_eq_true'] at ht
        obtain ⟨⟨hpc, hnot⟩, heq⟩ := ht
        cases heq
        have hplace : s.place .stt = .awaits .queueGet := by simp [Session.place, hrunning, Session.rest, hpc]
        have hmove := moved_transcriptCallback (l := .transcript ev) (show Sits .stt s.place (s.wake .stt) from sits_wake hrunning)
          (Or.inr ⟨rfl, rfl⟩) (Or.inl ⟨rfl, Or.inr rfl⟩)
        rw [hplace, ← core_wake hnot]
        exact hmove
    | feedMulaw bytes =>
        simp only [Option.ite_none_left_eq_some] at hme
        obtain ⟨hbytes, hme⟩ := hme
        cases hme
        simp only [Option.ite_none_right_eq_some, if_neg hbytes] at ht
        obtain ⟨hpc, heq⟩ := ht
        cases heq
        exact moved_calls hrunning hpc rfl rfl (fun _ _ => ⟨bytes, rfl⟩)
    | stop =>
        cases hme
        simp only [Option.ite_none_right_eq_some] at ht
        obtain ⟨hpc, heq⟩ := ht
        cases heq
        exact moved_calls hrunning hpc rfl rfl (by simp)
  · simp only [step, Session.mover, hrunning] at ht hme
    cases hme
    cases l with
    | run =>
        cases ht
        have hplace : s.place me = .runs p := by simp [Session.place, hrunning]
        rw [hplace]
        exact moved_advance h hrunning hplaced
    | _ => cases ht

/-- Where another task runs, the task does not. -/
theorem solo_of_mover (hme : s.mover l = some me) {u : Task} (hu : u ≠ me) (x : Point) : s.place u ≠ .runs x := by
  rcases hrunning : s.running with _ | ⟨v, p⟩
  · exact place_ne_runs hrunning u x
  · simp only [Session.mover, hrunning] at hme
    cases hme
    intro heq
    have hrest : s.rest u = .runs x := by simpa [Session.place, hrunning, hu] using heq
    unfold Session.rest at hrest
    cases hpc : s.pc u <;> simp [hpc] at hrest

/-- A step that runs none of the tasks. -/
theorem step_of_no_mover (ht : step cfg s l = some t) (hme : s.mover l = none) :
    l = .feedMulaw [] ∧ t = s ∨ ∃ frame frames queue, l = .processFrame ∧ s.frames = frame :: frames ∧
      t = { s with frames, queue } := by
  rcases Option.eq_none_or_eq_some s.running with hrunning | ⟨⟨u, p⟩, hrunning⟩
  · cases l with
    | feedMulaw bytes =>
        have hbytes : bytes = [] := by simpa [Session.mover, hrunning] using hme
        subst hbytes
        simp only [step, hrunning, Option.ite_none_right_eq_some, if_true] at ht
        exact Or.inl ⟨rfl, (Option.some.inj ht.2).symm⟩
    | processFrame =>
        rcases hframes : s.frames with _ | ⟨frame, frames⟩
        · simp [step, hrunning, hframes] at ht
        · have hstep : step cfg s .processFrame = some ({ s with frames }.processFrame frame) := by
            simp [step, hrunning, hframes]
          rw [hstep] at ht
          obtain ⟨queue, hqueue⟩ := processFrame_eq { s with frames } frame
          rw [hqueue] at ht
          exact Or.inr ⟨frame, frames, queue, rfl, rfl, (Option.some.inj ht).symm⟩
    | run => simp [step, hrunning] at ht
    | _ => simp [Session.mover, hrunning] at hme
  · simp [Session.mover, hrunning] at hme

/-- A task that a step does not run stays where it is, or is created. -/
theorem stays_of_step (h : Placed s) (ht : step cfg s l = some t) {u : Task} (hu : s.mover l ≠ some u) :
    Stays u (s.place u) (t.place u) := by
  rcases hme : s.mover l with _ | me
  · rcases step_of_no_mover ht hme with ⟨-, rfl⟩ | ⟨_, _, _, -, -, rfl⟩ <;> exact Or.inl rfl
  · obtain ⟨q, -, -, hothers⟩ := moved_of_step h ht hme
    refine hothers u ?_
    rintro rfl
    exact hu hme

/-- **Every step is a move.** -/
theorem Move.of_step (h : Placed s) (ht : step cfg s l = some t) : Stepped l s t := by
  rcases hme : s.mover l with _ | me
  · rcases step_of_no_mover ht hme with ⟨hl, heq⟩ | ⟨_, _, _, hl, hframes, rfl⟩
    · exact .nothing hl heq
    · exact .frame hl hframes rfl rfl
  · refine .move me ?_ (fun u hu => solo_of_mover hme hu) (moved_of_step h ht hme)
    rintro rfl
    rcases hrunning : s.running with _ | ⟨u, p⟩
    · simp [Session.mover, hrunning] at hme
    · simp [step, hrunning] at ht

/-! ## Runs -/

/-- The task is at the place in a section. -/
def Place.holds (u : Task) : Place → Bool
  | .runs p => p.holds u
  | .awaits a => a.holds u
  | .away => false

/-- The task can be at the place. -/
def Place.fits (u : Task) : Place → Bool
  | .runs p => p.fits u
  | .awaits a => a.fits u
  | .away => true

/-- The tasks are at places of their own, and at most one of them is in a section. -/
structure Orderly (π : Task → Place) : Prop where
  fits : ∀ u, (π u).fits u = true
  exclusive : ∀ u v, (π u).holds u = true → (π v).holds v = true → u = v

/-- While `me` goes from `p` to `q`, the other tasks stay where they are, and none of them runs. -/
structure Goes (me : Task) (p q : Place) (π π' : Task → Place) : Prop where
  before : π me = p
  after : π' me = q
  others : ∀ u, u ≠ me → Stays u (π u) (π' u)
  solo : ∀ u, u ≠ me → ∀ x, π u ≠ .runs x
  orderly : Orderly π
  orderly' : Orderly π'

theorem Place.awaits_of_pc {a : Await} {u : Task} (h : s.rest u = .awaits a) : s.pc u = some a := by
  unfold Session.rest at h
  cases hpc : s.pc u with
  | none => simp [hpc] at h
  | some b => simpa [hpc] using h

/-- A task in a section holds the lock. -/
theorem Placed.holder (h : Placed s) {u : Task} (hu : (s.place u).holds u = true) : s.lock.holder = some u := by
  unfold Placed at h
  unfold Session.place at hu
  have hrest {o : Option Task} (ho : Others o s) (hne : o ≠ some u) (hu : (s.rest u).holds u = true) :
      s.lock.holder = some u := by
    refine (ho.held hne).mpr ?_
    cases hpc : s.rest u with
    | away => simp [hpc, Place.holds] at hu
    | awaits a => exact ⟨a, Place.awaits_of_pc hpc, by simpa [hpc, Place.holds] using hu⟩
    | runs x =>
        unfold Session.rest at hpc
        cases hs : s.pc u <;> simp [hs] at hpc
  rcases hrunning : s.running with _ | ⟨v, p⟩
  · simp only [hrunning] at h hu
    exact hrest h (by simp) hu
  · simp only [hrunning] at h hu
    split at hu
    · rename_i heq
      subst heq
      exact h.1.mine.mpr hu
    · rename_i hne
      exact hrest h.1.toOthers (by simpa using fun heq => hne heq.symm) hu

theorem Placed.orderly (h : Placed s) : Orderly s.place where
  fits u := by
    have hrest {o : Option Task} (ho : Others o s) : (s.rest u).fits u = true := by
      cases hpc : s.rest u with
      | away => rfl
      | awaits a => exact ho.fits (Place.awaits_of_pc hpc)
      | runs x =>
          unfold Session.rest at hpc
          cases hs : s.pc u <;> simp [hs] at hpc
    unfold Placed at h
    unfold Session.place
    rcases hrunning : s.running with _ | ⟨v, p⟩
    · simp only [hrunning] at h ⊢
      exact hrest h
    · simp only [hrunning] at h ⊢
      split
      · rename_i heq
        subst heq
        exact h.2
      · exact hrest h.1.toOthers
  exclusive u v hu hv := by
    have heq := (h.holder hu).symm.trans (h.holder hv)
    exact Option.some.inj heq

/-- **Invariance**: what every allowed move keeps holds in every state that a run reaches. -/
theorem Placed.invariant_of_moves {I : Core → (Task → Place) → Prop} {ok : Session → Label → Prop} {ls : List Label}
    (hplaced : Placed s) (hrun : Run (step cfg) ok s ls t) (h0 : I s.core s.place)
    (hmove : ∀ {s : Session} {l : Label} {me : Task} {c' : Core} {q : Place} {π' : Task → Place}, ok s l →
      I s.core s.place → Goes me (s.place me) q s.place π' → Move l s.core s.place me (s.place me) c' q → I c' π')
    (hframe : ∀ {c : Core} {π : Task → Place} {frame : Bytes} {frames : List Bytes} {queue : List (Option Bytes)},
      I c π → c.frames = frame :: frames → I { c with frames, queue } π) :
    I t.core t.place := by
  have hboth : Placed t ∧ I t.core t.place := by
    refine hrun.invariant (I := fun s => Placed s ∧ I s.core s.place) ⟨hplaced, h0⟩ ?_
    rintro s t l ⟨hplaced, hinv⟩ hok hstep
    have hplaced' := hplaced.of_step hstep
    refine ⟨hplaced', ?_⟩
    cases Move.of_step hplaced hstep with
    | nothing _ h => rwa [h]
    | frame _ hframes hcore hplace =>
        rw [hcore, hplace]
        exact hframe hinv hframes
    | move me _ hsolo h =>
      obtain ⟨q, hmoves, hq, hothers⟩ := h
      exact hmove hok hinv ⟨rfl, hq, hothers, hsolo, hplaced.orderly, hplaced'.orderly⟩ hmoves
  exact hboth.2

/-- The same of the runs from the start of the call. -/
theorem invariant_of_moves {I : Core → (Task → Place) → Prop} {ok : Session → Label → Prop} {ls : List Label}
    (hrun : Run (step cfg) ok Session.started ls t) (h0 : I Session.started.core Session.started.place)
    (hmove : ∀ {s : Session} {l : Label} {me : Task} {c' : Core} {q : Place} {π' : Task → Place}, ok s l →
      I s.core s.place → Goes me (s.place me) q s.place π' → Move l s.core s.place me (s.place me) c' q → I c' π')
    (hframe : ∀ {c : Core} {π : Task → Place} {frame : Bytes} {frames : List Bytes} {queue : List (Option Bytes)},
      I c π → c.frames = frame :: frames → I { c with frames, queue } π) :
    I t.core t.place :=
  placed_started.invariant_of_moves hrun h0 hmove hframe

end Steps

end Voxera.Call
