import Voxera.Voice.Frame

/-!
# Which task is suspended where

* `Pc.runsIn` : the suspension points that each of the tasks can be at;
* `StepTo`, `Transcribes` : the kinds of steps, and the branches of `process_transcript_event`;
* `Typed` : every task is at one of its own, and no timer runs that has not been started
  (`Typed.step`);
* `Session.replyWaits`, `Session.callsReply` : who waits in `tts.begin`, and which steps call `_reply`.
-/

namespace Voxera.Voice

open EventLoop
open Session

variable {cfg : Config} {me : Handler} {s t : Session}

/-- The calls of `tts.stop` that the task makes. -/
def StopFor.runsIn : Handler → StopFor → Bool
  | .stt, .interruption (.turn k) _ | .endpoint, .interruption (.turn k) _ => k.interrupted
  | .dispatcher, .interruption .vad _ => true
  | .stt, .reply _ _ _ | .endpoint, .reply _ _ _ | .timer _, .reply _ _ _ => true
  | .endpoint, .speakText _ _ _ | .endpoint, .close => true
  | _, _ => false

/-- The suspension points of the task's calls into the session. -/
def Pc.runsIn : Handler → Pc → Bool
  | h, .stopping _ _ k | h, .clearing k => k.runsIn h
  | h, .bargeIn k cut => (StopFor.interruption k cut).runsIn h
  | .stt, .turnHeld | .endpoint, .turnHeld => true
  | .timer _, .holdSleep => true
  | .endpoint, .closing _ => true
  | _, _ => false

/-- The tasks that run `process_transcript_event`. -/
def Handler.transcribes : Handler → Bool
  | .stt | .endpoint => true
  | _ => false

/-- The tasks that run `_reply`. -/
def Handler.replies : Handler → Bool
  | .dispatcher => false
  | _ => true

theorem Handler.replies_of_transcribes {h : Handler} (hh : h.transcribes = true) : h.replies = true := by
  cases h <;> simp_all [Handler.transcribes, Handler.replies]

theorem runsIn_reply (turn : UserTurnCompleted) (history : List Llm.Entry) (ticket : Nat) (h : Handler) :
    (StopFor.reply turn history ticket).runsIn h = h.replies := by
  cases h <;> rfl

theorem runsIn_interruption_turn (k : TurnManager.After) (cut : Cut) (h : Handler) :
    (StopFor.interruption (.turn k) cut).runsIn h = (h.transcribes && k.interrupted) := by
  cases h <;> rfl

theorem runsIn_turnHeld (h : Handler) : Pc.turnHeld.runsIn h = h.transcribes := by
  cases h <;> rfl

/-- The kinds of steps, with the guards of each. -/
inductive StepTo (cfg : Config) (s : Session) : Label → Session → Prop
  | transcript {me : Handler} {ev : TranscriptEvent} (htranscribes : me.transcribes = true)
      (hclosed : me = .endpoint → s.closed = true) (hidle : s.handler me = .done) :
      StepTo cfg s (.transcript me ev) (s.processTranscriptEvent cfg me ev)
  | frame {bytes : Bytes} (hidle : s.handler .dispatcher = .done) :
      StepTo cfg s (.frame bytes) (s.processAudioFrame cfg .dispatcher bytes)
  | speakText {text utteranceId : Text} (hopen : s.closed = false) (hidle : s.handler .endpoint = .done) :
      StepTo cfg s (.speakText text utteranceId) (s.speakText .endpoint text utteranceId)
  | close (hopen : s.closed = false) (hidle : s.handler .endpoint = .done) :
      StepTo cfg s .close (s.close .endpoint)
  | handler {me : Handler} {pc : Pc} {cancelling : Bool} {w : Wake Unit}
      (hpc : s.handler me = .suspended pc cancelling) (hfits : w.fits cancelling = true)
      (henabled : s.enabled pc w = true) :
      StepTo cfg s (.handler me w) ((s.leave me).resumeHandler cfg me pc w)
  | generation {t : Session} {g : Nat} {w : Wake Llm.Item} (hgen : s.resumeGeneration cfg g w = some t) :
      StepTo cfg s (.generation g w) t
  | reply {t : Session} {r : Nat} {w : Wake Tts.Item} (hreply : s.resumeReply r w = some t) :
      StepTo cfg s (.reply r w) t

theorem StepTo.of_step {l : Label} (h : step cfg s l = some t) : StepTo cfg s l t := by
  cases l with
  | transcript me ev =>
      cases me with
      | stt =>
          simp only [step, Option.ite_none_right_eq_some, Option.some.injEq] at h
          obtain ⟨hidle, rfl⟩ := h
          exact .transcript rfl (fun hme => by cases hme) (Coroutine.isDone_iff.mp hidle)
      | endpoint =>
          simp only [step, Option.ite_none_right_eq_some, Option.some.injEq, Bool.and_eq_true] at h
          obtain ⟨⟨hclosed, hidle⟩, rfl⟩ := h
          exact .transcript rfl (fun _ => hclosed) (Coroutine.isDone_iff.mp hidle)
      | dispatcher => cases h
      | timer n => cases h
  | frame bytes =>
      simp only [step, Option.ite_none_right_eq_some, Option.some.injEq] at h
      obtain ⟨hidle, rfl⟩ := h
      exact .frame (Coroutine.isDone_iff.mp hidle)
  | speakText text utteranceId =>
      simp only [step, Option.ite_none_right_eq_some, Option.some.injEq, Bool.and_eq_true,
        Bool.not_eq_true'] at h
      obtain ⟨⟨hidle, hopen⟩, rfl⟩ := h
      exact .speakText hopen (Coroutine.isDone_iff.mp hidle)
  | close =>
      simp only [step, Option.ite_none_right_eq_some, Option.some.injEq, Bool.and_eq_true,
        Bool.not_eq_true'] at h
      obtain ⟨⟨hidle, hopen⟩, rfl⟩ := h
      exact .close hopen (Coroutine.isDone_iff.mp hidle)
  | handler me w =>
      simp only [step] at h
      split at h
      · cases h
      · rename_i pc cancelling hpc
        simp only [Option.ite_none_right_eq_some, Option.some.injEq, Bool.and_eq_true] at h
        obtain ⟨⟨hfits, henabled⟩, rfl⟩ := h
        exact .handler hpc hfits henabled
  | generation g w => exact .generation h
  | reply r w => exact .reply h

/-- The branches of `process_transcript_event`. -/
inductive Transcribes (cfg : Config) (me : Handler) (s : Session) (ev : TranscriptEvent) : Session → Prop
  | partialInterrupted {state : ConversationState} (htype : ev.type = .PARTIAL)
      (hstate : TurnManager.handleInterruption s.state = some state) :
      Transcribes cfg me s ev (s.interrupt cfg me state (.turn (.partialInterrupted ev)))
  | partialTurn (htype : ev.type = .PARTIAL) (hsys : s.state.isSystemSpeaking = false) :
      Transcribes cfg me s ev (s.turnStarted cfg me (TurnManager.partialTurn ev s.state))
  | turnCompleted (htype : ev.type = .FINAL) (huser : s.state.isUserSpeaking = true) :
      Transcribes cfg me s ev (s.turnCompleted cfg me (TurnManager.turnCompleted ev s.state))
  | finalInterrupted {state : ConversationState} (htype : ev.type = .FINAL)
      (huser : s.state.isUserSpeaking = false) (htext : Text.strip ev.transcript ≠ [])
      (hstate : TurnManager.handleInterruption s.state = some state) :
      Transcribes cfg me s ev (s.interrupt cfg me state (.turn (.finalInterrupted ev)))
  | finalTurn (htype : ev.type = .FINAL) (huser : s.state.isUserSpeaking = false)
      (htext : Text.strip ev.transcript ≠ []) (hsys : s.state.isSystemSpeaking = false) :
      Transcribes cfg me s ev (s.turnStarted cfg me (TurnManager.finalTurn ev s.state))
  | blank (htype : ev.type = .FINAL) (huser : s.state.isUserSpeaking = false)
      (htext : Text.strip ev.transcript = []) : Transcribes cfg me s ev (s.leave me)

theorem turnStarted_of_partialTurn (ev : TranscriptEvent) (state : ConversationState) (k : TurnManager.After) :
    (TurnManager.partialTurn ev state).2 ≠ .onUserInterrupted k := by
  unfold TurnManager.partialTurn
  split
  · simp
  · split <;> simp

theorem turnStarted_of_finalTurn (ev : TranscriptEvent) (state : ConversationState) (k : TurnManager.After) :
    (TurnManager.finalTurn ev state).2 ≠ .onUserInterrupted k := by
  unfold TurnManager.finalTurn
  split <;> simp

theorem transcribes (cfg : Config) (me : Handler) (s : Session) (ev : TranscriptEvent) :
    Transcribes cfg me s ev (s.processTranscriptEvent cfg me ev) := by
  unfold Session.processTranscriptEvent TurnManager.processTranscriptEvent
  cases htype : ev.type with
  | PARTIAL =>
      cases hint : TurnManager.handleInterruption s.state with
      | some state => exact .partialInterrupted htype hint
      | none =>
          simp only
          split
          · rename_i hk
            exact absurd hk (turnStarted_of_partialTurn ev s.state _)
          · exact .partialTurn htype (TurnManager.handleInterruption_eq_none hint)
  | FINAL =>
      by_cases huser : s.state.isUserSpeaking = true
      · simp only [huser, if_true]
        exact .turnCompleted htype huser
      · have huser' : s.state.isUserSpeaking = false := by simpa using huser
        by_cases htext : Text.strip ev.transcript = []
        · simp only [huser', htext, Bool.false_eq_true, if_false, ne_eq, not_true_eq_false]
          exact .blank htype huser' htext
        · cases hint : TurnManager.handleInterruption s.state with
          | some state =>
              simp only [huser', htext, Bool.false_eq_true, if_false, ne_eq, not_false_eq_true, if_true]
              exact .finalInterrupted htype huser' htext hint
          | none =>
              simp only [huser', htext, Bool.false_eq_true, if_false, ne_eq, not_false_eq_true, if_true]
              split
              · rename_i hk
                exact absurd hk (turnStarted_of_finalTurn ev s.state _)
              · exact .finalTurn htype huser' htext (TurnManager.handleInterruption_eq_none hint)

/-- Every task is suspended at one of its own places, the timers run only once started, and the only
tasks that are asked to cancel are timers that sleep. -/
structure Typed (s : Session) : Prop where
  runsIn : ∀ h pc, (s.handler h).pc? = some pc → pc.runsIn h = true
  unstarted : ∀ n, s.timers ≤ n → s.handler (.timer n) = .done
  task : ∀ n, s.holdTask = some n → s.handler (.timer n) = .suspended .holdSleep false
  calm : ∀ h pc, s.handler h = .suspended pc true → pc = .holdSleep

namespace Typed

theorem fresh (cfg : Config) : Typed (fresh cfg) :=
  ⟨fun _ _ h => (nomatch h), fun _ _ => rfl, fun _ h => (nomatch h), fun _ _ h => (nomatch h)⟩

theorem congr (h : Typed s) (hh : t.handler = s.handler) (htimers : t.timers = s.timers)
    (htask : t.holdTask = s.holdTask) : Typed t where
  runsIn := by rw [hh]; exact h.runsIn
  unstarted := by rw [hh, htimers]; exact h.unstarted
  task := by rw [hh, htask]; exact h.task
  calm := by rw [hh]; exact h.calm

theorem aside (h : Typed s) (ha : Aside s t) : Typed t := h.congr ha.handler ha.timers ha.holdTask

theorem emit (h : Typed s) (e : Event) : Typed (s.emit e) := h.congr rfl rfl rfl

theorem started (h : Typed s) {n : Nat} {pc : Pc} (hn : (s.handler (.timer n)).pc? = some pc) :
    n < s.timers := by
  by_contra hle
  rw [h.unstarted n (by omega)] at hn
  cases hn

/-- The task `me` runs: it is not suspended, and it is no timer that has not been started. -/
structure Runs (s : Session) (me : Handler) : Prop where
  idle : s.handler me = .done
  started : ∀ n, me = .timer n → n < s.timers

theorem Runs.of_transcribes (hr : me.transcribes = true) (hidle : s.handler me = .done) : Runs s me := by
  refine ⟨hidle, ?_⟩
  rintro n rfl
  cases hr

theorem Runs.dispatcher (hidle : s.handler .dispatcher = .done) : Runs s .dispatcher :=
  ⟨hidle, fun n hn => by cases hn⟩

theorem Runs.endpoint (hidle : s.handler .endpoint = .done) : Runs s .endpoint :=
  ⟨hidle, fun n hn => by cases hn⟩

theorem Runs.of_suspended (h : Typed s) {pc : Pc} {cancelling : Bool}
    (hpc : s.handler me = .suspended pc cancelling) : Runs (s.leave me) me := by
  refine ⟨by simp, ?_⟩
  rintro n rfl
  exact h.started (by rw [hpc, Coroutine.pc?_suspended])

/-- The task that runs is not the session's hold timer, which sleeps. -/
theorem Runs.ne_task (h : Typed s) (hme : Runs s me) {n : Nat} (hn : s.holdTask = some n) : me ≠ .timer n := by
  rintro rfl
  have hsleep := h.task n hn
  rw [hme.idle] at hsleep
  cases hsleep

theorem park (h : Typed s) (hme : Runs s me) (pc : Pc) (hpc : pc.runsIn me = true) : Typed (s.park me pc) where
  runsIn := by
    intro h' pc' hpc'
    by_cases hh : h' = me
    · subst hh
      simp only [park_handler, Function.update_self, Coroutine.await, Coroutine.pc?_suspended,
        Option.some.injEq] at hpc'
      exact hpc' ▸ hpc
    · simp only [park_handler, Function.update_of_ne hh] at hpc'
      exact h.runsIn h' pc' hpc'
  unstarted := by
    intro n hn
    have hne : Handler.timer n ≠ me := by
      rintro rfl
      exact absurd (hme.started n rfl) (by simpa using hn)
    simpa [Function.update_of_ne hne] using h.unstarted n (by simpa using hn)
  task := by
    intro n hn
    simpa [Function.update_of_ne (hme.ne_task h hn).symm] using h.task n hn
  calm := by
    intro h' pc' hpc'
    by_cases hh : h' = me
    · subst hh
      simp [Coroutine.await] at hpc'
    · exact h.calm h' pc' (by simpa [Function.update_of_ne hh] using hpc')

/-- A call that has not suspended returns. -/
theorem leave (h : Typed s) (hme : Runs s me) : Typed (s.leave me) := by
  rw [leave_of_done hme.idle]
  exact h

/-- A suspended call ends, or goes on. -/
theorem leave' (h : Typed s) (htask : ∀ n, me = .timer n → s.holdTask ≠ some n) : Typed (s.leave me) where
  runsIn := by
    intro h' pc' hpc'
    by_cases hh : h' = me
    · subst hh
      simp at hpc'
    · simp only [leave_handler, Function.update_of_ne hh] at hpc'
      exact h.runsIn h' pc' hpc'
  unstarted := by
    intro n hn
    by_cases hh : Handler.timer n = me
    · simp [hh]
    · simpa [Function.update_of_ne hh] using h.unstarted n (by simpa using hn)
  task := by
    intro n hn
    have hne : Handler.timer n ≠ me := fun heq => htask n heq.symm hn
    simpa [Function.update_of_ne hne] using h.task n hn
  calm := by
    intro h' pc hpc
    by_cases hm : h' = me
    · simp [hm] at hpc
    · exact h.calm h' pc (by simpa [Function.update_of_ne hm] using hpc)

/-- The session's timer, when it has one, is the one that is cancelled. -/
theorem cancelHoldTimer_handler (h : Typed s) (hme : Runs s me) {n : Nat} (hn : s.holdTask = some n) :
    (s.cancelHoldTimer me).handler = Function.update s.handler (.timer n) (.suspended .holdSleep true) := by
  rw [cancelHoldTimer_eq]
  simp [hn, hme.ne_task h hn, h.task n hn]

theorem cancelHoldTimer (h : Typed s) (hme : Runs s me) : Typed (s.cancelHoldTimer me) where
  runsIn h' pc hpc := h.runsIn h' pc (by simpa using hpc)
  unstarted n hn := cancelHoldTimer_handler_done (h.unstarted n (by simpa using hn))
  task := by simp
  calm := by
    intro h' pc hpc
    cases htask : s.holdTask with
    | none => exact h.calm h' pc (by simpa [cancelHoldTimer_eq, htask] using hpc)
    | some n =>
        rw [h.cancelHoldTimer_handler hme htask] at hpc
        by_cases hh : h' = .timer n
        · subst hh
          simpa [eq_comm] using hpc
        · exact h.calm h' pc (by simpa [Function.update_of_ne hh] using hpc)

theorem startHoldTimer (h : Typed s) (hme : Runs s me) : Typed (s.startHoldTimer me) := by
  have hc : Typed (s.cancelHoldTimer me) := h.cancelHoldTimer hme
  constructor
  · intro h' pc hpc
    rw [startHoldTimer_handler] at hpc
    by_cases hh : h' = .timer s.timers
    · subst hh
      simp only [Function.update_self, Coroutine.await, Coroutine.pc?_suspended, Option.some.injEq] at hpc
      subst hpc
      rfl
    · exact hc.runsIn h' pc (by simpa [Function.update_of_ne hh] using hpc)
  · intro n hn
    rw [startHoldTimer_timers] at hn
    have hne : Handler.timer n ≠ .timer s.timers := by
      intro heq
      injection heq
      omega
    rw [startHoldTimer_handler, Function.update_of_ne hne]
    exact hc.unstarted n (by simp; omega)
  · intro n hn
    rw [startHoldTimer_holdTask, Option.some.injEq] at hn
    subst hn
    simp [startHoldTimer_handler, Coroutine.await]
  · intro h' pc hpc
    rw [startHoldTimer_handler] at hpc
    by_cases hh : h' = .timer s.timers
    · subst hh
      simp [Coroutine.await] at hpc
    · exact hc.calm h' pc (by simpa [Function.update_of_ne hh] using hpc)

theorem Runs.cancelHoldTimer (hme : Runs s me) : Runs (s.cancelHoldTimer me) me :=
  ⟨cancelHoldTimer_handler_done hme.idle, by simpa using hme.started⟩

theorem Runs.startHoldTimer (hme : Runs s me) : Runs (s.startHoldTimer me) me := by
  refine ⟨?_, fun n hn => ?_⟩
  · have hne : me ≠ .timer s.timers := fun heq => absurd (hme.started _ heq) (by omega)
    rw [startHoldTimer_handler, Function.update_of_ne hne]
    exact cancelHoldTimer_handler_done hme.idle
  · have := hme.started n hn
    simp only [startHoldTimer_timers]
    omega

theorem Runs.congr (hme : Runs s me) (hh : t.handler = s.handler) (htimers : t.timers = s.timers) : Runs t me :=
  ⟨by rw [hh]; exact hme.idle, by rw [htimers]; exact hme.started⟩

theorem ttsStop (h : Typed s) (hme : Runs s me) {k : StopFor} {next : Session → Session}
    (hk : k.runsIn me = true) (hnext : Typed (next s)) : Typed (s.ttsStop me k next) := by
  unfold Session.ttsStop
  split
  · exact hnext
  · rename_i r _
    exact (h.congr (t := { s with tts := s.tts.cancel r }) rfl rfl rfl).park (hme.congr rfl rfl) _ hk

theorem replyBegun (h : Typed s) (hme : Runs s me) (turn : UserTurnCompleted) (history : List Llm.Entry)
    (ticket : Nat) : Typed (s.replyBegun me turn history ticket) := by
  unfold Session.replyBegun
  refine leave ?_ ?_
  · exact h.congr rfl rfl rfl
  · exact hme.congr rfl rfl

theorem reply (h : Typed s) (hme : Runs s me) (hr : me.replies = true) (turn : UserTurnCompleted) :
    Typed (s.reply cfg me turn) := by
  have hbegins : Typed (s.replyBegins cfg turn) := h.congr rfl rfl rfl
  have hrun : Runs (s.replyBegins cfg turn) me := hme.congr rfl rfl
  unfold Session.reply
  refine hbegins.ttsStop hrun ((runsIn_reply ..).trans hr) ?_
  exact hbegins.replyBegun hrun ..

theorem onUserTurnStarted (h : Typed s) (hme : Runs s me) : Typed (s.onUserTurnStarted me) :=
  cancelHoldTimer (s := { s with llm := s.llm.cancel }) (h.congr rfl rfl rfl) (hme.congr rfl rfl)

theorem holdTurn (h : Typed s) (hme : Runs s me) (hr : me.transcribes = true) (turn : UserTurnCompleted) :
    Typed (s.holdTurn me turn) := by
  have hheld : Typed { s with held := some turn } := h.congr rfl rfl rfl
  have hrun : Runs { s with held := some turn } me := hme.congr rfl rfl
  unfold Session.holdTurn
  refine park ?_ ?_ _ ((runsIn_turnHeld me).trans hr)
  · exact (hheld.startHoldTimer hrun).emit _
  · exact hrun.startHoldTimer.congr rfl rfl

theorem onUserTurnCompleted (h : Typed s) (hme : Runs s me) (hr : me.transcribes = true)
    (turn : UserTurnCompleted) : Typed (s.onUserTurnCompleted cfg me turn) := by
  have hheld : Typed { s with held := none } := h.congr rfl rfl rfl
  have hnone : Runs { s with held := none } me := hme.congr rfl rfl
  have hcancel : Typed ({ s with held := none }.cancelHoldTimer me) := hheld.cancelHoldTimer hnone
  have hrun := hnone.cancelHoldTimer
  unfold Session.onUserTurnCompleted
  simp only
  split
  · exact hcancel.leave hrun
  · split
    · exact hcancel.holdTurn hrun hr _
    · exact hcancel.reply hrun (Handler.replies_of_transcribes hr) _

theorem turnCompleted (h : Typed s) (hme : Runs s me) (hr : me.transcribes = true)
    (next : ConversationState × TurnManager.Next) : Typed (s.turnCompleted cfg me next) := by
  have hstate : Typed { s with state := next.1 } := h.congr rfl rfl rfl
  have hrun : Runs { s with state := next.1 } me := hme.congr rfl rfl
  unfold Session.turnCompleted
  simp only
  split
  · exact hstate.onUserTurnCompleted hrun hr _
  · exact hstate.leave hrun

theorem turnStarted (h : Typed s) (hme : Runs s me) (hr : me.transcribes = true)
    (next : ConversationState × TurnManager.Next) : Typed (s.turnStarted cfg me next) := by
  unfold Session.turnStarted
  split
  · have hstate : Typed { s with state := next.1 } := h.congr rfl rfl rfl
    have hrun : Runs { s with state := next.1, llm := s.llm.cancel } me := hme.congr rfl rfl
    exact (hstate.onUserTurnStarted (hme.congr rfl rfl)).turnCompleted hrun.cancelHoldTimer hr _
  · exact h.turnCompleted hme hr _

theorem interruptionReturned (h : Typed s) (hme : Runs s me) {k : AfterInterruption} {cut : Cut}
    (hk : (StopFor.interruption k cut).runsIn me = true) : Typed (s.interruptionReturned cfg me k cut) := by
  have hemit : Typed (s.emit (.interruptionReturned cut)) := h.emit _
  have hrun : Runs (s.emit (.interruptionReturned cut)) me := hme.congr rfl rfl
  unfold Session.interruptionReturned
  cases k with
  | turn k =>
      rw [runsIn_interruption_turn, Bool.and_eq_true] at hk
      exact hemit.turnStarted hrun hk.1 _
  | vad => exact hemit.leave hrun

theorem interrupt (h : Typed s) (hme : Runs s me) {k : AfterInterruption}
    (hk : ∀ cut, (StopFor.interruption k cut).runsIn me = true) (state : ConversationState) :
    Typed (s.interrupt cfg me state k) := by
  have hstop : Typed (({ s with state }.emit (.interruption s.cut)).stopGenerating) := h.congr rfl rfl rfl
  have hrun : Runs (({ s with state }.emit (.interruption s.cut)).stopGenerating) me := hme.congr rfl rfl
  unfold Session.interrupt Session.onUserInterrupted
  exact hstop.ttsStop hrun (hk _) (hstop.interruptionReturned hrun (hk _))

theorem processTranscriptEvent (h : Typed s) (hme : Runs s me) (hr : me.transcribes = true)
    (ev : TranscriptEvent) : Typed (s.processTranscriptEvent cfg me ev) := by
  have hk : ∀ k : TurnManager.After, k.interrupted = true →
      ∀ cut, (StopFor.interruption (.turn k) cut).runsIn me = true := by
    intro k hk cut
    rw [runsIn_interruption_turn, hr, hk, Bool.and_self]
  have hbranch := transcribes cfg me s ev
  generalize s.processTranscriptEvent cfg me ev = t at hbranch ⊢
  cases hbranch with
  | partialInterrupted => exact h.interrupt hme (hk _ rfl) _
  | partialTurn => exact h.turnStarted hme hr _
  | turnCompleted => exact h.turnCompleted hme hr _
  | finalInterrupted => exact h.interrupt hme (hk _ rfl) _
  | finalTurn => exact h.turnStarted hme hr _
  | blank => exact h.leave hme

theorem processAudioFrame (h : Typed s) (hidle : s.handler .dispatcher = .done) (frame : Bytes) :
    Typed (s.processAudioFrame cfg .dispatcher frame) := by
  unfold Session.processAudioFrame
  split
  · exact h
  · rename_i vad _
    have hvad : Typed { s with vad := some (vad.update frame).2 } := h.congr rfl rfl rfl
    have hrun : Runs { s with vad := some (vad.update frame).2 } .dispatcher := Runs.dispatcher hidle
    simp only
    split
    · split
      · exact hvad.interrupt hrun (fun _ => rfl) _
      · split
        · exact hvad.startHoldTimer hrun
        · exact hvad
    · exact hvad

theorem speakTextBegun (h : Typed s) (hme : Runs s me) (text utteranceId : Text) (ticket : Nat) :
    Typed (s.speakTextBegun me text utteranceId ticket) := by
  unfold Session.speakTextBegun
  refine leave ?_ ?_
  · exact h.congr rfl rfl rfl
  · exact hme.congr rfl rfl

theorem speakText (h : Typed s) (hme : Runs s .endpoint) (text utteranceId : Text) :
    Typed (s.speakText .endpoint text utteranceId) := by
  unfold Session.speakText
  refine ttsStop ?_ ?_ rfl (speakTextBegun ?_ ?_ ..)
  · exact h.congr rfl rfl rfl
  · exact hme.congr rfl rfl
  · exact h.congr rfl rfl rfl
  · exact hme.congr rfl rfl

theorem closeReturned (h : Typed s) (hme : Runs s me) : Typed (s.closeReturned me) := by
  refine leave ?_ ?_
  · exact h.congr rfl rfl rfl
  · exact hme.congr rfl rfl

theorem closeTts (h : Typed s) (hme : Runs s .endpoint) : Typed (s.closeTts .endpoint) :=
  h.ttsStop hme rfl (h.closeReturned hme)

theorem close (h : Typed s) (hme : Runs s .endpoint) : Typed (s.close .endpoint) := by
  have hheld : Typed { s.cancelHoldTimer .endpoint with held := none } :=
    (h.cancelHoldTimer hme).congr rfl rfl rfl
  have hrun : Runs { s.cancelHoldTimer .endpoint with held := none } .endpoint := hme.cancelHoldTimer.congr rfl rfl
  unfold Session.close
  simp only
  split
  · exact hheld.closeTts hrun
  · refine park ?_ ?_ _ rfl
    · exact hheld.congr rfl rfl rfl
    · exact hrun.congr rfl rfl

theorem stopReturned (h : Typed s) (hme : Runs s me) {k : StopFor} (hk : k.runsIn me = true) :
    Typed (s.stopReturned me k) := by
  cases k with
  | interruption k cut => exact (h.emit .bargeIn).park (hme.congr rfl rfl) (.bargeIn k cut) hk
  | reply turn history ticket => exact h.replyBegun hme ..
  | speakText text utteranceId ticket => exact h.speakTextBegun hme ..
  | close => exact h.closeReturned hme

/-- `_release_held_turn` clears `_hold_task`, so that the timer's own slot may be left. -/
theorem releaseHeldTurn (h : Typed s) {n : Nat} {cancelling : Bool}
    (hpc : s.handler (.timer n) = .suspended .holdSleep cancelling) :
    Typed ((s.leave (.timer n)).releaseHeldTurn cfg (.timer n)) := by
  have hclear : Typed { s with held := none, holdTask := none } := { h with task := by simp }
  have hleave : Typed ({ s with held := none, holdTask := none }.leave (.timer n)) := hclear.leave' (by simp)
  have hrun : Runs ({ s with held := none, holdTask := none }.leave (.timer n)) (.timer n) :=
    Runs.of_suspended hclear hpc
  unfold Session.releaseHeldTurn
  simp only
  split
  · exact hleave.reply hrun rfl _
  · exact hleave.leave hrun

/-- A suspended call goes on. -/
theorem resumeHandler (h : Typed s) {pc : Pc} {cancelling : Bool} (hpc : s.handler me = .suspended pc cancelling)
    {w : Wake Unit} (hfits : w.fits cancelling = true) (henabled : s.enabled pc w = true) :
    Typed ((s.leave me).resumeHandler cfg me pc w) := by
  have hruns : pc.runsIn me = true := h.runsIn me pc (by rw [hpc, Coroutine.pc?_suspended])
  have hrun : Runs (s.leave me) me := Runs.of_suspended h hpc
  have htask : pc ≠ .holdSleep ∨ cancelling = true → Typed (s.leave me) := by
    intro hne
    refine h.leave' (fun n hn htask => ?_)
    subst hn
    have hsleep := h.task n htask
    rw [hpc, Coroutine.suspended.injEq] at hsleep
    rcases hne with hne | hne
    · exact hne hsleep.1
    · exact absurd hsleep.2 (by simp [hne])
  unfold Session.resumeHandler
  cases w with
  | ok a =>
      cases pc with
      | stopping r hadAudio k =>
          have hl := htask (by simp)
          simp only [Session.replyStopped]
          split
          · exact (hl.emit _).park (hrun.congr rfl rfl) (.clearing k) hruns
          · exact hl.stopReturned hrun hruns
      | clearing k => exact (htask (by simp)).stopReturned hrun hruns
      | bargeIn k cut => exact (htask (by simp)).interruptionReturned hrun hruns
      | turnHeld => exact (htask (by simp)).leave hrun
      | holdSleep =>
          cases me with
          | timer n => exact h.releaseHeldTurn hpc
          | _ => cases hruns
      | closing g =>
          cases me with
          | endpoint => exact (htask (by simp)).closeTts hrun
          | _ => cases hruns
  | raised => cases henabled
  | cancelled =>
      have hl := htask (by simpa [Wake.fits] using Or.inr hfits)
      exact hl.leave hrun

/-- **Every step keeps the tasks at their own places.** -/
theorem step (h : Typed s) {l : Label} (hstep : step cfg s l = some t) : Typed t := by
  cases StepTo.of_step hstep with
  | transcript hr _ hidle => exact h.processTranscriptEvent (Runs.of_transcribes hr hidle) hr _
  | frame hidle => exact h.processAudioFrame hidle _
  | speakText _ hidle => exact h.speakText (Runs.endpoint hidle) _ _
  | close _ hidle => exact h.close (Runs.endpoint hidle)
  | handler hpc hfits henabled => exact h.resumeHandler hpc hfits henabled
  | generation hgen => exact h.aside (resumeGeneration_aside hgen)
  | reply hreply => exact h.aside (resumeReply_aside hreply)

end Typed

/-- The task `me` runs, and the next timer has not been started. -/
structure Free (s : Session) (me : Handler) : Prop where
  idle : s.handler me = .done
  timer : s.handler (.timer s.timers) = .done

theorem Typed.free (h : Typed s) (hme : s.handler me = .done) : Free s me := ⟨hme, h.unstarted s.timers le_rfl⟩

theorem Free.cancelHoldTimer (h : Free s me) : Free (s.cancelHoldTimer me) me :=
  ⟨cancelHoldTimer_handler_done h.idle, by rw [cancelHoldTimer_timers]; exact cancelHoldTimer_handler_done h.timer⟩

/-! ## Who waits in `tts.begin` -/

/-- The tasks that may be suspended in a call into the session. -/
def Session.callers (s : Session) : List Handler :=
  .stt :: .dispatcher :: .endpoint :: (List.range s.timers).map .timer

theorem Typed.mem_callers (h : Typed s) {me : Handler} {pc : Pc} (hpc : (s.handler me).pc? = some pc) :
    me ∈ s.callers := by
  cases me with
  | timer n => simpa [Session.callers] using h.started hpc
  | _ => simp [Session.callers]

/-- The call of `tts.begin` that awaits `stop`. -/
def StopFor.ticket? : StopFor → Option Nat
  | .reply _ _ ticket | .speakText _ _ ticket => some ticket
  | _ => none

def StopFor.isReply : StopFor → Bool
  | .reply _ _ _ => true
  | _ => false

def StopFor.isBegin : StopFor → Bool
  | .reply _ _ _ | .speakText _ _ _ => true
  | _ => false

/-- `stop`, and the call that awaits it. -/
def Pc.stop? : Pc → Option StopFor
  | .stopping _ _ k | .clearing k => some k
  | _ => none

/-- In `stop` called by `tts.begin` called by `_reply`. -/
def Pc.inReply (pc : Pc) : Bool := pc.stop?.any StopFor.isReply

/-- A call of `_reply` waits in `tts.begin`. -/
def Session.replyWaits (s : Session) : Bool := s.callers.any fun h => (s.handler h).pc?.any Pc.inReply

/-- No call of `_reply` waits in `tts.begin`. -/
def NoReply (s : Session) : Prop := ∀ me pc, (s.handler me).pc? = some pc → pc.inReply = false

theorem Typed.noReply (h : Typed s) (hw : s.replyWaits = false) : NoReply s := by
  intro me pc hpc
  have hnot := List.any_eq_false.mp hw me (h.mem_callers hpc)
  simpa [hpc] using hnot

theorem NoReply.leave (h : NoReply s) (me : Handler) : NoReply (s.leave me) := by
  intro h' pc hpc
  by_cases hm : h' = me
  · simp [hm] at hpc
  · exact h h' pc (by simpa [Function.update_of_ne hm] using hpc)

theorem NoReply.cancelHoldTimer (h : NoReply s) (me : Handler) : NoReply (s.cancelHoldTimer me) :=
  fun h' pc hpc => h h' pc (by simpa using hpc)

/-! ## Which steps call `_reply` -/

/-- The frame is the onset of speech for the session's `EnergyVAD`. -/
def Session.onset (s : Session) (bytes : Bytes) : Bool := s.vad.any fun vad => (vad.update bytes).1

def Label.usesSpeakText : Label → Bool
  | .speakText _ _ => true
  | _ => false

/-- The complete turn is answered at once. -/
def Session.answers (cfg : Config) (s : Session) (turn : UserTurnCompleted) : Bool :=
  (s.continued turn).2 ≠ [] && !unfinished cfg (s.continued turn).2

theorem answers_congr (h : t.held = s.held) (turn : UserTurnCompleted) :
    t.answers cfg turn = s.answers cfg turn := by
  have hcontinued : t.continued turn = s.continued turn := by
    unfold Session.continued
    rw [h]
  rw [Session.answers, hcontinued, Session.answers]

/-- The step calls `_reply`. -/
def Session.callsReply (cfg : Config) (s : Session) : Label → Bool
  | .transcript _ ev =>
    ev.type = .FINAL && s.answers cfg ⟨ev.utteranceId, ev.transcript⟩ &&
      (s.state.isUserSpeaking ||
        (Text.strip ev.transcript ≠ [] && Text.isUuid ev.utteranceId &&
          (!s.state.isSystemSpeaking || s.tts.active.isNone)))
  | .handler h (.ok _) =>
    match s.handler h with
    | .suspended (.bargeIn (.turn (.finalInterrupted ev)) _) _ =>
      Text.isUuid ev.utteranceId && s.answers cfg ⟨ev.utteranceId, ev.transcript⟩
    | .suspended .holdSleep _ => s.held.isSome
    | _ => false
  | _ => false

end Voxera.Voice
