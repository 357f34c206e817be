import Voxera.Voice.HeldTurn
import Voxera.Voice.Tasks
import Voxera.Voice.Steps

/-!
# `close` is final

What the calls into the session do is made of a few pieces (`Does`). Two of them start work: a hold timer
is started, a reply or a generation is created. Once `close` has been called the pieces that are left only
end work, and when `close` returns it has waited for the current generation and the current reply.

* `Does me holding opening s t` : a call by `me` makes `t` of `s`; it starts a hold timer only when `holding`, and a
  reply or a generation only when `opening`;
* `EndsWork` : what the steps must respect once `close` has been called;
* `Closing` : the invariant.
-/

namespace Voxera.Voice

open EventLoop
open Session

variable {cfg : Config} {me : Handler} {s t u : Session} {holding opening holding' opening' : Prop}

/-- A suspension point of `close`. -/
def Pc.inClose : Pc → Bool
  | .stopping _ _ .close | .clearing .close | .closing _ => true
  | _ => false

/-! ## The pieces of a call -/

inductive Does (me : Handler) (holding opening : Prop) : Session → Session → Prop
  /-- Items are put on queues, events are sent, and the turn, the history and the timing change. -/
  | same {s t : Session} (hllm : t.llm = s.llm) (hcurrent : t.tts.current = s.tts.current)
      (hcount : t.tts.count = s.tts.count) (htask : t.tts.task = s.tts.task) (hheld : t.held = s.held)
      (hholdTask : t.holdTask = s.holdTask) (htimers : t.timers = s.timers) (hclosed : t.closed = s.closed)
      (hhandler : t.handler = s.handler) : Does me holding opening s t
  | trans {s t u : Session} (h : Does me holding opening s t) (h' : Does me holding opening t u) : Does me holding opening s u
  | release (s : Session) : Does me holding opening s { s with held := none }
  | hold (s : Session) (h : holding) (turn : UserTurnCompleted) : Does me holding opening s { s with held := some turn }
  | cancelHoldTimer {s : Session} (hidle : s.handler me = .done) : Does me holding opening s (s.cancelHoldTimer me)
  | startHoldTimer {s : Session} (h : holding) (hidle : s.handler me = .done) : Does me holding opening s (s.startHoldTimer me)
  /-- The session's hold timer has run out. -/
  | timeout {s : Session} {n : Nat} (hme : me = .timer n) (hn : s.holdTask = some n) :
      Does me holding opening s { s.leave me with holdTask := none }
  | cancelGeneration (s : Session) : Does me holding opening s { s with llm := s.llm.cancel }
  | cancelReply (s : Session) (r : Nat) : Does me holding opening s { s with tts := s.tts.cancel r }
  | openReply (s : Session) (h : opening) (utteranceId : Text) :
      Does me holding opening s { s with tts := s.tts.openReply utteranceId }
  | startGeneration (s : Session) (h : opening) (prompt utteranceId : Text) (history : List Llm.Entry) :
      Does me holding opening s { s with llm := s.llm.startGeneration prompt utteranceId history }
  | park (s : Session) {pc : Pc} (hsleep : pc ≠ .holdSleep) (hclose : pc.inClose = false) :
      Does me holding opening s (s.park me pc)
  | leave (s : Session) : Does me holding opening s (s.leave me)

namespace Does

theorem refl (s : Session) : Does me holding opening s s := .same rfl rfl rfl rfl rfl rfl rfl rfl rfl

theorem emit (s : Session) (e : Event) : Does me holding opening s (s.emit e) := .same rfl rfl rfl rfl rfl rfl rfl rfl rfl

theorem mono (h : Does me holding opening s t) (hholding : holding → holding') (hopening : opening → opening') : Does me holding' opening' s t := by
  induction h with
  | same hllm hcurrent hcount htask hheld hholdTask htimers hclosed hhandler =>
      exact .same hllm hcurrent hcount htask hheld hholdTask htimers hclosed hhandler
  | trans _ _ ih ih' => exact .trans ih ih'
  | release s => exact .release s
  | hold s h turn => exact .hold s (hholding h) turn
  | cancelHoldTimer hidle => exact .cancelHoldTimer hidle
  | startHoldTimer h hidle => exact .startHoldTimer (hholding h) hidle
  | timeout hme hn => exact .timeout hme hn
  | cancelGeneration s => exact .cancelGeneration s
  | cancelReply s r => exact .cancelReply s r
  | openReply s h utteranceId => exact .openReply s (hopening h) utteranceId
  | startGeneration s h prompt utteranceId history => exact .startGeneration s (hopening h) prompt utteranceId history
  | park s hsleep hclose => exact .park s hsleep hclose
  | leave s => exact .leave s

theorem ttsStop (s : Session) {k : StopFor} (hk : k ≠ .close) {next : Session → Session}
    (hnext : Does me holding opening s (next s)) : Does me holding opening s (s.ttsStop me k next) := by
  unfold Session.ttsStop
  split
  · exact hnext
  · rename_i r _
    refine .trans (.cancelReply s r) (.park _ (fun hpc => nomatch hpc) ?_)
    cases k with
    | close => exact absurd rfl hk
    | _ => rfl

theorem replyBegun (s : Session) (h : opening) (turn : UserTurnCompleted) (history : List Llm.Entry) (ticket : Nat) :
    Does me holding opening s (s.replyBegun me turn history ticket) := by
  have hopened : Does me holding opening s
      ({ s with tts := s.tts.openReply turn.utteranceId }.emit (.opened ticket s.tts.count)) :=
    .trans (.openReply s h turn.utteranceId) (.emit _ _)
  unfold Session.replyBegun
  exact .trans (.trans (.trans hopened (.emit _ _)) (.startGeneration _ h _ _ _)) (.leave _)

theorem reply (s : Session) (h : opening) (turn : UserTurnCompleted) : Does me holding opening s (s.reply cfg me turn) := by
  have hbegins : Does me holding opening s (s.replyBegins cfg turn) := .same rfl rfl rfl rfl rfl rfl rfl rfl rfl
  have hstop : Does me holding opening (s.replyBegins cfg turn) ((s.replyBegins cfg turn).ttsStop me
      (.reply turn s.history s.begun) (fun s' => s'.replyBegun me turn s.history s.begun)) :=
    .ttsStop _ (by simp) (.replyBegun _ h ..)
  exact .trans hbegins hstop

theorem onUserTurnStarted (hidle : s.handler me = .done) : Does me holding opening s (s.onUserTurnStarted me) := by
  unfold Session.onUserTurnStarted
  exact .trans (.cancelGeneration s) (.cancelHoldTimer hidle)

theorem holdTurn (hidle : s.handler me = .done) (h : holding) (turn : UserTurnCompleted) :
    Does me holding opening s (s.holdTurn me turn) := by
  have hstarted : Does me holding opening s ({ s with held := some turn }.startHoldTimer me) :=
    .trans (.hold s h turn) (.startHoldTimer h hidle)
  unfold Session.holdTurn
  exact .trans (.trans hstarted (.emit _ _)) (.park _ (fun hpc => nomatch hpc) rfl)

end Does

/-- The complete turn is held. -/
def Session.holds (cfg : Config) (s : Session) (turn : UserTurnCompleted) : Bool :=
  (s.continued turn).2 ≠ [] && unfinished cfg (s.continued turn).2

theorem holds_congr (h : t.held = s.held) (turn : UserTurnCompleted) : t.holds cfg turn = s.holds cfg turn := by
  have hcontinued : t.continued turn = s.continued turn := by
    unfold Session.continued
    rw [h]
  rw [Session.holds, hcontinued, Session.holds]

namespace Does

theorem onUserTurnCompleted (hidle : s.handler me = .done) (turn : UserTurnCompleted) :
    Does me (s.holds cfg turn = true) (s.answers cfg turn = true) s (s.onUserTurnCompleted cfg me turn) := by
  have hreleased : Does me (s.holds cfg turn = true) (s.answers cfg turn = true) s
      ({ s with held := none }.cancelHoldTimer me) := .trans (.release s) (.cancelHoldTimer hidle)
  have hidle' : ({ s with held := none }.cancelHoldTimer me).handler me = .done :=
    cancelHoldTimer_handler_done (s := { s with held := none }) hidle
  unfold Session.onUserTurnCompleted
  simp only
  split
  · exact hreleased.trans (.leave _)
  · rename_i htext
    split
    · rename_i hunfinished
      exact hreleased.trans (.holdTurn hidle' (by simp [Session.holds, htext, hunfinished]) _)
    · rename_i hfinished
      exact hreleased.trans (.reply _ (by simp [Session.answers, htext, hfinished]) _)

theorem turnCompleted (hidle : s.handler me = .done) (ev : TranscriptEvent) :
    Does me (s.holds cfg ⟨ev.utteranceId, ev.transcript⟩ = true) (s.answers cfg ⟨ev.utteranceId, ev.transcript⟩ = true) s
      (s.turnCompleted cfg me (TurnManager.turnCompleted ev s.state)) := by
  have hstate : Does me (s.holds cfg ⟨ev.utteranceId, ev.transcript⟩ = true)
      (s.answers cfg ⟨ev.utteranceId, ev.transcript⟩ = true) s { s with state := s.state.completeUserTurn } :=
    .same rfl rfl rfl rfl rfl rfl rfl rfl rfl
  exact hstate.trans (onUserTurnCompleted (s := { s with state := s.state.completeUserTurn }) hidle
    ⟨ev.utteranceId, ev.transcript⟩)

theorem userTurnStarted (hidle : s.handler me = .done) (state : ConversationState) :
    Does me holding opening s ({ s with state }.onUserTurnStarted me) := by
  have hstate : Does me holding opening s { s with state } := .same rfl rfl rfl rfl rfl rfl rfl rfl rfl
  exact hstate.trans (.onUserTurnStarted (s := { s with state }) hidle)

theorem partialTurn (hidle : s.handler me = .done) (ev : TranscriptEvent) :
    Does me holding opening s (s.turnStarted cfg me (TurnManager.partialTurn ev s.state)) := by
  unfold TurnManager.partialTurn
  split
  · exact .trans (.same rfl rfl rfl rfl rfl rfl rfl rfl rfl) (.leave _)
  · split
    · rename_i state hstart
      exact .trans (.userTurnStarted hidle state) (.trans (.same rfl rfl rfl rfl rfl rfl rfl rfl rfl) (.leave _))
    · exact .trans (.same rfl rfl rfl rfl rfl rfl rfl rfl rfl) (.leave _)

theorem finalTurn (hidle : s.handler me = .done) (ev : TranscriptEvent) :
    Does me (Text.isUuid ev.utteranceId = true ∧ s.holds cfg ⟨ev.utteranceId, ev.transcript⟩ = true)
      (Text.isUuid ev.utteranceId = true ∧ s.answers cfg ⟨ev.utteranceId, ev.transcript⟩ = true) s
      (s.turnStarted cfg me (TurnManager.finalTurn ev s.state)) := by
  unfold TurnManager.finalTurn
  split
  · rename_i state hstart
    have hid := ConversationState.isUuid_of_startUserTurn hstart
    have hidle' : ({ s with state }.onUserTurnStarted me).handler me = .done :=
      cancelHoldTimer_handler_done (s := { s with state, llm := s.llm.cancel }) hidle
    have hheld : ({ s with state }.onUserTurnStarted me).held = s.held := by simp [Session.onUserTurnStarted]
    refine .trans (.userTurnStarted hidle state) (mono (turnCompleted hidle' ev) (fun h => ?_) (fun h => ?_))
    · exact ⟨hid, holds_congr hheld _ ▸ h⟩
    · exact ⟨hid, answers_congr hheld _ ▸ h⟩
  · exact .trans (.same rfl rfl rfl rfl rfl rfl rfl rfl rfl) (.leave _)

/-- `handle_interruption` returns. -/
theorem interruptionReturned (hidle : s.handler me = .done) {k : AfterInterruption}
    (hk : ∀ k', k = .turn k' → k'.interrupted = true) (cut : Cut) :
    Does me
      (∃ ev, k = .turn (.finalInterrupted ev) ∧ Text.isUuid ev.utteranceId = true ∧
        s.holds cfg ⟨ev.utteranceId, ev.transcript⟩ = true)
      (∃ ev, k = .turn (.finalInterrupted ev) ∧ Text.isUuid ev.utteranceId = true ∧
        s.answers cfg ⟨ev.utteranceId, ev.transcript⟩ = true) s
      (s.interruptionReturned cfg me k cut) := by
  have hidle' : (s.emit (.interruptionReturned cut)).handler me = .done := hidle
  refine .trans (.emit s (.interruptionReturned cut)) ?_
  cases k with
  | vad => exact .leave _
  | turn k =>
      cases k with
      | partialInterrupted ev => exact .partialTurn hidle' ev
      | finalInterrupted ev =>
          exact mono (finalTurn hidle' ev) (fun h => ⟨ev, rfl, h.1, h.2⟩) (fun h => ⟨ev, rfl, h.1, h.2⟩)
      | _ => cases hk _ rfl

theorem interrupt (s : Session) (state : ConversationState) {k : AfterInterruption} {cut : Cut}
    (hreturned : s.tts.active = none →
      Does me holding opening (s.interrupted state) ((s.interrupted state).interruptionReturned cfg me k cut))
    (hcut : cut = s.cut) : Does me holding opening s (s.interrupt cfg me state k) := by
  have hstate : Does me holding opening s ({ s with state }.emit (.interruption s.cut)) :=
    .same rfl rfl rfl rfl rfl rfl rfl rfl rfl
  have hcancelled : Does me holding opening ({ s with state }.emit (.interruption s.cut)) (s.interrupted state) :=
    .trans (.cancelGeneration _) (.same rfl rfl rfl rfl rfl rfl rfl rfl rfl)
  unfold Session.interrupt Session.onUserInterrupted
  refine .trans (hstate.trans hcancelled) ?_
  show Does me holding opening (s.interrupted state) ((s.interrupted state).ttsStop me (.interruption k s.cut)
    (fun s' => s'.interruptionReturned cfg me k s.cut))
  unfold Session.ttsStop
  split
  · rename_i hactive
    exact hcut ▸ hreturned hactive
  · exact .trans (.cancelReply _ _) (.park _ (fun hpc => nomatch hpc) rfl)

end Does

/-! ## Which steps start work -/

/-- The step hands this turn to `on_user_turn_completed`. -/
def Session.completes (s : Session) : Label → Option UserTurnCompleted
  | .transcript _ ev =>
    if ev.type = .FINAL && (s.state.isUserSpeaking || (Text.strip ev.transcript ≠ [] && Text.isUuid ev.utteranceId &&
        (!s.state.isSystemSpeaking || s.tts.active.isNone))) then some ⟨ev.utteranceId, ev.transcript⟩
    else none
  | .handler h (.ok _) =>
    match s.handler h with
    | .suspended (.bargeIn (.turn (.finalInterrupted ev)) _) _ =>
      if Text.isUuid ev.utteranceId then some ⟨ev.utteranceId, ev.transcript⟩ else none
    | _ => none
  | _ => none

/-- The step starts a hold timer. -/
def Session.startsTimer (cfg : Config) (s : Session) (l : Label) : Bool :=
  (s.completes l).any (s.holds cfg) ||
    match l with
    | .frame bytes => s.onset bytes && !s.state.isSystemSpeaking && s.held.isSome
    | _ => false

/-- The step calls `_reply` or `speak_text`, or `tts.begin` goes on in it after it has waited. -/
def Session.startsWork (cfg : Config) (s : Session) (l : Label) : Bool :=
  s.callsReply cfg l ||
    match l with
    | .speakText _ _ => true
    | .handler h (.ok _) =>
      match s.handler h with
      | .suspended (.stopping _ false k) _ | .suspended (.clearing k) _ => k.isBegin
      | _ => false
    | _ => false

namespace Does

theorem transcript (hidle : s.handler me = .done) (ev : TranscriptEvent) :
    Does me (s.startsTimer cfg (.transcript me ev) = true) (s.startsWork cfg (.transcript me ev) = true) s
      (s.processTranscriptEvent cfg me ev) := by
  have hbranch := transcribes cfg me s ev
  generalize s.processTranscriptEvent cfg me ev = t at hbranch ⊢
  cases hbranch with
  | @partialInterrupted state htype hstate =>
      refine interrupt s state (fun hactive => mono (.interruptionReturned (s := s.interrupted state) hidle ?_ s.cut) ?_ ?_) rfl
      · rintro k' ⟨⟩
        rfl
      · rintro ⟨ev', ⟨⟩, -⟩
      · rintro ⟨ev', ⟨⟩, -⟩
  | partialTurn htype hsys => exact .partialTurn hidle ev
  | turnCompleted htype huser =>
      refine mono (.turnCompleted hidle ev) (fun h => ?_) (fun h => ?_)
      · simp [Session.startsTimer, Session.completes, htype, huser, h]
      · simp [Session.startsWork, Session.callsReply, htype, huser, h]
  | @finalInterrupted state htype huser htext hstate =>
      have hsys := (TurnManager.handleInterruption_eq_some hstate).1
      refine interrupt s state (fun hactive => mono (.interruptionReturned (s := s.interrupted state) hidle ?_ s.cut) ?_ ?_) rfl
      · rintro k' ⟨⟩
        rfl
      · rintro ⟨ev', ⟨⟩, hid, h⟩
        have hholds : s.holds cfg ⟨ev.utteranceId, ev.transcript⟩ = true := h
        have hnone : s.tts.active = none := hactive
        simp [Session.startsTimer, Session.completes, htype, htext, hid, hholds, hnone]
      · rintro ⟨ev', ⟨⟩, hid, h⟩
        have hanswers : s.answers cfg ⟨ev.utteranceId, ev.transcript⟩ = true := h
        have hnone : s.tts.active = none := hactive
        simp [Session.startsWork, Session.callsReply, htype, htext, hid, hanswers, hnone]
  | finalTurn htype huser htext hsys =>
      refine mono (.finalTurn hidle ev) (fun h => ?_) (fun h => ?_)
      · simp [Session.startsTimer, Session.completes, htype, htext, hsys, h]
      · simp [Session.startsWork, Session.callsReply, htype, htext, hsys, h]
  | blank htype huser htext => exact .leave s

theorem frame (hidle : s.handler .dispatcher = .done) (bytes : Bytes) :
    Does .dispatcher (s.startsTimer cfg (.frame bytes) = true) (s.startsWork cfg (.frame bytes) = true) s
      (s.processAudioFrame cfg .dispatcher bytes) := by
  unfold Session.processAudioFrame
  split
  · exact .refl s
  · rename_i vad hvad
    have hupdated : ∀ holding opening, Does .dispatcher holding opening s { s with vad := some (vad.update bytes).2 } :=
      fun _ _ => .same rfl rfl rfl rfl rfl rfl rfl rfl rfl
    simp only
    split
    · rename_i honset
      cases hstate : TurnManager.handleInterruption s.state with
      | some state =>
          simp only
          refine (hupdated _ _).trans (.interrupt _ state (fun hactive => mono
            (.interruptionReturned (s := { s with vad := some (vad.update bytes).2 }.interrupted state) hidle ?_ s.cut) ?_ ?_) rfl)
          · rintro k' ⟨⟩
          · rintro ⟨ev', ⟨⟩, -⟩
          · rintro ⟨ev', ⟨⟩, -⟩
      | none =>
          have hsys := TurnManager.handleInterruption_eq_none hstate
          simp only
          split
          · rename_i hheld
            refine (hupdated _ _).trans (.startHoldTimer ?_ hidle)
            simp [Session.startsTimer, Session.onset, hvad, honset, hsys, hheld]
          · exact hupdated _ _
    · exact hupdated _ _

theorem speakTextBegun (s : Session) (h : opening) (text utteranceId : Text) (ticket : Nat) :
    Does me holding opening s (s.speakTextBegun me text utteranceId ticket) := by
  have hspeak := Tts.Consumer.speak_snd (s.tts.openReply utteranceId) text
  have hfinish := Tts.Consumer.finish_snd ((s.tts.openReply utteranceId).speak text).2
  have hopened : Does me holding opening s { s with tts := s.tts.openReply utteranceId } := .openReply s h utteranceId
  unfold Session.speakTextBegun
  refine hopened.trans (.trans (.same ?_ ?_ ?_ ?_ ?_ ?_ ?_ ?_ ?_) (.leave _))
  · rfl
  · exact hfinish.1.trans hspeak.1
  · exact hfinish.2.1.trans hspeak.2.1
  · exact hfinish.2.2.1.trans hspeak.2.2.1
  all_goals rfl

theorem speakText (s : Session) (h : opening) (text utteranceId : Text) :
    Does me holding opening s (s.speakText me text utteranceId) := by
  have hbegins : Does me holding opening s
      ({ s with timing := none, state := s.state.startSystemTurn, begun := s.begun + 1 }.emit
        (.begin s.begun s.state.startSystemTurn.isUserSpeaking)) := .same rfl rfl rfl rfl rfl rfl rfl rfl rfl
  unfold Session.speakText
  exact hbegins.trans (.ttsStop _ (by simp) (.speakTextBegun _ h ..))

theorem stopReturned (s : Session) {k : StopFor} (hk : k ≠ .close) (h : k.isBegin = true → opening) :
    Does me holding opening s (s.stopReturned me k) := by
  cases k with
  | interruption k cut => exact .trans (.emit s .bargeIn) (.park _ (fun hpc => nomatch hpc) rfl)
  | reply turn history ticket => exact .replyBegun s (h rfl) ..
  | speakText text utteranceId ticket => exact .speakTextBegun s (h rfl) ..
  | close => exact absurd rfl hk

/-- A suspended call goes on, other than `close`. -/
theorem handler (ht : Typed s) (htimer : ∀ n, s.timerRuns n → s.holdTask = some n) {pc : Pc} {cancelling : Bool} {w : Wake Unit}
    (hpc : s.handler me = .suspended pc cancelling) (hfits : w.fits cancelling = true) (henabled : s.enabled pc w = true)
    (hclose : pc.inClose = false) :
    Does me (s.startsTimer cfg (.handler me w) = true) (s.startsWork cfg (.handler me w) = true) s
      ((s.leave me).resumeHandler cfg me pc w) := by
  have hruns : pc.runsIn me = true := ht.runsIn me pc (by rw [hpc, Coroutine.pc?_suspended])
  have hidle : (s.leave me).handler me = .done := by simp
  have hne : ∀ k, pc.stop? = some k → k ≠ .close := by
    rintro k hk rfl
    cases pc <;> cases hk <;> cases hclose
  unfold Session.resumeHandler
  cases w with
  | ok a =>
      cases pc with
      | stopping r hadAudio k =>
          cases hadAudio with
          | true =>
              have hk : (Pc.clearing k).inClose = false := by
                cases k with
                | close => exact absurd rfl (hne _ rfl)
                | _ => rfl
              exact .trans (.leave s) (.trans (.emit _ _) (.park _ (fun hpc => nomatch hpc) hk))
          | false =>
              refine .trans (.leave s) (.stopReturned _ (hne k rfl) (fun hk => ?_))
              simp [Session.startsWork, hpc, hk]
      | clearing k =>
          refine .trans (.leave s) (.stopReturned _ (hne k rfl) (fun hk => ?_))
          simp [Session.startsWork, hpc, hk]
      | bargeIn k cut =>
          refine .trans (.leave s) (mono (.interruptionReturned hidle ?_ cut) ?_ ?_)
          · rintro k' rfl
            have hk : (StopFor.interruption (.turn k') cut).runsIn me = true := hruns
            rw [runsIn_interruption_turn, Bool.and_eq_true] at hk
            exact hk.2
          · rintro ⟨ev, rfl, hid, h⟩
            have hholds : s.holds cfg ⟨ev.utteranceId, ev.transcript⟩ = true := h
            simp [Session.startsTimer, Session.completes, hpc, hid, hholds]
          · rintro ⟨ev, rfl, hid, h⟩
            have hanswers : s.answers cfg ⟨ev.utteranceId, ev.transcript⟩ = true := h
            simp [Session.startsWork, Session.callsReply, hpc, hid, hanswers]
      | turnHeld => exact .trans (.leave s) (.leave _)
      | holdSleep =>
          have hcancelling : cancelling = false := by simpa [Wake.fits] using hfits
          subst hcancelling
          cases me with
          | timer n =>
              have hfired : ∀ holding opening, Does (.timer n) holding opening s
                  { s.leave (.timer n) with held := none, holdTask := none } :=
                fun _ _ => .trans (.timeout rfl (htimer n hpc)) (.release _)
              unfold Session.releaseHeldTurn
              simp only
              split
              · rename_i turn hheld
                have hheld' : s.held = some turn := hheld
                refine (hfired _ _).trans (.reply _ ?_ turn)
                simp [Session.startsWork, Session.callsReply, hpc, hheld']
              · exact (hfired _ _).trans (.leave _)
          | _ => cases hruns
      | closing g => cases hclose
  | raised => cases henabled
  | cancelled => exact .trans (.leave s) (.leave _)

end Does

/-! ## What the pieces leave alone -/

/-- The hold timer that runs is the session's, and no task runs that has not been created. -/
structure Owned (s : Session) : Prop where
  timer : ∀ n, s.timerRuns n → s.holdTask = some n
  generation : ∀ g, s.llm.count ≤ g → s.llm.task g = .done
  reply : ∀ r, s.tts.count ≤ r → s.tts.task r = .done

/-- Nothing is started: tasks may end, and the hold timer may be cancelled. -/
structure Rests (s t : Session) : Prop where
  llmCount : t.llm.count = s.llm.count
  llmCurrent : t.llm.current = s.llm.current
  generation : ∀ g, (s.llm.task g).isDone = true → (t.llm.task g).isDone = true
  ttsCount : t.tts.count = s.tts.count
  ttsCurrent : t.tts.current = s.tts.current
  reply : ∀ r, (s.tts.task r).isDone = true → (t.tts.task r).isDone = true
  timers : t.timers = s.timers
  timerRuns : ∀ n, t.timerRuns n → s.timerRuns n
  holdTask : t.holdTask = s.holdTask ∨ t.holdTask = none
  held : t.held = s.held ∨ t.held = none

namespace Rests

theorem trans (h : Rests s t) (h' : Rests t u) : Rests s u where
  llmCount := h'.llmCount.trans h.llmCount
  llmCurrent := h'.llmCurrent.trans h.llmCurrent
  generation g hg := h'.generation g (h.generation g hg)
  ttsCount := h'.ttsCount.trans h.ttsCount
  ttsCurrent := h'.ttsCurrent.trans h.ttsCurrent
  reply r hr := h'.reply r (h.reply r hr)
  timers := h'.timers.trans h.timers
  timerRuns n hn := h.timerRuns n (h'.timerRuns n hn)
  holdTask := by
    rcases h'.holdTask with ht | ht
    · rw [ht]
      exact h.holdTask
    · exact Or.inr ht
  held := by
    rcases h'.held with ht | ht
    · rw [ht]
      exact h.held
    · exact Or.inr ht

/-- The consumers are left alone. -/
theorem of_consumers (hllm : t.llm = s.llm) (htts : t.tts = s.tts) (htimers : t.timers = s.timers)
    (hruns : ∀ n, t.timerRuns n → s.timerRuns n) (hholdTask : t.holdTask = s.holdTask ∨ t.holdTask = none)
    (hheld : t.held = s.held ∨ t.held = none) : Rests s t :=
  ⟨by rw [hllm], by rw [hllm], fun g hg => by rwa [hllm], by rw [htts], by rw [htts], fun r hr => by rwa [htts], htimers, hruns,
    hholdTask, hheld⟩

theorem refl (s : Session) : Rests s s := of_consumers rfl rfl rfl (fun _ hn => hn) (Or.inl rfl) (Or.inl rfl)

/-- A consumer whose current task is done is not active. -/
theorem llmActive (h : Rests s t) (hactive : s.llm.active = none) : t.llm.active = none := by
  by_contra hsome
  obtain ⟨g, hg⟩ := Option.ne_none_iff_exists'.mp hsome
  obtain ⟨hcurrent, halive⟩ := Llm.Consumer.active_eq_some.mp hg
  rw [h.llmCurrent] at hcurrent
  have hdone : (s.llm.task g).isDone = true := by
    by_contra hnot
    simp [Llm.Consumer.active_eq_some.mpr ⟨hcurrent, by simpa using hnot⟩] at hactive
  rw [h.generation g hdone] at halive
  cases halive

theorem ttsActive (h : Rests s t) (hactive : s.tts.active = none) : t.tts.active = none := by
  by_contra hsome
  obtain ⟨r, hr⟩ := Option.ne_none_iff_exists'.mp hsome
  obtain ⟨hcurrent, halive⟩ := Tts.Consumer.active_eq_some.mp hr
  rw [h.ttsCurrent] at hcurrent
  have hdone : (s.tts.task r).isDone = true := by
    by_contra hnot
    simp [Tts.Consumer.active_eq_some.mpr ⟨hcurrent, by simpa using hnot⟩] at hactive
  rw [h.reply r hdone] at halive
  cases halive

end Rests

theorem timerRuns_of_update {c : Coroutine Pc} (hc : c ≠ .suspended .holdSleep false)
    (hhandler : t.handler = Function.update s.handler me c) {n : Nat} (hn : t.timerRuns n) : me ≠ .timer n ∧ s.timerRuns n := by
  unfold Session.timerRuns at *
  rw [hhandler] at hn
  by_cases heq : Handler.timer n = me
  · rw [heq, Function.update_self] at hn
    exact absurd hn hc
  · rw [Function.update_of_ne heq] at hn
    exact ⟨fun h => heq h.symm, hn⟩

theorem isDone_update_cancel {κ : Type*} (task : Nat → Coroutine κ) (r r' : Nat) :
    (Function.update task r (task r).cancel r').isDone = (task r').isDone := by
  by_cases heq : r' = r
  · rw [heq, Function.update_self, Coroutine.isDone_cancel]
  · rw [Function.update_of_ne heq]

namespace Does

/-- A call that starts nothing. -/
theorem rests (h : Does me holding opening s t) (hholding : ¬ holding) (hopening : ¬ opening) : Rests s t := by
  induction h with
  | same hllm hcurrent hcount htask hheld hholdTask htimers hclosed hhandler =>
      refine ⟨by rw [hllm], by rw [hllm], fun g hg => by rwa [hllm], hcount, hcurrent, fun r hr => by rwa [htask], htimers,
        fun n hn => ?_, Or.inl hholdTask, Or.inl hheld⟩
      rwa [Session.timerRuns, hhandler] at hn
  | trans _ _ ih ih' => exact ih.trans ih'
  | release s => exact .of_consumers rfl rfl rfl (fun _ hn => hn) (Or.inl rfl) (Or.inr rfl)
  | hold s h turn => exact absurd h hholding
  | cancelHoldTimer hidle =>
      refine .of_consumers (by simp) (by simp) (by simp) (fun n hn => ?_) (Or.inr (by simp)) (Or.inl (by simp))
      exact (Listening.timerRuns_of_cancelHoldTimer hn).1
  | startHoldTimer h hidle => exact absurd h hholding
  | timeout hme hn =>
      refine .of_consumers rfl rfl rfl (fun n hn => ?_) (Or.inr rfl) (Or.inl rfl)
      exact (timerRuns_of_update (c := .done) (by simp) rfl hn).2
  | cancelGeneration s =>
      refine ⟨by simp, by simp, fun g hg => by simpa using hg, rfl, rfl, fun _ hr => hr, rfl, fun _ hn => hn, Or.inl rfl, Or.inl rfl⟩
  | cancelReply s r =>
      refine ⟨rfl, rfl, fun _ hg => hg, rfl, rfl, fun r' hr => ?_, rfl, fun _ hn => hn, Or.inl rfl, Or.inl rfl⟩
      exact (isDone_update_cancel s.tts.task r r').trans hr
  | openReply s h => exact absurd h hopening
  | startGeneration s h => exact absurd h hopening
  | @park s pc hsleep hclose =>
      refine .of_consumers rfl rfl rfl (fun n hn => ?_) (Or.inl rfl) (Or.inl rfl)
      refine (timerRuns_of_update (c := .await pc) (fun h => ?_) rfl hn).2
      cases h
      exact hsleep rfl
  | leave s =>
      refine .of_consumers rfl rfl rfl (fun n hn => ?_) (Or.inl rfl) (Or.inl rfl)
      exact (timerRuns_of_update (c := .done) (by simp) rfl hn).2

theorem closed (h : Does me holding opening s t) : t.closed = s.closed := by
  induction h with
  | same _ _ _ _ _ _ _ hclosed _ => exact hclosed
  | trans _ _ ih ih' => exact ih'.trans ih
  | cancelHoldTimer => simp
  | startHoldTimer => simp
  | _ => rfl

/-- A call that is not `close` does not come to one of its suspension points. -/
theorem endpoint (h : Does me holding opening s t) {pc : Pc} (hclose : pc.inClose = true)
    (hpc : (t.handler .endpoint).pc? = some pc) : (s.handler .endpoint).pc? = some pc := by
  induction h with
  | same _ _ _ _ _ _ _ _ hhandler => rwa [hhandler] at hpc
  | trans _ _ ih ih' => exact ih (ih' hpc)
  | cancelHoldTimer => simpa using hpc
  | startHoldTimer => simpa [startHoldTimer_handler] using hpc
  | timeout | leave =>
      by_cases heq : Handler.endpoint = me
      · simp [heq] at hpc
      · simpa [Function.update_of_ne heq] using hpc
  | @park s pc' hsleep hnot =>
      by_cases heq : Handler.endpoint = me
      · simp only [park_handler, heq, Function.update_self, Coroutine.await, Coroutine.pc?_suspended, Option.some.injEq] at hpc
        rw [hpc, hclose] at hnot
        cases hnot
      · simpa [Function.update_of_ne heq] using hpc
  | _ => exact hpc

end Does

namespace Owned

theorem fresh (cfg : Config) : Owned (fresh cfg) := ⟨fun _ hn => (nomatch hn), fun _ _ => rfl, fun _ _ => rfl⟩

theorem does (h : Owned s) (hd : Does me holding opening s t) : Owned t := by
  induction hd with
  | same hllm hcurrent hcount htask hheld hholdTask htimers hclosed hhandler =>
      refine ⟨fun n hn => ?_, by rw [hllm]; exact h.generation, by rw [hcount, htask]; exact h.reply⟩
      rw [Session.timerRuns, hhandler] at hn
      exact hholdTask.trans (h.timer n hn)
  | trans _ _ ih ih' => exact ih' (ih h)
  | cancelHoldTimer hidle =>
      exact ⟨fun n hn => absurd hn (Listening.not_timerRuns_cancelHoldTimer h.timer hidle n), by simpa using h.generation,
        by simpa using h.reply⟩
  | @startHoldTimer s _ hidle =>
      refine ⟨fun n hn => ?_, by simpa using h.generation, by simpa using h.reply⟩
      by_cases hnm : n = s.timers
      · simp [hnm]
      · have hne : Handler.timer n ≠ .timer s.timers := fun heq => hnm (by injection heq)
        refine absurd ?_ (Listening.not_timerRuns_cancelHoldTimer h.timer hidle n)
        simpa [Session.timerRuns, startHoldTimer_handler, Function.update_of_ne hne] using hn
  | @timeout s m hme htask =>
      refine ⟨fun n hn => ?_, h.generation, h.reply⟩
      obtain ⟨hne, hruns⟩ := timerRuns_of_update (c := .done) (by simp) rfl hn
      rw [h.timer n hruns, Option.some.injEq] at htask
      exact absurd (htask ▸ hme) hne
  | cancelGeneration s =>
      refine ⟨h.timer, fun g hg => ?_, h.reply⟩
      rw [Llm.Consumer.cancel_count] at hg
      rw [Llm.Consumer.cancel_task, h.generation g hg]
      split <;> rfl
  | cancelReply s r =>
      refine ⟨h.timer, h.generation, fun r' hr' => Coroutine.isDone_iff.mp ?_⟩
      rw [show (s.tts.cancel r).task = Function.update s.tts.task r (s.tts.task r).cancel from rfl, isDone_update_cancel,
        h.reply r' hr']
      rfl
  | openReply s _ utteranceId =>
      refine ⟨h.timer, h.generation, fun r hr => ?_⟩
      have hr' : s.tts.count + 1 ≤ r := hr
      show Function.update s.tts.task s.tts.count (.await .created) r = .done
      rw [Function.update_of_ne (by omega)]
      exact h.reply r (by omega)
  | startGeneration s =>
      refine ⟨h.timer, fun g hg => ?_, h.reply⟩
      have hg' : s.llm.count + 1 ≤ g := hg
      show Function.update s.llm.cancel.task s.llm.count (.await .created) g = .done
      rw [Function.update_of_ne (by omega), Llm.Consumer.cancel_task, h.generation g (by omega)]
      split <;> rfl
  | @park s pc hsleep hclose =>
      refine ⟨fun n hn => h.timer n (timerRuns_of_update (c := .await pc) (fun heq => ?_) rfl hn).2, h.generation, h.reply⟩
      cases heq
      exact hsleep rfl
  | leave s =>
      exact ⟨fun n hn => h.timer n (timerRuns_of_update (c := .done) (by simp) rfl hn).2, h.generation, h.reply⟩
  | _ => exact ⟨h.timer, h.generation, h.reply⟩

end Owned

/-! ## The generation and reply tasks -/

theorem isDone_of_step {κ : Type*} {task : Nat → Coroutine κ} {n : Nat} {pc : κ} {cancelling : Bool} {next : Coroutine κ}
    (hpc : task n = .suspended pc cancelling) {m : Nat} (hm : (task m).isDone = true) :
    (Function.update task n next m).isDone = true := by
  have hne : m ≠ n := by
    rintro rfl
    rw [hpc] at hm
    cases hm
  rwa [Function.update_of_ne hne]

theorem Rests.of_generation {g : Nat} {w : Wake Llm.Item} (h : s.resumeGeneration cfg g w = some t) : Rests s t := by
  obtain ⟨pc, cancelling, items, next, hstep⟩ := GenerationStep.of_resume h
  have haside := resumeGeneration_aside h
  refine ⟨hstep.count, hstep.current, fun g' hg' => ?_, hstep.puts.count, hstep.puts.current, fun r hr => ?_, haside.timers,
    fun n hn => ?_, Or.inl haside.holdTask, Or.inl haside.held⟩
  · rw [hstep.task]
    exact isDone_of_step hstep.at_pc hg'
  · rwa [hstep.puts.task]
  · rwa [Session.timerRuns, haside.handler] at hn

theorem Rests.of_reply {r : Nat} {w : Wake Tts.Item} (h : s.resumeReply r w = some t) : Rests s t := by
  obtain ⟨pc, cancelling, next, hstep⟩ := ReplyStep.of_resume h
  have haside := resumeReply_aside h
  refine ⟨by rw [hstep.llm], by rw [hstep.llm], fun g hg => by rwa [hstep.llm], hstep.count, hstep.current, fun r' hr' => ?_,
    haside.timers, fun n hn => ?_, Or.inl haside.holdTask, Or.inl haside.held⟩
  · rw [hstep.task]
    exact isDone_of_step hstep.at_pc hr'
  · rwa [Session.timerRuns, haside.handler] at hn

theorem Owned.aside (h : Owned s) (hr : Rests s t) (ha : Aside s t) : Owned t where
  timer n hn := ha.holdTask.trans (h.timer n (hr.timerRuns n hn))
  generation g hg := by
    rw [hr.llmCount] at hg
    exact Coroutine.isDone_iff.mp (hr.generation g (Coroutine.isDone_iff.mpr (h.generation g hg)))
  reply r hg := by
    rw [hr.ttsCount] at hg
    exact Coroutine.isDone_iff.mp (hr.reply r (Coroutine.isDone_iff.mpr (h.reply r hg)))

/-! ## The invariant -/

/-- `close` has been called. -/
def Session.closing (s : Session) : Bool := s.closed || (s.handler .endpoint).pc?.any Pc.inClose

/-- In this step `close` returns. -/
def Session.closeReturns (s : Session) : Label → Bool
  | .close => s.llm.active.isNone && s.tts.active.isNone
  | .handler .endpoint (.ok _) =>
    match s.handler .endpoint with
    | .suspended (.closing _) _ => s.tts.active.isNone
    | .suspended (.stopping _ false .close) _ | .suspended (.clearing .close) _ => true
    | _ => false
  | _ => false

/-- Every generation but the current one has ended, and every reply but the current one. -/
def Session.supersededEnded (s : Session) : Bool :=
  (List.range s.llm.count).all (fun g => s.llm.current = some g || (s.llm.task g).isDone) &&
    (List.range s.tts.count).all fun r => s.tts.current = some r || (s.tts.task r).isDone

/-- Once `close` has been called nothing is started, and `close` returns when what was superseded before it
has ended. -/
def EndsWork (cfg : Config) (s : Session) (l : Label) : Bool :=
  !(s.closing && (s.startsTimer cfg l || s.startsWork cfg l)) && !(s.closeReturns l && !s.supersededEnded)

/-- No generation, no reply and no hold timer is running. -/
structure AtRest (s : Session) : Prop where
  generation : ∀ g, (s.llm.task g).isDone = true
  reply : ∀ r, (s.tts.task r).isDone = true
  timer : ∀ n, ¬ s.timerRuns n

theorem AtRest.rests (h : AtRest s) (hr : Rests s t) : AtRest t :=
  ⟨fun g => hr.generation g (h.generation g), fun r => hr.reply r (h.reply r), fun n hn => h.timer n (hr.timerRuns n hn)⟩

/-- The hold timer and the held turn have been dropped. -/
structure Dropped (s : Session) : Prop where
  holdTask : s.holdTask = none
  held : s.held = none

theorem Dropped.rests (h : Dropped s) (hr : Rests s t) : Dropped t where
  holdTask := hr.holdTask.elim (fun heq => heq.trans h.holdTask) id
  held := hr.held.elim (fun heq => heq.trans h.held) id

structure Closing (s : Session) : Prop where
  owned : Owned s
  dropped : s.closing = true → Dropped s
  generation : ∀ g, (s.handler .endpoint).pc? = some (.closing g) → s.llm.current = some g
  stopping : ∀ r hadAudio, (s.handler .endpoint).pc? = some (.stopping r hadAudio .close) →
    s.tts.current = some r ∧ s.llm.active = none
  clearing : (s.handler .endpoint).pc? = some (.clearing .close) → s.tts.active = none ∧ s.llm.active = none
  closed : s.closed = true → AtRest s
  left : s.closed = true → ∀ pc, (s.handler .endpoint).pc? = some pc → pc.inClose = false

namespace Closing

theorem closing_of_pc {pc : Pc} (hclose : pc.inClose = true) (hpc : (s.handler .endpoint).pc? = some pc) : s.closing = true := by
  simp [Session.closing, hpc, hclose]

/-- `close` has not been called. -/
theorem of_not_closing (howned : Owned s) (hnot : s.closing = false) : Closing s where
  owned := howned
  dropped h := by
    rw [hnot] at h
    cases h
  generation g hpc := by
    rw [closing_of_pc rfl hpc] at hnot
    cases hnot
  stopping r hadAudio hpc := by
    rw [closing_of_pc rfl hpc] at hnot
    cases hnot
  clearing hpc := by
    rw [closing_of_pc rfl hpc] at hnot
    cases hnot
  closed h := by
    rw [Session.closing, h] at hnot
    cases hnot
  left h := by
    rw [Session.closing, h] at hnot
    cases hnot

theorem fresh (cfg : Config) : Closing (fresh cfg) := of_not_closing (.fresh cfg) rfl

/-- A step that starts nothing and is not `close`'s. -/
theorem rests (h : Closing s) (hr : Rests s t) (howned : Owned t) (hclosed : t.closed = s.closed)
    (hendpoint : ∀ pc : Pc, pc.inClose = true → (t.handler .endpoint).pc? = some pc → (s.handler .endpoint).pc? = some pc) :
    Closing t := by
  refine ⟨howned, fun hclosing => ?_, fun g hpc => ?_, fun r hadAudio hpc => ?_, fun hpc => ?_, fun hc => ?_, fun hc pc hpc => ?_⟩
  · refine (h.dropped ?_).rests hr
    unfold Session.closing at hclosing ⊢
    rw [hclosed, Bool.or_eq_true] at hclosing
    rw [Bool.or_eq_true]
    refine hclosing.imp id (fun hany => ?_)
    obtain ⟨pc, hpc, hclose⟩ := (Option.any_eq_true _ _).mp hany
    rw [hendpoint pc hclose hpc]
    exact hclose
  · exact hr.llmCurrent.trans (h.generation g (hendpoint _ rfl hpc))
  · obtain ⟨hcurrent, hactive⟩ := h.stopping r hadAudio (hendpoint _ rfl hpc)
    exact ⟨hr.ttsCurrent.trans hcurrent, hr.llmActive hactive⟩
  · obtain ⟨htts, hllm⟩ := h.clearing (hendpoint _ rfl hpc)
    exact ⟨hr.ttsActive htts, hr.llmActive hllm⟩
  · exact (h.closed (hclosed ▸ hc)).rests hr
  · by_contra hclose
    rw [Bool.not_eq_false] at hclose
    rw [h.left (hclosed ▸ hc) pc (hendpoint pc hclose hpc)] at hclose
    cases hclose

/-- A call into the session other than `close`. -/
theorem does (h : Closing s) (hd : Does me holding opening s t) (hok : s.closing = true → ¬ holding ∧ ¬ opening) : Closing t := by
  have howned := h.owned.does hd
  by_cases hclosing : s.closing = true
  · exact h.rests (hd.rests (hok hclosing).1 (hok hclosing).2) howned hd.closed (fun pc hclose hpc => hd.endpoint hclose hpc)
  · refine of_not_closing howned ?_
    by_contra hnot
    rw [Bool.not_eq_false, Session.closing, Bool.or_eq_true, hd.closed] at hnot
    refine hclosing ?_
    rw [Session.closing, Bool.or_eq_true]
    refine hnot.imp id (fun hany => ?_)
    obtain ⟨pc, hpc, hclose⟩ := (Option.any_eq_true _ _).mp hany
    rw [hd.endpoint hclose hpc]
    exact hclose

theorem aside (h : Closing s) (hr : Rests s t) (ha : Aside s t) : Closing t := by
  refine h.rests hr (h.owned.aside hr ha) ha.closed (fun pc _ hpc => ?_)
  rwa [ha.handler] at hpc

/-! ## The steps of `close` -/

theorem absurd_of_open {P : Prop} (hopen : s.closed = false) (hclosed : s.closed = true) : P := by
  rw [hopen] at hclosed
  cases hclosed

theorem noTimer (h : Owned s) (hnone : s.holdTask = none) (n : Nat) : ¬ s.timerRuns n := by
  intro hn
  rw [h.timer n hn] at hnone
  cases hnone

/-- The slot of the endpoint's task has changed, and nothing else that counts. -/
theorem owned_of_handler (h : Owned s) {c : Coroutine Pc} (hc : c ≠ .suspended .holdSleep false)
    (hhandler : t.handler = Function.update s.handler .endpoint c) (hholdTask : t.holdTask = s.holdTask) (hllm : t.llm = s.llm)
    (htts : t.tts.task = s.tts.task) (hcount : t.tts.count = s.tts.count) : Owned t where
  timer n hn := hholdTask.trans (h.timer n (timerRuns_of_update hc hhandler hn).2)
  generation := by
    rw [hllm]
    exact h.generation
  reply := by
    rw [htts, hcount]
    exact h.reply

/-- `close` returns. -/
theorem closeReturned (h : Owned s) (hdropped : Dropped s) (hllm : s.llm.active = none) (htts : s.tts.active = none)
    (hended : s.supersededEnded = true) : Closing (s.closeReturned .endpoint) := by
  have hpc : ((s.closeReturned .endpoint).handler .endpoint).pc? = none := by simp [Session.closeReturned]
  have howned : Owned (s.closeReturned .endpoint) :=
    owned_of_handler (c := .done) h (by simp) rfl rfl rfl rfl rfl
  unfold Session.supersededEnded at hended
  rw [Bool.and_eq_true, List.all_eq_true, List.all_eq_true] at hended
  refine ⟨howned, fun _ => ⟨hdropped.holdTask, hdropped.held⟩, fun g hg => ?_, fun r hadAudio hr => ?_, fun hc => ?_, fun _ => ⟨fun g => ?_, fun r => ?_, ?_⟩,
    fun _ pc hc => ?_⟩
  · rw [hpc] at hg
    cases hg
  · rw [hpc] at hr
    cases hr
  · rw [hpc] at hc
    cases hc
  · show (s.llm.task g).isDone = true
    by_cases hg : g < s.llm.count
    · have hor := hended.1 g (List.mem_range.mpr hg)
      rw [Bool.or_eq_true] at hor
      rcases hor with hcurrent | hdone
      · by_contra halive
        simp [Llm.Consumer.active_eq_some.mpr ⟨of_decide_eq_true hcurrent, by simpa using halive⟩] at hllm
      · exact hdone
    · exact Coroutine.isDone_iff.mpr (h.generation g (by omega))
  · show (s.tts.task r).isDone = true
    by_cases hr : r < s.tts.count
    · have hor := hended.2 r (List.mem_range.mpr hr)
      rw [Bool.or_eq_true] at hor
      rcases hor with hcurrent | hdone
      · by_contra halive
        simp [Tts.Consumer.active_eq_some.mpr ⟨of_decide_eq_true hcurrent, by simpa using halive⟩] at htts
      · exact hdone
    · exact Coroutine.isDone_iff.mpr (h.reply r (by omega))
  · exact noTimer howned hdropped.holdTask
  · rw [hpc] at hc
    cases hc

/-- `close` from its call of `tts.stop` on. -/
theorem closeTts (h : Owned s) (hdropped : Dropped s) (hllm : s.llm.active = none) (hopen : s.closed = false)
    (hended : s.tts.active = none → s.supersededEnded = true) : Closing (s.closeTts .endpoint) := by
  unfold Session.closeTts Session.ttsStop
  split
  · rename_i hactive
    exact closeReturned h hdropped hllm hactive (hended hactive)
  · rename_i r hactive
    have hpc : (({ s with tts := s.tts.cancel r }.park .endpoint (.stopping r s.tts.audioSent .close)).handler .endpoint).pc? =
        some (.stopping r s.tts.audioSent .close) := by simp [Coroutine.await]
    have howned : Owned ({ s with tts := s.tts.cancel r }.park .endpoint (.stopping r s.tts.audioSent .close)) := by
      have hcancel : Does .endpoint False False s { s with tts := s.tts.cancel r } := .cancelReply s r
      exact owned_of_handler (c := .await (.stopping r s.tts.audioSent .close)) (h.does hcancel) (by simp [Coroutine.await]) rfl rfl rfl
        rfl rfl
    refine ⟨howned, fun _ => ⟨hdropped.holdTask, hdropped.held⟩, fun g hg => ?_, fun r' hadAudio hr => ?_, fun hc => ?_,
      absurd_of_open hopen, absurd_of_open hopen⟩
    · rw [hpc] at hg
      cases hg
    · rw [hpc] at hr
      cases hr
      exact ⟨(Tts.Consumer.active_eq_some.mp hactive).1, hllm⟩
    · rw [hpc] at hc
      cases hc

/-- `close` waits in `llm.aclose`. -/
theorem waitsForGeneration (h : Owned s) (hdropped : Dropped s) {g : Nat} (hactive : s.llm.active = some g)
    (hopen : s.closed = false) : Closing ({ s with llm := s.llm.cancel }.park .endpoint (.closing g)) := by
  have hcurrent := (Llm.Consumer.active_eq_some.mp hactive).1
  have hpc : (({ s with llm := s.llm.cancel }.park .endpoint (.closing g)).handler .endpoint).pc? = some (.closing g) := by
    simp [Coroutine.await]
  have howned : Owned ({ s with llm := s.llm.cancel }.park .endpoint (.closing g)) := by
    have hcancel : Does .endpoint False False s { s with llm := s.llm.cancel } := .cancelGeneration s
    exact owned_of_handler (c := .await (.closing g)) (h.does hcancel) (by simp [Coroutine.await]) rfl rfl rfl rfl rfl
  refine ⟨howned, fun _ => ⟨hdropped.holdTask, hdropped.held⟩, fun g' hg => ?_, fun r hadAudio hr => ?_, fun hc => ?_,
    absurd_of_open hopen, absurd_of_open hopen⟩
  · rw [hpc] at hg
    cases hg
    exact Llm.Consumer.cancel_current.trans hcurrent
  · rw [hpc] at hr
    cases hr
  · rw [hpc] at hc
    cases hc

/-- `close` sends `tts_clear`. -/
theorem sendsClear (h : Owned s) (hdropped : Dropped s) (hllm : s.llm.active = none) (htts : s.tts.active = none)
    (hopen : s.closed = false) (e : Event) : Closing ((s.emit e).park .endpoint (.clearing .close)) := by
  have hpc : (((s.emit e).park .endpoint (.clearing .close)).handler .endpoint).pc? = some (.clearing .close) := by
    simp [Coroutine.await]
  have howned : Owned ((s.emit e).park .endpoint (.clearing .close)) :=
    owned_of_handler (c := .await (.clearing .close)) h (by simp [Coroutine.await]) rfl rfl rfl rfl rfl
  refine ⟨howned, fun _ => ⟨hdropped.holdTask, hdropped.held⟩, fun g hg => ?_, fun r b hr => ?_, fun _ => ⟨htts, hllm⟩,
    absurd_of_open hopen, absurd_of_open hopen⟩
  · rw [hpc] at hg
    cases hg
  · rw [hpc] at hr
    cases hr

theorem close (h : Closing s) (hopen : s.closed = false) (hidle : s.handler .endpoint = .done)
    (hended : s.llm.active = none → s.tts.active = none → s.supersededEnded = true) : Closing (s.close .endpoint) := by
  have hcancelled : Does .endpoint False False s { s.cancelHoldTimer .endpoint with held := none } :=
    .trans (.cancelHoldTimer hidle) (.release _)
  have howned := h.owned.does hcancelled
  have hrests := hcancelled.rests id id
  have hdropped : Dropped { s.cancelHoldTimer .endpoint with held := none } := ⟨by simp, rfl⟩
  have hopen' : { s.cancelHoldTimer .endpoint with held := none }.closed = false := by simpa using hopen
  unfold Session.close
  simp only
  split
  · rename_i hactive
    rw [cancelHoldTimer_llm] at hactive
    refine closeTts howned hdropped (hrests.llmActive hactive) hopen' (fun htts => ?_)
    rw [cancelHoldTimer_tts] at htts
    simpa [Session.supersededEnded] using hended hactive htts
  · rename_i g hactive
    exact waitsForGeneration howned hdropped hactive hopen'

/-- `close` goes on. -/
theorem resumeClose (h : Closing s) {pc : Pc} {cancelling : Bool} {w : Wake Unit} (ht : Typed s)
    (hpc : s.handler .endpoint = .suspended pc cancelling) (hfits : w.fits cancelling = true) (henabled : s.enabled pc w = true)
    (hclose : pc.inClose = true) (hended : s.closeReturns (.handler .endpoint w) = true → s.supersededEnded = true) :
    Closing ((s.leave .endpoint).resumeHandler cfg .endpoint pc w) := by
  have hpc? : (s.handler .endpoint).pc? = some pc := by rw [hpc, Coroutine.pc?_suspended]
  have hleft : Owned (s.leave .endpoint) := owned_of_handler (c := .done) h.owned (by simp) rfl rfl rfl rfl rfl
  have hdropped' := h.dropped (closing_of_pc hclose hpc?)
  have hdropped : Dropped (s.leave .endpoint) := ⟨hdropped'.holdTask, hdropped'.held⟩
  have hopen : (s.leave .endpoint).closed = false := by
    by_contra hc
    rw [Bool.not_eq_false] at hc
    rw [h.left hc pc hpc?] at hclose
    cases hclose
  unfold Session.resumeHandler
  cases w with
  | ok a =>
      cases pc with
      | closing g =>
          have hdone : (s.llm.task g).isDone = true := henabled
          have hllm : s.llm.active = none := by
            by_contra hsome
            obtain ⟨g', hg'⟩ := Option.ne_none_iff_exists'.mp hsome
            obtain ⟨hcurrent, halive⟩ := Llm.Consumer.active_eq_some.mp hg'
            rw [h.generation g hpc?, Option.some.injEq] at hcurrent
            rw [← hcurrent, hdone] at halive
            cases halive
          refine closeTts hleft hdropped hllm hopen (fun htts => hended ?_)
          have htts' : s.tts.active = none := htts
          simp [Session.closeReturns, hpc, htts']
      | stopping r hadAudio k =>
          cases k with
          | close =>
              have hdone : (s.tts.task r).isDone = true := henabled
              obtain ⟨hcurrent, hllm⟩ := h.stopping r hadAudio hpc?
              have htts : s.tts.active = none := by
                by_contra hsome
                obtain ⟨r', hr'⟩ := Option.ne_none_iff_exists'.mp hsome
                obtain ⟨hcurrent', halive⟩ := Tts.Consumer.active_eq_some.mp hr'
                rw [hcurrent, Option.some.injEq] at hcurrent'
                rw [← hcurrent', hdone] at halive
                cases halive
              cases hadAudio with
              | false => exact closeReturned hleft hdropped hllm htts (hended (by simp [Session.closeReturns, hpc]))
              | true => exact sendsClear hleft hdropped hllm htts hopen _
          | _ => cases hclose
      | clearing k =>
          cases k with
          | close =>
              obtain ⟨htts, hllm⟩ := h.clearing hpc?
              exact closeReturned hleft hdropped hllm htts (hended (by simp [Session.closeReturns, hpc]))
          | _ => cases hclose
      | _ => cases hclose
  | raised => cases henabled
  | cancelled =>
      have hsleep : pc = .holdSleep := ht.calm .endpoint pc (by rw [hpc]; simpa [Wake.fits] using hfits)
      rw [hsleep] at hclose
      cases hclose

theorem endpoint_of_inClose (ht : Typed s) {pc : Pc} (hpc : (s.handler me).pc? = some pc) (hclose : pc.inClose = true) :
    me = .endpoint := by
  have hruns := ht.runsIn me pc hpc
  cases pc with
  | stopping r b k | clearing k =>
      cases k with
      | close => cases me <;> first | rfl | cases hruns
      | _ => cases hclose
  | closing g => cases me <;> first | rfl | cases hruns
  | _ => cases hclose

/-- What `EndsWork` says about a step. -/
theorem endsWork_iff {l : Label} : EndsWork cfg s l = true ↔
    (s.closing = true → ¬ s.startsTimer cfg l = true ∧ ¬ s.startsWork cfg l = true) ∧
      (s.closeReturns l = true → s.supersededEnded = true) := by
  unfold EndsWork
  cases s.closing <;> cases s.closeReturns l <;> simp

theorem step (h : Closing s) (ht : Typed s) {l : Label} (hok : EndsWork cfg s l = true) (hstep : step cfg s l = some t) :
    Closing t := by
  obtain ⟨hstarts, hended⟩ := endsWork_iff.mp hok
  cases StepTo.of_step hstep with
  | transcript _ _ hidle => exact h.does (.transcript hidle _) hstarts
  | frame hidle => exact h.does (.frame hidle _) hstarts
  | @speakText text utteranceId hopen hidle =>
      have hspeaks : Does .endpoint False True s (s.speakText .endpoint text utteranceId) := .speakText s trivial ..
      refine h.does hspeaks (fun hclosing => ?_)
      rw [Session.closing, hopen, hidle] at hclosing
      cases hclosing
  | close hopen hidle =>
      refine h.close hopen hidle (fun hllm htts => hended ?_)
      simp [Session.closeReturns, hllm, htts]
  | @handler me pc cancelling w hpc hfits henabled =>
      by_cases hclose : pc.inClose = true
      · obtain rfl : me = .endpoint := endpoint_of_inClose ht (by rw [hpc, Coroutine.pc?_suspended]) hclose
        exact h.resumeClose ht hpc hfits henabled hclose hended
      · exact h.does (.handler ht h.owned.timer hpc hfits henabled (by simpa using hclose)) hstarts
  | generation hgen => exact h.aside (.of_generation hgen) (resumeGeneration_aside hgen)
  | reply hreply => exact h.aside (.of_reply hreply) (resumeReply_aside hreply)

/-- A step of a closed session starts nothing. -/
theorem restsWhenClosed (h : Closing s) (ht : Typed s) (hclosed : s.closed = true) {l : Label} (hok : EndsWork cfg s l = true)
    (hstep : Voice.step cfg s l = some t) : t.closed = true ∧ Rests s t := by
  obtain ⟨hnot, hnot'⟩ := (endsWork_iff.mp hok).1 (by rw [Session.closing, hclosed, Bool.true_or])
  cases StepTo.of_step hstep with
  | transcript _ _ hidle =>
      exact ⟨(Does.transcript hidle _).closed.trans hclosed, (Does.transcript hidle _).rests hnot hnot'⟩
  | frame hidle => exact ⟨(Does.frame hidle _).closed.trans hclosed, (Does.frame hidle _).rests hnot hnot'⟩
  | speakText hopen | close hopen => exact absurd_of_open hopen hclosed
  | @handler me pc cancelling w hpc hfits henabled =>
      have hpc? : (s.handler me).pc? = some pc := by rw [hpc, Coroutine.pc?_suspended]
      have hclose : pc.inClose = false := by
        by_contra hin
        rw [Bool.not_eq_false] at hin
        obtain rfl : me = .endpoint := endpoint_of_inClose ht hpc? hin
        rw [h.left hclosed pc hpc?] at hin
        cases hin
      exact ⟨(Does.handler ht h.owned.timer hpc hfits henabled hclose).closed.trans hclosed,
        (Does.handler ht h.owned.timer hpc hfits henabled hclose).rests hnot hnot'⟩
  | generation hgen => exact ⟨(resumeGeneration_aside hgen).closed.trans hclosed, .of_generation hgen⟩
  | reply hreply => exact ⟨(resumeReply_aside hreply).closed.trans hclosed, .of_reply hreply⟩

end Closing

/-- Nothing runs in `t`, and nothing has been started since `s`. -/
structure Finally (s t : Session) : Prop where
  atRest : AtRest t
  generations : t.llm.count = s.llm.count
  replies : t.tts.count = s.tts.count
  timers : t.timers = s.timers

/-- **`close` is final**, in every run in which nothing is started once it has been called and in which it returns
when what was superseded before it has ended. -/
theorem closeFinal_of_endsWork (cfg : Config) {ls ls' : List Label} {s t : Session}
    (h : Run (step cfg) (fun s l => EndsWork cfg s l = true) (fresh cfg) ls s) (hclosed : s.closed = true)
    (h' : Run (step cfg) (fun s l => EndsWork cfg s l = true) s ls' t) : Finally s t := by
  have hinv : Typed s ∧ Closing s := h.invariant (I := fun s => Typed s ∧ Closing s)
    ⟨Typed.fresh cfg, Closing.fresh cfg⟩ (fun ⟨ht, hc⟩ hok hstep => ⟨ht.step hstep, hc.step ht hok hstep⟩)
  obtain ⟨-, -, -, hfinally⟩ : Typed t ∧ Closing t ∧ t.closed = true ∧ Finally s t := by
    refine h'.invariant (I := fun t => Typed t ∧ Closing t ∧ t.closed = true ∧ Finally s t)
      ⟨hinv.1, hinv.2, hclosed, hinv.2.closed hclosed, rfl, rfl, rfl⟩ ?_
    rintro t u l ⟨ht, hc, htclosed, hfinally⟩ hok hstep
    obtain ⟨huclosed, hrests⟩ := hc.restsWhenClosed ht htclosed hok hstep
    refine ⟨ht.step hstep, hc.step ht hok hstep, huclosed, hfinally.atRest.rests hrests, ?_, ?_, ?_⟩
    · exact hrests.llmCount.trans hfinally.generations
    · exact hrests.ttsCount.trans hfinally.replies
    · exact hrests.timers.trans hfinally.timers
  exact hfinally

/-! ## Two runs -/

/-- `close` while a reply is generated, and the first words of the transcript that the recogniser still had. -/
def closedReply : List Label :=
  [.transcript .stt ⟨.FINAL, anId, "Good morning.".toList⟩, .generation 0 (.ok .none), .close, .generation 0 .cancelled,
    .generation 0 (.ok .none), .handler .endpoint (.ok ()), .reply 0 .cancelled, .handler .endpoint (.ok ())]

def lateWords : List Label := [.transcript .endpoint ⟨.PARTIAL, anId, "Are".toList⟩, .frame loudFrame]

theorem closeFinal_closedReply : ∃ s t,
    Run (step {}) (fun s l => EndsWork {} s l = true) (fresh {}) closedReply s ∧
      Run (step {}) (fun s l => EndsWork {} s l = true) s lateWords t ∧ Finally s t ∧ s.llm.count = 1 := by
  obtain ⟨s, hrun, hs⟩ := Run.exists_of_exec
    (P := fun s : Session => s.closed && decide (s.llm.count = 1) &&
      (exec (step {}) (fun s l => EndsWork {} s l = true) s lateWords).any fun _ => true) (s := fresh {})
    (show (exec (step {}) (fun s l => EndsWork {} s l = true) _ closedReply).any _ = true by decide +kernel)
  simp only [Bool.and_eq_true, decide_eq_true_eq] at hs
  obtain ⟨t, hrun', -⟩ := Run.exists_of_exec hs.2
  exact ⟨s, t, hrun, hrun', closeFinal_of_endsWork {} hrun hs.1.1 hrun', hs.1.2⟩

/-- The last FINAL of the recogniser, which the endpoint asks for when the session is closed. -/
def lastFinal : List Label := [.transcript .endpoint ⟨.FINAL, anId, "Are you there?".toList⟩]

/-- A generation and a reply are started after `close` has returned. -/
theorem lastFinal_not_final : ∃ s t,
    Run (step {}) (fun _ _ => True) (fresh {}) [.close] s ∧ s.closed = true ∧
      Run (step {}) (fun _ _ => True) s lastFinal t ∧ ¬ Finally s t := by
  obtain ⟨s, hrun, hs⟩ := Run.exists_of_exec
    (P := fun s : Session => s.closed && decide (s.llm.count = 0) &&
      (exec (step {}) (fun _ _ => True) s lastFinal).any fun t : Session => decide (t.llm.count = 1)) (s := fresh {})
    (show (exec (step {}) (fun _ _ => True) _ [.close]).any _ = true by decide +kernel)
  simp only [Bool.and_eq_true, decide_eq_true_eq] at hs
  obtain ⟨t, hrun', hone⟩ := Run.exists_of_exec hs.2
  refine ⟨s, t, hrun, hs.1.1, hrun', fun h => ?_⟩
  have hcount := h.generations
  rw [hs.1.2, of_decide_eq_true hone] at hcount
  cases hcount

end Voxera.Voice
