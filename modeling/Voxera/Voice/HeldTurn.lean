import Voxera.Voice.Calls

/-!
# Held turns and the caller's speech

While the caller speaks no reply is started and no hold timer runs, as long as two things do not
happen:

* a frame restarts the timer of a held turn although its continuation has begun;
* a user turn is opened while a `_reply` waits in `tts.begin`.

`Listening` is the invariant and `Listening.step` the step lemma.
-/

namespace Voxera.Voice

open EventLoop
open Session

variable {cfg : Config} {me : Handler} {s t : Session}

/-! ## The steps in question -/

/-- Neither `speak_text` nor `close`. -/
def Label.plain : Label → Bool
  | .speakText _ _ | .close => false
  | _ => true

/-- `process_transcript_event` opens a user turn in this step, and leaves it open. -/
def Session.opensTurn (s : Session) : Label → Bool
  | .transcript _ ev =>
    ev.type = .PARTIAL && Text.isUuid ev.utteranceId &&
      if s.state.isSystemSpeaking then s.tts.active.isNone else !s.state.isUserSpeaking
  | .handler h (.ok _) =>
    match s.handler h with
    | .suspended (.bargeIn (.turn (.partialInterrupted ev)) _) _ =>
      Text.isUuid ev.utteranceId && !s.state.isUserSpeaking
    | _ => false
  | _ => false

/-- No frame restarts the timer of a turn whose continuation has begun, no user turn is opened while a
reply waits in `tts.begin`, and neither `speak_text` nor `close` is called. -/
def TimerRespected (s : Session) : Label → Bool
  | .frame bytes => !(s.onset bytes && s.held.isSome && s.state.isUserSpeaking)
  | l => l.plain && !(s.opensTurn l && s.replyWaits)

/-- A call that starts a reply while the caller speaks. -/
def Event.overUser : Event → Bool
  | .reply _ userSpeaking | .begin _ userSpeaking | .generation _ _ _ _ userSpeaking => userSpeaking
  | _ => false

theorem Event.OfTask.overUser {e : Event} (h : e.OfTask) : e.overUser = false := by
  cases e <;> first | rfl | cases h

/-! ## The invariant -/

/-- In a call of `handle_interruption`. -/
def Pc.interrupting : Pc → Bool
  | .stopping _ _ (.interruption _ _) | .clearing (.interruption _ _) | .bargeIn _ _ => true
  | _ => false

/-- The hold timer sleeps and has not been cancelled. -/
def Session.timerRuns (s : Session) (n : Nat) : Prop := s.handler (.timer n) = .suspended .holdSleep false

structure Listening (s : Session) : Prop where
  isOpen : s.closed = false
  endpoint : s.handler .endpoint = .done
  clean : ∀ e ∈ s.trace, e.overUser = false
  timer : ∀ n, s.timerRuns n → s.holdTask = some n
  held : s.held.isSome = true → s.state.isSystemSpeaking = false
  interrupting : ∀ pc, (s.handler .stt).pc? = some pc → pc.interrupting = true →
    s.state.isSystemSpeaking = false ∧ s.held = none
  silent : s.state.isUserSpeaking = true → s.state.isSystemSpeaking = false
  unanswered : s.state.isUserSpeaking = true → ∀ h pc, (s.handler h).pc? = some pc → pc.inReply = false
  noTimer : s.state.isUserSpeaking = true → ∀ n, ¬ s.timerRuns n

namespace Listening

theorem fresh (cfg : Config) : Listening (fresh cfg) where
  isOpen := rfl
  endpoint := rfl
  clean := by simp [Session.fresh]
  timer := fun _ h => nomatch h
  held := fun h => nomatch h
  interrupting := fun _ h => nomatch h
  silent := fun h => nomatch h
  unanswered := fun h => nomatch h
  noTimer := fun h => nomatch h

/-- The calls and the timers stay, and the turns may only end. -/
theorem congr (h : Listening s) (hhandler : t.handler = s.handler)
    (hclosed : t.closed = s.closed) (htask : t.holdTask = s.holdTask) (hheld : t.held = s.held)
    (huser : t.state.isUserSpeaking = true → s.state.isUserSpeaking = true)
    (hsys : t.state.isSystemSpeaking = true → s.state.isSystemSpeaking = true)
    (hclean : ∀ e ∈ t.trace, e.overUser = false) : Listening t where
  isOpen := hclosed.trans h.isOpen
  endpoint := by rw [hhandler]; exact h.endpoint
  clean := hclean
  timer := by
    unfold Session.timerRuns
    rw [hhandler, htask]
    exact h.timer
  held := by
    rw [hheld]
    intro hs
    by_contra ht
    exact absurd (hsys (by simpa using ht)) (by simp [h.held hs])
  interrupting := by
    rw [hhandler, hheld]
    intro pc hpc hint
    obtain ⟨hs, hn⟩ := h.interrupting pc hpc hint
    refine ⟨?_, hn⟩
    by_contra ht
    exact absurd (hsys (by simpa using ht)) (by simp [hs])
  silent := by
    intro hu
    by_contra ht
    exact absurd (hsys (by simpa using ht)) (by simp [h.silent (huser hu)])
  unanswered := by
    rw [hhandler]
    exact fun hu => h.unanswered (huser hu)
  noTimer := by
    unfold Session.timerRuns
    rw [hhandler]
    exact fun hu => h.noTimer (huser hu)

theorem aside (h : Listening s) (ha : Aside s t) : Listening t := by
  refine h.congr ha.handler ha.closed ha.holdTask ha.held (fun hu => ?_) ha.isSystemSpeaking ?_
  · rwa [ha.isUserSpeaking] at hu
  · obtain ⟨es, hes, hof⟩ := ha.trace
    rw [hes]
    intro e he
    rcases List.mem_append.mp he with he | he
    · exact h.clean e he
    · exact (hof e he).overUser

theorem emit (h : Listening s) {e : Event} (he : e.overUser = false) : Listening (s.emit e) := by
  refine h.congr rfl rfl rfl rfl id id ?_
  intro e' he'
  rcases List.mem_append.mp he' with he' | he'
  · exact h.clean e' he'
  · rwa [List.mem_singleton.mp he']

/-- The running call `me` suspends. -/
theorem park (h : Listening s) (pc : Pc)
    (hend : me ≠ .endpoint) (hsleep : pc ≠ .holdSleep)
    (hint : me = .stt → pc.interrupting = true → s.state.isSystemSpeaking = false ∧ s.held = none)
    (hreply : s.state.isUserSpeaking = true → pc.inReply = false) : Listening (s.park me pc) where
  isOpen := h.isOpen
  endpoint := by simpa [Function.update_of_ne hend.symm] using h.endpoint
  clean := h.clean
  timer := by
    intro n hn
    by_cases hm : Handler.timer n = me
    · simp only [Session.timerRuns, park_handler, hm, Function.update_self, Coroutine.await,
        Coroutine.suspended.injEq] at hn
      exact absurd hn.1 hsleep
    · exact h.timer n (by simpa [Session.timerRuns, Function.update_of_ne hm] using hn)
  held := h.held
  interrupting := by
    intro pc' hpc' hint'
    by_cases hm : Handler.stt = me
    · simp only [park_handler, hm, Function.update_self, Coroutine.await, Coroutine.pc?_suspended,
        Option.some.injEq] at hpc'
      exact hint hm.symm (hpc' ▸ hint')
    · exact h.interrupting pc' (by simpa [Function.update_of_ne hm] using hpc') hint'
  silent := h.silent
  unanswered := by
    intro huser h' pc' hpc'
    by_cases hm : h' = me
    · simp only [park_handler, hm, Function.update_self, Coroutine.await, Coroutine.pc?_suspended,
        Option.some.injEq] at hpc'
      exact hpc' ▸ hreply huser
    · exact h.unanswered huser h' pc' (by simpa [Function.update_of_ne hm] using hpc')
  noTimer := by
    intro huser n hn
    by_cases hm : Handler.timer n = me
    · simp only [Session.timerRuns, park_handler, hm, Function.update_self, Coroutine.await,
        Coroutine.suspended.injEq] at hn
      exact absurd hn.1 hsleep
    · exact h.noTimer huser n (by simpa [Session.timerRuns, Function.update_of_ne hm] using hn)

/-- A task that leaves its call leaves the rest as it is. -/
theorem leave (h : Listening s) : Listening (s.leave me) where
  isOpen := h.isOpen
  endpoint := by
    by_cases hm : Handler.endpoint = me
    · simp [hm]
    · simpa [Function.update_of_ne hm] using h.endpoint
  clean := h.clean
  timer := by
    intro n hn
    by_cases hm : Handler.timer n = me
    · simp [Session.timerRuns, hm] at hn
    · exact h.timer n (by simpa [Session.timerRuns, Function.update_of_ne hm] using hn)
  held := h.held
  interrupting := by
    intro pc hpc hint
    by_cases hm : Handler.stt = me
    · simp [hm] at hpc
    · exact h.interrupting pc (by simpa [Function.update_of_ne hm] using hpc) hint
  silent := h.silent
  unanswered := by
    intro huser h' pc hpc
    by_cases hm : h' = me
    · simp [hm] at hpc
    · exact h.unanswered huser h' pc (by simpa [Function.update_of_ne hm] using hpc)
  noTimer := by
    intro huser n hn
    by_cases hm : Handler.timer n = me
    · simp [Session.timerRuns, hm] at hn
    · exact h.noTimer huser n (by simpa [Session.timerRuns, Function.update_of_ne hm] using hn)

/-! ## Hold timers -/

theorem timerRuns_of_cancelHoldTimer {n : Nat} (hn : (s.cancelHoldTimer me).timerRuns n) :
    s.timerRuns n ∧ (s.holdTask = some n → me = .timer n) := by
  unfold Session.timerRuns at *
  rw [cancelHoldTimer_eq] at hn
  cases htask : s.holdTask with
  | none => exact ⟨by simpa [htask] using hn, fun h => by cases h⟩
  | some m =>
      by_cases hm : me = .timer m
      · refine ⟨by simpa [htask, hm] using hn, fun h => ?_⟩
        rw [hm, Option.some.inj h]
      · by_cases hnm : n = m
        · subst hnm
          simp only [htask, hm, if_false, Function.update_self] at hn
          cases hc : s.handler (.timer n) <;> simp [hc] at hn
        · have hne : Handler.timer n ≠ .timer m := fun heq => hnm (by injection heq)
          simp only [htask, hm, if_false, Function.update_of_ne hne] at hn
          exact ⟨hn, fun h => absurd (Option.some.inj h).symm hnm⟩

/-- No timer runs once the session's is cancelled. -/
theorem not_timerRuns_cancelHoldTimer (htimer : ∀ n, s.timerRuns n → s.holdTask = some n)
    (hme : s.handler me = .done) (n : Nat) : ¬ (s.cancelHoldTimer me).timerRuns n := by
  intro hn
  obtain ⟨hrun, hself⟩ := timerRuns_of_cancelHoldTimer hn
  have := hself (htimer n hrun)
  subst this
  rw [Session.timerRuns, hme] at hrun
  cases hrun

theorem cancelHoldTimer (h : Listening s) (hme : s.handler me = .done) : Listening (s.cancelHoldTimer me) where
  isOpen := by simpa using h.isOpen
  endpoint := cancelHoldTimer_handler_done h.endpoint
  clean := by simpa using h.clean
  timer n hn := absurd hn (not_timerRuns_cancelHoldTimer h.timer hme n)
  held := by simpa using h.held
  interrupting := by simpa using h.interrupting
  silent := by simpa using h.silent
  unanswered := by simpa using h.unanswered
  noTimer _ n := not_timerRuns_cancelHoldTimer h.timer hme n

/-- A timer may start while the caller is silent. -/
theorem startHoldTimer (h : Listening s) (hme : s.handler me = .done) (huser : s.state.isUserSpeaking = false) :
    Listening (s.startHoldTimer me) where
  isOpen := by simpa using h.isOpen
  endpoint := by simpa [startHoldTimer_handler] using cancelHoldTimer_handler_done h.endpoint
  clean := by simpa using h.clean
  timer := by
    intro n hn
    by_cases hnm : n = s.timers
    · simp [hnm]
    · have hne : Handler.timer n ≠ .timer s.timers := fun heq => hnm (by injection heq)
      refine absurd ?_ (not_timerRuns_cancelHoldTimer h.timer hme n)
      simpa [Session.timerRuns, startHoldTimer_handler, Function.update_of_ne hne] using hn
  held := by simpa using h.held
  interrupting := by simpa [startHoldTimer_handler] using h.interrupting
  silent := by simpa using h.silent
  unanswered := by simp [huser]
  noTimer := by simp [huser]

/-! ## Replies -/

theorem ttsStop (h : Listening s) (hend : me ≠ .endpoint) {k : StopFor}
    (hint : ∀ j cut, k = .interruption j cut → s.state.isSystemSpeaking = false ∧ s.held = none)
    (hreply : s.state.isUserSpeaking = true → k.isReply = false) {next : Session → Session}
    (hnext : Listening (next s)) : Listening (s.ttsStop me k next) := by
  unfold Session.ttsStop
  split
  · exact hnext
  · rename_i r _
    have hcancel : Listening { s with tts := s.tts.cancel r } := h.congr rfl rfl rfl rfl id id h.clean
    refine hcancel.park _ hend (by simp) ?_ ?_
    · intro _ hi
      cases k with
      | interruption j cut => exact hint j cut rfl
      | _ => cases hi
    · intro hu
      simpa [Pc.inReply, Pc.stop?] using hreply hu

/-- The rest of `_reply` after `tts.begin`, while the caller is silent. -/
theorem replyBegun (h : Listening s) (huser : s.state.isUserSpeaking = false) (turn : UserTurnCompleted)
    (history : List Llm.Entry) (ticket : Nat) : Listening (s.replyBegun me turn history ticket) := by
  have hopen : Listening { s with tts := s.tts.openReply turn.utteranceId } :=
    h.congr rfl rfl rfl rfl id id h.clean
  have hgen := (hopen.emit (e := .opened ticket s.tts.count) rfl).emit
    (e := .generation s.llm.count s.tts.count (Text.strip turn.transcript) history s.state.isUserSpeaking) huser
  unfold Session.replyBegun
  refine leave ?_
  exact hgen.congr rfl rfl rfl rfl id id hgen.clean

/-- A reply may start while the caller is silent, no turn is held and none is interrupting. -/
theorem reply (h : Listening s) (hend : me ≠ .endpoint)
    (huser : s.state.isUserSpeaking = false) (hheld : s.held = none)
    (hint : ∀ pc, (s.handler .stt).pc? = some pc → pc.interrupting = false) (turn : UserTurnCompleted) :
    Listening (s.reply cfg me turn) := by
  have hbegins : Listening (s.replyBegins cfg turn) := {
    isOpen := h.isOpen
    endpoint := h.endpoint
    clean := by
      have hclean := ((h.emit (e := .reply turn s.state.isUserSpeaking) huser).emit
        (e := .begin s.begun s.state.isUserSpeaking) huser).clean
      exact hclean
    timer := h.timer
    held := by simp [hheld]
    interrupting := fun pc hpc hi => absurd hi (by simp [hint pc hpc])
    silent := by simp [huser]
    unanswered := by simp [huser]
    noTimer := by simp [huser] }
  unfold Session.reply
  refine hbegins.ttsStop hend (fun _ _ hk => by cases hk) ?_ ?_
  · simp [huser]
  · exact hbegins.replyBegun huser ..

/-! ## Turns -/

/-- A held turn is answered when its timer has run out. -/
theorem releaseHeldTurn (h : Listening s) (hend : me ≠ .endpoint) (huser : s.state.isUserSpeaking = false)
    (htimer : ∀ n, ¬ s.timerRuns n) : Listening (s.releaseHeldTurn cfg me) := by
  have hrelease : Listening { s with held := none, holdTask := none } := {
    isOpen := h.isOpen
    endpoint := h.endpoint
    clean := h.clean
    timer := fun n hn => absurd hn (htimer n)
    held := by simp
    interrupting := fun pc hpc hi => ⟨(h.interrupting pc hpc hi).1, rfl⟩
    silent := h.silent
    unanswered := h.unanswered
    noTimer := h.noTimer }
  unfold Session.releaseHeldTurn
  simp only
  split
  · rename_i turn hheld
    refine hrelease.reply hend huser rfl (fun pc hpc => ?_) turn
    by_contra hi
    have hnone := (h.interrupting pc hpc (by simpa using hi)).2
    rw [hheld] at hnone
    cases hnone
  · exact hrelease.leave

/-- The state changes at the start of a user turn that is complete at once, or after it. -/
theorem setState (h : Listening s) {state : ConversationState} (huser : state.isUserSpeaking = false)
    (hsys : state.isSystemSpeaking = true → s.state.isSystemSpeaking = true) : Listening { s with state } :=
  h.congr rfl rfl rfl rfl (fun hu => by simp [huser] at hu) hsys h.clean

theorem holdTurn (h : Listening s) (hend : me ≠ .endpoint) (hme : s.handler me = .done) (huser : s.state.isUserSpeaking = false)
    (hsys : s.state.isSystemSpeaking = false) (hint : ∀ pc, (s.handler .stt).pc? = some pc → pc.interrupting = false)
    (turn : UserTurnCompleted) : Listening (s.holdTurn me turn) := by
  have hheld : Listening { s with held := some turn } := {
    isOpen := h.isOpen
    endpoint := h.endpoint
    clean := h.clean
    timer := h.timer
    held := fun _ => hsys
    interrupting := fun pc hpc hi => absurd hi (by simp [hint pc hpc])
    silent := h.silent
    unanswered := h.unanswered
    noTimer := h.noTimer }
  have hstart := (hheld.startHoldTimer hme huser).emit (e := .turnHeld turn.utteranceId) rfl
  unfold Session.holdTurn
  refine hstart.park _ hend (by simp) (fun _ hi => by cases hi) ?_
  simp [huser]

theorem onUserTurnCompleted (h : Listening s) (hme : s.handler .stt = .done)
    (huser : s.state.isUserSpeaking = false) (hsys : s.state.isSystemSpeaking = false)
    (turn : UserTurnCompleted) : Listening (s.onUserTurnCompleted cfg .stt turn) := by
  have hstt : ∀ pc, (s.handler .stt).pc? = some pc → pc.interrupting = false := by simp [hme]
  have hheld : Listening { s with held := none } := {
    isOpen := h.isOpen
    endpoint := h.endpoint
    clean := h.clean
    timer := h.timer
    held := by simp
    interrupting := fun pc hpc hi => absurd hi (by simp [hstt pc hpc])
    silent := h.silent
    unanswered := h.unanswered
    noTimer := h.noTimer }
  have hcancel : Listening ({ s with held := none }.cancelHoldTimer .stt) := hheld.cancelHoldTimer hme
  unfold Session.onUserTurnCompleted
  simp only
  split
  · exact hcancel.leave
  · split
    · exact hcancel.holdTurn (by simp) (cancelHoldTimer_handler_done hme) (by simpa using huser)
        (by simpa using hsys) (by simpa using hstt) _
    · exact hcancel.reply (by simp) (by simpa using huser) (by simp) (by simpa using hstt) _

/-- `process_transcript_event` with a FINAL whose turn is open. -/
theorem turnCompleted (h : Listening s) (hme : s.handler .stt = .done) (hsys : s.state.isSystemSpeaking = false)
    (ev : TranscriptEvent) : Listening (s.turnCompleted cfg .stt (TurnManager.turnCompleted ev s.state)) := by
  have hstate : Listening { s with state := s.state.completeUserTurn } := h.setState rfl (by simp [hsys])
  exact hstate.onUserTurnCompleted hme rfl (by simpa using hsys) _

/-- The caller begins to speak, in a turn that stays open when no reply waits. -/
theorem userTurnStarted (h : Listening s) (hme : s.handler .stt = .done) (hwaits : NoReply s)
    {state : ConversationState} (hstate : state.isSystemSpeaking = false) : Listening ({ s with state }.onUserTurnStarted .stt) where
  isOpen := by simpa [Session.onUserTurnStarted] using h.isOpen
  endpoint := cancelHoldTimer_handler_done h.endpoint
  clean := by simpa [Session.onUserTurnStarted] using h.clean
  timer := by
    intro n hn
    exact absurd hn <| not_timerRuns_cancelHoldTimer (s := { s with state, llm := s.llm.cancel }) h.timer hme n
  held := by simp [Session.onUserTurnStarted, hstate]
  interrupting := by simp [Session.onUserTurnStarted, hme]
  silent := by simp [Session.onUserTurnStarted, hstate]
  unanswered := by
    intro _ h' pc hpc
    exact hwaits h' pc (by simpa [Session.onUserTurnStarted] using hpc)
  noTimer := by
    intro _ n hn
    exact not_timerRuns_cancelHoldTimer (s := { s with state, llm := s.llm.cancel }) h.timer hme n hn

/-- A PARTIAL once the system is silent. -/
theorem partialTurn (h : Listening s) (hme : s.handler .stt = .done) (hsys : s.state.isSystemSpeaking = false)
    (ev : TranscriptEvent)
    (hwaits : Text.isUuid ev.utteranceId = true → s.state.isUserSpeaking = false → NoReply s) :
    Listening (s.turnStarted cfg .stt (TurnManager.partialTurn ev s.state)) := by
  unfold TurnManager.partialTurn
  split
  · exact h.leave
  · rename_i huser
    split
    · rename_i state hstart
      have hw := hwaits (ConversationState.isUuid_of_startUserTurn hstart) (by simpa using huser)
      have hstate : state.isSystemSpeaking = false := by
        rw [ConversationState.startUserTurn_eq_some hstart]
        exact hsys
      exact (h.userTurnStarted hme hw hstate).leave
    · exact h.leave

/-- A FINAL without an open turn once the system is silent: the turn is opened and completed. -/
theorem finalTurn (h : Listening s) (hme : s.handler .stt = .done) (hsys : s.state.isSystemSpeaking = false)
    (ev : TranscriptEvent) : Listening (s.turnStarted cfg .stt (TurnManager.finalTurn ev s.state)) := by
  unfold TurnManager.finalTurn
  split
  · rename_i state hstart
    have hstate : state.isSystemSpeaking = false := by
      rw [ConversationState.startUserTurn_eq_some hstart]
      exact hsys
    have hcompleted : Listening ({ s with state := state.completeUserTurn, llm := s.llm.cancel }) :=
      h.congr rfl rfl rfl rfl (fun hu => by cases hu) (fun hs => by simp [hstate] at hs) h.clean
    have hanswered : Listening (Session.onUserTurnCompleted cfg .stt _ ⟨ev.utteranceId, ev.transcript⟩) :=
      (hcompleted.cancelHoldTimer hme).onUserTurnCompleted (cancelHoldTimer_handler_done hme) (by simp)
        (by simpa using hstate) _
    simpa [Session.turnStarted, Session.turnCompleted, Session.onUserTurnStarted, TurnManager.resume,
      TurnManager.turnCompleted, cancelHoldTimer_eq] using hanswered
  · exact h.leave

/-! ## Interruptions -/

/-- `handle_interruption` returns to `process_transcript_event`. -/
theorem interruptionReturned (h : Listening s) (hme : s.handler .stt = .done)
    (hsys : s.state.isSystemSpeaking = false) (k : TurnManager.After) (cut : Cut)
    (hwaits : ∀ ev, k = .partialInterrupted ev → Text.isUuid ev.utteranceId = true →
      s.state.isUserSpeaking = false → NoReply s) :
    Listening (s.interruptionReturned cfg .stt (.turn k) cut) := by
  have hemit : Listening (s.emit (.interruptionReturned cut)) := h.emit rfl
  cases k with
  | partialInterrupted ev => exact hemit.partialTurn hme hsys ev (hwaits ev rfl)
  | finalInterrupted ev => exact hemit.finalTurn hme hsys ev
  | finalStarted ev => exact hemit.turnCompleted hme hsys ev
  | partialStarted => exact hemit.leave
  | completed => exact hemit.leave

/-- The caller is heard over the system. -/
theorem stopGenerating (h : Listening s) {state : ConversationState} (huser : state.isUserSpeaking = false)
    (hsys : state.isSystemSpeaking = false) :
    Listening ({ s with state }.emit (.interruption s.cut)).stopGenerating := by
  have hstate : Listening { s with state } := h.setState huser (by simp [hsys])
  have hemit := hstate.emit (e := .interruption s.cut) rfl
  exact hemit.congr rfl rfl rfl rfl id id hemit.clean

/-- A barge-in by a transcript. -/
theorem interruptTurn (h : Listening s) (hme : s.handler .stt = .done) {state : ConversationState}
    (hstate : TurnManager.handleInterruption s.state = some state) (k : TurnManager.After)
    (hwaits : ∀ ev, k = .partialInterrupted ev → Text.isUuid ev.utteranceId = true →
      s.tts.active = none → NoReply s) : Listening (s.interrupt cfg .stt state (.turn k)) := by
  obtain ⟨hspeaking, huser, hsys⟩ := TurnManager.handleInterruption_eq_some hstate
  have hheld : s.held = none := by
    by_contra hs
    exact absurd hspeaking (by simp [h.held (Option.isSome_iff_ne_none.mpr hs)])
  have hstop := h.stopGenerating huser hsys
  unfold Session.interrupt Session.onUserInterrupted Session.ttsStop
  split
  · rename_i hactive
    exact hstop.interruptionReturned hme hsys k s.cut (fun ev hk hid _ => hwaits ev hk hid hactive)
  · rename_i r _
    have hcancel := hstop.congr (t := { ({ s with state }.emit (.interruption s.cut)).stopGenerating with
      tts := s.tts.cancel r }) rfl rfl rfl rfl id id hstop.clean
    exact hcancel.park _ (by simp) (by simp) (fun _ _ => ⟨hsys, hheld⟩)
      (fun hu => by simp [huser] at hu)

/-- A barge-in by the voice activity detector. -/
theorem interruptVad (h : Listening s) {state : ConversationState}
    (hstate : TurnManager.handleInterruption s.state = some state) :
    Listening (s.interrupt cfg .dispatcher state .vad) := by
  obtain ⟨hspeaking, huser, hsys⟩ := TurnManager.handleInterruption_eq_some hstate
  have hheld : s.held = none := by
    by_contra hs
    exact absurd hspeaking (by simp [h.held (Option.isSome_iff_ne_none.mpr hs)])
  have hstop := h.stopGenerating huser hsys
  unfold Session.interrupt Session.onUserInterrupted
  exact hstop.ttsStop (by simp) (fun _ _ _ => ⟨hsys, hheld⟩)
    (fun hu => by simp [huser] at hu) (hstop.emit (e := .interruptionReturned s.cut) rfl).leave

/-! ## Steps -/

theorem processTranscriptEvent (h : Listening s) (hme : s.handler .stt = .done) (ev : TranscriptEvent)
    (hwaits : s.opensTurn (.transcript .stt ev) = true → NoReply s) :
    Listening (s.processTranscriptEvent cfg .stt ev) := by
  unfold Session.opensTurn at hwaits
  have hbranch := transcribes cfg .stt s ev
  generalize s.processTranscriptEvent cfg .stt ev = t at hbranch ⊢
  cases hbranch with
  | partialInterrupted htype hstate =>
      refine h.interruptTurn hme hstate _ (fun ev' hk hid hactive => hwaits ?_)
      obtain ⟨hspeaking, -⟩ := TurnManager.handleInterruption_eq_some hstate
      cases hk
      simp [htype, hid, hspeaking, hactive]
  | partialTurn htype hsys =>
      exact h.partialTurn hme hsys ev (fun hid huser => hwaits (by simp [htype, hid, hsys, huser]))
  | turnCompleted _ huser => exact h.turnCompleted hme (h.silent huser) ev
  | finalInterrupted _ _ _ hstate => exact h.interruptTurn hme hstate _ (fun ev' hk => by cases hk)
  | finalTurn _ _ _ hsys => exact h.finalTurn hme hsys ev
  | blank => exact h.leave

theorem processAudioFrame (h : Listening s) (hme : s.handler .dispatcher = .done) (bytes : Bytes)
    (honset : s.onset bytes = true → s.held.isSome = true → s.state.isUserSpeaking = false) :
    Listening (s.processAudioFrame cfg .dispatcher bytes) := by
  unfold Session.processAudioFrame
  cases hvad : s.vad with
  | none => exact h
  | some vad =>
      have hset : Listening { s with vad := some (vad.update bytes).2 } :=
        h.congr rfl rfl rfl rfl id id h.clean
      simp only
      split
      · rename_i hspeech
        split
        · rename_i state hstate
          exact hset.interruptVad hstate
        · split
          · rename_i hheld
            exact hset.startHoldTimer hme (honset (by simp [Session.onset, hvad, hspeech]) hheld)
          · exact hset
      · exact hset

/-- `stop` returns to a call of the recogniser's task, of the dispatcher or of a timer. -/
theorem stopReturned (h : Listening s) (hend : me ≠ .endpoint) {k : StopFor}
    (hk : k.runsIn me = true)
    (hint : ∀ j cut, k = .interruption j cut → me = .stt → s.state.isSystemSpeaking = false ∧ s.held = none)
    (huser : k.isReply = true → s.state.isUserSpeaking = false) : Listening (s.stopReturned me k) := by
  cases k with
  | interruption j cut =>
      exact (h.emit (e := .bargeIn) rfl).park (.bargeIn j cut) hend (by simp)
        (fun hstt _ => hint j cut rfl hstt) (fun _ => rfl)
  | reply turn history ticket => exact h.replyBegun (huser rfl) ..
  | speakText text utteranceId ticket => cases me <;> first | exact absurd rfl hend | cases hk
  | close => cases me <;> first | exact absurd rfl hend | cases hk

/-- A suspended call goes on. -/
theorem resumeHandler (h : Listening s) (ht : Typed s) {pc : Pc} {cancelling : Bool}
    (hpc : s.handler me = .suspended pc cancelling) {w : Wake Unit} (hfits : w.fits cancelling = true)
    (hturn : s.opensTurn (.handler me w) = true → NoReply s) :
    Listening ((s.leave me).resumeHandler cfg me pc w) := by
  have hpc? : (s.handler me).pc? = some pc := by rw [hpc, Coroutine.pc?_suspended]
  have hruns : pc.runsIn me = true := ht.runsIn me pc hpc?
  have hend : me ≠ .endpoint := by
    rintro rfl
    rw [h.endpoint] at hpc
    cases hpc
  have hl : Listening (s.leave me) := h.leave
  have hidle : (s.leave me).handler me = .done := by simp
  have huser : pc.inReply = true → s.state.isUserSpeaking = false := by
    intro hin
    by_contra hu
    exact absurd hin (by simp [h.unanswered (by simpa using hu) me pc hpc?])
  have hint : me = .stt → pc.interrupting = true → s.state.isSystemSpeaking = false ∧ s.held = none := by
    rintro rfl
    exact h.interrupting pc hpc?
  unfold Session.resumeHandler
  split
  · cases pc with
    | stopping r hadAudio k =>
        have hstop : Listening ((s.leave me).stopReturned me k) :=
          hl.stopReturned hend hruns (fun j cut hk hstt => hint hstt (by rw [hk]; rfl)) huser
        simp only [Session.replyStopped]
        split
        · refine (hl.emit ?_).park (.clearing k) hend (by simp)
            (fun hstt hi => hint hstt (by cases k <;> simp_all [Pc.interrupting])) ?_
          · rfl
          · intro hu
            by_contra hin
            exact absurd hu (by simp [huser (by simpa [Pc.inReply, Pc.stop?] using hin)])
        · exact hstop
    | clearing k => exact hl.stopReturned hend hruns (fun j cut hk hstt => hint hstt (by rw [hk]; rfl)) huser
    | bargeIn k cut =>
        cases k with
        | turn k =>
            have hstt : me = .stt := by cases me <;> simp_all [Pc.runsIn, StopFor.runsIn]
            subst hstt
            refine hl.interruptionReturned hidle (hint rfl rfl).1 k cut (fun ev hk hid hu => ?_)
            subst hk
            exact (hturn (by simpa [Session.opensTurn, hpc, hid] using hu)).leave .stt
        | vad => exact (hl.emit rfl).leave
    | turnHeld => exact hl.leave
    | holdSleep =>
        cases me with
        | timer n =>
            have hc : cancelling = false := by simpa [Wake.fits] using hfits
            subst hc
            have hsilent : s.state.isUserSpeaking = false := by
              by_contra hu
              exact h.noTimer (by simpa using hu) n hpc
            refine hl.releaseHeldTurn hend hsilent (fun m hm => ?_)
            -- only the session's own timer runs, and it is the one that has run out
            have hne : m ≠ n := by
              rintro rfl
              simp [Session.timerRuns] at hm
            have hne' : Handler.timer m ≠ .timer n := fun heq => hne (by injection heq)
            have hm' : s.timerRuns m := by
              simpa [Session.timerRuns, Function.update_of_ne hne'] using hm
            exact hne (Option.some.inj ((h.timer m hm').symm.trans (h.timer n hpc)))
        | _ => cases hruns
    | closing g => cases me <;> first | exact absurd rfl hend | cases hruns
  · exact hl.leave

/-- **A step that respects the timer keeps the invariant.** -/
theorem step (h : Listening s) (ht : Typed s) {l : Label} (hl : TimerRespected s l = true) (hstep : step cfg s l = some t) :
    Listening t := by
  cases StepTo.of_step hstep with
  | @transcript me ev htranscribes hclosed hidle =>
      cases me with
      | stt =>
          refine h.processTranscriptEvent hidle ev (fun ho => ht.noReply ?_)
          simpa [TimerRespected, Label.plain, ho] using hl
      | endpoint => exact absurd (hclosed rfl) (by simp [h.isOpen])
      | _ => cases htranscribes
  | frame hidle =>
      refine h.processAudioFrame hidle _ (fun ho hheld => ?_)
      simpa [TimerRespected, ho, hheld] using hl
  | speakText => simp [TimerRespected, Label.plain] at hl
  | close => simp [TimerRespected, Label.plain] at hl
  | handler hpc hfits _ =>
      refine h.resumeHandler ht hpc hfits (fun ho => ht.noReply ?_)
      simpa [TimerRespected, Label.plain, ho] using hl
  | generation hgen => exact h.aside (resumeGeneration_aside hgen)
  | reply hreply => exact h.aside (resumeReply_aside hreply)

end Listening

/-- No reply is started over the caller, and no timer runs while the caller speaks. -/
structure NeverOver (s : Session) : Prop where
  replies : ∀ e ∈ s.trace, e.overUser = false
  timers : s.state.isUserSpeaking = true → ∀ n, ¬ s.timerRuns n
  turns : ¬ (s.state.isUserSpeaking = true ∧ s.state.isSystemSpeaking = true)

/-- **No reply starts while the caller speaks**, in every run in which no frame restarts the timer of a
turn whose continuation has begun and no user turn is opened over a reply that waits in `tts.begin`. -/
theorem neverOver_of_timerRespected (cfg : Config) {ls : List Label} {s : Session}
    (h : Run (step cfg) (fun s l => TimerRespected s l = true) (fresh cfg) ls s) : NeverOver s := by
  obtain ⟨-, hinv⟩ : Typed s ∧ Listening s := h.invariant (I := fun s => Typed s ∧ Listening s)
    ⟨Typed.fresh cfg, Listening.fresh cfg⟩ (fun ⟨ht, hi⟩ hl hstep => ⟨ht.step hstep, hi.step ht hl hstep⟩)
  exact ⟨hinv.clean, hinv.noTimer, fun ⟨hu, hs⟩ => by simp [hinv.silent hu] at hs⟩

/-! ## Two runs -/

def anId : Text := "00000000-0000-0000-0000-000000000000".toList

def loudFrame : Bytes := [0xFF, 0x7F]

/-- The caller pauses after "I am calling for" and, the timer having been restarted once, goes on. -/
def joinedTurn : List Label :=
  [.transcript .stt ⟨.FINAL, anId, "I am calling for".toList⟩, .handler .stt (.ok ()),
    .frame loudFrame, .frame loudFrame, .frame loudFrame,
    .transcript .stt ⟨.PARTIAL, anId, "my".toList⟩, .transcript .stt ⟨.FINAL, anId, "my order.".toList⟩]

theorem neverOver_joinedTurn : ∃ s, Run (step {}) (fun s l => TimerRespected s l = true) (fresh {}) joinedTurn s ∧
    NeverOver s ∧ s.llm.count = 1 := by
  obtain ⟨s, hrun, hcount⟩ := Run.exists_of_exec (P := fun s => s.llm.count == 1)
    (s := fresh {}) (show (exec (step {}) (fun s l => TimerRespected s l = true) _ joinedTurn).any _ = true by
      decide +kernel)
  exact ⟨s, hrun, neverOver_of_timerRespected {} hrun, by simpa using hcount⟩

/-- The same pause; here the frames come after the first words of the continuation. -/
def answeredOver : List Label :=
  [.transcript .stt ⟨.FINAL, anId, "I am calling for".toList⟩, .handler .stt (.ok ()),
    .transcript .stt ⟨.PARTIAL, anId, "my".toList⟩, .frame loudFrame, .frame loudFrame, .frame loudFrame,
    .handler (.timer 1) (.ok ())]

/-- The restarted timer runs out while the caller speaks, and the held part is answered. -/
theorem answeredOver_not_neverOver : ∃ s,
    Run (step {}) (fun _ l => l.plain = true) (fresh {}) answeredOver s ∧ ¬ NeverOver s := by
  obtain ⟨s, hrun, hboth⟩ := Run.exists_of_exec
    (P := fun s => s.state.isUserSpeaking && s.state.isSystemSpeaking) (s := fresh {})
    (show (exec (step {}) (fun _ l => l.plain = true) _ answeredOver).any _ = true by decide +kernel)
  exact ⟨s, hrun, fun h => h.turns (by simpa using hboth)⟩

end Voxera.Voice
