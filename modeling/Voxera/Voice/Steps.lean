import Voxera.Voice.Calls

/-!
# What one step does to the consumers

Most of what the calls into the session do does not touch the speech consumer: it moves the user turn,
the held turn and the hold timer, and at most cancels the generation (`Hushed`). What is left are a few
kinds of steps, and `Called` lists them: a call of `_reply`, the interruption of the system and its
return, and the places where `stop` returns.
-/

namespace Voxera.Voice

open EventLoop
open Session

variable {cfg : Config} {me : Handler} {s t u : Session}

/-- The call is suspended in the interruption of the system, or in `tts.stop`. -/
def Pc.speech : Pc → Bool
  | .turnHeld | .holdSleep | .closing _ => false
  | _ => true

/-- The speech consumer, the history, the system turn and the calls that await it are left alone; the
generation may be cancelled. -/
structure Hushed (s t : Session) : Prop where
  history : t.history = s.history
  tts : t.tts = s.tts
  llm : t.llm = s.llm ∨ t.llm = s.llm.cancel
  begun : t.begun = s.begun
  closed : t.closed = s.closed
  system : t.state.isSystemSpeaking = s.state.isSystemSpeaking
  handler : ∀ h pc, pc.speech = true → ((t.handler h).pc? = some pc ↔ (s.handler h).pc? = some pc)
  trace : ∃ es, t.trace = s.trace ++ es ∧ ∀ e ∈ es, ∃ utteranceId, e = .turnHeld utteranceId

namespace Hushed

theorem refl (s : Session) : Hushed s s :=
  ⟨rfl, rfl, Or.inl rfl, rfl, rfl, rfl, fun _ _ _ => Iff.rfl, [], (List.append_nil _).symm, by simp⟩

theorem trans (h : Hushed s t) (h' : Hushed t u) : Hushed s u where
  history := h'.history.trans h.history
  tts := h'.tts.trans h.tts
  llm := by
    rcases h'.llm with ht | ht <;> rcases h.llm with hs | hs <;> rw [ht, hs]
    · exact Or.inl rfl
    · exact Or.inr rfl
    · exact Or.inr rfl
    · exact Or.inr Llm.Consumer.cancel_cancel
  begun := h'.begun.trans h.begun
  closed := h'.closed.trans h.closed
  system := h'.system.trans h.system
  trace := extends_trans h.trace h'.trace
  handler me pc hpc := (h'.handler me pc hpc).trans (h.handler me pc hpc)

/-- Only the user turn, the timing, the held turn, the detector and the timers change. -/
theorem of_eq (hhistory : t.history = s.history) (htts : t.tts = s.tts) (hllm : t.llm = s.llm) (hbegun : t.begun = s.begun)
    (hclosed : t.closed = s.closed) (hsystem : t.state.isSystemSpeaking = s.state.isSystemSpeaking)
    (htrace : t.trace = s.trace) (hhandler : t.handler = s.handler) : Hushed s t :=
  ⟨hhistory, htts, Or.inl hllm, hbegun, hclosed, hsystem, fun _ _ _ => by rw [hhandler], [],
    by rw [htrace, List.append_nil], by simp⟩

theorem cancelGeneration (s : Session) : Hushed s { s with llm := s.llm.cancel } :=
  { refl s with llm := Or.inr rfl }

theorem cancelHoldTimer (s : Session) (me : Handler) : Hushed s (s.cancelHoldTimer me) :=
  ⟨by simp, by simp, Or.inl (by simp), by simp, by simp, by simp, fun _ _ _ => by simp, [], by simp, by simp⟩

theorem startHoldTimer (hfree : s.handler (.timer s.timers) = .done) (me : Handler) :
    Hushed s (s.startHoldTimer me) where
  history := by simp
  tts := by simp
  llm := Or.inl (by simp)
  begun := by simp
  closed := by simp
  system := by simp
  trace := ⟨[], by simp, by simp⟩
  handler h' pc hpc := by
    rw [startHoldTimer_handler]
    by_cases hh : h' = .timer s.timers
    · subst hh
      simp only [Function.update_self, Coroutine.await, Coroutine.pc?_suspended, hfree, Coroutine.pc?_done]
      constructor
      · rintro ⟨rfl⟩
        cases hpc
      · intro h
        cases h
    · simp [Function.update_of_ne hh]

theorem turnHeld (s : Session) (utteranceId : Text) : Hushed s (s.emit (.turnHeld utteranceId)) :=
  { refl s with trace := ⟨[.turnHeld utteranceId], rfl, by simp⟩ }

/-- A call that awaits none of these things begins to wait, or goes on. -/
theorem park (hme : ∀ pc, (s.handler me).pc? = some pc → pc.speech = false) {pc : Pc} (hpc : pc.speech = false) :
    Hushed s (s.park me pc) :=
  { refl s with
    handler := by
      intro h' pc' hpc'
      by_cases hh : h' = me
      · subst hh
        simp only [park_handler, Function.update_self, Coroutine.await, Coroutine.pc?_suspended,
          Option.some.injEq]
        constructor
        · rintro rfl
          simp [hpc] at hpc'
        · intro h
          simp [hme pc' h] at hpc'
      · simp [Function.update_of_ne hh] }

theorem leave (hme : ∀ pc, (s.handler me).pc? = some pc → pc.speech = false) : Hushed s (s.leave me) :=
  { refl s with
    handler := by
      intro h' pc' hpc'
      by_cases hh : h' = me
      · subst hh
        simp only [leave_handler, Function.update_self, Coroutine.pc?_done]
        constructor
        · intro h
          cases h
        · intro h
          simp [hme pc' h] at hpc'
      · simp [Function.update_of_ne hh] }

theorem leave_idle (hme : s.handler me = .done) : Hushed s (s.leave me) := leave (by simp [hme])

end Hushed

/-- What a call does with a user turn: at most it answers one, at the end. -/
inductive Answers (cfg : Config) (me : Handler) (calls : Prop) (s : Session) : Session → Prop
  | hushed {t : Session} (h : Hushed s t) : Answers cfg me calls s t
  | replies {t : Session} (hcalls : calls) (h : Hushed s t) (hidle : t.handler me = .done)
      (turn : UserTurnCompleted) : Answers cfg me calls s (t.reply cfg me turn)

namespace Answers

variable {calls calls' : Prop}

theorem of_hushed (h : Hushed s t) (h' : Answers cfg me calls t u) : Answers cfg me calls s u := by
  cases h' with
  | hushed h' => exact .hushed (h.trans h')
  | replies hcalls h' hidle turn => exact .replies hcalls (h.trans h') hidle turn

theorem mono (h : Answers cfg me calls s t) (hcalls : calls → calls') : Answers cfg me calls' s t := by
  cases h with
  | hushed h => exact .hushed h
  | replies hc h hidle turn => exact .replies (hcalls hc) h hidle turn

theorem holdTurn (hfree : Free s me) (hne : ∀ n, me ≠ .timer n) (turn : UserTurnCompleted) :
    Hushed s (s.holdTurn me turn) := by
  have hheld : Hushed s { s with held := some turn } := .of_eq rfl rfl rfl rfl rfl rfl rfl rfl
  have hstart := hheld.trans (.startHoldTimer (s := { s with held := some turn }) hfree.timer me)
  have hidle : ({ s with held := some turn }.startHoldTimer me).handler me = .done := by
    rw [startHoldTimer_handler, Function.update_of_ne (hne _)]
    exact cancelHoldTimer_handler_done (s := { s with held := some turn }) hfree.idle
  refine (hstart.trans (.turnHeld _ turn.utteranceId)).trans (.park ?_ rfl)
  simp [hidle]

theorem onUserTurnCompleted (hfree : Free s me) (hne : ∀ n, me ≠ .timer n) (turn : UserTurnCompleted) :
    Answers cfg me (s.answers cfg turn = true) s (s.onUserTurnCompleted cfg me turn) := by
  have hnone : Hushed s { s with held := none } := .of_eq rfl rfl rfl rfl rfl rfl rfl rfl
  have hcancel := hnone.trans (.cancelHoldTimer { s with held := none } me)
  have hfree' : Free ({ s with held := none }.cancelHoldTimer me) me :=
    Free.cancelHoldTimer ⟨hfree.idle, hfree.timer⟩
  unfold Session.onUserTurnCompleted
  simp only
  split
  · exact .hushed (hcancel.trans (.leave_idle hfree'.idle))
  · rename_i htext
    split
    · exact .hushed (hcancel.trans (holdTurn hfree' hne _))
    · rename_i hfinished
      refine .replies ?_ hcancel hfree'.idle _
      simp [Session.answers, htext, hfinished]

theorem turnCompleted (hfree : Free s me) (hne : ∀ n, me ≠ .timer n) (ev : TranscriptEvent) :
    Answers cfg me (s.answers cfg ⟨ev.utteranceId, ev.transcript⟩ = true) s
      (s.turnCompleted cfg me (TurnManager.turnCompleted ev s.state)) := by
  have hstate : Hushed s { s with state := s.state.completeUserTurn } := .of_eq rfl rfl rfl rfl rfl rfl rfl rfl
  have hfree' : Free { s with state := s.state.completeUserTurn } me := ⟨hfree.idle, hfree.timer⟩
  exact .of_hushed hstate (onUserTurnCompleted hfree' hne ⟨ev.utteranceId, ev.transcript⟩)

theorem userTurnStarted {state : ConversationState} (hsystem : state.isSystemSpeaking = s.state.isSystemSpeaking) :
    Hushed s ({ s with state }.onUserTurnStarted me) := by
  have hstate : Hushed s { s with state } := .of_eq rfl rfl rfl rfl rfl hsystem rfl rfl
  exact (hstate.trans (.cancelGeneration _)).trans (.cancelHoldTimer _ me)

theorem partialTurn (hme : s.handler me = .done) (ev : TranscriptEvent) :
    Hushed s (s.turnStarted cfg me (TurnManager.partialTurn ev s.state)) := by
  unfold TurnManager.partialTurn
  split
  · exact .leave_idle hme
  · split
    · rename_i state hstart
      have hsystem : state.isSystemSpeaking = s.state.isSystemSpeaking := by
        rw [ConversationState.startUserTurn_eq_some hstart]
      exact (userTurnStarted hsystem).trans (.leave_idle (cancelHoldTimer_handler_done hme))
    · exact .leave_idle hme

theorem finalTurn (hfree : Free s me) (hne : ∀ n, me ≠ .timer n) (ev : TranscriptEvent) :
    Answers cfg me (Text.isUuid ev.utteranceId = true ∧ s.answers cfg ⟨ev.utteranceId, ev.transcript⟩ = true) s
      (s.turnStarted cfg me (TurnManager.finalTurn ev s.state)) := by
  unfold TurnManager.finalTurn
  split
  · rename_i state hstart
    have hsystem : state.isSystemSpeaking = s.state.isSystemSpeaking := by
      rw [ConversationState.startUserTurn_eq_some hstart]
    have hstarted : Hushed s ({ s with state }.onUserTurnStarted me) := userTurnStarted hsystem
    have hfree' : Free ({ s with state }.onUserTurnStarted me) me :=
      Free.cancelHoldTimer (s := { s with state, llm := s.llm.cancel }) ⟨hfree.idle, hfree.timer⟩
    refine .of_hushed hstarted (mono (turnCompleted hfree' hne ev) (fun ha => ?_))
    rw [answers_congr (s := s) (by simp [Session.onUserTurnStarted])] at ha
    exact ⟨ConversationState.isUuid_of_startUserTurn hstart, ha⟩
  · exact .hushed (.leave_idle hfree.idle)

/-- `handle_interruption` returns. -/
theorem interruptionReturned (hfree : Free s me) (hne : ∀ n, me ≠ .timer n) {k : AfterInterruption}
    (hk : ∀ k', k = .turn k' → k'.interrupted = true) (cut : Cut) :
    Answers cfg me (∃ ev, k = .turn (.finalInterrupted ev) ∧ Text.isUuid ev.utteranceId = true ∧
      s.answers cfg ⟨ev.utteranceId, ev.transcript⟩ = true) (s.emit (.interruptionReturned cut))
      (s.interruptionReturned cfg me k cut) := by
  have hfree' : Free (s.emit (.interruptionReturned cut)) me := ⟨hfree.idle, hfree.timer⟩
  cases k with
  | vad => exact .hushed (.leave_idle hfree'.idle)
  | turn k =>
      cases k with
      | partialInterrupted ev => exact .hushed (partialTurn hfree'.idle ev)
      | finalInterrupted ev =>
          refine mono (finalTurn hfree' hne ev) ?_
          rintro ⟨hid, ha⟩
          exact ⟨ev, rfl, hid, ha⟩
      | _ => cases hk _ rfl

end Answers

/-! ## `speak_text` opens its reply -/

/-- A new reply is created, and two items may be put on its queue. -/
structure SpeechOpened (me : Handler) (ticket : Nat) (s t : Session) : Prop where
  state : t.state = s.state
  llm : t.llm = s.llm
  begun : t.begun = s.begun
  closed : t.closed = s.closed
  handler : t.handler = Function.update s.handler me .done
  current : t.tts.current = some s.tts.count
  count : t.tts.count = s.tts.count + 1
  task : t.tts.task = Function.update s.tts.task s.tts.count (.await .created)
  audioSent : t.tts.audioSent = false
  trace : ∃ es, t.trace = s.trace ++ .opened ticket s.tts.count :: es ∧ ∀ e ∈ es, ∃ r item, e = .queued r none item

theorem speakTextBegun_opened (me : Handler) (text utteranceId : Text) (ticket : Nat) (s : Session) :
    SpeechOpened me ticket s (s.speakTextBegun me text utteranceId ticket) := by
  have hspeak := Tts.Consumer.speak_snd (s.tts.openReply utteranceId) text
  have hfinish := Tts.Consumer.finish_snd ((s.tts.openReply utteranceId).speak text).2
  refine ⟨rfl, rfl, rfl, rfl, rfl, hfinish.1.trans hspeak.1, hfinish.2.1.trans hspeak.2.1,
    hfinish.2.2.1.trans hspeak.2.2.1, hfinish.2.2.2.trans hspeak.2.2.2, ?_⟩
  refine ⟨((s.tts.openReply utteranceId).speak text).1.toList.map (fun r => .queued r none (some text)) ++
    ((s.tts.openReply utteranceId).speak text).2.finish.1.toList.map (fun r => .queued r none none), ?_, ?_⟩
  · simp only [Session.speakTextBegun, leave_trace, emits_trace, emit_trace, emit_tts, emits_tts, List.append_assoc,
      List.nil_append, List.cons_append]
  · intro e he
    simp only [List.mem_append, List.mem_map] at he
    rcases he with ⟨r, -, rfl⟩ | ⟨r, -, rfl⟩
    · exact ⟨r, some text, rfl⟩
    · exact ⟨r, none, rfl⟩

/-! ## The steps of the calls -/

/-- The step calls `handle_interruption` while the system speaks. -/
def Session.interrupts (s : Session) : Label → Bool
  | .transcript _ ev =>
    s.state.isSystemSpeaking &&
      (ev.type = .PARTIAL || (!s.state.isUserSpeaking && Text.strip ev.transcript ≠ []))
  | .frame bytes => s.state.isSystemSpeaking && s.onset bytes
  | _ => false

/-- The step runs `close` from its call of `tts.stop` on. -/
def Session.closesSpeech (s : Session) : Label → Bool
  | .close => s.llm.active.isNone
  | .handler h (.ok _) =>
    match s.handler h with
    | .suspended (.closing _) _ => true
    | _ => false
  | _ => false

/-- `handle_interruption` up to `tts.stop`, with the state it has written. -/
@[simps!]
def Session.interrupted (s : Session) (state : ConversationState) : Session :=
  ({ s with state }.emit (.interruption s.cut)).stopGenerating

theorem trace_interrupted (vad : Option EnergyVAD) (state : ConversationState) :
    ({ s with vad }.interrupted state).trace = s.trace ++ [.interruption s.cut] := rfl

/-- `stop` returns to the call that is suspended at the place. -/
inductive Returns (s : Session) (k : StopFor) : Pc → Prop
  | stopped {r : Nat} (hdone : (s.tts.task r).isDone = true) : Returns s k (.stopping r false k)
  | cleared : Returns s k (.clearing k)

theorem Returns.stop? {k : StopFor} {pc : Pc} (h : Returns s k pc) : pc.stop? = some k := by
  cases h <;> rfl

theorem Returns.speech {k : StopFor} {pc : Pc} (h : Returns s k pc) : pc.speech = true := by
  cases h <;> rfl

/-- The steps of the calls into the session. -/
inductive Called (cfg : Config) (s : Session) (l : Label) : Session → Prop
  | answers {me : Handler} {t : Session} (hidle : ∀ pc, (s.handler me).pc? = some pc → pc.speech = false)
      (h : Answers cfg me (s.callsReply cfg l = true) s t) : Called cfg s l t
  | interruptReturns {me : Handler} {vad : Option EnergyVAD} {state : ConversationState} {t : Session}
      (hinterrupts : s.interrupts l = true) (hidle : s.handler me = .done)
      (hstate : TurnManager.handleInterruption s.state = some state) (hactive : s.tts.active = none)
      (h : Answers cfg me (s.callsReply cfg l = true)
        (({ s with vad }.interrupted state).emit (.interruptionReturned s.cut)) t) : Called cfg s l t
  | interruptStops {me : Handler} {vad : Option EnergyVAD} {state : ConversationState} {k : AfterInterruption} {r : Nat}
      (hinterrupts : s.interrupts l = true) (hidle : s.handler me = .done)
      (hstate : TurnManager.handleInterruption s.state = some state) (hactive : s.tts.active = some r) :
      Called cfg s l ({ { s with vad }.interrupted state with tts := s.tts.cancel r }.park me
        (.stopping r s.tts.audioSent (.interruption k s.cut)))
  | clears {me : Handler} {r : Nat} {k : StopFor} {cancelling : Bool}
      (hpc : s.handler me = .suspended (.stopping r true k) cancelling) (hdone : (s.tts.task r).isDone = true) :
      Called cfg s l (((s.leave me).emit (.tts r (.json (.ttsClear (StopFor.reason k))))).park me (.clearing k))
  | bargesIn {me : Handler} {pc : Pc} {k : AfterInterruption} {cut : Cut} {cancelling : Bool}
      (hpc : s.handler me = .suspended pc cancelling) (hreturns : Returns s (.interruption k cut) pc) :
      Called cfg s l (((s.leave me).emit .bargeIn).park me (.bargeIn k cut))
  | returns {me : Handler} {k : AfterInterruption} {cut : Cut} {cancelling : Bool} {t : Session}
      (hpc : s.handler me = .suspended (.bargeIn k cut) cancelling)
      (h : Answers cfg me (s.callsReply cfg l = true) ((s.leave me).emit (.interruptionReturned cut)) t) :
      Called cfg s l t
  | begins {me : Handler} {pc : Pc} {turn : UserTurnCompleted} {history : List Llm.Entry} {ticket : Nat}
      {cancelling : Bool} (hl : l = .handler me (.ok ())) (hpc : s.handler me = .suspended pc cancelling)
      (hreturns : Returns s (.reply turn history ticket) pc) :
      Called cfg s l ((s.leave me).replyBegun me turn history ticket)
  | speakBegins {me : Handler} {pc : Pc} {text utteranceId : Text} {ticket : Nat} {cancelling : Bool}
      (hl : l = .handler me (.ok ())) (hpc : s.handler me = .suspended pc cancelling)
      (hreturns : Returns s (.speakText text utteranceId ticket) pc) :
      Called cfg s l ((s.leave me).speakTextBegun me text utteranceId ticket)
  | closes {me : Handler} {pc : Pc} {cancelling : Bool} (hpc : s.handler me = .suspended pc cancelling)
      (hreturns : Returns s .close pc) : Called cfg s l ((s.leave me).closeReturned me)
  | speakText {text utteranceId : Text} (hl : l = .speakText text utteranceId)
      (hidle : s.handler .endpoint = .done) (hopen : s.closed = false) :
      Called cfg s l (s.speakText .endpoint text utteranceId)
  | closesSpeech {t : Session} (hl : s.closesSpeech l = true) (h : Hushed s t) (hidle : t.handler .endpoint = .done) :
      Called cfg s l (t.closeTts .endpoint)

/-! ## The inversion -/

/-- The tasks that transcribe are no timers. -/
theorem ne_timer_of_transcribes (h : me.transcribes = true) (n : Nat) : me ≠ .timer n := by
  rintro rfl
  cases h

namespace Called

variable {l : Label}

theorem interrupt (vad : Option EnergyVAD) {state : ConversationState} {k : AfterInterruption} (hfree : Free s me)
    (hne : ∀ n, me ≠ .timer n) (hinterrupts : s.interrupts l = true)
    (hstate : TurnManager.handleInterruption s.state = some state)
    (hk : ∀ k', k = .turn k' → k'.interrupted = true)
    (hcalls : ∀ ev, k = .turn (.finalInterrupted ev) → s.tts.active = none → Text.isUuid ev.utteranceId = true →
      s.answers cfg ⟨ev.utteranceId, ev.transcript⟩ = true → s.callsReply cfg l = true) :
    Called cfg s l ({ s with vad }.interrupt cfg me state k) := by
  have hfree' : Free ({ s with vad }.interrupted state) me := ⟨hfree.idle, hfree.timer⟩
  cases hactive : s.tts.active with
  | none =>
      have heq : { s with vad }.interrupt cfg me state k =
          ({ s with vad }.interrupted state).interruptionReturned cfg me k s.cut := by
        simp only [Session.interrupt, Session.onUserInterrupted, Session.ttsStop, stopGenerating_tts, emit_tts, hactive]
        rfl
      rw [heq]
      refine .interruptReturns hinterrupts hfree.idle hstate hactive (.mono (.interruptionReturned hfree' hne hk s.cut) ?_)
      rintro ⟨ev, rfl, hid, ha⟩
      exact hcalls ev rfl hactive hid ha
  | some r =>
      have heq : { s with vad }.interrupt cfg me state k =
          { { s with vad }.interrupted state with tts := s.tts.cancel r }.park me
            (.stopping r s.tts.audioSent (.interruption k s.cut)) := by
        simp only [Session.interrupt, Session.onUserInterrupted, Session.ttsStop, stopGenerating_tts, emit_tts, hactive]
        rfl
      rw [heq]
      exact .interruptStops hinterrupts hfree.idle hstate hactive

theorem transcript (hfree : Free s me) (htranscribes : me.transcribes = true) (ev : TranscriptEvent) :
    Called cfg s (.transcript me ev) (s.processTranscriptEvent cfg me ev) := by
  have hne : ∀ n, me ≠ .timer n := ne_timer_of_transcribes htranscribes
  have hquiet : ∀ pc, (s.handler me).pc? = some pc → pc.speech = false := by simp [hfree.idle]
  have hbranch := transcribes cfg me s ev
  generalize s.processTranscriptEvent cfg me ev = t at hbranch ⊢
  cases hbranch with
  | partialInterrupted htype hstate =>
      have hsys := (TurnManager.handleInterruption_eq_some hstate).1
      refine interrupt s.vad hfree hne (by simp [Session.interrupts, hsys, htype]) hstate ?_ ?_
      · rintro k' ⟨⟩
        rfl
      · rintro ev' ⟨⟩
  | partialTurn htype hsys => exact .answers hquiet (.hushed (Answers.partialTurn hfree.idle ev))
  | turnCompleted htype huser =>
      refine .answers hquiet (.mono (.turnCompleted hfree hne ev) ?_)
      intro ha
      simp [Session.callsReply, htype, ha, huser]
  | finalInterrupted htype huser htext hstate =>
      have hsys := (TurnManager.handleInterruption_eq_some hstate).1
      refine interrupt s.vad hfree hne (by simp [Session.interrupts, hsys, huser, htext]) hstate ?_ ?_
      · rintro k' ⟨⟩
        rfl
      · rintro ev' ⟨⟩ hactive hid ha
        simp [Session.callsReply, htype, ha, htext, hid, hactive]
  | finalTurn htype huser htext hsys =>
      refine .answers hquiet (.mono (.finalTurn hfree hne ev) ?_)
      rintro ⟨hid, ha⟩
      simp [Session.callsReply, htype, ha, htext, hid, hsys]
  | blank htype huser htext => exact .answers hquiet (.hushed (.leave_idle hfree.idle))

theorem frame (hfree : Free s .dispatcher) (bytes : Bytes) :
    Called cfg s (.frame bytes) (s.processAudioFrame cfg .dispatcher bytes) := by
  have hquiet : ∀ pc, (s.handler .dispatcher).pc? = some pc → pc.speech = false := by simp [hfree.idle]
  unfold Session.processAudioFrame
  split
  · exact .answers hquiet (.hushed (.refl s))
  · rename_i vad hvad
    have hupdated : Hushed s { s with vad := some (vad.update bytes).2 } := .of_eq rfl rfl rfl rfl rfl rfl rfl rfl
    simp only
    split
    · rename_i honset
      cases hstate : TurnManager.handleInterruption s.state with
      | some state =>
          have hsys := (TurnManager.handleInterruption_eq_some hstate).1
          refine interrupt (some (vad.update bytes).2) hfree (by simp) ?_ hstate ?_ ?_
          · simp [Session.interrupts, Session.onset, hsys, hvad, honset]
          · rintro k' ⟨⟩
          · rintro ev ⟨⟩
      | none =>
          simp only
          split
          · have htimer : { s with vad := some (vad.update bytes).2 }.handler (.timer s.timers) = .done := hfree.timer
            exact .answers hquiet (.hushed (hupdated.trans (.startHoldTimer htimer .dispatcher)))
          · exact .answers hquiet (.hushed hupdated)
    · exact .answers hquiet (.hushed hupdated)

theorem close (hidle : s.handler .endpoint = .done) : Called cfg s .close (s.close .endpoint) := by
  have hquiet : ∀ pc, (s.handler .endpoint).pc? = some pc → pc.speech = false := by simp [hidle]
  have hheld : Hushed s { s.cancelHoldTimer .endpoint with held := none } :=
    (Hushed.cancelHoldTimer s .endpoint).trans (.of_eq rfl rfl rfl rfl rfl rfl rfl rfl)
  have hidle' : { s.cancelHoldTimer .endpoint with held := none }.handler .endpoint = .done :=
    cancelHoldTimer_handler_done hidle
  unfold Session.close
  simp only
  split
  · rename_i hactive
    rw [cancelHoldTimer_llm] at hactive
    exact .closesSpeech (by simp [Session.closesSpeech, hactive]) hheld hidle'
  · refine .answers hquiet (.hushed ((hheld.trans (.cancelGeneration _)).trans (.park (fun pc hpc => ?_) rfl)))
    rw [hidle'] at hpc
    cases hpc

/-- `stop` returns to the call. -/
theorem stopReturned {pc : Pc} {k : StopFor} {cancelling : Bool}
    (hpc : s.handler me = .suspended pc cancelling) (hreturns : Returns s k pc) :
    Called cfg s (.handler me (.ok ())) ((s.leave me).stopReturned me k) := by
  cases k with
  | interruption k cut => exact .bargesIn hpc hreturns
  | reply turn history ticket => exact .begins rfl hpc hreturns
  | speakText text utteranceId ticket => exact .speakBegins rfl hpc hreturns
  | close => exact .closes hpc hreturns

/-- A suspended call goes on. -/
theorem handler (h : Typed s) {pc : Pc} {cancelling : Bool} {w : Wake Unit} (hpc : s.handler me = .suspended pc cancelling)
    (hfits : w.fits cancelling = true) (henabled : s.enabled pc w = true) :
    Called cfg s (.handler me w) ((s.leave me).resumeHandler cfg me pc w) := by
  have hruns : pc.runsIn me = true := h.runsIn me pc (by rw [hpc, Coroutine.pc?_suspended])
  have hquiet : pc.speech = false → ∀ pc', (s.handler me).pc? = some pc' → pc'.speech = false := by
    intro hspeech pc' hpc'
    rw [hpc, Coroutine.pc?_suspended, Option.some.injEq] at hpc'
    exact hpc' ▸ hspeech
  have hidle : (s.leave me).handler me = .done := by simp
  unfold Session.resumeHandler
  cases w with
  | ok a =>
      cases pc with
      | stopping r hadAudio k =>
          cases hadAudio with
          | true => exact .clears hpc henabled
          | false => exact stopReturned hpc (.stopped henabled)
      | clearing k => exact stopReturned hpc .cleared
      | bargeIn k cut =>
          have hne : ∀ n, me ≠ .timer n := by
            rintro n rfl
            cases k <;> cases hruns
          have hfree : Free (s.leave me) me := by
            refine ⟨hidle, ?_⟩
            rw [leave_handler, Function.update_of_ne (hne _).symm]
            exact h.unstarted s.timers le_rfl
          refine .returns hpc (.mono (.interruptionReturned hfree hne ?_ cut) ?_)
          · rintro k' rfl
            have hk : (StopFor.interruption (.turn k') cut).runsIn me = true := hruns
            rw [runsIn_interruption_turn, Bool.and_eq_true] at hk
            exact hk.2
          · rintro ⟨ev, rfl, hid, ha⟩
            have ha' : s.answers cfg ⟨ev.utteranceId, ev.transcript⟩ = true := ha
            simp [Session.callsReply, hpc, hid, ha']
      | turnHeld => exact .answers (hquiet rfl) (.hushed ((Hushed.leave (hquiet rfl)).trans (.leave_idle hidle)))
      | holdSleep =>
          have hcleared : Hushed s { s.leave me with held := none, holdTask := none } :=
            (Hushed.leave (hquiet rfl)).trans (.of_eq rfl rfl rfl rfl rfl rfl rfl rfl)
          unfold Session.releaseHeldTurn
          simp only
          split
          · rename_i turn hheld
            have hheld' : s.held = some turn := hheld
            refine .answers (hquiet rfl) (.replies ?_ hcleared hidle turn)
            simp [Session.callsReply, hpc, hheld']
          · exact .answers (hquiet rfl) (.hushed (hcleared.trans (.leave_idle hidle)))
      | closing g =>
          cases me with
          | endpoint =>
              refine .closesSpeech ?_ (Hushed.leave (hquiet rfl)) hidle
              simp [Session.closesSpeech, hpc]
          | _ => cases hruns
  | raised => cases henabled
  | cancelled =>
      have hsleep : pc = .holdSleep := h.calm me pc (by rw [hpc]; simpa [Wake.fits] using hfits)
      subst hsleep
      exact .answers (hquiet rfl) (.hushed ((Hushed.leave (hquiet rfl)).trans (.leave_idle hidle)))

end Called

/-- A step is one of a call, of a generation or of a reply. -/
inductive Stepped (cfg : Config) (s : Session) : Label → Session → Prop
  | called {l : Label} {t : Session} (h : Called cfg s l t) : Stepped cfg s l t
  | generation {t : Session} {g : Nat} {w : Wake Llm.Item} (hgen : s.resumeGeneration cfg g w = some t) :
      Stepped cfg s (.generation g w) t
  | reply {t : Session} {r : Nat} {w : Wake Tts.Item} (hreply : s.resumeReply r w = some t) :
      Stepped cfg s (.reply r w) t

/-- **Every step of the session is one of these.** -/
theorem Stepped.of_step (h : Typed s) {l : Label} (hstep : step cfg s l = some t) : Stepped cfg s l t := by
  cases StepTo.of_step hstep with
  | transcript htranscribes _ hidle => exact .called (.transcript (h.free hidle) htranscribes _)
  | frame hidle => exact .called (.frame (h.free hidle) _)
  | speakText hopen hidle => exact .called (.speakText rfl hidle hopen)
  | close _ hidle => exact .called (.close hidle)
  | handler hpc hfits henabled => exact .called (.handler h hpc hfits henabled)
  | generation hgen => exact .generation hgen
  | reply hreply => exact .reply hreply

end Voxera.Voice
