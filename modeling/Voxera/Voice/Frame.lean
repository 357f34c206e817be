import Voxera.Voice.Session

/-!
# What the steps of a voice session leave alone

The hold timers only touch the timers' own slots, and the steps of the generation and reply tasks
touch no slot, no hold timer and no held turn: they only queue, send and, at the end of a reply,
complete the system turn.
-/

namespace Voxera.Voice

open EventLoop
open Session

variable {cfg : Config} {me : Handler} {s t : Session}

namespace Session

theorem leave_of_done (h : s.handler me = .done) : s.leave me = s := by
  have hsame : Function.update s.handler me .done = s.handler := by rw [← h, Function.update_eq_self]
  unfold leave
  rw [hsame]

/-! ## Hold timers -/

theorem cancelHoldTimer_eq (me : Handler) (s : Session) :
    s.cancelHoldTimer me =
      { s with
        holdTask := none
        handler := match s.holdTask with
          | none => s.handler
          | some n => if me = .timer n then s.handler
            else Function.update s.handler (.timer n) (s.handler (.timer n)).cancel } := by
  unfold cancelHoldTimer
  cases h : s.holdTask with
  | none => simp [← h]
  | some n => by_cases hn : me = .timer n <;> simp [hn]

@[simp] theorem cancelHoldTimer_state : (s.cancelHoldTimer me).state = s.state := by rw [cancelHoldTimer_eq]
@[simp] theorem cancelHoldTimer_history : (s.cancelHoldTimer me).history = s.history := by
  rw [cancelHoldTimer_eq]
@[simp] theorem cancelHoldTimer_timing : (s.cancelHoldTimer me).timing = s.timing := by rw [cancelHoldTimer_eq]
@[simp] theorem cancelHoldTimer_llm : (s.cancelHoldTimer me).llm = s.llm := by rw [cancelHoldTimer_eq]
@[simp] theorem cancelHoldTimer_tts : (s.cancelHoldTimer me).tts = s.tts := by rw [cancelHoldTimer_eq]
@[simp] theorem cancelHoldTimer_held : (s.cancelHoldTimer me).held = s.held := by rw [cancelHoldTimer_eq]
@[simp] theorem cancelHoldTimer_holdTask : (s.cancelHoldTimer me).holdTask = none := by rw [cancelHoldTimer_eq]
@[simp] theorem cancelHoldTimer_timers : (s.cancelHoldTimer me).timers = s.timers := by rw [cancelHoldTimer_eq]
@[simp] theorem cancelHoldTimer_begun : (s.cancelHoldTimer me).begun = s.begun := by rw [cancelHoldTimer_eq]
@[simp] theorem cancelHoldTimer_closed : (s.cancelHoldTimer me).closed = s.closed := by rw [cancelHoldTimer_eq]
@[simp] theorem cancelHoldTimer_trace : (s.cancelHoldTimer me).trace = s.trace := by rw [cancelHoldTimer_eq]

@[simp] theorem cancelHoldTimer_pc? (h : Handler) :
    ((s.cancelHoldTimer me).handler h).pc? = (s.handler h).pc? := by
  rw [cancelHoldTimer_eq]
  cases s.holdTask with
  | none => rfl
  | some n =>
      by_cases hn : me = .timer n
      · simp [hn]
      · by_cases hh : h = .timer n <;> simp [hn, hh]

theorem cancelHoldTimer_handler_done {h : Handler} (hd : s.handler h = .done) :
    (s.cancelHoldTimer me).handler h = .done := by
  have hpc : ((s.cancelHoldTimer me).handler h).pc? = (s.handler h).pc? := cancelHoldTimer_pc? h
  rw [hd, Coroutine.pc?_done] at hpc
  cases hc : (s.cancelHoldTimer me).handler h with
  | done => rfl
  | suspended pc c => simp [hc] at hpc

@[simp] theorem startHoldTimer_state : (s.startHoldTimer me).state = s.state := by simp [startHoldTimer]
@[simp] theorem startHoldTimer_history : (s.startHoldTimer me).history = s.history := by simp [startHoldTimer]
@[simp] theorem startHoldTimer_llm : (s.startHoldTimer me).llm = s.llm := by simp [startHoldTimer]
@[simp] theorem startHoldTimer_tts : (s.startHoldTimer me).tts = s.tts := by simp [startHoldTimer]
@[simp] theorem startHoldTimer_held : (s.startHoldTimer me).held = s.held := by simp [startHoldTimer]
@[simp] theorem startHoldTimer_timers : (s.startHoldTimer me).timers = s.timers + 1 := by simp [startHoldTimer]
@[simp] theorem startHoldTimer_begun : (s.startHoldTimer me).begun = s.begun := by simp [startHoldTimer]
@[simp] theorem startHoldTimer_closed : (s.startHoldTimer me).closed = s.closed := by simp [startHoldTimer]
@[simp] theorem startHoldTimer_trace : (s.startHoldTimer me).trace = s.trace := by simp [startHoldTimer]
@[simp] theorem startHoldTimer_holdTask : (s.startHoldTimer me).holdTask = some s.timers := by
  simp [startHoldTimer]

theorem startHoldTimer_handler :
    (s.startHoldTimer me).handler =
      Function.update (s.cancelHoldTimer me).handler (.timer s.timers) (.await .holdSleep) := by
  simp [startHoldTimer]

end Session

/-! ## The generation and reply tasks -/

/-- The calls that the steps of the generation and reply tasks make. -/
def Event.OfTask : Event → Prop
  | .queued _ _ _ | .llm _ _ | .tts _ _ | .turnMetrics _ => True
  | _ => False

/-- `t` is what a generation or reply task may make of `s`: no call into the session moves, and all
that happens to the turn flags is that the system turn is completed. -/
structure Aside (s t : Session) : Prop where
  handler : t.handler = s.handler
  held : t.held = s.held
  holdTask : t.holdTask = s.holdTask
  timers : t.timers = s.timers
  begun : t.begun = s.begun
  closed : t.closed = s.closed
  vad : t.vad = s.vad
  state : t.state = s.state ∨ t.state = s.state.completeSystemTurn
  trace : ∃ es, t.trace = s.trace ++ es ∧ ∀ e ∈ es, e.OfTask

namespace Aside

/-- Only the consumers, the history and the timing change. -/
theorem of_eq (history : List Llm.Entry) (timing : Option TurnTiming) (llm : Llm.Consumer Unit)
    (tts : Tts.Consumer Unit) (s : Session) : Aside s { s with history, timing, llm, tts } :=
  ⟨rfl, rfl, rfl, rfl, rfl, rfl, rfl, Or.inl rfl, [], (List.append_nil _).symm, by simp⟩

theorem refl (s : Session) : Aside s s := of_eq s.history s.timing s.llm s.tts s

theorem emits {es : List Event} (h : ∀ e ∈ es, e.OfTask) (s : Session) : Aside s (s.emits es) :=
  ⟨rfl, rfl, rfl, rfl, rfl, rfl, rfl, Or.inl rfl, es, rfl, h⟩

theorem trans {u : Session} (h : Aside s t) (h' : Aside t u) : Aside s u where
  handler := h'.handler.trans h.handler
  held := h'.held.trans h.held
  holdTask := h'.holdTask.trans h.holdTask
  timers := h'.timers.trans h.timers
  begun := h'.begun.trans h.begun
  closed := h'.closed.trans h.closed
  vad := h'.vad.trans h.vad
  state := by
    rcases h'.state with ht | ht <;> rcases h.state with hs | hs <;> rw [ht, hs]
    · exact Or.inl rfl
    · exact Or.inr rfl
    · exact Or.inr rfl
    · exact Or.inr rfl
  trace := extends_trans h.trace h'.trace

theorem isUserSpeaking (h : Aside s t) : t.state.isUserSpeaking = s.state.isUserSpeaking := by
  rcases h.state with hs | hs <;> rw [hs]
  rfl

/-- The system turn is not opened. -/
theorem isSystemSpeaking (h : Aside s t) (ht : t.state.isSystemSpeaking = true) :
    s.state.isSystemSpeaking = true := by
  rcases h.state with hs | hs
  · rwa [hs] at ht
  · rw [hs] at ht
    cases ht

end Aside

namespace Session

theorem queued_ofTask (put : Option Nat) (g : Nat) (item : Option Text) :
    ∀ e ∈ put.toList.map (fun r => Event.queued r (some g) item), e.OfTask := by
  intro e he
  obtain ⟨r, -, rfl⟩ := List.mem_map.mp he
  trivial

theorem onSegments_aside (g : Nat) (segments : List Text) (s : Session) :
    Aside s (onSegments g segments s) := by
  induction segments generalizing s with
  | nil => exact Aside.refl s
  | cons segment rest ih =>
      have hput := Aside.of_eq s.history s.timing s.llm (s.tts.speak segment).2 s
      exact (hput.trans (Aside.emits (queued_ofTask (s.tts.speak segment).1 g (some segment)) _)).trans (ih _)

theorem onComplete_aside (g : Nat) (text : Text) (outcome : Llm.Outcome) (s : Session) :
    Aside s (s.onComplete cfg g text outcome) := by
  have hremember : Aside s
      (if Text.strip text ≠ [] then s.remember cfg .assistant (Text.strip text) else s) := by
    split
    · exact Aside.of_eq _ s.timing s.llm s.tts s
    · exact Aside.refl s
  unfold onComplete
  simp only
  generalize (if Text.strip text ≠ [] then s.remember cfg .assistant (Text.strip text) else s) = u at hremember ⊢
  split
  · have hput := Aside.of_eq u.history u.timing u.llm u.tts.finish.2 u
    exact (hremember.trans hput).trans (Aside.emits (queued_ofTask _ g none) _)
  · exact hremember

theorem generationAwaits_aside (g : Nat) (pc : Llm.Pc Unit) (s : Session) :
    Aside s (s.generationAwaits g pc) := by
  refine (Aside.of_eq s.history s.timing (s.llm.await g pc) s.tts s).trans (Aside.emits ?_ _)
  intro e he
  obtain ⟨m, -, rfl⟩ := List.mem_map.mp he
  trivial

/-- A generation task takes a step. -/
theorem resumeGeneration_aside {g : Nat} {w : Wake Llm.Item} (h : s.resumeGeneration cfg g w = some t) :
    Aside s t := by
  unfold resumeGeneration at h
  obtain ⟨⟨llm, next⟩, -, rfl⟩ := Option.map_eq_some_iff.mp h
  have hllm := Aside.of_eq s.history s.timing llm s.tts s
  cases next with
  | await pc => exact hllm.trans (generationAwaits_aside ..)
  | segments segments flushed =>
      exact (hllm.trans (onSegments_aside ..)).trans (generationAwaits_aside ..)
  | complete outcome =>
      exact (hllm.trans (onComplete_aside g _ outcome _)).trans (Aside.of_eq _ _ _ _ _)
  | ended => exact hllm.trans (Aside.of_eq _ _ _ _ _)

theorem playbackEnded_aside (utteranceId : Text) (interrupted : Bool) (s : Session) :
    Aside s (s.playbackEnded utteranceId interrupted) := by
  unfold playbackEnded
  split
  · exact ⟨rfl, rfl, rfl, rfl, rfl, rfl, rfl, Or.inr rfl, [], (List.append_nil _).symm, by simp⟩
  · exact Aside.refl s

theorem onPlaybackEnd_aside (r : Nat) (interrupted : Bool) (s : Session) :
    Aside s (s.onPlaybackEnd r interrupted) := by
  have hdone := (playbackEnded_aside (s.tts.reply r).utteranceId interrupted s)
  unfold onPlaybackEnd
  simp only
  split
  · split
    · have hemit : ∀ timing u, Aside u (u.emit (.turnMetrics timing)) := by
        intro timing u
        refine Aside.emits ?_ u
        intro e he
        rw [List.mem_singleton.mp he]
        trivial
      exact (Aside.of_eq s.history _ s.llm s.tts s).trans (hemit _ _)
    · exact hdone.trans (Aside.of_eq _ _ _ _ _)
  · exact hdone.trans (Aside.of_eq _ _ _ _ _)

theorem metricsSent_aside (r : Nat) (w : Wake Tts.Item) (s : Session) : Aside s (s.metricsSent r w) := by
  unfold metricsSent
  split
  · exact Aside.refl s
  · exact (Aside.of_eq s.history none s.llm s.tts s).trans (playbackEnded_aside ..)
  · exact Aside.refl s

/-- A reply task takes a step. -/
theorem resumeReply_aside {r : Nat} {w : Wake Tts.Item} (h : s.resumeReply r w = some t) : Aside s t := by
  unfold resumeReply at h
  obtain ⟨⟨tts, calls⟩, -, rfl⟩ := Option.map_eq_some_iff.mp h
  have hcalls : ∀ e ∈ calls.map (Event.tts r), e.OfTask := by
    intro e he
    obtain ⟨call, -, rfl⟩ := List.mem_map.mp he
    trivial
  have hpre := metricsSent_aside r w s
  generalize s.metricsSent r w = u at hpre
  have hsent := hpre.trans ((Aside.of_eq u.history u.timing u.llm tts u).trans (Aside.emits hcalls _))
  simp only
  split
  · exact hsent.trans (onPlaybackEnd_aside ..)
  · exact hsent

end Session

end Voxera.Voice
