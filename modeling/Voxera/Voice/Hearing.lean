import Voxera.Onsets
import Voxera.Voice.Connection

/-!
# What the voice activity detector hears

Only the dispatcher calls `process_audio_frame`, and it calls it with a frame before it hands it to the recogniser. Nothing
else in the session, neither a barge-in nor the end of a turn, touches the detector.

* `Inbound.heard` : the frames that the callback of the dispatcher was called with (`heard_dispatch`);
* `vad_step` : what a step of the session does to the detector;
* `Hearing` : the detector has heard these frames, and the recogniser some of them (`hearing_of_run`).
-/

namespace Voxera

namespace Streaming

open EventLoop Ledger

namespace Place

/-- The callback was called with the frame. -/
def heard : Place → Bool
  | .audioQueue | .droppedByAudioQueue => false
  | _ => true

end Place

namespace Inbound

/-- The frames that the callback was called with. -/
def heard (s : Inbound) : List Bytes := (select Place.heard s.ledger).map FrameWithId.frame

/-- No frame behind the first one of the audio queue has left it. -/
def Queued (ledger : List (FrameWithId × Place)) : Prop := Ordered (fun i j => i = .audioQueue → j = .audioQueue) ledger

variable {maxSize : Nat} {received : List Bytes} {s t : Inbound} {ledger : List (FrameWithId × Place)} {k k' : Place}

theorem Queued.move (h : Queued ledger) (hk' : k' ≠ .audioQueue) : Queued (move k k' ledger) := by
  refine Ordered.move h (fun j hj hR hqueue => ?_) (fun j _ hqueue => absurd hqueue hk')
  exact absurd (hqueue.trans (hR hqueue).symm) hj

/-- What a step does to the frames that were heard and to those that were not. -/
structure Hears (frames : List FrameWithId) (s t : Inbound) : Prop where
  queued : Queued s.ledger → Queued t.ledger
  heard : select Place.heard t.ledger = select Place.heard s.ledger ++ frames

namespace Hears

theorem of_eq (h : t.ledger = s.ledger) : Hears [] s t := ⟨fun hs => h ▸ hs, by rw [h, List.append_nil]⟩

/-- A frame goes to another place. -/
theorem of_move (h : t.ledger = move k k' s.ledger) (hk' : k' ≠ .audioQueue) (hsame : k.heard = k'.heard) : Hears [] s t :=
  ⟨fun hs => by rw [h]; exact hs.move hk', by rw [h, select_move_eq hsame, List.append_nil]⟩

end Hears

theorem hears_receive {frame : Bytes} {frameId : Option ℤ} (hstep : s.step (.receive frame frameId) = some t) : Hears [] s t := by
  simp only [step, Option.some.injEq] at hstep
  subst hstep
  refine ⟨fun hs => ?_, ?_⟩
  · have hqueued : Queued (if s.audio.isFull then Ledger.move .audioQueue .droppedByAudioQueue s.ledger else s.ledger) := by
      split
      · exact hs.move (by decide)
      · exact hs
    exact Ordered.append hqueued (fun _ _ _ => rfl)
  · dsimp only
    rw [select_append, select_cons_of_neg rfl, select_nil, List.append_nil, List.append_nil]
    split
    · exact select_move_eq (show Place.heard .audioQueue = Place.heard .droppedByAudioQueue from rfl) _
    · rfl

/-- The dispatcher gives a frame to the callback, or none. -/
theorem hears_next (h : Invariant maxSize received s) (hqueued : Queued s.ledger) : Hears s.next.inCallback.toList s s.next := by
  have hp := h.placed
  unfold Inbound.next
  split
  · cases hqueue : s.audio.queue with
    | nil =>
        have hdequeue : s.audio.dequeue = (none, { s.audio with notEmpty := s.audio.notEmpty.clear }) := by
          simp only [AudioFrameQueue.dequeue, hqueue]
        rw [hdequeue]
        exact Hears.of_eq rfl
    | cons frame rest =>
        have hdequeue : s.audio.dequeue = (some frame, { s.audio with
            queue := rest, notEmpty := if rest = [] then s.audio.notEmpty.clear else s.audio.notEmpty }) := by
          simp only [AudioFrameQueue.dequeue, hqueue]
        have hhead : (select (· = .audioQueue) s.ledger).head?.toList = [frame] := by
          rw [hp.audioQueue, hqueue]
          rfl
        rw [hdequeue]
        refine ⟨fun hs => hs.move (by decide), ?_⟩
        have hbehind : Ordered (fun i j => i = .audioQueue → Place.heard j = false) s.ledger :=
          hqueued.imp fun hR hi => by rw [hR hi]; rfl
        show select Place.heard (Ledger.move _ _ _) = _
        rw [select_move_head (q := (· = .audioQueue)) (by simp) rfl rfl hbehind, hhead]
        rfl
  · exact Hears.of_eq rfl

theorem hears_handOver (s : Inbound) (frame : FrameWithId) : Hears [] s (s.handOver frame) := by
  unfold handOver
  dsimp only
  split
  · cases (s.stt.processFrame frame.frame).1 with
    | true => exact Hears.of_move rfl (by decide) rfl
    | false => exact Hears.of_move rfl (by decide) rfl
  · exact Hears.of_move rfl (by decide) rfl

theorem inCallback_handOver (s : Inbound) (frame : FrameWithId) : (s.handOver frame).inCallback = none := by
  unfold handOver
  dsimp only
  split <;> rfl

/-- **The dispatcher runs on**: the frame that it takes from the queue is heard. -/
theorem hears_dispatch (h : Invariant maxSize received s) (hqueued : Queued s.ledger)
    (hstep : s.step (.dispatch (.ok ())) = some t) : Hears t.inCallback.toList s t := by
  simp only [step] at hstep
  split at hstep
  · rename_i pc cancelling htask
    simp only [Option.ite_none_right_eq_some, Option.some.injEq] at hstep
    obtain ⟨-, rfl⟩ := hstep
    cases pc with
    | callback frame =>
        show Hears (s.handOver frame).inCallback.toList s (s.handOver frame)
        rw [inCallback_handOver]
        exact hears_handOver s frame
    | _ => exact hears_next h hqueued
  · cases hstep

/-- The process loop of the recogniser runs on. -/
theorem hears_loop {w : Wake Bool} (hstep : s.step (.stt (.loop w)) = some t) : Hears [] s t := by
  obtain ⟨stt, -, rfl⟩ := Option.map_eq_some_iff.mp hstep
  have hplace : afterEngine w ≠ .audioQueue ∧ Place.heard .recognizing = (afterEngine w).heard := by
    cases w <;> simp [afterEngine, Place.heard]
  have hended : Hears [] s { s with
      ledger := if s.stt.inHand.isSome then Ledger.move .recognizing (afterEngine w) s.ledger else s.ledger } := by
    split
    · exact Hears.of_move rfl hplace.1 hplace.2
    · exact Hears.of_eq rfl
  refine ⟨fun hs => ?_, ?_⟩
  · show Queued (recognized _ _ _ _)
    unfold recognized
    dsimp only
    split
    · exact (hended.queued hs).move (by decide)
    · exact hended.queued hs
  · show select Place.heard (recognized _ _ _ _) = _
    unfold recognized
    dsimp only
    split
    · exact (select_move_eq (show Place.heard .sttQueue = Place.heard .recognizing from rfl) _).trans hended.heard
    · exact hended.heard

end Inbound

end Streaming

namespace Voice

open EventLoop
open Session

/-! ## The detector -/

section Detector

variable {cfg : Config} {me : Handler} {s t : Session}

theorem vad_ttsStop {k : StopFor} {next : Session → Session} (hnext : (next s).vad = s.vad) :
    (s.ttsStop me k next).vad = s.vad := by
  unfold Session.ttsStop
  split
  · exact hnext
  · rfl

theorem vad_cancelHoldTimer (me : Handler) (s : Session) : (s.cancelHoldTimer me).vad = s.vad := by
  unfold Session.cancelHoldTimer
  split
  · rfl
  · split <;> rfl

theorem vad_startHoldTimer (me : Handler) (s : Session) : (s.startHoldTimer me).vad = s.vad := vad_cancelHoldTimer me s

theorem vad_reply (turn : UserTurnCompleted) : (s.reply cfg me turn).vad = s.vad :=
  vad_ttsStop (s := s.replyBegins cfg turn) rfl

theorem vad_onUserTurnCompleted (turn : UserTurnCompleted) : (s.onUserTurnCompleted cfg me turn).vad = s.vad := by
  have hcancel : ({ s with held := none }.cancelHoldTimer me).vad = s.vad := vad_cancelHoldTimer me _
  unfold Session.onUserTurnCompleted
  dsimp only
  split
  · exact hcancel
  · split
    · exact (vad_startHoldTimer me _).trans hcancel
    · exact (vad_reply _).trans hcancel

theorem vad_turnCompleted (next : ConversationState × TurnManager.Next) : (s.turnCompleted cfg me next).vad = s.vad := by
  unfold Session.turnCompleted
  split
  · exact vad_onUserTurnCompleted _
  · rfl

theorem vad_turnStarted (next : ConversationState × TurnManager.Next) : (s.turnStarted cfg me next).vad = s.vad := by
  unfold Session.turnStarted
  split
  · exact (vad_turnCompleted _).trans (vad_cancelHoldTimer me _)
  · exact vad_turnCompleted _

theorem vad_interruptionReturned (k : AfterInterruption) (cut : Cut) : (s.interruptionReturned cfg me k cut).vad = s.vad := by
  cases k with
  | turn k => exact vad_turnStarted _
  | vad => rfl

theorem vad_interrupt (state : ConversationState) (k : AfterInterruption) : (s.interrupt cfg me state k).vad = s.vad := by
  unfold Session.interrupt Session.onUserInterrupted
  rw [vad_ttsStop (vad_interruptionReturned k s.cut)]
  rfl

theorem vad_processTranscriptEvent (ev : TranscriptEvent) : (s.processTranscriptEvent cfg me ev).vad = s.vad := by
  unfold Session.processTranscriptEvent
  dsimp only
  split
  · exact vad_interrupt _ _
  · exact vad_turnStarted _

theorem vad_processAudioFrame (bytes : Bytes) :
    (s.processAudioFrame cfg me bytes).vad = s.vad.map fun vad => (vad.update bytes).2 := by
  unfold Session.processAudioFrame
  cases hvad : s.vad with
  | none => exact hvad
  | some vad =>
      dsimp only
      split
      · split
        · exact vad_interrupt _ _
        · split
          · exact vad_startHoldTimer me _
          · rfl
      · rfl

theorem vad_stopReturned (k : StopFor) : (s.stopReturned me k).vad = s.vad := by cases k <;> rfl

theorem vad_resumeHandler (pc : Pc) (w : Wake Unit) : (s.resumeHandler cfg me pc w).vad = s.vad := by
  cases w with
  | ok a =>
      cases pc with
      | stopping r hadAudio k =>
          show (s.replyStopped me r hadAudio k).vad = s.vad
          unfold Session.replyStopped
          split
          · rfl
          · exact vad_stopReturned k
      | clearing k => exact vad_stopReturned k
      | bargeIn k cut => exact vad_interruptionReturned k cut
      | turnHeld => rfl
      | holdSleep =>
          show (s.releaseHeldTurn cfg me).vad = s.vad
          unfold Session.releaseHeldTurn
          dsimp only
          split
          · exact vad_reply _
          · rfl
      | closing g => exact vad_ttsStop rfl
  | raised => rfl
  | cancelled => rfl

/-- **A step leaves the detector alone**, but for that of a frame, which updates it once. -/
theorem vad_step {l : Label} (hstep : step cfg s l = some t) :
    t.vad = match l with
      | .frame bytes => s.vad.map fun vad => (vad.update bytes).2
      | _ => s.vad := by
  cases StepTo.of_step hstep with
  | transcript => exact vad_processTranscriptEvent _
  | frame => exact vad_processAudioFrame _
  | speakText => exact vad_ttsStop rfl
  | close =>
      have hcancel : ({ s.cancelHoldTimer .endpoint with held := none } : Session).vad = s.vad := vad_cancelHoldTimer _ s
      unfold Session.close
      dsimp only
      split
      · exact (vad_ttsStop rfl).trans hcancel
      · exact hcancel
  | handler hpc => exact vad_resumeHandler _ _
  | generation hgen => exact (resumeGeneration_aside hgen).vad
  | reply hreply => exact (resumeReply_aside hreply).vad

end Detector

/-! ## Every run -/

open Streaming

section Run

variable {σ M : Type} {cfg : Config} {R : Stt.Recogniser σ M} {c t : Connection σ} {ls : List (ConnectionLabel M)}
  {l : ConnectionLabel M} {received : List Bytes}

/-- What the detector and the recogniser hear of the frames received. -/
structure Hearing (cfg : Config) (received : List Bytes) (c : Connection σ) : Prop where
  /-- The detector has been updated with the frames that it heard, and with nothing else. -/
  detector : c.session.vad = cfg.vad.map fun vad => vad.after c.inbound.heard
  /-- The recogniser gets no frame that the detector has not heard, and none out of order. -/
  recogniser : c.inbound.passed.Sublist c.inbound.heard
  /-- The frames heard, and behind them those in the audio queue, are frames received in the order of their arrival. -/
  inOrder : (c.inbound.heard ++ c.inbound.audio.queue.map FrameWithId.frame).Sublist received
  /-- The others were dropped from the audio queue. -/
  dropped : c.inbound.heard.length + c.inbound.audio.queue.length + c.inbound.audio.framesDropped = received.length

/-- The parts of the connection that the frames come to. -/
structure Listens (cfg : Config) (received : List Bytes) (c : Connection σ) : Prop where
  placed : c.inbound.Invariant 50 received
  queued : Inbound.Queued c.inbound.ledger
  detector : c.session.vad = cfg.vad.map fun vad => vad.after c.inbound.heard

namespace Listens

theorem init (cfg : Config) (R : Stt.Recogniser σ M) : Listens cfg [] (.init cfg R) where
  placed := ⟨⟨rfl, rfl, rfl, rfl, rfl, rfl, rfl⟩, rfl, List.Pairwise.nil, by decide, rfl, Nat.zero_le _⟩
  queued := List.Pairwise.nil
  detector := by
    show cfg.vad = cfg.vad.map fun vad => vad
    cases cfg.vad <;> rfl

theorem hearing (h : Listens cfg received c) : Hearing cfg received c := by
  have hp := h.placed.placed
  have htogether : Ledger.select Place.heard c.inbound.ledger ++ c.inbound.audio.queue =
      Ledger.select (fun place => place.heard || place = .audioQueue) c.inbound.ledger := by
    rw [← hp.audioQueue]
    refine Ledger.select_append_select (fun place hplace => ?_) (h.queued.imp fun hR hi => ?_)
    · cases place <;> first | rfl | cases hplace
    · rw [hR (of_decide_eq_true hi)]
      rfl
  have hrest : (fun place : Place => !(place.heard || place = .audioQueue)) =
      fun place => decide (place = .droppedByAudioQueue) := by
    funext place
    cases place <;> rfl
  refine ⟨h.detector, ?_, ?_, ?_⟩
  · rw [← hp.passed]
    refine ((List.monotone_filter_right _ fun e he => ?_).map Prod.fst).map FrameWithId.frame
    obtain ⟨frame, place⟩ := e
    cases place <;> first | rfl | cases he
  · rw [Inbound.heard, ← List.map_append, htogether, ← h.placed.items]
    exact (Ledger.select_sublist _ _).map FrameWithId.frame
  · have hall := Ledger.length_select_add (fun place : Place => place.heard || place = .audioQueue) c.inbound.ledger
    rw [hrest, ← htogether, ← hp.droppedByAudioQueue, List.length_append] at hall
    rw [Inbound.heard, List.length_map, hall, ← h.placed.items, List.length_map, List.length_map]

/-- The inbound parts take a step, in which the detector hears `frames`. -/
theorem moves (h : Listens cfg received c) {il : InboundLabel} {inbound : Inbound} {frames : List FrameWithId}
    (hstep : c.inbound.step il = some inbound) (hhears : Inbound.Hears frames c.inbound inbound) (ht : t.inbound = inbound)
    (hvad : t.session.vad = c.session.vad.map fun vad => vad.after (frames.map FrameWithId.frame)) :
    Listens cfg (received ++ il.frame?.toList) t := by
  subst ht
  refine ⟨h.placed.step hstep, hhears.queued h.queued, ?_⟩
  have hheard : t.inbound.heard = c.inbound.heard ++ frames.map FrameWithId.frame := by
    rw [Inbound.heard, hhears.heard, List.map_append]
    rfl
  rw [hvad, h.detector, hheard, Option.map_map]
  congr 1
  funext vad
  exact EnergyVAD.after_append.symm

/-- The session takes a step other than that of a frame. -/
theorem calls (h : Listens cfg received c) {v : Label} {session : Session} (hstep : Voice.step cfg c.session v = some session)
    (hv : ∀ bytes, v ≠ .frame bytes) (ht : t.inbound = c.inbound) (hsession : t.session = session) :
    Listens cfg (received ++ []) t := by
  have hvad := vad_step hstep
  have hsame : session.vad = c.session.vad := by
    cases v <;> first | exact hvad | exact absurd rfl (hv _)
  rw [List.append_nil]
  exact ⟨ht ▸ h.placed, ht ▸ h.queued, by rw [hsession, hsame, ht]; exact h.detector⟩

/-- **A step of the connection**: a frame goes to the detector when the dispatcher takes it. -/
theorem step (h : Listens cfg received c) (hwired : Wired c) (hstep : c.step cfg R l = some t) :
    Listens cfg (received ++ l.frame?.toList) t := by
  have hnobody : c.session.vad = c.session.vad.map fun vad => vad.after [] := by cases c.session.vad <;> rfl
  cases Connection.StepTo.of_step hwired hstep with
  | message | hears =>
      refine ⟨?_, h.queued, h.detector⟩
      exact (List.append_nil received).symm ▸ h.placed
  | receive hinbound => exact h.moves hinbound (Inbound.hears_receive hinbound) rfl hnobody
  | frame hinbound hframe hsession =>
      have hhears := Inbound.hears_dispatch h.placed h.queued hinbound
      rw [hframe] at hhears
      exact h.moves hinbound hhears rfl (vad_step hsession)
  | dispatch hinbound hnone =>
      have hhears := Inbound.hears_dispatch h.placed h.queued hinbound
      rw [hnone] at hhears
      exact h.moves hinbound hhears rfl hnobody
  | loop _ _ hframe _ hinbound =>
      rw [hframe]
      exact h.moves hinbound (Inbound.hears_loop hinbound) rfl hnobody
  | calls _ _ _ hinbound => exact h.moves hinbound (Inbound.hears_loop hinbound) rfl hnobody
  | loses _ hinbound => exact h.moves hinbound (Inbound.hears_loop hinbound) rfl hnobody
  | delivers _ hsession => exact h.calls hsession (fun _ hframe => nomatch hframe) rfl rfl
  | session htask hsession =>
      refine h.calls hsession (fun bytes hframe => ?_) rfl rfl
      subst hframe
      cases htask

end Listens

/-- **The detector hears every frame before the recogniser**, each once and in its turn, whatever the tasks do. -/
theorem hearing_of_run (cfg : Config) (R : Stt.Recogniser σ M)
    (h : Run (Connection.step cfg R) (fun _ _ => True) (.init cfg R) ls c) : Hearing cfg (ls.filterMap (·.frame?)) c := by
  have hinv := h.invariant₂ (I := fun ls c => Wired c ∧ Listens cfg (ls.filterMap (·.frame?)) c)
    ⟨Wired.init cfg R, Listens.init cfg R⟩ (fun {ls t u l} ⟨hwired, hlistens⟩ _ hstep => by
      refine ⟨hwired.step hstep, ?_⟩
      rw [List.filterMap_append]
      have hnext := hlistens.step hwired hstep
      cases hframe : l.frame? <;> simpa [hframe] using hnext)
  exact hinv.2.hearing

end Run

/-- A third frame waits in the audio queue. -/
theorem hearing_of_run_pausedSpeech : ∃ c : Connection Stt.DeepgramEngine,
    c.inbound.passed = [[1, 0], [2, 0]] ∧ c.inbound.heard = [[1, 0], [2, 0]] ∧ Hearing {} [[1, 0], [2, 0], [3, 0]] c := by
  obtain ⟨c, hrun, hc⟩ := Run.exists_of_exec
    (P := fun c => c.inbound.passed == [[1, 0], [2, 0]] && c.inbound.heard == [[1, 0], [2, 0]])
    (show (exec (Connection.step {} Stt.DeepgramEngine.recogniser) (fun _ _ => True)
      (.init {} Stt.DeepgramEngine.recogniser) (pausedSpeech ++ [.receive [3, 0] none])).any _ = true by decide +kernel)
  rw [Bool.and_eq_true, beq_iff_eq, beq_iff_eq] at hc
  exact ⟨c, hc.1, hc.2, hearing_of_run {} Stt.DeepgramEngine.recogniser hrun⟩

end Voice

end Voxera
