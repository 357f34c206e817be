import Voxera.Voice.Steps
import Voxera.Voice.Tasks
import Voxera.Voice.HeldTurn

/-!
# A generation speaks into its own reply

What a generation puts on the queue of a reply it puts on the queue of the reply that was opened
together with it, as long as two things do not happen:

* a generation that has failed ends after another reply has taken the place of its own, and ends that
  reply's text;
* `speak_text` opens its reply while a generation is at work, which then speaks into it.

`Isolated` is the invariant and `Isolated.step` the step lemma.
-/

namespace Voxera.Voice

open EventLoop
open Session

variable {cfg : Config} {me : Handler} {s t : Session}

/-! ## The steps in question -/

/-- The `_reply` that opened `r` starts the generation `g`. -/
def Event.starts (g r : Nat) : Event → Bool
  | .generation g' r' _ _ _ => g' == g && r' == r
  | _ => false

/-- The generation `g` was started by the `_reply` that opened `r`. -/
def Session.startedWith (s : Session) (g r : Nat) : Bool := s.trace.any (Event.starts g r)

/-- `speak_text` opens its reply in this step. -/
def Session.opensSpeech (s : Session) : Label → Bool
  | .speakText _ _ => s.tts.active.isNone
  | .handler h (.ok _) =>
    match s.handler h with
    | .suspended (.stopping _ false (.speakText _ _ _)) _ | .suspended (.clearing (.speakText _ _ _)) _ => true
    | _ => false
  | _ => false

/-- A generation that has failed ends its own reply or none, and `speak_text` opens its reply only when
no generation is at work. -/
def KeptApart (s : Session) (l : Label) : Bool :=
  !(s.opensSpeech l && s.llm.current.any s.llm.isLive) &&
    match l with
    | .generation g _ =>
      match s.llm.task g with
      | .suspended .sendFailed _ => s.tts.active.all (s.startedWith g)
      | _ => true
    | _ => true

theorem startedWith_of_keptApart {g : Nat} {w : Wake Llm.Item} {cancelling : Bool}
    (h : KeptApart s (.generation g w) = true) (hpc : s.llm.task g = .suspended .sendFailed cancelling) :
    s.tts.active.all (s.startedWith g) = true := by
  simpa [KeptApart, Session.opensSpeech, hpc] using h

/-! ## The invariant -/

/-- The generation and the reply whose queue it puts something on. -/
def Event.queuedBy : Event → Option (Nat × Nat)
  | .queued r (some g) _ => some (g, r)
  | _ => none

structure Isolated (s : Session) : Prop where
  live : ∀ g, s.llm.Live g → s.llm.current = some g ∧ ∃ r, s.tts.current = some r ∧ s.startedWith g r = true
  queued : ∀ e ∈ s.trace, ∀ g r, e.queuedBy = some (g, r) → s.startedWith g r = true

theorem startedWith_append {es : List Event} (htrace : t.trace = s.trace ++ es) {g r : Nat}
    (h : s.startedWith g r = true) : t.startedWith g r = true := by
  unfold Session.startedWith at h ⊢
  rw [htrace, List.any_append, h, Bool.true_or]

namespace Isolated

theorem fresh (cfg : Config) : Isolated (fresh cfg) where
  live := by
    rintro g ⟨pc, hpc, -⟩
    cases hpc
  queued := by simp [Session.fresh]

/-- No generation is woken up, none puts anything on a queue, and the current ones stay. -/
theorem congr (h : Isolated s) (hlive : ∀ g, t.llm.Live g → s.llm.Live g)
    (hllm : t.llm.current = s.llm.current) (htts : t.tts.current = s.tts.current)
    {es : List Event} (htrace : t.trace = s.trace ++ es) (hes : ∀ e ∈ es, e.queuedBy = none) : Isolated t where
  live := by
    intro g hg
    obtain ⟨hcurrent, r, hr, hstarted⟩ := h.live g (hlive g hg)
    exact ⟨hllm.trans hcurrent, r, htts.trans hr, startedWith_append htrace hstarted⟩
  queued := by
    intro e he g r hq
    rw [htrace] at he
    rcases List.mem_append.mp he with he | he
    · exact startedWith_append htrace (h.queued e he g r hq)
    · rw [hes e he] at hq
      cases hq

theorem hushed (h : Isolated s) (hs : Hushed s t) : Isolated t := by
  obtain ⟨es, htrace, hes⟩ := hs.trace
  have hquiet : ∀ e ∈ es, e.queuedBy = none := by
    intro e he
    obtain ⟨utteranceId, rfl⟩ := hes e he
    rfl
  rcases hs.llm with hllm | hllm
  · exact h.congr (fun g hg => hllm ▸ hg) (by rw [hllm]) (by rw [hs.tts]) htrace hquiet
  · refine h.congr (fun g hg => ?_) (by rw [hllm, Llm.Consumer.cancel_current]) (by rw [hs.tts]) htrace hquiet
    rw [hllm] at hg
    exact hg.of_cancel.1

/-- Only the speech consumer's tasks, the calls and the turns change. -/
theorem of_eq (h : Isolated s) (hllm : t.llm = s.llm) (htts : t.tts.current = s.tts.current)
    {es : List Event} (htrace : t.trace = s.trace ++ es) (hes : ∀ e ∈ es, e.queuedBy = none) : Isolated t :=
  h.congr (fun g hg => hllm ▸ hg) (by rw [hllm]) htts htrace hes

/-- The reply and its generation are opened together, and the generation before is asked to cancel. -/
theorem replyBegun (h : Isolated s) (turn : UserTurnCompleted) (history : List Llm.Entry) (ticket : Nat) :
    Isolated (s.replyBegun me turn history ticket) := by
  have hstarted : (s.replyBegun me turn history ticket).startedWith s.llm.count s.tts.count = true := by
    simp [Session.replyBegun, Session.startedWith, Event.starts]
  have htrace : (s.replyBegun me turn history ticket).trace = s.trace ++ [.opened ticket s.tts.count,
      .generation s.llm.count s.tts.count (Text.strip turn.transcript) history s.state.isUserSpeaking] := by
    simp [Session.replyBegun]
  refine ⟨?_, ?_⟩
  · intro g hg
    have hnew : g = s.llm.count := Llm.Consumer.Live.of_startGeneration (fun n hn => (h.live n hn).1) hg
    subst hnew
    exact ⟨rfl, s.tts.count, rfl, hstarted⟩
  · intro e he g r hq
    rw [htrace] at he
    rcases List.mem_append.mp he with he | he
    · exact startedWith_append htrace (h.queued e he g r hq)
    · simp only [List.mem_cons, List.not_mem_nil, or_false] at he
      rcases he with rfl | rfl <;> cases hq

theorem reply (h : Isolated s) (turn : UserTurnCompleted) : Isolated (s.reply cfg me turn) := by
  have hbegins : Isolated (s.replyBegins cfg turn) := by
    have htrace : (s.replyBegins cfg turn).trace =
        s.trace ++ [.reply turn s.state.isUserSpeaking, .begin s.begun s.state.isUserSpeaking] := by simp
    exact h.of_eq rfl rfl htrace (by simp [Event.queuedBy])
  unfold Session.reply Session.ttsStop
  simp only
  split
  · exact hbegins.replyBegun ..
  · exact hbegins.of_eq rfl rfl (List.append_nil _).symm (by simp)

theorem answers {calls : Prop} (h : Isolated s) (ha : Answers cfg me calls s t) : Isolated t := by
  cases ha with
  | hushed hs => exact h.hushed hs
  | replies _ hs _ turn => exact (h.hushed hs).reply turn

/-- `speak_text` opens its reply while no generation is at work. -/
theorem speechOpened {ticket : Nat} (h : Isolated s) (ho : SpeechOpened me ticket s t)
    (hidle : s.llm.current.any s.llm.isLive = false) : Isolated t := by
  obtain ⟨es, htrace, hes⟩ := ho.trace
  refine ⟨?_, ?_⟩
  · intro g hg
    rw [ho.llm] at hg
    simp [(h.live g hg).1, hg.isLive] at hidle
  · intro e he g r hq
    rw [htrace] at he
    rcases List.mem_append.mp he with he | he
    · exact startedWith_append htrace (h.queued e he g r hq)
    · rcases List.mem_cons.mp he with rfl | he
      · cases hq
      · obtain ⟨r', item, rfl⟩ := hes e he
        cases hq

theorem ttsStop (h : Isolated s) {k : StopFor} {next : Session → Session}
    (hnext : s.tts.active = none → Isolated (next s)) : Isolated (s.ttsStop me k next) := by
  unfold Session.ttsStop
  split
  · rename_i hactive
    exact hnext hactive
  · exact h.of_eq rfl rfl (List.append_nil _).symm (by simp)

/-- A call into the session takes a step. -/
theorem called (h : Isolated s) {l : Label} (hok : (s.opensSpeech l && s.llm.current.any s.llm.isLive) = false)
    (hc : Called cfg s l t) : Isolated t := by
  cases hc with
  | answers _ ha => exact h.answers ha
  | @interruptReturns _ vad state _ _ _ _ _ ha =>
      have hinterrupted : Isolated ({ s with vad }.interrupted state) := by
        refine h.congr (fun g hg => ?_) ?_ rfl (trace_interrupted _ _) (by simp [Event.queuedBy])
        · exact (Llm.Consumer.Live.of_cancel (c := s.llm) hg).1
        · exact Llm.Consumer.cancel_current
      have hreturned : Isolated (({ s with vad }.interrupted state).emit (.interruptionReturned s.cut)) :=
        hinterrupted.of_eq rfl rfl rfl (by simp [Event.queuedBy])
      exact hreturned.answers ha
  | interruptStops =>
      refine h.congr (fun g hg => ?_) ?_ rfl (trace_interrupted _ _) (by simp [Event.queuedBy])
      · exact (Llm.Consumer.Live.of_cancel (c := s.llm) hg).1
      · exact Llm.Consumer.cancel_current
  | clears => exact h.of_eq rfl rfl rfl (by simp [Event.queuedBy])
  | bargesIn => exact h.of_eq rfl rfl rfl (by simp [Event.queuedBy])
  | @returns me k cut _ _ _ ha =>
      have hreturned : Isolated ((s.leave me).emit (.interruptionReturned cut)) :=
        h.of_eq rfl rfl rfl (by simp [Event.queuedBy])
      exact hreturned.answers ha
  | @begins me =>
      have hleft : Isolated (s.leave me) := h.of_eq rfl rfl (List.append_nil _).symm (by simp)
      exact hleft.replyBegun ..
  | @speakBegins me _ _ _ _ _ hl hpc hreturns =>
      have hleft : Isolated (s.leave me) := h.of_eq rfl rfl (List.append_nil _).symm (by simp)
      refine hleft.speechOpened (speakTextBegun_opened ..) ?_
      cases hreturns <;> simpa [hl, Session.opensSpeech, hpc] using hok
  | closes => exact h.of_eq rfl rfl (List.append_nil _).symm (by simp)
  | @speakText text utteranceId hl =>
      have hbegins : Isolated ({ s with timing := none, state := s.state.startSystemTurn, begun := s.begun + 1 }.emit
          (.begin s.begun s.state.startSystemTurn.isUserSpeaking)) :=
        h.of_eq rfl rfl rfl (by simp [Event.queuedBy])
      unfold Session.speakText
      refine ttsStop hbegins (fun hactive => ?_)
      refine hbegins.speechOpened (speakTextBegun_opened .endpoint text utteranceId s.begun _) ?_
      have hactive' : s.tts.active = none := hactive
      simpa [hl, Session.opensSpeech, hactive'] using hok
  | @closesSpeech u _ hs _ =>
      have hu : Isolated u := h.hushed hs
      exact hu.ttsStop (fun _ => hu.of_eq rfl rfl (List.append_nil _).symm (by simp))

/-- A generation takes a step: what it puts on a queue goes to the current reply. -/
theorem generation (h : Isolated s) {g : Nat} {pc : Llm.Pc Unit} {cancelling : Bool} {items : List (Option Text)}
    {next : Coroutine (Llm.Pc Unit)}
    (hown : pc = .sendFailed → s.tts.active.all (s.startedWith g) = true)
    (hg : GenerationStep g pc cancelling items next s t) : Isolated t := by
  have hput : ∀ item ∈ items, ∀ r, s.tts.active = some r → s.startedWith g r = true := by
    intro item hitem r hr
    have hlive : pc.live = true ∧ cancelling = false ∨ pc = .sendFailed := by
      cases item with
      | some text => exact Or.inl (hg.segment text hitem)
      | none => exact (hg.marker hitem).2
    rcases hlive with ⟨hl, rfl⟩ | hfailed
    · obtain ⟨-, r', hr', hstarted⟩ := h.live g ⟨pc, hg.at_pc, hl⟩
      rw [(Tts.Consumer.active_eq_some.mp hr).1, Option.some.injEq] at hr'
      exact hr' ▸ hstarted
    · simpa [hr] using hown hfailed
  obtain ⟨es, htrace, hes⟩ := hg.puts.trace
  refine ⟨?_, ?_⟩
  · intro g' hlive
    have hbefore : s.llm.Live g' := by
      obtain ⟨pc', hpc', hl⟩ := hlive
      rw [hg.task] at hpc'
      by_cases heq : g' = g
      · subst heq
        rw [Function.update_self] at hpc'
        obtain ⟨hl', rfl⟩ := hg.live pc' hpc' hl
        exact ⟨pc, hg.at_pc, hl'⟩
      · exact ⟨pc', by rwa [Function.update_of_ne heq] at hpc', hl⟩
    obtain ⟨hcurrent, r, hr, hstarted⟩ := h.live g' hbefore
    exact ⟨hg.current.trans hcurrent, r, hg.puts.current.trans hr, startedWith_append htrace hstarted⟩
  · intro e he g' r hq
    rw [htrace] at he
    rcases List.mem_append.mp he with he | he
    · exact startedWith_append htrace (h.queued e he g' r hq)
    · rcases hes e he with ⟨r', item, rfl, hitem, hr'⟩ | ⟨m, rfl⟩
      · simp only [Event.queuedBy, Option.some.injEq, Prod.mk.injEq] at hq
        obtain ⟨rfl, rfl⟩ := hq
        exact startedWith_append htrace (hput item hitem r' hr')
      · cases hq

theorem spoken (h : Isolated s) {r : Nat} {pc : Tts.Pc Unit} {cancelling : Bool} {w : Wake Tts.Item}
    {next : Coroutine (Tts.Pc Unit)} (hr : ReplyStep r pc cancelling w next s t) : Isolated t := by
  obtain ⟨es, htrace, hes⟩ := hr.trace
  rw [List.append_assoc] at htrace
  refine h.of_eq hr.llm hr.current htrace (fun e he => ?_)
  rcases List.mem_append.mp he with he | he
  · obtain ⟨call, -, rfl⟩ := List.mem_map.mp he
    rfl
  · obtain ⟨timing, rfl⟩ := hes e he
    rfl

/-- **A step that keeps the generations apart keeps the isolation.** -/
theorem step (h : Isolated s) (ht : Typed s) {l : Label} (hok : KeptApart s l = true) (hstep : step cfg s l = some t) :
    Isolated t := by
  cases Stepped.of_step ht hstep with
  | called hc =>
      simp only [KeptApart, Bool.and_eq_true, Bool.not_eq_true'] at hok
      exact h.called hok.1 hc
  | generation hgen =>
      obtain ⟨pc, cancelling, items, next, hg⟩ := GenerationStep.of_resume hgen
      refine h.generation ?_ hg
      rintro rfl
      exact startedWith_of_keptApart hok hg.at_pc
  | reply hreply =>
      obtain ⟨pc, cancelling, next, hr⟩ := ReplyStep.of_resume hreply
      exact h.spoken hr

end Isolated

theorem startedWith_iff {g r : Nat} : s.startedWith g r = true ↔
    ∃ prompt history userSpeaking, .generation g r prompt history userSpeaking ∈ s.trace := by
  unfold Session.startedWith
  rw [List.any_eq_true]
  constructor
  · rintro ⟨e, he, hmatch⟩
    cases e with
    | generation g' r' prompt history userSpeaking =>
        simp only [Event.starts, Bool.and_eq_true, beq_iff_eq] at hmatch
        obtain ⟨rfl, rfl⟩ := hmatch
        exact ⟨prompt, history, userSpeaking, he⟩
    | _ => cases hmatch
  · rintro ⟨prompt, history, userSpeaking, he⟩
    exact ⟨_, he, by simp [Event.starts]⟩

/-- All that a generation has put on the queue of a reply comes from the generation that was started by
the call of `_reply` that opened the reply. -/
def SpeaksIntoOwnReply (trace : List Event) : Prop :=
  ∀ r g item, .queued r (some g) item ∈ trace →
    ∃ prompt history userSpeaking, .generation g r prompt history userSpeaking ∈ trace

/-- **No generation speaks into another's reply**, in every run in which a generation that has failed
ends no reply but its own and `speak_text` opens its reply only when no generation is at work. -/
theorem speaksIntoOwnReply_of_keptApart (cfg : Config) {ls : List Label} {s : Session}
    (h : Run (step cfg) (fun s l => KeptApart s l = true) (fresh cfg) ls s) : SpeaksIntoOwnReply s.trace := by
  obtain ⟨-, hinv⟩ : Typed s ∧ Isolated s := h.invariant (I := fun s => Typed s ∧ Isolated s)
    ⟨Typed.fresh cfg, Isolated.fresh cfg⟩ (fun ⟨ht, hi⟩ hl hstep => ⟨ht.step hstep, hi.step ht hl hstep⟩)
  intro r g item hqueued
  exact startedWith_iff.mp (hinv.queued _ hqueued g r rfl)

/-! ## Two runs -/

/-- The synthesis of a reply fails, and its generation after it; the caller goes on when both have ended. -/
def failedTurn : List Label :=
  [.transcript .stt ⟨.FINAL, anId, "Good morning.".toList⟩, .reply 0 (.ok .none), .generation 0 (.ok .none),
    .generation 0 (.ok (.token "Good morning. ".toList 0)), .generation 0 (.ok .none), .reply 0 (.ok .none),
    .reply 0 .raised, .reply 0 (.ok .none), .reply 0 (.ok .none), .reply 0 (.ok .none), .generation 0 .raised,
    .generation 0 (.ok .none), .transcript .stt ⟨.FINAL, anId, "Hello?".toList⟩, .reply 1 (.ok .none),
    .generation 1 (.ok .none), .generation 1 (.ok (.token "Hello.".toList 0)), .generation 1 (.ok .none),
    .generation 1 (.ok .none), .generation 1 (.ok .none)]

theorem speaksIntoOwnReply_failedTurn : ∃ s,
    Run (step {}) (fun s l => KeptApart s l = true) (fresh {}) failedTurn s ∧ SpeaksIntoOwnReply s.trace ∧
      s.trace.count (.queued 1 (some 1) none) = 1 := by
  obtain ⟨s, hrun, hcount⟩ := Run.exists_of_exec
    (P := fun s => s.trace.count (.queued 1 (some 1) none) == 1) (s := fresh {})
    (show (exec (step {}) (fun s l => KeptApart s l = true) _ failedTurn).any _ = true by decide +kernel)
  exact ⟨s, hrun, speaksIntoOwnReply_of_keptApart {} hrun, by simpa using hcount⟩

/-- The same turns; here the caller goes on while the failed generation sends its error event. No reply is active, so the next
turn's reply is opened before that generation is resumed. -/
def lateFailure : List Label :=
  [.transcript .stt ⟨.FINAL, anId, "Good morning.".toList⟩, .reply 0 (.ok .none), .generation 0 (.ok .none),
    .generation 0 (.ok (.token "Good morning. ".toList 0)), .generation 0 (.ok .none), .reply 0 (.ok .none),
    .reply 0 .raised, .reply 0 (.ok .none), .reply 0 (.ok .none), .reply 0 (.ok .none), .generation 0 .raised,
    .transcript .stt ⟨.FINAL, anId, "Hello?".toList⟩, .generation 0 .cancelled]

/-- The generation that has failed ends the text of the next turn's reply. -/
theorem lateFailure_not_speaksIntoOwnReply : ∃ s,
    Run (step {}) (fun _ l => l.plain = true) (fresh {}) lateFailure s ∧ ¬ SpeaksIntoOwnReply s.trace := by
  obtain ⟨s, hrun, hlate⟩ := Run.exists_of_exec
    (P := fun s => s.trace.contains (.queued 1 (some 0) none) && !s.startedWith 0 1) (s := fresh {})
    (show (exec (step {}) (fun _ l => l.plain = true) _ lateFailure).any _ = true by decide +kernel)
  simp only [Bool.and_eq_true, List.contains_iff_mem, Bool.not_eq_true'] at hlate
  refine ⟨s, hrun, fun h => ?_⟩
  have hstarted : s.startedWith 0 1 = true := startedWith_iff.mpr (h 1 0 none hlate.1)
  rw [hlate.2] at hstarted
  cases hstarted

end Voxera.Voice
