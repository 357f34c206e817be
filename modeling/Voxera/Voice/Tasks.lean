import Voxera.Voice.Frame

/-!
# What one step of a generation or of a reply does

* `Puts g items s t` : `on_segment` and `on_complete` of the generation `g` put at most `items` on the
  queue of the reply that is active;
* `GenerationStep`, `ReplyStep` : the effect of a step on the two consumers, the system turn and the
  trace.
-/

namespace Voxera.Voice

open EventLoop
open Session

variable {cfg : Config} {s t u : Session}

/-! ## Generations -/

/-- All that happens to the speech consumer is that items are put on the queue of the active reply. -/
structure Puts (g : Nat) (items : List (Option Text)) (s t : Session) : Prop where
  state : t.state = s.state
  current : t.tts.current = s.tts.current
  count : t.tts.count = s.tts.count
  task : t.tts.task = s.tts.task
  audioSent : t.tts.audioSent = s.tts.audioSent
  queue : ∀ r, ∃ added, t.tts.reply r = { s.tts.reply r with queue := (s.tts.reply r).queue ++ added } ∧
    ∀ item ∈ added, item ∈ items ∧ s.tts.active = some r
  trace : ∃ es, t.trace = s.trace ++ es ∧ ∀ e ∈ es,
    (∃ r item, e = .queued r (some g) item ∧ item ∈ items ∧ s.tts.active = some r) ∨ ∃ m, e = .llm g m

namespace Puts

variable {g : Nat} {items items' : List (Option Text)}

/-- Nothing is put; only messages are sent. -/
theorem sends (g : Nat) (messages : List Llm.Message) (hstate : t.state = s.state) (htts : t.tts = s.tts)
    (htrace : t.trace = s.trace ++ messages.map (.llm g)) : Puts g [] s t where
  state := hstate
  current := by rw [htts]
  count := by rw [htts]
  task := by rw [htts]
  audioSent := by rw [htts]
  queue := fun r => ⟨[], by simp [htts], by simp⟩
  trace := by
    refine ⟨_, htrace, fun e he => Or.inr ?_⟩
    obtain ⟨m, -, rfl⟩ := List.mem_map.mp he
    exact ⟨m, rfl⟩

theorem refl (g : Nat) (s : Session) : Puts g [] s s := sends g [] rfl rfl (List.append_nil _).symm

theorem active (h : Puts g items s t) : t.tts.active = s.tts.active := by
  unfold Tts.Consumer.active
  rw [h.current, h.task]

theorem mono (h : Puts g items s t) (items' : List (Option Text)) (hitems : ∀ item ∈ items, item ∈ items') : Puts g items' s t where
  state := h.state
  current := h.current
  count := h.count
  task := h.task
  audioSent := h.audioSent
  queue := by
    intro r
    obtain ⟨added, hadded, hin⟩ := h.queue r
    exact ⟨added, hadded, fun item hitem => ⟨hitems item (hin item hitem).1, (hin item hitem).2⟩⟩
  trace := by
    obtain ⟨es, hes, hin⟩ := h.trace
    refine ⟨es, hes, fun e he => ?_⟩
    rcases hin e he with ⟨r, item, heq, hitem, hr⟩ | hm
    · exact Or.inl ⟨r, item, heq, hitems item hitem, hr⟩
    · exact Or.inr hm

theorem trans (h : Puts g items s t) (h' : Puts g items t u) : Puts g items s u where
  state := h'.state.trans h.state
  current := h'.current.trans h.current
  count := h'.count.trans h.count
  task := h'.task.trans h.task
  audioSent := h'.audioSent.trans h.audioSent
  queue := by
    intro r
    obtain ⟨added, hadded, hin⟩ := h.queue r
    obtain ⟨added', hadded', hin'⟩ := h'.queue r
    refine ⟨added ++ added', by rw [hadded', hadded]; simp, fun item hitem => ?_⟩
    rcases List.mem_append.mp hitem with hitem | hitem
    · exact hin item hitem
    · exact h.active ▸ hin' item hitem
  trace := by
    obtain ⟨es', hes', hin'⟩ := h'.trace
    exact extends_trans h.trace ⟨es', hes', fun e he => h.active ▸ hin' e he⟩

/-- One item is put on the queue of the active reply, if there is one. -/
theorem put (put : Option Nat) (hput : ∀ r, put = some r → s.tts.active = some r) (g : Nat) (item : Option Text) :
    Puts g [item] s
      ({ s with tts := put.elim s.tts (fun r => s.tts.put r item) }.emits
        (put.toList.map fun r => .queued r (some g) item)) := by
  cases put with
  | none =>
      have hsame : Puts g [] s ({ s with tts := s.tts }.emits []) :=
        sends g [] rfl rfl rfl
      exact hsame.mono _ (by simp)
  | some r =>
      have hr := hput r rfl
      refine ⟨rfl, rfl, rfl, rfl, rfl, fun r' => ?_, [.queued r (some g) item], rfl, ?_⟩
      · by_cases hne : r' = r
        · subst hne
          exact ⟨[item], by simp [Tts.Consumer.put], by simp [hr]⟩
        · exact ⟨[], by simp [Tts.Consumer.put, Function.update_of_ne hne], by simp⟩
      · simp [hr]

theorem speak (g : Nat) (segment : Text) (s : Session) :
    Puts g [some segment] s ({ s with tts := (s.tts.speak segment).2 }.emits
      ((s.tts.speak segment).1.toList.map fun r => .queued r (some g) (some segment))) := by
  have h := fun hput => put (s := s) (s.tts.speak segment).1 hput g (some segment)
  have hspeak : (∀ r, (s.tts.speak segment).1 = some r → s.tts.active = some r) ∧
      (s.tts.speak segment).2 = (s.tts.speak segment).1.elim s.tts (fun r => s.tts.put r (some segment)) := by
    unfold Tts.Consumer.speak
    split
    · rename_i r hr
      split
      · simp [hr]
      · simp
    · simp
  rw [hspeak.2]
  exact h hspeak.1

theorem finish (g : Nat) (s : Session) :
    Puts g [none] s ({ s with tts := s.tts.finish.2 }.emits
      (s.tts.finish.1.toList.map fun r => .queued r (some g) none)) := by
  have h := fun hput => put (s := s) s.tts.finish.1 hput g none
  have hfinish : (∀ r, s.tts.finish.1 = some r → s.tts.active = some r) ∧
      s.tts.finish.2 = s.tts.finish.1.elim s.tts (fun r => s.tts.put r none) := by
    unfold Tts.Consumer.finish
    split
    · rename_i r hr
      simp [hr]
    · simp
  rw [hfinish.2]
  exact h hfinish.1

theorem onSegments (g : Nat) (segments : List Text) (s : Session) :
    Puts g (segments.map some) s (Session.onSegments g segments s) := by
  induction segments generalizing s with
  | nil => exact refl g s
  | cons segment rest ih =>
      have hspeak := (speak g segment s).mono ((segment :: rest).map some) (by simp)
      refine hspeak.trans ((ih _).mono _ ?_)
      intro item hitem
      exact List.mem_cons_of_mem _ hitem

/-- `on_complete` ends the text, unless the generation was cancelled. -/
theorem onComplete (g : Nat) (text : Text) (outcome : Llm.Outcome) (s : Session) :
    Puts g (if outcome = .cancelled then [] else [none]) s (s.onComplete cfg g text outcome) := by
  have hremember : Puts g [] s
      (if Text.strip text ≠ [] then s.remember cfg .assistant (Text.strip text) else s) := by
    split
    · exact sends g [] rfl rfl (List.append_nil _).symm
    · exact refl g s
  unfold Session.onComplete
  simp only
  generalize (if Text.strip text ≠ [] then s.remember cfg .assistant (Text.strip text) else s) = u at hremember ⊢
  by_cases h : outcome = .cancelled
  · simpa [h] using hremember
  · simp only [h, ne_eq, not_false_eq_true, if_true, if_false]
    exact (hremember.mono _ (by simp)).trans (finish g u)

theorem generationAwaits (g : Nat) (pc : Llm.Pc Unit) (s : Session) : Puts g [] s (s.generationAwaits g pc) :=
  sends g ((s.llm.gen g).calls pc) rfl rfl rfl

theorem finished (g : Nat) (s : Session) : Puts g [] s { s with llm := s.llm.finish g } :=
  sends g [] rfl rfl (List.append_nil _).symm

end Puts

theorem onSegments_llm (g : Nat) (segments : List Text) (s : Session) :
    (Session.onSegments g segments s).llm = s.llm := by
  induction segments generalizing s with
  | nil => rfl
  | cons segment rest ih =>
      rw [Session.onSegments, ih]
      rfl

theorem onComplete_llm (g : Nat) (text : Text) (outcome : Llm.Outcome) (s : Session) :
    (s.onComplete cfg g text outcome).llm = s.llm := by
  unfold Session.onComplete
  simp only
  split <;> split <;> rfl

/-- A step of the generation `g` at `pc`: it hands out segments only while it has not been asked to
cancel, and it ends the text only with its own end. -/
structure GenerationStep (g : Nat) (pc : Llm.Pc Unit) (cancelling : Bool) (items : List (Option Text))
    (next : Coroutine (Llm.Pc Unit)) (s t : Session) : Prop where
  at_pc : s.llm.task g = .suspended pc cancelling
  current : t.llm.current = s.llm.current
  count : t.llm.count = s.llm.count
  task : t.llm.task = Function.update s.llm.task g next
  puts : Puts g items s t
  live : ∀ pc', next = .suspended pc' false → pc'.live = true → pc.live = true ∧ cancelling = false
  segment : ∀ text, some text ∈ items → pc.live = true ∧ cancelling = false
  marker : none ∈ items → next = .done ∧ (pc.live = true ∧ cancelling = false ∨ pc = .sendFailed)

theorem GenerationStep.of_resume {g : Nat} {w : Wake Llm.Item} (h : s.resumeGeneration cfg g w = some t) :
    ∃ pc cancelling items next, GenerationStep g pc cancelling items next s t := by
  unfold resumeGeneration at h
  obtain ⟨⟨llm, next⟩, hresume, rfl⟩ := Option.map_eq_some_iff.mp h
  obtain ⟨pc, cancelling, hpc, henabled, rfl, hnext⟩ := Llm.Consumer.resume_eq_some hresume
  have hcalm : ∀ item, w = .ok item → cancelling = false := by
    rintro item rfl
    exact Llm.Consumer.cancelling_of_enabled henabled
  have hgen : Puts g [] s { s with llm := { s.llm with gen := Function.update s.llm.gen g ((s.llm.gen g).resume pc w).1 } } :=
    .sends g [] rfl rfl (List.append_nil _).symm
  cases next with
  | await pc' =>
      refine ⟨pc, cancelling, [], .await pc', hpc, rfl, rfl, rfl, .sends g _ rfl rfl rfl, ?_, by simp, by simp⟩
      intro pc'' heq hlive
      cases heq
      obtain ⟨hl, item, hw⟩ := Llm.Gen.live_of_await hnext.symm hlive
      exact ⟨hl, hcalm item hw⟩
  | segments segments flushed =>
      obtain ⟨hl, item, hw⟩ := Llm.Gen.live_of_segments hnext.symm
      have hputs := hgen.mono (segments.map some) (by simp)
      refine ⟨pc, cancelling, segments.map some, .await (Llm.Gen.afterSegments flushed), hpc, ?_, ?_, ?_, ?_,
        fun _ _ _ => ⟨hl, hcalm item hw⟩, fun _ _ => ⟨hl, hcalm item hw⟩, by simp⟩
      · simp only [generationAwaits, emits_llm, Llm.Consumer.await, onSegments_llm]
      · simp only [generationAwaits, emits_llm, Llm.Consumer.await, onSegments_llm]
      · simp only [generationAwaits, emits_llm, Llm.Consumer.await, onSegments_llm]
      · exact (hputs.trans (Puts.onSegments g segments _)).trans ((Puts.generationAwaits g _ _).mono _ (by simp))
  | complete outcome =>
      have hdone := Llm.Gen.pc_of_complete hnext.symm
      refine ⟨pc, cancelling, if outcome = .cancelled then [] else [none], .done, hpc, ?_, ?_, ?_, ?_, by simp, ?_, ?_⟩
      · simp only [Llm.Consumer.finish, onComplete_llm]
      · simp only [Llm.Consumer.finish, onComplete_llm]
      · simp only [Llm.Consumer.finish, onComplete_llm]
      · exact ((hgen.mono _ (by simp)).trans (Puts.onComplete g _ outcome _)).trans
          ((Puts.finished g _).mono _ (by simp))
      · intro text htext
        split at htext <;> simp at htext
      · intro hnone
        refine ⟨rfl, ?_⟩
        rcases hdone with ⟨-, rfl, item, hw⟩ | ⟨rfl, -⟩ | ⟨-, rfl⟩
        · exact Or.inl ⟨rfl, hcalm item hw⟩
        · simp at hnone
        · exact Or.inr rfl
  | ended =>
      exact ⟨pc, cancelling, [], .done, hpc, rfl, rfl, rfl, .sends g [] rfl rfl (List.append_nil _).symm,
        by simp, by simp, by simp⟩

/-! ## Replies -/

/-- The turn flags after `_on_playback_end` of the reply `r`. -/
def Session.ended (s : Session) (r : Nat) (interrupted : Bool) : ConversationState :=
  (s.playbackEnded (s.tts.reply r).utteranceId interrupted).state

/-- Where a step of the reply `r` ends: at the next suspension point, or with the task, which calls
`_on_playback_end` before it ends unless it is cancelled in its `finally` block. -/
inductive Ending (r : Nat) (pc : Tts.Pc Unit) (w : Wake Tts.Item) (s : Session) :
    Option (Tts.Pc Unit) → Coroutine (Tts.Pc Unit) → ConversationState → Prop
  | awaits (pc' : Tts.Pc Unit) : Ending r pc w s (some pc') (.await pc') s.state
  | returned (interrupted : Bool) : Ending r pc w s (some (.playbackEnd interrupted ())) .done (s.ended r interrupted)
  | metricsSent (interrupted : Bool) (hpc : pc = .playbackEnd interrupted ()) (hw : w ≠ .cancelled) :
      Ending r pc w s none .done (s.ended r interrupted)
  | cut (hpc : ∀ interrupted, pc = .playbackEnd interrupted () → w = .cancelled) : Ending r pc w s none .done s.state

structure ReplyStep (r : Nat) (pc : Tts.Pc Unit) (cancelling : Bool) (w : Wake Tts.Item)
    (next : Coroutine (Tts.Pc Unit)) (s t : Session) : Prop where
  at_pc : s.tts.task r = .suspended pc cancelling
  enabled : s.tts.enabled r pc cancelling w = true
  llm : t.llm = s.llm
  current : t.tts.current = s.tts.current
  count : t.tts.count = s.tts.count
  audioSent : t.tts.audioSent = (pc.sent w || s.tts.audioSent)
  reply : t.tts.reply = Function.update s.tts.reply r ((s.tts.reply r).resume pc w).1
  task : t.tts.task = Function.update s.tts.task r next
  ending : Ending r pc w s ((s.tts.reply r).resume pc w).2 next t.state
  trace : ∃ es, t.trace = s.trace ++
    (((s.tts.reply r).resume pc w).1.calls ((s.tts.reply r).resume pc w).2).map (.tts r) ++ es ∧
    ∀ e ∈ es, ∃ timing, e = .turnMetrics timing

/-- Only what `_on_playback_end` reads counts for it. -/
theorem playbackEnded_state {t : Session} (hstate : t.state = s.state) (hllm : t.llm = s.llm)
    (hcurrent : t.tts.currentUtteranceId = s.tts.currentUtteranceId) (utteranceId : Text) (interrupted : Bool) :
    (t.playbackEnded utteranceId interrupted).state = (s.playbackEnded utteranceId interrupted).state := by
  unfold Session.playbackEnded
  rw [hllm, hcurrent, hstate]
  split
  · rfl
  · exact hstate

theorem playbackEnded_tts (utteranceId : Text) (interrupted : Bool) (s : Session) :
    (s.playbackEnded utteranceId interrupted).tts = s.tts := by
  unfold Session.playbackEnded
  split <;> rfl

theorem playbackEnded_llm (utteranceId : Text) (interrupted : Bool) (s : Session) :
    (s.playbackEnded utteranceId interrupted).llm = s.llm := by
  unfold Session.playbackEnded
  split <;> rfl

theorem playbackEnded_trace (utteranceId : Text) (interrupted : Bool) (s : Session) :
    (s.playbackEnded utteranceId interrupted).trace = s.trace := by
  unfold Session.playbackEnded
  split <;> rfl

theorem metricsSent_of_ne {r : Nat} {pc : Tts.Pc Unit} {cancelling : Bool} (hpc : s.tts.task r = .suspended pc cancelling)
    (hne : ∀ interrupted, pc ≠ .playbackEnd interrupted ()) (w : Wake Tts.Item) : s.metricsSent r w = s := by
  unfold Session.metricsSent
  split
  · rfl
  · rename_i interrupted _ _ heq _
    rw [hpc, Coroutine.suspended.injEq] at heq
    exact absurd heq.1 (hne interrupted)
  · rfl

/-- What the reply task does to the session when it has come to its next suspension point. -/
theorem ReplyStep.of_next {r : Nat} {pc : Tts.Pc Unit} {cancelling : Bool} {w : Wake Tts.Item} {pc' : Tts.Pc Unit}
    (hpc : s.tts.task r = .suspended pc cancelling) (henabled : s.tts.enabled r pc cancelling w = true)
    (hnext : ((s.tts.reply r).resume pc w).2 = some pc') {tts : Tts.Consumer Unit}
    (htts : tts = { s.tts with
      audioSent := pc.sent w || s.tts.audioSent
      reply := Function.update s.tts.reply r ((s.tts.reply r).resume pc w).1
      task := Function.update s.tts.task r (.await pc') })
    {calls : List Tts.Event} (hcalls : calls = ((s.tts.reply r).resume pc w).1.calls (some pc')) :
    ∃ next, ReplyStep r pc cancelling w next s
      (match tts.task r with
        | .suspended (.playbackEnd interrupted _) _ =>
          ({ s with tts }.emits (calls.map (.tts r))).onPlaybackEnd r interrupted
        | _ => { s with tts }.emits (calls.map (.tts r))) := by
  have hstay : ReplyStep r pc cancelling w (.await pc') s ({ s with tts }.emits (calls.map (.tts r))) := by
    subst htts hcalls
    refine ⟨hpc, henabled, rfl, rfl, rfl, rfl, rfl, rfl, ?_, [], by rw [hnext]; simp, by simp⟩
    rw [hnext]
    exact .awaits pc'
  split
  · rename_i interrupted inner c htask
    have heq : pc' = .playbackEnd interrupted () := by
      rw [htts] at htask
      simp only [Function.update_self, Coroutine.await, Coroutine.suspended.injEq] at htask
      exact htask.1
    subst heq
    generalize hu : ({ s with tts }.emits (calls.map (.tts r))) = u at hstay ⊢
    have hutterance : ∀ r', (u.tts.reply r').utteranceId = (s.tts.reply r').utteranceId := by
      intro r'
      rw [hstay.reply]
      by_cases hr : r' = r
      · subst hr
        simp
      · simp [Function.update_of_ne hr]
    have hactive : u.tts.active = s.tts.active := by
      refine Tts.Consumer.active_congr hstay.current (fun r' => ?_)
      rw [hstay.task]
      by_cases hr : r' = r
      · subst hr
        simp [hpc, Coroutine.await]
      · simp [Function.update_of_ne hr]
    have hcurrent : u.tts.currentUtteranceId = s.tts.currentUtteranceId :=
      Tts.Consumer.currentUtteranceId_congr hactive hutterance
    have hended : (u.playbackEnded (u.tts.reply r).utteranceId interrupted).state = s.ended r interrupted := by
      rw [hutterance]
      exact playbackEnded_state (by rw [← hu]; rfl) hstay.llm hcurrent _ _
    have hdone : ∃ next, ReplyStep r pc cancelling w next s
        { u.playbackEnded (u.tts.reply r).utteranceId interrupted with
          tts := { (u.playbackEnded (u.tts.reply r).utteranceId interrupted).tts with
            task := Function.update (u.playbackEnded (u.tts.reply r).utteranceId interrupted).tts.task r .done } } := by
      refine ⟨.done, hpc, henabled, ?_, ?_, ?_, ?_, ?_, ?_, ?_, ?_⟩
      · rw [playbackEnded_llm, hstay.llm]
      · rw [playbackEnded_tts, hstay.current]
      · rw [playbackEnded_tts, hstay.count]
      · rw [playbackEnded_tts, hstay.audioSent]
      · rw [playbackEnded_tts, hstay.reply]
      · rw [playbackEnded_tts, hstay.task, Function.update_idem]
      · rw [hnext]
        simp only [hended]
        exact .returned interrupted
      · rw [playbackEnded_trace]
        exact hstay.trace
    unfold Session.onPlaybackEnd
    simp only
    split
    · split
      · refine ⟨.await (.playbackEnd interrupted ()), hpc, henabled, hstay.llm, hstay.current, hstay.count,
          hstay.audioSent, hstay.reply, hstay.task, hstay.ending, ?_⟩
        exact extends_trans hstay.trace ⟨[.turnMetrics _], rfl, fun e he => ⟨_, List.mem_singleton.mp he⟩⟩
      · exact hdone
    · exact hdone
  · exact ⟨_, hstay⟩

theorem ReplyStep.of_resume {r : Nat} {w : Wake Tts.Item} (h : s.resumeReply r w = some t) :
    ∃ pc cancelling next, ReplyStep r pc cancelling w next s t := by
  unfold resumeReply at h
  obtain ⟨⟨tts, calls⟩, hresume, rfl⟩ := Option.map_eq_some_iff.mp h
  obtain ⟨pc, cancelling, hpc, henabled, rfl, rfl⟩ := Tts.Consumer.resume_eq_some hresume
  refine ⟨pc, cancelling, ?_⟩
  cases hnext : ((s.tts.reply r).resume pc w).2 with
  | some pc' =>
      have hne : ∀ interrupted, pc ≠ .playbackEnd interrupted () := by
        rintro interrupted rfl
        rw [Tts.Reply.resume_playbackEnd] at hnext
        cases hnext
      rw [metricsSent_of_ne hpc hne]
      exact of_next hpc henabled hnext rfl rfl
  | none =>
      -- the task ends, and only what `turn_metrics` was sent before can still end the turn
      have hpre : (s.metricsSent r w).llm = s.llm ∧ (s.metricsSent r w).trace = s.trace ∧
          Ending r pc w s none .done (s.metricsSent r w).state := by
        unfold Session.metricsSent
        split
        · rename_i interrupted _ _ heq
          rw [hpc, Coroutine.suspended.injEq] at heq
          exact ⟨rfl, rfl, .cut (fun _ _ => rfl)⟩
        · rename_i interrupted _ _ heq hw
          rw [hpc, Coroutine.suspended.injEq] at heq
          refine ⟨playbackEnded_llm .., playbackEnded_trace .., ?_⟩
          have hstate := playbackEnded_state (s := s) (t := { s with timing := none }) rfl rfl rfl
            (s.tts.reply r).utteranceId interrupted
          rw [hstate]
          exact .metricsSent interrupted heq.1 (fun h => hw h)
        · rename_i hne _
          refine ⟨rfl, rfl, .cut (fun interrupted heq => ?_)⟩
          exact absurd (by rw [hpc, heq]) (hne interrupted () cancelling)
      simp only [Option.elim_none, Function.update_self]
      refine ⟨.done, hpc, henabled, hpre.1, rfl, rfl, rfl, rfl, rfl, ?_, [], ?_, by simp⟩
      · rw [hnext]
        exact hpre.2.2
      · rw [hnext, emits_trace, List.append_nil]
        exact congrArg (· ++ _) hpre.2.1

end Voxera.Voice
