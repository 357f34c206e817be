import Voxera.Voice.Isolation

/-!
# The system turn is closed

Where nothing is left to be done the system is not speaking, as long as `speak_text` is not used and
three things do not happen while the system speaks and no `_reply` waits to take over:

* an exception is raised in the current reply's `try` block, which ends the reply as interrupted;
* `close` stops the current reply;
* a generation that has failed ends a later reply's text (`KeptApart`).

`Coupled` says that the current generation and the current reply belong together, `Attended` that
somebody will close the system turn, and `Attended.step` is the step lemma.
-/

namespace Voxera.Voice

open EventLoop
open Session

variable {cfg : Config} {me : Handler} {s t : Session}

/-! ## The steps in question -/

/-- An exception is raised in the `try` block of the current reply. -/
def Session.replyRaises (s : Session) : Label → Bool
  | .reply r .raised => s.tts.current = some r && (s.tts.task r).pc?.any Tts.Pc.raises
  | _ => false

/-- `close` stops the current reply. -/
def Session.closeStops (s : Session) (l : Label) : Bool := s.closesSpeech l && s.tts.active.isSome

/-- `speak_text` is not used, a generation that has failed ends no reply but its own, and a reply that
the system speaks neither meets an exception nor is closed, unless another `_reply` waits for its end. -/
def TurnClosable (s : Session) (l : Label) : Bool :=
  !l.usesSpeakText && KeptApart s l &&
    (!s.state.isSystemSpeaking || s.replyWaits || !(s.replyRaises l || s.closeStops l))

/-! ## Who closes the turn -/

/-- A call of `_reply` waits in `tts.begin`. -/
def Waiting (s : Session) : Prop := ∃ me pc, (s.handler me).pc? = some pc ∧ pc.inReply = true

/-- The current reply goes on, and it has not been interrupted. -/
def Sounding (s : Session) : Prop :=
  ∃ r pc, s.tts.current = some r ∧ s.tts.task r = .suspended pc false ∧ pc.interrupted = false

theorem Waiting.of_replyWaits (h : s.replyWaits = true) : Waiting s := by
  obtain ⟨me, -, hpc⟩ := List.any_eq_true.mp h
  cases hp : (s.handler me).pc? with
  | none => simp [hp] at hpc
  | some pc => exact ⟨me, pc, hp, by simpa [hp] using hpc⟩

theorem Pc.speech_of_inReply {pc : Pc} (h : pc.inReply = true) : pc.speech = true := by
  cases pc <;> first | rfl | cases h

theorem Waiting.hushed (h : Waiting s) (hs : Hushed s t) : Waiting t := by
  obtain ⟨me, pc, hpc, hreply⟩ := h
  exact ⟨me, pc, (hs.handler me pc (Pc.speech_of_inReply hreply)).mpr hpc, hreply⟩

/-- The other calls stay where they are. -/
theorem Waiting.of_others (me : Handler) (h : Waiting s) (hothers : ∀ other, other ≠ me → t.handler other = s.handler other)
    (hme : ∀ pc, (s.handler me).pc? = some pc → pc.inReply = true → Waiting t) : Waiting t := by
  obtain ⟨other, pc, hpc, hreply⟩ := h
  by_cases heq : other = me
  · exact hme pc (heq ▸ hpc) hreply
  · exact ⟨other, pc, by rwa [hothers other heq], hreply⟩

/-! ## No `speak_text` -/

def StopFor.isSpeakText : StopFor → Bool
  | .speakText _ _ _ => true
  | _ => false

/-- No call of `speak_text` is suspended. -/
def NoSpeakText (s : Session) : Prop := ∀ me pc, (s.handler me).pc? = some pc → pc.stop?.any StopFor.isSpeakText = false

theorem NoSpeakText.hushed (h : NoSpeakText s) (hs : Hushed s t) : NoSpeakText t := by
  intro me pc hpc
  by_cases hspeech : pc.speech = true
  · exact h me pc ((hs.handler me pc hspeech).mp hpc)
  · cases pc <;> first | rfl | exact absurd rfl hspeech

theorem NoSpeakText.of_others (me : Handler) (h : NoSpeakText s) (hothers : ∀ other, other ≠ me → t.handler other = s.handler other)
    (hme : ∀ pc, (t.handler me).pc? = some pc → pc.stop?.any StopFor.isSpeakText = false) : NoSpeakText t := by
  intro other pc hpc
  by_cases heq : other = me
  · exact hme pc (heq ▸ hpc)
  · exact h other pc (by rwa [← hothers other heq])

/-! ## The current generation and the current reply -/

def Event.isGeneration : Event → Bool
  | .generation _ _ _ _ _ => true
  | _ => false

theorem startedWith_congr {es : List Event} (htrace : t.trace = s.trace ++ es) (hes : ∀ e ∈ es, e.isGeneration = false)
    (g r : Nat) : t.startedWith g r = s.startedWith g r := by
  have hnone : es.any (Event.starts g r) = false := by
    refine List.any_eq_false.mpr (fun e he => ?_)
    have hg := hes e he
    cases e <;> first | exact Bool.false_ne_true | cases hg
  unfold Session.startedWith
  rw [htrace, List.any_append, hnone, Bool.or_false]

structure Coupled (s : Session) : Prop where
  below : ∀ r, s.tts.current = some r → r < s.tts.count
  started : ∀ g r, s.startedWith g r = true → r < s.tts.count
  paired : ∀ g r, s.startedWith g r = true → s.tts.current = some r → s.llm.current = some g
  /-- The text of the current reply ends with the generation. -/
  marker : ∀ r, s.tts.current = some r →
    none ∈ (s.tts.reply r).queue ∨ (s.tts.task r).pc?.any Tts.Pc.pastText = true → s.llm.active = none

namespace Coupled

theorem fresh (cfg : Config) : Coupled (fresh cfg) where
  below := fun _ h => nomatch h
  started := fun _ _ h => absurd h (by simp [Session.startedWith, Session.fresh])
  paired := fun _ _ _ h => nomatch h
  marker := fun _ h => nomatch h

/-- No reply or generation is started, no text ended. -/
theorem congr (h : Coupled s) (hllm : t.llm.current = s.llm.current)
    (hactive : s.llm.active = none → t.llm.active = none) (hcurrent : t.tts.current = s.tts.current)
    (hcount : t.tts.count = s.tts.count)
    (hmarker : ∀ r, s.tts.current = some r →
      none ∈ (t.tts.reply r).queue ∨ (t.tts.task r).pc?.any Tts.Pc.pastText = true →
      (none ∈ (s.tts.reply r).queue ∨ (s.tts.task r).pc?.any Tts.Pc.pastText = true) ∨ t.llm.active = none)
    {es : List Event} (htrace : t.trace = s.trace ++ es) (hes : ∀ e ∈ es, e.isGeneration = false) : Coupled t where
  below r hr := hcount ▸ h.below r (hcurrent ▸ hr)
  started g r hs := hcount ▸ h.started g r (startedWith_congr htrace hes g r ▸ hs)
  paired g r hs hr := hllm ▸ h.paired g r (startedWith_congr htrace hes g r ▸ hs) (hcurrent ▸ hr)
  marker r hr hm := by
    have hr' : s.tts.current = some r := hcurrent ▸ hr
    rcases hmarker r hr' hm with hm | hm
    · exact hactive (h.marker r hr' hm)
    · exact hm

/-- Only the calls and the turns change. -/
theorem of_eq (h : Coupled s) (hllm : t.llm = s.llm ∨ t.llm = s.llm.cancel) (htts : t.tts = s.tts)
    {es : List Event} (htrace : t.trace = s.trace ++ es) (hes : ∀ e ∈ es, e.isGeneration = false) : Coupled t := by
  refine h.congr ?_ ?_ (by rw [htts]) (by rw [htts]) (fun r _ hm => Or.inl (by rwa [htts] at hm)) htrace hes
  · rcases hllm with hllm | hllm <;> simp [hllm]
  · rcases hllm with hllm | hllm <;> simp [hllm]

theorem hushed (h : Coupled s) (hs : Hushed s t) : Coupled t := by
  obtain ⟨es, htrace, hes⟩ := hs.trace
  refine h.of_eq hs.llm hs.tts htrace (fun e he => ?_)
  obtain ⟨utteranceId, rfl⟩ := hes e he
  rfl

/-- A reply is asked to cancel. -/
theorem cancelReply (h : Coupled s) (r : Nat) : Coupled { s with tts := s.tts.cancel r } := by
  refine h.congr rfl id rfl rfl (fun r' _ hm => Or.inl ?_) (List.append_nil _).symm (by simp)
  by_cases heq : r' = r
  · subst heq
    simpa [Tts.Consumer.cancel] using hm
  · simpa [Tts.Consumer.cancel, Function.update_of_ne heq] using hm

theorem replyBegun (h : Coupled s) (turn : UserTurnCompleted) (history : List Llm.Entry) (ticket : Nat) :
    Coupled (s.replyBegun me turn history ticket) := by
  have hstarted : ∀ g r, (s.replyBegun me turn history ticket).startedWith g r = true →
      s.startedWith g r = true ∨ g = s.llm.count ∧ r = s.tts.count := by
    intro g r hs
    simp only [Session.startedWith, Session.replyBegun, leave_trace, emit_trace, List.any_append, List.any_cons,
      List.any_nil, Event.starts, Bool.or_false, Bool.or_eq_true, Bool.and_eq_true, beq_iff_eq] at hs
    rcases hs with hs | hs
    · exact Or.inl hs
    · exact Or.inr ⟨hs.1.symm, hs.2.symm⟩
  refine ⟨?_, ?_, ?_, ?_⟩
  · intro r hr
    cases hr
    exact Nat.lt_succ_self _
  · intro g r hs
    show r < s.tts.count + 1
    rcases hstarted g r hs with hs | ⟨-, rfl⟩
    · exact Nat.lt_succ_of_lt (h.started g r hs)
    · exact Nat.lt_succ_self _
  · intro g r hs hr
    cases hr
    rcases hstarted g _ hs with hs | ⟨rfl, -⟩
    · exact absurd (h.started g _ hs) (Nat.lt_irrefl _)
    · rfl
  · intro r hr hm
    cases hr
    simp [Session.replyBegun, Tts.Consumer.openReply, Coroutine.await, Tts.Pc.pastText] at hm

theorem ttsStop (h : Coupled s) {k : StopFor} {next : Session → Session} (hnext : Coupled (next s)) :
    Coupled (s.ttsStop me k next) := by
  unfold Session.ttsStop
  split
  · exact hnext
  · rename_i r _
    exact (h.cancelReply r).of_eq (Or.inl rfl) rfl (List.append_nil _).symm (by simp)

theorem reply (h : Coupled s) (turn : UserTurnCompleted) : Coupled (s.reply cfg me turn) := by
  have hbegins : Coupled (s.replyBegins cfg turn) := by
    have htrace : (s.replyBegins cfg turn).trace =
        s.trace ++ [.reply turn s.state.isUserSpeaking, .begin s.begun s.state.isUserSpeaking] := by simp
    exact h.of_eq (Or.inl rfl) rfl htrace (by simp [Event.isGeneration])
  unfold Session.reply
  refine ttsStop hbegins ?_
  exact hbegins.replyBegun ..

theorem answers {calls : Prop} (h : Coupled s) (ha : Answers cfg me calls s t) : Coupled t := by
  cases ha with
  | hushed hs => exact h.hushed hs
  | replies _ hs _ turn => exact (h.hushed hs).reply turn

/-- A call into the session takes a step. -/
theorem called (h : Coupled s) {l : Label} (hq : NoSpeakText s) (hl : l.usesSpeakText = false)
    (hc : Called cfg s l t) : Coupled t := by
  have hinterrupted : ∀ vad state, Coupled (({ s with vad }.interrupted state)) := by
    intro vad state
    exact h.of_eq (Or.inr rfl) rfl (trace_interrupted vad state) (by simp [Event.isGeneration])
  cases hc with
  | answers _ ha => exact h.answers ha
  | @interruptReturns _ vad state _ _ _ _ _ ha =>
      have hreturned : Coupled (({ s with vad }.interrupted state).emit (.interruptionReturned s.cut)) :=
        (hinterrupted vad state).of_eq (Or.inl rfl) rfl rfl (by simp [Event.isGeneration])
      exact hreturned.answers ha
  | @interruptStops _ vad state _ r =>
      exact ((hinterrupted vad state).cancelReply r).of_eq (Or.inl rfl) rfl (List.append_nil _).symm (by simp)
  | clears => exact h.of_eq (Or.inl rfl) rfl rfl (by simp [Event.isGeneration])
  | bargesIn => exact h.of_eq (Or.inl rfl) rfl rfl (by simp [Event.isGeneration])
  | @returns me _ cut _ _ _ ha =>
      have hreturned : Coupled ((s.leave me).emit (.interruptionReturned cut)) :=
        h.of_eq (Or.inl rfl) rfl rfl (by simp [Event.isGeneration])
      exact hreturned.answers ha
  | @begins me =>
      have hleft : Coupled (s.leave me) := h.of_eq (Or.inl rfl) rfl (List.append_nil _).symm (by simp)
      exact hleft.replyBegun ..
  | @speakBegins me pc _ _ _ _ _ hpc hreturns =>
      have hnone := hq me pc (by rw [hpc, Coroutine.pc?_suspended])
      rw [hreturns.stop?] at hnone
      cases hnone
  | closes => exact h.of_eq (Or.inl rfl) rfl (List.append_nil _).symm (by simp)
  | speakText hl' =>
      rw [hl'] at hl
      cases hl
  | @closesSpeech u _ hs _ =>
      have hu : Coupled u := h.hushed hs
      exact hu.ttsStop (hu.of_eq (Or.inl rfl) rfl (List.append_nil _).symm (by simp))

/-- A generation takes a step: the text it ends is that of the current reply, and it ends with it. -/
theorem generation (h : Coupled s) (hi : Isolated s) {g : Nat} {pc : Llm.Pc Unit} {cancelling : Bool}
    {items : List (Option Text)} {next : Coroutine (Llm.Pc Unit)}
    (hown : pc = .sendFailed → s.tts.active.all (s.startedWith g) = true)
    (hg : GenerationStep g pc cancelling items next s t) : Coupled t := by
  have hactive : s.llm.active = none → t.llm.active = none := by
    intro hnone
    refine Option.eq_none_iff_forall_ne_some.mpr (fun g' hg' => ?_)
    obtain ⟨hcurrent, hdone⟩ := Llm.Consumer.active_eq_some.mp hg'
    rw [hg.current] at hcurrent
    have hne : g' ≠ g := by
      rintro rfl
      exact absurd (Llm.Consumer.active_eq_some.mpr ⟨hcurrent, by simp [hg.at_pc]⟩) (by simp [hnone])
    rw [hg.task, Function.update_of_ne hne] at hdone
    exact absurd (Llm.Consumer.active_eq_some.mpr ⟨hcurrent, hdone⟩) (by simp [hnone])
  have hended : none ∈ items → ∀ r, s.tts.active = some r → t.llm.active = none := by
    intro hnone r hr
    obtain ⟨rfl, hown'⟩ := hg.marker hnone
    have hcurrent : s.llm.current = some g := by
      rcases hown' with ⟨hl, rfl⟩ | hfailed
      · exact (hi.live g ⟨pc, hg.at_pc, hl⟩).1
      · have hstarted : s.startedWith g r = true := by simpa [hr] using hown hfailed
        exact h.paired g r hstarted (Tts.Consumer.active_eq_some.mp hr).1
    refine Option.eq_none_iff_forall_ne_some.mpr (fun g' hg' => ?_)
    obtain ⟨hcurrent', hdone⟩ := Llm.Consumer.active_eq_some.mp hg'
    rw [hg.current, hcurrent, Option.some.injEq] at hcurrent'
    subst hcurrent'
    simp [hg.task] at hdone
  obtain ⟨es, htrace, hes⟩ := hg.puts.trace
  refine h.congr hg.current hactive hg.puts.current hg.puts.count (fun r hr hm => ?_) htrace ?_
  · rw [hg.puts.task] at hm
    obtain ⟨added, hreply, hadded⟩ := hg.puts.queue r
    rcases hm with hm | hm
    · rw [hreply] at hm
      rcases List.mem_append.mp hm with hm | hm
      · exact Or.inl (Or.inl hm)
      · obtain ⟨hitem, hr'⟩ := hadded none hm
        exact Or.inr (hended hitem r hr')
    · exact Or.inl (Or.inr hm)
  · intro e he
    rcases hes e he with ⟨r, item, rfl, -⟩ | ⟨m, rfl⟩ <;> rfl

theorem spoken (h : Coupled s) {r : Nat} {pc : Tts.Pc Unit} {cancelling : Bool} {w : Wake Tts.Item}
    {next : Coroutine (Tts.Pc Unit)} (hr : ReplyStep r pc cancelling w next s t) : Coupled t := by
  obtain ⟨es, htrace, hes⟩ := hr.trace
  rw [List.append_assoc] at htrace
  refine h.congr (by rw [hr.llm]) (by rw [hr.llm]; exact id) hr.current hr.count (fun r' _ hm => Or.inl ?_) htrace ?_
  · rw [hr.reply, hr.task] at hm
    by_cases heq : r' = r
    · subst heq
      rw [Function.update_self, Function.update_self] at hm
      rw [hr.at_pc, Coroutine.pc?_suspended, Option.any_some]
      refine Tts.Reply.resume_marker _ (w := w) (hm.imp_right fun hpast => ?_)
      have hending := hr.ending
      generalize ((s.tts.reply r').resume pc w).2 = pc', t.state = state at hending ⊢
      cases hending with
      | awaits pc' => exact ⟨pc', rfl, by simpa [Coroutine.await] using hpast⟩
      | _ => cases hpast
    · rwa [Function.update_of_ne heq, Function.update_of_ne heq] at hm
  · intro e he
    rcases List.mem_append.mp he with he | he
    · obtain ⟨call, -, rfl⟩ := List.mem_map.mp he
      rfl
    · obtain ⟨timing, rfl⟩ := hes e he
      rfl

end Coupled

/-! ## The invariant -/

/-- While the system speaks, somebody will take over or end its turn. -/
structure Attended (s : Session) : Prop where
  noSpeakText : NoSpeakText s
  attended : s.state.isSystemSpeaking = true → Waiting s ∨ Sounding s

namespace Attended

theorem fresh (cfg : Config) : Attended (fresh cfg) where
  noSpeakText := fun _ _ h => nomatch h
  attended := fun h => nomatch h

theorem hushed (h : Attended s) (hs : Hushed s t) : Attended t where
  noSpeakText := h.noSpeakText.hushed hs
  attended := by
    intro hsys
    rw [hs.system] at hsys
    rcases h.attended hsys with hw | ⟨r, pc, hr, hpc, hok⟩
    · exact Or.inl (hw.hushed hs)
    · exact Or.inr ⟨r, pc, by rw [hs.tts]; exact hr, by rw [hs.tts]; exact hpc, hok⟩

theorem replyBegun (h : NoSpeakText s) (turn : UserTurnCompleted) (history : List Llm.Entry)
    (ticket : Nat) : Attended (s.replyBegun me turn history ticket) where
  noSpeakText := by
    refine h.of_others me (fun other hne => ?_) (fun pc hpc => ?_)
    · simp [Session.replyBegun, Function.update_of_ne hne]
    · simp [Session.replyBegun] at hpc
  attended := by
    intro _
    refine Or.inr ⟨s.tts.count, .created, rfl, ?_, rfl⟩
    simp [Session.replyBegun, Tts.Consumer.openReply, Coroutine.await]

/-- The call `me` suspends, and does not speak a text. -/
theorem noSpeakText_park (h : NoSpeakText s) {pc : Pc} (hpc : pc.stop?.any StopFor.isSpeakText = false) :
    NoSpeakText (s.park me pc) := by
  refine h.of_others me (fun other hne => ?_) (fun pc' hpc' => ?_)
  · simp [Function.update_of_ne hne]
  · simp only [park_handler, Function.update_self, Coroutine.await, Coroutine.pc?_suspended, Option.some.injEq] at hpc'
    exact hpc' ▸ hpc

theorem noSpeakText_leave (h : NoSpeakText s) (me : Handler) : NoSpeakText (s.leave me) := by
  refine h.of_others me (fun other hne => ?_) (fun pc hpc => ?_)
  · simp [Function.update_of_ne hne]
  · simp at hpc

theorem reply (h : NoSpeakText s) (turn : UserTurnCompleted) : Attended (s.reply cfg me turn) := by
  have hbegins : NoSpeakText (s.replyBegins cfg turn) := h
  unfold Session.reply Session.ttsStop
  simp only
  split
  · exact replyBegun hbegins ..
  · rename_i r _
    refine ⟨noSpeakText_park (s := { s.replyBegins cfg turn with tts := _ }) hbegins rfl, fun _ => Or.inl ?_⟩
    exact ⟨me, .stopping r s.tts.audioSent (.reply turn s.history s.begun), by simp [Coroutine.await], rfl⟩

theorem answers {calls : Prop} (h : Attended s) (ha : Answers cfg me calls s t) : Attended t := by
  cases ha with
  | hushed hs => exact h.hushed hs
  | replies _ hs _ turn => exact reply (h.hushed hs).noSpeakText turn

/-- Nothing is to be closed. -/
theorem of_silent (h : NoSpeakText s) (hsilent : s.state.isSystemSpeaking = false) : Attended s :=
  ⟨h, fun hsys => by simp [hsilent] at hsys⟩

/-- A call that is not about to open a reply goes on, to where it opens none either. -/
theorem of_others (me : Handler) (h : Attended s) (hstate : t.state = s.state) (htts : t.tts = s.tts)
    (hothers : ∀ other, other ≠ me → t.handler other = s.handler other)
    (hkeeps : ∀ pc, (s.handler me).pc? = some pc → pc.inReply = true → Waiting t)
    (hno : ∀ pc, (t.handler me).pc? = some pc → pc.stop?.any StopFor.isSpeakText = false) : Attended t where
  noSpeakText := h.noSpeakText.of_others me hothers hno
  attended := by
    intro hsys
    rw [hstate] at hsys
    rcases h.attended hsys with hw | ⟨r, pc, hr, hpc, hok⟩
    · exact Or.inl (hw.of_others me hothers hkeeps)
    · exact Or.inr ⟨r, pc, by rw [htts]; exact hr, by rw [htts]; exact hpc, hok⟩

/-- A call into the session takes a step. -/
theorem called (h : Attended s) {l : Label} (hok : TurnClosable s l = true) (hc : Called cfg s l t) : Attended t := by
  simp only [TurnClosable, Bool.and_eq_true, Bool.not_eq_true'] at hok
  obtain ⟨⟨hplain, -⟩, hstops⟩ := hok
  cases hc with
  | answers _ ha => exact h.answers ha
  | @interruptReturns _ vad state _ _ _ hstate _ ha =>
      have hsilent : Attended ((({ s with vad }).interrupted state).emit (.interruptionReturned s.cut)) :=
        of_silent h.noSpeakText (TurnManager.handleInterruption_eq_some hstate).2.2
      exact hsilent.answers ha
  | @interruptStops me vad state _ r _ _ hstate =>
      have hno : NoSpeakText { { s with vad }.interrupted state with tts := s.tts.cancel r } := h.noSpeakText
      exact of_silent (noSpeakText_park hno rfl) (TurnManager.handleInterruption_eq_some hstate).2.2
  | @clears me r k _ hpc =>
      refine h.of_others me rfl rfl (fun other hne => by simp [Function.update_of_ne hne]) ?_ ?_
      · intro pc hpc' hreply
        rw [hpc, Coroutine.pc?_suspended, Option.some.injEq] at hpc'
        subst hpc'
        exact ⟨me, .clearing k, by simp [Coroutine.await], hreply⟩
      · intro pc hpc'
        simp only [park_handler, Function.update_self, Coroutine.await, Coroutine.pc?_suspended, Option.some.injEq] at hpc'
        subst hpc'
        exact h.noSpeakText me (.stopping r true k) (by rw [hpc, Coroutine.pc?_suspended])
  | @bargesIn me pc k cut _ hpc hreturns =>
      refine h.of_others me rfl rfl (fun other hne => by simp [Function.update_of_ne hne]) ?_ ?_
      · intro pc' hpc' hreply
        rw [hpc, Coroutine.pc?_suspended, Option.some.injEq] at hpc'
        subst hpc'
        simp [Pc.inReply, hreturns.stop?, StopFor.isReply] at hreply
      · intro pc' hpc'
        simp only [park_handler, Function.update_self, Coroutine.await, Coroutine.pc?_suspended, Option.some.injEq] at hpc'
        subst hpc'
        rfl
  | @returns me k cut _ _ hpc ha =>
      refine answers ?_ ha
      refine h.of_others me rfl rfl (fun other hne => by simp [Function.update_of_ne hne]) ?_ ?_
      · intro pc hpc' hreply
        rw [hpc, Coroutine.pc?_suspended, Option.some.injEq] at hpc'
        subst hpc'
        cases hreply
      · intro pc hpc'
        simp at hpc'
  | @begins me => exact replyBegun (noSpeakText_leave h.noSpeakText me) ..
  | @speakBegins me pc _ _ _ _ _ hpc hreturns =>
      have hnone := h.noSpeakText me pc (by rw [hpc, Coroutine.pc?_suspended])
      rw [hreturns.stop?] at hnone
      cases hnone
  | @closes me pc _ hpc hreturns =>
      refine h.of_others me rfl rfl (fun other hne => by simp [Session.closeReturned, Function.update_of_ne hne]) ?_ ?_
      · intro pc' hpc' hreply
        rw [hpc, Coroutine.pc?_suspended, Option.some.injEq] at hpc'
        subst hpc'
        simp [Pc.inReply, hreturns.stop?, StopFor.isReply] at hreply
      · intro pc' hpc'
        simp [Session.closeReturned] at hpc'
  | speakText hl =>
      rw [hl] at hplain
      cases hplain
  | @closesSpeech u hl hs hidle =>
      have hu : Attended u := h.hushed hs
      unfold Session.closeTts Session.ttsStop
      split
      · refine hu.of_others .endpoint rfl rfl
          (fun other hne => by simp [Session.closeReturned, Function.update_of_ne hne]) ?_ ?_
        · intro pc hpc
          rw [hidle] at hpc
          cases hpc
        · intro pc hpc
          simp [Session.closeReturned] at hpc
      · rename_i r hactive
        refine ⟨noSpeakText_park (s := { u with tts := _ }) hu.noSpeakText rfl, fun hsys => Or.inl ?_⟩
        have hactive' : s.tts.active = some r := hs.tts ▸ hactive
        have hsys' : s.state.isSystemSpeaking = true := hs.system ▸ hsys
        have hwaits : s.replyWaits = true := by
          simpa [hsys', Session.closeStops, hl, hactive'] using hstops
        refine ((Waiting.of_replyWaits hwaits).hushed hs).of_others .endpoint
          (fun other hne => by simp [Function.update_of_ne hne]) ?_
        intro pc hpc
        rw [hidle] at hpc
        cases hpc

/-- The calls stay, and no reply is touched. -/
theorem of_eq (h : Attended s) (hhandler : t.handler = s.handler) (hstate : t.state = s.state)
    (hcurrent : t.tts.current = s.tts.current) (htask : t.tts.task = s.tts.task) : Attended t where
  noSpeakText := by
    intro me pc hpc
    rw [hhandler] at hpc
    exact h.noSpeakText me pc hpc
  attended := by
    intro hsys
    rw [hstate] at hsys
    rcases h.attended hsys with ⟨me, pc, hpc, hreply⟩ | ⟨r, pc, hr, hpc, hok⟩
    · exact Or.inl ⟨me, pc, by rw [hhandler]; exact hpc, hreply⟩
    · exact Or.inr ⟨r, pc, hcurrent.trans hr, by rw [htask]; exact hpc, hok⟩

/-- The current reply has come to the end of its playback, and its generation has ended. -/
theorem ended_of_current {r : Nat} (hcurrent : s.tts.current = some r) (halive : (s.tts.task r).isDone = false)
    (hllm : s.llm.active = none) : (s.ended r false).isSystemSpeaking = false := by
  have hactive : s.tts.active = some r := Tts.Consumer.active_eq_some.mpr ⟨hcurrent, halive⟩
  simp [Session.ended, Session.playbackEnded, Llm.Consumer.isGenerating, hllm, Tts.Consumer.currentUtteranceId, hactive]

theorem ended_isSystemSpeaking {r : Nat} {interrupted : Bool} (h : (s.ended r interrupted).isSystemSpeaking = true) :
    s.state.isSystemSpeaking = true := by
  exact (playbackEnded_aside _ interrupted s).isSystemSpeaking h

/-- A reply takes a step: the current one goes on, or it ends the turn. -/
theorem spoken (h : Attended s) (hcoupled : Coupled s) {r : Nat} {pc : Tts.Pc Unit} {cancelling : Bool}
    {w : Wake Tts.Item} {next : Coroutine (Tts.Pc Unit)} (hok : TurnClosable s (.reply r w) = true)
    (hhandler : t.handler = s.handler) (hr : ReplyStep r pc cancelling w next s t) : Attended t where
  noSpeakText := by
    intro me pc hpc
    rw [hhandler] at hpc
    exact h.noSpeakText me pc hpc
  attended := by
    intro hsys
    have hwaits : Waiting s → Waiting t := by
      rintro ⟨me, pc', hpc, hreply⟩
      exact ⟨me, pc', by rw [hhandler]; exact hpc, hreply⟩
    have hending := hr.ending
    have hbefore : s.state.isSystemSpeaking = true := by
      generalize ((s.tts.reply r).resume pc w).2 = pc', t.state = state at hending hsys
      cases hending with
      | awaits | cut => exact hsys
      | returned i | metricsSent i => exact ended_isSystemSpeaking hsys
    rcases h.attended hbefore with hw | ⟨r', pc', hcurrent, hpc', hsound⟩
    · exact Or.inl (hwaits hw)
    by_cases heq : r' = r
    · subst heq
      obtain ⟨rfl, rfl⟩ : pc' = pc ∧ cancelling = false := by
        rw [hr.at_pc, Coroutine.suspended.injEq] at hpc'
        exact ⟨hpc'.1.symm, hpc'.2⟩
      by_cases hraises : w = .raised ∧ pc'.raises = true
      · -- another `_reply` waits for this one to end
        obtain ⟨rfl, hraises⟩ := hraises
        refine Or.inl (hwaits (.of_replyWaits ?_))
        simp only [TurnClosable, Bool.and_eq_true, Bool.or_eq_true, Bool.not_eq_true'] at hok
        simpa [hbefore, Session.replyRaises, hcurrent, hpc', hraises] using hok.2
      have hw : w ≠ .cancelled := by
        intro hw
        have := (Tts.Consumer.cancelling_of_enabled hr.enabled).mp hw
        cases this
      have hgoes := Tts.Reply.resume_of_not_interrupted (s.tts.reply r') hsound hw (by
        rintro rfl
        exact Tts.Consumer.raised_of_enabled hr.enabled hsound (by simpa using hraises))
      have hmarker := @Tts.Reply.resume_marker Unit _ (s.tts.reply r') pc' w
      have hended : none ∈ (s.tts.reply r').queue ∨ pc'.pastText = true → (s.ended r' false).isSystemSpeaking = false := by
        intro hm
        refine ended_of_current hcurrent (by simp [hpc']) (hcoupled.marker r' hcurrent ?_)
        simpa [hpc'] using hm
      generalize ((s.tts.reply r').resume pc' w).2 = pc'', t.state = state at hending hgoes hmarker hsys
      cases hending with
      | awaits pc'' =>
          rcases hgoes with ⟨_, heq, hok'⟩ | ⟨_, -, heq⟩
          · cases heq
            exact Or.inr ⟨r', pc'', hr.current.trans hcurrent, by rw [hr.task, Function.update_self]; rfl, hok'⟩
          · cases heq
      | returned i =>
          rcases hgoes with ⟨_, heq, hok'⟩ | ⟨_, -, heq⟩
          · cases heq
            cases i with
            | true => cases hok'
            | false => simp [hended (hmarker (Or.inr ⟨_, rfl, rfl⟩))] at hsys
          · cases heq
      | metricsSent i hpc'' =>
          subst hpc''
          cases i with
          | true => cases hsound
          | false => simp [hended (Or.inr rfl)] at hsys
      | cut hcut =>
          rcases hgoes with ⟨_, heq, -⟩ | ⟨_, rfl, -⟩
          · cases heq
          · exact absurd (hcut false rfl) hw
    · refine Or.inr ⟨r', pc', hr.current.trans hcurrent, ?_, hsound⟩
      rw [hr.task, Function.update_of_ne heq, hpc']

/-- **A step that leaves the turn closable keeps it attended.** -/
theorem step (h : Attended s) (ht : Typed s) (hi : Isolated s) (hcoupled : Coupled s) {l : Label}
    (hok : TurnClosable s l = true) (hstep : step cfg s l = some t) : Coupled t ∧ Attended t := by
  have hplain : l.usesSpeakText = false := by
    simp only [TurnClosable, Bool.and_eq_true, Bool.not_eq_true'] at hok
    exact hok.1.1
  have hapart : KeptApart s l = true := by
    simp only [TurnClosable, Bool.and_eq_true] at hok
    exact hok.1.2
  cases Stepped.of_step ht hstep with
  | called hc => exact ⟨hcoupled.called h.noSpeakText hplain hc, h.called hok hc⟩
  | generation hgen =>
      obtain ⟨pc, cancelling, items, next, hg⟩ := GenerationStep.of_resume hgen
      refine ⟨hcoupled.generation hi ?_ hg, ?_⟩
      · rintro rfl
        exact startedWith_of_keptApart hapart hg.at_pc
      exact h.of_eq (resumeGeneration_aside hgen).handler hg.puts.state hg.puts.current hg.puts.task
  | reply hreply =>
      obtain ⟨pc, cancelling, next, hr⟩ := ReplyStep.of_resume hreply
      exact ⟨hcoupled.spoken hr, h.spoken hcoupled hok (resumeReply_aside hreply).handler hr⟩

end Attended

/-- No generation is going on, no reply task is alive and no call into the session is suspended. -/
def Session.quiescent (s : Session) : Bool :=
  !s.llm.isGenerating && (List.range s.tts.count).all (fun r => (s.tts.task r).isDone) &&
    s.callers.all (fun h => (s.handler h).isDone)

/-- **Every system turn is closed**: at rest the system is not speaking, in every run without `speak_text`
in which a generation that has failed ends no reply but its own, and in which the reply the system speaks
neither meets an exception nor is closed. -/
theorem systemTurnClosed_of_turnClosable (cfg : Config) {ls : List Label} {s : Session}
    (h : Run (step cfg) (fun s l => TurnClosable s l = true) (fresh cfg) ls s) (hquiescent : s.quiescent = true) :
    s.state.isSystemSpeaking = false := by
  obtain ⟨ht, -, hcoupled, hinv⟩ : Typed s ∧ Isolated s ∧ Coupled s ∧ Attended s :=
    h.invariant (I := fun s => Typed s ∧ Isolated s ∧ Coupled s ∧ Attended s)
      ⟨Typed.fresh cfg, Isolated.fresh cfg, Coupled.fresh cfg, Attended.fresh cfg⟩
      (fun ⟨ht, hi, hc, ha⟩ hl hstep => by
        have hapart := hl
        simp only [TurnClosable, Bool.and_eq_true] at hapart
        exact ⟨ht.step hstep, hi.step ht hapart.1.2 hstep, ha.step ht hi hc hl hstep⟩)
  simp only [Session.quiescent, Bool.and_eq_true, List.all_eq_true] at hquiescent
  by_contra hsys
  rcases hinv.attended (by simpa using hsys) with ⟨me, pc, hpc, -⟩ | ⟨r, pc, hr, hpc, -⟩
  · have hdone := hquiescent.2 me (ht.mem_callers hpc)
    rw [Coroutine.isDone_iff.mp hdone] at hpc
    cases hpc
  · have hdone := hquiescent.1.2 r (List.mem_range.mpr (hcoupled.below r hr))
    rw [hpc] at hdone
    cases hdone

/-! ## Two runs -/

/-- A reply that is generated, spoken and heard to its end. -/
def heardReply : List Label :=
  [.transcript .stt ⟨.FINAL, anId, "Good morning.".toList⟩, .generation 0 (.ok .none),
    .generation 0 (.ok (.token "Hello.".toList 0)), .generation 0 (.ok .none), .generation 0 (.ok .none),
    .generation 0 (.ok .none), .reply 0 (.ok .none), .reply 0 (.ok (.frame loudFrame)), .reply 0 (.ok .none),
    .reply 0 (.ok .none), .reply 0 (.ok .none), .reply 0 (.ok .none), .reply 0 (.ok .none), .reply 0 (.ok .none),
    .reply 0 (.ok .none), .reply 0 (.ok .none)]

theorem systemTurnClosed_heardReply : ∃ s,
    Run (step {}) (fun s l => TurnClosable s l = true) (fresh {}) heardReply s ∧ s.quiescent = true ∧
      s.state.isSystemSpeaking = false := by
  obtain ⟨s, hrun, hquiescent⟩ := Run.exists_of_exec (P := fun s => s.quiescent) (s := fresh {})
    (show (exec (step {}) (fun s l => TurnClosable s l = true) _ heardReply).any _ = true by decide +kernel)
  exact ⟨s, hrun, hquiescent, systemTurnClosed_of_turnClosable {} hrun hquiescent⟩

/-- The same turn; the synthesis of its reply raises an exception. -/
def failedSynthesis : List Label :=
  [.transcript .stt ⟨.FINAL, anId, "Good morning.".toList⟩, .generation 0 (.ok .none),
    .generation 0 (.ok (.token "Hello.".toList 0)), .generation 0 (.ok .none), .generation 0 (.ok .none),
    .generation 0 (.ok .none), .reply 0 (.ok .none), .reply 0 .raised, .reply 0 (.ok .none), .reply 0 (.ok .none),
    .reply 0 (.ok .none)]

/-- The reply ends as interrupted, and nothing is left that would close the turn. -/
theorem failedSynthesis_not_systemTurnClosed : ∃ s,
    Run (step {}) (fun _ l => l.usesSpeakText = false) (fresh {}) failedSynthesis s ∧ s.quiescent = true ∧
      s.state.isSystemSpeaking = true := by
  obtain ⟨s, hrun, hboth⟩ := Run.exists_of_exec
    (P := fun s => s.quiescent && s.state.isSystemSpeaking) (s := fresh {})
    (show (exec (step {}) (fun _ l => l.usesSpeakText = false) _ failedSynthesis).any _ = true by decide +kernel)
  rw [Bool.and_eq_true] at hboth
  exact ⟨s, hrun, hboth.1, hboth.2⟩

end Voxera.Voice
