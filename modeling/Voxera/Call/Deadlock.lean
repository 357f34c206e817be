import Voxera.Call.Turns

/-!
# A task and the lock that it holds

The lock is not reentrant. The one callback that is awaited under it is the transcript callback, which `stop` awaits
for the transcript that `finalize_utterance` returns; what it calls takes the lock.

* `SelfLocked` : a task waits for the lock that it holds; `Relocks` : the callback is on its way there, for good
  (`Move.relocks_stays`);
* `CallsNothing` : the transcripts for which `process_transcript_event` calls nothing of the session;
* `relocks_iff` : one of the others is the only way there.
-/

namespace Voxera

open TurnManager

/-- `process_transcript_event` calls nothing of the session for it: a `PARTIAL` one while an utterance is open, or a
blank `FINAL` one while none is. -/
def TranscriptEvent.CallsNothing (ev : TranscriptEvent) (conv : ConversationState) : Prop :=
  match ev.type with
  | .PARTIAL => conv.isSystemSpeaking = false ∧ conv.isUserSpeaking = true
  | .FINAL => conv.isUserSpeaking = false ∧ Text.strip ev.transcript = []

theorem TranscriptEvent.callsNothing_iff (ev : TranscriptEvent) (conv : ConversationState) :
    ev.CallsNothing conv ↔ (processTranscriptEvent ev conv).2 = .returned := by
  unfold TranscriptEvent.CallsNothing processTranscriptEvent handleInterruption
  cases ev.type with
  | PARTIAL =>
      cases hsystem : conv.isSystemSpeaking
      · cases huser : conv.isUserSpeaking
        · cases hstart : conv.startUserTurn ev.utteranceId <;> simp [partialTurn, huser, hstart]
        · simp [partialTurn, huser]
      · simp
  | FINAL =>
      cases huser : conv.isUserSpeaking
      · by_cases hblank : Text.strip ev.transcript = []
        · simp [hblank]
        · cases hsystem : conv.isSystemSpeaking
          · cases hstart : conv.startUserTurn ev.utteranceId <;> simp [finalTurn, hblank, hstart]
          · simp [hblank]
      · simp [turnCompleted]

namespace Call

open EventLoop

/-- The task waits for the lock that it holds. -/
def Session.SelfLocked (s : Session) : Prop :=
  ∃ me sec, s.pc me = some (.acquiring sec) ∧ s.lock.holder = some me

/-- A transcript that `finalize_utterance` returns to `stop` is one for which nothing is called. -/
def Uncalled (s : Session) (l : Label) : Prop :=
  ∀ ev, l = .wake .twilio (.ok (.transcript ev)) → ev.CallsNothing s.conversation

/-- The callback that `stop` awaits calls a section of the session. -/
def Place.relocks : Place → Bool
  | .runs (.turn next) => next ≠ .returned
  | .runs (.acquire sec) | .awaits (.acquiring sec) => !sec.ofTwilio
  | _ => false

section Moves
variable {l : Label} {c c' : Core} {π : Task → Place} {p q : Place} {sec : Section}

theorem Section.ofTwilio_of_fits (h : sec.fits .twilio = true) : sec.ofTwilio = true := by
  cases sec with
  | feed | stop => rfl
  | bargeIn k => cases k <;> cases h
  | _ => cases h

theorem Section.ofTwilio_of_first (h : sec.first .twilio = true) : sec.ofTwilio = true := by
  cases sec with
  | feed | stop => rfl
  | bargeIn k => cases k <;> cases h
  | _ => cases h

theorem Place.relocks_of_plain (h : p.plain = true) : p.relocks = false := by
  unfold Place.relocks
  split <;> first | rfl | cases h

/-- Only a transcript of `finalize_utterance` leads there. -/
theorem Move.to_relocks (h : Move l c π .twilio p c' q) (hfits : p.fits .twilio = true) (hq : q.relocks = true) :
    p.relocks = true ∨
      ∃ ev, l = .wake .twilio (.ok (.transcript ev)) ∧ ¬ev.CallsNothing c.conversation := by
  cases h with
  | hears hl =>
      refine Or.inr ⟨_, Label.brings_twilio hl, fun hcalls => ?_⟩
      rw [TranscriptEvent.callsNothing_iff] at hcalls
      simp [Place.relocks, hcalls] at hq
  | calls _ hsec => simp [Place.relocks, Section.ofTwilio_of_first hsec] at hq
  | edge h =>
      cases h with
      | plain _ hplain =>
          rw [Place.relocks_of_plain hplain] at hq
          cases hq
      | declined _ hq' => rcases hq' with rfl | rfl <;> cases hq
      | waits => exact Or.inl hq
      | interrupts | starts => exact Or.inl rfl
      | converted => cases hfits
      | _ => cases hq
  | recovered => cases hfits
  | completes | raises => exact Or.inl rfl
  | @asks _ _ b _ _ _ hb =>
      rw [Place.relocks_of_plain (p := .awaits b) hb] at hq
      cases hq
  | _ => cases hq

/-- No request to cancel reaches the handler of the stream, so it stays there. -/
theorem Move.relocks_stays (h : Move l c π .twilio p c' q) (hasked : c.asked .twilio = false) (hp : p.relocks = true) :
    q.relocks = true := by
  cases h with
  | edge h =>
      cases h with
      | plain hplain =>
          rw [Place.relocks_of_plain hplain] at hp
          cases hp
      | waits => exact hp
      | acquires hsec | admitted hsec => simp [Place.relocks, Section.ofTwilio_of_fits hsec] at hp
      | interrupts | starts => rfl
      | _ => cases hp
  | @calls _ _ sec hp' =>
      cases sec <;> subst hp' <;> cases hp
  | completes | raises => rfl
  | hears _ ha => rcases ha with ⟨h, -⟩ | ⟨-, rfl⟩ <;> first | cases h | cases hp
  | loopOver ha => rcases ha with rfl | rfl <;> cases hp
  | unwinds h =>
      rw [hasked] at h
      cases h
  | marksEnd hplain =>
      rw [Place.relocks_of_plain hplain] at hp
      cases hp
  | @asks _ a _ _ _ ha =>
      rw [Place.relocks_of_plain (p := .awaits a) ha] at hp
      cases hp
  | _ => cases hp

end Moves

section Steps
variable {cfg : Config} {l : Label} {s t : Session} {ls : List Label}

/-- What a step does to the handler of the stream. -/
theorem twilio_of_step (hplaced : Placed s) (hstep : step cfg s l = some t) :
    t.place .twilio = s.place .twilio ∨
      Move l s.core s.place .twilio (s.place .twilio) t.core (t.place .twilio) := by
  cases Move.of_step hplaced hstep with
  | nothing _ h => exact Or.inl (by rw [h])
  | frame _ _ _ hplace => exact Or.inl (by rw [hplace])
  | move me _ _ h =>
      obtain ⟨q, hmove, hq, hothers⟩ := h
      by_cases hme : me = .twilio
      · subst hme
        rw [hq]
        exact Or.inr hmove
      · rcases hothers .twilio (Ne.symm hme) with heq | ⟨hspawned, -⟩
        · exact Or.inl heq
        · cases hspawned

theorem not_asked_of_run {ok : Session → Label → Prop} (hrun : Run (step cfg) ok .started ls s) :
    s.core.asked .twilio = false :=
  invariant_of_moves hrun (I := fun c _ => c.asked .twilio = false) rfl (fun _ h _ hmove => hmove.not_asked h)
    (fun h _ => h)

/-- An allowed step does not lead there. -/
theorem relocks_of_step (hplaced : Placed s) (hs : (s.place .twilio).relocks = false) (hl : Uncalled s l)
    (hstep : step cfg s l = some t) : (t.place .twilio).relocks = false := by
  rcases twilio_of_step hplaced hstep with heq | hmove
  · rw [heq]
    exact hs
  · by_contra hq
    rcases hmove.to_relocks (hplaced.orderly.fits .twilio) (by simpa using hq) with hp | ⟨ev, heq, hcalls⟩
    · rw [hs] at hp
      cases hp
    · exact hcalls (hl ev heq)

/-- A step that is not allowed does. -/
theorem relocks_of_not_uncalled (hstep : step cfg s l = some t) (hl : ¬Uncalled s l) :
    (t.place .twilio).relocks = true := by
  simp only [Uncalled, not_forall] at hl
  obtain ⟨ev, rfl, hcalls⟩ := hl
  have hrunning : t.running = some (.twilio, .turn (TurnManager.processTranscriptEvent ev s.conversation).2) := by
    rw [step_transcript (Or.inl rfl) hstep]
    rfl
  rw [place_of_running hrunning]
  rw [TranscriptEvent.callsNothing_iff] at hcalls
  simpa [Place.relocks] using hcalls

theorem relocks_stays (hplaced : Placed s) (hasked : s.core.asked .twilio = false) (hstep : step cfg s l = some t)
    (hs : (s.place .twilio).relocks = true) : (t.place .twilio).relocks = true := by
  rcases twilio_of_step hplaced hstep with heq | hmove
  · rw [heq]
    exact hs
  · exact hmove.relocks_stays hasked hs

/-- The runs whose steps are all allowed are those that do not lead there. -/
theorem relocks_iff (hrun : Run (step cfg) (fun _ _ => True) .started ls s) :
    Run (step cfg) Uncalled .started ls s ↔ (s.place .twilio).relocks = false := by
  constructor
  · intro h
    have hboth : Placed s ∧ (s.place .twilio).relocks = false :=
      h.invariant (I := fun s => Placed s ∧ (s.place .twilio).relocks = false) ⟨placed_started, rfl⟩
        (fun hs hl hstep => ⟨hs.1.of_step hstep, relocks_of_step hs.1 hs.2 hl hstep⟩)
    exact hboth.2
  · intro hs
    induction hrun with
    | nil => exact .nil
    | @snoc ls t u l hrun _ hstep ih =>
        have hplaced := Placed.of_run hrun
        refine .snoc (ih ?_) ?_ hstep
        · by_contra ht
          have hu := relocks_stays hplaced (not_asked_of_run hrun) hstep (by simpa using ht)
          rw [hs] at hu
          cases hu
        · by_contra hl
          have hu := relocks_of_not_uncalled hstep hl
          rw [hs] at hu
          cases hu

/-- A task that waits for the lock it holds is the handler of the stream, in the callback that `stop` awaits. -/
theorem relocks_of_selfLocked (hplaced : Placed s) (h : s.SelfLocked) : (s.place .twilio).relocks = true := by
  obtain ⟨me, sec, hpc, hholder⟩ := h
  have hothers {o : Option Task} (ho : Others o s) : (Await.acquiring sec).holds me = true := by
    have hne : o ≠ some me := by
      intro heq
      rw [ho.idle heq] at hpc
      cases hpc
    obtain ⟨a, ha, hholds⟩ := (ho.held hne).mp hholder
    rw [hpc] at ha
    cases ha
    exact hholds
  have hrest : s.rest me = .awaits (.acquiring sec) := by simp [Session.rest, hpc]
  have hplace : s.place me = .awaits (.acquiring sec) ∧ (Await.acquiring sec).holds me = true := by
    unfold Placed at hplaced
    unfold Session.place
    rcases hrunning : s.running with _ | ⟨u, x⟩
    · simp only [hrunning] at hplaced ⊢
      exact ⟨hrest, hothers hplaced⟩
    · simp only [hrunning] at hplaced ⊢
      have hne : me ≠ u := by
        rintro rfl
        rw [hplaced.1.idle rfl] at hpc
        cases hpc
      exact ⟨by rw [if_neg hne, hrest], hothers hplaced.1.toOthers⟩
  obtain ⟨hplace, hholds⟩ := hplace
  cases me with
  | twilio =>
      rw [hplace]
      exact hholds
  | _ => cases hholds

/-- At the lock that it holds, the callback waits. -/
theorem selfLocked_of_acquire (cfg : Config) {sec : Section} (hplaced : Placed s)
    (hrunning : s.running = some (.twilio, .acquire sec)) (hsec : sec.ofTwilio = false) : ∃ t, step cfg s .run = some t ∧ t.SelfLocked := by
  have hholder : s.lock.holder = some .twilio := by
    refine hplaced.holder ?_
    rw [place_of_running hrunning]
    simpa [Place.holds, Point.holds] using hsec
  have hfree : ¬s.lock.free s.cancelling = true := by
    intro hfree
    rw [Lock.holder_of_free hfree] at hholder
    cases hholder
  refine ⟨_, step_run hrunning, .twilio, sec, ?_, ?_⟩
  · simp [Session.advance, Session.acquire, if_neg hfree]
  · simpa [Session.advance, Session.acquire, if_neg hfree] using hholder

/-- Every callback of `process_transcript_event` calls a section, and so does what follows an exception. -/
theorem acquires_of_turn (cfg : Config) {next : TurnManager.Next} (hrunning : s.running = some (.twilio, .turn next))
    (hnext : next ≠ .returned) : ∃ t sec, step cfg s .run = some t ∧ t.running = some (.twilio, .acquire sec) ∧
      sec.ofTwilio = false := by
  cases next with
  | onUserInterrupted k => exact ⟨_, .bargeIn (some k), step_run hrunning, rfl, rfl⟩
  | onUserTurnStarted _ k => exact ⟨_, .turnStarted k, step_run hrunning, rfl, rfl⟩
  | onUserTurnCompleted turn _ => exact ⟨_, .turnCompleted turn s.turns, step_run hrunning, rfl, rfl⟩
  | returned => exact absurd rfl hnext
  | raised => exact ⟨_, .recovery s.failures, step_run hrunning, rfl, rfl⟩

/-- Where it leads to: the task goes on until it waits for the lock. -/
theorem selfLocked_of_relocks (cfg : Config) (hplaced : Placed s) (hs : (s.place .twilio).relocks = true) :
    ∃ n t, Run (step cfg) (fun _ _ => True) s (List.replicate n .run) t ∧ t.SelfLocked := by
  cases hplace : s.place .twilio with
  | away =>
      rw [hplace] at hs
      cases hs
  | awaits a =>
      cases a with
      | acquiring sec =>
          have hholder := hplaced.holder (u := .twilio) (by rw [hplace] at hs ⊢; exact hs)
          refine ⟨0, s, .nil, .twilio, sec, Place.awaits_of_pc ?_, hholder⟩
          rw [← hplace]
          unfold Session.place
          split
          · next u x hrunning =>
              rw [if_neg]
              rintro rfl
              rw [place_of_running hrunning] at hplace
              cases hplace
          · rfl
      | _ =>
          rw [hplace] at hs
          cases hs
  | runs x =>
      have hrunning := running_of_place hplace
      rw [hplace] at hs
      cases x with
      | acquire sec =>
          obtain ⟨t, ht, hlocked⟩ := selfLocked_of_acquire cfg hplaced hrunning (by simpa [Place.relocks] using hs)
          exact ⟨1, t, .cons trivial ht .nil, hlocked⟩
      | turn next =>
          obtain ⟨t, sec, ht, hacquire, hsec⟩ :=
            acquires_of_turn cfg hrunning (by simpa [Place.relocks] using hs)
          obtain ⟨u, hu, hlocked⟩ := selfLocked_of_acquire cfg (hplaced.of_step ht) hacquire hsec
          exact ⟨2, u, .cons trivial ht (.cons trivial hu .nil), hlocked⟩
      | _ => cases hs

/-! ## The discipline -/

/-- **No task waits for the lock that it holds**, now or after further steps of the task that runs, exactly when every
step so far was allowed. -/
theorem lock_discipline_iff (hrun : Run (step cfg) (fun _ _ => True) .started ls s) :
    Run (step cfg) Uncalled .started ls s ↔
      ∀ n t, Run (step cfg) (fun _ _ => True) s (List.replicate n .run) t → ¬t.SelfLocked := by
  rw [relocks_iff hrun]
  have hplaced := Placed.of_run hrun
  constructor
  · intro hs n t hrest hlocked
    have hruns := hrest.labels (P := (· = .run)) (fun l hl => List.eq_of_mem_replicate hl)
    have hboth : Placed t ∧ (t.place .twilio).relocks = false := by
      refine hruns.invariant (I := fun s => Placed s ∧ (s.place .twilio).relocks = false) ⟨hplaced, hs⟩ ?_
      rintro t u l ⟨ht, hrelocks⟩ ⟨-, rfl⟩ hstep
      exact ⟨ht.of_step hstep, relocks_of_step ht hrelocks (fun _ h => by cases h) hstep⟩
    have hrelocks := relocks_of_selfLocked hboth.1 hlocked
    rw [hboth.2] at hrelocks
    cases hrelocks
  · intro h
    by_contra hs
    obtain ⟨n, t, hrest, hlocked⟩ := selfLocked_of_relocks cfg hplaced (by simpa using hs)
    exact h n t hrest hlocked

end Steps

/-- An utterance is open, and `stop` is called: it comes to `finalize_utterance`. -/
def hangUpLabels : List Label :=
  [.wake .stt (.ok .none), .feedMulaw (List.replicate 160 0xFF), .run, .run, .processFrame, .wake .stt (.ok .none),
    .wake .stt (.ok (.transcript ⟨.PARTIAL, hello.utteranceId, "hel".toList⟩))] ++ List.replicate 5 .run ++
  [.stop] ++ List.replicate 4 .run

/-- When `finalize_utterance` returns `None`, `stop` goes on, and nothing waits for itself. -/
theorem lock_discipline_iff_hangUp : ∃ ls s, Run (step plainConfig) (fun _ _ => True) .started ls s ∧
    s.pc .twilio = some .loopEnding ∧
      ∀ n t, Run (step plainConfig) (fun _ _ => True) s (List.replicate n .run) t → ¬t.SelfLocked := by
  have hexec : (exec (step plainConfig) (fun _ _ => True) .started (hangUpLabels ++ [.wake .twilio (.ok .none)])).any
      (fun s => s.pc .twilio = some .loopEnding) = true := by
    decide +kernel
  obtain ⟨s, hrun, hs⟩ := Run.exists_of_exec hexec
  have hruns := hrun.labels (P := fun l => ∀ ev, l ≠ .wake .twilio (.ok (.transcript ev))) (by
    simp [hangUpLabels])
  have huncalled : Run (step plainConfig) Uncalled .started _ s :=
    hruns.mono (fun _ l hl ev heq => absurd heq (hl.2 ev))
  exact ⟨_, s, hrun, of_decide_eq_true hs, (lock_discipline_iff hrun).mp huncalled⟩

/-- When it returns the final transcript, `stop` waits for the lock that it holds. -/
theorem stop_waits_for_itself : ∃ ls s, Run (step plainConfig) (fun _ _ => True) .started ls s ∧ s.SelfLocked ∧
    s.state = .ENDED ∧ s.pc .twilio = some (.acquiring (.turnCompleted hello 0)) := by
  have hexec : (exec (step plainConfig) (fun _ _ => True) .started (hangUpLabels ++
      [.wake .twilio (.ok (.transcript ⟨.FINAL, hello.utteranceId, hello.transcript⟩)), .run, .run])).any (fun s =>
      s.lock.holder = some .twilio ∧ s.state = .ENDED ∧ s.pc .twilio = some (.acquiring (.turnCompleted hello 0))) =
      true := by
    decide +kernel
  obtain ⟨s, hrun, hs⟩ := Run.exists_of_exec hexec
  obtain ⟨hholder, hstate, hpc⟩ := of_decide_eq_true hs
  exact ⟨_, s, hrun, ⟨.twilio, _, hpc, hholder⟩, hstate, hpc⟩

end Call

end Voxera
