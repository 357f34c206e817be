import Voxera.Call.Session

/-!
# Where the tasks of a call are

The lock is held by the task that is at a place in a section, and by no other; a task is only at
places of the functions that it runs; a generation or a reply is in the session's code exactly while
its own coroutine is in a callback.

* `Point.holds`, `Await.holds` : the places at which a task holds the lock;
* `Point.fits`, `Await.fits` : the places that a task can be at;
* `Acting me s` : what holds of the other tasks while `me` runs, wherever it is;
* `Placed s` : the invariant, kept by every step (`Placed.of_step`).
-/

namespace Voxera.Call

open EventLoop

/-- The Twilio handler calls it itself; its other sections are those of the callback that `stop` awaits. -/
def Section.ofTwilio : Section → Bool
  | .feed _ | .stop => true
  | _ => false

/-- The call of `tts.stop` is made under the lock. -/
def StopFor.locked : StopFor → Bool
  | .begin _ _ => false
  | _ => true

/-- The place is in a section. The callback that `stop` awaits runs while `stop` holds the lock. -/
def Point.holds : Task → Point → Bool
  | _, .enter _ => true
  | _, .ttsStop k | _, .stopped k => k.locked
  | .twilio, .acquire sec => !sec.ofTwilio
  | .twilio, .turn _ | .twilio, .leave => true
  | _, _ => false

@[inherit_doc Point.holds]
def Await.holds : Task → Await → Bool
  | _, .gathering _ _ k | _, .clearing k => k.locked
  | .twilio, .acquiring sec => !sec.ofTwilio
  | _, .finalizing | _, .putting | _, .loopEnding | _, .loopCancelled => true
  | _, .consumerClosing | _, .engineClosing => true
  | _, _ => false

/-- The task runs `_handle_pipeline_error`. -/
def Task.recovers : Task → Bool
  | .stt | .sttError _ | .watchdog _ | .generation _ | .reply _ => true
  | _ => false

/-- The task enters the section. -/
def Section.fits : Section → Task → Bool
  | .turnStarted _, .stt | .turnCompleted _ _, .stt | .systemTurn _ _ _, .stt | .bargeIn (some _), .stt => true
  | .bargeIn none, .vad _ => true
  | .recovery _, me | .fallback _, me => me.recovers
  | .segment _, .generation _ => true
  | .playbackEnd, .reply _ | .frameCheck _, .reply _ | .frameSend, .reply _ => true
  | .feed _, .twilio | .stop, .twilio => true
  | .silenceCheck _ _, .silence | .silencePrompt, .silence => true
  | _, _ => false

/-- The section is one of the transcript callback. -/
def Section.ofCallback : Section → Bool
  | .turnStarted _ | .turnCompleted _ _ | .systemTurn _ _ _ | .bargeIn (some _) | .recovery _ => true
  | _ => false

/-- The task calls for the section. -/
def Section.called (sec : Section) (me : Task) : Bool := sec.fits me || (me = .twilio && sec.ofCallback)

def Opening.fits : Opening → Task → Bool
  | .answer _ _ _, .stt => true
  | .fallback _, me => me.recovers
  | .silencePrompt, .silence => true
  | _, _ => false

def StopFor.fits : StopFor → Task → Bool
  | .systemTurn _ _ _, .stt | .bargeIn (some _), .stt => true
  | .bargeIn none, .vad _ => true
  | .recovery _, me | .fallback _, me => me.recovers
  | .silencePrompt, .silence => true
  | .stop, .twilio => true
  | .begin _ opening, me => opening.fits me
  | _, _ => false

def Point.fits : Point → Task → Bool
  | .acquire sec, me => sec.called me
  | .enter sec, me => sec.fits me
  | .ttsStop k, me | .stopped k, me => k.fits me
  | .turn _, .stt | .turn _, .twilio => true
  | .turn _, _ => false
  | .leave, _ => true

def Await.fits : Await → Task → Bool
  | .created, .stt | .created, .silence | .created, .vad _ | .created, .sttError _ | .created, .watchdog _ => true
  | .acquiring sec, me => sec.called me
  | .gathering _ _ k, me | .clearing k, me => k.fits me
  | .queueGet, .stt | .engine, .stt => true
  | .finalizing, .twilio | .putting, .twilio | .loopEnding, .twilio | .loopCancelled, .twilio => true
  | .consumerClosing, .twilio | .engineClosing, .twilio => true
  | .silenceEnding, .twilio | .silenceCancelled, .twilio => true
  | .sleeping, .silence | .hangup, .silence => true
  | .watching, .watchdog _ | .expiring, .watchdog _ => true
  | .sendMedia, .reply _ => true
  | _, _ => false

namespace Session

/-- The coroutine of a generation or of a reply is in a callback of the session. -/
def inCall (s : Session) : Task → Bool
  | .generation g => (s.llm.task g).pc?.any Llm.Pc.inCallback
  | .reply r => (s.tts.task r).pc?.any Tts.Pc.inCallback
  | _ => true

/-- The task has been created. -/
def made (s : Session) : Task → Bool
  | .vad n => n < s.vads
  | .sttError n => n < s.errors
  | .watchdog g => g < s.llm.count
  | _ => true

end Session

/-- What holds of every task but `me`, the one that runs. -/
structure Others (me : Option Task) (s : Session) : Prop where
  idle : ∀ {u}, me = some u → s.pc u = none
  fits : ∀ {u a}, s.pc u = some a → a.fits u = true
  held : ∀ {u}, me ≠ some u → (s.lock.holder = some u ↔ ∃ a, s.pc u = some a ∧ a.holds u = true)
  generation : ∀ {g}, me ≠ some (.generation g) → s.inCall (.generation g) = (s.pc (.generation g)).isSome
  reply : ∀ {r}, me ≠ some (.reply r) → s.inCall (.reply r) = (s.pc (.reply r)).isSome
  made : ∀ {u a}, s.pc u = some a → s.made u = true
  generations : ∀ {g}, s.llm.count ≤ g → s.llm.task g = .done
  replies : ∀ {r}, s.tts.count ≤ r → s.tts.task r = .done

/-- `me` runs in the session's code, and holds the lock when `locked`. -/
structure Acts (me : Task) (locked : Bool) (s : Session) : Prop extends Others (some me) s where
  mine : s.lock.holder = some me ↔ locked = true
  inCall : s.inCall me = true
  madeMe : s.made me = true

/-- The invariant. -/
def Placed (s : Session) : Prop :=
  match s.running with
  | some (me, p) => Acts me (p.holds me) s ∧ p.fits me = true
  | none => Others none s

/-! ## What the pieces of the code do with it -/

section Updates

variable {me : Task} {o : Option Task} {locked : Bool} {s t : Session}

theorem inCall_congr (hllm : ∀ g, (t.llm.task g).pc? = (s.llm.task g).pc?)
    (htts : ∀ r, (t.tts.task r).pc? = (s.tts.task r).pc?) (u : Task) : t.inCall u = s.inCall u := by
  cases u <;> simp [Session.inCall, hllm, htts]

theorem made_mono (hvads : s.vads ≤ t.vads) (herrors : s.errors ≤ t.errors)
    (hllm : s.llm.count ≤ t.llm.count) {u : Task} (h : s.made u = true) : t.made u = true := by
  cases u <;> simp only [Session.made, decide_eq_true_eq] at h ⊢ <;> omega

@[simp] theorem wake_pc : (s.wake me).pc = Function.update s.pc me none := by cases me <;> rfl
@[simp] theorem wake_lock : (s.wake me).lock = s.lock := by cases me <;> rfl
@[simp] theorem wake_llm_count : (s.wake me).llm.count = s.llm.count := by cases me <;> rfl
@[simp] theorem wake_tts_count : (s.wake me).tts.count = s.tts.count := by cases me <;> rfl

theorem wake_llm_task (g : Nat) : ((s.wake me).llm.task g).pc? = (s.llm.task g).pc? := by
  cases me with
  | generation g' =>
      by_cases hg : g = g'
      · subst hg
        simp [Session.wake]
      · simp [Session.wake, Function.update_of_ne hg]
  | _ => rfl

theorem wake_tts_task (r : Nat) : ((s.wake me).tts.task r).pc? = (s.tts.task r).pc? := by
  cases me with
  | reply r' =>
      by_cases hr : r = r'
      · subst hr
        simp [Session.wake]
      · simp [Session.wake, Function.update_of_ne hr]
  | _ => rfl

theorem inCall_wake (u : Task) : (s.wake me).inCall u = s.inCall u :=
  inCall_congr wake_llm_task wake_tts_task u

theorem made_wake (u : Task) : (s.wake me).made u = s.made u := by cases u <;> cases me <;> rfl

/-- An update that leaves the tasks and the lock where they are. -/
theorem Others.congr (h : Others o s) (hpc : t.pc = s.pc) (hholder : t.lock.holder = s.lock.holder)
    (hvads : t.vads = s.vads) (herrors : t.errors = s.errors) (hgenerations : t.llm.count = s.llm.count)
    (hreplies : t.tts.count = s.tts.count) (hllm : ∀ g, (t.llm.task g).pc? = (s.llm.task g).pc?)
    (htts : ∀ r, (t.tts.task r).pc? = (s.tts.task r).pc?) : Others o t where
  idle := by rw [hpc]; exact h.idle
  fits := by rw [hpc]; exact h.fits
  held := by rw [hpc, hholder]; exact h.held
  generation hu := by rw [inCall_congr hllm htts, hpc]; exact h.generation hu
  reply hu := by rw [inCall_congr hllm htts, hpc]; exact h.reply hu
  made hu := made_mono hvads.ge herrors.ge hgenerations.ge (h.made (hpc ▸ hu))
  generations {g} hg := by
    rw [← Coroutine.pc?_eq_none_iff, hllm, Coroutine.pc?_eq_none_iff]
    exact h.generations (hgenerations ▸ hg)
  replies {r} hr := by
    rw [← Coroutine.pc?_eq_none_iff, htts, Coroutine.pc?_eq_none_iff]
    exact h.replies (hreplies ▸ hr)

theorem Acts.congr (h : Acts me locked s) (hpc : t.pc = s.pc) (hholder : t.lock.holder = s.lock.holder)
    (hvads : t.vads = s.vads) (herrors : t.errors = s.errors) (hgenerations : t.llm.count = s.llm.count)
    (hreplies : t.tts.count = s.tts.count) (hllm : ∀ g, (t.llm.task g).pc? = (s.llm.task g).pc?)
    (htts : ∀ r, (t.tts.task r).pc? = (s.tts.task r).pc?) : Acts me locked t where
  toOthers := h.toOthers.congr hpc hholder hvads herrors hgenerations hreplies hllm htts
  mine := by rw [hholder]; exact h.mine
  inCall := by rw [inCall_congr hllm htts]; exact h.inCall
  madeMe := made_mono hvads.ge herrors.ge hgenerations.ge h.madeMe

/-- Updates of fields that say nothing about places. -/
theorem Acts.same (h : Acts me locked s) (hpc : t.pc = s.pc) (hlock : t.lock = s.lock) (hvads : t.vads = s.vads)
    (herrors : t.errors = s.errors) (hllm : t.llm = s.llm) (htts : t.tts = s.tts) : Acts me locked t :=
  h.congr hpc (by rw [hlock]) hvads herrors (by rw [hllm]) (by rw [htts]) (by simp [hllm]) (by simp [htts])

theorem Acts.goto (h : Acts me locked s) {p : Point} (hfits : p.fits me = true)
    (hholds : p.holds me = locked) : Placed (s.goto me p) := by
  refine ⟨?_, hfits⟩
  rw [hholds]
  exact h.same rfl rfl rfl rfl rfl rfl

theorem Acts.suspend (h : Acts me locked s) {a : Await} (hfits : a.fits me = true)
    (hholds : a.holds me = locked) : Placed (s.suspend me a) where
  idle hu := by cases hu
  fits {u b} hb := by
    by_cases hu : u = me
    · subst hu
      rw [Session.suspend_pc, Function.update_self, Option.some.injEq] at hb
      exact hb ▸ hfits
    · rw [Session.suspend_pc, Function.update_of_ne hu] at hb
      exact h.fits hb
  held {u} _ := by
    rw [Session.suspend_pc]
    by_cases hu : u = me
    · subst hu
      simpa [hholds] using h.mine
    · rw [Function.update_of_ne hu]
      exact h.held (fun heq => hu (Option.some.inj heq).symm)
  generation {g} _ := by
    rw [Session.suspend_pc]
    by_cases hu : .generation g = me
    · subst hu
      rw [Function.update_self]
      exact h.inCall
    · rw [Function.update_of_ne hu]
      exact h.generation (fun heq => hu (Option.some.inj heq).symm)
  reply {r} _ := by
    rw [Session.suspend_pc]
    by_cases hu : .reply r = me
    · subst hu
      rw [Function.update_self]
      exact h.inCall
    · rw [Function.update_of_ne hu]
      exact h.reply (fun heq => hu (Option.some.inj heq).symm)
  made {u b} hb := by
    by_cases hu : u = me
    · exact hu ▸ h.madeMe
    · rw [Session.suspend_pc, Function.update_of_ne hu] at hb
      exact h.made hb
  generations := h.generations
  replies := h.replies

/-- The task ends, or goes on in its own code. -/
theorem Others.finish (h : Others (some me) s) (hmine : s.lock.holder ≠ some me)
    (hcall : ∀ {x}, me = .generation x ∨ me = .reply x → s.inCall me = false) : Placed s.finish where
  idle hu := by cases hu
  fits := h.fits
  held {u} _ := by
    by_cases hu : u = me
    · subst hu
      simp [hmine, h.idle rfl]
    · exact h.held (fun heq => hu (Option.some.inj heq).symm)
  generation {g} _ := by
    by_cases hu : .generation g = me
    · subst hu
      show s.inCall (.generation g) = (s.pc (.generation g)).isSome
      rw [h.idle rfl]
      exact hcall (Or.inl rfl)
    · exact h.generation (fun heq => hu (Option.some.inj heq).symm)
  reply {r} _ := by
    by_cases hu : .reply r = me
    · subst hu
      show s.inCall (.reply r) = (s.pc (.reply r)).isSome
      rw [h.idle rfl]
      exact hcall (Or.inr rfl)
    · exact h.reply (fun heq => hu (Option.some.inj heq).symm)
  made := h.made
  generations := h.generations
  replies := h.replies

theorem Acts.finish (h : Acts me false s) (hme : ∀ x, me ≠ .generation x ∧ me ≠ .reply x) : Placed s.finish := by
  refine h.toOthers.finish (fun heq => ?_) (fun {x} heq => ?_)
  · cases h.mine.mp heq
  · rcases heq with heq | heq
    · exact absurd heq (hme x).1
    · exact absurd heq (hme x).2

/-- The lock goes from `me` to nobody. -/
theorem Acts.release (h : Acts me true s) : Acts me false s.release where
  idle := h.idle
  fits := h.fits
  held {u} hu := by
    have hbefore := h.held hu
    rw [h.mine.mpr rfl] at hbefore
    have hnone : ¬ ∃ a, s.pc u = some a ∧ a.holds u = true := fun ha => hu (hbefore.mpr ha)
    simpa using hnone
  generation := h.generation
  reply := h.reply
  made := h.made
  generations := h.generations
  replies := h.replies
  mine := by simp
  inCall := h.inCall
  madeMe := h.madeMe

/-- The lock goes from nobody to `me`. -/
theorem Acts.take (h : Acts me false s) (hfree : s.lock.holder = none) :
    Acts me true { s with lock := s.lock.hold me } where
  idle := h.idle
  fits := h.fits
  held {u} hu := by
    have hbefore := h.held hu
    rw [hfree] at hbefore
    have hnone : ¬ ∃ a, s.pc u = some a ∧ a.holds u = true := fun ha => by simpa using hbefore.mpr ha
    have hne : me ≠ u := fun heq => hu (congrArg some heq)
    simpa [hne] using hnone
  generation := h.generation
  reply := h.reply
  made := h.made
  generations := h.generations
  replies := h.replies
  mine := by simp
  inCall := h.inCall
  madeMe := h.madeMe

/-- A suspended task runs. -/
theorem Others.wake (h : Others none s) {a : Await} (ha : s.pc me = some a) :
    Acts me (a.holds me) (s.wake me) where
  idle hu := by
    cases hu
    simp
  fits {u b} hb := by
    by_cases hu : u = me
    · subst hu
      simp at hb
    · rw [wake_pc, Function.update_of_ne hu] at hb
      exact h.fits hb
  held {u} hu := by
    have hne : u ≠ me := fun heq => hu (congrArg some heq.symm)
    rw [wake_pc, Function.update_of_ne hne, wake_lock]
    exact h.held (by simp)
  generation {g} hg := by
    have hne : .generation g ≠ me := fun heq => hg (congrArg some heq.symm)
    rw [wake_pc, Function.update_of_ne hne, inCall_wake]
    exact h.generation (by simp)
  reply {r} hr := by
    have hne : .reply r ≠ me := fun heq => hr (congrArg some heq.symm)
    rw [wake_pc, Function.update_of_ne hne, inCall_wake]
    exact h.reply (by simp)
  made {u b} hb := by
    by_cases hu : u = me
    · subst hu
      simp at hb
    · rw [wake_pc, Function.update_of_ne hu] at hb
      rw [made_wake]
      exact h.made hb
  generations {g} hg := by
    rw [← Coroutine.pc?_eq_none_iff, wake_llm_task, Coroutine.pc?_eq_none_iff]
    exact h.generations (by simpa using hg)
  replies {r} hr := by
    rw [← Coroutine.pc?_eq_none_iff, wake_tts_task, Coroutine.pc?_eq_none_iff]
    exact h.replies (by simpa using hr)
  mine := by
    rw [wake_lock, h.held (by simp)]
    simp [ha]
  inCall := by
    rw [inCall_wake]
    cases me with
    | generation g =>
        have hcall := h.generation (g := g) (by simp)
        rw [ha] at hcall
        exact hcall
    | reply r =>
        have hcall := h.reply (r := r) (by simp)
        rw [ha] at hcall
        exact hcall
    | _ => rfl
  madeMe := by
    rw [made_wake]
    exact h.made ha

theorem cancelAwaited_pc? (u : Task) (r : Nat) : ((s.cancelAwaited u).task r).pc? = (s.tts.task r).pc? := by
  unfold Session.cancelAwaited
  split
  · rename_i r' _ _ _
    by_cases hr : r = r'
    · subst hr
      simp [Tts.Consumer.cancel]
    · simp [Tts.Consumer.cancel, Function.update_of_ne hr]
  · rfl

@[simp] theorem cancelAwaited_count (u : Task) : (s.cancelAwaited u).count = s.tts.count := by
  unfold Session.cancelAwaited
  split <;> rfl

theorem cancelGeneration_tts_pc? (r : Nat) : (s.cancelGeneration.tts.task r).pc? = (s.tts.task r).pc? := by
  rw [Session.cancelGeneration_tts]
  cases s.llm.active with
  | none => rfl
  | some g => exact cancelAwaited_pc? _ r

theorem cancelGeneration_llm_pc? (g : Nat) : (s.cancelGeneration.llm.task g).pc? = (s.llm.task g).pc? := by
  rw [Session.cancelGeneration_llm, Llm.Consumer.cancel_task]
  split
  · simp
  · rfl

@[simp] theorem cancelGeneration_tts_count : s.cancelGeneration.tts.count = s.tts.count := by
  rw [Session.cancelGeneration_tts]
  cases s.llm.active with
  | none => rfl
  | some g => exact cancelAwaited_count _

theorem Acts.cancelGeneration (h : Acts me locked s) : Acts me locked s.cancelGeneration :=
  h.congr rfl rfl rfl rfl (by simp) cancelGeneration_tts_count cancelGeneration_llm_pc? cancelGeneration_tts_pc?

theorem Acts.askCancel (h : Acts me locked s) (u : Task) : Acts me locked (s.askCancel u) :=
  h.congr rfl rfl rfl rfl rfl (cancelAwaited_count u) (fun _ => rfl) (cancelAwaited_pc? u)

theorem Acts.failure (h : Acts me locked s) (hfits : (Section.recovery s.failures).called me = true)
    (hholds : (Point.acquire (.recovery s.failures)).holds me = locked) : Placed (s.failure me) := by
  have h' : Acts me locked ({ s with failures := s.failures + 1 }.emit (.failure s.failures)) :=
    h.same rfl rfl rfl rfl rfl rfl
  exact h'.goto hfits hholds

theorem Acts.turn (h : Acts me locked s) (next : ConversationState × TurnManager.Next)
    (hfits : (Point.turn next.2).fits me = true) (hholds : (Point.turn next.2).holds me = locked) :
    Placed (s.turn me next) := by
  have h' : Acts me locked { s with conversation := next.1 } := h.same rfl rfl rfl rfl rfl rfl
  exact h'.goto hfits hholds

end Updates

/-! ## The pieces -/

section Pieces

variable {cfg : Config} {me : Task} {s : Session}

theorem placed_acquire {sec : Section} (h : Acts me ((Point.acquire sec).holds me) s)
    (hfits : sec.called me = true) : Placed (s.acquire me sec) := by
  unfold Session.acquire
  split
  · rename_i hfree
    have hnone := Lock.holder_of_free hfree
    have hnot : (Point.acquire sec).holds me = false := by
      by_contra hcon
      have hheld := h.mine.mpr (by simpa using hcon)
      simp [hnone] at hheld
    rw [hnot] at h
    refine (h.take hnone).goto ?_ rfl
    -- the callback that `stop` awaits finds the lock taken
    unfold Section.called at hfits
    rw [Bool.or_eq_true] at hfits
    rcases hfits with hfits | hfits
    · exact hfits
    · exfalso
      simp only [Bool.and_eq_true, decide_eq_true_eq] at hfits
      obtain ⟨rfl, hsec⟩ := hfits
      cases sec <;> simp [Section.ofCallback, Point.holds, Section.ofTwilio] at hsec hnot
  · have hwait : Acts me ((Point.acquire sec).holds me) { s with lock := s.lock.wait me } :=
      h.congr rfl rfl rfl rfl rfl rfl (fun _ => rfl) (fun _ => rfl)
    refine hwait.suspend hfits ?_
    cases me <;> rfl

/-- The Twilio handler enters only its own sections. -/
theorem Section.ne_twilio {sec : Section} (hfits : sec.fits me = true) (hsec : sec.ofTwilio = false) :
    me ≠ .twilio := by
  rintro rfl
  cases sec <;> simp [Section.fits, Section.ofTwilio, Task.recovers] at hfits hsec

theorem leave_holds (hme : me ≠ .twilio) : Point.leave.holds me = false := by
  cases me <;> first | rfl | exact absurd rfl hme

theorem Acts.leave (h : Acts me false s) (hme : me ≠ .twilio) : Placed (s.goto me .leave) :=
  h.goto rfl (leave_holds hme)

theorem Acts.begins (h : Acts me false s) {opening : Opening} (hfits : opening.fits me = true) :
    Placed (s.begins me opening) := by
  have h' : Acts me false ({ s with begun := s.begun + 1 }.emit (.begin s.begun)) :=
    h.same rfl rfl rfl rfl rfl rfl
  exact h'.goto hfits rfl

theorem placed_turnStarted (h : Acts .stt true s) (k : TurnManager.After) : Placed (s.turnStarted .stt k) := by
  unfold Session.turnStarted
  refine Acts.turn (Acts.release ?_) _ rfl rfl
  split
  · exact h
  · have hc := h.cancelGeneration
    dsimp only
    split
    · exact hc.same rfl rfl rfl rfl rfl rfl
    · exact hc

theorem placed_turnCompleted (h : Acts .stt true s) (turn : UserTurnCompleted) (k : Nat) :
    Placed (s.turnCompleted cfg .stt turn k) := by
  unfold Session.turnCompleted
  split
  · have h' : Acts .stt false (s.release.emit (.turnReturned k turn)) := h.release.same rfl rfl rfl rfl rfl rfl
    exact h'.turn _ rfl rfl
  · have h' : Acts .stt true ((s.applyTransition .PROCESSING).emit (.processing k s.llm.count s.tts.count)) :=
      h.same rfl rfl rfl rfl rfl rfl
    have h'' := h'.release.same (t := (((s.applyTransition .PROCESSING).emit
      (.processing k s.llm.count s.tts.count)).release.remember cfg .user (Text.strip turn.transcript)))
      rfl rfl rfl rfl rfl rfl
    exact h''.goto rfl rfl

theorem placed_onLlmSegment {g : Nat} (h : Acts (.generation g) true s) (text : Text) :
    Placed (s.onLlmSegment (.generation g) text) := by
  unfold Session.onLlmSegment
  split
  · exact h.release.leave (by simp)
  · have hspeaking : Acts (.generation g) true
        (if s.state = .PROCESSING then s.applyTransition .SPEAKING else s) := by
      split
      · exact h.same rfl rfl rfl rfl rfl rfl
      · exact h
    dsimp only
    refine Acts.leave ?_ (by simp)
    obtain ⟨-, hcount, htask, -⟩ := Tts.Consumer.speak_snd
      (if s.state = .PROCESSING then s.applyTransition .SPEAKING else s).release.tts text
    refine hspeaking.release.congr rfl rfl rfl rfl rfl hcount (fun _ => rfl) (fun r => ?_)
    dsimp only
    rw [htask]

theorem placed_onTtsPlaybackEnd {r : Nat} (h : Acts (.reply r) true s) :
    Placed (s.onTtsPlaybackEnd (.reply r)) := by
  unfold Session.onTtsPlaybackEnd
  refine (Acts.release ?_).leave (by simp)
  split
  · exact h
  · have h' : Acts (.reply r) true { s with conversation := s.conversation.completeSystemTurn } :=
      h.same rfl rfl rfl rfl rfl rfl
    dsimp only
    split
    · exact h'.same rfl rfl rfl rfl rfl rfl
    · exact h'

/-- The tasks that `feed_mulaw` creates. -/
theorem Acts.spawn (h : Acts .twilio true s) (vads : Nat) (pc : Task → Option Await) (hvads : s.vads ≤ vads)
    (hpc : ∀ u, pc u = s.pc u ∨ pc u = some .created ∧ ∃ n < vads, u = .vad n) :
    Acts .twilio true { s with vads, pc } where
  idle hu := by
    cases hu
    rcases hpc .twilio with hu | ⟨-, n, -, hu⟩
    · exact hu.trans (h.idle rfl)
    · cases hu
  fits {u a} ha := by
    rcases hpc u with hu | ⟨hu, n, -, rfl⟩
    · exact h.fits (hu ▸ ha)
    · obtain rfl : a = .created := by simpa [hu] using ha.symm
      rfl
  held {u} hne := by
    rcases hpc u with hu | ⟨hu, n, -, rfl⟩
    · show s.lock.holder = some u ↔ ∃ a, pc u = some a ∧ a.holds u = true
      rw [hu]
      exact h.held hne
    · have hnot : s.lock.holder ≠ some (.vad n) := by simp [h.mine.mpr rfl]
      simp [hnot, hu, Await.holds]
  generation {g} hne := by
    rcases hpc (.generation g) with hu | ⟨-, n, -, hu⟩
    · exact (h.generation hne).trans (congrArg _ hu.symm)
    · cases hu
  reply {r} hne := by
    rcases hpc (.reply r) with hu | ⟨-, n, -, hu⟩
    · exact (h.reply hne).trans (congrArg _ hu.symm)
    · cases hu
  made {u a} ha := by
    rcases hpc u with hu | ⟨-, n, hn, rfl⟩
    · have hmade : s.made u = true := h.made (hu.symm.trans ha)
      exact made_mono (t := { s with vads, pc }) hvads le_rfl le_rfl hmade
    · simpa [Session.made] using hn
  generations := h.generations
  replies := h.replies
  mine := h.mine
  inCall := h.inCall
  madeMe := rfl

theorem placed_feedMulaw (h : Acts .twilio true s) (pcm : Bytes) : Placed (s.feedMulaw pcm) := by
  unfold Session.feedMulaw
  split
  · exact h.release.finish (by simp)
  · have hstreaming : Acts .twilio true
        (if s.state = .CONNECTED ∨ s.state = .LISTENING then s.applyTransition .STREAMING else s) := by
      split
      · exact h.same rfl rfl rfl rfl rfl rfl
      · exact h
    dsimp only
    have hme : ∀ x, Task.twilio ≠ .generation x ∧ Task.twilio ≠ .reply x := by simp
    refine Acts.finish (Acts.release ?_) hme
    generalize (if s.state = .CONNECTED ∨ s.state = .LISTENING then s.applyTransition .STREAMING else s) = s' at hstreaming ⊢
    refine Acts.same (hstreaming.spawn _ _ (Nat.le_add_right _ _) (fun u => ?_)) rfl rfl rfl rfl rfl rfl
    split
    · rename_i n
      split
      · rename_i hn
        exact Or.inr ⟨rfl, n, hn.2, rfl⟩
      · exact Or.inl rfl
    · exact Or.inl rfl

theorem placed_silenceChecked (h : Acts .silence true s) (quiet late : Bool) :
    Placed (s.silenceChecked .silence quiet late) := by
  unfold Session.silenceChecked
  split_ifs
  · exact h.release.finish (by simp)
  · exact h.release.leave (by simp)
  · exact h.release.goto rfl rfl
  · exact h.release.suspend rfl rfl
  · exact h.release.leave (by simp)

theorem placed_enter {sec : Section} (h : Acts me true s) (hfits : sec.fits me = true) :
    Placed (s.enter cfg me sec) := by
  cases sec with
  | turnStarted k =>
      obtain rfl : me = .stt := by cases me <;> first | rfl | cases hfits
      exact placed_turnStarted h k
  | turnCompleted turn k =>
      obtain rfl : me = .stt := by cases me <;> first | rfl | cases hfits
      exact placed_turnCompleted h turn k
  | systemTurn turn history k =>
      obtain rfl : me = .stt := by cases me <;> first | rfl | cases hfits
      simp only [Session.enter]
      split
      · exact h.release.begins rfl
      · exact h.goto rfl rfl
  | bargeIn k =>
      have hmuted : Acts me true { s with muted := true } := h.same rfl rfl rfl rfl rfl rfl
      simp only [Session.enter]
      cases k with
      | none =>
          obtain ⟨n, rfl⟩ : ∃ n, me = .vad n := by cases me <;> first | exact ⟨_, rfl⟩ | cases hfits
          split
          · exact hmuted.cancelGeneration.goto rfl rfl
          · exact h.release.leave (by simp)
      | some k =>
          obtain rfl : me = .stt := by cases me <;> first | rfl | cases hfits
          split
          · exact hmuted.cancelGeneration.goto rfl rfl
          · exact h.release.turn _ rfl rfl
  | recovery n =>
      simp only [Session.enter]
      split
      · exact h.release.leave (Section.ne_twilio hfits rfl)
      · exact h.cancelGeneration.goto hfits rfl
  | fallback n =>
      simp only [Session.enter]
      split
      · exact h.release.leave (Section.ne_twilio hfits rfl)
      · exact h.goto hfits rfl
  | segment text =>
      cases me <;> first | exact placed_onLlmSegment h text | cases hfits
  | playbackEnd =>
      cases me <;> first | exact placed_onTtsPlaybackEnd h | cases hfits
  | feed pcm =>
      obtain rfl : me = .twilio := by cases me <;> first | rfl | cases hfits
      exact placed_feedMulaw h pcm
  | frameCheck frame =>
      simp only [Session.enter]
      split
      · exact h.release.leave (Section.ne_twilio hfits rfl)
      · refine h.release.goto ?_ ?_ <;> cases me <;> first | rfl | cases hfits
  | frameSend =>
      have hsent : Acts me false (s.release.emit (.media me)) := h.release.same rfl rfl rfl rfl rfl rfl
      simp only [Session.enter]
      split
      · exact h.release.leave (Section.ne_twilio hfits rfl)
      · refine hsent.suspend ?_ ?_ <;> cases me <;> first | rfl | cases hfits
  | silenceCheck quiet late =>
      obtain rfl : me = .silence := by cases me <;> first | rfl | cases hfits
      exact placed_silenceChecked h quiet late
  | silencePrompt =>
      obtain rfl : me = .silence := by cases me <;> first | rfl | cases hfits
      have hprompted : Acts .silence true { s with prompted := true } := h.same rfl rfl rfl rfl rfl rfl
      simp only [Session.enter]
      split
      · exact h.release.leave (by simp)
      · exact hprompted.goto rfl rfl
  | stop =>
      obtain rfl : me = .twilio := by cases me <;> first | rfl | cases hfits
      have hended : Acts .twilio true
          { (s.applyTransition .ENDED).emit .ended with sendText := false, muted := true } :=
        h.same rfl rfl rfl rfl rfl rfl
      simp only [Session.enter]
      split
      · exact h.release.finish (by simp)
      · exact hended.cancelGeneration.goto rfl rfl

/-! ### `tts.begin` -/

theorem Others.reply_idle (h : Others (some me) s) (hcall : s.inCall me = true) {r : Nat} (hr : s.tts.count ≤ r) :
    me ≠ .reply r ∧ s.pc (.reply r) = none := by
  have hdone : s.inCall (.reply r) = false := by simp [Session.inCall, h.replies hr]
  have hne : me ≠ .reply r := by
    intro heq
    rw [heq, hdone] at hcall
    cases hcall
  have hpc := h.reply (fun heq => hne (Option.some.inj heq))
  rw [hdone] at hpc
  exact ⟨hne, by simpa using hpc.symm⟩

theorem Others.generation_idle (h : Others (some me) s) (hcall : s.inCall me = true) {g : Nat}
    (hg : s.llm.count ≤ g) : me ≠ .generation g ∧ s.pc (.generation g) = none := by
  have hdone : s.inCall (.generation g) = false := by simp [Session.inCall, h.generations hg]
  have hne : me ≠ .generation g := by
    intro heq
    rw [heq, hdone] at hcall
    cases hcall
  have hpc := h.generation (fun heq => hne (Option.some.inj heq))
  rw [hdone] at hpc
  exact ⟨hne, by simpa using hpc.symm⟩

theorem Acts.opens (h : Acts me false s) (ticket : Nat) (utteranceId : Text) :
    Acts me false (s.opens ticket utteranceId) := by
  have hcall (u : Task) (hu : u ≠ .reply s.tts.count) : (s.opens ticket utteranceId).inCall u = s.inCall u := by
    cases u with
    | reply r =>
        have hr : r ≠ s.tts.count := fun heq => hu (heq ▸ rfl)
        simp [Session.inCall, Function.update_of_ne hr]
    | _ => rfl
  obtain ⟨hme, hidle⟩ := h.reply_idle h.inCall le_rfl
  refine ⟨⟨h.idle, h.fits, h.held, ?_, ?_, ?_, h.generations, ?_⟩, h.mine, ?_, ?_⟩
  · intro g hg
    rw [hcall _ (by simp)]
    exact h.generation hg
  · intro r hr
    by_cases heq : r = s.tts.count
    · subst heq
      simpa [Session.inCall, Tts.Consumer.openReply, Coroutine.await, Tts.Pc.inCallback] using hidle
    · rw [hcall _ (by simpa using heq)]
      exact h.reply hr
  · intro u a ha
    exact made_mono (t := s.opens ticket utteranceId) le_rfl le_rfl le_rfl (h.made ha)
  · intro r hr
    have hlt : s.tts.count < r := hr
    show Function.update s.tts.task s.tts.count (.await .created) r = .done
    rw [Function.update_of_ne hlt.ne']
    exact h.replies hlt.le
  · rw [hcall _ hme]
    exact h.inCall
  · exact made_mono (t := s.opens ticket utteranceId) le_rfl le_rfl le_rfl h.madeMe

/-- The generations after `start_generation`. -/
theorem startGeneration_task (turn : UserTurnCompleted) (history : List Llm.Entry) (k g : Nat) :
    (s.startGeneration turn history k).llm.task g =
      if g = s.llm.count then .await .created else s.llm.cancel.task g := by
  show Function.update s.llm.cancel.cancel.task s.llm.cancel.count (.await .created) g = _
  rw [Llm.Consumer.cancel_count, Llm.Consumer.cancel_cancel]
  by_cases hg : g = s.llm.count
  · subst hg
    simp
  · simp [hg]

theorem startGeneration_count (turn : UserTurnCompleted) (history : List Llm.Entry) (k : Nat) :
    (s.startGeneration turn history k).llm.count = s.llm.count + 1 := by
  show s.llm.cancel.count + 1 = _
  rw [Llm.Consumer.cancel_count]

theorem Acts.startGeneration (h : Acts .stt false s) (turn : UserTurnCompleted) (history : List Llm.Entry) (k : Nat) :
    Acts .stt false (s.startGeneration turn history k) := by
  have hc : Acts .stt false s.cancelGeneration := h.cancelGeneration
  have hcall (u : Task) (hu : u ≠ .generation s.llm.count) :
      (s.startGeneration turn history k).inCall u = s.cancelGeneration.inCall u := by
    cases u with
    | generation g =>
        have hg : g ≠ s.llm.count := fun heq => hu (heq ▸ rfl)
        simp only [Session.inCall, startGeneration_task, hg, if_false, Session.cancelGeneration_llm]
    | _ => rfl
  have hpc (u : Task) (hu : u ≠ .watchdog s.llm.count) : (s.startGeneration turn history k).pc u = s.pc u :=
    Function.update_of_ne hu _ _
  obtain ⟨-, hidle⟩ := hc.generation_idle (g := s.llm.count) rfl (by simp)
  refine ⟨⟨?_, ?_, ?_, ?_, ?_, ?_, ?_, hc.replies⟩, hc.mine, rfl, rfl⟩
  · rintro _ ⟨⟩
    exact (hpc .stt (by simp)).trans (h.idle rfl)
  · intro u a ha
    by_cases hu : u = .watchdog s.llm.count
    · subst hu
      obtain rfl : Await.created = a := by simpa [Session.startGeneration] using ha
      rfl
    · exact h.fits ((hpc u hu).symm.trans ha)
  · intro u hne
    by_cases hu : u = .watchdog s.llm.count
    · subst hu
      have hnew : s.pc (.watchdog s.llm.count) = none := by
        by_contra hcon
        obtain ⟨a, ha⟩ := Option.ne_none_iff_exists'.mp hcon
        have hmade := h.made ha
        simp [Session.made] at hmade
      have hnot : s.lock.holder ≠ some (.watchdog s.llm.count) := by
        intro hcon
        obtain ⟨a, ha, -⟩ := (h.held hne).mp hcon
        rw [hnew] at ha
        cases ha
      show s.lock.holder = _ ↔ ∃ a, Function.update s.pc (.watchdog s.llm.count) (some .created) _ = _ ∧ _
      simp [hnot, Await.holds]
    · rw [hpc u hu]
      exact h.held hne
  · intro g hg
    rw [hpc _ (by simp)]
    by_cases heq : g = s.llm.count
    · subst heq
      have hnone : s.pc (.generation s.llm.count) = none := hidle
      simp only [Session.inCall, startGeneration_task, if_true, hnone]
      rfl
    · rw [hcall _ (by simpa using heq)]
      exact hc.generation hg
  · intro r hr
    rw [hcall _ (by simp), hpc _ (by simp)]
    exact hc.reply hr
  · intro u a ha
    have hcount := startGeneration_count (s := s) turn history k
    by_cases hu : u = .watchdog s.llm.count
    · subst hu
      simp only [Session.made, decide_eq_true_eq, hcount]
      omega
    · rw [hpc u hu] at ha
      exact made_mono (s := s) (t := s.startGeneration turn history k) le_rfl le_rfl (by omega) (h.made ha)
  · intro g hg
    rw [startGeneration_count] at hg
    rw [startGeneration_task, if_neg (by omega)]
    exact hc.generations (by simp; omega)

theorem Acts.speakAll {locked : Bool} (h : Acts me locked s) (text : Text) : Acts me locked (s.speakAll text) := by
  obtain ⟨-, hcount, htask, -⟩ := Tts.Consumer.speak_snd s.tts text
  obtain ⟨-, hcount', htask', -⟩ := Tts.Consumer.finish_snd (s.tts.speak text).2
  refine h.congr rfl rfl rfl rfl rfl (hcount'.trans hcount) (fun _ => rfl) (fun r => ?_)
  rw [Session.speakAll_tts, htask', htask]

theorem placed_beginGoesOn (h : Acts me false s) (ticket : Nat) {opening : Opening} (hfits : opening.fits me = true) :
    Placed (s.beginGoesOn me ticket opening) := by
  cases opening with
  | answer turn history k =>
      obtain rfl : me = .stt := by cases me <;> first | rfl | cases hfits
      have h' := (h.opens ticket turn.utteranceId).startGeneration turn history k
      have h'' : Acts .stt false (((s.opens ticket turn.utteranceId).startGeneration turn history k).emit
          (.turnReturned k turn)) := h'.same rfl rfl rfl rfl rfl rfl
      exact h''.turn _ rfl rfl
  | fallback n =>
      have h' := (h.opens ticket "fallback".toList).speakAll fallbackMessage
      have h'' : Acts me false (((s.opens ticket "fallback".toList).speakAll fallbackMessage).emit (.fallback n)) :=
        h'.same rfl rfl rfl rfl rfl rfl
      refine h''.leave ?_
      rintro rfl
      cases hfits
  | silencePrompt =>
      refine ((h.opens ticket "silence-prompt".toList).speakAll silencePromptMessage).leave ?_
      rintro rfl
      cases hfits

theorem placed_stopped {k : StopFor} (h : Acts me k.locked s) (hfits : k.fits me = true) :
    Placed (s.stopped me k) := by
  cases k with
  | systemTurn turn history k =>
      obtain rfl : me = .stt := by cases me <;> first | rfl | cases hfits
      have h' : Acts .stt true { s with conversation := s.conversation.startSystemTurn } :=
        h.same rfl rfl rfl rfl rfl rfl
      exact h'.release.begins rfl
  | bargeIn k =>
      have h' : Acts me true ({ s.closeTurns.listenAgain with muted := false }.emit .bargedIn) :=
        h.same rfl rfl rfl rfl rfl rfl
      simp only [Session.stopped, Session.bargeInReturned]
      cases k with
      | none =>
          refine h'.release.leave ?_
          rintro rfl
          cases hfits
      | some k =>
          obtain rfl : me = .stt := by cases me <;> first | rfl | cases hfits
          exact h'.release.turn _ rfl rfl
  | recovery n =>
      have hlisten : Acts me true (if s.state.answering then s.listenAgain else s) := by
        split
        · exact h.same rfl rfl rfl rfl rfl rfl
        · exact h
      have hclosed : Acts me true (if s.state.answering then s.listenAgain else s).closeTurns :=
        hlisten.same rfl rfl rfl rfl rfl rfl
      refine hclosed.release.goto ?_ ?_
      · show ((Section.fallback n).fits me || _) = true
        rw [Bool.or_eq_true]
        exact Or.inl hfits
      · cases me <;> first | rfl | cases hfits
  | fallback n => exact (Acts.release h).begins hfits
  | silencePrompt =>
      obtain rfl : me = .silence := by cases me <;> first | rfl | cases hfits
      exact (Acts.release h).begins rfl
  | stop =>
      obtain rfl : me = .twilio := by cases me <;> first | rfl | cases hfits
      have h' : Acts .twilio true { s with listening := false } := h.same rfl rfl rfl rfl rfl rfl
      exact h'.suspend rfl rfl
  | begin ticket opening => exact placed_beginGoesOn h ticket hfits

theorem placed_ttsStop {k : StopFor} (h : Acts me k.locked s) (hfits : k.fits me = true) :
    Placed (s.ttsStop me k) := by
  unfold Session.ttsStop
  split
  · exact h.goto hfits rfl
  · rename_i r _
    have hcount : ({ s with tts := s.tts.cancel r }.cancelAwaited (.reply r)).count = s.tts.count :=
      cancelAwaited_count _
    have htask (r' : Nat) : (({ s with tts := s.tts.cancel r }.cancelAwaited (.reply r)).task r').pc? =
        (s.tts.task r').pc? := by
      rw [cancelAwaited_pc?]
      by_cases hr : r' = r
      · subst hr
        simp [Tts.Consumer.cancel]
      · simp [Tts.Consumer.cancel, Function.update_of_ne hr]
    have h' : Acts me k.locked { s with tts := { s with tts := s.tts.cancel r }.cancelAwaited (.reply r) } :=
      h.congr rfl rfl rfl rfl rfl hcount (fun _ => rfl) htask
    exact h'.suspend hfits rfl

theorem placed_callback {next : TurnManager.Next} (h : Acts me ((Point.turn next).holds me) s)
    (hfits : (Point.turn next).fits me = true) : Placed (s.callback me next) := by
  have hme : me = .stt ∨ me = .twilio := by
    cases me <;> first | exact Or.inl rfl | exact Or.inr rfl | cases hfits
  cases next with
  | onUserInterrupted k => obtain rfl | rfl := hme <;> exact h.goto rfl rfl
  | onUserTurnStarted utteranceId k => obtain rfl | rfl := hme <;> exact h.goto rfl rfl
  | onUserTurnCompleted turn k =>
      have h' : Acts me _ { s with turns := s.turns + 1 } := h.same rfl rfl rfl rfl rfl rfl
      obtain rfl | rfl := hme <;> exact h'.goto rfl rfl
  | returned =>
      have h' (ev : TranscriptEvent) (begun : Nat) : Acts me _ (s.emit (.processed ev begun s.tts.active)) :=
        h.same rfl rfl rfl rfl rfl rfl
      simp only [Session.callback, Session.processed]
      split
      · obtain rfl | rfl := hme <;> exact (h' _ _).goto rfl rfl
      · obtain rfl | rfl := hme <;> exact h.goto rfl rfl
  | raised => obtain rfl | rfl := hme <;> exact h.failure rfl rfl

/-! ### The consumers' tasks -/

/-- A generation awaits a callback only where `_run` hands something over. -/
theorem await_not_inCallback {gen : Llm.Gen} {pc pc' : Llm.Pc Unit} {w : Wake Llm.Item}
    (h : (gen.resume pc w).2 = .await pc') : pc'.inCallback = false := by
  cases pc <;> cases w <;> simp only [Llm.Gen.resume] at h
  case engineNext.ok item => cases item <;> cases h <;> rfl
  all_goals cases h
  all_goals rfl

theorem afterSegments_not_inCallback (flushed : Bool) :
    (Llm.Gen.afterSegments flushed : Llm.Pc Unit).inCallback = false := by
  cases flushed <;> rfl

/-- The generation that runs comes to another place of its own coroutine. -/
theorem Others.setGeneration {g : Nat} (h : Others (some (.generation g)) s) (hg : g < s.llm.count)
    (gen : Nat → Llm.Gen) (task : Coroutine (Llm.Pc Unit)) :
    Others (some (.generation g))
      { s with llm.gen := gen, llm.task := Function.update s.llm.task g task } where
  idle := h.idle
  fits := h.fits
  held := h.held
  generation {g'} hne := by
    have hg' : g' ≠ g := fun heq => hne (heq ▸ rfl)
    simp only [Session.inCall, Function.update_of_ne hg']
    exact h.generation hne
  reply := h.reply
  made := h.made
  generations {g'} hle := by
    have hg' : g' ≠ g := by
      have hcount : s.llm.count ≤ g' := hle
      omega
    simp only [Function.update_of_ne hg']
    exact h.generations hle
  replies := h.replies

theorem placed_onComplete {g : Nat} (h : Acts (.generation g) false s) (hg : g < s.llm.count)
    (outcome : Llm.Outcome) : Placed (s.onComplete cfg g outcome) := by
  have htoken : Acts (.generation g) false { s with firstToken := Function.update s.firstToken g true } :=
    h.same rfl rfl rfl rfl rfl rfl
  have hremember : Acts (.generation g) false
      (if Text.strip (s.llm.gen g).text ≠ [] then
        { s with firstToken := Function.update s.firstToken g true }.remember cfg .assistant
          (Text.strip (s.llm.gen g).text)
      else { s with firstToken := Function.update s.firstToken g true }) := by
    split
    · exact htoken.same rfl rfl rfl rfl rfl rfl
    · exact htoken
  have hcount : (if Text.strip (s.llm.gen g).text ≠ [] then
        { s with firstToken := Function.update s.firstToken g true }.remember cfg .assistant
          (Text.strip (s.llm.gen g).text)
      else { s with firstToken := Function.update s.firstToken g true }).llm.count = s.llm.count := by
    split <;> rfl
  unfold Session.onComplete
  dsimp only
  generalize (if Text.strip (s.llm.gen g).text ≠ [] then
        { s with firstToken := Function.update s.firstToken g true }.remember cfg .assistant
          (Text.strip (s.llm.gen g).text)
      else { s with firstToken := Function.update s.firstToken g true }) = s' at hremember hcount ⊢
  have hend {t : Session} (ht : Acts (.generation g) false t) (hlt : g < t.llm.count) :
      Placed { t with llm := t.llm.finish g, running := none } := by
    refine (ht.toOthers.setGeneration hlt t.llm.gen .done).finish ?_ (fun _ => ?_)
    · exact fun hmine => Bool.false_ne_true (ht.mine.mp hmine)
    · simp [Session.inCall]
  cases outcome with
  | completed =>
      obtain ⟨-, hreplies, htask, -⟩ := Tts.Consumer.finish_snd s'.tts
      have hfinish : Acts (.generation g) false { s' with tts := s'.tts.finish.2 } :=
        hremember.congr rfl rfl rfl rfl rfl hreplies (fun _ => rfl) (fun r => by rw [htask])
      exact hend hfinish (by simpa [hcount] using hg)
  | cancelled => exact hend hremember (by simpa [hcount] using hg)
  | failed => exact hremember.failure rfl rfl

theorem placed_generationGoesOn {g : Nat} (h : Others (some (.generation g)) s)
    (hmine : s.lock.holder ≠ some (.generation g)) (hg : g < s.llm.count) {next : Llm.Next Unit}
    (hnext : ∀ {pc}, next = .await pc → pc.inCallback = false) : Placed (s.generationGoesOn cfg g next) := by
  have hat (pc : Llm.Pc Unit) : Others (some (.generation g))
      { s with llm.task := Function.update s.llm.task g (.suspended pc (s.llm.task g).asked) } :=
    h.setGeneration hg s.llm.gen _
  have hacts {pc : Llm.Pc Unit} (hpc : pc.inCallback = true) : Acts (.generation g) false
      { s with llm.task := Function.update s.llm.task g (.suspended pc (s.llm.task g).asked) } :=
    ⟨hat pc, by simpa using hmine, by simpa [Session.inCall] using hpc, rfl⟩
  have howns {pc : Llm.Pc Unit} (hpc : pc.inCallback = false) : Placed
      { s with llm.task := Function.update s.llm.task g (.suspended pc (s.llm.task g).asked) }.finish :=
    (hat pc).finish hmine (fun _ => by simpa [Session.inCall] using hpc)
  unfold Session.generationGoesOn
  split
  · exact howns (hnext rfl)
  · exact howns (afterSegments_not_inCallback _)
  · exact (hacts rfl).goto rfl rfl
  · exact placed_onComplete (hacts rfl) hg _
  · exact (h.setGeneration hg s.llm.gen .done).finish hmine (fun _ => by simp [Session.inCall])

theorem placed_generationReturned {g : Nat} (h : Acts (.generation g) false s) (w : Wake Llm.Item) :
    Placed (s.generationReturned cfg g w) := by
  have hcall := h.inCall
  have hg : g < s.llm.count := by
    by_contra hcon
    have hdone := h.generations (g := g) (by omega)
    simp [Session.inCall, hdone] at hcall
  have hmine : s.lock.holder ≠ some (.generation g) := fun heq => Bool.false_ne_true (h.mine.mp heq)
  unfold Session.generationReturned
  split
  · rename_i pc _
    have hgen := h.toOthers.setGeneration hg (Function.update s.llm.gen g ((s.llm.gen g).resume pc w).1)
      (s.llm.task g)
    rw [Function.update_eq_self] at hgen
    exact placed_generationGoesOn hgen hmine hg (fun heq => await_not_inCallback heq)
  · rename_i hnone
    simp [Session.inCall, hnone] at hcall

/-- The reply that runs comes to another place of its own coroutine. -/
theorem Others.setReply {r : Nat} (h : Others (some (.reply r)) s) (hr : r < s.tts.count) (audioSent : Bool)
    (reply : Nat → Tts.Reply) (task : Coroutine (Tts.Pc Unit)) :
    Others (some (.reply r))
      { s with
        tts.audioSent := audioSent
        tts.reply := reply
        tts.task := Function.update s.tts.task r task } where
  idle := h.idle
  fits := h.fits
  held := h.held
  generation := h.generation
  reply {r'} hne := by
    have hr' : r' ≠ r := fun heq => hne (heq ▸ rfl)
    simp only [Session.inCall, Function.update_of_ne hr']
    exact h.reply hne
  made := h.made
  generations := h.generations
  replies {r'} hle := by
    have hr' : r' ≠ r := by
      have hcount : s.tts.count ≤ r' := hle
      omega
    simp only [Function.update_of_ne hr']
    exact h.replies hle

/-- A callback returns to a reply in the reply's own code. -/
theorem returned_not_inCallback {reply : Tts.Reply} {pc pc' : Tts.Pc Unit} {w : Wake Tts.Item}
    (hpc : pc.inCallback = true) (h : (reply.resume pc w).2 = some pc') : pc'.inCallback = false := by
  cases pc <;> cases w <;> cases hpc <;> cases h <;> rfl

/-- What a callback's return to the reply `r` is. -/
theorem replyReturned_eq {r : Nat} {pc : Tts.Pc Unit} {asked : Bool} (hpc : s.tts.task r = .suspended pc asked)
    (w : Wake Tts.Item) :
    s.replyReturned r w =
      { s with
        tts.audioSent := pc.sent w || s.tts.audioSent
        tts.reply := Function.update s.tts.reply r ((s.tts.reply r).resume pc w).1
        tts.task := Function.update s.tts.task r
          (((s.tts.reply r).resume pc w).2.elim .done (.suspended · asked)) }.finish := by
  simp only [Session.replyReturned, hpc]

theorem Others.replyReturned {r : Nat} (h : Others (some (.reply r)) s) (hmine : s.lock.holder ≠ some (.reply r))
    (hcall : s.inCall (.reply r) = true) (w : Wake Tts.Item) : Placed (s.replyReturned r w) := by
  have hr : r < s.tts.count := by
    by_contra hcon
    have hdone := h.replies (r := r) (by omega)
    simp [Session.inCall, hdone] at hcall
  cases hpc : s.tts.task r with
  | done => simp [Session.inCall, hpc] at hcall
  | suspended pc asked =>
    have hpcCall : pc.inCallback = true := by simpa [Session.inCall, hpc] using hcall
    rw [replyReturned_eq hpc]
    refine (h.setReply hr _ _ _).finish hmine (fun _ => ?_)
    have hout : ∀ pc', ((s.tts.reply r).resume pc w).2 = some pc' → pc'.inCallback = false :=
      fun pc' => returned_not_inCallback hpcCall
    simp only [Session.inCall, Function.update_self]
    generalize ((s.tts.reply r).resume pc w).2 = next at hout ⊢
    cases next with
    | none => rfl
    | some pc' => simpa using hout pc' rfl

theorem placed_replyReturned {r : Nat} (h : Acts (.reply r) false s) (w : Wake Tts.Item) :
    Placed (s.replyReturned r w) :=
  h.toOthers.replyReturned (fun heq => Bool.false_ne_true (h.mine.mp heq)) h.inCall w

theorem placed_replyArrives {r : Nat} (h : Others (some (.reply r)) s)
    (hmine : s.lock.holder ≠ some (.reply r)) : Placed (s.replyArrives r) := by
  have hacts (hcall : s.inCall (.reply r) = true) : Acts (.reply r) false s :=
    ⟨h, by simpa using hmine, hcall, rfl⟩
  unfold Session.replyArrives
  split
  · rename_i frame inner asked hpc
    have hcall : s.inCall (.reply r) = true := by simp [Session.inCall, hpc, Tts.Pc.inCallback]
    split
    · exact placed_replyReturned (hacts hcall) _
    · exact (hacts hcall).goto rfl rfl
  · rename_i interrupted inner asked hpc
    have hcall : s.inCall (.reply r) = true := by simp [Session.inCall, hpc, Tts.Pc.inCallback]
    split
    · exact placed_replyReturned (hacts hcall) _
    · exact (hacts hcall).goto rfl rfl
  · rename_i hsend hend
    refine h.finish hmine (fun _ => ?_)
    cases hpc : s.tts.task r with
    | done => simp [Session.inCall, hpc]
    | suspended pc asked =>
        have hout : pc.inCallback = false := by
          cases pc with
          | sendBytes frame inner => exact absurd hpc (hsend frame inner asked)
          | playbackEnd interrupted inner => exact absurd hpc (hend interrupted inner asked)
          | _ => rfl
        simpa [Session.inCall, hpc] using hout

theorem placed_nextFrame (h : Acts .stt false s) : Placed s.nextFrame := by
  have hqueue (queue : List (Option Bytes)) : Acts .stt false { s with queue } := h.same rfl rfl rfl rfl rfl rfl
  unfold Session.nextFrame
  split
  · exact h.suspend rfl rfl
  · exact (hqueue _).finish (by simp)
  · exact (hqueue _).suspend rfl rfl

theorem placed_processLoop (h : Acts .stt false s) : Placed s.processLoop := by
  unfold Session.processLoop
  split
  · exact placed_nextFrame h
  · exact h.finish (by simp)

theorem placed_finalized (h : Acts .twilio true s) : Placed s.finalized := by
  have hqueue (queue : List (Option Bytes)) : Acts .twilio true { s with queue } := h.same rfl rfl rfl rfl rfl rfl
  unfold Session.finalized
  split
  · exact (hqueue _).suspend rfl rfl
  · exact h.suspend rfl rfl

theorem placed_leave (h : Acts me (Point.leave.holds me) s) : Placed (s.leave cfg me) := by
  cases me with
  | stt => exact placed_processLoop h
  | twilio => exact placed_finalized h
  | silence => exact h.suspend rfl rfl
  | generation g => exact placed_generationReturned h _
  | reply r => exact placed_replyReturned h _
  | vad n | sttError n | watchdog g => exact h.finish (by simp)

/-! ### Resuming a task -/

theorem placed_unwind {locked : Bool} (h : Acts me locked s) : Placed (s.unwind cfg me) := by
  have hfree : Acts me false (if s.lock.holder = some me then s.release else s) := by
    split
    · rename_i hmine
      obtain rfl := h.mine.mp hmine
      exact h.release
    · rename_i hmine
      cases locked with
      | false => exact h
      | true => exact absurd (h.mine.mpr rfl) hmine
  unfold Session.unwind
  cases me with
  | generation g => exact placed_generationReturned hfree _
  | reply r => exact placed_replyReturned hfree _
  | _ => exact hfree.finish (by simp)

theorem placed_start (h : Acts me false s) (hfits : Await.created.fits me = true) : Placed (s.start me) := by
  cases me with
  | stt => exact placed_processLoop h
  | silence => exact h.suspend rfl rfl
  | vad n => exact h.goto rfl rfl
  | sttError n => exact h.failure rfl rfl
  | watchdog g => exact h.suspend rfl rfl
  | twilio | generation | reply => cases hfits

theorem placed_transcriptCallback {locked : Bool} (h : Acts me locked s) (hfits : (Point.turn .returned).fits me = true)
    (hholds : (Point.turn .returned).holds me = locked) (ev : TranscriptEvent) :
    Placed (s.transcriptCallback me ev) := by
  have h' : Acts me locked { s with hearing := Function.update s.hearing me (some (ev, s.begun)) } :=
    h.same rfl rfl rfl rfl rfl rfl
  have hme : me = .stt ∨ me = .twilio := by
    cases me <;> first | exact Or.inl rfl | exact Or.inr rfl | cases hfits
  obtain rfl | rfl := hme <;> exact h'.turn _ rfl hholds

theorem placed_tornDown (h : Acts .twilio true s) : Placed (s.tornDown .twilio) := by
  have h' : Acts .twilio true { s with muted := false, pcmBuffer := [] } := h.same rfl rfl rfl rfl rfl rfl
  unfold Session.tornDown
  dsimp only
  split
  · exact h'.release.finish (by simp)
  · exact (h'.release.askCancel .silence).suspend rfl rfl

theorem placed_acquired {sec : Section} (h : Acts me ((Await.acquiring sec).holds me) s)
    (hfits : sec.called me = true) (hfree : s.lock.holder = none) :
    Placed ({ s with lock := s.lock.hold me }.goto me (.enter sec)) := by
  have hnot : (Await.acquiring sec).holds me = false := by
    by_contra hcon
    have hheld := h.mine.mpr (by simpa using hcon)
    simp [hfree] at hheld
  rw [hnot] at h
  refine (h.take hfree).goto ?_ rfl
  -- the callback that `stop` awaits finds the lock taken
  unfold Section.called at hfits
  rw [Bool.or_eq_true] at hfits
  rcases hfits with hfits | hfits
  · exact hfits
  · exfalso
    simp only [Bool.and_eq_true, decide_eq_true_eq] at hfits
    obtain ⟨rfl, hsec⟩ := hfits
    cases sec <;> simp [Section.ofCallback, Await.holds, Section.ofTwilio] at hsec hnot

theorem placed_resumeOk {a : Await} {result : Result} (h : Acts me (a.holds me) s) (hfits : a.fits me = true)
    (hfree : ∀ {sec}, a = .acquiring sec → s.lock.holder = none) : Placed (s.resumeOk me a result) := by
  have hstt {b : Await} (hb : ∀ {u}, b.fits u = true → u = .stt) (heq : a = b) : me = .stt := hb (heq ▸ hfits)
  cases a with
  | created =>
      have hholds : Await.created.holds me = false := by cases me <;> rfl
      rw [hholds] at h
      exact placed_start h hfits
  | acquiring sec => exact placed_acquired h hfits (hfree rfl)
  | gathering r hadAudio k =>
      have hclear : Acts me k.locked (if s.sendText then s.emit .clear else s) := by
        split
        · exact h.same rfl rfl rfl rfl rfl rfl
        · exact h
      simp only [Session.resumeOk]
      split
      · exact hclear.suspend hfits rfl
      · exact Acts.goto h hfits rfl
  | clearing k => exact h.goto hfits rfl
  | queueGet =>
      obtain rfl : me = .stt := by cases me <;> first | rfl | cases hfits
      exact placed_nextFrame h
  | engine =>
      obtain rfl : me = .stt := by cases me <;> first | rfl | cases hfits
      simp only [Session.resumeOk]
      split
      · exact placed_transcriptCallback h rfl rfl _
      · exact placed_processLoop h
  | finalizing =>
      obtain rfl : me = .twilio := by cases me <;> first | rfl | cases hfits
      simp only [Session.resumeOk]
      split
      · exact placed_transcriptCallback h rfl rfl _
      · exact placed_finalized h
  | putting =>
      obtain rfl : me = .twilio := by cases me <;> first | rfl | cases hfits
      have h' : Acts .twilio true { s with queue := s.queue ++ [none] } := h.same rfl rfl rfl rfl rfl rfl
      exact h'.suspend rfl rfl
  | loopEnding =>
      obtain rfl : me = .twilio := by cases me <;> first | rfl | cases hfits
      simp only [Session.resumeOk]
      split
      · exact (h.askCancel .stt).suspend rfl rfl
      · exact h.suspend rfl rfl
  | loopCancelled | consumerClosing =>
      obtain rfl : me = .twilio := by cases me <;> first | rfl | cases hfits
      exact h.suspend rfl rfl
  | engineClosing =>
      obtain rfl : me = .twilio := by cases me <;> first | rfl | cases hfits
      exact placed_tornDown h
  | silenceEnding =>
      obtain rfl : me = .twilio := by cases me <;> first | rfl | cases hfits
      simp only [Session.resumeOk]
      split
      · exact (h.askCancel .silence).suspend rfl rfl
      · exact h.finish (by simp)
  | silenceCancelled =>
      obtain rfl : me = .twilio := by cases me <;> first | rfl | cases hfits
      exact h.finish (by simp)
  | sleeping =>
      obtain rfl : me = .silence := by cases me <;> first | rfl | cases hfits
      simp only [Session.resumeOk]
      split
      · exact h.goto rfl rfl
      · exact h.finish (by simp)
  | hangup =>
      obtain rfl : me = .silence := by cases me <;> first | rfl | cases hfits
      exact h.finish (by simp)
  | watching =>
      obtain ⟨g, rfl⟩ : ∃ g, me = .watchdog g := by cases me <;> first | exact ⟨_, rfl⟩ | cases hfits
      simp only [Session.resumeOk]
      split
      · exact h.suspend rfl rfl
      · exact h.finish (by simp)
  | expiring =>
      obtain ⟨g, rfl⟩ : ∃ g, me = .watchdog g := by cases me <;> first | exact ⟨_, rfl⟩ | cases hfits
      exact h.finish (by simp)
  | sendMedia =>
      obtain ⟨r, rfl⟩ : ∃ r, me = .reply r := by cases me <;> first | exact ⟨_, rfl⟩ | cases hfits
      exact h.leave (by simp)

/-- `_on_stt_error` creates a task. -/
theorem Acts.onSttError {locked : Bool} (h : Acts me locked s) (hme : me ≠ .sttError s.errors) :
    Acts me locked s.onSttError := by
  have hpc (u : Task) (hu : u ≠ .sttError s.errors) : s.onSttError.pc u = s.pc u := Function.update_of_ne hu _ _
  have hmade {u : Task} (hu : s.made u = true) : s.onSttError.made u = true :=
    made_mono (s := s) (t := s.onSttError) le_rfl (Nat.le_succ _) le_rfl hu
  refine ⟨⟨?_, ?_, ?_, ?_, ?_, ?_, h.generations, h.replies⟩, h.mine, ?_, hmade h.madeMe⟩
  · intro u hu
    cases hu
    rw [hpc _ hme]
    exact h.idle rfl
  · intro u a ha
    by_cases hu : u = .sttError s.errors
    · subst hu
      obtain rfl : Await.created = a := by simpa using ha
      rfl
    · exact h.fits ((hpc u hu).symm.trans ha)
  · intro u hne
    by_cases hu : u = .sttError s.errors
    · subst hu
      have hnew : s.pc (.sttError s.errors) = none := by
        by_contra hcon
        obtain ⟨a, ha⟩ := Option.ne_none_iff_exists'.mp hcon
        have hbefore := h.made ha
        simp [Session.made] at hbefore
      have hnot : s.lock.holder ≠ some (.sttError s.errors) := by
        intro hcon
        obtain ⟨a, ha, -⟩ := (h.held hne).mp hcon
        rw [hnew] at ha
        cases ha
      simp [hnot, Await.holds]
    · rw [hpc u hu]
      exact h.held hne
  · intro g hg
    rw [hpc _ (by simp)]
    exact h.generation hg
  · intro r hr
    rw [hpc _ (by simp)]
    exact h.reply hr
  · intro u a ha
    by_cases hu : u = .sttError s.errors
    · subst hu
      simp [Session.made]
    · exact hmade (h.made ((hpc u hu).symm.trans ha))
  · rw [← h.inCall]
    exact inCall_congr (fun _ => rfl) (fun _ => rfl) me

theorem placed_resumeRaised {a : Await} {s₀ : Session} (h : Acts me (a.holds me) s) (hfits : a.fits me = true)
    (hraises : s₀.enabled me a .raised = true) : Placed (s.resumeRaised me a) := by
  cases a with
  | engine =>
      obtain rfl : me = .stt := by cases me <;> first | rfl | cases hfits
      exact placed_processLoop (h.onSttError (by simp))
  | finalizing =>
      obtain rfl : me = .twilio := by cases me <;> first | rfl | cases hfits
      exact placed_finalized h
  | consumerClosing | engineClosing =>
      obtain rfl : me = .twilio := by cases me <;> first | rfl | cases hfits
      exact (Acts.release h).finish (by simp)
  | hangup =>
      obtain rfl : me = .silence := by cases me <;> first | rfl | cases hfits
      exact h.finish (by simp)
  | expiring =>
      obtain ⟨g, rfl⟩ : ∃ g, me = .watchdog g := by cases me <;> first | exact ⟨_, rfl⟩ | cases hfits
      exact h.cancelGeneration.failure rfl rfl
  | sendMedia =>
      obtain ⟨r, rfl⟩ : ∃ r, me = .reply r := by cases me <;> first | exact ⟨_, rfl⟩ | cases hfits
      exact h.failure rfl rfl
  | _ => cases hraises

theorem placed_resumeCancelled {a : Await} (h : Acts me (a.holds me) s) : Placed (s.resumeCancelled cfg me a) := by
  cases a with
  | acquiring sec =>
      have h' : Acts me ((Await.acquiring sec).holds me) { s with lock := s.lock.abandon me s.cancelling } :=
        h.congr rfl (by simp) rfl rfl rfl rfl (fun _ => rfl) (fun _ => rfl)
      exact placed_unwind h'
  | _ => exact placed_unwind h

end Pieces

/-! ## The invariant -/

section Steps

variable {cfg : Config} {me : Task} {s t : Session} {l : Label}

/-- A task that is not in the session's code runs there. -/
theorem Others.enterAs (h : Others none s) (hpc : s.pc me = none) : Others (some me) s where
  idle hu := by
    cases hu
    exact hpc
  fits := h.fits
  held _ := h.held (by simp)
  generation _ := h.generation (by simp)
  reply _ := h.reply (by simp)
  made := h.made
  generations := h.generations
  replies := h.replies

/-- A task that is not in the session's code does not hold the lock. -/
theorem Others.not_mine (h : Others none s) (hpc : s.pc me = none) : s.lock.holder ≠ some me := by
  intro heq
  obtain ⟨a, ha, -⟩ := (h.held (by simp)).mp heq
  rw [hpc] at ha
  cases ha

theorem placed_advance {p : Point} (h : Acts me (p.holds me) s) (hfits : p.fits me = true) :
    Placed (s.advance cfg me p) := by
  cases p with
  | acquire sec => exact placed_acquire h hfits
  | enter sec =>
      have hholds : (Point.enter sec).holds me = true := by cases me <;> rfl
      rw [hholds] at h
      exact placed_enter h hfits
  | ttsStop k =>
      have hholds : (Point.ttsStop k).holds me = k.locked := by cases me <;> rfl
      rw [hholds] at h
      exact placed_ttsStop h hfits
  | stopped k =>
      have hholds : (Point.stopped k).holds me = k.locked := by cases me <;> rfl
      rw [hholds] at h
      exact placed_stopped h hfits
  | turn next => exact placed_callback h hfits
  | leave => exact placed_leave h

theorem placed_resume {a : Await} {w : Wake Result} {s₀ : Session} (h : Acts me (a.holds me) s)
    (hfits : a.fits me = true) (henabled : s₀.enabled me a w = true) (hlock : s.lock = s₀.lock) :
    Placed (s.resume cfg me a w) := by
  cases w with
  | ok result =>
      refine placed_resumeOk h hfits (fun {sec} heq => ?_)
      subst heq
      rw [hlock]
      cases result with
      | none => exact Lock.holder_of_isTurn henabled
      | _ => cases henabled
  | raised => exact placed_resumeRaised h hfits henabled
  | cancelled => exact placed_resumeCancelled h

theorem wake_pc_of_idle (h : s.pc me = none) : (s.wake me).pc = s.pc := by
  rw [wake_pc, ← h, Function.update_eq_self]

theorem placed_resumeGeneration {g : Nat} {w : Wake Llm.Item} (h : Others none s)
    (hpc : s.pc (.generation g) = none) (ht : s.resumeGeneration cfg g w = some t) : Placed t := by
  obtain ⟨⟨llm, next⟩, hresume, rfl⟩ := Option.map_eq_some_iff.mp ht
  obtain ⟨pc, cancelling, htask, -, rfl, rfl⟩ := Llm.Consumer.resume_eq_some hresume
  have hg : g < s.llm.count := by
    by_contra hcon
    have hdone := h.generations (g := g) (by omega)
    rw [hdone] at htask
    cases htask
  have hseen : Others (some (.generation g)) (s.tokenSeen g w) := by
    have hrun := h.enterAs hpc
    unfold Session.tokenSeen
    split
    · split
      · exact hrun.congr rfl rfl rfl rfl rfl rfl (fun _ => rfl) (fun _ => rfl)
      · exact hrun
    · exact hrun
  have hkeep : (s.tokenSeen g w).pc = s.pc ∧ (s.tokenSeen g w).lock = s.lock ∧ (s.tokenSeen g w).llm = s.llm := by
    unfold Session.tokenSeen
    split
    · split <;> exact ⟨rfl, rfl, rfl⟩
    · exact ⟨rfl, rfl, rfl⟩
  generalize s.tokenSeen g w = s' at hseen hkeep ⊢
  obtain ⟨hpc', hlock, hllm⟩ := hkeep
  refine placed_generationGoesOn ?_ ?_ ?_ (fun heq => await_not_inCallback heq)
  · refine hseen.congr ?_ rfl rfl rfl ?_ rfl (fun g' => ?_) (fun _ => rfl)
    · rw [wake_pc_of_idle]
      exact (congrFun hpc' _).trans hpc
    · simp [hllm]
    · rw [wake_llm_task, hllm]
  · simpa [hlock] using h.not_mine hpc
  · simpa using hg

theorem placed_resumeReply {r : Nat} {w : Wake Tts.Item} (h : Others none s) (hpc : s.pc (.reply r) = none)
    (ht : s.resumeReply r w = some t) : Placed t := by
  obtain ⟨⟨tts, calls⟩, hresume, rfl⟩ := Option.map_eq_some_iff.mp ht
  obtain ⟨pc, cancelling, htask, -, rfl, -⟩ := Tts.Consumer.resume_eq_some hresume
  have hr : r < s.tts.count := by
    by_contra hcon
    have hdone := h.replies (r := r) (by omega)
    rw [hdone] at htask
    cases htask
  exact placed_replyArrives ((h.enterAs hpc).setReply hr _ _ _) (h.not_mine hpc)

theorem Others.placed (h : Others none s) (hrunning : s.running = none) : Placed s := by
  unfold Placed
  rw [hrunning]
  exact h

theorem processFrame_eq (s : Session) (frame : Bytes) : ∃ queue, s.processFrame frame = { s with queue } := by
  unfold Session.processFrame
  split
  · exact ⟨_, rfl⟩
  · exact ⟨s.queue, rfl⟩

theorem Others.twilio (h : Others none s) (hpc : s.pc .twilio = none) : Acts .twilio false s :=
  ⟨h.enterAs hpc, by simpa using h.not_mine hpc, rfl, rfl⟩

/-- **Every step keeps the tasks at their places.** -/
theorem Placed.of_step (h : Placed s) (ht : step cfg s l = some t) : Placed t := by
  unfold Placed at h
  unfold step at ht
  split at ht
  · rename_i me p hrunning
    rw [hrunning] at h
    cases ht
    exact placed_advance h.1 h.2
  · rename_i me w hrunning
    rw [hrunning] at h
    split at ht
    · rename_i a ha
      split at ht
      · rename_i henabled
        cases ht
        rw [Bool.and_eq_true] at henabled
        exact placed_resume (Others.wake h ha) (h.fits ha) henabled.2 wake_lock
      · cases ht
    · cases ht
  · rename_i g w hrunning
    rw [hrunning] at h
    split at ht
    · rename_i hpc
      exact placed_resumeGeneration h hpc ht
    · cases ht
  · rename_i r w hrunning
    rw [hrunning] at h
    split at ht
    · rename_i hpc
      exact placed_resumeReply h hpc ht
    · cases ht
  · rename_i hrunning
    rw [hrunning] at h
    split at ht
    · rename_i frame frames _
      cases ht
      obtain ⟨queue, hqueue⟩ := processFrame_eq { s with frames } frame
      rw [hqueue]
      refine Others.placed ?_ hrunning
      exact h.congr rfl rfl rfl rfl rfl rfl (fun _ => rfl) (fun _ => rfl)
    · cases ht
  · rename_i ev hrunning
    rw [hrunning] at h
    split at ht
    · rename_i hpc
      cases ht
      simp only [Bool.and_eq_true, decide_eq_true_eq] at hpc
      exact placed_transcriptCallback (Others.wake h hpc.1) rfl rfl ev
    · cases ht
  · rename_i bytes hrunning
    rw [hrunning] at h
    split at ht
    · rename_i hpc
      cases ht
      split
      · exact h.placed hrunning
      · exact (Others.twilio h hpc).goto rfl rfl
    · cases ht
  · rename_i hrunning
    rw [hrunning] at h
    split at ht
    · rename_i hpc
      cases ht
      exact (Others.twilio h hpc).goto rfl rfl
    · cases ht
  · cases ht

theorem others_started : Others none Session.started where
  idle hu := by cases hu
  fits {u a} ha := by
    cases u <;> cases ha <;> rfl
  held {u} _ := by
    cases u <;> simp [Session.started, Lock.holder, Await.holds]
  generation _ := rfl
  reply _ := rfl
  made {u a} ha := by
    cases u <;> cases ha <;> rfl
  generations _ := rfl
  replies _ := rfl

theorem placed_started : Placed Session.started := others_started.placed rfl

/-- The tasks of every reachable state are at their places. -/
theorem Placed.of_run {ok : Session → Label → Prop} {ls : List Label} (h : Run (step cfg) ok Session.started ls t) :
    Placed t :=
  h.invariant placed_started (fun hs _ ht => hs.of_step ht)

end Steps

end Voxera.Call
