import Voxera.EventLoop.Run
import Voxera.TtsConsumer
import Mathlib.Algebra.Order.Field.Rat
import Mathlib.Tactic.Linarith

/-!
# The pacing of a reply

`_run` on a clock: a step of the reply happens at a time that is not before the last one, and a sleep
does not return before the time it was asked for. Time is exact.

* `Paced.step` : `Reply.resume` with `_playback_cursor`, `now` and the sleeps;
* `Mark` : what the pacing is judged by, each with its time; `Paced.trace` keeps the marks and the code reads none;
* `playedBy` : when a client that plays the frames back to back has played them all.
-/

namespace Voxera.Tts

open EventLoop

/-- The settings of the consumer that the pacing reads. -/
structure PacingConfig where
  sampleRate : ℤ
  maxLeadSeconds : ℚ

/-- `self._max_lead` -/
def PacingConfig.maxLead (cfg : PacingConfig) : ℚ := max 0 cfg.maxLeadSeconds

/-- `pcm16_duration_seconds` -/
def pcm16DurationSeconds (numBytes : Nat) (sampleRate : ℤ) : ℚ :=
  if sampleRate ≤ 0 then 0 else ((numBytes / 2 : Nat) : ℚ) / sampleRate

def PacingConfig.duration (cfg : PacingConfig) (frame : Bytes) : ℚ := pcm16DurationSeconds frame.length cfg.sampleRate

inductive Mark where
  /-- A frame is handed to `send_bytes`; `now` is the time that `_run` has read for it. -/
  | frame (now : ℚ) (bytes : Bytes)
  /-- `asyncio.sleep(seconds)`, called at `time`; the last one of a reply is not a `pacing` sleep. -/
  | sleep (pacing : Bool) (time seconds : ℚ)
  /-- `tts_end` is sent. -/
  | ttsEnd (time : ℚ)
  deriving DecidableEq, Repr

/-- One reply on a clock. -/
structure Paced where
  reply : Reply
  task : Coroutine (Pc Unit) := .await .created
  /-- The time of the last step. -/
  clock : ℚ
  /-- `self._playback_cursor` -/
  cursor : ℚ := 0
  /-- The local variable `now`. -/
  now : ℚ := 0
  /-- No sleep returns before this time. -/
  due : ℚ := 0
  trace : List Mark := []

/-- What can happen. -/
inductive PacedLabel where
  /-- The task runs on at `time`. -/
  | wake (w : Wake Item) (time : ℚ)
  /-- `speak` and `finish` put an item on the queue. -/
  | put (item : Option Text)
  /-- `task.cancel()` -/
  | cancel

namespace Paced

/-- `begin`: `_playback_cursor` is set to 0 and the task created. -/
def openReply (utteranceId : Text) (clock : ℚ) : Paced := { reply := { utteranceId }, clock }

/-- `_playback_cursor = max(...) + pcm16_duration_seconds(...)` and the sleep after it. -/
def pace (cfg : PacingConfig) (frame : Bytes) (time : ℚ) (p : Paced) : Paced :=
  let cursor := max p.cursor p.now + cfg.duration frame
  let lead := cursor - time
  if lead > cfg.maxLead then
    { p with cursor, due := time + (lead - cfg.maxLead), trace := p.trace ++ [.sleep true time (lead - cfg.maxLead)] }
  else { p with cursor }

/-- The sleep when everything is sent. -/
def drain (time : ℚ) (p : Paced) : Paced :=
  let remaining := p.cursor - time
  if remaining > 0 then
    { p with due := time + remaining, trace := p.trace ++ [.sleep false time remaining] }
  else p

/-- What `_run` does with the clock between the suspension points `pc` and `next`. -/
def advance (cfg : PacingConfig) (time : ℚ) (p : Paced) : Pc Unit → Option (Pc Unit) → Paced
  | .engineNext, some (.sendStart _) => { p with now := time, cursor := time }
  | .engineNext, some (.sendBytes frame _) => { p with now := time, trace := p.trace ++ [.frame time frame] }
  | .sendStart _, some (.sendBytes frame _) => { p with trace := p.trace ++ [.frame p.now frame] }
  | .sendBytes frame _, some .pacing => p.pace cfg frame time
  | _, some .drain => p.drain time
  | _, some .sendEnd => { p with trace := p.trace ++ [.ttsEnd time] }
  | _, _ => p

/-- The awaits that can come back this way at this time. -/
def enabled (p : Paced) (pc : Pc Unit) (cancelling : Bool) (w : Wake Item) (time : ℚ) : Bool :=
  ({ reply := fun _ => p.reply } : Consumer Unit).enabled 0 pc cancelling w && p.clock ≤ time &&
    (w = .cancelled || p.due ≤ time)

/-- The reply, its clock apart, at the suspension point after `pc`. -/
def woken (p : Paced) (pc : Pc Unit) (w : Wake Item) (time : ℚ) : Paced :=
  let (reply, next) := p.reply.resume pc w
  { p with reply, task := next.elim .done .await, clock := time, due := time }

/-- `_run` from the suspension point `pc` to the next one. -/
def resume (cfg : PacingConfig) (p : Paced) (pc : Pc Unit) (w : Wake Item) (time : ℚ) : Paced :=
  (p.woken pc w time).advance cfg time pc (p.reply.resume pc w).2

def step (cfg : PacingConfig) (p : Paced) : PacedLabel → Option Paced
  | .wake w time =>
    match p.task with
    | .done => none
    | .suspended pc cancelling => if p.enabled pc cancelling w time then some (p.resume cfg pc w time) else none
  | .put item => some { p with reply := { p.reply with queue := p.reply.queue ++ [item] } }
  | .cancel => some { p with task := p.task.cancel }

end Paced

/-- The client gets a frame at `now`: it plays it once it has played what it had. -/
def receive (cfg : PacingConfig) (played : Option ℚ) : Mark → Option ℚ
  | .frame now bytes => some (max (played.getD now) now + cfg.duration bytes)
  | _ => played

/-- When the client has played all the frames it got; `none` as long as it got none. -/
def playedBy (cfg : PacingConfig) (trace : List Mark) : Option ℚ := trace.foldl (receive cfg) none

/-- What the pacing promises of the marks. -/
structure WellPaced (cfg : PacingConfig) (trace : List Mark) : Prop where
  /-- When a frame is sent, what the client has not played of the ones before lasts `max_lead` at most. -/
  lead : ∀ front now bytes back, trace = front ++ .frame now bytes :: back →
    ∀ P ∈ playedBy cfg front, P - now ≤ cfg.maxLead
  /-- So the client never holds more than `max_lead` and one frame. -/
  unplayed : ∀ front now bytes back, trace = front ++ .frame now bytes :: back →
    ∀ P ∈ playedBy cfg (front ++ [.frame now bytes]), ∀ t, now ≤ t → P - t ≤ cfg.maxLead + cfg.duration bytes
  /-- `tts_end` is sent when everything has been played. -/
  ttsEnd : ∀ front time back, trace = front ++ .ttsEnd time :: back → ∃ P ∈ playedBy cfg front, P ≤ time
  /-- No sleep is asked to last until after the client has run dry. -/
  sleep : ∀ front pacing time seconds back, trace = front ++ .sleep pacing time seconds :: back →
    ∃ P ∈ playedBy cfg front, time + seconds ≤ P

section Marks

variable {cfg : PacingConfig} {trace : List Mark} {played : Option ℚ} {m : Mark}

theorem PacingConfig.maxLead_nonneg (cfg : PacingConfig) : 0 ≤ cfg.maxLead := le_max_left 0 _

theorem playedBy_append (cfg : PacingConfig) (trace : List Mark) (m : Mark) :
    playedBy cfg (trace ++ [m]) = receive cfg (playedBy cfg trace) m := by
  unfold playedBy
  rw [List.foldl_append]
  rfl

/-- A mark is as the pacing promises, after the marks that leave the client with `played`. -/
def Mark.Fine (cfg : PacingConfig) (played : Option ℚ) : Mark → Prop
  | .frame now _ => ∀ P ∈ played, P - now ≤ cfg.maxLead
  | .sleep _ time seconds => ∃ P ∈ played, time + seconds ≤ P
  | .ttsEnd time => ∃ P ∈ played, P ≤ time

def AllFine (cfg : PacingConfig) (trace : List Mark) : Prop :=
  ∀ front m back, trace = front ++ m :: back → m.Fine cfg (playedBy cfg front)

theorem AllFine.append (h : AllFine cfg trace) (hm : m.Fine cfg (playedBy cfg trace)) : AllFine cfg (trace ++ [m]) := by
  intro front m' back heq
  rcases List.eq_nil_or_concat back with rfl | ⟨back', last, rfl⟩
  · obtain ⟨rfl, hlast⟩ := List.append_inj' heq rfl
    rw [List.singleton_inj] at hlast
    exact hlast ▸ hm
  · rw [List.concat_eq_append, ← List.cons_append, ← List.append_assoc] at heq
    obtain ⟨htrace, -⟩ := List.append_inj' heq rfl
    exact h front m' back' htrace

theorem AllFine.wellPaced (h : AllFine cfg trace) : WellPaced cfg trace where
  lead front now bytes back heq := h front (.frame now bytes) back heq
  unplayed front now bytes back heq := by
    intro P hP t ht
    have hlead := h front (.frame now bytes) back heq
    have hnonneg := cfg.maxLead_nonneg
    rw [playedBy_append, receive, Option.mem_some_iff] at hP
    subst hP
    have hmax : max ((playedBy cfg front).getD now) now ≤ now + cfg.maxLead := by
      apply max_le
      · cases hplayed : playedBy cfg front with
        | none =>
            show now ≤ now + cfg.maxLead
            linarith
        | some P =>
            have hP := hlead P hplayed
            show P ≤ now + cfg.maxLead
            linarith
      · linarith
    linarith
  ttsEnd front time back heq := h front (.ttsEnd time) back heq
  sleep front pacing time seconds back heq := h front (.sleep pacing time seconds) back heq

end Marks

/-! ## The cursor is the client's -/

namespace Paced

variable {cfg : PacingConfig} {p p' : Paced} {pc : Pc Unit} {w : Wake Item} {time : ℚ}

/-- The cursor is the end of what the client got. -/
def Tied (cfg : PacingConfig) (p : Paced) : Prop :=
  playedBy cfg p.trace = if p.reply.frames = 0 then none else some p.cursor

/-- The client has at most `max_lead` left at `time`. -/
def Ahead (cfg : PacingConfig) (p : Paced) (time : ℚ) : Prop := ∀ P ∈ playedBy cfg p.trace, P - time ≤ cfg.maxLead

/-- What holds of a reply that is suspended at `pc`. -/
def At (cfg : PacingConfig) (p : Paced) : Pc Unit → Prop
  | .created | .queueGet | .engineNext => p.Tied cfg ∧ p.Ahead cfg p.clock
  | .sendStart _ => playedBy cfg p.trace = none ∧ p.cursor = p.now
  -- The frame is on its way and not in the cursor yet.
  | .sendBytes frame _ => playedBy cfg p.trace = some (max p.cursor p.now + cfg.duration frame)
  | .pacing => p.Tied cfg ∧ p.Ahead cfg p.due
  | .drain => playedBy cfg p.trace = some p.cursor ∧ p.cursor ≤ p.due
  | _ => True

structure Invariant (cfg : PacingConfig) (p : Paced) : Prop where
  fine : AllFine cfg p.trace
  pc : ∀ pc ∈ p.task.pc?, p.At cfg pc

theorem Ahead.mono (h : p.Ahead cfg time) {time' : ℚ} (hle : time ≤ time') : p.Ahead cfg time' := by
  intro P hP
  have hlead := h P hP
  linarith

/-- `q` is as its marks promise, and as a reply that suspends at `next`. -/
def Arrives (cfg : PacingConfig) (q : Paced) (next : Option (Pc Unit)) : Prop :=
  AllFine cfg q.trace ∧ ∀ pc ∈ next, q.At cfg pc

theorem pace_task (p : Paced) (frame : Bytes) (time : ℚ) : (p.pace cfg frame time).task = p.task := by
  unfold pace
  dsimp only
  split <;> rfl

theorem drain_task (p : Paced) (time : ℚ) : (p.drain time).task = p.task := by
  unfold drain
  dsimp only
  split <;> rfl

theorem advance_task (p : Paced) (pc : Pc Unit) (next : Option (Pc Unit)) (time : ℚ) :
    (p.advance cfg time pc next).task = p.task := by
  unfold advance
  split
  · rfl
  · rfl
  · rfl
  · exact pace_task _ _ _
  · exact drain_task _ _
  · rfl
  · rfl

/-- The frame that was on its way is in the cursor now, and the sleep brings the lead down to `max_lead`. -/
theorem arrives_pace (hfine : AllFine cfg p.trace) {frame : Bytes}
    (hplayed : playedBy cfg p.trace = some (max p.cursor p.now + cfg.duration frame)) (hframes : p.reply.frames ≠ 0)
    (hdue : p.due = time) : (p.pace cfg frame time).Arrives cfg (some .pacing) := by
  have hnonneg := cfg.maxLead_nonneg
  unfold pace
  dsimp only
  split
  · rename_i hlead
    have hsleep : playedBy cfg (p.trace ++ [.sleep true time (max p.cursor p.now + cfg.duration frame - time - cfg.maxLead)]) =
        some (max p.cursor p.now + cfg.duration frame) := by
      rw [playedBy_append]
      exact hplayed
    refine ⟨hfine.append ⟨_, hplayed, by linarith⟩, ?_⟩
    intro pc hpc
    cases hpc
    refine ⟨hsleep.trans (if_neg hframes).symm, ?_⟩
    intro P hP
    rw [hsleep, Option.mem_some_iff] at hP
    subst hP
    linarith
  · rename_i hlead
    refine ⟨hfine, ?_⟩
    intro pc hpc
    cases hpc
    refine ⟨hplayed.trans (if_neg hframes).symm, ?_⟩
    intro P hP
    rw [hplayed, Option.mem_some_iff] at hP
    subst hP
    show _ - p.due ≤ _
    rw [hdue]
    linarith

theorem arrives_drain (hfine : AllFine cfg p.trace) (hplayed : playedBy cfg p.trace = some p.cursor) (hdue : p.due = time) :
    (p.drain time).Arrives cfg (some .drain) := by
  unfold drain
  dsimp only
  split
  · refine ⟨hfine.append ⟨_, hplayed, by linarith⟩, ?_⟩
    intro pc hpc
    cases hpc
    refine ⟨(playedBy_append cfg p.trace _).trans hplayed, ?_⟩
    show p.cursor ≤ time + (p.cursor - time)
    linarith
  · refine ⟨hfine, ?_⟩
    intro pc hpc
    cases hpc
    refine ⟨hplayed, ?_⟩
    rw [hdue]
    linarith

/-- Out of the `try` block no frame is sent any more. -/
theorem arrives_cleanup (hfine : AllFine cfg p.trace) {next : Option (Pc Unit)} (hnext : ∀ pc' ∈ next, pc'.cleanup = true)
    (pc : Pc Unit) (time : ℚ) : (p.advance cfg time pc next).Arrives cfg next := by
  cases next with
  | none =>
      refine ⟨?_, fun pc' hpc' => by cases hpc'⟩
      cases pc <;> exact hfine
  | some pc' =>
      have hpc' := hnext pc' rfl
      cases pc' with
      | sendError | sendMetrics | playbackEnd =>
          refine ⟨?_, fun _ h => by cases h; trivial⟩
          cases pc <;> exact hfine
      | _ => cases hpc'

/-- `queue.get()` and what follows it. -/
theorem arrives_getNext (hfine : AllFine cfg p.trace) (htied : p.Tied cfg) (hahead : p.Ahead cfg time)
    (hpc : pc = .created ∨ pc = .queueGet ∨ pc = .engineNext) (task : Coroutine (Pc Unit)) :
    (({ p with reply := (@Reply.getNext Unit p.reply).1, task, clock := time, due := time } : Paced).advance cfg time pc
      (@Reply.getNext Unit p.reply).2).Arrives cfg (@Reply.getNext Unit p.reply).2 := by
  unfold Reply.getNext
  split
  · rcases hpc with rfl | rfl | rfl <;> exact ⟨hfine, fun _ h => by cases h; exact ⟨htied, hahead⟩⟩
  · rcases hpc with rfl | rfl | rfl <;> exact ⟨hfine, fun _ h => by cases h; exact ⟨htied, hahead⟩⟩
  · by_cases hframes : p.reply.frames = 0
    · rw [if_neg (not_not.mpr hframes)]
      refine arrives_cleanup (p := { p with reply := _, task, clock := time, due := time }) hfine ?_ pc time
      intro pc' hpc'
      cases hpc'
      rfl
    · have hplayed : playedBy cfg p.trace = some p.cursor := htied.trans (if_neg hframes)
      rw [if_pos hframes]
      rcases hpc with rfl | rfl | rfl <;> exact arrives_drain hfine hplayed rfl

/-- A step of the task. -/
theorem arrives_resume (hfine : AllFine cfg p.trace) (hat : p.At cfg pc) {cancelling : Bool}
    (henabled : p.enabled pc cancelling w time = true) :
    (p.resume cfg pc w time).Arrives cfg (p.reply.resume pc w).2 := by
  simp only [enabled, Bool.and_eq_true, Bool.or_eq_true, decide_eq_true_eq] at henabled
  obtain ⟨⟨-, hclock⟩, hdue⟩ := henabled
  cases w with
  | cancelled =>
      exact arrives_cleanup (p := p.woken pc _ time) hfine (fun _ h => Reply.resume_cleanup p.reply (Or.inr rfl) h) pc time
  | raised =>
      refine arrives_cleanup (p := p.woken pc _ time) hfine ?_ pc time
      intro pc' hpc'
      cases pc <;> cases hpc' <;> rfl
  | ok item =>
      have hdue : p.due ≤ time := by simpa using hdue
      cases pc with
      | created => exact arrives_getNext hfine hat.1 (hat.2.mono hclock) (Or.inl rfl) _
      | queueGet => exact arrives_getNext hfine hat.1 (hat.2.mono hclock) (Or.inr (Or.inl rfl)) _
      | engineNext =>
          have hahead := hat.2.mono hclock
          cases item with
          | none => exact arrives_getNext hfine hat.1 hahead (Or.inr (Or.inr rfl)) _
          | frame bytes =>
              by_cases hbytes : bytes = []
              · have hskip : p.reply.resume (.engineNext : Pc Unit) (.ok (.frame bytes)) = (p.reply, some .engineNext) := by
                  simp only [Reply.resume, if_pos hbytes]
                unfold resume woken
                rw [hskip]
                exact ⟨hfine, fun _ h => by cases h; exact ⟨hat.1, hahead⟩⟩
              by_cases hframes : p.reply.frames = 0
              · have hstart : p.reply.resume (.engineNext : Pc Unit) (.ok (.frame bytes)) =
                    (p.reply, some (.sendStart bytes)) := by
                  simp only [Reply.resume, if_neg hbytes, if_pos hframes]
                unfold resume woken
                rw [hstart]
                exact ⟨hfine, fun _ h => by cases h; exact ⟨hat.1.trans (if_pos hframes), rfl⟩⟩
              · have hsend : p.reply.resume (.engineNext : Pc Unit) (.ok (.frame bytes)) =
                    (p.reply, some (.sendBytes bytes ())) := by
                  simp only [Reply.resume, if_neg hbytes, if_neg hframes]
                have hplayed : playedBy cfg p.trace = some p.cursor := hat.1.trans (if_neg hframes)
                unfold resume woken
                rw [hsend]
                refine ⟨hfine.append hahead, fun _ h => ?_⟩
                cases h
                show playedBy cfg (p.trace ++ [.frame time bytes]) = some (max p.cursor time + cfg.duration bytes)
                rw [playedBy_append, hplayed]
                rfl
      | sendStart frame =>
          obtain ⟨hplayed, hcursor⟩ := hat
          have hfirst : Mark.Fine cfg (playedBy cfg p.trace) (.frame p.now frame) := by
            intro P hP
            rw [hplayed] at hP
            cases hP
          refine ⟨hfine.append hfirst, fun _ h => ?_⟩
          cases h
          show playedBy cfg (p.trace ++ [.frame p.now frame]) = some (max p.cursor p.now + cfg.duration frame)
          rw [playedBy_append, hplayed, hcursor]
          rfl
      | sendBytes frame inner => exact arrives_pace (p := p.woken _ (.ok item) time) hfine hat (Nat.succ_ne_zero _) rfl
      | pacing => exact ⟨hfine, fun _ h => by cases h; exact ⟨hat.1, hat.2.mono hdue⟩⟩
      | drain =>
          refine ⟨hfine.append ⟨_, hat.1, hat.2.trans hdue⟩, fun _ h => ?_⟩
          cases h
          trivial
      | sendEnd | sendError | sendMetrics | playbackEnd =>
          refine arrives_cleanup (p := p.woken _ (.ok item) time) hfine ?_ _ time
          intro pc' hpc'
          cases hpc' <;> rfl

theorem Invariant.step {l : PacedLabel} (h : p.Invariant cfg) (hp : p.step cfg l = some p') : p'.Invariant cfg := by
  cases l with
  | put item =>
      cases hp
      exact ⟨h.fine, fun pc hpc => by cases pc <;> exact h.pc _ hpc⟩
  | cancel =>
      cases hp
      refine ⟨h.fine, fun pc hpc => ?_⟩
      have hat := h.pc pc ((Coroutine.pc?_cancel p.task).symm.trans hpc)
      cases pc <;> exact hat
  | wake w time =>
      simp only [Paced.step] at hp
      split at hp
      · cases hp
      · rename_i pc cancelling htask
        obtain ⟨henabled, rfl⟩ : p.enabled pc cancelling w time = true ∧ p.resume cfg pc w time = p' := by simpa using hp
        obtain ⟨hfine, hat⟩ := arrives_resume h.fine (h.pc pc (by rw [htask]; rfl)) henabled
        refine ⟨hfine, fun pc' hpc' => hat pc' ?_⟩
        have hnext : (p.resume cfg pc w time).task = (p.reply.resume pc w).2.elim .done .await := advance_task _ _ _ _
        rw [hnext] at hpc'
        cases hresume : (p.reply.resume pc w).2 with
        | none =>
            rw [hresume] at hpc'
            cases hpc'
        | some next =>
            rw [hresume] at hpc'
            exact hpc'

theorem invariant_openReply (cfg : PacingConfig) (utteranceId : Text) (clock : ℚ) :
    (openReply utteranceId clock).Invariant cfg where
  fine front m back heq := absurd heq (by simp [openReply])
  pc pc hpc := by
    cases hpc
    exact ⟨rfl, fun P hP => by cases hP⟩

/-- A reply is paced, whatever its frames are and however long its awaits take. -/
theorem run_wellPaced (cfg : PacingConfig) {utteranceId : Text} {clock : ℚ} {ls : List PacedLabel}
    (h : Run (step cfg) (fun _ _ => True) (openReply utteranceId clock) ls p) : WellPaced cfg p.trace :=
  (h.invariant (invariant_openReply cfg utteranceId clock) (fun hp _ hstep => hp.step hstep)).fine.wellPaced

/-- Two frames of half a second, which the engine has at once: the second one waits until a quarter of a second is left. -/
theorem run_wellPaced_twoFrames :
    let cfg : PacingConfig := { sampleRate := 100, maxLeadSeconds := 1 / 4 }
    let frame : Bytes := List.replicate 100 0
    ∃ ls p, Run (step cfg) (fun _ _ => True) (openReply [] 0) ls p ∧
      p.trace = [.frame 1 frame, .sleep true 1 (1 / 4), .frame (5 / 4) frame, .sleep true (5 / 4) (1 / 2),
        .sleep false (7 / 4) (1 / 4), .ttsEnd 2] ∧ WellPaced cfg p.trace := by
  intro cfg frame
  let ls : List PacedLabel := [.put (some []), .put none, .wake (.ok .none) 1, .wake (.ok (.frame frame)) 1, .wake (.ok .none) 1,
    .wake (.ok .none) 1, .wake (.ok .none) (5 / 4), .wake (.ok (.frame frame)) (5 / 4), .wake (.ok .none) (5 / 4),
    .wake (.ok .none) (7 / 4), .wake (.ok .none) (7 / 4), .wake (.ok .none) 2]
  have hexec : (exec (step cfg) (fun _ _ => True) (openReply [] 0) ls).any (fun p => p.trace =
      [.frame 1 frame, .sleep true 1 (1 / 4), .frame (5 / 4) frame, .sleep true (5 / 4) (1 / 2),
        .sleep false (7 / 4) (1 / 4), .ttsEnd 2]) = true := by decide +kernel
  obtain ⟨p, hrun, htrace⟩ := Run.exists_of_exec hexec
  exact ⟨ls, p, hrun, of_decide_eq_true htrace, run_wellPaced cfg hrun⟩

end Paced

end Voxera.Tts
