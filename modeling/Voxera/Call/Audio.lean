import Voxera.Call.Moves
import Voxera.Framing
import Voxera.Numbers
import Voxera.Telephony.AudioConvert

/-!
# The caller's audio on its way to the recogniser

`feed_mulaw` converts a payload, appends it to the buffer under the lock, and creates one `process_frame` task for
each whole frame at the front of the buffer. `Line` is a call with a record of these; the library's `cut` is what
the loop of `feed_mulaw` does to the buffer, and it does not see where the stream was cut into payloads.

* `normalizePcm16`, `toPcm` : the conversion, which never raises (`normalizePcm16_convertTwilioAudio`);
* `Line`, `Line.step` : a call, and the record;
* `Line.Kept` : the buffer and the frames are the stream of what was accepted (`Kept.step`).
-/

namespace Voxera.Call

open EventLoop Framing
open Telephony (Audioop convertTwilioAudio)

/-! ## The conversion -/

/-- `_pcm_rms` -/
def pcmRms (sqrt : ℚ → ℚ) (frame : Bytes) : ℚ :=
  let xs := samples frame
  if xs = [] then 0 else sqrt ((xs.map (fun x => (x * x : ℚ))).sum / xs.length)

/-- `normalize_pcm16`; `none` where `struct.unpack` raises. -/
def normalizePcm16 (sqrt : ℚ → ℚ) (frame : Bytes) (targetRms : ℚ := 3000) : Option Bytes :=
  if frame.length < 2 then some frame
  else
    let rms := pcmRms sqrt frame
    if rms ≤ 0 then some frame
    else
      let factor := min 4 (targetRms / rms)
      if 85 / 100 ≤ factor ∧ factor ≤ 115 / 100 then some frame
      else if frame.length % 2 = 1 then none
      else some ((samples frame).flatMap (fun sample => int16Bytes (max (-32768) (min 32767 (trunc (sample * factor))))))

/-- `normalize_pcm16(convert_twilio_audio(mulaw_bytes))` -/
def toPcm (audioop : Option Audioop) (sqrt : ℚ → ℚ) (mulawBytes : Bytes) : Bytes :=
  (normalizePcm16 sqrt (convertTwilioAudio audioop mulawBytes)).getD []

theorem even_resample8kTo16kPure (pcm16 : Bytes) : (Telephony.resample8kTo16kPure pcm16).length % 2 = 0 := by
  induction pcm16 using Telephony.resample8kTo16kPure.induct with
  | case1 lo hi rest ih =>
      rw [Telephony.resample8kTo16kPure]
      simp only [List.length_cons]
      omega
  | case2 data hshort =>
      rw [Telephony.resample8kTo16kPure]
      · rfl
      · exact hshort

theorem even_convertTwilioAudio (audioop : Option Audioop) (mulawBytes : Bytes) :
    (convertTwilioAudio audioop mulawBytes).length % 2 = 0 := by
  unfold convertTwilioAudio
  split
  · rfl
  · exact even_resample8kTo16kPure _

/-- `normalize_pcm16` is given whole samples, and does not raise. -/
theorem normalizePcm16_convertTwilioAudio (audioop : Option Audioop) (sqrt : ℚ → ℚ) (mulawBytes : Bytes) :
    normalizePcm16 sqrt (convertTwilioAudio audioop mulawBytes) = some (toPcm audioop sqrt mulawBytes) := by
  have heven := even_convertTwilioAudio audioop mulawBytes
  have hsome : (normalizePcm16 sqrt (convertTwilioAudio audioop mulawBytes)).isSome = true := by
    unfold normalizePcm16
    dsimp only
    split_ifs
    · rfl
    · rfl
    · rfl
    · omega
    · rfl
  obtain ⟨pcm, hpcm⟩ := Option.isSome_iff_exists.mp hsome
  rw [toPcm, hpcm]
  rfl

/-- The loop of `feed_mulaw`. -/
theorem takeFrames_eq (buffer : Bytes) : takeFrames buffer = cut pcmFrameBytes buffer := by
  have hpos : 0 < pcmFrameBytes := by decide
  induction buffer using takeFrames.induct with
  | case1 buffer hle frames rest heq ih =>
      rw [takeFrames, if_pos hle, cut_of_le hpos hle, ih]
  | case2 buffer hlt =>
      have hshort : buffer.length < pcmFrameBytes := by omega
      rw [takeFrames, if_neg hlt, cut_of_lt hshort]

/-! ## What moves do to the audio -/

/-- What `feed_mulaw` is about to append, at its places before its check. -/
def Place.feeds : Place → Option Bytes
  | .runs (.acquire (.feed pcm)) | .runs (.enter (.feed pcm)) | .awaits (.acquiring (.feed pcm)) => some pcm
  | _ => none

/-- The Twilio handler is in `stop`, past its check. -/
def Place.ends : Place → Bool
  | .runs (.acquire sec) | .runs (.enter sec) | .awaits (.acquiring sec) => !sec.ofTwilio
  | .away => false
  | _ => true

section Moves
variable {l : Label} {c c' : Core} {π : Task → Place} {me : Task} {p q : Place}

/-- `ENDED` is never left. -/
theorem Move.ended (h : Move l c π me p c' q) (hc : c.state = .ENDED) : c'.state = .ENDED := by
  cases h with
  | turnAccepted hst =>
      rw [hc] at hst
      cases hst
  | speaks hst =>
      rw [hc] at hst
      cases hst
  | turnStarted hst | playbackEnded hst | fed hst => exact absurd hc hst
  | bargedIn | bargedInAfter | recovered => simp [hc, State.apply, State.answering]
  | ends => rfl
  | clears _ hc' => rcases hc' with rfl | rfl <;> exact hc
  | returns hc' => rcases hc' with ⟨-, rfl⟩ | ⟨_, _, -, rfl⟩ <;> exact hc
  | _ => exact hc

/-- The caller's audio is moved by `feed_mulaw` and dropped at the end of `stop`. -/
theorem Move.audio (h : Move l c π me p c' q) :
    c'.frames = c.frames ∧ c'.pcmBuffer = c.pcmBuffer ∧ (∀ pcm, p = .runs (.enter (.feed pcm)) → c.state = .ENDED) ∨
      (∃ pcm, me = .twilio ∧ p = .runs (.enter (.feed pcm)) ∧ q = .away ∧ c.state ≠ .ENDED ∧
        c'.frames = c.frames ++ (takeFrames (c.pcmBuffer ++ pcm)).1 ∧
        c'.pcmBuffer = (takeFrames (c.pcmBuffer ++ pcm)).2 ∧ c'.prompted = false ∧ c'.state ≠ .LISTENING) ∨
      me = .twilio ∧ p = .awaits .engineClosing ∧ c'.frames = c.frames ∧ c'.pcmBuffer = [] := by
  cases h with
  | fed hst =>
      refine Or.inr (Or.inl ⟨_, rfl, rfl, rfl, hst, rfl, rfl, rfl, ?_⟩)
      show (if c.state = .CONNECTED ∨ c.state = .LISTENING then c.state.apply .STREAMING else c.state) ≠ .LISTENING
      cases c.state <;> decide
  | tearsDown | tearsDownLoop => exact Or.inr (Or.inr ⟨rfl, rfl, rfl, rfl⟩)
  | clears _ hc' => rcases hc' with rfl | rfl <;> exact Or.inl ⟨rfl, rfl, by simp⟩
  | returns hc' => rcases hc' with ⟨-, rfl⟩ | ⟨_, _, -, rfl⟩ <;> exact Or.inl ⟨rfl, rfl, by simp⟩
  | edge h =>
      refine Or.inl ⟨rfl, rfl, ?_⟩
      rintro pcm rfl
      cases h with
      | plain hp => cases hp
      | declined hst => simpa [Section.declines] using hst
      | stops hst => cases hst
  | @calls _ _ sec hp =>
      refine Or.inl ⟨rfl, rfl, ?_⟩
      rintro pcm rfl
      cases sec <;> cases hp
  | generates hp =>
      refine Or.inl ⟨rfl, rfl, ?_⟩
      rintro pcm rfl
      rcases hp with hp | hp | ⟨_, hp, -⟩ <;> cases hp
  | dequeues hp | endsLoop hp | marksEnd hp =>
      refine Or.inl ⟨rfl, rfl, ?_⟩
      rintro pcm rfl
      cases hp
  | reply _ h =>
      refine Or.inl ⟨rfl, rfl, ?_⟩
      rintro pcm rfl
      cases h with
      | interrupted _ hp => rcases hp with hp | ⟨_, hp, -⟩ <;> cases hp
  | _ => exact Or.inl ⟨rfl, rfl, by simp⟩

/-- Nobody asks the Twilio handler to cancel. -/
theorem Move.not_asked (h : Move l c π me p c' q) (hc : c.asked .twilio = false) : c'.asked .twilio = false := by
  cases h with
  | clears _ hc' => rcases hc' with rfl | rfl <;> exact hc
  | returns hc' => rcases hc' with ⟨-, rfl⟩ | ⟨_, _, -, rfl⟩ <;> exact hc
  | unwinds =>
      by_cases hme : me = .twilio
      · rw [hme]
        simp
      · have hkeep : Function.update c.asked me false .twilio = c.asked .twilio :=
          Function.update_of_ne (Ne.symm hme) _ _
        exact hkeep.trans hc
  | asks hu =>
      rcases hu with rfl | rfl <;> exact hc
  | _ => exact hc

theorem Place.feeds_of_plain (h : p.plain = true) : p.feeds = none := by
  unfold Place.feeds
  split <;> first | rfl | cases h

/-- The Twilio handler is in a section of `feed_mulaw` because it was called with a payload. -/
theorem Move.feeds (h : Move l c π .twilio p c' q) (hc : c.asked .twilio = false) :
    q.feeds = p.feeds ∨ q.feeds = none ∧ (∃ pcm, p = .runs (.enter (.feed pcm))) ∨ ∃ bytes, l = .feedMulaw bytes := by
  cases h with
  | edge h =>
      cases h with
      | plain hp hq => exact Or.inl (by rw [Place.feeds_of_plain hp, Place.feeds_of_plain hq])
      | @acquires sec | @waits sec | @admitted sec => exact Or.inl (by cases sec <;> rfl)
      | @declined sec _ hst hq =>
          have hnone : q.feeds = none := by rcases hq with rfl | rfl <;> rfl
          cases sec <;> first | exact Or.inl hnone | exact Or.inr (Or.inl ⟨hnone, _, rfl⟩)
      | @stops sec _ hst => exact Or.inl (by cases sec <;> first | rfl | cases hst)
      | _ => exact Or.inl rfl
  | @calls _ _ sec hp hsec hl =>
      cases sec with
      | feed pcm => exact Or.inr (Or.inr (hl pcm rfl))
      | stop =>
          subst hp
          exact Or.inl rfl
      | bargeIn k => cases k <;> cases hsec
      | _ => cases hsec
  | fed => exact Or.inr (Or.inl ⟨rfl, _, rfl⟩)
  | hears _ ha => rcases ha with ⟨h, -⟩ | ⟨-, rfl⟩ <;> first | cases h | exact Or.inl rfl
  | loopOver ha => rcases ha with rfl | rfl <;> exact Or.inl rfl
  | marksEnd hp => exact Or.inl (by rw [Place.feeds_of_plain hp]; rfl)
  | @asks _ a b _ _ ha hb =>
      refine Or.inl ?_
      rw [Place.feeds_of_plain (p := .awaits a) ha, Place.feeds_of_plain (p := .awaits b) hb]
  | unwinds h =>
      rw [hc] at h
      cases h
  | _ => exact Or.inl rfl

theorem Place.ends_of_plain (h : p.plain = true) (hp : p ≠ .away) : p.ends = true := by
  unfold Place.ends
  split
  all_goals first | rfl | exact (hp rfl).elim | cases h

/-- The Twilio handler goes past the check of `stop` when the call has ended. -/
theorem Move.past (h : Move l c π .twilio p c' q) (hq : q.ends = true) : p.ends = true ∨ c'.state = .ENDED := by
  cases h with
  | edge h =>
      cases h with
      | plain hp _ hstart =>
          refine Or.inl (Place.ends_of_plain hp ?_)
          intro haway
          rw [hstart haway] at hq
          cases hq
      | @acquires sec | @waits sec | @admitted sec => exact Or.inl hq
      | @declined sec _ hst =>
          cases sec with
          | feed | stop => exact Or.inr (by simpa [Section.declines] using hst)
          | _ => exact Or.inl rfl
      | @stops sec _ hst => cases sec <;> first | exact Or.inl rfl | cases hst
      | _ => exact Or.inl rfl
  | @calls _ _ sec hp hsec =>
      cases sec with
      | feed | stop => cases hq
      | bargeIn k => cases k <;> cases hsec
      | _ => cases hsec
  | ends => exact Or.inr rfl
  | hears _ ha => rcases ha with ⟨h, -⟩ | ⟨-, rfl⟩ <;> first | cases h | exact Or.inl rfl
  | loopOver ha => rcases ha with rfl | rfl <;> exact Or.inl rfl
  | marksEnd hp hstart => exact Or.inl (Place.ends_of_plain hp hstart)
  | asks _ ha => exact Or.inl (Place.ends_of_plain ha (by simp))
  | fed | unwinds => cases hq
  | _ => exact Or.inl rfl

end Moves

/-! ## A call, and the record -/

/-- `feed_mulaw` is at its check, and passes it. -/
def Session.accepts (s : Session) : Bool :=
  match s.running with
  | some (.twilio, .enter (.feed _)) => s.state ≠ .ENDED
  | _ => false

structure Line where
  session : Session
  /-- The payloads that `feed_mulaw` was called with, but for empty ones. -/
  calls : List Bytes := []
  /-- The payloads that it took past its check. -/
  accepted : List Bytes := []
  /-- The frames that `process_frame` was called with. -/
  processed : List Bytes := []

namespace Line

def started : Line where
  session := .started

/-- The frames for which a `process_frame` task has been created, in order. -/
def scheduled (d : Line) : List Bytes := d.processed ++ d.session.frames

/-- What a step adds to the record. `feed_mulaw` is called again only when it has returned. -/
def note (d : Line) : Label → Line
  | .feedMulaw bytes => if bytes = [] then d else { d with calls := d.calls ++ [bytes] }
  | .processFrame => { d with processed := d.processed ++ d.session.frames.head?.toList }
  | .run => if d.session.accepts then { d with accepted := d.accepted ++ d.calls.getLast?.toList } else d
  | _ => d

def step (cfg : Config) (d : Line) (l : Label) : Option Line :=
  (Call.step cfg d.session l).map fun session => { d.note l with session }

end Line

section Steps
variable {cfg : Config} {s t : Session} {l : Label} {me : Task}

theorem accepts_iff : s.accepts = true ↔ s.state ≠ .ENDED ∧ ∃ pcm, s.running = some (.twilio, .enter (.feed pcm)) := by
  unfold Session.accepts
  split
  · next pcm hrunning => simpa using fun _ => ⟨pcm, hrunning⟩
  · next hrunning =>
      constructor
      · exact fun h => nomatch h
      · rintro ⟨-, pcm, heq⟩
        exact absurd heq (hrunning pcm)

theorem running_of_place {x : Point} (h : s.place me = .runs x) : s.running = some (me, x) := by
  unfold Session.place at h
  have hrest : s.rest me ≠ .runs x := by
    unfold Session.rest
    cases s.pc me <;> simp
  split at h
  · next u p hrunning =>
      split at h
      · next heq =>
          cases h
          rw [hrunning, heq]
      · exact absurd h hrest
  · exact absurd h hrest

theorem place_of_running {x : Point} (h : s.running = some (me, x)) : s.place me = .runs x := by
  simp [Session.place, h]

/-- While a task runs nothing else does. -/
theorem label_of_running {p : Point} (hrunning : s.running = some (me, p)) (h : step cfg s l = some t) : l = .run := by
  unfold step at h
  rw [hrunning] at h
  cases l <;> first | rfl | cases h

theorem step_run {p : Point} (hrunning : s.running = some (me, p)) : step cfg s .run = some (s.advance cfg me p) := by
  simp only [step, hrunning]

/-- The transcript callback is called. -/
theorem step_transcript {ev : TranscriptEvent} (hl : l.brings me ev) (hstep : step cfg s l = some t) :
    t = (s.wake me).transcriptCallback me ev := by
  have hrunning : s.running = none := by
    rcases hrunning : s.running with _ | ⟨u, x⟩
    · rfl
    · have hrun := label_of_running hrunning hstep
      rcases hl with rfl | ⟨-, rfl⟩ <;> cases hrun
  rcases hl with rfl | ⟨rfl, rfl⟩
  · simp only [step, hrunning] at hstep
    rcases hpc : s.pc me with _ | a
    · simp [hpc] at hstep
    · simp only [hpc, Option.ite_none_right_eq_some, Bool.and_eq_true] at hstep
      obtain ⟨⟨-, henabled⟩, ht⟩ := hstep
      cases ht
      cases a with
      | engine | finalizing => rfl
      | _ => cases henabled
  · simp only [step, hrunning, Option.ite_none_right_eq_some] at hstep
    exact (Option.some.inj hstep.2).symm

theorem not_accepts (h : step cfg s l = some t) (hl : l ≠ .run) : s.accepts = false := by
  by_contra ha
  obtain ⟨-, pcm, hrunning⟩ := accepts_iff.mp (Bool.eq_true_of_not_eq_false ha)
  exact hl (label_of_running hrunning h)

theorem step_feedMulaw {bytes : Bytes} (h : step cfg s (.feedMulaw bytes) = some t) :
    s.place .twilio = .away ∧ t = if bytes = [] then s else s.goto .twilio (.acquire (.feed (cfg.toPcm bytes))) := by
  cases hrunning : s.running with
  | some running => exact absurd (label_of_running hrunning h) (by simp)
  | none =>
      simp only [step, hrunning] at h
      split at h
      · next hpc => exact ⟨place_of_idle hrunning hpc, (Option.some.inj h).symm⟩
      · cases h

end Steps

/-! ## The invariant -/

namespace Line

/-- The payloads that `feed_mulaw` was called with are those it has taken, and the one it holds. -/
def Held (cfg : Config) (calls accepted : List Bytes) : Option Bytes → Prop
  | some pcm => ∃ bytes, calls = accepted ++ [bytes] ∧ pcm = cfg.toPcm bytes
  | none => calls = accepted

structure Kept (cfg : Config) (d : Line) : Prop where
  placed : Placed d.session
  notAsked : d.session.asked .twilio = false
  ending : (d.session.place .twilio).ends = true → d.session.state = .ENDED
  held : d.session.state ≠ .ENDED → Held cfg d.calls d.accepted (d.session.place .twilio).feeds
  stream : d.session.state ≠ .ENDED →
    cut pcmFrameBytes (d.accepted.flatMap cfg.toPcm) = (d.scheduled, d.session.pcmBuffer)
  sized : ∀ frame ∈ d.scheduled, frame.length = pcmFrameBytes
  short : d.session.pcmBuffer.length < pcmFrameBytes

theorem pcmFrameBytes_pos : 0 < pcmFrameBytes := by decide

section Invariant
variable {cfg : Config} {d : Line} {t : Session} {l : Label} {me : Task}

theorem Kept.started : Kept cfg started where
  placed := placed_started
  notAsked := rfl
  ending h := by cases h
  held _ := rfl
  stream _ := cut_of_lt pcmFrameBytes_pos
  sized _ h := nomatch h
  short := pcmFrameBytes_pos

/-- A call of `feed_mulaw`. -/
theorem Kept.call (h : Kept cfg d) {bytes : Bytes} (hstep : Call.step cfg d.session (.feedMulaw bytes) = some t) :
    Kept cfg { d.note (.feedMulaw bytes) with session := t } := by
  obtain ⟨haway, ht⟩ := step_feedMulaw hstep
  have hplaced := h.placed.of_step hstep
  by_cases hempty : bytes = []
  · rw [if_pos hempty] at ht
    simp only [note, hempty, if_true, ht]
    exact h
  · rw [if_neg hempty] at ht
    have hplace : t.place .twilio = .runs (.acquire (.feed (cfg.toPcm bytes))) := by
      rw [ht]
      simp [Session.place]
    simp only [note, hempty, if_false]
    refine ⟨hplaced, ?_, ?_, fun hstate => ?_, ?_, ?_, ?_⟩
    · rw [ht]
      exact h.notAsked
    · intro hends
      rw [hplace] at hends
      cases hends
    · have hbefore := h.held (by rw [ht] at hstate; exact hstate)
      rw [haway] at hbefore
      rw [hplace]
      exact ⟨bytes, by rw [show d.calls = d.accepted from hbefore], rfl⟩
    · rw [ht]
      exact h.stream
    · rw [ht]
      exact h.sized
    · rw [ht]
      exact h.short

/-- The oldest `process_frame` task runs. -/
theorem Kept.frame (h : Kept cfg d) {frame : Bytes} {frames : List Bytes} {queue : List (Option Bytes)}
    (hframes : d.session.frames = frame :: frames) (hplaced : Placed t)
    (hcore : t.core = { d.session.core with frames, queue }) (hplace : t.place = d.session.place) :
    Kept cfg { d.note .processFrame with session := t } := by
  have hstate : t.state = d.session.state := congrArg Core.state hcore
  have hbuffer : t.pcmBuffer = d.session.pcmBuffer := congrArg Core.pcmBuffer hcore
  have hasked : t.asked = d.session.asked := congrArg Core.asked hcore
  have hleft : t.frames = frames := congrArg Core.frames hcore
  have hscheduled : scheduled { d.note .processFrame with session := t } = d.scheduled := by
    show (d.processed ++ d.session.frames.head?.toList) ++ t.frames = d.processed ++ d.session.frames
    rw [hleft, hframes, List.append_assoc]
    rfl
  refine ⟨hplaced, ?_, ?_, ?_, ?_, ?_, ?_⟩
  · show t.asked .twilio = false
    rw [hasked]
    exact h.notAsked
  · show (t.place .twilio).ends = true → t.state = .ENDED
    rw [hplace, hstate]
    exact h.ending
  · show t.state ≠ .ENDED → Held cfg d.calls d.accepted (t.place .twilio).feeds
    rw [hplace, hstate]
    exact h.held
  · rw [hscheduled]
    show t.state ≠ .ENDED → cut pcmFrameBytes (d.accepted.flatMap cfg.toPcm) = (d.scheduled, t.pcmBuffer)
    rw [hstate, hbuffer]
    exact h.stream
  · rw [hscheduled]
    exact h.sized
  · show t.pcmBuffer.length < pcmFrameBytes
    rw [hbuffer]
    exact h.short

/-- A move other than the one that takes a payload. -/
theorem Kept.move (h : Kept cfg d) (hplaced : Placed t) {q : Place}
    (hmove : Move l d.session.core d.session.place me (d.session.place me) t.core q) (hq : t.place me = q)
    (hothers : ∀ u, u ≠ me → Stays u (d.session.place u) (t.place u)) (hl : ∀ bytes, l ≠ .feedMulaw bytes)
    (ha : d.session.accepts = false) : Kept cfg { d with session := t } := by
  have hdecline : ∀ pcm, d.session.place .twilio = .runs (.enter (.feed pcm)) → d.session.state = .ENDED := by
    intro pcm hplace
    by_contra hstate
    have haccepts := accepts_iff.mpr ⟨hstate, pcm, running_of_place hplace⟩
    rw [ha] at haccepts
    cases haccepts
  have hlive : t.state ≠ .ENDED → d.session.state ≠ .ENDED := fun hstate heq => hstate (hmove.ended heq)
  have hstay : me ≠ .twilio → t.place .twilio = d.session.place .twilio := by
    intro hme
    rcases hothers .twilio (Ne.symm hme) with heq | ⟨hspawned, -⟩
    · exact heq
    · cases hspawned
  have haudio : t.frames = d.session.frames ∧
      (t.pcmBuffer = d.session.pcmBuffer ∨ d.session.state = .ENDED ∧ t.pcmBuffer = []) := by
    rcases hmove.audio with ⟨hframes, hbuffer, -⟩ | ⟨pcm, rfl, hplace, -, hstate, -⟩ | ⟨rfl, hplace, hframes, hbuffer⟩
    · exact ⟨hframes, Or.inl hbuffer⟩
    · exact absurd (hdecline pcm hplace) hstate
    · exact ⟨hframes, Or.inr ⟨h.ending (by rw [hplace]; rfl), hbuffer⟩⟩
  obtain ⟨hframes, hbuffer⟩ := haudio
  have hscheduled : scheduled { d with session := t } = d.scheduled := congrArg (d.processed ++ ·) hframes
  refine ⟨hplaced, hmove.not_asked h.notAsked, ?_, fun hstate => ?_, fun hstate => ?_, ?_, ?_⟩
  · intro hends
    by_cases hme : me = .twilio
    · subst hme
      rw [hq] at hends
      rcases hmove.past hends with hends | hstate
      · exact hmove.ended (h.ending hends)
      · exact hstate
    · rw [hstay hme] at hends
      exact hmove.ended (h.ending hends)
  · have hbefore := h.held (hlive hstate)
    by_cases hme : me = .twilio
    · subst hme
      rw [hq]
      rcases hmove.feeds h.notAsked with heq | ⟨-, pcm, hplace⟩ | ⟨bytes, heq⟩
      · rw [heq]
        exact hbefore
      · exact absurd (hdecline pcm hplace) (hlive hstate)
      · exact absurd heq (hl bytes)
    · rw [hstay hme]
      exact hbefore
  · rw [hscheduled]
    have hkeep : t.pcmBuffer = d.session.pcmBuffer := hbuffer.resolve_right (fun hend => hlive hstate hend.1)
    show _ = (d.scheduled, t.pcmBuffer)
    rw [hkeep]
    exact h.stream (hlive hstate)
  · rw [hscheduled]
    exact h.sized
  · rcases hbuffer with heq | ⟨-, heq⟩
    · show t.pcmBuffer.length < pcmFrameBytes
      rw [heq]
      exact h.short
    · show t.pcmBuffer.length < pcmFrameBytes
      rw [heq]
      exact pcmFrameBytes_pos

/-- `feed_mulaw` takes the payload it holds: the rest of the buffer goes in front of it. -/
theorem Kept.accept (h : Kept cfg d) (hplaced : Placed t) {q : Place} (ha : d.session.accepts = true)
    (hsolo : ∀ u, u ≠ me → ∀ x, d.session.place u ≠ .runs x)
    (hmove : Move l d.session.core d.session.place me (d.session.place me) t.core q) (hq : t.place me = q) :
    Kept cfg { d with session := t, accepted := d.accepted ++ d.calls.getLast?.toList } := by
  obtain ⟨hstate, pcm, hrunning⟩ := accepts_iff.mp ha
  have hplace : d.session.place .twilio = .runs (.enter (.feed pcm)) := place_of_running hrunning
  obtain rfl : me = .twilio := by
    by_contra hme
    exact hsolo .twilio (Ne.symm hme) _ hplace
  obtain ⟨haway, hframes, hbuffer⟩ : q = .away ∧
      t.frames = d.session.frames ++ (cut pcmFrameBytes (d.session.pcmBuffer ++ pcm)).1 ∧
      t.pcmBuffer = (cut pcmFrameBytes (d.session.pcmBuffer ++ pcm)).2 := by
    rcases hmove.audio with ⟨-, -, hended⟩ | ⟨pcm', -, hplace', haway, -, hframes, hbuffer, -⟩ | ⟨-, hplace', -⟩
    · exact absurd (hended pcm hplace) hstate
    · rw [hplace] at hplace'
      cases hplace'
      rw [takeFrames_eq] at hframes hbuffer
      exact ⟨haway, hframes, hbuffer⟩
    · rw [hplace] at hplace'
      cases hplace'
  have hheld := h.held hstate
  rw [hplace] at hheld
  obtain ⟨bytes, hcalls, hpcm⟩ : ∃ bytes, d.calls = d.accepted ++ [bytes] ∧ pcm = cfg.toPcm bytes := hheld
  have haccepted : d.accepted ++ d.calls.getLast?.toList = d.calls := by
    rw [hcalls, List.getLast?_concat]
    rfl
  have hscheduled : d.processed ++ t.frames =
      d.scheduled ++ (cut pcmFrameBytes (d.session.pcmBuffer ++ pcm)).1 := by
    rw [hframes, ← List.append_assoc]
    rfl
  refine ⟨hplaced, hmove.not_asked h.notAsked, ?_, fun _ => ?_, fun _ => ?_, ?_, ?_⟩
  · intro hends
    rw [hq, haway] at hends
    cases hends
  · rw [hq, haway]
    exact haccepted.symm
  · show cut pcmFrameBytes ((d.accepted ++ d.calls.getLast?.toList).flatMap cfg.toPcm) =
      (d.processed ++ t.frames, t.pcmBuffer)
    have hstream : (d.accepted ++ d.calls.getLast?.toList).flatMap cfg.toPcm = d.accepted.flatMap cfg.toPcm ++ pcm := by
      rw [haccepted, hcalls, List.flatMap_append, List.flatMap_singleton, hpcm]
    rw [hstream, cut_append pcmFrameBytes_pos, h.stream hstate, hscheduled, hbuffer]
  · show ∀ frame ∈ d.processed ++ t.frames, frame.length = pcmFrameBytes
    rw [hscheduled]
    intro frame hframe
    rcases List.mem_append.mp hframe with hframe | hframe
    · exact h.sized frame hframe
    · exact length_of_mem_cut pcmFrameBytes_pos _ frame hframe
  · show t.pcmBuffer.length < pcmFrameBytes
    rw [hbuffer]
    exact length_cut_rest pcmFrameBytes_pos _

theorem Kept.step {e : Line} (h : Kept cfg d) (hstep : d.step cfg l = some e) : Kept cfg e := by
  obtain ⟨t, ht, rfl⟩ := Option.map_eq_some_iff.mp hstep
  have hplaced := h.placed.of_step ht
  cases Move.of_step h.placed ht with
  | nothing hl _ =>
      subst hl
      exact h.call ht
  | frame hl hframes hcore hplace =>
      subst hl
      exact h.frame hframes hplaced hcore hplace
  | move me hl hsolo hmoved =>
      obtain ⟨q, hmove, hq, hothers⟩ := hmoved
      cases l with
      | feedMulaw bytes => exact h.call ht
      | processFrame => exact absurd rfl hl
      | run =>
          cases ha : d.session.accepts with
          | true =>
              simp only [note, ha, if_true]
              exact h.accept hplaced ha hsolo hmove hq
          | false =>
              simp only [note, ha, Bool.false_eq_true, if_false]
              exact h.move hplaced hmove hq hothers (by simp) ha
      | wake | generation | reply | transcript | stop => exact h.move hplaced hmove hq hothers (by simp) (not_accepts ht (by simp))

end Invariant

/-- **Reassembly**: in every run, the frames that were scheduled have the length of a frame, the buffer holds less
than one, and until the call ends they are, one after the other, the conversion of the payloads that were taken; and
these are all payloads but, at most, the one that `feed_mulaw` holds. -/
theorem feedMulaw_reassembles (cfg : Config) (audioop : Option Audioop) (sqrt : ℚ → ℚ) {ls : List Label} {d : Line}
    (hrun : Run (step { cfg with toPcm := toPcm audioop sqrt }) (fun _ _ => True) started ls d) :
    (∀ frame ∈ d.scheduled, frame.length = pcmFrameBytes) ∧ d.session.pcmBuffer.length < pcmFrameBytes ∧
    (d.session.state ≠ .ENDED →
      d.scheduled.flatten ++ d.session.pcmBuffer = d.accepted.flatMap (toPcm audioop sqrt) ∧
      ∃ held : List Bytes, held.length ≤ 1 ∧ d.calls = d.accepted ++ held) := by
  have h : Kept { cfg with toPcm := toPcm audioop sqrt } d :=
    hrun.invariant Kept.started (fun hkept _ hstep => hkept.step hstep)
  refine ⟨h.sized, h.short, fun hstate => ⟨?_, ?_⟩⟩
  · have hcut := cut_flatten pcmFrameBytes_pos (d.accepted.flatMap (toPcm audioop sqrt))
    rw [h.stream hstate] at hcut
    exact hcut
  · have hheld := h.held hstate
    cases hfeeds : (d.session.place .twilio).feeds with
    | none =>
        rw [hfeeds] at hheld
        exact ⟨[], by simp, by rw [List.append_nil]; exact hheld⟩
    | some pcm =>
        rw [hfeeds] at hheld
        obtain ⟨bytes, hcalls, -⟩ := hheld
        exact ⟨[bytes], by simp, hcalls⟩

/-- A call in which a payload of silence is taken and its first frame is handed on. -/
theorem feedMulaw_reassembles_silence : ∃ d : Line, (d.accepted.length == 1 && d.processed.length == 1) = true ∧
    (∀ frame ∈ d.scheduled, frame.length = pcmFrameBytes) ∧ d.session.pcmBuffer.length < pcmFrameBytes ∧
    (d.session.state ≠ .ENDED →
      d.scheduled.flatten ++ d.session.pcmBuffer = d.accepted.flatMap (toPcm none id) ∧
      ∃ held : List Bytes, held.length ≤ 1 ∧ d.calls = d.accepted ++ held) := by
  obtain ⟨d, hrun, hd⟩ := Run.exists_of_exec (P := fun d : Line => d.accepted.length == 1 && d.processed.length == 1)
    (show (exec (step { toPcm := toPcm none id, toMulaw := fun _ => [] }) (fun _ _ => True) started
      [.feedMulaw (List.replicate 170 0xFF), .run, .run, .processFrame]).any _ = true by decide +kernel)
  exact ⟨d, hd, feedMulaw_reassembles { toPcm := toPcm none id, toMulaw := fun _ => [] } none id hrun⟩

end Line

end Voxera.Call
