import Voxera.Call.States
import Mathlib.Tactic.Linarith

/-!
# The silence of the caller

The silence loop with a clock that does not go back: when it prompts the caller, and when it hangs up. It measures the
caller's silence in its first block, and starts the prompt in a second one that looks at the state again, but not at
the time. A payload that `feed_mulaw` takes in between moves a call from `LISTENING` to `STREAMING`, where the second
block stops; but not a call that has gone on to `PROCESSING`, and that may be in `LISTENING` again by then.

* `Policy` : what may happen when, on a log of the caller's audio, the prompts and the hang-up;
* `Watched`, `Watched.step` : a call with its clock, the two times that the loop compares, and the log;
* `Watched.unheard` : no payload comes in between so; `Watched.Quiet` : what the loop knows, and the log;
* `Watched.run_policy`; `Watched.prompted_at_once` : the prompt comes with the caller's audio.
-/

namespace Voxera.Call

open EventLoop

/-- `SILENCE_PROMPT_SECONDS` -/
def silencePromptSeconds : ℚ := 8

/-- `SILENCE_HANGUP_AFTER_PROMPT_SECONDS` -/
def silenceHangupAfterPromptSeconds : ℚ := 8

/-! ## The policy -/

inductive Act where
  /-- `feed_mulaw` takes a payload. -/
  | audio
  /-- `_silence_loop` marks the prompt as played, under the lock. -/
  | prompt
  /-- `_silence_loop` calls `_on_silence_hangup`. -/
  | hangup
  deriving DecidableEq, Repr

structure Moment where
  act : Act
  time : ℚ
  state : State
  deriving DecidableEq

/-- When the caller was heard: the start counts, as it does for `_last_user_audio_time`. -/
def heardAt (start : ℚ) (log : List Moment) : List ℚ := start :: (log.filter (·.act = .audio)).map (·.time)

/-- The caller was prompted at `time` and has not been heard since. -/
def PromptedAt (log : List Moment) (time : ℚ) : Prop :=
  ∃ front m back, log = front ++ m :: back ∧ m.act = .prompt ∧ m.time = time ∧ ∀ x ∈ back, x.act ≠ .audio

/-- What has happened before `m` allows it. -/
structure Lawful (start : ℚ) (log : List Moment) (m : Moment) : Prop where
  listening : m.act ≠ .audio → m.state = .LISTENING
  quiet : m.act ≠ .audio → ∀ time ∈ heardAt start log, silencePromptSeconds ≤ m.time - time
  again : m.act = .prompt → ∀ time, ¬PromptedAt log time
  once : m.act = .hangup → ∀ x ∈ log, x.act ≠ .hangup
  prompted : m.act = .hangup → ∃ time, PromptedAt log time ∧ silenceHangupAfterPromptSeconds ≤ m.time - time

def Policy (start : ℚ) (log : List Moment) : Prop :=
  ∀ front m back, log = front ++ m :: back → Lawful start front m

section Log
variable {start time : ℚ} {log : List Moment} {m : Moment}

theorem policy_nil : Policy start [] := fun front _ _ h => by simp at h

theorem Policy.concat (h : Policy start log) (hm : Lawful start log m) : Policy start (log ++ [m]) := by
  intro front x back heq
  rcases List.eq_nil_or_concat back with rfl | ⟨back, y, rfl⟩
  · obtain ⟨rfl, hx⟩ := List.append_inj' heq rfl
    cases hx
    exact hm
  · rw [List.concat_eq_append, ← List.cons_append, ← List.append_assoc] at heq
    obtain ⟨hlog, -⟩ := List.append_inj' heq rfl
    exact h front x back hlog

theorem heardAt_concat (h : m.act ≠ .audio) : heardAt start (log ++ [m]) = heardAt start log := by
  simp [heardAt, h]

theorem heardAt_audio (h : m.act = .audio) : heardAt start (log ++ [m]) = heardAt start log ++ [m.time] := by
  simp [heardAt, h]

theorem promptedAt_concat (h : m.act ≠ .prompt) :
    PromptedAt (log ++ [m]) time ↔ m.act ≠ .audio ∧ PromptedAt log time := by
  constructor
  · rintro ⟨front, p, back, heq, hp, htime, hback⟩
    rcases List.eq_nil_or_concat back with rfl | ⟨back, y, rfl⟩
    · obtain ⟨-, hm⟩ := List.append_inj' heq rfl
      cases hm
      exact absurd hp h
    · rw [List.concat_eq_append, ← List.cons_append, ← List.append_assoc] at heq
      obtain ⟨hlog, hm⟩ := List.append_inj' heq rfl
      cases hm
      exact ⟨hback m (by simp), front, p, back, hlog, hp, htime, fun x hx => hback x (by simp [hx])⟩
  · rintro ⟨hm, front, p, back, rfl, hp, htime, hback⟩
    refine ⟨front, p, back ++ [m], by simp, hp, htime, fun x hx => ?_⟩
    rcases List.mem_append.mp hx with hx | hx
    · exact hback x hx
    · rw [List.mem_singleton.mp hx]
      exact hm

theorem promptedAt_prompt (h : m.act = .prompt) : PromptedAt (log ++ [m]) m.time :=
  ⟨log, m, [], rfl, h, rfl, fun _ hx => nomatch hx⟩

end Log

/-! ## The call with its clock -/

/-- What of the policy a piece of a task does that leads from `s` to `t`. -/
def happens (s t : Session) : Option Act :=
  if s.accepts then some .audio
  else if s.prompted = false ∧ t.prompted = true then some .prompt
  else if s.place .silence ≠ .awaits .hangup ∧ t.place .silence = .awaits .hangup then some .hangup
  else none

/-- The silence loop is about to start a prompt. -/
def Place.prompts : Place → Bool
  | .runs (.acquire .silencePrompt) | .runs (.enter .silencePrompt) | .awaits (.acquiring .silencePrompt) => true
  | _ => false

structure Watched where
  session : Session := .started
  /-- `time.monotonic()` -/
  now : ℚ
  /-- `_last_user_audio_time` -/
  lastUserAudioTime : ℚ
  /-- `_silence_prompt_time` -/
  silencePromptTime : Option ℚ := none
  log : List Moment := []

namespace Watched

/-- Time passes, or a task runs. -/
inductive Beat where
  | tick (d : ℚ)
  | call (l : Label)

/-- The call when `start` returns. -/
def started (start : ℚ) : Watched where
  now := start
  lastUserAudioTime := start

variable (w : Watched)

/-- The silence loop, in its first block, gets what the clock says. -/
def agrees : Bool :=
  match w.session.running with
  | some (.silence, .enter (.silenceCheck quiet late)) =>
    quiet = decide (silencePromptSeconds ≤ w.now - w.lastUserAudioTime) &&
      late = w.silencePromptTime.any (fun time => silenceHangupAfterPromptSeconds ≤ w.now - time)
  | _ => true

/-- The times that are written, and the log, when a task has run up to `t`. -/
def next (t : Session) : Watched :=
  match happens w.session t with
  | none => { w with session := t }
  | some act =>
    { w with
      session := t
      lastUserAudioTime := if act = .audio then w.now else w.lastUserAudioTime
      silencePromptTime := match act with
        | .audio => none
        | .prompt => some w.now
        | .hangup => w.silencePromptTime
      log := w.log ++ [⟨act, w.now, w.session.state⟩] }

/-- `feed_mulaw` does not take a payload while the system answers and the silence loop waits for the lock of its second
block. -/
def unheard : Bool := !(w.session.accepts && w.session.state.answering && (w.session.place .silence).prompts)

def step (cfg : Config) : Beat → Option Watched
  | .tick d => if 0 ≤ d then some { w with now := w.now + d } else none
  | .call l => if w.agrees then (Call.step cfg w.session l).map w.next else none

end Watched

/-! ## What moves do to the silence -/

section Moves
variable {l : Label} {c c' : Core} {π : Task → Place} {me : Task} {p q : Place}

theorem Place.prompts_of_plain (h : p.plain = true) : p.prompts = false := by
  unfold Place.prompts
  split <;> first | rfl | cases h

/-- The mark of the prompt is set in the loop's second block and cleared by `feed_mulaw`. -/
theorem Move.prompted_eq (h : Move l c π me p c' q) :
    c'.prompted = c.prompted ∨ (∃ pcm, me = .twilio ∧ p = .runs (.enter (.feed pcm)) ∧ c.state ≠ .ENDED) ∨
      me = .silence ∧ p = .runs (.enter .silencePrompt) ∧ c.state = .LISTENING ∧ c.prompted = false ∧
        c'.prompted = true ∧ q.prompts = false := by
  cases h with
  | fed hst => exact Or.inr (Or.inl ⟨_, rfl, rfl, hst⟩)
  | marks hst h => exact Or.inr (Or.inr ⟨rfl, rfl, hst, h, rfl, rfl⟩)
  | clears _ hc' => rcases hc' with rfl | rfl <;> exact Or.inl rfl
  | returns hc' => rcases hc' with ⟨-, rfl⟩ | ⟨_, _, -, rfl⟩ <;> exact Or.inl rfl
  | _ => exact Or.inl rfl

/-- `feed_mulaw` takes a payload. -/
theorem Move.takes {pcm : Bytes} (h : Move l c π .twilio (.runs (.enter (.feed pcm))) c' q) (hc : c.state ≠ .ENDED) :
    c'.prompted = false ∧ (c.state.usual = true → c.state.answering = false → c'.state = .STREAMING) := by
  cases h with
  | fed =>
      refine ⟨rfl, fun husual hanswering => ?_⟩
      show (if c.state = .CONNECTED ∨ c.state = .LISTENING then c.state.apply .STREAMING else c.state) = .STREAMING
      generalize c.state = a at hc husual hanswering
      cases a <;> first | rfl | exact absurd rfl hc | (cases husual; done) | cases hanswering
  | edge h =>
      cases h with
      | plain hp => cases hp
      | declined hst => exact absurd (by simpa [Section.declines] using hst) hc
      | stops hst => cases hst
  | @calls _ _ sec hp => cases sec <;> cases hp
  | marksEnd hp => cases hp

/-- The silence loop hangs up on a caller that it has prompted. -/
theorem Move.to_hangup (h : Move l c π .silence p c' (.awaits .hangup)) :
    p = .runs (.enter (.silenceCheck true true)) ∧ c.state = .LISTENING ∧ c.prompted = true := by
  cases h with
  | hangsUp hst h => exact ⟨rfl, hst, h⟩
  | edge h =>
      cases h with
      | plain _ hq => cases hq
      | declined _ hq => rcases hq with hq | hq <;> cases hq

theorem Move.to_prompts (h : Move l c π .silence p c' q) (hq : q.prompts = true) :
    p.prompts = true ∨ ∃ late, p = .runs (.enter (.silenceCheck true late)) := by
  cases h with
  | prompts => exact Or.inr ⟨_, rfl⟩
  | edge h =>
      cases h with
      | plain _ hplain =>
          rw [Place.prompts_of_plain hplain] at hq
          cases hq
      | @acquires sec | @waits sec | @admitted sec => exact Or.inl (by cases sec <;> first | rfl | cases hq)
      | declined _ hq' => rcases hq' with rfl | rfl <;> cases hq
      | _ => cases hq
  | @calls _ _ sec hp hsec =>
      cases sec with
      | bargeIn k => cases k <;> cases hsec
      | silenceCheck quiet late => cases hq
      | _ => cases hsec
  | _ => cases hq

/-- The silence loop ends when it has hung up. -/
theorem Move.gone (h : Move l c π .silence p c' q) (hp : p = .awaits .hangup ∨ p = .away) : q = .away := by
  cases h with
  | edge h =>
      cases h with
      | plain hplain _ hstart =>
          rcases hp with rfl | rfl
          · cases hplain
          · exact hstart rfl
      | _ => rcases hp with hp | hp <;> cases hp
  | @calls _ _ sec hp' hsec =>
      cases sec with
      | bargeIn k => cases k <;> cases hsec
      | silenceCheck quiet late =>
          subst hp'
          rcases hp with hp | hp <;> cases hp
      | _ => cases hsec
  | hungUp | unwinds => rfl
  | hears _ ha => rcases ha with ⟨h, -⟩ | ⟨h, -⟩ <;> cases h
  | _ => rcases hp with hp | hp <;> cases hp

end Moves

/-! ## The invariant -/

namespace Watched

structure Quiet (start : ℚ) (w : Watched) : Prop where
  policy : Policy start w.log
  past : w.lastUserAudioTime ≤ w.now
  heard : ∀ time ∈ heardAt start w.log, time ≤ w.lastUserAudioTime
  prompted : w.session.prompted = true → ∃ time, w.silencePromptTime = some time ∧ PromptedAt w.log time
  fresh : w.session.prompted = false → ∀ time, ¬PromptedAt w.log time
  waited : (w.session.place .silence).prompts = true → silencePromptSeconds ≤ w.now - w.lastUserAudioTime ∨
    w.session.state = .STREAMING ∨ w.session.state = .ENDED
  gone : (∃ m ∈ w.log, m.act = .hangup) →
    w.session.place .silence = .awaits .hangup ∨ w.session.place .silence = .away

section Invariant
variable {cfg : Config} {start : ℚ} {w : Watched} {t : Session} {l : Label} {me : Task} {q : Place}

theorem Quiet.started : Quiet start (started start) where
  policy := policy_nil
  past := le_rfl
  heard time h := by
    rw [List.mem_singleton.mp h]
    rfl
  prompted h := by cases h
  fresh _ time := by
    rintro ⟨front, m, back, h, -⟩
    have hnil : [] = front ++ m :: back := h
    simp at hnil
  waited h := by cases h
  gone := by
    rintro ⟨m, hm, -⟩
    cases hm

theorem Quiet.tick (h : Quiet start w) {d : ℚ} (hd : 0 ≤ d) : Quiet start { w with now := w.now + d } where
  policy := h.policy
  past := by
    have hpast := h.past
    show w.lastUserAudioTime ≤ w.now + d
    linarith
  heard := h.heard
  prompted := h.prompted
  fresh := h.fresh
  waited hplace := by
    refine (h.waited hplace).imp_left fun hwaited => ?_
    show silencePromptSeconds ≤ w.now + d - w.lastUserAudioTime
    linarith
  gone := h.gone

/-- A step of the call that the policy says nothing about. -/
theorem Quiet.pass (h : Quiet start w) (hprompted : t.prompted = w.session.prompted)
    (hwaited : (t.place .silence).prompts = true → silencePromptSeconds ≤ w.now - w.lastUserAudioTime ∨
      t.state = .STREAMING ∨ t.state = .ENDED)
    (hover : w.session.place .silence = .awaits .hangup ∨ w.session.place .silence = .away →
      t.place .silence = .awaits .hangup ∨ t.place .silence = .away) : Quiet start { w with session := t } where
  policy := h.policy
  past := h.past
  heard := h.heard
  prompted := by
    rw [hprompted]
    exact h.prompted
  fresh := by
    rw [hprompted]
    exact h.fresh
  waited := hwaited
  gone hm := hover (h.gone hm)

/-- The caller is heard. -/
theorem Quiet.audio (h : Quiet start w) (hprompted : t.prompted = false)
    (hstate : (w.session.place .silence).prompts = true → t.state = .STREAMING)
    (hplace : t.place .silence = w.session.place .silence) :
    Quiet start { w with
      session := t
      lastUserAudioTime := w.now
      silencePromptTime := none
      log := w.log ++ [⟨.audio, w.now, w.session.state⟩] } where
  policy := h.policy.concat ⟨by simp, by simp, by simp, by simp, by simp⟩
  past := le_rfl
  heard time htime := by
    rw [heardAt_audio rfl] at htime
    rcases List.mem_append.mp htime with htime | htime
    · exact (h.heard time htime).trans h.past
    · rw [List.mem_singleton.mp htime]
  prompted heq := by
    rw [hprompted] at heq
    cases heq
  fresh _ time hp := ((promptedAt_concat (by simp)).mp hp).1 rfl
  waited hprompts := Or.inr (Or.inl (hstate (by rw [← hplace]; exact hprompts)))
  gone := by
    rintro ⟨m, hm, hact⟩
    rcases List.mem_append.mp hm with hm | hm
    · rw [hplace]
      exact h.gone ⟨m, hm, hact⟩
    · rw [List.mem_singleton.mp hm] at hact
      cases hact

/-- The caller is prompted. -/
theorem Quiet.prompt (h : Quiet start w) (hlistening : w.session.state = .LISTENING)
    (hplace : w.session.place .silence = .runs (.enter .silencePrompt)) (hbefore : w.session.prompted = false)
    (hprompted : t.prompted = true) (hafter : (t.place .silence).prompts = false) :
    Quiet start { w with
      session := t
      silencePromptTime := some w.now
      log := w.log ++ [⟨.prompt, w.now, w.session.state⟩] } where
  policy := by
    have hwaited : silencePromptSeconds ≤ w.now - w.lastUserAudioTime := by
      rcases h.waited (by rw [hplace]; rfl) with hwaited | hstate | hstate
      · exact hwaited
      · rw [hlistening] at hstate
        cases hstate
      · rw [hlistening] at hstate
        cases hstate
    refine h.policy.concat ⟨fun _ => hlistening, fun _ time htime => ?_, fun _ => h.fresh hbefore, by simp, by simp⟩
    have hheard := h.heard time htime
    show silencePromptSeconds ≤ w.now - time
    linarith
  past := h.past
  heard := by
    rw [heardAt_concat (by simp)]
    exact h.heard
  prompted _ := ⟨w.now, rfl, promptedAt_prompt rfl⟩
  fresh heq := by
    rw [hprompted] at heq
    cases heq
  waited hprompts := by
    rw [hafter] at hprompts
    cases hprompts
  gone := by
    rintro ⟨m, hm, hact⟩
    rcases List.mem_append.mp hm with hm | hm
    · have hover := h.gone ⟨m, hm, hact⟩
      rw [hplace] at hover
      rcases hover with hover | hover <;> cases hover
    · rw [List.mem_singleton.mp hm] at hact
      cases hact

/-- The loop hangs up. -/
theorem Quiet.hangup (h : Quiet start w) (hlistening : w.session.state = .LISTENING)
    (hplace : w.session.place .silence = .runs (.enter (.silenceCheck true true))) (hagrees : w.agrees = true)
    (hbefore : w.session.prompted = true) (hprompted : t.prompted = true) (hafter : t.place .silence = .awaits .hangup) :
    Quiet start { w with session := t, log := w.log ++ [⟨.hangup, w.now, w.session.state⟩] } where
  policy := by
    obtain ⟨time, htime, hpromptedAt⟩ := h.prompted hbefore
    have hclock : silencePromptSeconds ≤ w.now - w.lastUserAudioTime ∧ silenceHangupAfterPromptSeconds ≤ w.now - time := by
      simpa [agrees, running_of_place hplace, htime] using hagrees
    refine h.policy.concat ⟨fun _ => hlistening, fun _ time' htime' => ?_, by simp, fun _ x hx hact => ?_,
      fun _ => ⟨time, hpromptedAt, hclock.2⟩⟩
    · have hheard := h.heard time' htime'
      have hquiet := hclock.1
      show silencePromptSeconds ≤ w.now - time'
      linarith
    · have hover := h.gone ⟨x, hx, hact⟩
      rw [hplace] at hover
      rcases hover with hover | hover <;> cases hover
  past := h.past
  heard := by
    rw [heardAt_concat (by simp)]
    exact h.heard
  prompted _ := by
    obtain ⟨time, htime, hpromptedAt⟩ := h.prompted hbefore
    exact ⟨time, htime, (promptedAt_concat (by simp)).mpr ⟨by simp, hpromptedAt⟩⟩
  fresh heq := by
    rw [hprompted] at heq
    cases heq
  waited hprompts := by
    rw [hafter] at hprompts
    cases hprompts
  gone _ := Or.inl hafter

/-- A move that does not take a payload. -/
theorem Quiet.move (h : Quiet start w) (hguarded : Guarded w.session.core w.session.place) (hagrees : w.agrees = true)
    (ha : w.session.accepts = false) (hmove : Move l w.session.core w.session.place me (w.session.place me) t.core q)
    (hq : t.place me = q) (hothers : ∀ u, u ≠ me → Stays u (w.session.place u) (t.place u)) : Quiet start (w.next t) := by
  have hstay : me ≠ .silence → t.place .silence = w.session.place .silence := by
    intro hme
    rcases hothers .silence (Ne.symm hme) with heq | ⟨hspawned, -⟩
    · exact heq
    · cases hspawned
  rcases hmove.prompted_eq with hprompted | ⟨pcm, rfl, hplace, hstate⟩ | ⟨rfl, hplace, hlistening, hbefore, hprompted, hafter⟩
  · by_cases hangs : w.session.place .silence ≠ .awaits .hangup ∧ t.place .silence = .awaits .hangup
    · obtain rfl : me = .silence := by
        by_contra hme
        exact hangs.1 ((hstay hme).symm.trans hangs.2)
      rw [hangs.2] at hq
      subst hq
      obtain ⟨hplace, hlistening, hbefore⟩ := hmove.to_hangup
      have hhappens : happens w.session t = some .hangup := by
        have hmark : ¬(w.session.prompted = false ∧ t.prompted = true) := by
          rintro ⟨hfalse, -⟩
          rw [show w.session.prompted = true from hbefore] at hfalse
          cases hfalse
        rw [happens, ha, if_neg (by simp), if_neg hmark, if_pos hangs]
      have hnext := h.hangup hlistening hplace hagrees hbefore (hprompted.trans hbefore) hangs.2
      simpa only [next, hhappens, reduceCtorEq, if_false] using hnext
    · have hhappens : happens w.session t = none := by
        have hmark : ¬(w.session.prompted = false ∧ t.prompted = true) := by
          rintro ⟨hfalse, htrue⟩
          rw [show t.prompted = w.session.prompted from hprompted, hfalse] at htrue
          cases htrue
        rw [happens, ha, if_neg (by simp), if_neg hmark, if_neg hangs]
      have hnext : Quiet start { w with session := t } := by
        have hkeep (hprompts : (w.session.place .silence).prompts = true) :
            silencePromptSeconds ≤ w.now - w.lastUserAudioTime ∨ t.state = .STREAMING ∨ t.state = .ENDED := by
          refine (h.waited hprompts).imp_right fun hstate => ?_
          rcases hstate with hstate | hstate
          · exact hguarded.streaming rfl hmove hstate
          · exact Or.inr (hmove.ended hstate)
        refine h.pass hprompted (fun hprompts => ?_) (fun hover => ?_)
        · by_cases hme : me = .silence
          · subst hme
            rw [hq] at hprompts
            rcases hmove.to_prompts hprompts with hprompts | ⟨late, hplace⟩
            · exact hkeep hprompts
            · have hclock := hagrees
              simp only [agrees, running_of_place hplace, Bool.and_eq_true, decide_eq_true_eq] at hclock
              exact Or.inl (of_decide_eq_true hclock.1.symm)
          · rw [hstay hme] at hprompts
            exact hkeep hprompts
        · by_cases hme : me = .silence
          · subst hme
            rw [hq]
            exact Or.inr (hmove.gone hover)
          · rw [hstay hme]
            exact hover
      simpa only [next, hhappens] using hnext
  · have haccepts := accepts_iff.mpr ⟨hstate, pcm, running_of_place hplace⟩
    rw [ha] at haccepts
    cases haccepts
  · have hhappens : happens w.session t = some .prompt := by
      rw [happens, ha, if_neg (by simp), if_pos ⟨hbefore, hprompted⟩]
    have hnext := h.prompt hlistening hplace hbefore hprompted (by rw [hq]; exact hafter)
    simpa only [next, hhappens, reduceCtorEq, if_false] using hnext

theorem Quiet.call (h : Quiet start w) (hplaced : Placed w.session) (hguarded : Guarded w.session.core w.session.place)
    (hunheard : w.unheard = true) (hagrees : w.agrees = true) (ht : Call.step cfg w.session l = some t) : Quiet start (w.next t) := by
  have hpass (ha : w.session.accepts = false) (hprompted : t.prompted = w.session.prompted)
      (hstate : t.state = w.session.state) (hplace : t.place = w.session.place) : Quiet start (w.next t) := by
    have hhappens : happens w.session t = none := by
      have hmark : ¬(w.session.prompted = false ∧ t.prompted = true) := by
        rintro ⟨hfalse, htrue⟩
        rw [hprompted, hfalse] at htrue
        cases htrue
      have hangs : ¬(w.session.place .silence ≠ .awaits .hangup ∧ t.place .silence = .awaits .hangup) := by
        rintro ⟨hne, heq⟩
        rw [hplace] at heq
        exact hne heq
      rw [happens, ha, if_neg (by simp), if_neg hmark, if_neg hangs]
    have hnext : Quiet start { w with session := t } := by
      refine h.pass hprompted (fun hprompts => ?_) (fun hover => ?_)
      · rw [hplace] at hprompts
        rw [hstate]
        exact h.waited hprompts
      · rw [hplace]
        exact hover
    simpa only [next, hhappens] using hnext
  cases Move.of_step hplaced ht with
  | nothing hl heq =>
      subst heq
      exact hpass (not_accepts ht (by simp [hl])) rfl rfl rfl
  | frame hl _ hcore hplace =>
      exact hpass (not_accepts ht (by simp [hl])) (congrArg Core.prompted hcore) (congrArg Core.state hcore) hplace
  | move me _ hsolo hmoved =>
      obtain ⟨q, hmove, hq, hothers⟩ := hmoved
      cases ha : w.session.accepts with
      | false => exact h.move hguarded hagrees ha hmove hq hothers
      | true =>
          obtain ⟨hstate, pcm, hrunning⟩ := accepts_iff.mp ha
          have hplace : w.session.place .twilio = .runs (.enter (.feed pcm)) := place_of_running hrunning
          obtain rfl : me = .twilio := by
            by_contra hme
            exact hsolo .twilio (Ne.symm hme) _ hplace
          have hsilence : t.place .silence = w.session.place .silence := by
            rcases hothers .silence (by simp) with heq | ⟨hspawned, -⟩
            · exact heq
            · cases hspawned
          have hnext : t.prompted = false ∧ ((w.session.place .silence).prompts = true → t.state = .STREAMING) := by
            rw [hplace] at hmove
            obtain ⟨hprompted, hstreaming⟩ := hmove.takes hstate
            refine ⟨hprompted, fun hprompts => hstreaming hguarded.usual ?_⟩
            simpa [unheard, ha, hprompts] using hunheard
          have hhappens : happens w.session t = some .audio := by rw [happens, if_pos ha]
          have hquiet := h.audio hnext.1 hnext.2 hsilence
          simpa only [next, hhappens, if_true] using hquiet

end Invariant

/-- A step of the call is one of the call with its clock. -/
theorem step_call {cfg : Config} {w v : Watched} {l : Label} (h : w.step cfg (.call l) = some v) :
    w.agrees = true ∧ ∃ t, Call.step cfg w.session l = some t ∧ v = w.next t := by
  simp only [step] at h
  split at h
  · next hagrees =>
      obtain ⟨t, ht, hv⟩ := Option.map_eq_some_iff.mp h
      exact ⟨hagrees, t, ht, hv.symm⟩
  · cases h

theorem next_session (w : Watched) (t : Session) : (w.next t).session = t := by
  unfold next
  split <;> rfl

/-- **The silence policy** holds of every run in which no payload comes between the loop's two blocks while the system
answers. -/
theorem run_policy (cfg : Config) (start : ℚ) {bs : List Beat} {w : Watched}
    (hrun : Run (fun w b => step w cfg b) (fun w _ => w.unheard = true) (started start) bs w) : Policy start w.log := by
  have hboth : (∃ ls, Run (Call.step cfg) (fun _ _ => True) .started ls w.session) ∧ Quiet start w := by
    refine hrun.invariant (I := fun w => (∃ ls, Run (Call.step cfg) (fun _ _ => True) .started ls w.session) ∧
      Quiet start w) ⟨⟨[], .nil⟩, .started⟩ ?_
    rintro w v b ⟨⟨ls, hcall⟩, hquiet⟩ hunheard hstep
    cases b with
    | tick d =>
        simp only [step] at hstep
        split at hstep
        · next hd =>
            cases hstep
            exact ⟨⟨ls, hcall⟩, hquiet.tick hd⟩
        · cases hstep
    | call l =>
        obtain ⟨hagrees, t, ht, rfl⟩ := step_call hstep
        rw [next_session]
        exact ⟨⟨ls ++ [l], hcall.snoc trivial ht⟩,
          hquiet.call (Placed.of_run hcall) (guarded_of_run hcall) hunheard hagrees ht⟩
  exact hboth.2.policy

/-- The task that the label runs goes on for `n` pieces. -/
def piece (l : Label) (n : Nat) : List Beat := (l :: List.replicate n .run).map .call

/-- The loops start, and the caller's first turn is answered. -/
def answered : List Beat := piece (.wake .silence (.ok .none)) 0 ++ answerLabels.map .call

/-- The caller is heard during the answer, and interrupts it. -/
def interrupted : List Beat :=
  answered ++ piece (.feedMulaw (List.replicate 160 0xFF)) 2 ++ piece (.transcript waitEvent) 4 ++
    piece (.reply 0 .cancelled) 0 ++ piece (.wake .stt (.ok .none)) 6

/-- A caller who says nothing more: the loop prompts after eight seconds and hangs up after eight more. -/
theorem run_policy_interrupted : ∃ w : Watched, w.log.map (·.act) = [.audio, .prompt, .hangup] ∧ Policy 0 w.log := by
  have hexec : (exec (fun w b => step w plainConfig b) (fun w _ => w.unheard = true) (started 0) (interrupted ++
      [.tick 8] ++ piece (.wake .silence (.ok (.clock true false))) 9 ++ piece (.reply 1 (.ok .none)) 0 ++
      [.tick 8] ++ piece (.wake .silence (.ok (.clock true true))) 2)).any
      (fun w => w.log.map (·.act) = [.audio, .prompt, .hangup]) = true := by decide +kernel
  obtain ⟨w, hrun, hw⟩ := Run.exists_of_exec hexec
  exact ⟨w, of_decide_eq_true hw, run_policy plainConfig 0 hrun⟩

/-- The first answer is given up after eight seconds, and the fallback message begun; the recogniser has had a payload
of four frames in the meantime. -/
def givenUp : List Beat :=
  answered ++ piece (.reply 0 (.ok .none)) 0 ++ piece (.generation 0 (.ok .none)) 0 ++
    piece (.wake (.watchdog 0) (.ok .none)) 0 ++ piece (.feedMulaw (List.replicate 640 0xFF)) 2 ++
    (List.replicate 4 (piece .processFrame 0)).flatten ++ piece (.wake .stt (.ok .none)) 0 ++ [.tick 8] ++
    piece (.wake (.watchdog 0) (.ok .timeout)) 0 ++ piece (.wake (.watchdog 0) .raised) 3 ++
    piece (.generation 0 .cancelled) 0 ++ piece (.reply 0 .cancelled) 0 ++ piece (.reply 0 (.ok .none)) 0 ++
    piece (.generation 0 (.ok .none)) 0 ++ piece (.wake (.watchdog 0) (.ok .none)) 8 ++ piece (.reply 1 (.ok .none)) 0

/-- The recogniser's engine gives a partial transcript, two errors and the final transcript. While the recovery of the
first error waits in `tts.stop` for the fallback message, the silence loop, the turn, the next payload and the recovery
of the second error wait for the lock, in this order. -/
def crowded : List Beat :=
  givenUp ++ [.tick 1] ++ piece (.wake .stt (.ok (.transcript waitEvent))) 5 ++ piece (.wake .stt .raised) 0 ++
    piece (.wake .stt .raised) 0 ++ piece (.wake (.sttError 0) (.ok .none)) 3 ++
    piece (.wake .silence (.ok (.clock true false))) 1 ++
    piece (.wake .stt (.ok (.transcript ⟨.FINAL, waitEvent.utteranceId, "hello".toList⟩))) 2 ++
    piece (.feedMulaw (List.replicate 160 0xFF)) 1 ++ piece (.wake (.sttError 1) (.ok .none)) 1 ++
    piece (.reply 1 .cancelled) 0 ++ piece (.reply 1 (.ok .none)) 0 ++ piece (.wake (.sttError 0) (.ok .none)) 2

/-- The prompt is started in the moment in which the caller is heard. -/
theorem prompted_at_once : ∃ bs w, Run (fun w b => step w plainConfig b) (fun _ _ => True) (started 0) bs w ∧
    w.log = [⟨.audio, 0, .PROCESSING⟩, ⟨.audio, 9, .PROCESSING⟩, ⟨.prompt, 9, .LISTENING⟩] ∧ ¬Policy 0 w.log := by
  have hexec : (exec (fun w b => step w plainConfig b) (fun _ _ => True) (started 0) (crowded ++
      piece (.wake .silence (.ok .none)) 2 ++ piece (.wake .stt (.ok .none)) 2 ++ piece (.wake .twilio (.ok .none)) 1 ++
      piece (.wake (.sttError 1) (.ok .none)) 4 ++ piece (.wake (.sttError 0) (.ok .none)) 6 ++
      piece (.wake .silence (.ok .none)) 2)).any
      (fun w => w.log = [⟨.audio, 0, .PROCESSING⟩, ⟨.audio, 9, .PROCESSING⟩, ⟨.prompt, 9, .LISTENING⟩]) = true := by
    decide +kernel
  obtain ⟨w, hrun, hw⟩ := Run.exists_of_exec hexec
  have hlog := of_decide_eq_true hw
  refine ⟨_, w, hrun, hlog, fun hpolicy => ?_⟩
  have hlawful := hpolicy [⟨.audio, 0, .PROCESSING⟩, ⟨.audio, 9, .PROCESSING⟩] _ [] hlog
  have hquiet := hlawful.quiet (by simp) 9 (by simp [heardAt])
  norm_num [silencePromptSeconds] at hquiet

end Watched

end Voxera.Call
