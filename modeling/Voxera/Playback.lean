import Voxera.Speech

/-!
# What becomes of each reply

* `Speech.Move` : what a step of the consumer and its callers is.
* `Heard` : what has been queued for a reply, what of it has been spoken to the end, and how its playback
  has ended; `Playback` keeps it beside the consumer, and the code reads none of it.
* `Advance` : what one step of a reply task is; `Reply.each` : what every reply keeps by itself.
* `closed_of_stoppedAtWork` : `tts_metrics` is sent and `on_playback_end` called exactly once, in every run in
  which no reply is stopped before its first step or while it sends its metrics.
-/

namespace Voxera.Tts

open EventLoop

variable {n : Nat} {s t : Speech n} {l : Label n} {me : Fin n}

/-! ## The steps of the consumer and its callers -/

/-- What `start_speaking` puts on the queue of its reply. -/
def StopFor.items : StopFor → List (Option Text)
  | .startSpeaking text _ _ => (if Text.strip text ≠ [] then [some text] else []) ++ [none]
  | _ => []

def StopFor.utteranceId : StopFor → Text
  | .begin utteranceId _ | .startSpeaking _ utteranceId _ => utteranceId
  | .stop => []

def StopFor.begins (k : StopFor) : Bool := k.ticket?.isSome

/-- The reply whose `tts_clear` the caller is going to send. -/
def Speech.owes (s : Speech n) (me : Fin n) : Option Nat :=
  match s.caller me with
  | .suspended (.stopping r true _ _) _ => some r
  | _ => none

/-- A reply with the items on its queue is created. -/
def Consumer.opened (c : Consumer Unit) (utteranceId : Text) (items : List (Option Text)) : Consumer Unit :=
  { c.openReply utteranceId with reply := Function.update c.reply c.count { utteranceId, queue := items } }

theorem Consumer.active_opened (c : Consumer Unit) (utteranceId : Text) (items : List (Option Text)) :
    (c.opened utteranceId items).active = some c.count := by
  refine Consumer.active_eq_some.mpr ⟨rfl, ?_⟩
  show (Function.update c.task c.count (Coroutine.await Pc.created) c.count).isDone = false
  rw [Function.update_self]
  rfl

theorem Consumer.put_opened (c : Consumer Unit) (utteranceId : Text) (items : List (Option Text)) (item : Option Text) :
    (c.opened utteranceId items).put c.count item = c.opened utteranceId (items ++ [item]) := by
  simp [Consumer.put, Consumer.opened]

theorem Consumer.speak_of_active {c : Consumer Unit} {r : Nat} (h : c.active = some r) (text : Text) :
    (c.speak text).2 = if Text.strip text ≠ [] then c.put r (some text) else c := by
  unfold Consumer.speak
  rw [h]
  dsimp only
  split <;> rfl

theorem Consumer.finish_of_active {c : Consumer Unit} {r : Nat} (h : c.active = some r) :
    c.finish.2 = c.put r none := by
  unfold Consumer.finish
  rw [h]

theorem Speech.speakAll_tts (s : Speech n) (text utteranceId : Text) (ticket : Nat) :
    ((s.openReply utteranceId ticket).speakAll text).tts =
      s.tts.opened utteranceId (StopFor.startSpeaking text utteranceId ticket).items := by
  show ((s.tts.opened utteranceId []).speak text).2.finish.2 = _
  have hspoken : ((s.tts.opened utteranceId []).speak text).2 =
      s.tts.opened utteranceId (if Text.strip text ≠ [] then [some text] else []) := by
    rw [Consumer.speak_of_active (s.tts.active_opened utteranceId []), Consumer.put_opened]
    split <;> rfl
  rw [hspoken, Consumer.finish_of_active (s.tts.active_opened utteranceId _), Consumer.put_opened]
  rfl

/-- What a step of the consumer and its callers is. -/
inductive Speech.Move (s : Speech n) (l : Label n) (t : Speech n) : Prop
  /-- An item is put on the queue of the active reply. -/
  | puts (r : Nat) (item : Option Text) : s.tts.active = some r → t.tts = s.tts.put r item → t.caller = s.caller →
      t.sent = s.sent → Move s l t
  | idle : t.tts = s.tts → t.caller = s.caller → t.sent = s.sent → Move s l t
  /-- `stop` is called, and the active reply is asked to cancel. -/
  | stops (me : Fin n) (r : Nat) (reason : Text) (k : StopFor) (call : Call) : l = .call me call →
      (call = .stop reason ∨ call.begins = true) → (s.caller me).isDone = true → s.tts.active = some r → t.tts = s.tts.cancel r →
      t.caller = Function.update s.caller me (.await (.stopping r s.tts.audioSent reason k)) → t.sent = s.sent → Move s l t
  /-- `begin` creates a reply. -/
  | opens (me : Fin n) (k : StopFor) : k.begins = true →
      ((∃ call, l = .call me call ∧ call.begins = true ∧ s.tts.active = none ∧ (s.caller me).isDone = true) ∨
        ∃ pc a, l = .caller me (.ok a) ∧ (s.caller me).pc? = some pc ∧
          ((∃ r reason, pc = .stopping r false reason k) ∨ pc = .clearing k)) →
      t.tts = s.tts.opened k.utteranceId k.items → t.caller = Function.update s.caller me .done → t.sent = s.sent → Move s l t
  /-- A call returns, or the `CancelledError` that was asked for is raised in it. -/
  | leaves (me : Fin n) : (s.owes me = none ∨ ∃ pc, s.caller me = .suspended pc true) → t.tts = s.tts →
      t.caller = Function.update s.caller me .done → t.sent = s.sent → Move s l t
  /-- The reply that was stopped has ended, and `tts_clear` is sent. -/
  | clears (me : Fin n) (r : Nat) (reason : Text) (k : StopFor) : s.caller me = .suspended (.stopping r true reason k) false →
      (s.tts.task r).isDone = true → t.tts = s.tts → t.caller = Function.update s.caller me (.await (.clearing k)) →
      t.sent = s.sent ++ [(r, .json (.ttsClear reason))] → Move s l t
  /-- A caller is asked to cancel; in `stop` it hands the request on. -/
  | asks (me : Fin n) : l = .cancel me →
      (t.tts = s.tts ∨ ∃ r hadAudio reason k c, s.caller me = .suspended (.stopping r hadAudio reason k) c ∧ t.tts = s.tts.cancel r) →
      t.caller = Function.update s.caller me (s.caller me).cancel → t.sent = s.sent → Move s l t
  | reply (r : Nat) (w : Wake Item) (pc : Pc Unit) (cancelling : Bool) : l = .reply r w →
      s.tts.task r = .suspended pc cancelling → s.tts.enabled r pc cancelling w = true →
      t.tts = { s.tts with
        audioSent := pc.sent w || s.tts.audioSent
        reply := Function.update s.tts.reply r ((s.tts.reply r).resume pc w).1
        task := Function.update s.tts.task r (((s.tts.reply r).resume pc w).2.elim .done .await) } →
      t.caller = s.caller →
      t.sent = s.sent ++ (((s.tts.reply r).resume pc w).1.calls ((s.tts.reply r).resume pc w).2).map (r, ·) → Move s l t

namespace Speech.Move

theorem of_stop {call : Call} {reason : Text} {k : StopFor} (s' : Speech n) (htts : s'.tts = s.tts)
    (hcaller : s'.caller = s.caller) (hsent : s'.sent = s.sent) (hme : (s.caller me).isDone = true)
    (hcall : call = .stop reason ∧ k = .stop ∨ call.begins = true ∧ k.begins = true) :
    Move s (.call me call) (s'.stop me reason k) := by
  unfold Speech.stop
  rw [htts]
  split
  · rename_i hactive
    cases k with
    | stop =>
        refine .leaves me (Or.inl ?_) htts ?_ hsent
        · unfold Speech.owes
          rw [Coroutine.isDone_iff.mp hme]
        · rw [← hcaller]
          rfl
    | begin utteranceId ticket =>
        obtain ⟨-, hk⟩ | ⟨hbegins, -⟩ := hcall
        · cases hk
        · refine .opens me (.begin utteranceId ticket) rfl (Or.inl ⟨call, rfl, hbegins, hactive, hme⟩) ?_ ?_ hsent
          · show s'.tts.openReply utteranceId = _
            rw [htts]
            rfl
          · rw [← hcaller]
            rfl
    | startSpeaking text utteranceId ticket =>
        obtain ⟨-, hk⟩ | ⟨hbegins, -⟩ := hcall
        · cases hk
        · refine .opens me (.startSpeaking text utteranceId ticket) rfl (Or.inl ⟨call, rfl, hbegins, hactive, hme⟩) ?_ ?_ hsent
          · show ((s'.openReply utteranceId ticket).speakAll text).tts = _
            rw [s'.speakAll_tts, htts]
            rfl
          · rw [← hcaller]
            rfl
  · rename_i r hactive
    refine .stops me r reason k call rfl (hcall.imp And.left And.left) hme hactive ?_ ?_ hsent
    · show s'.tts.cancel r = _
      rw [htts]
    · rw [← hcaller]
      rfl

theorem of_call {call : Call} (hme : (s.caller me).isDone = true) : Move s (.call me call) (s.call me call) := by
  cases call with
  | begin utteranceId => exact of_stop { s with begun := s.begun + 1 } rfl rfl rfl hme (Or.inr ⟨rfl, rfl⟩)
  | startSpeaking text utteranceId => exact of_stop { s with begun := s.begun + 1 } rfl rfl rfl hme (Or.inr ⟨rfl, rfl⟩)
  | stop reason => exact of_stop s rfl rfl rfl hme (Or.inl ⟨rfl, rfl⟩)
  | speak text =>
      cases hactive : s.tts.active with
      | none =>
          refine .idle ?_ rfl rfl
          show (s.tts.speak text).2 = s.tts
          unfold Consumer.speak
          rw [hactive]
      | some r =>
          by_cases hblank : Text.strip text ≠ []
          · refine .puts r (some text) hactive ?_ rfl rfl
            exact (Consumer.speak_of_active hactive text).trans (if_pos hblank)
          · refine .idle ?_ rfl rfl
            exact (Consumer.speak_of_active hactive text).trans (if_neg hblank)
  | finish =>
      cases hactive : s.tts.active with
      | none =>
          refine .idle ?_ rfl rfl
          show s.tts.finish.2 = s.tts
          unfold Consumer.finish
          rw [hactive]
      | some r => exact .puts r none hactive (Consumer.finish_of_active hactive) rfl rfl

theorem of_returned {pc : CallPc} {k : StopFor} {a : Unit} {cancelling : Bool}
    (hpc : s.caller me = .suspended pc cancelling)
    (hk : (∃ r reason, pc = .stopping r false reason k) ∨ pc = .clearing k) :
    Move s (.caller me (.ok a)) ((s.leave me).stopReturned me k) := by
  have howes : s.owes me = none := by
    unfold Speech.owes
    rw [hpc]
    rcases hk with ⟨r, reason, rfl⟩ | rfl <;> rfl
  have hat : (s.caller me).pc? = some pc := by rw [hpc, Coroutine.pc?_suspended]
  cases k with
  | stop => exact .leaves me (Or.inl howes) rfl (Function.update_idem _ _ _) rfl
  | begin utteranceId ticket =>
      exact .opens me (.begin utteranceId ticket) rfl (Or.inr ⟨pc, a, rfl, hat, hk⟩) rfl (Function.update_idem _ _ _) rfl
  | startSpeaking text utteranceId ticket =>
      refine .opens me (.startSpeaking text utteranceId ticket) rfl (Or.inr ⟨pc, a, rfl, hat, hk⟩) ?_
        (Function.update_idem _ _ _) rfl
      exact (s.leave me).speakAll_tts text utteranceId ticket

theorem of_resumeCaller {pc : CallPc} {cancelling : Bool} {w : Wake Unit} (hpc : s.caller me = .suspended pc cancelling)
    (hfits : w.fits cancelling = true) (henabled : s.enabled pc w = true) :
    Move s (.caller me w) ((s.leave me).resumeCaller me pc w) := by
  cases w with
  | raised => cases henabled
  | cancelled =>
      refine .leaves me (Or.inr ⟨pc, ?_⟩) rfl (Function.update_idem _ _ _) rfl
      rw [hpc]
      exact congrArg _ hfits
  | ok a =>
      have hgoes : cancelling = false := by simpa [Wake.fits] using hfits
      subst hgoes
      cases pc with
      | stopping r hadAudio reason k =>
          cases hadAudio with
          | true => exact .clears me r reason k hpc henabled rfl (Function.update_idem _ _ _) rfl
          | false => exact of_returned hpc (Or.inl ⟨r, reason, rfl⟩)
      | clearing k => exact of_returned hpc (Or.inr rfl)

theorem of_cancelCaller (me : Fin n) : Move s (.cancel me) (s.cancelCaller me) := by
  unfold Speech.cancelCaller
  simp only
  split
  · rename_i r hadAudio reason k c hpc
    exact .asks me rfl (Or.inr ⟨r, hadAudio, reason, k, c, hpc, rfl⟩) rfl rfl
  · exact .asks me rfl (Or.inl rfl) rfl rfl

theorem of_step (h : step s l = some t) : Move s l t := by
  cases l with
  | call me call =>
      simp only [step, Option.ite_none_right_eq_some, Option.some.injEq] at h
      obtain ⟨hme, rfl⟩ := h
      exact of_call hme
  | cancel me =>
      cases h
      exact of_cancelCaller me
  | caller me w =>
      simp only [step] at h
      split at h
      · cases h
      · rename_i pc cancelling hpc
        simp only [Option.ite_none_right_eq_some, Option.some.injEq, Bool.and_eq_true] at h
        obtain ⟨⟨hfits, henabled⟩, rfl⟩ := h
        exact of_resumeCaller hpc hfits henabled
  | reply r w =>
      obtain ⟨⟨tts, calls⟩, hresume, rfl⟩ := Option.map_eq_some_iff.mp h
      obtain ⟨pc, cancelling, hpc, henabled, rfl, rfl⟩ := Consumer.resume_eq_some hresume
      exact .reply r w pc cancelling rfl hpc henabled rfl rfl rfl

end Speech.Move

/-! ## What is known of a reply -/

/-- What is known of a reply beside the consumer's own variables. -/
structure Heard where
  /-- All that has been put on its queue. -/
  queued : List (Option Text) := []
  /-- The segment that the engine is streaming. -/
  speaking : Option Text := none
  /-- The segments whose stream has come to its end. -/
  spoken : List Text := []
  /-- The audio that was sent has had the time to play. -/
  played : Bool := false
  /-- The flags that `on_playback_end` has been called with. -/
  ended : List Bool := []
  deriving DecidableEq, Repr

/-- What a step of the reply task adds: `r` is the reply before the step. -/
def Heard.resume (h : Heard) (r : Reply) : Pc Unit → Wake Item → Heard
  | .created, .ok _ | .queueGet, .ok _ => { h with speaking := r.queue.head?.join }
  | .engineNext, .ok .none => { h with spoken := h.spoken ++ h.speaking.toList, speaking := r.queue.head?.join }
  | .drain, .ok _ => { h with played := true }
  | .sendMetrics interrupted, .ok _ | .sendMetrics interrupted, .raised =>
    { h with ended := h.ended ++ [interrupted] }
  | _, _ => h

/-- The consumer, its callers, and what is known of each reply. -/
structure Playback (n : Nat) where
  speech : Speech n := {}
  heard : Nat → Heard := fun _ => {}

namespace Playback

/-- What the step to `t` has put on the queue of the reply. -/
def put (p : Playback n) (t : Speech n) (r : Nat) : List (Option Text) :=
  (t.tts.reply r).queue.drop (p.speech.tts.reply r).queue.length

def step (p : Playback n) (l : Label n) : Option (Playback n) :=
  (Tts.step p.speech l).map fun t =>
    { speech := t
      heard := match l with
        | .reply r w => match p.speech.tts.task r with
          | .suspended pc _ => Function.update p.heard r ((p.heard r).resume (p.speech.tts.reply r) pc w)
          | .done => p.heard
        | _ => fun r => { p.heard r with queued := (p.heard r).queued ++ p.put t r } }

end Playback

/-- The calls about the reply `r`. -/
def Speech.wire (s : Speech n) (r : Nat) : List Event :=
  s.sent.filterMap fun (r', e) => if r' = r then some e else none

/-- The reply that is asked to cancel. -/
def Speech.asks (s : Speech n) : Label n → Option Nat
  | .call _ (.stop _) | .call _ (.begin _) | .call _ (.startSpeaking _ _) => s.tts.active
  | .cancel me => match s.caller me with
    | .suspended (.stopping r _ _ _) _ => some r
    | _ => none
  | _ => none

/-- The next item is taken from the queue, as soon as there is one. -/
inductive Takes (r : Reply) (h : Heard) : Reply → Heard → Pc Unit → List Event → Prop
  | waits : r.queue = [] → Takes r h r { h with speaking := none } .queueGet []
  | segment (text : Text) (queue : List (Option Text)) : r.queue = some text :: queue →
      Takes r h { r with queue, segments := r.segments + 1 } { h with speaking := some text } .engineNext []
  | last (queue : List (Option Text)) : r.queue = none :: queue → r.frames ≠ 0 →
      Takes r h { r with queue } { h with speaking := none } .drain []
  | silent (queue : List (Option Text)) : r.queue = none :: queue → r.frames = 0 →
      Takes r h { r with queue } { h with speaking := none } (.sendMetrics false)
        [.json (.ttsMetrics r.frames r.segments r.audioBytes false)]

/-- What one step of a reply task is: whether it was asked to cancel and where it was suspended, the reply
and what is known of it after the step, where it is suspended then, and the calls it makes there. -/
inductive Advance (r : Reply) (h : Heard) : Bool → Pc Unit → Reply → Heard → Option (Pc Unit) → List Event → Prop
  | starts {r' : Reply} {h' : Heard} {pc' : Pc Unit} {es : List Event} :
      Takes r h r' h' pc' es → Advance r h false .created r' h' (some pc') es
  | dropped : Advance r h true .created r h none []
  | gets {r' : Reply} {h' : Heard} {pc' : Pc Unit} {es : List Event} :
      Takes r h r' h' pc' es → Advance r h false .queueGet r' h' (some pc') es
  | spoken {r' : Reply} {h' : Heard} {pc' : Pc Unit} {es : List Event} :
      Takes r { h with spoken := h.spoken ++ h.speaking.toList } r' h' pc' es →
        Advance r h false .engineNext r' h' (some pc') es
  | skips : Advance r h false .engineNext r h (some .engineNext) []
  | firstFrame (frame : Bytes) : r.frames = 0 → Advance r h false .engineNext r h (some (.sendStart frame)) [.json .ttsStart]
  | frame (frame : Bytes) : r.frames ≠ 0 → Advance r h false .engineNext r h (some (.sendBytes frame ())) [.audio frame]
  | started (frame : Bytes) : Advance r h false (.sendStart frame) r h (some (.sendBytes frame ())) [.audio frame]
  | sent (frame : Bytes) : Advance r h false (.sendBytes frame ())
      { r with frames := r.frames + 1, audioBytes := r.audioBytes + frame.length } h (some .pacing) []
  | paced : Advance r h false .pacing r h (some .engineNext) []
  | drained : Advance r h false .drain r { h with played := true } (some .sendEnd) [.json .ttsEnd]
  | completed : Advance r h false .sendEnd r h (some (.sendMetrics false))
      [.json (.ttsMetrics r.frames r.segments r.audioBytes false)]
  | fails {pc : Pc Unit} : pc.raises = true → Advance r h false pc r h (some .sendError) [.json .error]
  | failed (cancelling : Bool) : Advance r h cancelling .sendError r h (some (.sendMetrics true))
      [.json (.ttsMetrics r.frames r.segments r.audioBytes true)]
  | interrupted {pc : Pc Unit} : pc ≠ .created → pc.cleanup = false → Advance r h true pc r h (some (.sendMetrics true))
      [.json (.ttsMetrics r.frames r.segments r.audioBytes true)]
  | closes (interrupted : Bool) : Advance r h false (.sendMetrics interrupted) r
      { h with ended := h.ended ++ [interrupted] } (some (.playbackEnd interrupted ())) []
  | cut (interrupted : Bool) : Advance r h true (.sendMetrics interrupted) r h none []
  | returns (cancelling interrupted : Bool) : Advance r h cancelling (.playbackEnd interrupted ()) r h none []

theorem Reply.takes (r : Reply) (h : Heard) :
    ∃ pc', (@Reply.getNext Unit r).2 = some pc' ∧
      Takes r h (@Reply.getNext Unit r).1 { h with speaking := r.queue.head?.join } pc'
        ((@Reply.getNext Unit r).1.calls (some pc')) := by
  unfold Reply.getNext
  split
  · rename_i hqueue
    refine ⟨_, rfl, ?_⟩
    rw [hqueue]
    exact .waits hqueue
  · rename_i text queue hqueue
    refine ⟨_, rfl, ?_⟩
    rw [hqueue]
    exact .segment text queue hqueue
  · rename_i queue hqueue
    refine ⟨_, rfl, ?_⟩
    rw [hqueue]
    by_cases hframes : r.frames ≠ 0
    · rw [if_pos hframes]
      exact .last queue hqueue hframes
    · rw [if_neg hframes]
      exact .silent queue hqueue (not_not.mp hframes)

/-- A step of a reply task is one of these. -/
theorem Reply.advance (r : Reply) (h : Heard) {c : Consumer Unit} {m : Nat} {pc : Pc Unit} {cancelling : Bool} {w : Wake Item}
    (henabled : c.enabled m pc cancelling w = true) :
    Advance r h cancelling pc (r.resume pc w).1 (h.resume r pc w) (r.resume pc w).2
      ((r.resume pc w).1.calls (r.resume pc w).2) := by
  have hcalm := Consumer.cancelling_of_enabled henabled
  have hraised : ∀ pc : Pc Unit, pc.raises = false → pc.cleanup = false → c.enabled m pc cancelling .raised ≠ true := by
    intro pc hraises hcleanup henabled
    cases pc <;> simp [Pc.raises, Pc.cleanup, Consumer.enabled] at hraises hcleanup henabled
  obtain ⟨pcNext, hnext, htakes⟩ := r.takes h
  obtain ⟨pcNext', hnext', htakes'⟩ := r.takes { h with spoken := h.spoken ++ h.speaking.toList }
  cases w with
  | cancelled =>
      obtain rfl : cancelling = true := hcalm.mp rfl
      cases pc with
      | created => exact .dropped
      | sendError => exact .failed true
      | sendMetrics interrupted => exact .cut interrupted
      | playbackEnd interrupted inner => exact .returns true interrupted
      | _ => exact .interrupted (by simp) rfl
  | raised =>
      have hgoes : cancelling = false := by
        cases cancelling with
        | false => rfl
        | true => exact absurd (hcalm.mpr rfl) (by simp)
      subst hgoes
      cases pc with
      | created | queueGet | pacing | drain => exact absurd henabled (hraised _ rfl rfl)
      | sendError => exact .failed false
      | sendMetrics interrupted => exact .closes interrupted
      | playbackEnd interrupted inner => exact .returns false interrupted
      | _ => exact .fails rfl
  | ok item =>
      have hgoes : cancelling = false := by
        cases cancelling with
        | false => rfl
        | true => exact absurd (hcalm.mpr rfl) (by simp)
      subst hgoes
      cases pc with
      | created =>
          show Advance r h false _ (@Reply.getNext Unit r).1 _ (@Reply.getNext Unit r).2
            ((@Reply.getNext Unit r).1.calls (@Reply.getNext Unit r).2)
          rw [hnext]
          exact .starts htakes
      | queueGet =>
          show Advance r h false _ (@Reply.getNext Unit r).1 _ (@Reply.getNext Unit r).2
            ((@Reply.getNext Unit r).1.calls (@Reply.getNext Unit r).2)
          rw [hnext]
          exact .gets htakes
      | engineNext =>
          cases item with
          | none =>
              show Advance r h false _ (@Reply.getNext Unit r).1 _ (@Reply.getNext Unit r).2
                ((@Reply.getNext Unit r).1.calls (@Reply.getNext Unit r).2)
              rw [hnext']
              exact .spoken htakes'
          | frame bytes =>
              simp only [Reply.resume, Heard.resume]
              split_ifs with hempty hframes
              · exact .skips
              · exact .firstFrame bytes hframes
              · exact .frame bytes hframes
      | sendStart bytes => exact .started bytes
      | sendBytes bytes inner => exact .sent bytes
      | pacing => exact .paced
      | drain => exact .drained
      | sendEnd => exact .completed
      | sendError => exact .failed false
      | sendMetrics interrupted => exact .closes interrupted
      | playbackEnd interrupted inner => exact .returns false interrupted

/-! ## Every reply by itself -/

theorem Speech.wire_of_sent (h : t.sent = s.sent) (r : Nat) : t.wire r = s.wire r := by
  unfold Speech.wire
  rw [h]

theorem Speech.wire_append {es : List Event} {m : Nat} (h : t.sent = s.sent ++ es.map (m, ·)) (r : Nat) :
    t.wire r = s.wire r ++ if m = r then es else [] := by
  unfold Speech.wire
  rw [h, List.filterMap_append, List.filterMap_map]
  congr 1
  split
  · rename_i heq
    induction es with
    | nil => rfl
    | cons e es ih => simp [heq] at ih ⊢
  · rename_i hne
    simp [hne]

theorem Consumer.put_reply (c : Consumer Unit) (m : Nat) (item : Option Text) (r : Nat) :
    (c.put m item).reply r = if r = m then { c.reply r with queue := (c.reply r).queue ++ [item] } else c.reply r := by
  unfold Consumer.put
  by_cases heq : r = m
  · subst heq
    simp
  · simp [heq]

theorem Consumer.cancel_task (c : Consumer Unit) (m r : Nat) :
    (c.cancel m).task r = if r = m then (c.task r).cancel else c.task r := by
  unfold Consumer.cancel
  by_cases heq : r = m
  · subst heq
    simp
  · simp [heq]

/-- What a step does to the reply `r`. -/
inductive Playback.Moved (p : Playback n) (l : Label n) (q : Playback n) (r : Nat) : Prop
  | stays : q.speech.tts.task r = p.speech.tts.task r → q.speech.tts.reply r = p.speech.tts.reply r →
      q.heard r = p.heard r → q.speech.wire r = p.speech.wire r → Moved p l q r
  | asked : p.speech.asks l = some r → q.speech.tts.task r = (p.speech.tts.task r).cancel →
      q.speech.tts.reply r = p.speech.tts.reply r → q.heard r = p.heard r → q.speech.wire r = p.speech.wire r → Moved p l q r
  | puts (item : Option Text) : p.speech.tts.active = some r → q.speech.tts.task r = p.speech.tts.task r →
      q.speech.tts.reply r = { p.speech.tts.reply r with queue := (p.speech.tts.reply r).queue ++ [item] } →
      q.heard r = { p.heard r with queued := (p.heard r).queued ++ [item] } → q.speech.wire r = p.speech.wire r → Moved p l q r
  | clears (me : Fin n) (reason : Text) (k : StopFor) :
      p.speech.caller me = .suspended (.stopping r true reason k) false → (p.speech.tts.task r).isDone = true →
      q.speech.tts.task r = p.speech.tts.task r → q.speech.tts.reply r = p.speech.tts.reply r →
      q.heard r = p.heard r → q.speech.wire r = p.speech.wire r ++ [.json (.ttsClear reason)] → Moved p l q r
  | opened (utteranceId : Text) (items : List (Option Text)) : r = p.speech.tts.count → q.speech.tts.count = r + 1 →
      q.speech.tts.task r = .await .created → q.speech.tts.reply r = { utteranceId, queue := items } →
      q.heard r = { p.heard r with queued := (p.heard r).queued ++ items.drop (p.speech.tts.reply r).queue.length } →
      q.speech.wire r = p.speech.wire r → Moved p l q r
  | advanced {pc : Pc Unit} {cancelling : Bool} {next : Option (Pc Unit)} {es : List Event} :
      p.speech.tts.task r = .suspended pc cancelling → q.speech.tts.task r = next.elim .done .await →
      Advance (p.speech.tts.reply r) (p.heard r) cancelling pc (q.speech.tts.reply r) (q.heard r) next es →
      q.speech.wire r = p.speech.wire r ++ es → Moved p l q r

namespace Playback

variable {p q : Playback n} {r : Nat}

theorem of_step (h : p.step l = some q) : Tts.step p.speech l = some q.speech := by
  obtain ⟨t, ht, rfl⟩ := Option.map_eq_some_iff.mp h
  exact ht

/-- A step that is no reply's adds to the queues only. -/
theorem heard_of_step (h : p.step l = some q) (hl : ∀ m w, l ≠ .reply m w) (r : Nat) :
    q.heard r = { p.heard r with queued := (p.heard r).queued ++ p.put q.speech r } := by
  obtain ⟨t, ht, rfl⟩ := Option.map_eq_some_iff.mp h
  cases l with
  | reply m w => exact absurd rfl (hl m w)
  | _ => rfl

theorem heard_of_same (h : p.step l = some q) (hl : ∀ m w, l ≠ .reply m w)
    (hreply : q.speech.tts.reply r = p.speech.tts.reply r) : q.heard r = p.heard r := by
  rw [heard_of_step h hl r, put, hreply, List.drop_length, List.append_nil]

theorem moved_of_reply {m : Nat} {w : Wake Item} (h : p.step (.reply m w) = some q) (r : Nat) :
    Moved p (.reply m w) q r := by
  obtain ⟨t, ht, rfl⟩ := Option.map_eq_some_iff.mp h
  obtain ⟨⟨tts, calls⟩, hresume, rfl⟩ := Option.map_eq_some_iff.mp ht
  obtain ⟨pc, cancelling, hpc, henabled, rfl, rfl⟩ := Consumer.resume_eq_some hresume
  have hwire := fun r => Speech.wire_append (s := p.speech) (t := { p.speech with
    tts := { p.speech.tts with
      audioSent := pc.sent w || p.speech.tts.audioSent
      reply := Function.update p.speech.tts.reply m ((p.speech.tts.reply m).resume pc w).1
      task := Function.update p.speech.tts.task m (((p.speech.tts.reply m).resume pc w).2.elim .done .await) }
    sent := p.speech.sent ++ (((p.speech.tts.reply m).resume pc w).1.calls ((p.speech.tts.reply m).resume pc w).2).map (m, ·) })
    rfl r
  by_cases heq : r = m
  · subst heq
    have hadv := (p.speech.tts.reply r).advance (p.heard r) henabled
    refine .advanced hpc (Function.update_self ..) ?_ ((hwire r).trans (by rw [if_pos rfl]))
    simp only [hpc, Function.update_self]
    exact hadv
  · refine .stays (Function.update_of_ne heq _ _) (Function.update_of_ne heq _ _) ?_
      ((hwire r).trans (by rw [if_neg (Ne.symm heq), List.append_nil]))
    simp only [hpc]
    exact Function.update_of_ne heq _ _

/-- What a step does to a reply is one of these. -/
theorem moved_of_step (h : p.step l = some q) (r : Nat) : Moved p l q r := by
  by_cases hl : ∃ m w, l = .reply m w
  · obtain ⟨m, w, rfl⟩ := hl
    exact moved_of_reply h r
  have hl' : ∀ m w, l ≠ .reply m w := fun m w heq => hl ⟨m, w, heq⟩
  have hsame : q.speech.tts = p.speech.tts → q.speech.sent = p.speech.sent → Moved p l q r := by
    intro htts hsent
    have hreply : q.speech.tts.reply r = p.speech.tts.reply r := by rw [htts]
    exact .stays (by rw [htts]) hreply (heard_of_same h hl' hreply) (Speech.wire_of_sent hsent r)
  have hcancel : ∀ m, p.speech.asks l = some m → q.speech.tts = p.speech.tts.cancel m →
      q.speech.sent = p.speech.sent → Moved p l q r := by
    intro m hasks htts hsent
    have hreply : q.speech.tts.reply r = p.speech.tts.reply r := by rw [htts, Consumer.cancel]
    have htask : q.speech.tts.task r = if r = m then (p.speech.tts.task r).cancel else p.speech.tts.task r := by
      rw [htts, Consumer.cancel_task]
    by_cases heq : r = m
    · rw [if_pos heq] at htask
      exact .asked (heq ▸ hasks) htask hreply (heard_of_same h hl' hreply) (Speech.wire_of_sent hsent r)
    · rw [if_neg heq] at htask
      exact .stays htask hreply (heard_of_same h hl' hreply) (Speech.wire_of_sent hsent r)
  cases Speech.Move.of_step (of_step h) with
  | idle htts hcaller hsent => exact hsame htts hsent
  | leaves me howes htts hcaller hsent => exact hsame htts hsent
  | puts m item hactive htts hcaller hsent =>
      have hreply : q.speech.tts.reply r = _ := (congrArg (fun c => c.reply r) htts).trans (p.speech.tts.put_reply m item r)
      have htask : q.speech.tts.task r = p.speech.tts.task r := by rw [htts, Consumer.put]
      by_cases heq : r = m
      · rw [if_pos heq] at hreply
        refine .puts item (heq ▸ hactive) htask hreply ?_ (Speech.wire_of_sent hsent r)
        rw [heard_of_step h hl' r, put, hreply, List.drop_append_of_le_length le_rfl, List.drop_length, List.nil_append]
      · rw [if_neg heq] at hreply
        exact .stays htask hreply (heard_of_same h hl' hreply) (Speech.wire_of_sent hsent r)
  | stops me m reason k call hlabel hcall hme hactive htts hcaller hsent =>
      refine hcancel m ?_ htts hsent
      rw [hlabel]
      rcases hcall with rfl | hbegins
      · exact hactive
      · cases call <;> first | exact hactive | cases hbegins
  | opens me k hk hcause htts hcaller hsent =>
      by_cases heq : r = p.speech.tts.count
      · subst heq
        have hreply : q.speech.tts.reply p.speech.tts.count = { utteranceId := k.utteranceId, queue := k.items } := by
          rw [htts]
          exact Function.update_self ..
        refine .opened k.utteranceId k.items rfl (by rw [htts]; rfl) ?_ hreply ?_ (Speech.wire_of_sent hsent _)
        · rw [htts]
          exact Function.update_self ..
        · rw [heard_of_step h hl' _, put, hreply]
      · have hreply : q.speech.tts.reply r = p.speech.tts.reply r := by
          rw [htts]
          exact Function.update_of_ne heq _ _
        refine .stays ?_ hreply (heard_of_same h hl' hreply) (Speech.wire_of_sent hsent r)
        rw [htts]
        exact Function.update_of_ne heq _ _
  | clears me m reason k hcaller hdone htts hcaller' hsent =>
      have hreply : q.speech.tts.reply r = p.speech.tts.reply r := by rw [htts]
      have htask : q.speech.tts.task r = p.speech.tts.task r := by rw [htts]
      have hsent' : q.speech.sent = p.speech.sent ++ [Event.json (.ttsClear reason)].map (m, ·) := hsent
      have hwire := Speech.wire_append hsent' r
      by_cases heq : m = r
      · subst heq
        rw [if_pos rfl] at hwire
        exact .clears me reason k hcaller hdone htask hreply (heard_of_same h hl' hreply) hwire
      · rw [if_neg heq, List.append_nil] at hwire
        exact .stays htask hreply (heard_of_same h hl' hreply) hwire
  | asks me hlabel htts hcaller hsent =>
      rcases htts with htts | ⟨m, hadAudio, reason, k, c, hpc, htts⟩
      · exact hsame htts hsent
      · refine hcancel m ?_ htts hsent
        rw [hlabel, Speech.asks, hpc]
  | reply m w _ _ hlabel => exact absurd hlabel (hl' m w)

/-- Replies that have not been created have done nothing, and nobody stops them. -/
structure Fresh (p : Playback n) : Prop where
  idle : ∀ r, p.speech.tts.count ≤ r →
    p.speech.tts.task r = .done ∧ p.speech.tts.reply r = {} ∧ p.heard r = {} ∧ p.speech.wire r = []
  stopped : ∀ me r hadAudio reason k, (p.speech.caller me).pc? = some (.stopping r hadAudio reason k) →
    r < p.speech.tts.count

theorem Fresh.active (h : p.Fresh) (hactive : p.speech.tts.active = some r) : r < p.speech.tts.count := by
  by_contra hle
  have hdone := (Consumer.active_eq_some.mp hactive).2
  rw [(h.idle r (Nat.le_of_not_lt hle)).1] at hdone
  cases hdone

theorem count_le_of_step (h : p.step l = some q) : p.speech.tts.count ≤ q.speech.tts.count := by
  cases Speech.Move.of_step (of_step h) with
  | idle htts | leaves me howes htts | clears me m reason k hcaller hdone htts => exact (congrArg Consumer.count htts).ge
  | puts m item hactive htts => exact (congrArg Consumer.count htts).ge
  | stops me m reason k call hlabel hcall hme hactive htts => exact (congrArg Consumer.count htts).ge
  | opens me k hk hcause htts => exact (Nat.le_succ _).trans (congrArg Consumer.count htts).ge
  | asks me hlabel htts =>
      rcases htts with htts | ⟨m, hadAudio, reason, k, c, hpc, htts⟩ <;> exact (congrArg Consumer.count htts).ge
  | reply m w pc cancelling hlabel hpc henabled htts => exact (congrArg Consumer.count htts).ge

/-- A reply that a step has created waits to be started. -/
theorem created_of_step (h : p.step l = some q) (hle : p.speech.tts.count ≤ r) (hlt : r < q.speech.tts.count) :
    q.speech.tts.task r = .await .created := by
  have hsame : q.speech.tts.count ≠ p.speech.tts.count := by omega
  cases Speech.Move.of_step (of_step h) with
  | idle htts | leaves me howes htts | clears me m reason k hcaller hdone htts =>
      exact absurd (congrArg Consumer.count htts) hsame
  | puts m item hactive htts => exact absurd (congrArg Consumer.count htts) hsame
  | stops me m reason k call hlabel hcall hme hactive htts => exact absurd (congrArg Consumer.count htts) hsame
  | asks me hlabel htts =>
      rcases htts with htts | ⟨m, hadAudio, reason, k, c, hpc, htts⟩ <;> exact absurd (congrArg Consumer.count htts) hsame
  | reply m w pc cancelling hlabel hpc henabled htts => exact absurd (congrArg Consumer.count htts) hsame
  | opens me k hk hcause htts =>
      have hcount : q.speech.tts.count = p.speech.tts.count + 1 := congrArg Consumer.count htts
      obtain rfl : r = p.speech.tts.count := by omega
      rw [htts]
      exact Function.update_self ..

/-- A caller that waits in `stop` has waited there before, or has found the reply active. -/
theorem stopping_of_step (h : p.step l = some q) {me : Fin n} {m : Nat} {hadAudio : Bool} {reason : Text} {k : StopFor}
    (hpc : (q.speech.caller me).pc? = some (.stopping m hadAudio reason k)) :
    (p.speech.caller me).pc? = some (.stopping m hadAudio reason k) ∨ p.speech.tts.active = some m := by
  have hupdate : ∀ (me' : Fin n) (task : Coroutine CallPc), q.speech.caller = Function.update p.speech.caller me' task →
      (task.pc? = some (.stopping m hadAudio reason k) →
        (p.speech.caller me').pc? = some (.stopping m hadAudio reason k) ∨ p.speech.tts.active = some m) →
      (p.speech.caller me).pc? = some (.stopping m hadAudio reason k) ∨ p.speech.tts.active = some m := by
    intro me' task hcaller htask
    rw [hcaller] at hpc
    by_cases heq : me = me'
    · subst heq
      rw [Function.update_self] at hpc
      exact htask hpc
    · rw [Function.update_of_ne heq] at hpc
      exact Or.inl hpc
  cases Speech.Move.of_step (of_step h) with
  | idle _ hcaller | puts _ _ _ _ hcaller => exact Or.inl (hcaller ▸ hpc)
  | leaves me' _ _ hcaller | opens me' _ _ _ _ hcaller => exact hupdate me' _ hcaller (fun ht => nomatch ht)
  | clears me' _ _ _ _ _ _ hcaller => exact hupdate me' _ hcaller (fun ht => nomatch ht)
  | stops me' m' reason' k' _ _ _ _ hactive _ hcaller =>
      refine hupdate me' _ hcaller (fun ht => Or.inr ?_)
      cases ht
      exact hactive
  | asks me' _ _ hcaller => exact hupdate me' _ hcaller (fun ht => Or.inl (by rwa [Coroutine.pc?_cancel] at ht))
  | reply _ _ _ _ _ _ _ _ hcaller => exact Or.inl (hcaller ▸ hpc)

theorem Fresh.step (h : p.Fresh) (hstep : p.step l = some q) : q.Fresh where
  idle := by
    intro r hr
    obtain ⟨htask, hreply, hheard, hwire⟩ := h.idle r ((count_le_of_step hstep).trans hr)
    cases moved_of_step hstep r with
    | stays htask' hreply' hheard' hwire' => exact ⟨htask'.trans htask, hreply'.trans hreply, hheard'.trans hheard, hwire'.trans hwire⟩
    | asked hasks htask' hreply' hheard' hwire' =>
        exact ⟨htask'.trans (by rw [htask]; rfl), hreply'.trans hreply, hheard'.trans hheard, hwire'.trans hwire⟩
    | puts item hactive =>
        have hlt := h.active hactive
        have hle := count_le_of_step hstep
        omega
    | clears me reason k hcaller =>
        have hlt := h.stopped me r true reason k (by rw [hcaller]; rfl)
        have hle := count_le_of_step hstep
        omega
    | opened utteranceId items hcount hcount' => omega
    | advanced hpc => simp [htask] at hpc
  stopped := by
    intro me m hadAudio reason k hpc
    refine Nat.lt_of_lt_of_le ?_ (count_le_of_step hstep)
    rcases stopping_of_step hstep hpc with hpc | hactive
    · exact h.stopped me m hadAudio reason k hpc
    · exact h.active hactive

theorem Fresh.init (n : Nat) : Fresh ({} : Playback n) where
  idle := fun _ _ => ⟨rfl, rfl, rfl, rfl⟩
  stopped := fun _ _ _ _ _ hpc => nomatch hpc

/-- **Each reply by itself**: what holds of a new reply, is not lost by the requests to cancel that the run
allows and is kept by whatever else happens to a reply holds of every reply. -/
theorem each {P : Coroutine (Pc Unit) → Reply → Heard → List Event → Prop} {Q : Coroutine (Pc Unit) → Prop}
    {ok : Playback n → Label n → Prop} {ls : List (Label n)}
    (hok : ∀ {p l r}, ok p l → p.speech.asks l = some r → Q (p.speech.tts.task r))
    (hnew : ∀ utteranceId items, P (.await .created) { utteranceId, queue := items } { queued := items } [])
    (hcancel : ∀ {task r h wire}, P task r h wire → Q task → P task.cancel r h wire)
    (hput : ∀ {task r h wire} (item : Option Text), P task r h wire →
      P task { r with queue := r.queue ++ [item] } { h with queued := h.queued ++ [item] } wire)
    (hclear : ∀ {r h wire} (reason : Text), P .done r h wire → P .done r h (wire ++ [.json (.ttsClear reason)]))
    (hadvance : ∀ {cancelling pc r h r' h' next wire es}, P (.suspended pc cancelling) r h wire →
      Advance r h cancelling pc r' h' next es → P (next.elim .done .await) r' h' (wire ++ es))
    (h : Run step ok {} ls p) (hr : r < p.speech.tts.count) :
    P (p.speech.tts.task r) (p.speech.tts.reply r) (p.heard r) (p.speech.wire r) := by
  have hinv : p.Fresh ∧ ∀ r < p.speech.tts.count,
      P (p.speech.tts.task r) (p.speech.tts.reply r) (p.heard r) (p.speech.wire r) := by
    refine h.invariant (I := fun p => p.Fresh ∧ ∀ r < p.speech.tts.count,
      P (p.speech.tts.task r) (p.speech.tts.reply r) (p.heard r) (p.speech.wire r)) ⟨.init n, fun _ hr => nomatch hr⟩ ?_
    rintro p q l ⟨hfresh, heach⟩ hl hstep
    refine ⟨hfresh.step hstep, fun r hr => ?_⟩
    by_cases hlt : r < p.speech.tts.count
    · have hP := heach r hlt
      cases moved_of_step hstep r with
      | stays htask hreply hheard hwire => rwa [htask, hreply, hheard, hwire]
      | asked hasks htask hreply hheard hwire =>
          rw [htask, hreply, hheard, hwire]
          exact hcancel hP (hok hl hasks)
      | puts item hactive htask hreply hheard hwire =>
          rw [htask, hreply, hheard, hwire]
          exact hput item hP
      | clears me reason k hcaller hdone htask hreply hheard hwire =>
          rw [htask, hreply, hheard, hwire]
          rw [Coroutine.isDone_iff.mp hdone] at hP ⊢
          exact hclear reason hP
      | opened utteranceId items hcount => omega
      | advanced hpc htask hadv hwire =>
          rw [hpc] at hP
          rw [htask, hwire]
          exact hadvance hP hadv
    · obtain ⟨htask, hreply, hheard, hwire⟩ := hfresh.idle r (Nat.le_of_not_lt hlt)
      have created := created_of_step hstep (Nat.le_of_not_lt hlt) hr
      cases moved_of_step hstep r with
      | opened utteranceId items hcount hcount' htask' hreply' hheard' hwire' =>
          rw [htask', hreply', hheard', hwire', hheard, hreply, hwire]
          exact hnew utteranceId items
      | stays htask' => rw [created, htask] at htask'; cases htask'
      | asked _ htask' => rw [created, htask] at htask'; cases htask'
      | puts _ _ htask' => rw [created, htask] at htask'; cases htask'
      | clears _ _ _ _ _ htask' => rw [created, htask] at htask'; cases htask'
      | advanced hpc => rw [htask] at hpc; cases hpc
  exact hinv.2 r hr

end Playback

/-! ## What has been spoken -/

/-- All that was queued before the end marker has been spoken to its end. -/
def Heard.SpokenOut (h : Heard) : Prop := ∃ later, h.queued = h.spoken.map some ++ none :: later

/-- At the suspension point: where the items are that have been put on the queue. -/
def Tally (r : Reply) (h : Heard) : Pc Unit → Prop
  | .created | .queueGet => h.queued = h.spoken.map some ++ r.queue ∧ h.speaking = none
  | .engineNext | .sendStart _ | .sendBytes _ _ | .pacing =>
    h.queued = (h.spoken ++ h.speaking.toList).map some ++ r.queue
  | .drain | .sendEnd | .sendMetrics false | .playbackEnd false _ => h.SpokenOut
  | .sendError | .sendMetrics true | .playbackEnd true _ => True

variable {r r' : Reply} {h h' : Heard} {pc pc' : Pc Unit} {cancelling : Bool} {next : Option (Pc Unit)} {es : List Event}

theorem Heard.SpokenOut.put (hspoken : h.SpokenOut) (item : Option Text) :
    ({ h with queued := h.queued ++ [item] } : Heard).SpokenOut := by
  obtain ⟨later, hqueued⟩ := hspoken
  exact ⟨later ++ [item], by simp [hqueued]⟩

theorem Tally.put (htally : Tally r h pc) (item : Option Text) :
    Tally { r with queue := r.queue ++ [item] } { h with queued := h.queued ++ [item] } pc := by
  cases pc with
  | created | queueGet => exact ⟨by rw [htally.1, List.append_assoc], htally.2⟩
  | engineNext | sendStart | sendBytes | pacing =>
      show h.queued ++ [item] = _ ++ (r.queue ++ [item])
      rw [show h.queued = _ from htally, List.append_assoc]
  | drain | sendEnd => exact Heard.SpokenOut.put htally item
  | sendError => trivial
  | sendMetrics interrupted | playbackEnd interrupted =>
      cases interrupted with
      | true => trivial
      | false => exact Heard.SpokenOut.put htally item

theorem Tally.takes (hqueued : h.queued = h.spoken.map some ++ r.queue) (htakes : Takes r h r' h' pc' es) :
    Tally r' h' pc' := by
  cases htakes with
  | waits hqueue => exact ⟨hqueued, rfl⟩
  | segment text queue hqueue =>
      show h.queued = (h.spoken ++ [text]).map some ++ queue
      rw [hqueued, hqueue]
      simp
  | last queue hqueue | silent queue hqueue => exact ⟨queue, by rw [hqueued, hqueue]⟩

theorem Tally.advance (htally : Tally r h pc) (hadv : Advance r h cancelling pc r' h' next es) :
    ∀ pc', next = some pc' → Tally r' h' pc' := by
  rintro pc' rfl
  cases hadv with
  | starts htakes | gets htakes => exact .takes htally.1 htakes
  | spoken htakes => exact .takes (h := { h with spoken := h.spoken ++ h.speaking.toList }) htally htakes
  | skips | firstFrame | frame | started | sent | paced => exact htally
  | drained | completed => exact htally
  | fails | failed | interrupted => trivial
  | closes interrupted =>
      cases interrupted with
      | true => trivial
      | false => exact htally

/-! ## The end of a reply -/

def Event.metrics? : Event → Option Bool
  | .json (.ttsMetrics _ _ _ interrupted) => some interrupted
  | _ => none

/-- The flags that `tts_metrics` has been sent with. -/
def metrics (wire : List Event) : List Bool := wire.filterMap Event.metrics?

@[simp] theorem metrics_append (wire es : List Event) : metrics (wire ++ es) = metrics wire ++ metrics es :=
  List.filterMap_append

/-- The flag that `tts_metrics` has been sent with when the task is suspended here. -/
def Pc.measured : Pc Unit → List Bool
  | .sendMetrics interrupted | .playbackEnd interrupted _ => [interrupted]
  | _ => []

/-- The flag that `on_playback_end` has been called with when the task is suspended here. -/
def Pc.closing : Pc Unit → List Bool
  | .playbackEnd interrupted _ => [interrupted]
  | _ => []

/-- A `CancelledError` here ends the task before the end of its `finally` block. -/
def Pc.exposed : Pc Unit → Bool
  | .created | .sendMetrics _ => true
  | _ => false

/-- `tts_metrics` has been sent once and `on_playback_end` called once, with the same flag, and with false
only if all that was queued before the end marker has been spoken. -/
def Closed (h : Heard) (wire : List Event) : Prop :=
  ∃ interrupted, metrics wire = [interrupted] ∧ h.ended = [interrupted] ∧ (interrupted = false → h.SpokenOut)

/-- What a reply has sent and called so far, when it is not stopped where it is exposed. -/
structure Closing (task : Coroutine (Pc Unit)) (r : Reply) (h : Heard) (wire : List Event) : Prop where
  suspended : ∀ pc, task.pc? = some pc → Tally r h pc ∧ metrics wire = pc.measured ∧ h.ended = pc.closing
  sheltered : ∀ pc, task = .suspended pc true → pc.exposed = false
  done : task = .done → Closed h wire

namespace Closing

variable {task : Coroutine (Pc Unit)} {wire : List Event}

theorem new (utteranceId : Text) (items : List (Option Text)) :
    Closing (.await .created) { utteranceId, queue := items } { queued := items } [] where
  suspended := by
    rintro pc ⟨⟩
    exact ⟨⟨rfl, rfl⟩, rfl, rfl⟩
  sheltered := fun _ hpc => nomatch hpc
  done := fun hdone => nomatch hdone

theorem cancel (hc : Closing task r h wire) (hsafe : ∀ pc, task.pc? = some pc → pc.exposed = false) :
    Closing task.cancel r h wire where
  suspended := by
    rw [Coroutine.pc?_cancel]
    exact hc.suspended
  sheltered := by
    intro pc hpc
    refine hsafe pc ?_
    rw [← Coroutine.pc?_cancel, hpc, Coroutine.pc?_suspended]
  done := by
    intro hdone
    cases task with
    | done => exact hc.done rfl
    | suspended pc c => cases hdone

theorem put (hc : Closing task r h wire) (item : Option Text) :
    Closing task { r with queue := r.queue ++ [item] } { h with queued := h.queued ++ [item] } wire where
  suspended := by
    intro pc hpc
    obtain ⟨htally, hmetrics, hended⟩ := hc.suspended pc hpc
    exact ⟨htally.put item, hmetrics, hended⟩
  sheltered := hc.sheltered
  done := by
    intro hdone
    obtain ⟨interrupted, hmetrics, hended, hspoken⟩ := hc.done hdone
    exact ⟨interrupted, hmetrics, hended, fun hi => (hspoken hi).put item⟩

theorem clear (hc : Closing .done r h wire) (reason : Text) : Closing .done r h (wire ++ [.json (.ttsClear reason)]) where
  suspended := fun _ hpc => nomatch hpc
  sheltered := fun _ hpc => nomatch hpc
  done := by
    intro hdone
    obtain ⟨interrupted, hmetrics, hended, hspoken⟩ := hc.done hdone
    exact ⟨interrupted, by rw [metrics_append, hmetrics]; rfl, hended, hspoken⟩

/-- What a step of the task sends and calls is what its new suspension point says. -/
theorem measured (hadv : Advance r h cancelling pc r' h' (some pc') es) (hended : h.ended = pc.closing) :
    pc.measured ++ metrics es = pc'.measured ∧ h'.ended = pc'.closing := by
  have htakes : ∀ {h₀ : Heard}, Takes r h₀ r' h' pc' es → h₀.ended = [] → metrics es = pc'.measured ∧ h'.ended = pc'.closing := by
    intro h₀ htakes hnone
    cases htakes <;> exact ⟨rfl, hnone⟩
  cases hadv with
  | starts ht | gets ht => exact htakes ht hended
  | spoken ht => exact htakes ht hended
  | closes interrupted => exact ⟨rfl, by rw [hended]; rfl⟩
  | fails hraises =>
      cases pc <;> first | exact ⟨rfl, hended⟩ | cases hraises
  | interrupted hcreated hcleanup =>
      cases pc <;> first | exact ⟨rfl, hended⟩ | cases hcleanup
  | _ => exact ⟨rfl, hended⟩

theorem advance (hc : Closing (.suspended pc cancelling) r h wire) (hadv : Advance r h cancelling pc r' h' next es) :
    Closing (next.elim .done .await) r' h' (wire ++ es) := by
  obtain ⟨htally, hmetrics, hended⟩ := hc.suspended pc rfl
  cases next with
  | some pc' =>
      refine ⟨?_, (fun _ hpc => nomatch hpc), (fun hdone => nomatch hdone)⟩
      rintro pc'' ⟨⟩
      obtain ⟨hmeasured, hclosing⟩ := measured hadv hended
      exact ⟨htally.advance hadv pc' rfl, by rw [metrics_append, hmetrics, hmeasured], hclosing⟩
  | none =>
      refine ⟨(fun _ hpc => nomatch hpc), (fun _ hpc => nomatch hpc), fun _ => ?_⟩
      cases hadv with
      | dropped => exact absurd (hc.sheltered _ rfl) (by simp [Pc.exposed])
      | cut interrupted => exact absurd (hc.sheltered _ rfl) (by simp [Pc.exposed])
      | returns cancelling interrupted =>
          refine ⟨interrupted, by rw [List.append_nil, hmetrics]; rfl, hended, ?_⟩
          rintro rfl
          exact htally

end Closing

/-- No reply is asked to cancel before its first step or while it sends its metrics. -/
def StopsAtWork (p : Playback n) (l : Label n) : Prop :=
  ∀ pc ∈ (p.speech.asks l).bind fun r => (p.speech.tts.task r).pc?, pc.exposed = false

instance (p : Playback n) (l : Label n) : Decidable (StopsAtWork p l) := by
  unfold StopsAtWork
  infer_instance

/-- **A reply that has ended has sent its metrics and called `on_playback_end` exactly once**, in every run in
which no reply is stopped before its first step or while it sends its metrics. -/
theorem closed_of_stopsAtWork (n : Nat) {ls : List (Label n)} {p : Playback n} {r : Nat}
    (h : Run Playback.step StopsAtWork {} ls p) (hr : r < p.speech.tts.count) (hdone : (p.speech.tts.task r).isDone = true) :
    Closed (p.heard r) (p.speech.wire r) := by
  have hclosing : Closing (p.speech.tts.task r) (p.speech.tts.reply r) (p.heard r) (p.speech.wire r) := by
    refine Playback.each (P := Closing) (Q := fun task => ∀ pc, task.pc? = some pc → pc.exposed = false) ?_ Closing.new
      (fun hc hsafe => hc.cancel hsafe) (fun item hc => hc.put item) (fun reason hc => hc.clear reason)
      (fun hc hadv => hc.advance hadv) h hr
    intro p l r hok hasks pc hpc
    refine hok pc ?_
    rw [hasks]
    exact hpc
  exact hclosing.done (Coroutine.isDone_iff.mp hdone)

/-- A reply of one frame, played to its end. -/
def playedReply : List (Label 1) :=
  [.call 0 (.startSpeaking hello "a".toList), .reply 0 (.ok .none), .reply 0 (.ok (.frame [1, 2])), .reply 0 (.ok .none),
    .reply 0 (.ok .none), .reply 0 (.ok .none), .reply 0 (.ok .none), .reply 0 (.ok .none), .reply 0 (.ok .none),
    .reply 0 (.ok .none), .reply 0 (.ok .none)]

theorem closed_playedReply :
    ∃ p : Playback 1, Run Playback.step StopsAtWork {} playedReply p ∧ Closed (p.heard 0) (p.speech.wire 0) ∧
      (p.heard 0).ended = [false] := by
  obtain ⟨p, hrun, hp⟩ := Run.exists_of_exec
    (P := fun p : Playback 1 => decide (0 < p.speech.tts.count) && (p.speech.tts.task 0).isDone &&
      decide ((p.heard 0).ended = [false])) (s := {})
    (show (exec Playback.step StopsAtWork _ playedReply).any _ = true by decide +kernel)
  simp only [Bool.and_eq_true, decide_eq_true_eq] at hp
  obtain ⟨⟨hcount, hdone⟩, hended⟩ := hp
  exact ⟨p, hrun, closed_of_stopsAtWork 1 hrun hcount hdone, hended⟩

/-- `stop` right after `begin`: the reply task ends before its `try` block is entered. -/
def stoppedAtOnce : List (Label 1) :=
  [.call 0 (.begin "a".toList), .call 0 (.stop "barge_in".toList), .reply 0 .cancelled, .caller 0 (.ok ())]

/-- `on_playback_end` is never called. -/
theorem stoppedAtOnce_not_closed :
    ∃ p : Playback 1, Run Playback.step (fun _ _ => True) {} stoppedAtOnce p ∧ 0 < p.speech.tts.count ∧
      (p.speech.tts.task 0).isDone = true ∧ ¬ Closed (p.heard 0) (p.speech.wire 0) := by
  obtain ⟨p, hrun, hp⟩ := Run.exists_of_exec
    (P := fun p : Playback 1 => decide (0 < p.speech.tts.count) && (p.speech.tts.task 0).isDone &&
      decide ((p.heard 0).ended = [])) (s := {})
    (show (exec Playback.step (fun _ _ => True) _ stoppedAtOnce).any _ = true by decide +kernel)
  simp only [Bool.and_eq_true, decide_eq_true_eq] at hp
  obtain ⟨⟨hcount, hdone⟩, hended⟩ := hp
  refine ⟨p, hrun, hcount, hdone, ?_⟩
  rintro ⟨interrupted, -, hone, -⟩
  rw [hended] at hone
  cases hone

end Voxera.Tts
