import Voxera.EventLoop.Run
import Voxera.TtsConsumer
import Mathlib.Tactic.Simps.Basic

/-!
# A `TTSConsumer` and the tasks that call it

Any number of tasks call `begin`, `speak`, `finish`, `start_speaking` and `stop`, in any order, each one
call at a time; a call may be suspended in `stop`, and its task may be asked to cancel there. The state
keeps, beside the consumer, which call of `begin` has created which reply, which replies have been asked
to cancel, and all calls of `send_json` and `send_bytes`.

At most one reply is at work and the frames come in blocks as long as no reply is begun while another
call of `begin` waits for `stop` (`oneAtATime_of_beginsApart`). `Orderly` is the invariant.
-/

namespace Voxera.Tts

open EventLoop

/-- What awaits `stop`. -/
inductive StopFor where
  | stop
  /-- The call number `ticket` of `begin`. -/
  | begin (utteranceId : Text) (ticket : Nat)
  /-- `start_speaking`, in the call number `ticket` of `begin`. -/
  | startSpeaking (text utteranceId : Text) (ticket : Nat)
  deriving DecidableEq, Repr

/-- The suspension points of `stop`. -/
inductive CallPc where
  /-- Waits for the cancelled reply task `r` to end. -/
  | stopping (r : Nat) (hadAudio : Bool) (reason : Text) (k : StopFor)
  /-- Sends `tts_clear`. -/
  | clearing (k : StopFor)
  deriving DecidableEq, Repr

inductive Call where
  | begin (utteranceId : Text)
  | speak (text : Text)
  | finish
  | startSpeaking (text utteranceId : Text)
  | stop (reason : Text)
  deriving DecidableEq, Repr

/-- The consumer and `n` tasks that call it. -/
structure Speech (n : Nat) where
  tts : Consumer Unit := {}
  /-- The calls of `begin` made so far. -/
  begun : Nat := 0
  /-- The call of `begin` that has created the reply. -/
  ticket : Nat → Nat := fun _ => 0
  /-- The reply has been asked to cancel. -/
  asked : Nat → Bool := fun _ => false
  caller : Fin n → Coroutine CallPc := fun _ => .done
  /-- The calls to the outside, with the reply they are about. -/
  sent : List (Nat × Event) := []

namespace Speech

variable {n : Nat} (me : Fin n) (s : Speech n)

@[simps]
def park (pc : CallPc) : Speech n := { s with caller := Function.update s.caller me (.await pc) }

@[simps]
def leave : Speech n := { s with caller := Function.update s.caller me .done }

/-- `task.cancel()` -/
@[simps]
def cancel (r : Nat) : Speech n :=
  { s with tts := s.tts.cancel r, asked := Function.update s.asked r true }

/-- `begin` after `stop` has returned. -/
@[simps]
def openReply (utteranceId : Text) (ticket : Nat) : Speech n :=
  { s with
    tts := s.tts.openReply utteranceId
    ticket := Function.update s.ticket s.tts.count ticket
    asked := Function.update s.asked s.tts.count false }

/-- `start_speaking` after `begin` has returned. -/
def speakAll (text : Text) : Speech n := { s with tts := (s.tts.speak text).2.finish.2 }

/-- `stop` returns to the call that awaits it. -/
def stopReturned : StopFor → Speech n
  | .stop => s.leave me
  | .begin utteranceId ticket => (s.openReply utteranceId ticket).leave me
  | .startSpeaking text utteranceId ticket => ((s.openReply utteranceId ticket).speakAll text).leave me

/-- `stop` -/
def stop (reason : Text) (k : StopFor) : Speech n :=
  match s.tts.active with
  | none => s.stopReturned me k
  | some r => (s.cancel r).park me (.stopping r s.tts.audioSent reason k)

def call : Call → Speech n
  | .begin utteranceId => { s with begun := s.begun + 1 }.stop me "superseded".toList (.begin utteranceId s.begun)
  | .speak text => { s with tts := (s.tts.speak text).2 }
  | .finish => { s with tts := s.tts.finish.2 }
  | .startSpeaking text utteranceId =>
    { s with begun := s.begun + 1 }.stop me "superseded".toList (.startSpeaking text utteranceId s.begun)
  | .stop reason => s.stop me reason .stop

/-- The cancelled reply task has ended: the rest of `stop`. -/
def replyStopped (r : Nat) (hadAudio : Bool) (reason : Text) (k : StopFor) : Speech n :=
  if hadAudio then { s with sent := s.sent ++ [(r, Event.json (.ttsClear reason))] }.park me (.clearing k)
  else s.stopReturned me k

/-- The await at `pc` can come back now. `gather` hands a request to cancel on to the reply task, and
raises the `CancelledError` when that task has ended. -/
def enabled : CallPc → Wake Unit → Bool
  | _, .raised => false
  | .stopping r _ _ _, _ => (s.tts.task r).isDone
  | .clearing _, _ => true

def resumeCaller (pc : CallPc) : Wake Unit → Speech n
  | .ok _ => match pc with
    | .stopping r hadAudio reason k => s.replyStopped me r hadAudio reason k
    | .clearing k => s.stopReturned me k
  | _ => s.leave me

/-- The task of the call is asked to cancel. -/
def cancelCaller : Speech n :=
  let s' := { s with caller := Function.update s.caller me (s.caller me).cancel }
  match s.caller me with
  | .suspended (.stopping r _ _ _) _ => s'.cancel r
  | _ => s'

/-- The reply task `r` takes a step. -/
def resumeReply (r : Nat) (w : Wake Item) : Option (Speech n) :=
  (s.tts.resume r w).map fun (tts, calls) => { s with tts, sent := s.sent ++ calls.map (r, ·) }

end Speech

/-- The choices of the scheduler and of the callers. -/
inductive Label (n : Nat) where
  | call (me : Fin n) (call : Call)
  | cancel (me : Fin n)
  | caller (me : Fin n) (w : Wake Unit)
  | reply (r : Nat) (w : Wake Item)
  deriving DecidableEq, Repr

/-- One step of the consumer's replies and of its callers. -/
def step {n : Nat} (s : Speech n) : Label n → Option (Speech n)
  | .call me call => if (s.caller me).isDone then some (s.call me call) else none
  | .cancel me => some (s.cancelCaller me)
  | .caller me w =>
    match s.caller me with
    | .done => none
    | .suspended pc cancelling =>
      if w.fits cancelling && s.enabled pc w then some ((s.leave me).resumeCaller me pc w) else none
  | .reply r w => s.resumeReply r w

/-! ## One reply at a time -/

variable {n : Nat} {me : Fin n} {s t : Speech n}

/-- The call of `begin` that awaits `stop`. -/
def StopFor.ticket? : StopFor → Option Nat
  | .begin _ ticket | .startSpeaking _ _ ticket => some ticket
  | .stop => none

/-- The call of `begin` that waits for `stop` at the place. -/
def CallPc.ticket? : CallPc → Option Nat
  | .stopping _ _ _ k | .clearing k => k.ticket?

/-- The call of `begin` in which the task waits for `stop`. -/
def Speech.beginsAt (s : Speech n) (me : Fin n) : Option Nat := (s.caller me).pc?.bind CallPc.ticket?

def Call.begins : Call → Bool
  | .begin _ | .startSpeaking _ _ => true
  | _ => false

/-- No reply is begun while another call of `begin` waits for `stop`. -/
def BeginsApart (s : Speech n) : Label n → Prop
  | .call _ call => call.begins = true → ∀ other, s.beginsAt other = none
  | _ => True

instance (s : Speech n) (l : Label n) : Decidable (BeginsApart s l) := by
  cases l <;> unfold BeginsApart <;> infer_instance

/-- The replies whose frames have been handed to `send_bytes`, in order. -/
def Speech.audio (s : Speech n) : List Nat :=
  s.sent.filterMap fun e => match e with
    | (r, .audio _) => some r
    | _ => none

/-- A reply at work is the current one, and no call of `begin` waits; the replies are numbered in the
order of the calls of `begin`. -/
structure Orderly (s : Speech n) : Prop where
  last : ∀ r, s.tts.current = some r → r + 1 = s.tts.count
  alone : ∀ r, (s.tts.task r).Alive → s.asked r = false → s.tts.current = some r ∧ ∀ me, s.beginsAt me = none
  asked : ∀ r pc, s.asked r = true → s.tts.task r = .suspended pc false → pc.cleanup = true
  one : ∀ me me' k k', s.beginsAt me = some k → s.beginsAt me' = some k' → me = me'
  pending : ∀ me k, s.beginsAt me = some k → k < s.begun ∧ ∀ r < s.tts.count, s.ticket r < k
  tickets : ∀ r < s.tts.count, s.ticket r < s.begun
  ordered : ∀ r r', r < r' → r' < s.tts.count → s.ticket r < s.ticket r'
  heard : ∀ r ∈ s.audio, r < s.tts.count
  blocks : s.audio.Pairwise (· ≤ ·)

namespace Orderly

theorem init (n : Nat) : Orderly ({} : Speech n) where
  last := fun _ h => nomatch h
  alone := fun _ h => absurd rfl h
  asked := fun _ _ h => nomatch h
  one := fun _ _ _ _ h => nomatch h
  pending := fun _ _ h => nomatch h
  tickets := fun _ h => nomatch h
  ordered := fun _ _ _ h => nomatch h
  heard := fun _ h => nomatch h
  blocks := List.Pairwise.nil

/-- The replies stay as they are, and no further call of `begin` waits. -/
theorem congr (h : Orderly s) (hcurrent : t.tts.current = s.tts.current) (hcount : t.tts.count = s.tts.count)
    (htask : t.tts.task = s.tts.task) (hticket : t.ticket = s.ticket) (hasked : t.asked = s.asked)
    (hbegun : s.begun ≤ t.begun) (haudio : t.audio = s.audio)
    (hbegins : ∀ me k, t.beginsAt me = some k → s.beginsAt me = some k) : Orderly t where
  last := by rw [hcurrent, hcount]; exact h.last
  alone := by
    intro r halive hr
    rw [htask] at halive
    rw [hasked] at hr
    obtain ⟨hc, hnone⟩ := h.alone r halive hr
    refine ⟨hcurrent.trans hc, fun me => ?_⟩
    by_contra hsome
    obtain ⟨k, hk⟩ := Option.ne_none_iff_exists'.mp hsome
    have := hbegins me k hk
    simp [hnone me] at this
  asked := by rw [hasked, htask]; exact h.asked
  one me me' k k' hk hk' := h.one me me' k k' (hbegins me k hk) (hbegins me' k' hk')
  pending := by
    intro me k hk
    obtain ⟨hlt, hall⟩ := h.pending me k (hbegins me k hk)
    rw [hcount, hticket]
    exact ⟨Nat.lt_of_lt_of_le hlt hbegun, hall⟩
  tickets := by
    rw [hcount, hticket]
    exact fun r hr => Nat.lt_of_lt_of_le (h.tickets r hr) hbegun
  ordered := by rw [hcount, hticket]; exact h.ordered
  heard := by rw [haudio, hcount]; exact h.heard
  blocks := by rw [haudio]; exact h.blocks

theorem speak (h : Orderly s) (text : Text) : Orderly { s with tts := (s.tts.speak text).2 } := by
  obtain ⟨hcurrent, hcount, htask, -⟩ := s.tts.speak_snd text
  exact h.congr hcurrent hcount htask rfl rfl le_rfl rfl (fun _ _ hk => hk)

theorem finish (h : Orderly s) : Orderly { s with tts := s.tts.finish.2 } := by
  obtain ⟨hcurrent, hcount, htask, -⟩ := s.tts.finish_snd
  exact h.congr hcurrent hcount htask rfl rfl le_rfl rfl (fun _ _ hk => hk)

theorem beginsAt_leave (other : Fin n) :
    (s.leave me).beginsAt other = if other = me then none else s.beginsAt other := by
  unfold Speech.beginsAt
  by_cases heq : other = me <;> simp [heq]

theorem beginsAt_park (pc : CallPc) (other : Fin n) :
    (s.park me pc).beginsAt other = if other = me then pc.ticket? else s.beginsAt other := by
  unfold Speech.beginsAt
  by_cases heq : other = me <;> simp [heq, Coroutine.await]

theorem leave (h : Orderly s) (me : Fin n) : Orderly (s.leave me) := by
  refine h.congr rfl rfl rfl rfl rfl le_rfl rfl (fun other k hk => ?_)
  rw [beginsAt_leave] at hk
  split at hk
  · cases hk
  · exact hk

/-- A call suspends that is no call of `begin`, or that waited in `begin` before. -/
theorem park (h : Orderly s) {pc : CallPc} (hpc : ∀ k, pc.ticket? = some k → s.beginsAt me = some k) :
    Orderly (s.park me pc) := by
  refine h.congr rfl rfl rfl rfl rfl le_rfl rfl (fun other k hk => ?_)
  rw [beginsAt_park] at hk
  split at hk
  · rename_i heq
    exact heq ▸ hpc k hk
  · exact hk

/-- The reply `r` is asked to cancel. -/
theorem cancel (h : Orderly s) (r : Nat) : Orderly (s.cancel r) := by
  have htask : ∀ r', r' ≠ r → (s.cancel r).tts.task r' = s.tts.task r' := by
    intro r' hne
    simp [Consumer.cancel, Function.update_of_ne hne]
  refine { h with alone := ?_, asked := ?_ }
  · intro r' halive hr'
    by_cases heq : r' = r
    · subst heq
      simp at hr'
    · rw [htask r' heq] at halive
      simp only [Speech.cancel_asked, Function.update_of_ne heq] at hr'
      exact h.alone r' halive hr'
  · intro r' pc hr' hpc
    by_cases heq : r' = r
    · subst heq
      simp only [Speech.cancel_tts, Consumer.cancel, Function.update_self] at hpc
      cases ht : s.tts.task r' <;> simp [ht] at hpc
    · rw [htask r' heq] at hpc
      simp only [Speech.cancel_asked, Function.update_of_ne heq] at hr'
      exact h.asked r' pc hr' hpc

/-- Nothing is at work, and the call `k` of `begin` comes after those that have created replies. -/
structure Ready (s : Speech n) (k : Nat) : Prop where
  asked : ∀ r, (s.tts.task r).Alive → s.asked r = true
  noBegin : ∀ me, s.beginsAt me = none
  next : k < s.begun
  after : ∀ r < s.tts.count, s.ticket r < k

/-- `begin` creates the reply. -/
theorem openReply (h : Orderly s) {k : Nat} (hready : Ready s k) (utteranceId : Text) :
    Orderly (s.openReply utteranceId k) where
  last := by
    intro r hr
    cases hr
    rfl
  alone := by
    intro r halive hr
    refine ⟨?_, hready.noBegin⟩
    by_cases heq : r = s.tts.count
    · rw [heq]
      rfl
    · simp only [Speech.openReply_tts, Consumer.openReply, Function.update_of_ne heq] at halive
      simp only [Speech.openReply_asked, Function.update_of_ne heq] at hr
      rw [hready.asked r halive] at hr
      cases hr
  asked := by
    intro r pc hr hpc
    by_cases heq : r = s.tts.count
    · subst heq
      simp at hr
    · simp only [Speech.openReply_tts, Consumer.openReply, Function.update_of_ne heq] at hpc
      simp only [Speech.openReply_asked, Function.update_of_ne heq] at hr
      exact h.asked r pc hr hpc
  one := h.one
  pending := by
    intro me k' hk'
    have := hready.noBegin me
    rw [show s.beginsAt me = some k' from hk'] at this
    cases this
  tickets := by
    intro r hr
    by_cases heq : r = s.tts.count
    · subst heq
      simpa using hready.next
    · have hlt : r < s.tts.count := lt_of_le_of_ne (Nat.le_of_lt_succ hr) heq
      simpa [Function.update_of_ne heq] using h.tickets r hlt
  ordered := by
    intro r r' hlt hr'
    have hne : r ≠ s.tts.count := by
      have hle := Nat.le_of_lt_succ hr'
      omega
    by_cases heq : r' = s.tts.count
    · subst heq
      simpa [Function.update_of_ne hne] using hready.after r hlt
    · have hlt' : r' < s.tts.count := lt_of_le_of_ne (Nat.le_of_lt_succ hr') heq
      simpa [Function.update_of_ne hne, Function.update_of_ne heq] using h.ordered r r' hlt hlt'
  heard r hr := Nat.lt_succ_of_lt (h.heard r hr)
  blocks := h.blocks

/-- `begin` waits, and nothing is at work. -/
theorem waits (h : Orderly s) {k : Nat} (hready : Ready s k) {pc : CallPc} (hpc : pc.ticket? = some k) :
    Orderly (s.park me pc) := by
  have honly : ∀ other k', (s.park me pc).beginsAt other = some k' → other = me ∧ k' = k := by
    intro other k' hk'
    rw [beginsAt_park] at hk'
    split at hk'
    · rename_i heq
      rw [hpc, Option.some.injEq] at hk'
      exact ⟨heq, hk'.symm⟩
    · rw [hready.noBegin other] at hk'
      cases hk'
  refine { h with alone := ?_, one := ?_, pending := ?_ }
  · intro r halive hr
    have hasked : s.asked r = true := hready.asked r halive
    rw [show s.asked r = false from hr] at hasked
    cases hasked
  · intro other other' k' k'' hk' hk''
    rw [(honly other k' hk').1, (honly other' k'' hk'').1]
  · intro other k' hk'
    obtain ⟨-, rfl⟩ := honly other k' hk'
    exact ⟨hready.next, hready.after⟩

/-- Nothing is at work while a call of `begin` waits, and it is the only one. -/
theorem ready_of_beginsAt (h : Orderly s) {k : Nat} (hk : s.beginsAt me = some k) : Ready (s.leave me) k where
  asked := by
    intro r halive
    by_contra hr
    obtain ⟨-, hnone⟩ := h.alone r halive (by simpa using hr)
    simp [hnone me] at hk
  noBegin := by
    intro other
    rw [beginsAt_leave]
    split
    · rfl
    · rename_i hne
      by_contra hsome
      obtain ⟨k', hk'⟩ := Option.ne_none_iff_exists'.mp hsome
      exact hne (h.one other me k' k hk' hk)
  next := (h.pending me k hk).1
  after := (h.pending me k hk).2

theorem stopReturned (h : Orderly s) {k : StopFor} (hk : ∀ ticket, k.ticket? = some ticket → Ready s ticket) :
    Orderly (s.stopReturned me k) := by
  cases k with
  | stop => exact h.leave me
  | begin utteranceId ticket => exact (h.openReply (hk ticket rfl) utteranceId).leave me
  | startSpeaking text utteranceId ticket =>
      have hopened := h.openReply (hk ticket rfl) utteranceId
      exact ((hopened.speak text).finish).leave me

/-- `stop`, called by `begin` when no other call of `begin` waits. -/
theorem stop (h : Orderly s) (reason : Text) {k : StopFor}
    (hk : ∀ ticket, k.ticket? = some ticket →
      (∀ other, s.beginsAt other = none) ∧ ticket < s.begun ∧ ∀ r < s.tts.count, s.ticket r < ticket) :
    Orderly (s.stop me reason k) := by
  unfold Speech.stop
  split
  · rename_i hactive
    refine h.stopReturned (fun ticket hticket => ?_)
    obtain ⟨hnone, hlt, hafter⟩ := hk ticket hticket
    refine ⟨fun r halive => ?_, hnone, hlt, hafter⟩
    by_contra hr
    obtain ⟨hcurrent, -⟩ := h.alone r halive (by simpa using hr)
    have halive' : (s.tts.task r).isDone = false := by
      cases ht : s.tts.task r with
      | suspended pc c => rfl
      | done => exact absurd ht halive
    simp [Consumer.active_eq_some.mpr ⟨hcurrent, halive'⟩] at hactive
  · rename_i r hactive
    cases hticket : k.ticket? with
    | none =>
        refine (h.cancel r).park (fun ticket ht => ?_)
        rw [CallPc.ticket?, hticket] at ht
        cases ht
    | some ticket =>
        obtain ⟨hnone, hlt, hafter⟩ := hk ticket hticket
        refine (h.cancel r).waits (k := ticket) ⟨fun r' halive => ?_, hnone, hlt, hafter⟩ hticket
        by_cases heq : r' = r
        · subst heq
          simp
        · by_contra hr
          simp only [Speech.cancel_asked, Function.update_of_ne heq, Bool.not_eq_true] at hr
          simp only [Speech.cancel_tts, Consumer.cancel, Function.update_of_ne heq] at halive
          obtain ⟨hcurrent, -⟩ := h.alone r' halive hr
          rw [(Consumer.active_eq_some.mp hactive).1, Option.some.injEq] at hcurrent
          exact heq hcurrent.symm

theorem call (h : Orderly s) {call : Call} (hapart : call.begins = true → ∀ other, s.beginsAt other = none) :
    Orderly (s.call me call) := by
  have hbegun : Orderly { s with begun := s.begun + 1 } :=
    h.congr rfl rfl rfl rfl rfl (Nat.le_succ _) rfl (fun _ _ hk => hk)
  cases call with
  | begin utteranceId =>
      refine hbegun.stop _ ?_
      rintro ticket ⟨⟩
      exact ⟨hapart rfl, Nat.lt_succ_self _, h.tickets⟩
  | speak text => exact h.speak text
  | finish => exact h.finish
  | startSpeaking text utteranceId =>
      refine hbegun.stop _ ?_
      rintro ticket ⟨⟩
      exact ⟨hapart rfl, Nat.lt_succ_self _, h.tickets⟩
  | stop reason => exact h.stop reason (fun _ hk => nomatch hk)

/-- A suspended call goes on. -/
theorem resumeCaller (h : Orderly s) {pc : CallPc} {cancelling : Bool} (hpc : s.caller me = .suspended pc cancelling)
    (w : Wake Unit) : Orderly ((s.leave me).resumeCaller me pc w) := by
  have hat : s.beginsAt me = pc.ticket? := by simp [Speech.beginsAt, hpc]
  have hreturned : ∀ k : StopFor, pc.ticket? = k.ticket? → Orderly ((s.leave me).stopReturned me k) := by
    intro k hk
    refine (h.leave me).stopReturned (fun ticket hticket => ?_)
    exact h.ready_of_beginsAt (by rw [hat, hk, hticket])
  unfold Speech.resumeCaller
  cases w with
  | ok a =>
      cases pc with
      | stopping r hadAudio reason k =>
          simp only [Speech.replyStopped]
          split
          · have haudio : ({ s.leave me with sent := s.sent ++ [(r, Event.json (.ttsClear reason))] }.park me
                (.clearing k)).audio = s.audio := by
              simp [Speech.audio]
            refine h.congr rfl rfl rfl rfl rfl le_rfl haudio (fun other ticket ht => ?_)
            rw [beginsAt_park] at ht
            split at ht
            · rename_i heq
              rw [heq, hat]
              exact ht
            · rename_i hne
              have hleft : (s.leave me).beginsAt other = some ticket := ht
              rwa [beginsAt_leave, if_neg hne] at hleft
          · exact hreturned k rfl
      | clearing k => exact hreturned k rfl
  | _ => exact (h.leave me).leave me

theorem cancelCaller (h : Orderly s) (me : Fin n) : Orderly (s.cancelCaller me) := by
  have hcaller : Orderly { s with caller := Function.update s.caller me (s.caller me).cancel } := by
    refine h.congr rfl rfl rfl rfl rfl le_rfl rfl (fun other k hk => ?_)
    unfold Speech.beginsAt at hk ⊢
    by_cases heq : other = me
    · subst heq
      simpa using hk
    · simpa [Function.update_of_ne heq] using hk
  unfold Speech.cancelCaller
  simp only
  split
  · exact hcaller.cancel _
  · exact hcaller

/-- The frames that a reply hands over in one step are its own. -/
theorem audio_of_calls (r : Nat) (calls : List Event) :
    (calls.map (r, ·)).filterMap (fun e => match e with
      | (r, .audio _) => some r
      | _ => none) = (calls.filter (fun e => match e with
      | .audio _ => true
      | _ => false)).map (fun _ => r) := by
  induction calls with
  | nil => rfl
  | cons e rest ih => cases e <;> simp [ih]

/-- A reply takes a step: it hands over a frame only while it is the one at work. -/
theorem resumeReply (h : Orderly s) {r : Nat} {w : Wake Item} (hstep : s.resumeReply r w = some t) : Orderly t := by
  unfold Speech.resumeReply at hstep
  obtain ⟨⟨tts, calls⟩, hresume, rfl⟩ := Option.map_eq_some_iff.mp hstep
  obtain ⟨pc, cancelling, hpc, henabled, rfl, rfl⟩ := Consumer.resume_eq_some hresume
  have hcalm := Consumer.cancelling_of_enabled henabled
  have halive : (s.tts.task r).Alive := by simp [Coroutine.Alive, hpc]
  generalize hnext : ((s.tts.reply r).resume pc w).2 = next
  have haudio : ∀ frame, .audio frame ∈ ((s.tts.reply r).resume pc w).1.calls next → r + 1 = s.tts.count := by
    intro frame hframe
    obtain ⟨inner, rfl⟩ := Reply.audio_of_calls hframe
    obtain ⟨hcleanup, item, rfl⟩ := Reply.resume_sendBytes _ hnext
    have hgoes : cancelling = false := by
      cases cancelling with
      | false => rfl
      | true => exact absurd (hcalm.mpr rfl) (by simp)
    subst hgoes
    refine h.last r (h.alone r halive ?_).1
    by_contra hr
    simp [h.asked r pc (by simpa using hr) hpc] at hcleanup
  have hsent : ({ s with
      tts := { s.tts with
        audioSent := pc.sent w || s.tts.audioSent
        reply := Function.update s.tts.reply r ((s.tts.reply r).resume pc w).1
        task := Function.update s.tts.task r (next.elim .done .await) }
      sent := s.sent ++ (((s.tts.reply r).resume pc w).1.calls next).map (r, ·) } : Speech n).audio =
      s.audio ++ ((((s.tts.reply r).resume pc w).1.calls next).filter (fun e => match e with
        | .audio _ => true
        | _ => false)).map (fun _ => r) := by
    unfold Speech.audio
    rw [List.filterMap_append, audio_of_calls]
  have hnew : ∀ r' ∈ ((((s.tts.reply r).resume pc w).1.calls next).filter (fun e => match e with
        | .audio _ => true
        | _ => false)).map (fun _ => r), r' = r ∧ r + 1 = s.tts.count := by
    intro r' hr'
    obtain ⟨e, he, rfl⟩ := List.mem_map.mp hr'
    obtain ⟨hmem, hisaudio⟩ := List.mem_filter.mp he
    cases e with
    | audio frame => exact ⟨rfl, haudio frame hmem⟩
    | json message => cases hisaudio
  refine ⟨h.last, ?_, ?_, h.one, h.pending, h.tickets, h.ordered, ?_, ?_⟩
  · intro r' halive' hr'
    by_cases heq : r' = r
    · subst heq
      exact h.alone r' halive hr'
    · simp only [Function.update_of_ne heq] at halive'
      exact h.alone r' halive' hr'
  · intro r' pc' hr' hpc'
    by_cases heq : r' = r
    · subst heq
      cases next with
      | none => simp at hpc'
      | some pc'' =>
          simp only [Function.update_self, Option.elim_some, Coroutine.await, Coroutine.suspended.injEq, and_true] at hpc'
          subst hpc'
          refine Reply.resume_cleanup _ ?_ hnext
          cases cancelling with
          | true => exact Or.inr (hcalm.mpr rfl)
          | false => exact Or.inl (h.asked r' pc hr' hpc)
    · simp only [Function.update_of_ne heq] at hpc'
      exact h.asked r' pc' hr' hpc'
  · rw [hsent]
    intro r' hr'
    rcases List.mem_append.mp hr' with hr' | hr'
    · exact h.heard r' hr'
    · obtain ⟨rfl, hlast⟩ := hnew r' hr'
      show r' < s.tts.count
      omega
  · rw [hsent]
    refine List.pairwise_append.mpr ⟨h.blocks, ?_, ?_⟩
    · refine List.pairwise_of_forall_mem_list (fun a ha b hb => ?_)
      rw [(hnew a ha).1, (hnew b hb).1]
    · intro a ha b hb
      obtain ⟨rfl, hlast⟩ := hnew b hb
      have := h.heard a ha
      omega

/-- **A step in which no reply is begun while another is being begun keeps the order.** -/
theorem step (h : Orderly s) {l : Label n} (hok : BeginsApart s l) (hstep : step s l = some t) : Orderly t := by
  cases l with
  | call me call =>
      simp only [Tts.step, Option.ite_none_right_eq_some, Option.some.injEq] at hstep
      obtain ⟨-, rfl⟩ := hstep
      exact h.call hok
  | cancel me =>
      cases hstep
      exact h.cancelCaller me
  | caller me w =>
      simp only [Tts.step] at hstep
      split at hstep
      · cases hstep
      · rename_i pc cancelling hpc
        simp only [Option.ite_none_right_eq_some, Option.some.injEq] at hstep
        obtain ⟨-, rfl⟩ := hstep
        exact h.resumeCaller hpc w
  | reply r w => exact h.resumeReply hstep

end Orderly

/-- At most one reply that has not been asked to cancel is alive, and the frames of a reply that was
begun earlier come before those of one that was begun later. -/
structure OneAtATime (s : Speech n) : Prop where
  alone : ∀ r r', (s.tts.task r).Alive → s.asked r = false → (s.tts.task r').Alive → s.asked r' = false → r = r'
  blocks : s.audio.Pairwise (fun r r' => s.ticket r ≤ s.ticket r')

/-- **One reply at a time**, in every run in which no reply is begun while another call of `begin` waits
for the reply before it to end. -/
theorem oneAtATime_of_beginsApart (n : Nat) {ls : List (Label n)} {s : Speech n} (h : Run step BeginsApart {} ls s) :
    OneAtATime s := by
  have hinv : Orderly s := h.invariant (I := Orderly) (Orderly.init n) (fun hi hok hstep => hi.step hok hstep)
  refine ⟨fun r r' halive hr halive' hr' => ?_, ?_⟩
  · have hcurrent := (hinv.alone r halive hr).1
    rw [(hinv.alone r' halive' hr').1, Option.some.injEq] at hcurrent
    exact hcurrent.symm
  · refine hinv.blocks.imp_of_mem (fun {r r'} _ hr' hle => ?_)
    rcases Nat.lt_or_eq_of_le hle with hlt | rfl
    · exact Nat.le_of_lt (hinv.ordered r r' hlt (hinv.heard r' hr'))
    · exact le_rfl

/-! ## Two runs -/

def hello : Text := "Hello.".toList

/-- Two callers. -/
def first : Fin 2 := 0
def second : Fin 2 := 1

/-- A reply is superseded while its first frame is being sent. -/
def supersededReply : List (Label 2) :=
  [.call 0 (.startSpeaking hello "a".toList), .reply 0 (.ok .none), .reply 0 (.ok (.frame [1, 2])),
    .reply 0 (.ok .none), .call 1 (.startSpeaking hello "b".toList), .reply 0 .cancelled, .reply 0 (.ok .none),
    .reply 0 (.ok .none), .caller 1 (.ok ()), .reply 1 (.ok .none), .reply 1 (.ok (.frame [3, 4])), .reply 1 (.ok .none)]

theorem oneAtATime_supersededReply :
    ∃ s : Speech 2, Run step BeginsApart {} supersededReply s ∧ OneAtATime s ∧ s.audio = [0, 1] := by
  obtain ⟨s, hrun, haudio⟩ := Run.exists_of_exec (P := fun s => s.audio == [0, 1]) (s := {})
    (show (exec step BeginsApart _ supersededReply).any _ = true by decide +kernel)
  exact ⟨s, hrun, oneAtATime_of_beginsApart 2 hrun, by simpa using haudio⟩

/-- Two tasks begin a reply while the same reply is still ending. -/
def overlappingBegins : List (Label 2) :=
  [.call 0 (.startSpeaking hello "a".toList), .call 0 (.startSpeaking hello "b".toList),
    .call 1 (.startSpeaking hello "c".toList), .reply 0 .cancelled, .caller 0 (.ok ()), .caller 1 (.ok ())]

/-- Both replies are at work. -/
theorem overlappingBegins_not_oneAtATime :
    ∃ s : Speech 2, Run step (fun _ _ => True) {} overlappingBegins s ∧ ¬ OneAtATime s := by
  obtain ⟨s, hrun, hboth⟩ := Run.exists_of_exec
    (P := fun s : Speech 2 => !(s.tts.task 1).isDone && !s.asked 1 && !(s.tts.task 2).isDone && !s.asked 2) (s := {})
    (show (exec step (fun _ _ => True) _ overlappingBegins).any _ = true by decide +kernel)
  simp only [Bool.and_eq_true, Bool.not_eq_true'] at hboth
  obtain ⟨⟨⟨halive, hasked⟩, halive'⟩, hasked'⟩ := hboth
  have hne : ∀ r, (s.tts.task r).isDone = false → (s.tts.task r).Alive := by
    intro r hr hdone
    simp [hdone] at hr
  refine ⟨s, hrun, fun h => ?_⟩
  cases h.alone 1 2 (hne 1 halive) hasked (hne 2 halive') hasked'

end Voxera.Tts
