import Voxera.Stt.DeepgramEngine

/-!
# `finalize_utterance`

`finalize_utterance` asks the provider for what is left, takes events out of the queue until a FINAL one comes or two
seconds are over, and resets the engine. The receiver task goes on while it sleeps. `passes` is how often the loop finds
the deadline ahead, and `arrivals` lists what arrives in each of its sleeps.

* `finalizeLoop` : the loop of both engines, over a `Receiver`;
* `DeepgramEngine.finalizeUtterance`, `TranscribeEngine.finalizeUtterance` : the method, with what its reset drops;
* `Contract` : a FINAL event or nothing is returned, and the reset drops no FINAL event and no segment;
* `EndsWhole` : how the loop must end for that; `finalizeUtterance_contract_iff`.
-/

namespace Voxera.Stt

/-- The receiver task of an engine `σ`, to which the provider sends `μ`. -/
structure Receiver (σ μ : Type) where
  receive : σ → μ → List SttEvent × σ
  /-- Nothing is waited for when the queue is empty. -/
  done : σ → Bool

/-- What the loop looks at. -/
structure Waiting (σ μ : Type) where
  engine : σ
  /-- `_event_queue` -/
  queue : List SttEvent
  arrivals : List (List μ)

section Loop
variable {σ μ : Type} (R : Receiver σ μ)

/-- What a series of messages leaves: the events, and the engine. -/
def Receiver.receiveAll (engine : σ) : List μ → List SttEvent × σ
  | [] => ([], engine)
  | m :: ms =>
    let (events, engine) := R.receive engine m
    let (more, engine) := receiveAll engine ms
    (events ++ more, engine)

/-- `asyncio.sleep(0.05)`, on an empty queue. -/
def Receiver.sleep (w : Waiting σ μ) : Waiting σ μ :=
  match w.arrivals with
  | [] => w
  | batch :: arrivals =>
    let (events, engine) := R.receiveAll w.engine batch
    { engine, queue := events, arrivals }

/-- The loop; `last` is `final_event`. -/
def finalizeLoop : ℕ → Option SttEvent → Waiting σ μ → Option SttEvent × Waiting σ μ
  | 0, last, w => (last, w)
  | passes + 1, last, w =>
    match w.queue with
    | [] => if R.done w.engine then (last, w) else finalizeLoop passes last (R.sleep w)
    | event :: queue =>
      if event.type = .FINAL then (some event, { w with queue })
      else finalizeLoop passes (some event) { w with queue }

end Loop

/-- What comes of a `finalize_utterance`, and what its `reset` throws away. -/
structure Finalized where
  returned : Option SttEvent
  droppedEvents : List SttEvent
  droppedSegments : List Text

/-! ## Deepgram -/

/-- A message, with the `uuid4` that it may take. -/
abbrev DeepgramMessage := Text × Payload

def deepgramReceiver : Receiver DeepgramEngine DeepgramMessage where
  receive e m := ((e.parseResult m.1 m.2).1.toList, (e.parseResult m.1 m.2).2)
  done _ := false

namespace DeepgramEngine

/-- `finalize_utterance`, `sending` being what arrives while `Finalize` is sent. -/
def finalizeUtterance (e : DeepgramEngine) (queue : List SttEvent) (sending : List DeepgramMessage)
    (arrivals : List (List DeepgramMessage)) (passes : ℕ) : Finalized :=
  let (events, e) := deepgramReceiver.receiveAll e sending
  let (returned, w) := finalizeLoop deepgramReceiver passes none { engine := e, queue := queue ++ events, arrivals }
  { returned, droppedEvents := w.queue, droppedSegments := w.engine.segments }

end DeepgramEngine

/-! ## Transcribe -/

/-- One of the `results` of a message; a missing `is_partial` counts as `True`. -/
structure TranscribeResult where
  alternatives : List Text
  isPartial : Bool := true

structure TranscribeEngine where
  /-- `_utterance_id` -/
  utteranceId : Option Text := none
  /-- `_receiver_task` is there and done. -/
  receiverDone : Bool := false

/-- What the stream of the provider gives: a message, each result with the `uuid4` that it may take, or its end. -/
inductive TranscribeMessage where
  | transcript (results : List (Text × TranscribeResult))
  | ended

namespace TranscribeEngine

/-- `parse_results` -/
def parseResults (e : TranscribeEngine) : List (Text × TranscribeResult) → List SttEvent × TranscribeEngine
  | [] => ([], e)
  | (fresh, result) :: results =>
    match result.alternatives with
    | [] => parseResults e results
    | alternative :: _ =>
      let transcript := Text.strip alternative
      if transcript.isEmpty then parseResults e results
      else
        let utteranceId := e.utteranceId.getD fresh
        if result.isPartial then
          let (events, e) := parseResults e results
          ({ type := .PARTIAL, utteranceId, transcript, confidence := 1 / 2 } :: events, e)
        else
          let (events, e) := parseResults { e with utteranceId := none } results
          ({ type := .FINAL, utteranceId, transcript, confidence := 1 } :: events, e)

/-- `_receive_loop` on what the stream gives. -/
def receive (e : TranscribeEngine) : TranscribeMessage → List SttEvent × TranscribeEngine
  | .transcript results => if e.receiverDone then ([], e) else e.parseResults results
  | .ended => ([], { e with receiverDone := true })

end TranscribeEngine

def transcribeReceiver : Receiver TranscribeEngine TranscribeMessage where
  receive := TranscribeEngine.receive
  done e := e.receiverDone

namespace TranscribeEngine

/-- `finalize_utterance`, `sending` being what arrives while the end of the stream is sent. -/
def finalizeUtterance (e : TranscribeEngine) (queue : List SttEvent) (sending : List TranscribeMessage)
    (arrivals : List (List TranscribeMessage)) (passes : ℕ) : Finalized :=
  let (events, e) := transcribeReceiver.receiveAll e sending
  let (returned, w) := finalizeLoop transcribeReceiver passes none { engine := e, queue := queue ++ events, arrivals }
  { returned, droppedEvents := w.queue, droppedSegments := [] }

end TranscribeEngine

/-! ## The contract -/

def NoFinal (events : List SttEvent) : Prop := ∀ event ∈ events, event.type ≠ .FINAL

structure Contract (f : Finalized) : Prop where
  final : ∀ event, f.returned = some event → event.type = .FINAL
  events : NoFinal f.droppedEvents
  segments : f.droppedSegments = []

section Ends
variable {σ μ : Type} (R : Receiver σ μ)

/-- One pass of the loop that goes on. -/
def Receiver.next (w : Waiting σ μ) : Waiting σ μ :=
  match w.queue with
  | [] => R.sleep w
  | _ :: queue => { w with queue }

/-- What the loop looks at in its `k`-th pass, when no pass before ends it. -/
def Receiver.pass : ℕ → Waiting σ μ → Waiting σ μ
  | 0, w => w
  | k + 1, w => pass k (R.next w)

/-- The next event is a FINAL one. -/
def Waiting.AtFinal (w : Waiting σ μ) : Prop := ∃ event queue, w.queue = event :: queue ∧ event.type = .FINAL

/-- The loop gives up. -/
def Receiver.GivesUp (w : Waiting σ μ) : Prop := w.queue = [] ∧ R.done w.engine = true

/-- The loop ends in the pass `m` with a FINAL event behind which none is queued, or without having taken any event when
no FINAL one is queued; and no segment is pending then. -/
def EndsWhole (pending : σ → List Text) (passes : ℕ) (w : Waiting σ μ) : Prop :=
  ∃ m ≤ passes, (∀ k < m, ¬(R.pass k w).AtFinal ∧ ¬R.GivesUp (R.pass k w)) ∧ pending (R.pass m w).engine = [] ∧
    ((m < passes ∧ (R.pass m w).AtFinal ∧ NoFinal (R.pass m w).queue.tail) ∨
      ((m = passes ∨ R.GivesUp (R.pass m w)) ∧ (∀ k < m, (R.pass k w).queue = []) ∧ NoFinal (R.pass m w).queue))

variable {R} {pending : σ → List Text} {passes : ℕ} {w : Waiting σ μ} {last : Option SttEvent} {event : SttEvent}
  {queue : List SttEvent}

/-- What the loop leaves, seen from its `last` event on. -/
def Kept (pending : σ → List Text) (result : Option SttEvent × Waiting σ μ) : Prop :=
  Contract { returned := result.1, droppedEvents := result.2.queue, droppedSegments := pending result.2.engine }

/-- `EndsWhole`, when the loop has remembered `last`. -/
def Ends (R : Receiver σ μ) (pending : σ → List Text) (passes : ℕ) (last : Option SttEvent) (w : Waiting σ μ) : Prop :=
  ∃ m ≤ passes, (∀ k < m, ¬(R.pass k w).AtFinal ∧ ¬R.GivesUp (R.pass k w)) ∧ pending (R.pass m w).engine = [] ∧
    ((m < passes ∧ (R.pass m w).AtFinal ∧ NoFinal (R.pass m w).queue.tail) ∨
      ((m = passes ∨ R.GivesUp (R.pass m w)) ∧ last = none ∧ (∀ k < m, (R.pass k w).queue = []) ∧
        NoFinal (R.pass m w).queue))

/-- When the loop stops with an event that is no FINAL one, there must be none. -/
theorem kept_last_iff (hlast : ∀ event, last = some event → event.type ≠ .FINAL) :
    Kept pending (last, w) ↔ pending w.engine = [] ∧ last = none ∧ NoFinal w.queue := by
  constructor
  · intro h
    refine ⟨h.segments, ?_, h.events⟩
    cases last with
    | none => rfl
    | some event => exact absurd (h.final event rfl) (hlast event rfl)
  · rintro ⟨hpending, rfl, hqueue⟩
    exact ⟨by simp, hqueue, hpending⟩

theorem ends_zero : Ends R pending 0 last w ↔ pending w.engine = [] ∧ last = none ∧ NoFinal w.queue := by
  constructor
  · rintro ⟨m, hm, -, hpending, hlate | ⟨-, hlast, -, hqueue⟩⟩
    · exact absurd hlate.1 (Nat.not_lt_zero m)
    · obtain rfl := Nat.le_zero.mp hm
      exact ⟨hpending, hlast, hqueue⟩
  · rintro ⟨hpending, hlast, hqueue⟩
    exact ⟨0, le_rfl, fun _ hk => absurd hk (Nat.not_lt_zero _), hpending,
      Or.inr ⟨Or.inl rfl, hlast, fun _ hk => absurd hk (Nat.not_lt_zero _), hqueue⟩⟩

theorem not_atFinal_of_empty (h : w.queue = []) : ¬w.AtFinal := by
  rintro ⟨event, queue, hqueue, -⟩
  rw [h] at hqueue
  exact absurd hqueue (by simp)

theorem atFinal_iff (hqueue : w.queue = event :: queue) : w.AtFinal ↔ event.type = .FINAL := by
  constructor
  · rintro ⟨event', queue', hqueue', h⟩
    rw [hqueue] at hqueue'
    rwa [(List.cons.inj hqueue').1]
  · intro h
    exact ⟨event, queue, hqueue, h⟩

theorem ends_of_givesUp (h : R.GivesUp w) :
    Ends R pending (passes + 1) last w ↔ pending w.engine = [] ∧ last = none ∧ NoFinal w.queue := by
  constructor
  · rintro ⟨m, -, hgoes, hpending, hend⟩
    cases m with
    | succ m => exact absurd h (hgoes 0 (Nat.succ_pos m)).2
    | zero =>
        rcases hend with ⟨-, hfinal, -⟩ | ⟨-, hlast, -, hqueue⟩
        · exact absurd hfinal (not_atFinal_of_empty h.1)
        · exact ⟨hpending, hlast, hqueue⟩
  · rintro ⟨hpending, hlast, hqueue⟩
    exact ⟨0, Nat.zero_le _, fun _ hk => absurd hk (Nat.not_lt_zero _), hpending,
      Or.inr ⟨Or.inr h, hlast, fun _ hk => absurd hk (Nat.not_lt_zero _), hqueue⟩⟩

theorem ends_of_atFinal (hqueue : w.queue = event :: queue) (h : event.type = .FINAL) :
    Ends R pending (passes + 1) last w ↔ pending w.engine = [] ∧ NoFinal queue := by
  have hfinal : w.AtFinal := (atFinal_iff hqueue).mpr h
  constructor
  · rintro ⟨m, -, hgoes, hpending, hend⟩
    cases m with
    | succ m => exact absurd hfinal (hgoes 0 (Nat.succ_pos m)).1
    | zero =>
        rcases hend with ⟨-, -, htail⟩ | ⟨-, -, -, hnone⟩
        · exact ⟨hpending, by simpa [Receiver.pass, hqueue] using htail⟩
        · exact absurd h (hnone event (by simp [Receiver.pass, hqueue]))
  · rintro ⟨hpending, htail⟩
    exact ⟨0, Nat.zero_le _, fun _ hk => absurd hk (Nat.not_lt_zero _), hpending,
      Or.inl ⟨Nat.succ_pos passes, hfinal, by simpa [Receiver.pass, hqueue] using htail⟩⟩

/-- A pass in which the loop does not end. -/
theorem ends_of_next (hfinal : ¬w.AtFinal) (hover : ¬R.GivesUp w) :
    Ends R pending (passes + 1) last w ↔ ∃ m ≤ passes,
      (∀ k < m, ¬(R.pass k (R.next w)).AtFinal ∧ ¬R.GivesUp (R.pass k (R.next w))) ∧
      pending (R.pass m (R.next w)).engine = [] ∧
      ((m < passes ∧ (R.pass m (R.next w)).AtFinal ∧ NoFinal (R.pass m (R.next w)).queue.tail) ∨
        ((m = passes ∨ R.GivesUp (R.pass m (R.next w))) ∧ last = none ∧
          (w.queue = [] ∧ ∀ k < m, (R.pass k (R.next w)).queue = []) ∧ NoFinal (R.pass m (R.next w)).queue)) := by
  -- The first pass stands in front of those of the rest.
  have hshift : ∀ (P : Waiting σ μ → Prop) m,
      (∀ k < m + 1, P (R.pass k w)) ↔ P w ∧ ∀ k < m, P (R.pass k (R.next w)) := by
    intro P m
    constructor
    · intro h
      exact ⟨h 0 (Nat.succ_pos m), fun k hk => h (k + 1) (by omega)⟩
    · rintro ⟨h0, h⟩ k hk
      cases k with
      | zero => exact h0
      | succ k => exact h k (by omega)
  constructor
  · rintro ⟨m, hm, hgoes, hpending, hend⟩
    cases m with
    | zero =>
        rcases hend with ⟨-, h, -⟩ | ⟨h | h, -⟩
        · exact absurd h hfinal
        · exact absurd h (Nat.succ_ne_zero passes).symm
        · exact absurd h hover
    | succ m =>
        refine ⟨m, by omega, ((hshift (fun w => ¬w.AtFinal ∧ ¬R.GivesUp w) m).mp hgoes).2, hpending, ?_⟩
        rcases hend with ⟨hlt, h⟩ | ⟨hlate, hlast, hempty, hnone⟩
        · exact Or.inl ⟨by omega, h⟩
        · exact Or.inr ⟨hlate.imp_left (by omega), hlast, (hshift (fun w => w.queue = []) m).mp hempty, hnone⟩
  · rintro ⟨m, hm, hgoes, hpending, hend⟩
    refine ⟨m + 1, by omega, (hshift (fun w => ¬w.AtFinal ∧ ¬R.GivesUp w) m).mpr ⟨⟨hfinal, hover⟩, hgoes⟩, hpending, ?_⟩
    rcases hend with ⟨hlt, h⟩ | ⟨hlate, hlast, hempty, hnone⟩
    · exact Or.inl ⟨by omega, h⟩
    · exact Or.inr ⟨hlate.imp_left (by omega), hlast, (hshift (fun w => w.queue = []) m).mpr hempty, hnone⟩

/-- A pass that goes on with nothing taken. -/
theorem ends_of_sleep (h : w.queue = []) (hover : ¬R.GivesUp w) :
    Ends R pending (passes + 1) last w ↔ Ends R pending passes last (R.next w) := by
  rw [ends_of_next (not_atFinal_of_empty h) hover]
  simp only [h, true_and]
  rfl

/-- A pass that takes an event that is no FINAL one. -/
theorem ends_of_taken (hqueue : w.queue = event :: queue) (h : event.type ≠ .FINAL) :
    Ends R pending (passes + 1) last w ↔ Ends R pending passes (some event) (R.next w) := by
  have hover : ¬R.GivesUp w := by
    rintro ⟨hempty, -⟩
    rw [hqueue] at hempty
    exact absurd hempty (by simp)
  rw [ends_of_next (fun hf => h ((atFinal_iff hqueue).mp hf)) hover]
  simp only [hqueue, Ends, reduceCtorEq, false_and, and_false, or_false]

theorem kept_finalizeLoop_iff (hlast : ∀ event, last = some event → event.type ≠ .FINAL) :
    Kept pending (finalizeLoop R passes last w) ↔ Ends R pending passes last w := by
  induction passes generalizing last w with
  | zero => rw [finalizeLoop, kept_last_iff hlast, ends_zero]
  | succ passes ih =>
      rw [finalizeLoop]
      split
      · next hqueue =>
          split
          · next hover => rw [kept_last_iff hlast, ends_of_givesUp ⟨hqueue, hover⟩]
          · next hover =>
              have hnext : R.next w = R.sleep w := by rw [Receiver.next, hqueue]
              rw [ends_of_sleep hqueue (fun h => hover h.2), hnext, ih hlast]
      · next event queue hqueue =>
          split
          · next hfinal =>
              rw [ends_of_atFinal hqueue hfinal]
              constructor
              · intro h
                exact ⟨h.segments, h.events⟩
              · rintro ⟨hpending, hrest⟩
                exact ⟨fun _ h => Option.some.inj h ▸ hfinal, hrest, hpending⟩
          · next hfinal =>
              have hnext : R.next w = { w with queue } := by rw [Receiver.next, hqueue]
              rw [ends_of_taken hqueue hfinal, hnext, ih (fun _ h => Option.some.inj h ▸ hfinal)]

theorem ends_none : Ends R pending passes none w ↔ EndsWhole R pending passes w := by simp [Ends, EndsWhole]

end Ends

/-- What the loop of an engine begins with: the queue, and what has arrived while the provider was asked for the rest. -/
def Receiver.begin {σ μ : Type} (R : Receiver σ μ) (engine : σ) (queue : List SttEvent) (sending : List μ)
    (arrivals : List (List μ)) : Waiting σ μ where
  engine := (R.receiveAll engine sending).2
  queue := queue ++ (R.receiveAll engine sending).1
  arrivals := arrivals

/-- The engines keep the contract exactly when their loop ends whole. -/
theorem finalizeUtterance_contract_iff (queue : List SttEvent) (passes : ℕ) :
    (∀ (e : DeepgramEngine) (sending : List DeepgramMessage) (arrivals : List (List DeepgramMessage)),
      Contract (e.finalizeUtterance queue sending arrivals passes) ↔
        EndsWhole deepgramReceiver (·.segments) passes (deepgramReceiver.begin e queue sending arrivals)) ∧
    ∀ (e : TranscribeEngine) (sending : List TranscribeMessage) (arrivals : List (List TranscribeMessage)),
      Contract (e.finalizeUtterance queue sending arrivals passes) ↔
        EndsWhole transcribeReceiver (fun _ => []) passes (transcribeReceiver.begin e queue sending arrivals) := by
  constructor
  · intro e sending arrivals
    have hnone : ∀ event : SttEvent, none = some event → event.type ≠ .FINAL := by simp
    rw [← ends_none, ← kept_finalizeLoop_iff hnone]
    rfl
  · intro e sending arrivals
    have hnone : ∀ event : SttEvent, none = some event → event.type ≠ .FINAL := by simp
    rw [← ends_none, ← kept_finalizeLoop_iff hnone]
    rfl

/-- The words of an interim result. -/
def interim : SttEvent where
  type := .PARTIAL
  utteranceId := "a".toList
  transcript := "where is".toList
  confidence := 1

/-- An interim result is queued and nothing else arrives: both engines return it. -/
theorem interim_returned : ¬Contract (({} : DeepgramEngine).finalizeUtterance [interim] [] [] 41) ∧
    ¬Contract (({} : TranscribeEngine).finalizeUtterance [interim] [] [] 41) := by
  constructor
  · intro h
    exact absurd (h.final interim (by decide +kernel)) (by decide)
  · intro h
    exact absurd (h.final interim (by decide +kernel)) (by decide)

end Voxera.Stt
