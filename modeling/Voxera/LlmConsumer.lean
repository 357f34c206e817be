import Voxera.EventLoop.Coroutine
import Voxera.SentenceChunker

/-!
# `LLMConsumer`

One consumer holds the generation tasks it has started and the index of the current one (`_task`).

* `Pc` : the suspension points of `_run`. A task inside `on_segment` or `on_complete` also carries
  where it is suspended in the callback (`ι`, of the owner of the consumer).
* `Gen.resume` : `_run` from one suspension point to the next await, callback or end.
* `Consumer.cancel`, `Consumer.startGeneration`.
-/

namespace Voxera.Llm

open EventLoop

inductive Role where
  | user
  | assistant
  deriving DecidableEq, Repr

/-- One entry of the conversation history. -/
structure Entry where
  role : Role
  content : Text
  deriving DecidableEq, Repr

inductive Outcome where
  | completed
  | cancelled
  | failed
  deriving DecidableEq, Repr

/-- The JSON events a generation sends to the client. -/
inductive Message where
  | llmPartial (token : Text) (tokenIndex : Nat) (accumulated : Text)
  | llmFinal (text : Text)
  | llmCancelled (partialText : Text)
  | error
  deriving DecidableEq, Repr

/-- The suspension points of `_run`. -/
inductive Pc (ι : Type) where
  | created
  /-- In `async for st in self.engine.stream(...)`. -/
  | engineNext
  | sendPartial (token : Text) (tokenIndex : Nat)
  /-- In `on_segment`, with the segments still to be handed out; `flushed` after the stream's end. -/
  | onSegment (rest : List Text) (flushed : Bool) (inner : ι)
  | sendFinal
  /-- In the `except CancelledError` block. -/
  | sendCancelled
  /-- In the `except Exception` block. -/
  | sendFailed
  | onComplete (outcome : Outcome) (inner : ι)
  deriving DecidableEq, Repr

/-- What the engine's stream gives to `async for`. -/
inductive Item where
  /-- The await is not one of the engine's, or the stream has ended. -/
  | none
  | token (token : Text) (tokenIndex : Nat)
  /-- Something that is no `StreamToken`. -/
  | other
  deriving DecidableEq, Repr

/-- The arguments and the local variables of one `_run`. -/
structure Gen where
  prompt : Text := []
  utteranceId : Text := []
  history : List Entry := []
  chunker : SentenceChunker := {}
  parts : List Text := []
  deriving DecidableEq, Repr

/-- What `_run` does next: await, hand out segments, report the outcome, or end. -/
inductive Next (ι : Type) where
  | await (pc : Pc ι)
  | segments (segments : List Text) (flushed : Bool)
  | complete (outcome : Outcome)
  | ended
  deriving DecidableEq, Repr

namespace Gen

variable {ι : Type}

/-- `"".join(parts)`. -/
def text (g : Gen) : Text := g.parts.flatten

/-- `_run` from the suspension point `pc` on. A `CancelledError` before the first step ends the task
at once; one in the `try` block is reported as cancelled; one in an `except` block leaves the outcome
as it is and goes on to `on_complete`. -/
def resume (g : Gen) : Pc ι → Wake Item → Gen × Next ι
  | .created, .ok _ => (g, .await .engineNext)
  | .created, _ => (g, .ended)
  | .engineNext, .ok (.token token index) =>
    ({ g with parts := g.parts ++ [token] }, .await (.sendPartial token index))
  | .engineNext, .ok .other => (g, .await .engineNext)
  | .engineNext, .ok .none =>
    let (rest, chunker) := g.chunker.flush
    ({ g with chunker }, .segments rest.toList true)
  | .sendPartial token _, .ok _ =>
    let (segments, chunker) := g.chunker.feed token
    ({ g with chunker }, .segments segments false)
  | .onSegment rest flushed _, .ok _ => (g, .segments rest flushed)
  | .sendFinal, .ok _ => (g, .complete .completed)
  | .sendCancelled, _ => (g, .complete .cancelled)
  | .sendFailed, _ => (g, .complete .failed)
  | .onComplete _ _, _ => (g, .ended)
  | _, .raised => (g, .await .sendFailed)
  | _, .cancelled => (g, .await .sendCancelled)

/-- Where `_run` goes on when all segments have been handed out. -/
def afterSegments (flushed : Bool) : Pc ι := if flushed then .sendFinal else .engineNext

/-- The call whose await the suspension point `pc` is. -/
def calls (g : Gen) : Pc ι → List Message
  | .sendPartial token index => [.llmPartial token index g.text]
  | .sendFinal => [.llmFinal g.text]
  | .sendCancelled => [.llmCancelled g.text]
  | .sendFailed => [.error]
  | _ => []

end Gen

/-- The generation is in its `try` block: it may still hand out segments. -/
def Pc.live {ι : Type} : Pc ι → Bool
  | .sendCancelled | .sendFailed | .onComplete _ _ => false
  | _ => true

/-- The generation is in a callback. -/
def Pc.inCallback {ι : Type} : Pc ι → Bool
  | .onSegment _ _ _ | .onComplete _ _ => true
  | _ => false

namespace Gen

variable {ι : Type} {g : Gen} {pc : Pc ι} {w : Wake Item}

theorem live_of_await {pc' : Pc ι} (h : (g.resume pc w).2 = .await pc') (hlive : pc'.live = true) :
    pc.live = true ∧ ∃ item, w = .ok item := by
  cases pc <;> cases w <;> simp only [resume] at h
  case created.ok | engineNext.raised | engineNext.cancelled | sendPartial.raised | sendPartial.cancelled |
    onSegment.raised | onSegment.cancelled | sendFinal.raised | sendFinal.cancelled =>
    cases h
    first | exact ⟨rfl, _, rfl⟩ | cases hlive
  case engineNext.ok item =>
    cases item with
    | none => cases h
    | _ => cases h; exact ⟨rfl, _, rfl⟩
  all_goals cases h

theorem live_of_segments {segments : List Text} {flushed : Bool}
    (h : (g.resume pc w).2 = .segments segments flushed) : pc.live = true ∧ ∃ item, w = .ok item := by
  cases pc <;> cases w <;> simp only [resume] at h
  case sendPartial.ok | onSegment.ok => exact ⟨rfl, _, rfl⟩
  case engineNext.ok item =>
    exact ⟨rfl, _, rfl⟩
  all_goals cases h

theorem pc_of_complete {outcome : Outcome} (h : (g.resume pc w).2 = .complete outcome) :
    (outcome = .completed ∧ pc = .sendFinal ∧ ∃ item, w = .ok item) ∨
      (outcome = .cancelled ∧ pc = .sendCancelled) ∨ (outcome = .failed ∧ pc = .sendFailed) := by
  cases pc <;> cases w <;> simp only [resume] at h
  case sendFinal.ok => cases h; exact Or.inl ⟨rfl, rfl, _, rfl⟩
  case sendCancelled.ok | sendCancelled.raised | sendCancelled.cancelled =>
    cases h; exact Or.inr (Or.inl ⟨rfl, rfl⟩)
  case sendFailed.ok | sendFailed.raised | sendFailed.cancelled =>
    cases h; exact Or.inr (Or.inr ⟨rfl, rfl⟩)
  case engineNext.ok item => cases item <;> cases h
  all_goals cases h

end Gen

variable {ι : Type}

/-- The consumer and the generations it has started, numbered in the order of their start. -/
@[ext]
structure Consumer (ι : Type) where
  current : Option Nat := none
  count : Nat := 0
  gen : Nat → Gen := fun _ => {}
  task : Nat → Coroutine (Pc ι) := fun _ => .done

namespace Consumer

variable (c : Consumer ι)

/-- The current generation when it `is_generating`. -/
def active : Option Nat := c.current.filter (fun n => !(c.task n).isDone)

def isGenerating : Bool := c.active.isSome

/-- `cancel`. -/
def cancel : Consumer ι :=
  match c.active with
  | some n => { c with task := Function.update c.task n (c.task n).cancel }
  | none => c

/-- `start_generation`: the task is created after the one before it was asked to cancel. -/
def startGeneration (prompt utteranceId : Text) (history : List Entry) : Consumer ι :=
  { current := some c.count
    count := c.count + 1
    gen := Function.update c.gen c.count { prompt, utteranceId, history }
    task := Function.update c.cancel.task c.count (.await .created) }

/-- The generation task `n` suspends at `pc`. -/
def await (n : Nat) (pc : Pc ι) : Consumer ι := { c with task := Function.update c.task n (.await pc) }

/-- The generation task `n` ends. -/
def finish (n : Nat) : Consumer ι := { c with task := Function.update c.task n .done }

/-- The awaits that can come back this way. -/
def enabled (pc : Pc ι) (cancelling : Bool) (w : Wake Item) : Bool :=
  w.fits cancelling &&
    match pc, w with
    | .created, .raised => false
    | .engineNext, .ok _ => true
    | _, .ok (.token _ _) | _, .ok .other => false
    | _, _ => true

/-- The generation task `n` takes a step: its local variables change, and `Next` is what follows. -/
def resume (n : Nat) (w : Wake Item) : Option (Consumer ι × Next ι) :=
  match c.task n with
  | .done => none
  | .suspended pc cancelling =>
    if enabled pc cancelling w then
      let (g, next) := (c.gen n).resume pc w
      some ({ c with gen := Function.update c.gen n g }, next)
    else none

variable {c}

/-- The generation is in its `try` block and has not been asked to cancel. -/
def Live (c : Consumer ι) (n : Nat) : Prop := ∃ pc, c.task n = .suspended pc false ∧ pc.live = true

/-- What a step of the generation `n` is. -/
theorem resume_eq_some {n : Nat} {w : Wake Item} {c' : Consumer ι} {next : Next ι}
    (h : c.resume n w = some (c', next)) :
    ∃ pc cancelling, c.task n = .suspended pc cancelling ∧ enabled pc cancelling w = true ∧
      c' = { c with gen := Function.update c.gen n ((c.gen n).resume pc w).1 } ∧
      next = ((c.gen n).resume pc w).2 := by
  unfold resume at h
  split at h
  · cases h
  · rename_i pc cancelling hpc
    simp only [Option.ite_none_right_eq_some, Option.some.injEq, Prod.mk.injEq] at h
    obtain ⟨henabled, rfl, rfl⟩ := h
    exact ⟨pc, cancelling, hpc, henabled, rfl, rfl⟩

theorem cancelling_of_enabled {pc : Pc ι} {cancelling : Bool} {item : Item}
    (h : enabled pc cancelling (.ok item) = true) : cancelling = false := by
  unfold enabled at h
  rw [Bool.and_eq_true] at h
  simpa [Wake.fits] using h.1

/-- `Live`, computed. -/
def isLive (c : Consumer ι) (n : Nat) : Bool :=
  match c.task n with
  | .suspended pc false => pc.live
  | _ => false

theorem Live.isLive {n : Nat} (h : c.Live n) : c.isLive n = true := by
  obtain ⟨pc, hpc, hlive⟩ := h
  simpa [Consumer.isLive, hpc] using hlive

theorem active_eq_some {n : Nat} : c.active = some n ↔ c.current = some n ∧ (c.task n).isDone = false := by
  unfold active
  rw [Option.filter_eq_some_iff]
  simp

@[simp] theorem cancel_current : c.cancel.current = c.current := by unfold cancel; split <;> rfl
@[simp] theorem cancel_count : c.cancel.count = c.count := by unfold cancel; split <;> rfl
@[simp] theorem cancel_gen : c.cancel.gen = c.gen := by unfold cancel; split <;> rfl

/-- The current generation is asked to cancel. -/
theorem cancel_task (n : Nat) :
    c.cancel.task n = if c.current = some n then (c.task n).cancel else c.task n := by
  unfold cancel
  split
  · rename_i m hm
    obtain ⟨hcurrent, hdone⟩ := active_eq_some.mp hm
    by_cases hn : n = m
    · subst hn
      simp [hcurrent]
    · have hne : ¬ m = n := fun h => hn h.symm
      simp [hcurrent, hn, hne]
  · rename_i hnone
    split
    · rename_i hcurrent
      -- the current generation is done, and `cancel` does nothing to it
      have hdone : (c.task n).isDone = true := by
        by_contra halive
        exact absurd (active_eq_some.mpr ⟨hcurrent, by simpa using halive⟩) (by simp [hnone])
      rw [Coroutine.isDone_iff.mp hdone]
      rfl
    · rfl

@[simp] theorem isDone_cancel_task (n : Nat) : (c.cancel.task n).isDone = (c.task n).isDone := by
  rw [cancel_task]
  split <;> simp

@[simp] theorem cancel_active : c.cancel.active = c.active := by
  unfold active
  simp

/-- No generation of a cancelled consumer is live but those before the current one. -/
theorem Live.of_cancel {n : Nat} (h : c.cancel.Live n) : c.Live n ∧ c.current ≠ some n := by
  obtain ⟨pc, hpc, hlive⟩ := h
  rw [cancel_task] at hpc
  split at hpc
  · cases ht : c.task n <;> simp [ht] at hpc
  · rename_i hne
    exact ⟨⟨pc, hpc, hlive⟩, hne⟩

/-- A new generation takes the place of the current one. -/
theorem Live.of_startGeneration {prompt utteranceId : Text} {history : List Entry} {n : Nat}
    (honly : ∀ n, c.Live n → c.current = some n) (h : (c.startGeneration prompt utteranceId history).Live n) :
    n = c.count := by
  by_contra hne
  obtain ⟨pc, hpc, hlive⟩ := h
  have hcancelled : c.cancel.Live n := ⟨pc, by simpa [startGeneration, Function.update_of_ne hne] using hpc, hlive⟩
  obtain ⟨hbefore, hcurrent⟩ := hcancelled.of_cancel
  exact hcurrent (honly n hbefore)

theorem cancel_cancel : c.cancel.cancel = c.cancel := by
  ext1
  · simp
  · simp
  · simp
  · funext n
    rw [cancel_task, cancel_current, cancel_task]
    split
    · cases c.task n <;> rfl
    · rfl

end Consumer

end Voxera.Llm
