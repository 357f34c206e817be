import Voxera.EventLoop.Run
import Voxera.LlmConsumer
import Mathlib.Tactic.Simps.Basic

/-!
# An `LLMConsumer` and those that call it

`start_generation`, `cancel` and `aclose` are called in any order, any number of times, and a call of
`aclose` may itself be cancelled while it waits. The engine, `send_json` and the callbacks may do what
they like: fail, swallow a request to cancel, or raise a `CancelledError` nobody asked for. The state
keeps, beside the consumer, what each generation got from the engine and what it handed out.

* `Advance` : what one step of a generation is; `Moved` : what a step of the system does to a generation.
* `completed_of_cancelsStarted` : `on_complete` is called exactly once, in every run in which no generation
  is cancelled before its first step.
* `spoken_as_generated` : what is handed to `on_segment` is what the engine gave, in every run.
-/

namespace Voxera.Llm

open EventLoop Text

/-- What a generation gets from the outside and what it hands out. -/
inductive Event where
  /-- The engine has given a token. -/
  | received (token : Text)
  /-- The engine's stream has ended. -/
  | consumed
  /-- `send_json` is called. -/
  | sending (message : Message)
  /-- `send_json` has returned. -/
  | sent (message : Message)
  /-- `on_segment` is called. -/
  | segment (text : Text)
  /-- `on_complete` is called. -/
  | complete (text : Text) (outcome : Outcome)
  deriving DecidableEq, Repr

def Event.token? : Event → Option Text
  | .received token => some token
  | _ => none

def Event.segment? : Event → Option Text
  | .segment text => some text
  | _ => none

def Event.report? : Event → Option (Text × Outcome)
  | .complete text outcome => some (text, outcome)
  | _ => none

/-- The tokens received, joined. -/
def received (log : List Event) : Text := (log.filterMap Event.token?).flatten

/-- What has been handed to `on_segment`. -/
def segments (log : List Event) : List Text := log.filterMap Event.segment?

/-- What `on_complete` has been called with. -/
def reports (log : List Event) : List (Text × Outcome) := log.filterMap Event.report?

@[simp] theorem received_append (log es : List Event) : received (log ++ es) = received log ++ received es := by
  simp [received]

@[simp] theorem segments_append (log es : List Event) : segments (log ++ es) = segments log ++ segments es :=
  List.filterMap_append

@[simp] theorem reports_append (log es : List Event) : reports (log ++ es) = reports log ++ reports es :=
  List.filterMap_append

/-- The consumer, its callers, and what its generations have done. -/
structure Generations where
  llm : Consumer Unit := {}
  /-- The generations that calls of `aclose` wait for. -/
  closing : List Nat := []
  log : Nat → List Event := fun _ => []

/-- The awaits that can come back this way. Only a task that has not started yet gets its
`CancelledError` from the loop itself. -/
def mayWake (pc : Pc Unit) (cancelling : Bool) (w : Wake Item) : Bool :=
  match pc, w with
  | .created, .raised => false
  | .created, _ => w.fits cancelling
  | .engineNext, _ => true
  | _, .ok (.token _ _) | _, .ok .other => false
  | _, _ => true

namespace Gen

variable (g : Gen)

/-- What has come back to the suspension point. -/
def returned : Pc Unit → Wake Item → List Event
  | .engineNext, .ok (.token token _) => [.received token]
  | .engineNext, .ok .none => [.consumed]
  | pc, .ok _ => (g.calls pc).map .sent
  | _, _ => []

/-- The task suspends at `pc`, and makes the call there. -/
def suspend (pc : Pc Unit) : Coroutine (Pc Unit) × List Event := (.await pc, (g.calls pc).map .sending)

/-- Where the task is suspended next, and the calls it makes there. -/
def go : Next Unit → Coroutine (Pc Unit) × List Event
  | .await pc => g.suspend pc
  | .segments [] flushed => g.suspend (afterSegments flushed)
  | .segments (segment :: rest) flushed => (.await (.onSegment rest flushed ()), [.segment segment])
  | .complete outcome => (.await (.onComplete outcome ()), [.complete g.text outcome])
  | .ended => (.done, [])

end Gen

namespace Generations

variable (s : Generations)

/-- `task.cancel()` on the task of generation `n`. -/
def cancelTask (n : Nat) : Generations :=
  { s with llm.task := Function.update s.llm.task n (s.llm.task n).cancel }

/-- `aclose`; it waits only when a generation is under way. -/
def aclose : Generations :=
  match s.llm.active with
  | some n => { s with llm := s.llm.cancel, closing := n :: s.closing }
  | none => s

/-- The generation `n` takes a step. -/
def resumeGeneration (n : Nat) (w : Wake Item) : Option Generations :=
  match s.llm.task n with
  | .done => none
  | .suspended pc cancelling =>
    if mayWake pc cancelling w then
      let (g, next) := (s.llm.gen n).resume pc w
      let (task, calls) := g.go next
      some { s with
        llm.gen := Function.update s.llm.gen n g
        llm.task := Function.update s.llm.task n task
        log := Function.update s.log n (s.log n ++ (s.llm.gen n).returned pc w ++ calls) }
    else none

end Generations

/-- The calls of the consumer's owner, and the choices of the scheduler, the engine and the callbacks. -/
inductive Label where
  | start (prompt utteranceId : Text) (history : List Entry)
  | cancel
  | aclose
  /-- A call of `aclose` that waits for generation `n` returns. -/
  | closed (n : Nat)
  /-- A call of `aclose` that waits for generation `n` is cancelled: `gather` hands the request on. -/
  | closeCancelled (n : Nat)
  | generation (n : Nat) (w : Wake Item)
  deriving DecidableEq, Repr

def step (s : Generations) : Label → Option Generations
  | .start prompt utteranceId history => some { s with llm := s.llm.startGeneration prompt utteranceId history }
  | .cancel => some { s with llm := s.llm.cancel }
  | .aclose => some s.aclose
  | .closed n => if n ∈ s.closing ∧ (s.llm.task n).isDone then some { s with closing := s.closing.erase n } else none
  | .closeCancelled n => if n ∈ s.closing then some (s.cancelTask n) else none
  | .generation n w => s.resumeGeneration n w

/-! ## What a step is -/

/-- The outcome that a generation reports at its suspension point. -/
def Pc.report? {ι : Type} : Pc ι → Option Outcome
  | .onComplete outcome _ => some outcome
  | _ => none

/-- The stream is not at its end yet. -/
def Pc.streaming {ι : Type} : Pc ι → Bool
  | .created | .engineNext | .sendPartial _ _ | .onSegment _ false _ => true
  | _ => false

/-- A part of the stream's text goes through the chunker, or more of its segments are handed out. -/
inductive Cut (g : Gen) : Pc Unit → Gen → List Text → Bool → List Event → Prop
  | fed (token : Text) (index : Nat) :
      Cut g (.sendPartial token index) { g with chunker := (g.chunker.feed token).2 } (g.chunker.feed token).1 false
        [.sent (.llmPartial token index g.text)]
  | flushed : Cut g .engineNext { g with chunker := g.chunker.flush.2 } g.chunker.flush.1.toList true [.consumed]
  | goesOn (rest : List Text) (flushed : Bool) : Cut g (.onSegment rest flushed ()) g rest flushed []

/-- What one step of a generation is: where it was suspended, its variables after the step, where it is
suspended then, and what it got and handed out. -/
inductive Advance (g : Gen) (cancelling : Bool) : Pc Unit → Gen → Coroutine (Pc Unit) → List Event → Prop
  | starts : Advance g cancelling .created g (.await .engineNext) []
  | dropped : cancelling = true → Advance g cancelling .created g .done []
  | receives (token : Text) (index : Nat) :
      Advance g cancelling .engineNext { g with parts := g.parts ++ [token] } (.await (.sendPartial token index))
        [.received token, .sending (.llmPartial token index (g.text ++ token))]
  | skips : Advance g cancelling .engineNext g (.await .engineNext) []
  | allCut {pc : Pc Unit} {g' : Gen} {flushed : Bool} {es : List Event} :
      Cut g pc g' [] flushed es → Advance g cancelling pc g' (g'.suspend (Gen.afterSegments flushed)).1
        (es ++ (g'.suspend (Gen.afterSegments flushed)).2)
  | hands {pc : Pc Unit} {g' : Gen} {segment : Text} {rest : List Text} {flushed : Bool} {es : List Event} :
      Cut g pc g' (segment :: rest) flushed es →
        Advance g cancelling pc g' (.await (.onSegment rest flushed ())) (es ++ [.segment segment])
  | completes : Advance g cancelling .sendFinal g (.await (.onComplete .completed ()))
      [.sent (.llmFinal g.text), .complete g.text .completed]
  | raises {pc pc' : Pc Unit} (message : Message) : pc.live = true → (pc' = .sendCancelled ∨ pc' = .sendFailed) →
      (∀ text, message ≠ .llmFinal text) → Advance g cancelling pc g (.await pc') [.sending message]
  | reports {pc : Pc Unit} {outcome : Outcome} {es : List Event} : (pc = .sendCancelled ∨ pc = .sendFailed) →
      outcome ≠ .completed → (∀ e ∈ es, ∃ message, e = .sent message) →
      Advance g cancelling pc g (.await (.onComplete outcome ())) (es ++ [.complete g.text outcome])
  | ends (outcome : Outcome) : Advance g cancelling (.onComplete outcome ()) g .done []

/-- A task that has just taken a step has not been asked to cancel. -/
theorem Advance.calm {g g' : Gen} {cancelling : Bool} {pc : Pc Unit} {task : Coroutine (Pc Unit)} {es : List Event}
    (h : Advance g cancelling pc g' task es) (pc' : Pc Unit) : task ≠ .suspended pc' true := by
  cases h <;> simp [Coroutine.await, Gen.suspend]

theorem Gen.text_concat (g : Gen) (token : Text) : ({ g with parts := g.parts ++ [token] } : Gen).text = g.text ++ token := by
  simp [Gen.text]

theorem Advance.of_cut {g g' : Gen} {pc : Pc Unit} {segments : List Text} {flushed : Bool} {es : List Event}
    (h : Cut g pc g' segments flushed es) {cancelling : Bool} :
    Advance g cancelling pc g' (g'.go (.segments segments flushed)).1 (es ++ (g'.go (.segments segments flushed)).2) := by
  cases segments with
  | nil => exact .allCut h
  | cons segment rest => exact .hands h

theorem Gen.advance (g : Gen) {pc : Pc Unit} {cancelling : Bool} {w : Wake Item} (h : mayWake pc cancelling w = true) :
    Advance g cancelling pc (g.resume pc w).1 ((g.resume pc w).1.go (g.resume pc w).2).1
      (g.returned pc w ++ ((g.resume pc w).1.go (g.resume pc w).2).2) := by
  have hraises : ∀ (pc : Pc Unit), pc.live = true →
      Advance g cancelling pc g (g.suspend .sendCancelled).1 ([] ++ (g.suspend .sendCancelled).2) ∧
        Advance g cancelling pc g (g.suspend .sendFailed).1 ([] ++ (g.suspend .sendFailed).2) := fun pc hlive =>
    ⟨.raises _ hlive (Or.inl rfl) (by simp), .raises _ hlive (Or.inr rfl) (by simp)⟩
  cases pc with
  | created =>
      cases w with
      | ok item => exact .starts
      | raised => cases h
      | cancelled => exact .dropped (by simpa [mayWake, Wake.fits] using h)
  | engineNext =>
      cases w with
      | ok item =>
          cases item with
          | none => exact .of_cut .flushed
          | token token index =>
              have hreceives : Advance g cancelling _ _ _ _ := .receives token index
              rw [← g.text_concat token] at hreceives
              exact hreceives
          | other => exact .skips
      | raised => exact (hraises _ rfl).2
      | cancelled => exact (hraises _ rfl).1
  | sendPartial token index =>
      cases w with
      | ok item => exact .of_cut (.fed token index)
      | raised => exact (hraises _ rfl).2
      | cancelled => exact (hraises _ rfl).1
  | onSegment rest flushed inner =>
      cases w with
      | ok item => exact .of_cut (.goesOn rest flushed)
      | raised => exact (hraises _ rfl).2
      | cancelled => exact (hraises _ rfl).1
  | sendFinal =>
      cases w with
      | ok item => exact .completes
      | raised => exact (hraises _ rfl).2
      | cancelled => exact (hraises _ rfl).1
  | sendCancelled =>
      refine .reports (Or.inl rfl) (by simp) (fun e he => ?_)
      cases w <;> simp [Gen.returned, Gen.calls] at he
      exact ⟨_, he⟩
  | sendFailed =>
      refine .reports (Or.inr rfl) (by simp) (fun e he => ?_)
      cases w <;> simp [Gen.returned, Gen.calls] at he
      exact ⟨_, he⟩
  | onComplete outcome inner => cases w <;> exact .ends outcome

/-- The generation that is asked to cancel. -/
def Generations.asks (s : Generations) : Label → Option Nat
  | .start _ _ _ | .cancel | .aclose => s.llm.active
  | .closeCancelled n => some n
  | _ => none

/-- What a step of the system does to generation `n`. -/
inductive Moved (s : Generations) (l : Label) (t : Generations) (n : Nat) : Prop
  | stays : (n < t.llm.count → n < s.llm.count) → t.llm.gen n = s.llm.gen n → t.log n = s.log n →
      (t.llm.task n = s.llm.task n ∨ s.asks l = some n ∧ t.llm.task n = (s.llm.task n).cancel) → Moved s l t n
  | started (prompt utteranceId : Text) (history : List Entry) : n = s.llm.count → t.llm.count = n + 1 →
      t.log n = s.log n → t.llm.task n = .await .created → t.llm.gen n = { prompt, utteranceId, history } → Moved s l t n
  | advanced {pc : Pc Unit} {cancelling : Bool} {es : List Event} : s.llm.task n = .suspended pc cancelling →
      Advance (s.llm.gen n) cancelling pc (t.llm.gen n) (t.llm.task n) es → t.log n = s.log n ++ es → Moved s l t n

variable {s t : Generations} {l : Label} {n : Nat}

theorem Consumer.cancel_task_cases {ι : Type} (c : Consumer ι) (n : Nat) :
    c.cancel.task n = c.task n ∨ c.active = some n ∧ c.cancel.task n = (c.task n).cancel := by
  unfold Consumer.cancel
  split
  · rename_i m hm
    by_cases hn : n = m
    · subst hn
      exact Or.inr ⟨hm, Function.update_self ..⟩
    · exact Or.inl (Function.update_of_ne hn _ _)
  · exact Or.inl rfl

theorem Moved.of_start (prompt utteranceId : Text) (history : List Entry) (n : Nat) :
    Moved s (.start prompt utteranceId history) { s with llm := s.llm.startGeneration prompt utteranceId history } n := by
  by_cases hn : n = s.llm.count
  · subst hn
    exact .started prompt utteranceId history rfl rfl rfl (Function.update_self ..) (Function.update_self ..)
  · have htask : (s.llm.startGeneration prompt utteranceId history).task n = s.llm.cancel.task n :=
      Function.update_of_ne hn _ _
    have hlt : n < s.llm.count + 1 → n < s.llm.count := by omega
    refine .stays hlt (Function.update_of_ne hn _ _) rfl ?_
    show (s.llm.startGeneration prompt utteranceId history).task n = _ ∨ _ ∧
      (s.llm.startGeneration prompt utteranceId history).task n = _
    rw [htask]
    exact s.llm.cancel_task_cases n

theorem Moved.of_resume {m : Nat} {w : Wake Item} (h : s.resumeGeneration m w = some t) (n : Nat) :
    Moved s (.generation m w) t n := by
  unfold Generations.resumeGeneration at h
  split at h
  · cases h
  · rename_i pc cancelling hpc
    simp only [Option.ite_none_right_eq_some, Option.some.injEq] at h
    obtain ⟨hwake, rfl⟩ := h
    by_cases hn : n = m
    · subst hn
      have hadvance := (s.llm.gen n).advance hwake
      refine .advanced hpc ?_ (by simp only [Function.update_self, List.append_assoc]; rfl)
      simpa only [Function.update_self] using hadvance
    · exact .stays id (Function.update_of_ne hn _ _) (Function.update_of_ne hn _ _) (Or.inl (Function.update_of_ne hn _ _))

theorem moved_of_step (h : step s l = some t) (n : Nat) : Moved s l t n := by
  cases l with
  | start prompt utteranceId history =>
      cases h
      exact .of_start prompt utteranceId history n
  | cancel =>
      cases h
      exact .stays (fun hn => s.llm.cancel_count ▸ hn) (congrFun s.llm.cancel_gen n) rfl (s.llm.cancel_task_cases n)
  | aclose =>
      cases h
      unfold Generations.aclose
      split
      · exact .stays (fun hn => s.llm.cancel_count ▸ hn) (congrFun s.llm.cancel_gen n) rfl (s.llm.cancel_task_cases n)
      · exact .stays id rfl rfl (Or.inl rfl)
  | closed m =>
      simp only [step, Option.ite_none_right_eq_some, Option.some.injEq] at h
      obtain ⟨-, rfl⟩ := h
      exact .stays id rfl rfl (Or.inl rfl)
  | closeCancelled m =>
      simp only [step, Option.ite_none_right_eq_some, Option.some.injEq] at h
      obtain ⟨-, rfl⟩ := h
      refine .stays id rfl rfl ?_
      by_cases hn : n = m
      · subst hn
        exact Or.inr ⟨rfl, Function.update_self ..⟩
      · exact Or.inl (Function.update_of_ne hn _ _)
  | generation m w => exact .of_resume h n

/-! ## Every generation by itself -/

/-- Generations that have not been started have done nothing. -/
def Generations.Unstarted (s : Generations) : Prop :=
  ∀ n, s.llm.count ≤ n → s.llm.task n = .done ∧ s.log n = []

theorem count_le_of_step (h : step s l = some t) : s.llm.count ≤ t.llm.count := by
  cases l with
  | start prompt utteranceId history =>
      cases h
      exact Nat.le_succ _
  | cancel =>
      cases h
      exact s.llm.cancel_count.ge
  | aclose =>
      cases h
      unfold Generations.aclose
      split
      · exact s.llm.cancel_count.ge
      · exact le_rfl
  | closed m | closeCancelled m =>
      simp only [step, Option.ite_none_right_eq_some, Option.some.injEq] at h
      obtain ⟨-, rfl⟩ := h
      exact le_rfl
  | generation m w =>
      simp only [step, Generations.resumeGeneration] at h
      split at h
      · cases h
      · simp only [Option.ite_none_right_eq_some, Option.some.injEq] at h
        obtain ⟨-, rfl⟩ := h
        exact le_rfl

theorem Generations.Unstarted.step (h : s.Unstarted) (hstep : step s l = some t) : t.Unstarted := by
  intro n hn
  obtain ⟨htask, hlog⟩ := h n ((count_le_of_step hstep).trans hn)
  cases moved_of_step hstep n with
  | stays _ hgen hlog' htask' =>
      rw [hlog']
      rw [htask] at htask'
      refine ⟨?_, hlog⟩
      rcases htask' with htask' | ⟨-, htask'⟩ <;> exact htask'
  | started prompt utteranceId history hn' hcount => omega
  | advanced hpc => simp [htask] at hpc

/-- **Each generation by itself**: what holds of a new generation, is not lost by the requests to cancel that
the run allows and is kept by a generation's own steps holds of every generation. -/
theorem Generations.each {P : Coroutine (Pc Unit) → Gen → List Event → Prop} {Q : Coroutine (Pc Unit) → Prop}
    {ok : Generations → Label → Prop} {ls : List Label} (hok : ∀ {s l n}, ok s l → s.asks l = some n → Q (s.llm.task n))
    (hnew : ∀ prompt utteranceId history, P (.await .created) { prompt, utteranceId, history } [])
    (hcancel : ∀ {task g log}, P task g log → Q task → P task.cancel g log)
    (hadvance : ∀ {pc cancelling g g' task log es}, P (.suspended pc cancelling) g log →
      Advance g cancelling pc g' task es → P task g' (log ++ es))
    (h : Run Llm.step ok {} ls s) (hn : n < s.llm.count) : P (s.llm.task n) (s.llm.gen n) (s.log n) := by
  have hinv : s.Unstarted ∧ ∀ n < s.llm.count, P (s.llm.task n) (s.llm.gen n) (s.log n) := by
    refine h.invariant (I := fun s => s.Unstarted ∧ ∀ n < s.llm.count, P (s.llm.task n) (s.llm.gen n) (s.log n))
      ⟨fun _ _ => ⟨rfl, rfl⟩, fun _ hn => nomatch hn⟩ ?_
    rintro s t l ⟨hfresh, heach⟩ hl hstep
    refine ⟨hfresh.step hstep, fun n hn => ?_⟩
    cases moved_of_step hstep n with
    | stays hlt hgen hlog htask =>
        have hP := heach n (hlt hn)
        rw [hgen, hlog]
        rcases htask with htask | ⟨hasks, htask⟩
        · exact htask ▸ hP
        · exact htask ▸ hcancel hP (hok hl hasks)
    | started prompt utteranceId history hn hcount hlog htask hgen =>
        rw [hlog, htask, hgen, (hfresh n hn.ge).2]
        exact hnew prompt utteranceId history
    | advanced hpc hadv hlog =>
        have hlt : n < s.llm.count := by
          by_contra hle
          simp [(hfresh n (Nat.le_of_not_lt hle)).1] at hpc
        have hP := heach n hlt
        rw [hpc] at hP
        rw [hlog]
        exact hadvance hP hadv
  exact hinv.2 n hn

/-! ## `on_complete` -/

/-- All tokens have been received. -/
def Pc.atEnd {ι : Type} : Pc ι → Bool
  | .onSegment _ true _ | .sendFinal => true
  | _ => false

/-- An event of a stream that is being cut: no token, no segment, no report and no call. -/
structure Plain (es : List Event) : Prop where
  received : received es = []
  segments : segments es = []
  reports : reports es = []
  sending : ∀ message, .sending message ∉ es

theorem Plain.of_sent {es : List Event} (h : ∀ e ∈ es, ∃ message, e = .sent message) : Plain es := by
  have hnone : ∀ {β : Type} (f : Event → Option β), (∀ message, f (.sent message) = none) → es.filterMap f = [] := by
    intro β f hf
    rw [List.filterMap_eq_nil_iff]
    intro e he
    obtain ⟨message, rfl⟩ := h e he
    exact hf message
  refine ⟨?_, hnone _ (fun _ => rfl), hnone _ (fun _ => rfl), fun message hmem => ?_⟩
  · rw [Llm.received, hnone _ (fun _ => rfl)]
    rfl
  · obtain ⟨message', heq⟩ := h _ hmem
    cases heq

namespace Cut

variable {g g' : Gen} {pc : Pc Unit} {pieces : List Text} {flushed : Bool} {es : List Event}

theorem text (h : Cut g pc g' pieces flushed es) : g'.text = g.text := by cases h <;> rfl

theorem plain (h : Cut g pc g' pieces flushed es) : Plain es := by
  cases h <;> exact ⟨rfl, rfl, rfl, by simp⟩

theorem report (h : Cut g pc g' pieces flushed es) : pc.report? = none := by cases h <;> rfl

theorem live (h : Cut g pc g' pieces flushed es) : pc.live = true := by cases h <;> rfl

theorem streaming (h : Cut g pc g' pieces flushed es) (hflushed : flushed = false) : pc.streaming = true := by
  cases h with
  | fed => rfl
  | flushed => cases hflushed
  | goesOn rest =>
      subst hflushed
      rfl

theorem consumed (h : Cut g pc g' pieces flushed es) (hflushed : flushed = true) : .consumed ∈ es ∨ pc.atEnd = true := by
  cases h with
  | fed => cases hflushed
  | flushed => exact Or.inl List.mem_cons_self
  | goesOn rest =>
      subst hflushed
      exact Or.inr rfl

end Cut

/-- What a generation has reported. -/
structure Told (task : Coroutine (Pc Unit)) (g : Gen) (log : List Event) : Prop where
  text : received log = g.text
  once : reports log = [] ∨ ∃ outcome, reports log = [(g.text, outcome)]
  suspended : ∀ pc, task.pc? = some pc → reports log = (pc.report?.map (g.text, ·)).toList
  streaming : ∀ pc, task.pc? = some pc → pc.streaming = true → ∀ text, .sending (.llmFinal text) ∉ log
  consumed : ∀ pc, task.pc? = some pc → pc.atEnd = true → .consumed ∈ log
  final : ∀ text, .sending (.llmFinal text) ∈ log → text = g.text
  completed : (g.text, .completed) ∈ reports log → .consumed ∈ log ∧ .sent (.llmFinal g.text) ∈ log

namespace Told

variable {task : Coroutine (Pc Unit)} {g g' : Gen} {log es : List Event} {pc : Pc Unit} {cancelling : Bool}

theorem new (prompt utteranceId : Text) (history : List Entry) :
    Told (.await .created) { prompt, utteranceId, history } [] := by
  refine ⟨rfl, Or.inl rfl, ?_, fun _ _ _ _ => List.not_mem_nil, ?_, (fun _ hmem => nomatch hmem), (fun hmem => nomatch hmem)⟩
  · rintro pc ⟨⟩
    rfl
  · rintro pc ⟨⟩ hend
    cases hend

theorem cancel (h : Told task g log) : Told task.cancel g log where
  text := h.text
  once := h.once
  suspended := by
    rw [Coroutine.pc?_cancel]
    exact h.suspended
  streaming := by
    rw [Coroutine.pc?_cancel]
    exact h.streaming
  consumed := by
    rw [Coroutine.pc?_cancel]
    exact h.consumed
  final := h.final
  completed := h.completed

/-- The text stays as it is and nothing is reported. -/
theorem plain (h : Told (.suspended pc cancelling) g log) (hpc : pc.report? = none) (htext : g'.text = g.text)
    (hreceived : received es = []) (hreports : reports es = [])
    (htask : ∀ pc', task.pc? = some pc' → pc'.report? = none ∧ (pc'.streaming = true → pc.streaming = true) ∧
      (pc'.atEnd = true → .consumed ∈ es ∨ pc.atEnd = true))
    (hstreaming : (∃ pc', task.pc? = some pc' ∧ pc'.streaming = true) → ∀ text, .sending (.llmFinal text) ∉ es)
    (hfinal : ∀ text, .sending (.llmFinal text) ∈ es → text = g.text) : Told task g' (log ++ es) := by
  have hnone : reports log = [] := by simpa [hpc] using h.suspended pc rfl
  refine ⟨?_, ?_, ?_, ?_, ?_, ?_, ?_⟩
  · rw [received_append, h.text, hreceived, htext, List.append_nil]
  · exact Or.inl (by rw [reports_append, hnone, hreports, List.append_nil])
  · intro pc' hpc'
    rw [reports_append, hnone, hreports, (htask pc' hpc').1]
    rfl
  · intro pc' hpc' hs text hmem
    rcases List.mem_append.mp hmem with hmem | hmem
    · exact h.streaming pc rfl ((htask pc' hpc').2.1 hs) text hmem
    · exact hstreaming ⟨pc', hpc', hs⟩ text hmem
  · intro pc' hpc' hend
    rcases (htask pc' hpc').2.2 hend with hmem | hend
    · exact List.mem_append_right _ hmem
    · exact List.mem_append_left _ (h.consumed pc rfl hend)
  · intro text hmem
    rw [htext]
    rcases List.mem_append.mp hmem with hmem | hmem
    · exact h.final text hmem
    · exact hfinal text hmem
  · intro hmem
    rw [reports_append, hnone, hreports] at hmem
    cases hmem

/-- `on_complete` is called. -/
theorem report (h : Told (.suspended pc cancelling) g log) (hpc : pc.report? = none) {outcome : Outcome}
    (hes : ∀ e ∈ es, ∃ message, e = .sent message)
    (hcompleted : outcome = .completed → pc.atEnd = true ∧ .sent (.llmFinal g.text) ∈ es) :
    Told (.await (.onComplete outcome ())) g (log ++ (es ++ [.complete g.text outcome])) := by
  have hnone : reports log = [] := by simpa [hpc] using h.suspended pc rfl
  have hplain := Plain.of_sent hes
  have hone : reports (log ++ (es ++ [.complete g.text outcome])) = [(g.text, outcome)] := by
    rw [reports_append, reports_append, hnone, hplain.reports]
    rfl
  have hsending : ∀ text, .sending (.llmFinal text) ∈ log ++ (es ++ [.complete g.text outcome]) →
      .sending (.llmFinal text) ∈ log := by
    intro text hmem
    simp only [List.mem_append, List.mem_singleton, reduceCtorEq, or_false] at hmem
    rcases hmem with hmem | hmem
    · exact hmem
    · exact absurd hmem (hplain.sending _)
  refine ⟨?_, Or.inr ⟨outcome, hone⟩, ?_, ?_, ?_, fun text hmem => h.final text (hsending text hmem), ?_⟩
  · rw [received_append, received_append, h.text, hplain.received]
    exact List.append_nil _
  · rintro pc' ⟨⟩
    exact hone
  · rintro pc' ⟨⟩ hs
    cases hs
  · rintro pc' ⟨⟩ hend
    cases hend
  · intro hmem
    rw [hone, List.mem_singleton, Prod.mk.injEq] at hmem
    obtain ⟨hend, hsent⟩ := hcompleted hmem.2.symm
    exact ⟨List.mem_append_left _ (h.consumed pc rfl hend),
      List.mem_append_right _ (List.mem_append_left _ hsent)⟩

theorem advance (h : Told (.suspended pc cancelling) g log) (hadv : Advance g cancelling pc g' task es) :
    Told task g' (log ++ es) := by
  cases hadv with
  | starts | skips =>
      refine h.plain rfl rfl rfl rfl ?_ (fun _ _ => List.not_mem_nil) (fun _ hmem => nomatch hmem)
      rintro pc' ⟨⟩
      exact ⟨rfl, fun _ => rfl, fun hend => nomatch hend⟩
  | dropped =>
      exact h.plain rfl rfl rfl rfl (fun _ hpc => nomatch hpc) (fun _ _ => List.not_mem_nil) (fun _ hmem => nomatch hmem)
  | receives token index =>
      have hnone : reports log = [] := h.suspended _ rfl
      refine ⟨?_, Or.inl ?_, ?_, ?_, ?_, ?_, ?_⟩
      · rw [received_append, h.text, Gen.text_concat]
        simp [received, Event.token?]
      · rw [reports_append, hnone]
        rfl
      · rintro pc' ⟨⟩
        rw [reports_append, hnone]
        rfl
      · rintro pc' ⟨⟩ - text hmem
        refine h.streaming _ rfl rfl text ?_
        simpa using hmem
      · rintro pc' ⟨⟩ hend
        cases hend
      · intro text hmem
        exact absurd (by simpa using hmem) (h.streaming _ rfl rfl text)
      · intro hmem
        rw [reports_append, hnone] at hmem
        cases hmem
  | @allCut _ _ flushed es' hcut =>
      obtain ⟨hreceived, -, hreports, hsending⟩ := hcut.plain
      cases flushed with
      | false =>
          refine h.plain hcut.report hcut.text ?_ ?_ ?_ ?_ ?_
          · simpa [Gen.suspend, Gen.afterSegments, Gen.calls] using hreceived
          · simpa [Gen.suspend, Gen.afterSegments, Gen.calls] using hreports
          · rintro pc' ⟨⟩
            exact ⟨rfl, fun _ => hcut.streaming rfl, fun hend => nomatch hend⟩
          · intro _ text hmem
            simp [Gen.suspend, Gen.afterSegments, Gen.calls, hsending] at hmem
          · intro text hmem
            simp [Gen.suspend, Gen.afterSegments, Gen.calls, hsending] at hmem
      | true =>
          refine h.plain hcut.report hcut.text ?_ ?_ ?_ ?_ ?_
          · rw [received_append, hreceived]
            rfl
          · rw [reports_append, hreports]
            rfl
          · rintro pc' ⟨⟩
            refine ⟨rfl, (fun hs => nomatch hs), fun _ => ?_⟩
            exact (hcut.consumed rfl).imp (List.mem_append_left _) id
          · rintro ⟨pc', ⟨⟩, hs⟩
            cases hs
          · intro text hmem
            simp [Gen.suspend, Gen.afterSegments, Gen.calls, hsending, hcut.text] at hmem
            exact hmem
  | @hands _ _ segment rest flushed es' hcut =>
      obtain ⟨hreceived, -, hreports, hsending⟩ := hcut.plain
      refine h.plain hcut.report hcut.text ?_ ?_ ?_ ?_ ?_
      · rw [received_append, hreceived]
        rfl
      · rw [reports_append, hreports]
        rfl
      · rintro pc' ⟨⟩
        cases flushed with
        | false => exact ⟨rfl, fun _ => hcut.streaming rfl, fun hend => nomatch hend⟩
        | true => exact ⟨rfl, (fun hs => nomatch hs), fun _ => (hcut.consumed rfl).imp (List.mem_append_left _) id⟩
      · intro _ text hmem
        simp [hsending] at hmem
      · intro text hmem
        simp [hsending] at hmem
  | completes =>
      have hsent : ∀ e ∈ [Event.sent (.llmFinal g.text)], ∃ message, e = .sent message := by simp
      exact h.report rfl hsent (fun _ => ⟨rfl, List.mem_singleton_self _⟩)
  | @raises _ pc' message hlive hpc' hmessage =>
      have hreport : pc.report? = none := by
        cases pc <;> first | rfl | cases hlive
      refine h.plain hreport rfl rfl rfl ?_ ?_ ?_
      · rintro pc'' ⟨⟩
        rcases hpc' with rfl | rfl <;> exact ⟨rfl, (fun hs => nomatch hs), fun hend => nomatch hend⟩
      · intro _ text hmem
        rw [List.mem_singleton] at hmem
        cases hmem
        exact hmessage text rfl
      · intro text hmem
        rw [List.mem_singleton] at hmem
        cases hmem
        exact absurd rfl (hmessage text)
  | @reports _ outcome es' hpc houtcome hes =>
      refine h.report ?_ hes (fun heq => absurd heq houtcome)
      rcases hpc with rfl | rfl <;> rfl
  | ends outcome =>
      rw [List.append_nil]
      exact ⟨h.text, h.once, (fun _ hpc => nomatch hpc), (fun _ hpc => nomatch hpc), (fun _ hpc => nomatch hpc), h.final,
        h.completed⟩

end Told

/-- No generation is asked to cancel before its task has taken the first step. -/
def CancelsStarted (s : Generations) (l : Label) : Prop :=
  (s.asks l).bind (fun n => (s.llm.task n).pc?) ≠ some .created

instance (s : Generations) (l : Label) : Decidable (CancelsStarted s l) := inferInstanceAs (Decidable (_ ≠ _))

/-- `on_complete` has been called once, with all the text received, and with `completed` only if the stream
was consumed and `llm_final` was sent. -/
def Completed (log : List Event) : Prop :=
  ∃ outcome, reports log = [(received log, outcome)] ∧
    (outcome = .completed → .consumed ∈ log ∧ .sent (.llmFinal (received log)) ∈ log)

/-- A generation that has ended has reported its outcome, and none has been dropped. -/
def Answered (task : Coroutine (Pc Unit)) (g : Gen) (log : List Event) : Prop :=
  Told task g log ∧ (task = .done → reports log ≠ []) ∧ task ≠ .suspended .created true

theorem Answered.advance {pc : Pc Unit} {cancelling : Bool} {g g' : Gen} {task : Coroutine (Pc Unit)} {log es : List Event}
    (h : Answered (.suspended pc cancelling) g log) (hadv : Advance g cancelling pc g' task es) :
    Answered task g' (log ++ es) := by
  refine ⟨h.1.advance hadv, ?_, ?_⟩
  · rintro rfl
    cases hadv with
    | dropped hcancelling => exact absurd (hcancelling ▸ rfl) h.2.2
    | ends outcome => simp [h.1.suspended _ rfl, Pc.report?]
  · exact hadv.calm .created

/-- **`on_complete` is called exactly once** for a generation that has ended, in every run in which no
generation is cancelled before its first step. -/
theorem completed_of_cancelsStarted {ls : List Label} {s : Generations} {n : Nat} (h : Run step CancelsStarted {} ls s)
    (hn : n < s.llm.count) (hdone : (s.llm.task n).isDone = true) : Completed (s.log n) := by
  have hanswered : Answered (s.llm.task n) (s.llm.gen n) (s.log n) := by
    refine Generations.each (P := Answered) (Q := fun task => task.pc? ≠ some .created) ?_ ?_ ?_ ?_ h hn
    · intro s l m hok hasks
      rw [CancelsStarted, hasks] at hok
      exact hok
    · intro prompt utteranceId history
      exact ⟨.new prompt utteranceId history, (fun hd => nomatch hd), by simp [Coroutine.await]⟩
    · rintro task g log ⟨htold, hended, hkept⟩ hstarted
      refine ⟨htold.cancel, ?_, ?_⟩
      · intro hd
        cases task with
        | done => exact hended rfl
        | suspended pc c => cases hd
      · intro hpc
        cases task with
        | done => cases hpc
        | suspended pc c =>
            rw [Coroutine.cancel_suspended, Coroutine.suspended.injEq] at hpc
            exact hstarted (congrArg some hpc.1)
    · exact fun hP hadv => hP.advance hadv
  obtain ⟨htold, hended, -⟩ := hanswered
  rcases htold.once with hnone | ⟨outcome, hone⟩
  · exact absurd hnone (hended (Coroutine.isDone_iff.mp hdone))
  · refine ⟨outcome, by rw [hone, htold.text], ?_⟩
    rintro rfl
    rw [htold.text]
    exact htold.completed (hone ▸ List.mem_singleton_self _)

/-- An answer in two tokens, spoken to its end. -/
def answer : List Label :=
  [.start [] [] [], .generation 0 (.ok .none), .generation 0 (.ok (.token "Hello there. How".toList 0)),
    .generation 0 (.ok .none), .generation 0 (.ok .none), .generation 0 (.ok (.token " are you?\n".toList 1)),
    .generation 0 (.ok .none), .generation 0 (.ok .none), .generation 0 (.ok .none), .generation 0 (.ok .none),
    .generation 0 (.ok .none)]

theorem completed_answer :
    ∃ s : Generations, Run step CancelsStarted {} answer s ∧ Completed (s.log 0) ∧
      reports (s.log 0) = [("Hello there. How are you?\n".toList, .completed)] := by
  obtain ⟨s, hrun, hs⟩ := Run.exists_of_exec
    (P := fun s : Generations => decide (0 < s.llm.count) && (s.llm.task 0).isDone &&
      decide (reports (s.log 0) = [("Hello there. How are you?\n".toList, .completed)])) (s := {})
    (show (exec step CancelsStarted _ answer).any _ = true by decide +kernel)
  simp only [Bool.and_eq_true, decide_eq_true_eq] at hs
  obtain ⟨⟨hcount, hdone⟩, hreports⟩ := hs
  exact ⟨s, hrun, completed_of_cancelsStarted hrun hcount hdone, hreports⟩

/-- `cancel` right after `start_generation`: the task ends before its `try` block is entered. -/
def cancelledAtOnce : List Label := [.start [] [] [], .cancel, .generation 0 .cancelled]

/-- `on_complete` is never called. -/
theorem cancelledAtOnce_not_completed :
    ∃ s : Generations, Run step (fun _ _ => True) {} cancelledAtOnce s ∧ 0 < s.llm.count ∧
      (s.llm.task 0).isDone = true ∧ ¬ Completed (s.log 0) := by
  obtain ⟨s, hrun, hs⟩ := Run.exists_of_exec
    (P := fun s : Generations => decide (0 < s.llm.count) && (s.llm.task 0).isDone && decide (reports (s.log 0) = []))
    (s := {}) (show (exec step (fun _ _ => True) _ cancelledAtOnce).any _ = true by decide +kernel)
  simp only [Bool.and_eq_true, decide_eq_true_eq] at hs
  obtain ⟨⟨hcount, hdone⟩, hreports⟩ := hs
  refine ⟨s, hrun, hcount, hdone, ?_⟩
  rintro ⟨outcome, hone, -⟩
  rw [hreports] at hone
  cases hone

/-! ## `on_segment` -/

/-- The segments that are cut off but not handed out yet. -/
def Pc.pending {ι : Type} : Pc ι → List Text
  | .onSegment rest _ _ => rest
  | _ => []

/-- The token that the chunker has not got yet. -/
def Pc.unfed {ι : Type} : Pc ι → Text
  | .sendPartial token _ => token
  | _ => []

/-- A part of the text has been cut: how it is divided. -/
theorem Cut.divides {g g' : Gen} {pc : Pc Unit} {pieces : List Text} {flushed : Bool} {es : List Event}
    (h : Cut g pc g' pieces flushed es) {handed : List Text}
    (hpending : ∀ segment ∈ pc.pending, segment ≠ [] ∧ Stripped segment)
    (hend : pc.atEnd = true → g.chunker.buffer = [])
    (hcut : ∃ w, Blank w ∧ CutsInto g.text (handed ++ pc.pending) (w ++ (g.chunker.buffer ++ pc.unfed))) :
    (∃ w, Blank w ∧ CutsInto g'.text (handed ++ pieces) (w ++ g'.chunker.buffer)) ∧
      (∀ segment ∈ pieces, segment ≠ [] ∧ Stripped segment) ∧ (flushed = true → g'.chunker.buffer = []) := by
  cases h with
  | fed token index =>
      rw [show (Pc.sendPartial token index : Pc Unit).pending = [] from rfl, List.append_nil] at hcut
      exact ⟨SentenceChunker.feed_cutsInto hcut, fun _ hs => SentenceChunker.feed_segment hs, fun hf => nomatch hf⟩
  | flushed =>
      rw [show (Pc.engineNext : Pc Unit).pending = [] from rfl, show (Pc.engineNext : Pc Unit).unfed = [] from rfl,
        List.append_nil, List.append_nil] at hcut
      obtain ⟨w, hw, hall⟩ := SentenceChunker.flush_cutsInto hcut
      refine ⟨⟨w, hw, ?_⟩, fun _ hs => SentenceChunker.flush_segment hs, fun _ => rfl⟩
      show CutsInto _ _ (w ++ [])
      rwa [List.append_nil]
  | goesOn rest =>
      rw [show (Pc.onSegment pieces flushed () : Pc Unit).unfed = [] from rfl, List.append_nil] at hcut
      refine ⟨hcut, hpending, fun hf => hend ?_⟩
      subst hf
      rfl

/-- What a generation has handed out, and what it still has to hand out. -/
structure Spoken (task : Coroutine (Pc Unit)) (g : Gen) (log : List Event) : Prop where
  clean : ∀ segment ∈ segments log, segment ≠ [] ∧ Stripped segment
  pending : ∀ pc, task.pc? = some pc → ∀ segment ∈ pc.pending, segment ≠ [] ∧ Stripped segment
  cut : ∃ rest, CutsInto g.text (segments log) rest
  live : ∀ pc, task.pc? = some pc → pc.live = true →
    ∃ w, Blank w ∧ CutsInto g.text (segments log ++ pc.pending) (w ++ (g.chunker.buffer ++ pc.unfed))
  atEnd : ∀ pc, task.pc? = some pc → pc.atEnd = true → g.chunker.buffer = []
  completed : ∀ text, (text, .completed) ∈ reports log → ∃ rest, Blank rest ∧ CutsInto g.text (segments log) rest

namespace Spoken

variable {task : Coroutine (Pc Unit)} {g g' : Gen} {log es : List Event} {pc : Pc Unit} {cancelling : Bool}

/-- A generation that has reported nothing, by what it still has to hand out. -/
theorem of_live (hclean : ∀ segment ∈ segments log, segment ≠ [] ∧ Stripped segment)
    (hpending : ∀ segment ∈ pc.pending, segment ≠ [] ∧ Stripped segment)
    (hlive : ∃ w, Blank w ∧ CutsInto g.text (segments log ++ pc.pending) (w ++ (g.chunker.buffer ++ pc.unfed)))
    (hend : pc.atEnd = true → g.chunker.buffer = []) (hnone : reports log = []) : Spoken (.await pc) g log := by
  obtain ⟨w, hw, hcut⟩ := hlive
  refine ⟨hclean, ?_, hcut.of_append, ?_, ?_, fun text hmem => ?_⟩
  · rintro pc' ⟨⟩
    exact hpending
  · rintro pc' ⟨⟩ -
    exact ⟨w, hw, hcut⟩
  · rintro pc' ⟨⟩
    exact hend
  · rw [hnone] at hmem
    cases hmem

theorem new (prompt utteranceId : Text) (history : List Entry) :
    Spoken (.await .created) { prompt, utteranceId, history } [] :=
  of_live (fun _ hs => nomatch hs) (fun _ hs => nomatch hs) ⟨[], blank_nil, .nil []⟩ (fun _ => rfl) rfl

theorem cancel (h : Spoken task g log) : Spoken task.cancel g log where
  clean := h.clean
  pending := by
    rw [Coroutine.pc?_cancel]
    exact h.pending
  cut := h.cut
  live := by
    rw [Coroutine.pc?_cancel]
    exact h.live
  atEnd := by
    rw [Coroutine.pc?_cancel]
    exact h.atEnd
  completed := h.completed

/-- The generation leaves its `try` block, or ends. -/
theorem leaves (h : Spoken (.suspended pc cancelling) g log) (htask : ∀ pc', task.pc? = some pc' → pc'.live = false)
    (hes : segments es = []) (hcompleted : ∀ text, (text, .completed) ∈ reports (log ++ es) →
      ∃ rest, Blank rest ∧ CutsInto g.text (segments log) rest) : Spoken task g (log ++ es) := by
  have hsegments : segments (log ++ es) = segments log := by rw [segments_append, hes, List.append_nil]
  have hdead : ∀ pc' : Pc Unit, pc'.live = false → pc'.pending = [] ∧ pc'.atEnd = false := by
    intro pc' hlive
    cases pc' <;> first | exact ⟨rfl, rfl⟩ | cases hlive
  refine ⟨hsegments ▸ h.clean, ?_, hsegments ▸ h.cut, ?_, ?_, hsegments ▸ hcompleted⟩
  · intro pc' hpc' segment hs
    rw [(hdead pc' (htask pc' hpc')).1] at hs
    cases hs
  · intro pc' hpc' hlive
    rw [htask pc' hpc'] at hlive
    cases hlive
  · intro pc' hpc' hend
    rw [(hdead pc' (htask pc' hpc')).2] at hend
    cases hend

theorem advance (h : Spoken (.suspended pc cancelling) g log) (htold : Told (.suspended pc cancelling) g log)
    (hadv : Advance g cancelling pc g' task es) : Spoken task g' (log ++ es) := by
  have hnone : pc.report? = none → reports log = [] := fun hpc => by simpa [hpc] using htold.suspended pc rfl
  cases hadv with
  | starts | skips =>
      have hlive := h.live _ rfl rfl
      rw [List.append_nil]
      exact of_live h.clean (fun _ hs => nomatch hs) hlive (fun hend => nomatch hend) (hnone rfl)
  | dropped =>
      refine h.leaves (fun _ hpc => nomatch hpc) rfl ?_
      rw [List.append_nil]
      exact h.completed
  | receives token index =>
      obtain ⟨w, hw, hcut⟩ := h.live _ rfl rfl
      have hsegments : segments (log ++ [.received token, .sending (.llmPartial token index (g.text ++ token))]) =
          segments log := by
        rw [segments_append]
        exact List.append_nil _
      have hreports : reports (log ++ [.received token, .sending (.llmPartial token index (g.text ++ token))]) = [] := by
        rw [reports_append, hnone rfl]
        rfl
      refine of_live (hsegments ▸ h.clean) (fun _ hs => nomatch hs) ⟨w, hw, ?_⟩ (fun hend => nomatch hend) hreports
      rw [hsegments, Gen.text_concat]
      have hmore := hcut.append token
      simpa [Pc.unfed, Pc.pending] using hmore
  | @allCut _ _ flushed es' hcut =>
      obtain ⟨hcuts, hpieces, hflushed⟩ := hcut.divides (h.pending _ rfl) (h.atEnd _ rfl) (h.live _ rfl hcut.live)
      have hsegments : segments (log ++ (es' ++ (g'.suspend (Gen.afterSegments flushed)).2)) = segments log := by
        rw [segments_append, segments_append, hcut.plain.segments]
        cases flushed <;> exact List.append_nil _
      have hreports : reports (log ++ (es' ++ (g'.suspend (Gen.afterSegments flushed)).2)) = [] := by
        rw [reports_append, reports_append, hcut.plain.reports, hnone hcut.report]
        cases flushed <;> rfl
      rw [List.append_nil] at hcuts
      refine of_live (hsegments ▸ h.clean) ?_ ?_ ?_ hreports
      · cases flushed <;> exact fun _ hs => nomatch hs
      · rw [hsegments]
        cases flushed <;> simpa [Gen.afterSegments, Pc.pending, Pc.unfed] using hcuts
      · intro hend
        cases flushed with
        | false => cases hend
        | true => exact hflushed rfl
  | @hands _ _ segment rest flushed es' hcut =>
      obtain ⟨hcuts, hpieces, hflushed⟩ := hcut.divides (h.pending _ rfl) (h.atEnd _ rfl) (h.live _ rfl hcut.live)
      have hsegments : segments (log ++ (es' ++ [.segment segment])) = segments log ++ [segment] := by
        rw [segments_append, segments_append, hcut.plain.segments]
        rfl
      have hreports : reports (log ++ (es' ++ [.segment segment])) = [] := by
        rw [reports_append, reports_append, hcut.plain.reports, hnone hcut.report]
        rfl
      refine of_live ?_ (fun _ hs => hpieces _ (List.mem_cons_of_mem _ hs)) ?_ ?_ hreports
      · rw [hsegments]
        intro seg hseg
        rcases List.mem_append.mp hseg with hseg | hseg
        · exact h.clean seg hseg
        · exact hpieces seg (List.mem_singleton.mp hseg ▸ List.mem_cons_self)
      · rw [hsegments]
        simpa [Pc.pending, Pc.unfed] using hcuts
      · intro hend
        cases flushed with
        | false => cases hend
        | true => exact hflushed rfl
  | completes =>
      obtain ⟨w, hw, hcut⟩ := h.live _ rfl rfl
      rw [h.atEnd _ rfl rfl] at hcut
      have hall : CutsInto g.text (segments log) w := by simpa [Pc.pending, Pc.unfed] using hcut
      refine h.leaves ?_ rfl (fun _ _ => ⟨w, hw, hall⟩)
      rintro pc' ⟨⟩
      rfl
  | @raises _ pc' message hlive hpc' hmessage =>
      have hreport : pc.report? = none := by
        cases pc <;> first | rfl | cases hlive
      refine h.leaves ?_ rfl (fun text hmem => ?_)
      · rintro pc'' ⟨⟩
        rcases hpc' with rfl | rfl <;> rfl
      · rw [reports_append, hnone hreport] at hmem
        cases hmem
  | @reports _ outcome es' hpc houtcome hes =>
      have hreport : pc.report? = none := by rcases hpc with rfl | rfl <;> rfl
      have hplain := Plain.of_sent hes
      refine h.leaves ?_ ?_ (fun text hmem => ?_)
      · rintro pc' ⟨⟩
        rfl
      · rw [segments_append, hplain.segments]
        rfl
      · rw [reports_append, reports_append, hnone hreport, hplain.reports] at hmem
        simp [Llm.reports, Event.report?] at hmem
        exact absurd hmem.2.symm houtcome
  | ends outcome =>
      refine h.leaves (fun _ hpc => nomatch hpc) rfl ?_
      rw [List.append_nil]
      exact h.completed

end Spoken

/-- What has been handed to `on_segment` is what the engine gave. -/
structure SpokenAsGenerated (log : List Event) : Prop where
  segment : ∀ segment ∈ segments log, segment ≠ [] ∧ Stripped segment
  order : ∃ rest, CutsInto (received log) (segments log) rest
  completed : ∀ text, (text, .completed) ∈ reports log → ∃ rest, Blank rest ∧ CutsInto (received log) (segments log) rest
  final : ∀ text, .sending (.llmFinal text) ∈ log → text = received log

/-- **What is spoken is what was generated**, in every run: the segments are cut off the text of the tokens, in
order, and there is only white space between them; after the last one too, when the outcome is `completed`. -/
theorem spoken_as_generated {ls : List Label} {s : Generations} {n : Nat} (h : Run step (fun _ _ => True) {} ls s)
    (hn : n < s.llm.count) : SpokenAsGenerated (s.log n) := by
  obtain ⟨htold, hspoken⟩ : Told (s.llm.task n) (s.llm.gen n) (s.log n) ∧ Spoken (s.llm.task n) (s.llm.gen n) (s.log n) := by
    refine Generations.each (P := fun task g log => Told task g log ∧ Spoken task g log) (Q := fun _ => True)
      (fun _ _ => trivial) ?_ ?_ ?_ h hn
    · exact fun prompt utteranceId history => ⟨.new prompt utteranceId history, .new prompt utteranceId history⟩
    · exact fun hP _ => ⟨hP.1.cancel, hP.2.cancel⟩
    · exact fun hP hadv => ⟨hP.1.advance hadv, hP.2.advance hP.1 hadv⟩
  refine ⟨hspoken.clean, ?_, ?_, ?_⟩
  · rw [htold.text]
    exact hspoken.cut
  · rw [htold.text]
    exact hspoken.completed
  · rw [htold.text]
    exact htold.final

theorem spokenAsGenerated_answer :
    ∃ s : Generations, Run step (fun _ _ => True) {} answer s ∧ SpokenAsGenerated (s.log 0) ∧
      segments (s.log 0) = ["Hello there.".toList, "How are you?".toList] := by
  obtain ⟨s, hrun, hs⟩ := Run.exists_of_exec
    (P := fun s : Generations => decide (0 < s.llm.count) &&
      decide (segments (s.log 0) = ["Hello there.".toList, "How are you?".toList])) (s := {})
    (show (exec step (fun _ _ => True) _ answer).any _ = true by decide +kernel)
  simp only [Bool.and_eq_true, decide_eq_true_eq] at hs
  exact ⟨s, hrun, spoken_as_generated hrun hs.1, hs.2⟩

end Voxera.Llm
