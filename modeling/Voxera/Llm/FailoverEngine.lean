import Voxera.EventLoop.Run
import Voxera.Text

/-!
# `FailoverStreamingLLMEngine`

`stream` is a generator over the stream of the primary engine and, where this raises before its first token, over that of the secondary
one. The engines may give tokens, end and raise as they like, and the consumer may go away at every suspension point.

* `Failover.step` : one step of the generator;
* `Sound` : the tokens are those of one engine, and the engines before it gave none;
* `answer_of_run` : so it is in every run, and how each end of the generator comes about.

`given` and `failed` are records that the source does not have and nothing reads.
-/

namespace Voxera.Llm

open EventLoop

inductive Provider where
  | primary
  | secondary
  deriving DecidableEq, Repr

/-- Where `stream` is suspended, or how it has ended. -/
inductive Place where
  /-- Its first `__anext__` has not been called. -/
  | created
  /-- In `async for token in engine.stream(...)`. -/
  | awaiting
  | yielding
  | returned
  /-- With the exception of the engine. -/
  | reraised
  /-- With `RuntimeError("All configured LLM providers failed")`. -/
  | exhausted
  /-- It was cancelled or closed. -/
  | cancelled
  deriving DecidableEq, Repr

structure Failover where
  /-- `_secondary is not None` -/
  hasSecondary : Bool
  place : Place := .created
  /-- `_active` -/
  active : Provider := .primary
  emitted : ℕ := 0
  /-- What has been yielded. -/
  tokens : List Text := []
  /-- What the engine in `active` has given since it was called. -/
  given : List Text := []
  /-- The engines that have raised, with what they had given. -/
  failed : List (Provider × List Text) := []
  deriving DecidableEq, Repr

inductive FailoverLabel where
  /-- `__anext__` of the generator. -/
  | next
  /-- The stream of the engine gives a token, ends, or raises an `Exception`. -/
  | token (token : Text)
  | ended
  | raised
  /-- A `CancelledError`, or the generator is closed. -/
  | cancel
  deriving DecidableEq, Repr

namespace Failover

/-- The `for` loop gets to an engine. -/
def call (f : Failover) (provider : Provider) : Failover :=
  { f with place := .awaiting, active := provider, emitted := 0, given := [] }

def leave (f : Failover) (place : Place) : Failover := { f with place, failed := f.failed ++ [(f.active, f.given)] }

/-- The `except` block. -/
def except (f : Failover) : Failover :=
  if f.emitted ≠ 0 then f.leave .reraised
  else if f.active = .primary ∧ f.hasSecondary then (f.leave .awaiting).call .secondary
  else f.leave .exhausted

def step (f : Failover) : FailoverLabel → Option Failover
  | .next =>
    match f.place with
    | .created => some (f.call .primary)
    | .yielding => some { f with place := .awaiting }
    | _ => none
  | .token token =>
    if f.place = .awaiting then
      some { f with place := .yielding, emitted := f.emitted + 1, tokens := f.tokens ++ [token], given := f.given ++ [token] }
    else none
  | .ended => if f.place = .awaiting then some { f with place := .returned } else none
  | .raised => if f.place = .awaiting then some f.except else none
  | .cancel => if f.place ∈ [.created, .awaiting, .yielding] then some { f with place := .cancelled } else none

/-- The engines that the loop has left behind when it is at `provider`, with what they gave. -/
def behind : Provider → List (Provider × List Text)
  | .primary => []
  | .secondary => [(.primary, [])]

/-- The engines of the loop. -/
def engines (f : Failover) : List Provider := if f.hasSecondary then [.primary, .secondary] else [.primary]

/-- The engines that have raised, as the place tells it. -/
def Told (f : Failover) : Prop :=
  match f.place with
  | .created => f.active = .primary ∧ f.given = [] ∧ f.failed = []
  | .reraised => f.given ≠ [] ∧ f.failed = behind f.active ++ [(f.active, f.given)]
  | .exhausted => f.given = [] ∧ f.failed = f.engines.map (·, [])
  | _ => f.failed = behind f.active

structure Sound (f : Failover) : Prop where
  tokens : f.tokens = f.given
  emitted : f.emitted = f.given.length
  configured : f.active ∈ f.engines
  told : f.Told

variable {f f' : Failover}

theorem Sound.call_primary (h : f.Sound) (hplace : f.place = .created) : (f.call .primary).Sound := by
  have htold := h.told
  rw [Told, hplace] at htold
  obtain ⟨hactive, hgiven, hfailed⟩ := htold
  exact ⟨h.tokens.trans hgiven, rfl, hactive ▸ h.configured, hfailed⟩

theorem Sound.token (h : f.Sound) (hplace : f.place = .awaiting) (token : Text) :
    Sound { f with place := .yielding, emitted := f.emitted + 1, tokens := f.tokens ++ [token], given := f.given ++ [token] } := by
  have htold := h.told
  rw [Told, hplace] at htold
  refine ⟨congrArg (· ++ [token]) h.tokens, ?_, h.configured, htold⟩
  simp [h.emitted]

/-- An engine that raises has given something, or nothing has been yielded at all. -/
theorem Sound.except (h : f.Sound) (hplace : f.place = .awaiting) : f.except.Sound := by
  have htold : f.failed = behind f.active := by
    have htold := h.told
    rwa [Told, hplace] at htold
  unfold Failover.except
  split_ifs with hemitted hprimary
  · refine ⟨h.tokens, h.emitted, h.configured, fun hnil => hemitted ?_, congrArg (· ++ [(f.active, f.given)]) htold⟩
    exact h.emitted.trans (congrArg List.length hnil)
  · have hgiven : f.given = [] := List.length_eq_zero_iff.mp (h.emitted.symm.trans (not_not.mp hemitted))
    refine ⟨h.tokens.trans hgiven, rfl, ?_, ?_⟩
    · simp [call, leave, engines, hprimary.2]
    · show f.failed ++ [(f.active, f.given)] = behind .secondary
      rw [htold, hprimary.1, hgiven]
      rfl
  · have hgiven : f.given = [] := List.length_eq_zero_iff.mp (h.emitted.symm.trans (not_not.mp hemitted))
    refine ⟨h.tokens, h.emitted, h.configured, hgiven, ?_⟩
    show f.failed ++ [(f.active, f.given)] = f.engines.map (·, [])
    have hconfigured := h.configured
    rw [htold, hgiven]
    unfold engines at hconfigured ⊢
    cases hactive : f.active <;> cases hsecondary : f.hasSecondary <;> simp_all [behind]

theorem Sound.step {l : FailoverLabel} (h : f.Sound) (hf' : f.step l = some f') : f'.Sound := by
  cases l with
  | next =>
      simp only [Failover.step] at hf'
      split at hf'
      · next hplace => exact Option.some.inj hf' ▸ h.call_primary hplace
      · next hplace =>
          have htold := h.told
          rw [Told, hplace] at htold
          exact Option.some.inj hf' ▸ ⟨h.tokens, h.emitted, h.configured, htold⟩
      · cases hf'
  | token token =>
      simp only [Failover.step, Option.ite_none_right_eq_some, Option.some.injEq] at hf'
      obtain ⟨hplace, rfl⟩ := hf'
      exact h.token hplace token
  | ended =>
      simp only [Failover.step, Option.ite_none_right_eq_some, Option.some.injEq] at hf'
      obtain ⟨hplace, rfl⟩ := hf'
      have htold := h.told
      rw [Told, hplace] at htold
      exact ⟨h.tokens, h.emitted, h.configured, htold⟩
  | raised =>
      simp only [Failover.step, Option.ite_none_right_eq_some, Option.some.injEq] at hf'
      obtain ⟨hplace, rfl⟩ := hf'
      exact h.except hplace
  | cancel =>
      simp only [Failover.step, Option.ite_none_right_eq_some, Option.some.injEq] at hf'
      obtain ⟨hplace, rfl⟩ := hf'
      refine ⟨h.tokens, h.emitted, h.configured, ?_⟩
      have htold := h.told
      show f.failed = behind f.active
      simp only [List.mem_cons, List.not_mem_nil, or_false] at hplace
      rcases hplace with hplace | hplace | hplace
      · rw [Told, hplace] at htold
        rw [htold.2.2, htold.1]
        rfl
      all_goals rwa [Told, hplace] at htold

theorem sound_of_run {hasSecondary : Bool} {ls : List FailoverLabel}
    (h : Run Failover.step (fun _ _ => True) { hasSecondary } ls f) : f.Sound := by
  refine h.invariant ⟨rfl, rfl, ?_, rfl, rfl, rfl⟩ (fun hf _ hstep => hf.step hstep)
  cases hasSecondary <;> decide

/-- **The answer** in every run: the tokens are what one of the engines of the loop has given since it was called, and every engine that
was called before has raised without a token; the exception of an engine comes out only behind a token, and `RuntimeError` only when
all of them have raised without one. -/
theorem answer_of_run {hasSecondary : Bool} {ls : List FailoverLabel}
    (h : Run Failover.step (fun _ _ => True) { hasSecondary } ls f) :
    f.tokens = f.given ∧ (f.active = .secondary → f.hasSecondary = true ∧ (.primary, []) ∈ f.failed) ∧
    (f.place = .returned → f.failed = behind f.active) ∧
    (f.place = .reraised → f.tokens ≠ [] ∧ f.failed = behind f.active ++ [(f.active, f.tokens)]) ∧
    (f.place = .exhausted → f.tokens = [] ∧ f.failed = f.engines.map (·, [])) := by
  have hs := sound_of_run h
  have htold := hs.told
  refine ⟨hs.tokens, fun hactive => ?_, fun hplace => ?_, fun hplace => ?_, fun hplace => ?_⟩
  · have hconfigured : f.hasSecondary = true := by
      have hmem := hs.configured
      rw [hactive, engines] at hmem
      by_contra hnone
      rw [if_neg hnone] at hmem
      exact absurd hmem (by decide)
    refine ⟨hconfigured, ?_⟩
    unfold Told at htold
    split at htold
    · exact absurd (htold.1.symm.trans hactive) (by decide)
    · rw [htold.2, hactive]
      exact List.mem_cons_self
    · rw [htold.2, engines, if_pos hconfigured]
      exact List.mem_cons_self
    · rw [htold, hactive]
      exact List.mem_cons_self
  · rwa [Told, hplace] at htold
  · rw [Told, hplace] at htold
    rw [hs.tokens]
    exact htold
  · rw [Told, hplace] at htold
    rw [hs.tokens]
    exact htold

/-- The primary engine fails before its first token, and the secondary one behind its first. -/
def failedTwice : List FailoverLabel := [.next, .raised, .token "Yes".toList, .next, .raised]

theorem answer_of_run_failedTwice : ∃ f : Failover, Run Failover.step (fun _ _ => True) { hasSecondary := true } failedTwice f ∧
    f.tokens ≠ [] ∧ f.failed = [(.primary, []), (.secondary, f.tokens)] := by
  obtain ⟨f, hrun, hend⟩ := Run.exists_of_exec
    (P := fun f : Failover => decide (f.place = .reraised ∧ f.active = .secondary)) (s := ({ hasSecondary := true } : Failover))
    (show (exec Failover.step (fun _ _ => True) _ failedTwice).any _ = true by decide +kernel)
  obtain ⟨hplace, hactive⟩ := of_decide_eq_true hend
  obtain ⟨hsome, hfailed⟩ := (answer_of_run hrun).2.2.2.1 hplace
  exact ⟨f, hrun, hsome, by rw [hfailed, hactive]; rfl⟩

end Failover

end Voxera.Llm
