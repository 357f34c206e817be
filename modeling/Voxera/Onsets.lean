import Voxera.Runs
import Voxera.Vad
import Mathlib.Tactic.Linarith
import Mathlib.Algebra.Order.Field.Rat

/-!
# Where `EnergyVAD` hears speech begin

A frame is loud when its energy reaches the threshold in force, which the quiet frames before it have moved.

* `updates`, `loudness`, `after` : what `update` returns for each frame, whether it was loud, and the detector after
  them;
* `Hears` : the flags are the onsets of the loud frames, and the detector has learned from the quiet ones only;
* `reset_hears` : so it is from every detector that is between two runs.
-/

namespace Voxera.EnergyVAD

open Runs

/-- `reset` -/
def reset (v : EnergyVAD) : EnergyVAD := { v with run := 0, inSpeech := false }

/-- `__init__` -/
def init (minEnergy noiseRatio : ℚ) (speechFrames : ℕ) (noiseAlpha initialNoise : ℚ) : EnergyVAD :=
  { minEnergy, noiseRatio, speechFrames, noiseAlpha, noiseFloor := initialNoise }

def loud (v : EnergyVAD) (frame : Bytes) : Bool := decide (v.threshold ≤ pcmFrameEnergy frame)

def after (v : EnergyVAD) : List Bytes → EnergyVAD
  | [] => v
  | frame :: frames => after (v.update frame).2 frames

def updates (v : EnergyVAD) : List Bytes → List Bool
  | [] => []
  | frame :: frames => (v.update frame).1 :: updates (v.update frame).2 frames

def loudness (v : EnergyVAD) : List Bytes → List Bool
  | [] => []
  | frame :: frames => v.loud frame :: loudness (v.update frame).2 frames

/-- The energies of the quiet frames. -/
def quietEnergies (v : EnergyVAD) : List Bytes → List ℚ
  | [] => []
  | frame :: frames => (if v.loud frame then [] else [pcmFrameEnergy frame]) ++ quietEnergies (v.update frame).2 frames

section Update
variable {v : EnergyVAD} {frame : Bytes} {frames more : List Bytes}

theorem update_of_loud (h : v.loud frame = true) :
    v.update frame = (!v.inSpeech && decide (v.speechFrames ≤ v.run + 1),
      { v with run := v.run + 1, inSpeech := v.inSpeech || decide (v.speechFrames ≤ v.run + 1) }) := by
  have hle : v.threshold ≤ pcmFrameEnergy frame := of_decide_eq_true h
  unfold update
  rw [if_pos hle]
  cases hspeech : v.inSpeech <;> by_cases hrun : v.speechFrames ≤ v.run + 1 <;> simp [hrun]

theorem update_of_quiet (h : v.loud frame = false) :
    v.update frame = (false, { v with
      run := 0
      inSpeech := false
      noiseFloor := v.noiseFloor + v.noiseAlpha * (pcmFrameEnergy frame - v.noiseFloor) }) :=
  if_neg (of_decide_eq_false h)

@[simp] theorem update_speechFrames : (v.update frame).2.speechFrames = v.speechFrames := by
  cases h : v.loud frame with
  | true => rw [update_of_loud h]
  | false => rw [update_of_quiet h]

@[simp] theorem update_noiseAlpha : (v.update frame).2.noiseAlpha = v.noiseAlpha := by
  cases h : v.loud frame with
  | true => rw [update_of_loud h]
  | false => rw [update_of_quiet h]

@[simp] theorem after_speechFrames : (v.after frames).speechFrames = v.speechFrames := by
  induction frames generalizing v with
  | nil => rfl
  | cons frame frames ih => rw [after, ih, update_speechFrames]

theorem after_append : v.after (frames ++ more) = (v.after frames).after more := by
  induction frames generalizing v with
  | nil => rfl
  | cons frame frames ih => rw [List.cons_append, after, after, ih]

/-! ## The flags -/

/-- The flag of speech is set when the run is long enough. -/
def Counts (v : EnergyVAD) : Prop := v.inSpeech = decide (v.speechFrames ≤ v.run)

theorem counts_update (frame : Bytes) (hn : 1 ≤ v.speechFrames) (h : v.Counts) : (v.update frame).2.Counts := by
  unfold Counts at h ⊢
  cases hloud : v.loud frame with
  | true =>
      rw [update_of_loud hloud]
      dsimp only
      rw [h, ← Bool.decide_or, decide_eq_decide]
      omega
  | false =>
      rw [update_of_quiet hloud]
      exact (decide_eq_false (by dsimp only; omega)).symm

/-- What `update` returns is what a counter of the loud frames in a row says. -/
theorem updates_eq (hn : 1 ≤ v.speechFrames) (h : v.Counts) (frames : List Bytes) :
    v.updates frames = onsetsFrom v.speechFrames v.run (v.loudness frames) := by
  induction frames generalizing v with
  | nil => rfl
  | cons frame frames ih =>
      have hrest := ih (by rwa [update_speechFrames]) (counts_update frame hn h)
      rw [updates, loudness, hrest, update_speechFrames]
      cases hloud : v.loud frame with
      | true =>
          rw [update_of_loud hloud, onsetsFrom]
          congr 1
          rw [h, ← decide_not, ← Bool.decide_and, decide_eq_decide]
          omega
      | false => rw [update_of_quiet hloud, onsetsFrom]

/-! ## The noise floor -/

/-- Between two of the values. -/
def Spanned (values : List ℚ) (x : ℚ) : Prop := (∃ lo ∈ values, lo ≤ x) ∧ ∃ hi ∈ values, x ≤ hi

theorem spanned_self (x : ℚ) (values : List ℚ) : Spanned (x :: values) x :=
  ⟨⟨x, by simp, le_rfl⟩, x, by simp, le_rfl⟩

/-- A weighted mean of two spanned values is spanned. -/
theorem Spanned.mean {values : List ℚ} {x y α : ℚ} (hx : Spanned values x) (hy : Spanned values y) (h0 : 0 ≤ α)
    (h1 : α ≤ 1) : Spanned values (x + α * (y - x)) := by
  obtain ⟨⟨lo, hlo, hlox⟩, hi, hhi, hxhi⟩ := hx
  obtain ⟨⟨lo', hlo', hloy⟩, hi', hhi', hyhi⟩ := hy
  rcases le_total x y with hxy | hxy
  · have hup : 0 ≤ α * (y - x) := mul_nonneg h0 (by linarith)
    have hdown : 0 ≤ (1 - α) * (y - x) := mul_nonneg (by linarith) (by linarith)
    exact ⟨⟨lo, hlo, by linarith⟩, hi', hhi', by linarith⟩
  · have hup : 0 ≤ α * (x - y) := mul_nonneg h0 (by linarith)
    have hdown : 0 ≤ (1 - α) * (x - y) := mul_nonneg (by linarith) (by linarith)
    exact ⟨⟨lo', hlo', by linarith⟩, hi, hhi, by linarith⟩

theorem Spanned.mono {values values' : List ℚ} {x : ℚ} (h : Spanned values x) (hsub : values ⊆ values') :
    Spanned values' x := by
  obtain ⟨⟨lo, hlo, hle⟩, hi, hhi, hge⟩ := h
  exact ⟨⟨lo, hsub hlo, hle⟩, hi, hsub hhi, hge⟩

/-- The noise floor stays among the values it began with and has learned from. -/
theorem after_spanned (h0 : 0 ≤ v.noiseAlpha) (h1 : v.noiseAlpha ≤ 1) {values : List ℚ}
    (h : Spanned values v.noiseFloor) (frames : List Bytes) :
    Spanned (values ++ v.quietEnergies frames) (v.after frames).noiseFloor := by
  induction frames generalizing v values with
  | nil => simpa [quietEnergies, after] using h
  | cons frame frames ih =>
      have hstep : Spanned (values ++ if v.loud frame then [] else [pcmFrameEnergy frame])
          (v.update frame).2.noiseFloor := by
        cases hloud : v.loud frame with
        | true =>
            rw [update_of_loud hloud]
            exact h.mono (by simp)
        | false =>
            rw [update_of_quiet hloud]
            refine Spanned.mean (h.mono (by simp)) ?_ h0 h1
            exact (spanned_self _ []).mono (by simp)
      have hrest := ih (by rwa [update_noiseAlpha]) (by rwa [update_noiseAlpha]) hstep
      rw [quietEnergies, after, ← List.append_assoc]
      exact hrest

/-! ## The threshold -/

theorem threshold_update_of_loud (h : v.loud frame = true) : (v.update frame).2.threshold = v.threshold := by
  rw [update_of_loud h]
  rfl

theorem threshold_after_of_loud (h : ∀ b ∈ v.loudness frames, b = true) :
    (v.after frames).threshold = v.threshold := by
  induction frames generalizing v with
  | nil => rfl
  | cons frame frames ih =>
      rw [after, ih (fun b hb => h b (by simp [loudness, hb])), threshold_update_of_loud (h _ (by simp [loudness]))]

end Update

/-- The detector hears the onsets of the loud frames of a sequence. -/
structure Hears (v : EnergyVAD) (frames : List Bytes) : Prop where
  /-- `update` returns `True` at the `speech_frames`-th frame of each maximal run of loud frames that has so many. -/
  onset : ∀ i, (v.updates frames)[i]? = some true ↔
    ∃ start len, MaximalRun (v.loudness frames) start len ∧ v.speechFrames ≤ len ∧ i + 1 = start + v.speechFrames
  /-- Between two such frames there is a quiet one. -/
  separated : ∀ i j : ℕ, i < j → (v.updates frames)[i]? = some true → (v.updates frames)[j]? = some true →
    ∃ k, i < k ∧ k < j ∧ (v.loudness frames)[k]? = some false
  /-- The noise floor stays within its initial value and the energies of the quiet frames so far. -/
  noise : ∀ front back, frames = front ++ back →
    Spanned (v.noiseFloor :: v.quietEnergies front) (v.after front).noiseFloor
  /-- The threshold is the same before, in and after a row of loud frames. -/
  steady : ∀ front row back, frames = front ++ row ++ back → (∀ b ∈ (v.after front).loudness row, b = true) →
    (v.after (front ++ row)).threshold = (v.after front).threshold

/-- A detector that is between two runs hears the onsets of whatever frames come next. -/
theorem reset_hears (v : EnergyVAD) (hn : 1 ≤ v.speechFrames) (h0 : 0 ≤ v.noiseAlpha) (h1 : v.noiseAlpha ≤ 1)
    (frames : List Bytes) : Hears v.reset frames := by
  have hcounts : v.reset.Counts := (decide_eq_false (by show ¬v.speechFrames ≤ 0; omega)).symm
  have heq : v.reset.updates frames = onsets v.speechFrames (v.reset.loudness frames) :=
    updates_eq (v := v.reset) hn hcounts frames
  refine ⟨fun i => ?_, fun i j hij hi hj => ?_, ?_, ?_⟩
  · rw [heq]
    exact onsets_iff hn _ i
  · rw [heq] at hi hj
    exact onsets_separated hn _ hij hi hj
  · intro front back _
    exact after_spanned (v := v.reset) h0 h1 (spanned_self _ []) front
  · intro front row back _ hrow
    rw [after_append]
    exact threshold_after_of_loud hrow

/-- From the construction on, with the parameters that the source has by default. -/
theorem reset_hears_init : Hears (init 500 3 3 (1 / 20) 100) [[0, 0], [0, 16], [0, 16], [0, 16], [0, 16]] :=
  reset_hears (init 500 3 3 (1 / 20) 100) (by decide) (by decide +kernel) (by decide +kernel) _

end Voxera.EnergyVAD
