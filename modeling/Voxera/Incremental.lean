import Mathlib.Data.List.Basic

/-!
# Processors of a stream that comes in chunks

A processor takes a state and a chunk, and gives the output for the chunk and the next state.

* `runAll f s chunks` : the outputs for all the chunks, one after the other, and the last state;
* `Additive I f` : in the states of `I`, which `f` keeps, two chunks have the effect of the two joined;
* `Additive.runAll_eq` : then only the joined input counts, however it is cut;
* `pipe f g` : `g` on the output of `f`, additive when both are.
-/

namespace Incremental

variable {σ α β : Type*} {f : σ → List α → List β × σ}

def runAll (f : σ → List α → List β × σ) (s : σ) : List (List α) → List β × σ
  | [] => ([], s)
  | chunk :: chunks => ((f s chunk).1 ++ (runAll f (f s chunk).2 chunks).1, (runAll f (f s chunk).2 chunks).2)

structure Additive (I : σ → Prop) (f : σ → List α → List β × σ) : Prop where
  nil : ∀ {s}, I s → f s [] = ([], s)
  keeps : ∀ {s} x, I s → I (f s x).2
  append : ∀ {s} x y, I s → f s (x ++ y) = ((f s x).1 ++ (f (f s x).2 y).1, (f (f s x).2 y).2)

variable {I : σ → Prop}

/-- An additive processor does not see where its input was cut. -/
theorem Additive.runAll_eq (h : Additive I f) {s : σ} (hs : I s) (chunks : List (List α)) :
    runAll f s chunks = f s chunks.flatten := by
  induction chunks generalizing s with
  | nil => exact (h.nil hs).symm
  | cons chunk chunks ih => rw [runAll, ih (h.keeps chunk hs), List.flatten_cons, h.append _ _ hs]

/-- Two processors that agree on all the chunks of a run agree on the run. -/
theorem runAll_congr {g : σ → List α → List β × σ} {P : σ → List α → Prop} (hfg : ∀ s x, P s x → f s x = g s x)
    (s : σ) (chunks : List (List α))
    (hP : ∀ front chunk back, chunks = front ++ chunk :: back → P (runAll f s front).2 chunk) :
    runAll f s chunks = runAll g s chunks := by
  induction chunks generalizing s with
  | nil => rfl
  | cons chunk chunks ih =>
      have hfirst : f s chunk = g s chunk := hfg s chunk (hP [] chunk chunks rfl)
      have hrest := ih (f s chunk).2 (fun front x back heq => hP (chunk :: front) x back (by rw [heq]; rfl))
      rw [runAll, runAll, hrest, hfirst]

/-- The output of one processor is the input of the next. -/
def pipe {τ γ : Type*} (f : σ → List α → List β × σ) (g : τ → List β → List γ × τ) (s : σ × τ) (chunk : List α) :
    List γ × (σ × τ) :=
  ((g s.2 (f s.1 chunk).1).1, (f s.1 chunk).2, (g s.2 (f s.1 chunk).1).2)

theorem Additive.pipe {τ γ : Type*} {J : τ → Prop} {g : τ → List β → List γ × τ} (hf : Additive I f)
    (hg : Additive J g) : Additive (fun s => I s.1 ∧ J s.2) (pipe f g) where
  nil h := by rw [Incremental.pipe, hf.nil h.1, hg.nil h.2]
  keeps x h := ⟨hf.keeps x h.1, hg.keeps _ h.2⟩
  append x y h := by
    simp only [Incremental.pipe]
    rw [hf.append x y h.1, hg.append _ _ h.2]

end Incremental
