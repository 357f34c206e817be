import Mathlib.Data.List.Basic

/-!
# Runs of a labelled step function

A system is a partial step function `step : S → L → Option S`: the label is the choice of the
scheduler and of the environment, and `none` means that the label is not enabled.

* `Run step ok s ls t` : the labels `ls` lead from `s` to `t`, and `ok` holds of every state and
  label met on the way;
* `Run.invariant`, `Run.invariant₂` : what every allowed step preserves holds at the end of every run;
* `pair_sublist_append`, `pair_sublist_left` : which of two entries of a history comes first;
* `extends_trans` : a history that grows twice;
* `exec` : the same run computed, with `ok` checked (`Run.of_exec`, `Run.exists_of_exec`).
-/

namespace EventLoop

variable {S L : Type*}

/-- The labels `ls` lead from `s` to `t`, every one of them allowed by `ok` where it is taken. -/
inductive Run (step : S → L → Option S) (ok : S → L → Prop) (s : S) : List L → S → Prop
  | nil : Run step ok s [] s
  | snoc {ls : List L} {t u : S} {l : L} :
      Run step ok s ls t → ok t l → step t l = some u → Run step ok s (ls ++ [l]) u

namespace Run

variable {step : S → L → Option S} {ok ok' : S → L → Prop} {s t u : S} {ls ls' : List L} {l : L}

/-- **Invariance**: an allowed step keeps `I`, so every run keeps it. -/
theorem invariant {I : S → Prop} (h : Run step ok s ls t) (h0 : I s)
    (hstep : ∀ {t u l}, I t → ok t l → step t l = some u → I u) : I t := by
  induction h with
  | nil => exact h0
  | snoc _ hl hu ih => exact hstep ih hl hu

/-- Invariance of a property that also reads the labels taken so far. -/
theorem invariant₂ {I : List L → S → Prop} (h : Run step ok s ls t) (h0 : I [] s)
    (hstep : ∀ {ls t u l}, I ls t → ok t l → step t l = some u → I (ls ++ [l]) u) : I ls t := by
  induction h with
  | nil => exact h0
  | snoc _ hl hu ih => exact hstep ih hl hu

/-- The last step of a run. -/
theorem last (h : Run step ok s (ls ++ [l]) u) : ∃ t, Run step ok s ls t ∧ ok t l ∧ step t l = some u := by
  generalize hls : ls ++ [l] = ls' at h
  cases h with
  | nil => exact absurd hls (List.append_ne_nil_of_right_ne_nil _ (List.cons_ne_nil _ _))
  | snoc hrun hl hu =>
      obtain ⟨rfl, heq⟩ := List.append_inj' hls rfl
      cases heq
      exact ⟨_, hrun, hl, hu⟩

/-- The labels determine the run. -/
theorem unique (h : Run step ok s ls t) (h' : Run step ok' s ls u) : t = u := by
  induction h generalizing u with
  | nil =>
      generalize hls : ([] : List L) = ls' at h'
      cases h' with
      | nil => rfl
      | snoc _ _ _ => exact absurd hls.symm (List.append_ne_nil_of_right_ne_nil _ (List.cons_ne_nil _ _))
  | snoc _ _ hu ih =>
      obtain ⟨t', hrun, -, hu'⟩ := h'.last
      rw [← ih hrun] at hu'
      exact Option.some.inj (hu.symm.trans hu')

theorem mono (h : Run step ok s ls t) (hok : ∀ t l, ok t l → ok' t l) : Run step ok' s ls t := by
  induction h with
  | nil => exact .nil
  | snoc _ hl hu ih => exact ih.snoc (hok _ _ hl) hu

/-- What holds in every state reached can be asked at each step. -/
theorem always {I : S → Prop} (h : Run step ok s ls t) (hI : ∀ {ls u}, Run step ok s ls u → I u) :
    Run step (fun t l => ok t l ∧ I t) s ls t := by
  induction h with
  | nil => exact .nil
  | snoc hrun hl hu ih => exact ih.snoc ⟨hl, hI hrun⟩ hu

/-- What holds of every label of a run can be asked of each step. -/
theorem labels {P : L → Prop} (h : Run step ok s ls t) (hls : ∀ l ∈ ls, P l) :
    Run step (fun t l => ok t l ∧ P l) s ls t := by
  induction h with
  | nil => exact .nil
  | snoc _ hl hu ih =>
      have hlast := hls _ (List.mem_append_right _ (List.mem_singleton_self _))
      exact (ih (fun l hl => hls l (List.mem_append_left _ hl))).snoc ⟨hl, hlast⟩ hu

theorem trans (h : Run step ok s ls t) (h' : Run step ok t ls' u) : Run step ok s (ls ++ ls') u := by
  induction h' with
  | nil => simpa using h
  | snoc _ hl hu ih => rw [← List.append_assoc]; exact ih.snoc hl hu

theorem cons (hl : ok s l) (ht : step s l = some t) (h : Run step ok t ls u) :
    Run step ok s (l :: ls) u :=
  have hfirst : Run step ok s [l] t := Run.nil.snoc hl ht
  hfirst.trans h

end Run

/-- The run along `ls`, computed; `none` when a label is not enabled or not allowed. -/
def exec (step : S → L → Option S) (ok : S → L → Prop) [∀ s l, Decidable (ok s l)] :
    S → List L → Option S
  | s, [] => some s
  | s, l :: ls => if ok s l then (step s l).bind (fun t => exec step ok t ls) else none

section Exec

variable {step : S → L → Option S} {ok : S → L → Prop} [∀ s l, Decidable (ok s l)]

theorem Run.of_exec {s t : S} {ls : List L} (h : exec step ok s ls = some t) : Run step ok s ls t := by
  induction ls generalizing s with
  | nil => cases h; exact .nil
  | cons l ls ih =>
      unfold exec at h
      split at h
      · rename_i hl
        obtain ⟨u, hu, hr⟩ := Option.bind_eq_some_iff.mp h
        exact Run.cons hl hu (ih hr)
      · cases h

/-- A run that `exec` completes ends in a state with the property that is computed there. -/
theorem Run.exists_of_exec {P : S → Bool} {s : S} {ls : List L} (h : (exec step ok s ls).any P = true) :
    ∃ t, Run step ok s ls t ∧ P t = true := by
  obtain ⟨t, ht, hp⟩ := (Option.any_eq_true P _).mp h
  exact ⟨t, Run.of_exec ht, hp⟩

end Exec

/-- A history that grows twice by entries with `P` grows by entries with `P`. -/
theorem extends_trans {α : Type*} {P : α → Prop} {l l' l'' : List α} (h : ∃ es, l' = l ++ es ∧ ∀ e ∈ es, P e)
    (h' : ∃ es, l'' = l' ++ es ∧ ∀ e ∈ es, P e) : ∃ es, l'' = l ++ es ∧ ∀ e ∈ es, P e := by
  obtain ⟨es, hes, hall⟩ := h
  obtain ⟨es', hes', hall'⟩ := h'
  refine ⟨es ++ es', by rw [hes', hes, List.append_assoc], ?_⟩
  intro e he
  rcases List.mem_append.mp he with he | he
  · exact hall e he
  · exact hall' e he

/-- An entry of a history comes before another one: where the two are when the history is cut in two. -/
theorem pair_sublist_append {α : Type*} {a b : α} {l l' : List α} (h : [a, b].Sublist (l ++ l')) :
    [a, b].Sublist l ∨ a ∈ l ∧ b ∈ l' ∨ [a, b].Sublist l' := by
  obtain ⟨l₁, l₂, heq, h₁, h₂⟩ := List.sublist_append_iff.mp h
  match l₁, heq with
  | [], heq => exact Or.inr (Or.inr (by simpa [heq] using h₂))
  | [x], heq =>
      simp only [List.cons_append, List.nil_append, List.cons.injEq] at heq
      obtain ⟨rfl, rfl⟩ := heq
      exact Or.inr (Or.inl ⟨List.singleton_sublist.mp h₁, List.singleton_sublist.mp h₂⟩)
  | [x, y], heq =>
      simp only [List.cons_append, List.nil_append, List.cons.injEq] at heq
      obtain ⟨rfl, rfl, -⟩ := heq
      exact Or.inl h₁
  | x :: y :: z :: l, heq => simp at heq

/-- Where the later entry is not new, neither of the two is. -/
theorem pair_sublist_left {α : Type*} {a b : α} {l l' : List α} (h : [a, b].Sublist (l ++ l')) (hb : b ∉ l') :
    [a, b].Sublist l := by
  rcases pair_sublist_append h with hold | ⟨-, hnew⟩ | hnew
  · exact hold
  · exact absurd hnew hb
  · exact absurd (hnew.subset (List.mem_cons_of_mem _ (List.mem_singleton_self _))) hb

end EventLoop
