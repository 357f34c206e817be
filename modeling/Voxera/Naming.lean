import Mathlib.Data.List.Nodup

/-!
# Names that are in hand for a while

A component marks what it puts out with a name. The name is in hand from a `take` on, or is a fresh one for this mark alone; an output
that `closes` lets the name go, and so does a `drop`.

* `Namer` : the component, its state `σ`, what it is given `μ`, what it puts out `τ`;
* `Use` : one step; `after`, `outs`, `fresh` : the state, the outputs and the fresh names of a run;
* `Keeps`, `InHand` : no name is let go; there is a name in hand;
* `name_eq_iff` : two outputs bear one name exactly when the name is in hand at the first and kept up to the second;
* `closing_sublist` : the outputs that close a name bear names in the order in which they were fresh.
-/

namespace Voxera

structure Namer (σ μ τ ν : Type) where
  take : σ → ν → σ
  mark : σ → ν → μ → Option τ × σ
  drop : σ → σ
  held : σ → Option ν
  name : τ → ν
  closes : τ → Bool
  held_take (s : σ) (fresh : ν) : held (take s fresh) = some ((held s).getD fresh)
  held_drop (s : σ) : held (drop s) = none
  held_silent (s : σ) (fresh : ν) (m : μ) : (mark s fresh m).1 = none → held (mark s fresh m).2 = held s
  held_out (s : σ) (fresh : ν) (m : μ) (out : τ) : (mark s fresh m).1 = some out →
    held (mark s fresh m).2 = if closes out then none else held s
  name_out (s : σ) (fresh : ν) (m : μ) (out : τ) : (mark s fresh m).1 = some out → name out = (held s).getD fresh

namespace Namer

/-- One step of a run, with the fresh name that it may use. -/
inductive Use (μ ν : Type) where
  | take (fresh : ν)
  | mark (fresh : ν) (m : μ)
  | drop

variable {σ μ τ ν : Type}

def Use.fresh : Use μ ν → List ν
  | .take fresh => [fresh]
  | .mark fresh _ => [fresh]
  | .drop => []

/-- The fresh names of a run. -/
def fresh (uses : List (Use μ ν)) : List ν := uses.flatMap Use.fresh

variable (N : Namer σ μ τ ν)

def step (s : σ) : Use μ ν → Option τ × σ
  | .take fresh => (none, N.take s fresh)
  | .mark fresh m => N.mark s fresh m
  | .drop => (none, N.drop s)

def after (s : σ) : List (Use μ ν) → σ
  | [] => s
  | use :: uses => after (N.step s use).2 uses

def outs (s : σ) : List (Use μ ν) → List τ
  | [] => []
  | use :: uses => (N.step s use).1.toList ++ outs (N.step s use).2 uses

/-- The run drops no name, and nothing that it puts out closes one. -/
def Keeps (s : σ) (uses : List (Use μ ν)) : Prop := .drop ∉ uses ∧ ∀ out ∈ N.outs s uses, N.closes out = false

/-- A name was taken, and kept since. -/
def InHand (s : σ) (uses : List (Use μ ν)) : Prop :=
  ∃ earlier fresh later, uses = earlier ++ .take fresh :: later ∧ N.Keeps (N.after s (earlier ++ [.take fresh])) later

variable {N} {s : σ} {uses : List (Use μ ν)} {use : Use μ ν}

@[simp] theorem fresh_nil : fresh ([] : List (Use μ ν)) = [] := rfl

@[simp] theorem fresh_cons : fresh (use :: uses) = use.fresh ++ fresh uses := rfl

@[simp] theorem fresh_append {uses' : List (Use μ ν)} : fresh (uses ++ uses') = fresh uses ++ fresh uses' := List.flatMap_append

theorem after_append {uses' : List (Use μ ν)} : N.after s (uses ++ uses') = N.after (N.after s uses) uses' := by
  induction uses generalizing s with
  | nil => rfl
  | cons use uses ih => exact ih

theorem outs_append {uses' : List (Use μ ν)} : N.outs s (uses ++ uses') = N.outs s uses ++ N.outs (N.after s uses) uses' := by
  induction uses generalizing s with
  | nil => rfl
  | cons use uses ih => rw [List.cons_append, outs, outs, after, ih, List.append_assoc]

theorem keeps_nil : N.Keeps s [] := ⟨List.not_mem_nil, fun _ h => absurd h List.not_mem_nil⟩

theorem keeps_cons_iff : N.Keeps s (use :: uses) ↔
    use ≠ .drop ∧ (∀ out, (N.step s use).1 = some out → N.closes out = false) ∧ N.Keeps (N.step s use).2 uses := by
  simp only [Keeps, outs, List.mem_cons, not_or, List.mem_append, Option.mem_toList]
  constructor
  · rintro ⟨⟨huse, huses⟩, houts⟩
    exact ⟨Ne.symm huse, fun out h => houts out (Or.inl h), huses, fun out h => houts out (Or.inr h)⟩
  · rintro ⟨huse, hout, huses, houts⟩
    exact ⟨⟨Ne.symm huse, huses⟩, fun out h => h.elim (hout out) (houts out)⟩

/-- A step that lets nothing go keeps the name in hand. -/
theorem held_step_of_keeps {name : ν} (hs : N.held s = some name) (huse : use ≠ .drop)
    (hout : ∀ out, (N.step s use).1 = some out → N.closes out = false) : N.held (N.step s use).2 = some name := by
  cases use with
  | take fresh => exact (N.held_take s fresh).trans (by rw [hs]; rfl)
  | drop => exact absurd rfl huse
  | mark fresh m =>
      cases h : (N.mark s fresh m).1 with
      | none => exact (N.held_silent s fresh m h).trans hs
      | some out => exact (N.held_out s fresh m out h).trans (by rw [hout out h]; exact hs)

theorem held_of_keeps {name : ν} (hs : N.held s = some name) (h : N.Keeps s uses) : N.held (N.after s uses) = some name := by
  induction uses generalizing s with
  | nil => exact hs
  | cons use uses ih =>
      obtain ⟨huse, hout, hrest⟩ := keeps_cons_iff.mp h
      exact ih (held_step_of_keeps hs huse hout) hrest

/-- A name in hand behind a step was in hand before, and the step lets nothing go, or the step has taken one. -/
theorem held_step_cases {name : ν} (h : N.held (N.step s use).2 = some name) :
    (N.held s = some name ∧ use ≠ .drop ∧ ∀ out, (N.step s use).1 = some out → N.closes out = false) ∨
    (N.held s = none ∧ use = .take name) := by
  cases use with
  | take fresh =>
      have htake : some ((N.held s).getD fresh) = some name := (N.held_take s fresh).symm.trans h
      cases hs : N.held s with
      | none =>
          rw [hs] at htake
          exact Or.inr ⟨rfl, by rw [← Option.some.inj htake]; rfl⟩
      | some held =>
          rw [hs] at htake
          exact Or.inl ⟨htake, by simp, fun out hout => by simp [step] at hout⟩
  | drop => exact absurd ((N.held_drop s).symm.trans h) (by simp)
  | mark fresh m =>
      cases hout : (N.mark s fresh m).1 with
      | none =>
          refine Or.inl ⟨(N.held_silent s fresh m hout).symm.trans h, by simp, fun out hout' => ?_⟩
          exact absurd (hout.symm.trans hout') (by simp)
      | some out =>
          have hheld := (N.held_out s fresh m out hout).symm.trans h
          cases hcloses : N.closes out with
          | true => simp [hcloses] at hheld
          | false =>
              refine Or.inl ⟨by simpa [hcloses] using hheld, by simp, fun out' hout' => ?_⟩
              rwa [← Option.some.inj (hout.symm.trans hout')]

/-- A name in hand behind a run was in hand before it and kept, or the run has taken it and kept it since. -/
theorem held_after_cases {name : ν} (h : N.held (N.after s uses) = some name) :
    (N.held s = some name ∧ N.Keeps s uses) ∨ (N.InHand s uses ∧ name ∈ fresh uses) := by
  induction uses generalizing s with
  | nil => exact Or.inl ⟨h, keeps_nil⟩
  | cons use uses ih =>
      rcases ih h with ⟨hheld, hkeeps⟩ | ⟨⟨earlier, taken, later, rfl, hkeeps⟩, hmem⟩
      · rcases held_step_cases hheld with ⟨hs, huse, hout⟩ | ⟨-, rfl⟩
        · exact Or.inl ⟨hs, keeps_cons_iff.mpr ⟨huse, hout, hkeeps⟩⟩
        · exact Or.inr ⟨⟨[], name, uses, rfl, hkeeps⟩, List.mem_append_left _ (List.mem_singleton.mpr rfl)⟩
      · exact Or.inr ⟨⟨use :: earlier, taken, later, rfl, hkeeps⟩, List.mem_append_right _ hmem⟩

theorem held_of_inHand (h : N.InHand s uses) : ∃ name, N.held (N.after s uses) = some name := by
  obtain ⟨earlier, taken, later, rfl, hkeeps⟩ := h
  have htake : N.held (N.after s (earlier ++ [.take taken])) = some ((N.held (N.after s earlier)).getD taken) := by
    rw [after_append]
    exact N.held_take _ _
  refine ⟨(N.held (N.after s earlier)).getD taken, ?_⟩
  rw [show earlier ++ .take taken :: later = (earlier ++ [.take taken]) ++ later by simp, after_append]
  exact held_of_keeps htake hkeeps

/-- The name of an output is a fresh one of the run that led to it. -/
theorem name_mem_fresh {taken : ν} {m : μ} {out : τ} (hs : N.held s = none) (hout : (N.mark (N.after s uses) taken m).1 = some out) :
    N.name out ∈ fresh (uses ++ [.mark taken m]) := by
  rw [N.name_out _ _ _ _ hout, fresh_append]
  cases hheld : N.held (N.after s uses) with
  | none => exact List.mem_append_right _ List.mem_cons_self
  | some name =>
      rcases held_after_cases hheld with ⟨hsome, -⟩ | ⟨-, hmem⟩
      · exact absurd (hs.symm.trans hsome) (by simp)
      · exact List.mem_append_left _ hmem

/-- An output whose name the run has not taken bears the name that was in hand before it. -/
theorem kept_of_not_mem {taken : ν} {m : μ} {out : τ} (hout : (N.mark (N.after s uses) taken m).1 = some out)
    (hnew : N.name out ∉ fresh (uses ++ [.mark taken m])) : N.held s = some (N.name out) ∧ N.Keeps s uses := by
  rw [fresh_append, List.mem_append, not_or] at hnew
  have hname := N.name_out _ _ _ _ hout
  cases hheld : N.held (N.after s uses) with
  | none =>
      rw [hheld] at hname
      exact absurd (hname ▸ List.mem_cons_self) hnew.2
  | some name =>
      rw [hheld] at hname
      rcases held_after_cases hheld with ⟨hs, hkeeps⟩ | ⟨-, hmem⟩
      · exact ⟨hs.trans (congrArg some hname.symm), hkeeps⟩
      · exact absurd (hname ▸ hmem) hnew.1

/-- Two outputs bear one name exactly when it is in hand at the first, which does not close it, and kept up to the second. -/
theorem name_eq_iff {before between : List (Use μ ν)} {taken taken' : ν} {m m' : μ} {out out' : τ} (hs : N.held s = none)
    (hfresh : (fresh (before ++ .mark taken m :: (between ++ [.mark taken' m']))).Nodup)
    (hout : (N.mark (N.after s before) taken m).1 = some out)
    (hout' : (N.mark (N.after s (before ++ .mark taken m :: between)) taken' m').1 = some out') :
    N.name out = N.name out' ↔
      N.InHand s before ∧ N.closes out = false ∧ N.Keeps (N.after s (before ++ [.mark taken m])) between := by
  have hstep : N.after s (before ++ [.mark taken m]) = (N.mark (N.after s before) taken m).2 := by
    rw [after_append]
    rfl
  have hbetween : N.after s (before ++ .mark taken m :: between) = N.after (N.after s (before ++ [.mark taken m])) between := by
    rw [← after_append]
    simp
  rw [hbetween] at hout'
  have hheld := hstep ▸ N.held_out _ _ _ _ hout
  constructor
  · intro heq
    rw [show before ++ Use.mark taken m :: (between ++ [.mark taken' m']) =
      (before ++ [.mark taken m]) ++ (between ++ [.mark taken' m']) by simp, fresh_append] at hfresh
    have hnew := (List.nodup_append.mp hfresh).2.2 _ (name_mem_fresh hs hout)
    obtain ⟨hkept, hkeeps⟩ := kept_of_not_mem hout' (heq ▸ fun hmem => hnew _ hmem rfl)
    rw [hheld] at hkept
    cases hcloses : N.closes out with
    | true => simp [hcloses] at hkept
    | false =>
        rw [hcloses, if_neg (by simp)] at hkept
        rcases held_after_cases hkept with ⟨hsome, -⟩ | ⟨hhand, -⟩
        · exact absurd (hs.symm.trans hsome) (by simp)
        · exact ⟨hhand, rfl, hkeeps⟩
  · rintro ⟨hhand, hopen, hkeeps⟩
    obtain ⟨name, hbefore⟩ := held_of_inHand hhand
    rw [hopen, if_neg (by simp), hbefore] at hheld
    rw [N.name_out _ _ _ _ hout, N.name_out _ _ _ _ hout', hbefore, held_of_keeps hheld hkeeps]
    rfl

/-- The outputs that close a name bear names in hand or fresh ones, in their order and none twice. -/
theorem closing_sublist : (((N.outs s uses).filter N.closes).map N.name).Sublist ((N.held s).toList ++ fresh uses) := by
  induction uses generalizing s with
  | nil => exact List.nil_sublist _
  | cons use uses ih =>
      have hrest := ih (s := (N.step s use).2)
      rw [outs, List.filter_append, List.map_append, fresh_cons]
      cases use with
      | take taken =>
          refine List.Sublist.trans (by simpa [step] using hrest) ?_
          rw [N.held_take, ← List.append_assoc]
          refine List.Sublist.append_right ?_ _
          cases N.held s <;> simp [Use.fresh]
      | drop =>
          refine List.Sublist.trans (by simpa [step] using hrest) ?_
          rw [N.held_drop]
          exact List.sublist_append_right _ _
      | mark taken m =>
          cases hout : (N.mark s taken m).1 with
          | none =>
              refine List.Sublist.trans (by simpa [step, hout] using hrest) ?_
              rw [N.held_silent s taken m hout]
              exact List.Sublist.append_left (List.sublist_append_right _ _) _
          | some out =>
              have hheld := N.held_out s taken m out hout
              have hname := N.name_out s taken m out hout
              rw [show (N.step s (.mark taken m)).2 = (N.mark s taken m).2 from rfl, hheld] at hrest
              cases hcloses : N.closes out with
              | false =>
                  refine List.Sublist.trans (by simpa [step, hout, hcloses] using hrest) ?_
                  exact List.Sublist.append_left (List.sublist_append_right _ _) _
              | true =>
                  have hone : [N.name out].Sublist ((N.held s).toList ++ [taken]) := by
                    rw [hname]
                    cases N.held s <;> simp
                  rw [← List.append_assoc]
                  exact List.Sublist.append (by simpa [step, hout, hcloses, Use.fresh] using hone)
                    (by simpa [step, hcloses] using hrest)

/-- Every output bears a name in hand or a fresh one. -/
theorem name_mem {out : τ} (h : out ∈ N.outs s uses) : N.name out ∈ (N.held s).toList ++ fresh uses := by
  induction uses generalizing s with
  | nil => exact absurd h List.not_mem_nil
  | cons use uses ih =>
      have hstep : ∀ name ∈ N.held (N.step s use).2, name ∈ (N.held s).toList ++ use.fresh := by
        intro name hname
        rcases held_step_cases hname with ⟨hs, -, -⟩ | ⟨-, rfl⟩
        · exact List.mem_append_left _ (Option.mem_toList.mpr hs)
        · exact List.mem_append_right _ (List.mem_singleton_self _)
      rw [fresh_cons, ← List.append_assoc]
      rcases List.mem_append.mp h with hout | hrest
      · refine List.mem_append_left _ ?_
        cases use with
        | mark taken m =>
            rw [N.name_out s taken m out (Option.mem_toList.mp hout)]
            cases N.held s <;> simp [Use.fresh]
        | take taken => exact absurd hout List.not_mem_nil
        | drop => exact absurd hout List.not_mem_nil
      · rcases List.mem_append.mp (ih hrest) with hheld | hfresh
        · exact List.mem_append_left _ (hstep _ (Option.mem_toList.mp hheld))
        · exact List.mem_append_right _ hfresh

end Namer

end Voxera
