import Mathlib.Data.List.Basic

/-!
# A ledger of items and their fates

A ledger lists the items in the order of their arrival, each with the one fate it has so far.

* `select p l` : the items whose fate satisfies `p`, in order of arrival;
* `move k k' l` : the first item with fate `k` gets the fate `k'`;
* `moveAll k k' l` : every item with fate `k` gets the fate `k'`;
* `Ordered R l` : the fates of an earlier and a later item are related by `R`.

`select_append_select` puts two selections together. `select` of a moved ledger : `select_move_eq` where the move changes nothing of the selection, `select_move_tail` at
the fate that is left, `select_move_head` at the fate that is reached.
-/

namespace Ledger

variable {α κ : Type*}

def select (p : κ → Bool) (l : List (α × κ)) : List α := (l.filter (fun e => p e.2)).map Prod.fst

def Ordered (R : κ → κ → Prop) (l : List (α × κ)) : Prop := l.Pairwise (fun a b => R a.2 b.2)

section Select

variable {p q : κ → Bool} {e : α × κ} {l l' : List (α × κ)}

@[simp] theorem select_nil (p : κ → Bool) : select p ([] : List (α × κ)) = [] := rfl

theorem select_cons_of_pos (h : p e.2 = true) : select p (e :: l) = e.1 :: select p l := by
  unfold select
  rw [List.filter_cons, if_pos h, List.map_cons]

theorem select_cons_of_neg (h : p e.2 = false) : select p (e :: l) = select p l := by
  unfold select
  rw [List.filter_cons, if_neg (Bool.eq_false_iff.mp h)]

theorem select_append (p : κ → Bool) (l l' : List (α × κ)) : select p (l ++ l') = select p l ++ select p l' := by
  unfold select
  rw [List.filter_append, List.map_append]

theorem select_eq_nil (h : ∀ e ∈ l, p e.2 = false) : select p l = [] := by
  unfold select
  rw [List.filter_eq_nil_iff.mpr (fun e he => by rw [h e he]; exact Bool.false_ne_true), List.map_nil]

/-- What is selected is a subsequence of what has arrived. -/
theorem select_sublist (p : κ → Bool) (l : List (α × κ)) : (select p l).Sublist (l.map Prod.fst) :=
  List.filter_sublist.map Prod.fst

/-- What is selected, and what is not. -/
theorem length_select_add (p : κ → Bool) (l : List (α × κ)) :
    (select p l).length + (select (fun j => !p j) l).length = l.length := by
  induction l with
  | nil => rfl
  | cons e l ih =>
      cases hp : p e.2 with
      | true => rw [select_cons_of_pos hp, select_cons_of_neg (by rw [hp]; rfl), List.length_cons, List.length_cons, ← ih]; omega
      | false => rw [select_cons_of_neg hp, select_cons_of_pos (by rw [hp]; rfl), List.length_cons, List.length_cons, ← ih]; omega

/-- Two selections of which none of the first stands behind one of the second. -/
theorem select_append_select (hdisjoint : ∀ j, p j = true → q j = false)
    (hordered : Ordered (fun i j => q i = true → p j = false) l) :
    select p l ++ select q l = select (fun j => p j || q j) l := by
  induction l with
  | nil => rfl
  | cons e l ih =>
      obtain ⟨hfirst, hrest⟩ := List.pairwise_cons.mp hordered
      cases hp : p e.2 with
      | true =>
          rw [select_cons_of_pos hp, select_cons_of_neg (hdisjoint _ hp), select_cons_of_pos (by rw [hp]; rfl),
            List.cons_append, ih hrest]
      | false =>
          rw [select_cons_of_neg hp]
          cases hq : q e.2 with
          | true =>
              have hnone : select p l = [] := select_eq_nil (fun b hb => hfirst b hb hq)
              have hih := ih hrest
              rw [hnone, List.nil_append] at hih ⊢
              rw [select_cons_of_pos hq, select_cons_of_pos (by rw [hp, hq]; rfl), hih]
          | false => rw [select_cons_of_neg hq, select_cons_of_neg (by rw [hp, hq]; rfl), ih hrest]

theorem Ordered.append {R : κ → κ → Prop} (h : Ordered R l) {e : α × κ} (hlast : ∀ a ∈ l, R a.2 e.2) :
    Ordered R (l ++ [e]) := by
  refine List.pairwise_append.mpr ⟨h, List.pairwise_singleton _ _, ?_⟩
  intro a ha b hb
  rw [List.mem_singleton.mp hb]
  exact hlast a ha

end Select

variable [DecidableEq κ]

def move (k k' : κ) : List (α × κ) → List (α × κ)
  | [] => []
  | e :: l => if e.2 = k then (e.1, k') :: l else e :: move k k' l

def moveAll (k k' : κ) (l : List (α × κ)) : List (α × κ) := l.map (fun e => if e.2 = k then (e.1, k') else e)

section Move

variable {p : κ → Bool} {k k' : κ} {l : List (α × κ)} {R : κ → κ → Prop}

/-- A move keeps the items and their order. -/
@[simp] theorem map_fst_move (k k' : κ) (l : List (α × κ)) : (move k k' l).map Prod.fst = l.map Prod.fst := by
  induction l with
  | nil => rfl
  | cons e l ih =>
      unfold move
      split
      · rfl
      · rw [List.map_cons, List.map_cons, ih]

@[simp] theorem map_fst_moveAll (k k' : κ) (l : List (α × κ)) : (moveAll k k' l).map Prod.fst = l.map Prod.fst := by
  unfold moveAll
  rw [List.map_map]
  apply List.map_congr_left
  intro e _
  show (if e.2 = k then (e.1, k') else e).1 = e.1
  split <;> rfl

theorem select_move_eq (h : p k = p k') (l : List (α × κ)) : select p (move k k' l) = select p l := by
  induction l with
  | nil => rfl
  | cons e l ih =>
      unfold move
      split
      · rename_i he
        cases hp : p k with
        | true => rw [select_cons_of_pos (e := (e.1, k')) (h ▸ hp), select_cons_of_pos (he ▸ hp)]
        | false => rw [select_cons_of_neg (e := (e.1, k')) (h ▸ hp), select_cons_of_neg (he ▸ hp)]
      · cases hp : p e.2 with
        | true => rw [select_cons_of_pos hp, select_cons_of_pos hp, ih]
        | false => rw [select_cons_of_neg hp, select_cons_of_neg hp, ih]

/-- The first item leaves a fate that is selected alone. -/
theorem select_move_tail (h : ∀ j, p j = true ↔ j = k) (hne : k ≠ k') (l : List (α × κ)) :
    select p (move k k' l) = (select p l).tail := by
  have hk' : p k' = false := by
    rw [Bool.eq_false_iff]
    exact fun hp => hne ((h k').mp hp).symm
  induction l with
  | nil => rfl
  | cons e l ih =>
      unfold move
      split
      · rename_i he
        rw [select_cons_of_neg (e := (e.1, k')) hk', select_cons_of_pos ((h e.2).mpr he), List.tail_cons]
      · rename_i he
        have hp : p e.2 = false := Bool.eq_false_iff.mpr (fun hp => he ((h e.2).mp hp))
        rw [select_cons_of_neg hp, select_cons_of_neg hp, ih]

/-- An item that is moved into the selection comes last there, when no selected one stands behind it. -/
theorem select_move_head {q : κ → Bool} (hq : ∀ j, q j = true ↔ j = k) (hk : p k = false) (hk' : p k' = true)
    (hordered : Ordered (fun i j => i = k → p j = false) l) :
    select p (move k k' l) = select p l ++ (select q l).head?.toList := by
  induction l with
  | nil => rfl
  | cons e l ih =>
      obtain ⟨hfirst, hrest⟩ := List.pairwise_cons.mp hordered
      unfold move
      split
      · rename_i he
        have hnone : select p l = [] := select_eq_nil (fun b hb => hfirst b hb he)
        rw [select_cons_of_pos (e := (e.1, k')) hk', select_cons_of_neg (he ▸ hk), hnone,
          select_cons_of_pos ((hq e.2).mpr he)]
        rfl
      · rename_i he
        have hqe : q e.2 = false := Bool.eq_false_iff.mpr (fun hp => he ((hq e.2).mp hp))
        rw [select_cons_of_neg hqe]
        cases hp : p e.2 with
        | true => rw [select_cons_of_pos hp, select_cons_of_pos hp, ih hrest, List.cons_append]
        | false => rw [select_cons_of_neg hp, select_cons_of_neg hp, ih hrest]

/-- Wherever the moved item stands, the selection has one more. -/
theorem length_select_move {q : κ → Bool} (hq : ∀ j, q j = true ↔ j = k) (hk : p k = false) (hk' : p k' = true)
    (l : List (α × κ)) :
    (select p (move k k' l)).length = (select p l).length + (select q l).head?.toList.length := by
  induction l with
  | nil => rfl
  | cons e l ih =>
      unfold move
      split
      · rename_i he
        rw [select_cons_of_pos (e := (e.1, k')) hk', select_cons_of_neg (he ▸ hk), select_cons_of_pos ((hq e.2).mpr he)]
        rfl
      · rename_i he
        have hqe : q e.2 = false := Bool.eq_false_iff.mpr (fun hp => he ((hq e.2).mp hp))
        rw [select_cons_of_neg hqe]
        cases hp : p e.2 with
        | true => rw [select_cons_of_pos hp, select_cons_of_pos hp, List.length_cons, List.length_cons, ih, Nat.add_right_comm]
        | false => rw [select_cons_of_neg hp, select_cons_of_neg hp, ih]

/-- An entry of the moved ledger was there, or it is the one that was moved. -/
theorem mem_move {e : α × κ} (h : e ∈ move k k' l) : e ∈ l ∨ e.2 = k' ∧ ∃ a ∈ l, a.2 = k := by
  induction l with
  | nil => exact Or.inl h
  | cons a l ih =>
      unfold move at h
      split at h
      · rename_i ha
        rcases List.mem_cons.mp h with rfl | h
        · exact Or.inr ⟨rfl, a, List.mem_cons_self, ha⟩
        · exact Or.inl (List.mem_cons_of_mem _ h)
      · rcases List.mem_cons.mp h with rfl | h
        · exact Or.inl List.mem_cons_self
        · rcases ih h with h | ⟨hk', b, hb, hbk⟩
          · exact Or.inl (List.mem_cons_of_mem _ h)
          · exact Or.inr ⟨hk', b, List.mem_cons_of_mem _ hb, hbk⟩

/-- A move keeps an order of the fates that the new fate keeps at both sides of the item. -/
theorem Ordered.move (h : Ordered R l) (hearlier : ∀ j, j ≠ k → R j k → R j k') (hlater : ∀ j, R k j → R k' j) :
    Ordered R (move k k' l) := by
  induction l with
  | nil => exact List.Pairwise.nil
  | cons e l ih =>
      obtain ⟨hfirst, hrest⟩ := List.pairwise_cons.mp h
      unfold Ledger.move
      split
      · rename_i he
        exact List.pairwise_cons.mpr ⟨fun b hb => hlater b.2 (he ▸ hfirst b hb), hrest⟩
      · rename_i he
        refine List.pairwise_cons.mpr ⟨?_, ih hrest⟩
        intro b hb
        rcases mem_move hb with hb | ⟨hk', a, ha, hak⟩
        · exact hfirst b hb
        · rw [hk']
          exact hearlier e.2 he (hak ▸ hfirst a ha)

theorem select_moveAll_eq (h : p k = p k') (l : List (α × κ)) : select p (moveAll k k' l) = select p l := by
  induction l with
  | nil => rfl
  | cons e l ih =>
      show select p ((if e.2 = k then (e.1, k') else e) :: moveAll k k' l) = _
      split
      · rename_i he
        cases hp : p k with
        | true => rw [select_cons_of_pos (e := (e.1, k')) (h ▸ hp), select_cons_of_pos (he ▸ hp), ih]
        | false => rw [select_cons_of_neg (e := (e.1, k')) (h ▸ hp), select_cons_of_neg (he ▸ hp), ih]
      · cases hp : p e.2 with
        | true => rw [select_cons_of_pos hp, select_cons_of_pos hp, ih]
        | false => rw [select_cons_of_neg hp, select_cons_of_neg hp, ih]

/-- No item keeps the fate that all leave. -/
theorem select_moveAll_nil (h : ∀ j, p j = true ↔ j = k) (hne : k ≠ k') (l : List (α × κ)) : select p (moveAll k k' l) = [] := by
  refine select_eq_nil (fun e he => ?_)
  obtain ⟨a, -, rfl⟩ := List.mem_map.mp he
  rw [Bool.eq_false_iff]
  intro hp
  have hk := (h _).mp hp
  split at hk
  · exact hne hk.symm
  · rename_i ha
    exact ha hk

theorem Ordered.moveAll (h : Ordered R l) (hR : ∀ i j, R i j → R (if i = k then k' else i) (if j = k then k' else j)) :
    Ordered R (moveAll k k' l) := by
  refine List.pairwise_map.mpr (List.Pairwise.imp (fun {a b} hab => ?_) h)
  have hmoved := hR a.2 b.2 hab
  have hsnd : ∀ e : α × κ, (if e.2 = k then (e.1, k') else e).2 = if e.2 = k then k' else e.2 := by
    intro e
    split <;> rfl
  rw [hsnd, hsnd]
  exact hmoved

end Move

end Ledger
