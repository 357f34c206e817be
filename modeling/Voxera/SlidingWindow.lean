import Mathlib.Algebra.Order.Group.Defs
import Mathlib.Data.List.Sort
import Mathlib.Tactic.Linarith

/-!
# Windows that slide over a sorted list

A window keeps the times that still count, the oldest first; the times that no longer do are dropped from its
front, and only when it is looked at.

* `evict cut w` : `w` without the times up to `cut` at its front; on a sorted `w`, the times after `cut`
  (`evict_eq_filter`);
* `evict_evict` : to evict now and then later is to evict later;
* `inWindow width t ts` : the times of `ts` in `(t - width, t]`.
-/

namespace SlidingWindow

section Evict
variable {α : Type*} [LinearOrder α] {w : List α} {c c' a : α}

def evict (c : α) (w : List α) : List α := w.dropWhile (fun x => decide (x ≤ c))

@[simp] theorem evict_nil (c : α) : evict c [] = [] := rfl

theorem evict_cons_of_le (h : a ≤ c) : evict c (a :: w) = evict c w := by simp [evict, h]

theorem evict_cons_of_lt (h : c < a) : evict c (a :: w) = a :: w := by simp [evict, not_le.mpr h]

theorem evict_suffix (c : α) (w : List α) : evict c w <:+ w := List.dropWhile_suffix _

theorem mem_of_mem_evict (h : a ∈ evict c w) : a ∈ w := (evict_suffix c w).mem h

theorem lt_of_evict_eq {rest : List α} (h : evict c w = a :: rest) : c < a := by
  have hne : w.dropWhile (fun x => decide (x ≤ c)) ≠ [] := by
    intro hnil
    rw [evict, hnil] at h
    exact absurd h (by simp)
  have hhead := List.head_dropWhile_not (fun x => decide (x ≤ c)) hne
  have ha : (w.dropWhile (fun x => decide (x ≤ c))).head hne = a := by
    have : w.dropWhile (fun x => decide (x ≤ c)) = a :: rest := h
    simp only [this, List.head_cons]
  rw [ha] at hhead
  exact not_le.mp (by simpa using hhead)

theorem evict_evict (h : c ≤ c') : evict c' (evict c w) = evict c' w := by
  induction w with
  | nil => rfl
  | cons x w ih =>
      by_cases hx : x ≤ c
      · rw [evict_cons_of_le hx, evict_cons_of_le (hx.trans h), ih]
      · rw [evict_cons_of_lt (not_le.mp hx)]

theorem length_evict_anti (h : c ≤ c') : (evict c' w).length ≤ (evict c w).length := by
  rw [← evict_evict h]
  exact (evict_suffix c' _).length_le

theorem evict_concat (h : c < a) : evict c (w ++ [a]) = evict c w ++ [a] := by
  induction w with
  | nil => simp [evict, not_le.mpr h]
  | cons x w ih =>
      by_cases hx : x ≤ c
      · rw [List.cons_append, evict_cons_of_le hx, evict_cons_of_le hx, ih]
      · rw [List.cons_append, evict_cons_of_lt (not_le.mp hx), evict_cons_of_lt (not_le.mp hx), List.cons_append]

theorem evict_eq_nil (h : ∀ x ∈ w, x ≤ c) : evict c w = [] := by
  induction w with
  | nil => rfl
  | cons x w ih => rw [evict_cons_of_le (h x (by simp)), ih (fun y hy => h y (by simp [hy]))]

theorem evict_eq_filter (hw : w.Pairwise (· ≤ ·)) : evict c w = w.filter (fun x => decide (c < x)) := by
  induction w with
  | nil => rfl
  | cons x w ih =>
      rw [List.pairwise_cons] at hw
      by_cases hx : x ≤ c
      · rw [evict_cons_of_le hx, ih hw.2, List.filter_cons_of_neg (by simpa using hx)]
      · have hall : ∀ y ∈ x :: w, decide (c < y) = true := by
          intro y hy
          refine decide_eq_true ((not_le.mp hx).trans_le ?_)
          rcases List.mem_cons.mp hy with rfl | hy
          · exact le_rfl
          · exact hw.1 y hy
        rw [evict_cons_of_lt (not_le.mp hx), List.filter_eq_self.mpr hall]

end Evict

section InWindow
variable {α : Type*} [AddCommGroup α] [LinearOrder α] {ts : List α} {width t a : α}

/-- The times of `ts` in the window of `width` that ends at `t`. -/
def inWindow (width t : α) (ts : List α) : List α := ts.filter (fun x => decide (t - width < x ∧ x ≤ t))

@[simp] theorem inWindow_nil (width t : α) : inWindow width t [] = [] := rfl

theorem evict_eq_inWindow (hts : ts.Pairwise (· ≤ ·)) (hle : ∀ x ∈ ts, x ≤ t) :
    evict (t - width) ts = inWindow width t ts := by
  rw [evict_eq_filter hts, inWindow]
  apply List.filter_congr
  intro x hx
  simp [hle x hx]

/-- No window gets more than `n` times with a time that the window which ends there has room for. -/
theorem length_inWindow_concat [IsOrderedAddMonoid α] {n : ℕ} (hle : ∀ x ∈ ts, x ≤ a) (hroom : (inWindow width a ts).length < n)
    (hbound : ∀ t, (inWindow width t ts).length ≤ n) (t : α) : (inWindow width t (ts ++ [a])).length ≤ n := by
  by_cases ha : t - width < a ∧ a ≤ t
  · have hsub : (inWindow width t ts).length ≤ (inWindow width a ts).length := by
      rw [inWindow, inWindow, ← List.countP_eq_length_filter, ← List.countP_eq_length_filter]
      apply List.countP_mono_left
      intro x hx hin
      have hlow := ((sub_le_sub_iff_right width).mpr ha.2).trans_lt (of_decide_eq_true hin).1
      exact decide_eq_true ⟨hlow, hle x hx⟩
    have hone : (inWindow width t (ts ++ [a])).length = (inWindow width t ts).length + 1 := by
      simp [inWindow, List.filter_append, ha]
    omega
  · have hnone : inWindow width t (ts ++ [a]) = inWindow width t ts := by
      simp only [inWindow, List.filter_append]
      rw [List.filter_cons_of_neg (by simpa using ha), List.filter_nil, List.append_nil]
    rw [hnone]
    exact hbound t

end InWindow

end SlidingWindow
