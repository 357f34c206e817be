import Voxera.Incremental
import Mathlib.Tactic.Linarith

/-!
# Frames of one length, cut off a stream

* `cut n data` : the frames of `n` elements at the front of `data`, and the rest;
* `push n` : the processor that keeps the rest in a buffer, which does not see the chunks of its input (`push_additive`);
* `pad n z rest` : the last frame, filled up with `z`;
* `frames n z data` : `data` in frames of `n`; `Framed` : what they are.
-/

namespace Framing

open Incremental

variable {α : Type*} {n : ℕ} {z : α} {data more rest : List α}

def cutFrom (n : ℕ) : ℕ → List α → List (List α) × List α
  | 0, data => ([], data)
  | fuel + 1, data =>
    if n ≤ data.length then
      let (frames, rest) := cutFrom n fuel (data.drop n)
      (data.take n :: frames, rest)
    else ([], data)

def cut (n : ℕ) (data : List α) : List (List α) × List α := cutFrom n data.length data

/-- The fuel does not count when there is enough of it. -/
theorem cutFrom_congr (hn : 0 < n) {fuel fuel' : ℕ} (h : data.length ≤ fuel) (h' : data.length ≤ fuel') :
    cutFrom n fuel data = cutFrom n fuel' data := by
  induction fuel generalizing fuel' data with
  | zero =>
      obtain rfl := List.length_eq_zero_iff.mp (Nat.le_zero.mp h)
      cases fuel' with
      | zero => rfl
      | succ fuel' => simp [cutFrom, Nat.not_le.mpr hn]
  | succ fuel ih =>
      cases fuel' with
      | zero =>
          obtain rfl := List.length_eq_zero_iff.mp (Nat.le_zero.mp h')
          simp [cutFrom, Nat.not_le.mpr hn]
      | succ fuel' =>
          rw [cutFrom, cutFrom]
          split
          · have hdrop : (data.drop n).length + n ≤ data.length := by
              rw [List.length_drop]
              omega
            have hrest : cutFrom n fuel (data.drop n) = cutFrom n fuel' (data.drop n) := ih (by omega) (by omega)
            rw [hrest]
          · rfl

theorem cut_of_lt (h : data.length < n) : cut n data = ([], data) := by
  unfold cut
  cases data with
  | nil => rfl
  | cons a data =>
      rw [List.length_cons] at h ⊢
      rw [cutFrom, if_neg (by rw [List.length_cons]; omega)]

theorem cut_of_le (hn : 0 < n) (h : n ≤ data.length) :
    cut n data = (data.take n :: (cut n (data.drop n)).1, (cut n (data.drop n)).2) := by
  obtain ⟨k, hk⟩ : ∃ k, data.length = k + 1 := ⟨data.length - 1, by omega⟩
  have hrest : cutFrom n k (data.drop n) = cut n (data.drop n) :=
    cutFrom_congr hn (by rw [List.length_drop]; omega) le_rfl
  rw [cut, hk, cutFrom, if_pos h, hrest]

/-- The frames and the rest are the data. -/
theorem cut_flatten (hn : 0 < n) (data : List α) : (cut n data).1.flatten ++ (cut n data).2 = data := by
  by_cases h : n ≤ data.length
  · rw [cut_of_le hn h, List.flatten_cons, List.append_assoc, cut_flatten hn (data.drop n), List.take_append_drop]
  · rw [cut_of_lt (by omega), List.flatten_nil, List.nil_append]
termination_by data.length
decreasing_by
  rw [List.length_drop]
  omega

theorem length_of_mem_cut (hn : 0 < n) (data : List α) : ∀ frame ∈ (cut n data).1, frame.length = n := by
  by_cases h : n ≤ data.length
  · rw [cut_of_le hn h]
    intro frame hframe
    rcases List.mem_cons.mp hframe with rfl | hframe
    · rw [List.length_take]
      omega
    · exact length_of_mem_cut hn (data.drop n) frame hframe
  · rw [cut_of_lt (by omega)]
    exact fun _ hframe => nomatch hframe
termination_by data.length
decreasing_by
  rw [List.length_drop]
  omega

theorem length_cut_rest (hn : 0 < n) (data : List α) : (cut n data).2.length < n := by
  by_cases h : n ≤ data.length
  · rw [cut_of_le hn h]
    exact length_cut_rest hn (data.drop n)
  · rw [cut_of_lt (by omega)]
    exact Nat.lt_of_not_le h
termination_by data.length
decreasing_by
  rw [List.length_drop]
  omega

/-- The rest of the data goes in front of what comes next. -/
theorem cut_append (hn : 0 < n) (data more : List α) :
    cut n (data ++ more) = ((cut n data).1 ++ (cut n ((cut n data).2 ++ more)).1, (cut n ((cut n data).2 ++ more)).2) := by
  by_cases h : n ≤ data.length
  · have hboth : n ≤ (data ++ more).length := by
      rw [List.length_append]
      omega
    rw [cut_of_le hn hboth, cut_of_le hn h, List.take_append_of_le_length h, List.drop_append_of_le_length h,
      cut_append hn (data.drop n) more]
    rfl
  · have hshort : data.length < n := by omega
    rw [cut_of_lt hshort, List.nil_append]
termination_by data.length
decreasing_by
  rw [List.length_drop]
  omega

/-! ## The processor -/

def push (n : ℕ) (buffer chunk : List α) : List (List α) × List α := cut n (buffer ++ chunk)

theorem push_additive (hn : 0 < n) : Additive (fun buffer : List α => buffer.length < n) (push n) where
  nil h := by rw [push, List.append_nil, cut_of_lt h]
  keeps _ _ := length_cut_rest hn _
  append x y _ := by rw [push, push, push, ← List.append_assoc, cut_append hn]

/-! ## Whole streams -/

/-- The frame of what is left at the end. -/
def pad (n : ℕ) (z : α) (rest : List α) : List (List α) :=
  if rest.isEmpty then [] else [rest ++ List.replicate (n - rest.length) z]

/-- The data in frames of `n`. -/
def frames (n : ℕ) (z : α) (data : List α) : List (List α) := (cut n data).1 ++ pad n z (cut n data).2

/-- The list is the data in frames of `n`, with less than a frame of `z` behind it. -/
structure Framed (n : ℕ) (z : α) (data : List α) (list : List (List α)) : Prop where
  sized : ∀ frame ∈ list, frame.length = n
  joined : ∃ k < n, list.flatten = data ++ List.replicate k z

theorem framed_frames (hn : 0 < n) (z : α) (data : List α) : Framed n z data (frames n z data) := by
  have hrest := length_cut_rest hn data
  have hdata := cut_flatten hn data
  unfold frames pad
  split
  · next hempty =>
      rw [List.isEmpty_iff] at hempty
      rw [hempty, List.append_nil] at hdata
      rw [List.append_nil]
      exact ⟨length_of_mem_cut hn data, 0, hn, by rw [hdata, List.replicate_zero, List.append_nil]⟩
  · next hne =>
      have hpos : 0 < (cut n data).2.length := List.length_pos_iff.mpr (by simpa using hne)
      refine ⟨fun frame hframe => ?_, n - (cut n data).2.length, by omega, ?_⟩
      · rcases List.mem_append.mp hframe with hframe | hframe
        · exact length_of_mem_cut hn data frame hframe
        · rw [List.mem_singleton.mp hframe, List.length_append, List.length_replicate]
          omega
      · rw [List.flatten_append, List.flatten_singleton, ← List.append_assoc, hdata]

end Framing
