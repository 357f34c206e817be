import Mathlib.Data.Rat.Floor
import Mathlib.Tactic.FieldSimp
import Mathlib.Tactic.Linarith
import Mathlib.Tactic.Push

/-!
# Reading a stream of samples at equal steps

The loop `while pos < last: ...; pos += step`, in exact rational arithmetic.

* `positions` : the values of `pos` in the loop, and after it;
* `positions_append`, `positions_sub` : the loop can be left and entered again, and the positions counted from elsewhere;
* `lerp` : the samples between which a position lies, interpolated (`lerp_append_left`, `lerp_drop`).
-/

namespace Voxera

/-- The iterations of the loop that are left at `pos`. -/
def iterations (step lastIndex pos : ℚ) : ℕ := ⌈(lastIndex - pos) / step⌉₊

/-- The loop of `process`: the values of `pos` in it, and after it. -/
def positionsFrom (step lastIndex : ℚ) : ℕ → ℚ → List ℚ × ℚ
  | 0, pos => ([], pos)
  | fuel + 1, pos =>
    if pos < lastIndex then
      let (rest, pos') := positionsFrom step lastIndex fuel (pos + step)
      (pos :: rest, pos')
    else ([], pos)

def positions (step lastIndex pos : ℚ) : List ℚ × ℚ :=
  positionsFrom step lastIndex (iterations step lastIndex pos) pos

section Positions

variable {step lastIndex pos : ℚ} {n : ℕ}

/-- While the end is not reached the loop takes one step after the other. -/
theorem positionsFrom_eq (h : ∀ k < n, pos + k * step < lastIndex) :
    positionsFrom step lastIndex n pos = ((List.range n).map (fun k : ℕ => pos + k * step), pos + n * step) := by
  induction n generalizing pos with
  | zero => simp [positionsFrom]
  | succ n ih =>
      have hfirst : pos < lastIndex := by simpa using h 0 (by omega)
      have hrest := @ih (pos + step) (fun k hk => by
        have hnext := h (k + 1) (by omega)
        push_cast at hnext
        linarith)
      rw [positionsFrom, if_pos hfirst, hrest, List.range_succ_eq_map, List.map_cons, List.map_map]
      refine Prod.ext ?_ ?_
      · simp only [Nat.cast_zero, zero_mul, add_zero, List.cons.injEq, true_and]
        apply List.map_congr_left
        intro k _
        simp only [Function.comp_apply, Nat.cast_succ]
        ring
      · simp only [Nat.cast_succ]
        ring

/-- Past the end the loop is not entered. -/
theorem positions_of_le (h : lastIndex ≤ pos) : positions step lastIndex pos = ([], pos) := by
  unfold positions
  cases iterations step lastIndex pos with
  | zero => rfl
  | succ fuel => rw [positionsFrom, if_neg (not_lt.mpr h)]

theorem lt_of_lt_iterations (hstep : 0 < step) {k : ℕ} (hk : k < iterations step lastIndex pos) :
    pos + k * step < lastIndex := by
  have hlt : (k : ℚ) < (lastIndex - pos) / step := Nat.lt_ceil.mp hk
  rw [lt_div_iff₀ hstep] at hlt
  linarith

/-- The loop ends at its condition, not for want of iterations. -/
theorem le_of_iterations (hstep : 0 < step) (lastIndex pos : ℚ) : lastIndex ≤ pos + iterations step lastIndex pos * step := by
  have hle : (lastIndex - pos) / step ≤ iterations step lastIndex pos := Nat.le_ceil _
  rw [div_le_iff₀ hstep] at hle
  linarith

/-- The iterations are those at whose position the loop goes on. -/
theorem lt_iterations_iff (hstep : 0 < step) {k : ℕ} : k < iterations step lastIndex pos ↔ pos + k * step < lastIndex := by
  constructor
  · exact lt_of_lt_iterations hstep
  · intro hk
    by_contra hge
    have hend := le_of_iterations hstep lastIndex pos
    have hmono : (iterations step lastIndex pos : ℚ) * step ≤ k * step := by
      have hcast : (iterations step lastIndex pos : ℚ) ≤ k := by exact_mod_cast not_lt.mp hge
      exact mul_le_mul_of_nonneg_right hcast hstep.le
    linarith

theorem positions_eq (hstep : 0 < step) (lastIndex pos : ℚ) :
    positions step lastIndex pos =
      ((List.range (iterations step lastIndex pos)).map (fun k : ℕ => pos + k * step),
        pos + iterations step lastIndex pos * step) :=
  positionsFrom_eq (fun _ hk => lt_of_lt_iterations hstep hk)

theorem le_positions (hstep : 0 < step) : lastIndex ≤ (positions step lastIndex pos).2 := by
  rw [positions_eq hstep]
  exact le_of_iterations hstep _ _

theorem mem_positions (hstep : 0 < step) {p : ℚ} (h : p ∈ (positions step lastIndex pos).1) :
    pos ≤ p ∧ p < lastIndex := by
  rw [positions_eq hstep] at h
  obtain ⟨k, hk, rfl⟩ := List.mem_map.mp h
  refine ⟨?_, lt_of_lt_iterations hstep (List.mem_range.mp hk)⟩
  have hnonneg : (0 : ℚ) ≤ k * step := by positivity
  linarith

/-- The loop can be left at any point on the way and entered again. -/
theorem positions_append (hstep : 0 < step) {mid : ℚ} (h : mid ≤ lastIndex) :
    positions step lastIndex pos = ((positions step mid pos).1 ++ (positions step lastIndex (positions step mid pos).2).1,
      (positions step lastIndex (positions step mid pos).2).2) := by
  have hcount : iterations step lastIndex pos = iterations step mid pos +
      iterations step lastIndex (pos + iterations step mid pos * step) := by
    have hle : iterations step mid pos ≤ iterations step lastIndex pos := by
      apply Nat.ceil_mono
      gcongr
    have hrest : (lastIndex - (pos + iterations step mid pos * step)) / step =
        (lastIndex - pos) / step - iterations step mid pos := by
      field_simp
      ring
    have hsub : iterations step lastIndex (pos + iterations step mid pos * step) =
        iterations step lastIndex pos - iterations step mid pos := by
      rw [iterations, hrest, Nat.ceil_sub_natCast]
      rfl
    omega
  rw [positions_eq hstep mid pos]
  dsimp only
  rw [positions_eq hstep lastIndex pos, positions_eq hstep lastIndex, hcount, List.range_add, List.map_append, List.map_map]
  refine Prod.ext ?_ ?_
  · dsimp only
    congr 1
    apply List.map_congr_left
    intro k _
    simp only [Function.comp_apply, Nat.cast_add]
    ring
  · simp only [Nat.cast_add]
    ring

/-- Counting positions from another sample shifts them. -/
theorem positions_sub (hstep : 0 < step) (shift : ℚ) :
    positions step (lastIndex - shift) (pos - shift) =
      ((positions step lastIndex pos).1.map (· - shift), (positions step lastIndex pos).2 - shift) := by
  have hcount : iterations step (lastIndex - shift) (pos - shift) = iterations step lastIndex pos := by
    unfold iterations
    congr 2
    ring
  rw [positions_eq hstep, positions_eq hstep, hcount, List.map_map]
  refine Prod.ext ?_ ?_
  · dsimp only
    apply List.map_congr_left
    intro k _
    simp only [Function.comp_apply]
    ring
  · dsimp only
    ring

end Positions

/-! ## Linear interpolation -/

section Lerp

/-- The value at `pos`, between the samples on either side of it. -/
def lerp (samples : List ℚ) (pos : ℚ) : ℚ :=
  let i := ⌊pos⌋.toNat
  samples.getD i 0 + (samples.getD (i + 1) 0 - samples.getD i 0) * (pos - i)

variable {samples : List ℚ} {pos : ℚ}

/-- The index of a position, and the next one, are those of two samples. -/
theorem floor_lt (samples : List ℚ) (h0 : 0 ≤ pos) (h : pos < (samples.length : ℚ) - 1) :
    ⌊pos⌋.toNat + 1 < samples.length ∧ (⌊pos⌋.toNat : ℚ) ≤ pos ∧ pos - ⌊pos⌋.toNat ≤ 1 := by
  have hfloor : ((⌊pos⌋.toNat : ℤ) : ℚ) = ⌊pos⌋ := by
    rw [Int.toNat_of_nonneg (Int.floor_nonneg.mpr h0)]
  have hcast : ((⌊pos⌋.toNat : ℕ) : ℚ) = ⌊pos⌋ := by exact_mod_cast hfloor
  have hle := Int.floor_le pos
  have hlt := Int.lt_floor_add_one pos
  refine ⟨?_, by rw [hcast]; exact hle, by rw [hcast]; linarith⟩
  have hnat : ((⌊pos⌋.toNat + 1 : ℕ) : ℚ) < samples.length := by
    push_cast
    rw [hcast]
    linarith
  exact_mod_cast hnat

theorem lerp_append_left (more : List ℚ) (h0 : 0 ≤ pos) (h : pos < (samples.length : ℚ) - 1) :
    lerp (samples ++ more) pos = lerp samples pos := by
  obtain ⟨hlt, -, -⟩ := floor_lt samples h0 h
  have hget : ∀ i < samples.length, (samples ++ more).getD i 0 = samples.getD i 0 := by
    intro i hi
    rw [List.getD_eq_getElem?_getD, List.getD_eq_getElem?_getD, List.getElem?_append_left hi]
  unfold lerp
  dsimp only
  rw [hget _ hlt, hget _ (by omega)]

/-- Positions can be counted from any sample before them. -/
theorem lerp_drop (samples : List ℚ) (n : ℕ) (h : (n : ℚ) ≤ pos) : lerp (samples.drop n) (pos - n) = lerp samples pos := by
  have h0 : (0 : ℚ) ≤ n := Nat.cast_nonneg n
  have hindex : ⌊pos - n⌋.toNat + n = ⌊pos⌋.toNat := by
    rw [Int.floor_sub_natCast]
    have hfloor : (n : ℤ) ≤ ⌊pos⌋ := Int.le_floor.mpr (by exact_mod_cast h)
    omega
  have hget : ∀ i, (samples.drop n).getD i 0 = samples.getD (i + n) 0 := by
    intro i
    rw [List.getD_eq_getElem?_getD, List.getD_eq_getElem?_getD, List.getElem?_drop, Nat.add_comm]
  have hfrac : pos - n - ⌊pos - n⌋.toNat = pos - ⌊pos⌋.toNat := by
    rw [← hindex, Nat.cast_add]
    ring
  unfold lerp
  dsimp only
  rw [hget, hget, hfrac, Nat.add_right_comm, hindex]

end Lerp

end Voxera
