import Mathlib.Data.Rat.Floor

/-!
# Numbers as the source rounds them

`trunc` is `int` on a `float`, whose values are rational numbers; `orDefault` fills in for a missing number or zero.
-/

namespace Voxera

/-- `int(x)` : rounds towards zero. -/
def trunc (x : ℚ) : ℤ := if 0 ≤ x then ⌊x⌋ else ⌈x⌉

/-- `value || default` on a number. -/
def orDefault {α : Type*} [Zero α] [DecidableEq α] (value : Option α) (default : α) : α :=
  match value with
  | some x => if x = 0 then default else x
  | none => default

theorem trunc_of_nonneg {x : ℚ} (h : 0 ≤ x) : trunc x = ⌊x⌋ := if_pos h

/-- Rounding towards zero does not leave an interval between two integers. -/
theorem trunc_between {a b : ℤ} {x : ℚ} (ha : a ≤ x) (hb : x ≤ b) : a ≤ trunc x ∧ trunc x ≤ b := by
  unfold trunc
  split
  · exact ⟨Int.le_floor.mpr ha, by exact_mod_cast (Int.floor_le x).trans hb⟩
  · exact ⟨by exact_mod_cast ha.trans (Int.le_ceil x), Int.ceil_le.mpr hb⟩

/-- An integer bounds a rational number from above when it bounds what `int` makes of it, but only
where the number is whole. -/
theorem le_trunc_iff {x : ℚ} (h : 0 ≤ x) : x ≤ trunc x ↔ ∃ n : ℤ, x = n := by
  rw [trunc_of_nonneg h]
  constructor
  · intro hx
    exact ⟨⌊x⌋, le_antisymm hx (Int.floor_le x)⟩
  · rintro ⟨n, rfl⟩
    rw [Int.floor_intCast]

end Voxera
