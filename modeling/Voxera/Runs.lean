import Mathlib.Data.List.DropRight

/-!
# Runs in a list of flags

* `MaximalRun bs start len` : `len` flags of `bs` from `start` on are set, and the ones next to them are not;
* `onsets n bs` : for each flag, whether a counter of the set flags in a row reaches `n` with it;
* `onsets_iff` : that is where a maximal run of length at least `n` has its `n`-th flag;
* `onsets_separated` : between two such places some flag is not set.
-/

namespace Runs

structure MaximalRun (bs : List Bool) (start len : ℕ) : Prop where
  split : ∃ front back, bs = front ++ List.replicate len true ++ back ∧ front.length = start ∧
    front.getLast? ≠ some true ∧ back.head? ≠ some true

/-- `onsets`, when `r` flags in a row have been set so far. -/
def onsetsFrom (n : ℕ) : ℕ → List Bool → List Bool
  | _, [] => []
  | r, true :: bs => decide (r + 1 = n) :: onsetsFrom n (r + 1) bs
  | _, false :: bs => false :: onsetsFrom n 0 bs

def onsets (n : ℕ) (bs : List Bool) : List Bool := onsetsFrom n 0 bs

/-- The number of set flags in a row at the end. -/
def trailing (bs : List Bool) : ℕ := (bs.rtakeWhile id).length

section Trailing
variable {bs front back : List Bool} {n i j : ℕ}

@[simp] theorem trailing_nil : trailing [] = 0 := rfl

@[simp] theorem trailing_concat_true (bs : List Bool) : trailing (bs ++ [true]) = trailing bs + 1 := by
  simp [trailing]

@[simp] theorem trailing_concat_false (bs : List Bool) : trailing (bs ++ [false]) = 0 := by
  simp [trailing]

theorem trailing_append_replicate (bs : List Bool) (n : ℕ) :
    trailing (bs ++ List.replicate n true) = trailing bs + n := by
  induction n with
  | zero => simp
  | succ n ih => rw [List.replicate_succ', ← List.append_assoc, trailing_concat_true, ih, Nat.add_assoc]

theorem trailing_eq_zero (h : bs.getLast? ≠ some true) : trailing bs = 0 := by
  induction bs using List.reverseRecOn with
  | nil => rfl
  | append_singleton bs b _ =>
      cases b with
      | false => exact trailing_concat_false bs
      | true => exact absurd (List.getLast?_concat ..) h

/-- A list ends in its trailing flags. -/
theorem exists_trailing (bs : List Bool) :
    ∃ front, bs = front ++ List.replicate (trailing bs) true ∧ front.getLast? ≠ some true := by
  induction bs using List.reverseRecOn with
  | nil => exact ⟨[], rfl, by simp⟩
  | append_singleton bs b ih =>
      cases b with
      | false => exact ⟨bs ++ [false], by simp, by simp⟩
      | true =>
          obtain ⟨front, heq, hlast⟩ := ih
          refine ⟨front, ?_, hlast⟩
          rw [trailing_concat_true, List.replicate_succ', ← List.append_assoc, ← heq]

/-- A list begins with its leading flags. -/
theorem exists_leading (bs : List Bool) :
    ∃ m back, bs = List.replicate m true ++ back ∧ back.head? ≠ some true := by
  induction bs with
  | nil => exact ⟨0, [], rfl, by simp⟩
  | cons b bs ih =>
      cases b with
      | false => exact ⟨0, false :: bs, rfl, by simp⟩
      | true =>
          obtain ⟨m, back, heq, hhead⟩ := ih
          exact ⟨m + 1, back, by rw [List.replicate_succ, List.cons_append, ← heq], hhead⟩

/-! ## The counter -/

/-- A place is an onset when the flags up to it end in `n` set ones. -/
theorem onsetsFrom_getElem (hn : 1 ≤ n) (front bs : List Bool) (i : ℕ) :
    (onsetsFrom n (trailing front) bs)[i]? = some true ↔ i < bs.length ∧ trailing (front ++ bs.take (i + 1)) = n := by
  induction bs generalizing front i with
  | nil => simp [onsetsFrom]
  | cons b bs ih =>
      have hnext := ih (front ++ [b])
      simp only [List.append_assoc, List.singleton_append] at hnext
      cases b with
      | true =>
          rw [trailing_concat_true] at hnext
          cases i with
          | zero => simp [onsetsFrom]
          | succ i => simpa [onsetsFrom] using hnext i
      | false =>
          rw [trailing_concat_false] at hnext
          cases i with
          | zero =>
              simp only [onsetsFrom, List.getElem?_cons_zero, Option.some.injEq, Bool.false_eq_true, false_iff, not_and,
                List.take_succ_cons, List.take_zero, trailing_concat_false]
              omega
          | succ i => simpa [onsetsFrom] using hnext i

theorem onsets_getElem (hn : 1 ≤ n) (bs : List Bool) (i : ℕ) :
    (onsets n bs)[i]? = some true ↔ i < bs.length ∧ trailing (bs.take (i + 1)) = n := by
  simpa [onsets] using onsetsFrom_getElem hn [] bs i

/-! ## Runs -/

theorem onsets_iff (hn : 1 ≤ n) (bs : List Bool) (i : ℕ) :
    (onsets n bs)[i]? = some true ↔ ∃ start len, MaximalRun bs start len ∧ n ≤ len ∧ i + 1 = start + n := by
  rw [onsets_getElem hn]
  constructor
  · rintro ⟨hi, htrail⟩
    obtain ⟨front, hfront, hlast⟩ := exists_trailing (bs.take (i + 1))
    obtain ⟨m, back, hback, hhead⟩ := exists_leading (bs.drop (i + 1))
    rw [htrail] at hfront
    have hsplit : bs = front ++ List.replicate (n + m) true ++ back := by
      rw [List.replicate_add, ← List.append_assoc, List.append_assoc _ (List.replicate m true), ← hfront, ← hback,
        List.take_append_drop]
    refine ⟨front.length, n + m, ⟨front, back, hsplit, rfl, hlast, hhead⟩, by omega, ?_⟩
    have hlen := congrArg List.length hfront
    rw [List.length_take, List.length_append, List.length_replicate] at hlen
    omega
  · rintro ⟨start, len, ⟨front, back, rfl, rfl, hlast, -⟩, hlen, hi⟩
    obtain ⟨m, rfl⟩ := Nat.exists_eq_add_of_le hlen
    have htake : (front ++ List.replicate (n + m) true ++ back).take (i + 1) = front ++ List.replicate n true := by
      rw [List.replicate_add, ← List.append_assoc, List.append_assoc _ (List.replicate m true), List.take_append_of_le_length
        (by rw [List.length_append, List.length_replicate]; omega), List.take_of_length_le
        (by rw [List.length_append, List.length_replicate]; omega)]
    refine ⟨by simp; omega, ?_⟩
    rw [htake, trailing_append_replicate, trailing_eq_zero hlast, Nat.zero_add]

theorem onsets_separated (hn : 1 ≤ n) (bs : List Bool) (hij : i < j) (hi : (onsets n bs)[i]? = some true)
    (hj : (onsets n bs)[j]? = some true) : ∃ k, i < k ∧ k < j ∧ bs[k]? = some false := by
  rw [onsets_getElem hn] at hi hj
  by_contra hnone
  have hall : ∀ k, i < k → k < j → bs[k]? = some true := by
    intro k hik hkj
    have hk : k < bs.length := by omega
    rw [List.getElem?_eq_getElem hk]
    cases hb : bs[k] with
    | true => rfl
    | false => exact absurd ⟨k, hik, hkj, by rw [List.getElem?_eq_getElem hk, hb]⟩ hnone
  -- Without such a flag the count goes on from the first place to the second.
  have hgrow : ∀ d, i + d < j → trailing (bs.take (i + d + 1)) = n + d := by
    intro d
    induction d with
    | zero => intro _; exact hi.2
    | succ d ih =>
        intro hd
        rw [List.take_add_one, hall (i + (d + 1)) (by omega) hd, Option.toList_some, trailing_concat_true,
          ← Nat.add_assoc, ih (by omega), Nat.add_assoc]
  obtain ⟨d, rfl⟩ := Nat.exists_eq_add_of_lt hij
  have hlast := hj.2
  rw [List.take_add_one, List.getElem?_eq_getElem hj.1, Option.toList_some] at hlast
  cases hb : bs[i + d + 1] with
  | true =>
      rw [hb, trailing_concat_true, hgrow d (by omega)] at hlast
      omega
  | false =>
      rw [hb, trailing_concat_false] at hlast
      omega

end Trailing

end Runs
