import Voxera.Vad
import Mathlib.Data.List.Basic
import Mathlib.Tactic.Linarith

/-!
# PCM16 samples and their bytes

* `int16Bytes`, `samples` : the two directions (`samples_flatMap`);
* `splitOdd` : the whole samples of the data, and the byte left over; `splitOdd_append` joins two pieces of a stream.
-/

namespace Voxera

/-- The values a PCM16 sample can have. -/
def IsInt16 (x : ℤ) : Prop := -32768 ≤ x ∧ x ≤ 32767

instance (x : ℤ) : Decidable (IsInt16 x) := inferInstanceAs (Decidable (_ ∧ _))

/-- The two bytes of a sample, the low one first. -/
def int16Bytes (x : ℤ) : Bytes := [UInt8.ofNat (x % 65536).toNat, UInt8.ofNat ((x % 65536).toNat / 256)]

/-- The whole samples of the data, and the byte left over. -/
def splitOdd (data : Bytes) : Bytes × Bytes :=
  if data.length % 2 = 1 then (data.dropLast, data.drop (data.length - 1)) else (data, [])

theorem isInt16_int16 (lo hi : UInt8) : IsInt16 (int16 lo hi) := by
  have hlo := lo.toNat_lt
  have hhi := hi.toNat_lt
  unfold IsInt16 int16
  dsimp only
  split <;> omega

theorem isInt16_of_mem_samples {data : Bytes} {x : ℤ} (h : x ∈ samples data) : IsInt16 x := by
  induction data using samples.induct with
  | case1 lo hi rest ih =>
      rw [samples, List.mem_cons] at h
      rcases h with heq | h
      · rw [heq]
        exact isInt16_int16 lo hi
      · exact ih h
  | case2 data hshort =>
      match data with
      | [] => exact absurd h List.not_mem_nil
      | [_] => exact absurd h List.not_mem_nil
      | lo :: hi :: rest => exact absurd rfl (hshort lo hi rest)

theorem samples_append {data : Bytes} (heven : data.length % 2 = 0) (more : Bytes) :
    samples (data ++ more) = samples data ++ samples more := by
  induction data using samples.induct with
  | case1 lo hi rest ih =>
      simp only [List.length_cons] at heven
      rw [List.cons_append, List.cons_append, samples, samples, ih (by omega), List.cons_append]
  | case2 data hshort =>
      cases data with
      | nil => rfl
      | cons lo rest =>
          cases rest with
          | nil => simp at heven
          | cons hi rest => exact absurd rfl (hshort lo hi rest)

theorem samples_ne_nil {data : Bytes} (heven : data.length % 2 = 0) (hne : data ≠ []) : samples data ≠ [] := by
  match data with
  | [] => exact absurd rfl hne
  | [_] => simp at heven
  | lo :: hi :: rest => simp [samples]

theorem splitOdd_spec (data : Bytes) :
    (splitOdd data).1 ++ (splitOdd data).2 = data ∧ (splitOdd data).1.length % 2 = 0 ∧ (splitOdd data).2.length ≤ 1 := by
  unfold splitOdd
  split
  · rename_i hodd
    refine ⟨?_, ?_, ?_⟩
    · rw [List.dropLast_eq_take, List.take_append_drop]
    · rw [List.length_dropLast]
      omega
    · rw [List.length_drop]
      omega
  · rename_i heven
    refine ⟨List.append_nil _, ?_, Nat.zero_le _⟩
    show data.length % 2 = 0
    omega

/-- There is one way to take the whole samples off. -/
theorem splitOdd_eq {whole odd : Bytes} (heven : whole.length % 2 = 0) (hodd : odd.length ≤ 1) :
    splitOdd (whole ++ odd) = (whole, odd) := by
  match odd with
  | [] => simp [splitOdd, heven]
  | [b] =>
      have hlength : (whole ++ [b]).length % 2 = 1 := by
        rw [List.length_append, List.length_singleton]
        omega
      rw [splitOdd, if_pos hlength, List.dropLast_concat]
      simp
  | _ :: _ :: _ => simp at hodd

theorem splitOdd_append (data more : Bytes) :
    splitOdd (data ++ more) = ((splitOdd data).1 ++ (splitOdd ((splitOdd data).2 ++ more)).1,
      (splitOdd ((splitOdd data).2 ++ more)).2) := by
  obtain ⟨hdata, heven, -⟩ := splitOdd_spec data
  obtain ⟨hmore, heven', hodd'⟩ := splitOdd_spec ((splitOdd data).2 ++ more)
  have hjoin : data ++ more = ((splitOdd data).1 ++ (splitOdd ((splitOdd data).2 ++ more)).1) ++
      (splitOdd ((splitOdd data).2 ++ more)).2 := by
    rw [List.append_assoc, hmore, ← List.append_assoc, hdata]
  rw [hjoin]
  apply splitOdd_eq
  · rw [List.length_append]
    omega
  · exact hodd'

theorem int16_int16Bytes {x : ℤ} (h : IsInt16 x) :
    int16 (UInt8.ofNat (x % 65536).toNat) (UInt8.ofNat ((x % 65536).toNat / 256)) = x := by
  unfold IsInt16 at h
  unfold int16
  simp only [UInt8.toNat_ofNat']
  split <;> omega

theorem samples_flatMap {xs : List ℤ} (h : ∀ x ∈ xs, IsInt16 x) : samples (xs.flatMap int16Bytes) = xs := by
  induction xs with
  | nil => rfl
  | cons x xs ih =>
      rw [List.flatMap_cons, int16Bytes, List.cons_append, List.cons_append, List.nil_append, samples,
        int16_int16Bytes (h x (by simp)), ih (fun y hy => h y (by simp [hy]))]

theorem int16Bytes_int16 (lo hi : UInt8) : int16Bytes (int16 lo hi) = [lo, hi] := by
  have hlo := lo.toNat_lt
  have hhi := hi.toNat_lt
  have hword : (int16 lo hi % 65536).toNat = lo.toNat + hi.toNat * 256 := by
    unfold int16
    dsimp only
    split <;> omega
  have hlow : UInt8.ofNat (lo.toNat + hi.toNat * 256) = lo := by
    apply UInt8.toNat_inj.mp
    rw [UInt8.toNat_ofNat']
    omega
  have hhigh : UInt8.ofNat ((lo.toNat + hi.toNat * 256) / 256) = hi := by
    apply UInt8.toNat_inj.mp
    rw [UInt8.toNat_ofNat']
    omega
  rw [int16Bytes, hword, hlow, hhigh]

theorem flatMap_samples {data : Bytes} (heven : data.length % 2 = 0) : (samples data).flatMap int16Bytes = data := by
  induction data using samples.induct with
  | case1 lo hi rest ih =>
      simp only [List.length_cons] at heven
      rw [samples, List.flatMap_cons, int16Bytes_int16, ih (by omega)]
      rfl
  | case2 data hshort =>
      match data with
      | [] => rfl
      | [_] => simp at heven
      | lo :: hi :: rest => exact absurd rfl (hshort lo hi rest)

/-- The byte left over is in no sample. -/
theorem samples_splitOdd (data : Bytes) : samples (splitOdd data).1 = samples data := by
  obtain ⟨hdata, heven, hodd⟩ := splitOdd_spec data
  have hrest : samples (splitOdd data).2 = [] := by
    match (splitOdd data).2, hodd with
    | [], _ => rfl
    | [_], _ => rfl
    | _ :: _ :: _, h => simp at h
  have happend := samples_append heven (splitOdd data).2
  rw [hdata, hrest, List.append_nil] at happend
  exact happend.symm

end Voxera
