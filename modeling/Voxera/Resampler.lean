import Voxera.Incremental
import Voxera.Numbers
import Voxera.Pcm16
import Voxera.Positions

/-!
# `Pcm16Resampler`: linear interpolation of a stream of samples

Positions are counted in source samples and computed in exact rational arithmetic.

* `positions` : the values of `pos` in the loop of `process`;
* `Pcm16Resampler.process` : `none` where `struct.pack` would raise;
* `Pcm16Resampler.resample` : the same without the failure, which does not occur (`process_eq_some`).
-/

namespace Voxera

open Incremental

/-- `struct.pack(f"<{len(out)}h", *out)`; `none` where it raises. -/
def pack (out : List ℤ) : Option Bytes :=
  if ∀ x ∈ out, IsInt16 x then some (out.flatMap int16Bytes) else none

/-- `int(samples[i] + (samples[i + 1] - samples[i]) * frac)` at the position `pos`. -/
def interpolate (samples : List ℤ) (pos : ℚ) : ℤ :=
  let i := (trunc pos).toNat
  let frac := pos - i
  trunc (samples.getD i 0 + (samples.getD (i + 1) 0 - samples.getD i 0) * frac)

structure Pcm16Resampler where
  step : ℚ
  same : Bool
  /-- Position of the next output sample, in source samples. -/
  pos : ℚ := 0
  /-- The last source sample of the previous chunk. -/
  last : Option ℤ := none
  /-- The byte left over from an odd-length chunk. -/
  odd : Bytes := []
  deriving DecidableEq, Repr

namespace Pcm16Resampler

/-- `__init__`; `none` where it raises. -/
def init (srcRate dstRate : ℤ) : Option Pcm16Resampler :=
  if srcRate ≤ 0 ∨ dstRate ≤ 0 then none
  else some { step := (srcRate : ℚ) / dstRate, same := srcRate = dstRate }

/-- The samples that `process` interpolates between. -/
def input (r : Pcm16Resampler) (data : Bytes) : List ℤ := r.last.toList ++ samples data

/-- The positions in the loop of `process`, and after it. -/
def visited (r : Pcm16Resampler) (data : Bytes) : List ℚ × ℚ :=
  positions r.step ((r.input data).length - 1) r.pos

/-- `out` after the loop. -/
def outputs (r : Pcm16Resampler) (data : Bytes) : List ℤ := (r.visited data).1.map (interpolate (r.input data))

/-- The state after the loop. -/
def after (r : Pcm16Resampler) (data : Bytes) : Pcm16Resampler :=
  { r with
    pos := (r.visited data).2 - ((r.input data).length - 1)
    last := (r.input data).getLast? }

/-- `process` -/
def process (r : Pcm16Resampler) (chunk : Bytes) : Option (Bytes × Pcm16Resampler) :=
  if chunk = [] then some ([], r)
  else
    let (data, odd) := splitOdd (r.odd ++ chunk)
    let r := { r with odd }
    if r.same ∨ data = [] then some (data, r)
    else (pack (r.outputs data)).map (fun out => (out, r.after data))

/-- `process` on the chunks one after the other. -/
def processAll (r : Pcm16Resampler) : List Bytes → Option (Bytes × Pcm16Resampler)
  | [] => some ([], r)
  | chunk :: chunks => do
    let (out, r) ← r.process chunk
    let (outs, r) ← processAll r chunks
    return (out ++ outs, r)

end Pcm16Resampler

/-! ## An interpolated sample -/

section Interpolate

variable {samples : List ℤ} {pos : ℚ}

theorem trunc_toNat (pos : ℚ) : (trunc pos).toNat = ⌊pos⌋.toNat := by
  by_cases h0 : 0 ≤ pos
  · rw [trunc_of_nonneg h0]
  · have hneg : pos < 0 := not_le.mp h0
    have hceil : ⌈pos⌉ ≤ 0 := Int.ceil_le.mpr (by exact_mod_cast hneg.le)
    have hfloor : ⌊pos⌋ < 0 := Int.floor_lt.mpr (by exact_mod_cast hneg)
    rw [trunc, if_neg h0]
    omega

/-- What is rounded is the value that the stream has at the position. -/
theorem interpolate_eq (samples : List ℤ) (pos : ℚ) : interpolate samples pos = trunc (lerp (samples.map Int.cast) pos) := by
  have hget : ∀ i, (samples.map (Int.cast : ℤ → ℚ)).getD i 0 = samples.getD i 0 := by
    intro i
    rw [List.getD_eq_getElem?_getD, List.getD_eq_getElem?_getD, List.getElem?_map]
    cases samples[i]? with
    | none => exact Int.cast_zero.symm
    | some x => rfl
  unfold interpolate lerp
  dsimp only
  rw [hget, hget, trunc_toNat]

theorem interpolate_between (h0 : 0 ≤ pos) (h : pos < (samples.length : ℚ) - 1) :
    ∃ a b, samples[(trunc pos).toNat]? = some a ∧ samples[(trunc pos).toNat + 1]? = some b ∧
      min a b ≤ interpolate samples pos ∧ interpolate samples pos ≤ max a b := by
  have hindex := floor_lt (samples.map Int.cast) h0 (by rwa [List.length_map])
  rw [List.length_map, ← trunc_of_nonneg h0] at hindex
  obtain ⟨hlt, hle, hfrac⟩ := hindex
  refine ⟨samples[(trunc pos).toNat], samples[(trunc pos).toNat + 1], List.getElem?_eq_getElem _,
    List.getElem?_eq_getElem _, ?_⟩
  unfold interpolate
  dsimp only
  rw [List.getD_eq_getElem?_getD, List.getD_eq_getElem?_getD, List.getElem?_eq_getElem hlt,
    List.getElem?_eq_getElem (show (trunc pos).toNat < samples.length by omega), Option.getD_some, Option.getD_some]
  generalize samples[(trunc pos).toNat] = a
  generalize samples[(trunc pos).toNat + 1] = b
  have hfrac0 : 0 ≤ pos - (trunc pos).toNat := by linarith
  generalize pos - (trunc pos).toNat = frac at hfrac hfrac0
  apply trunc_between
  · rcases le_total a b with hab | hab
    · rw [min_eq_left hab]
      have hq : (a : ℚ) ≤ b := by exact_mod_cast hab
      nlinarith
    · rw [min_eq_right hab]
      have hq : (b : ℚ) ≤ a := by exact_mod_cast hab
      nlinarith
  · rcases le_total a b with hab | hab
    · rw [max_eq_right hab]
      have hq : (a : ℚ) ≤ b := by exact_mod_cast hab
      nlinarith
    · rw [max_eq_left hab]
      have hq : (b : ℚ) ≤ a := by exact_mod_cast hab
      nlinarith

theorem interpolate_append_left (more : List ℤ) (h0 : 0 ≤ pos) (h : pos < (samples.length : ℚ) - 1) :
    interpolate (samples ++ more) pos = interpolate samples pos := by
  rw [interpolate_eq, interpolate_eq, List.map_append, lerp_append_left _ h0 (by rwa [List.length_map])]

/-- Positions can be counted from any sample before them. -/
theorem interpolate_drop (n : ℕ) (h : (n : ℚ) ≤ pos) : interpolate (samples.drop n) (pos - n) = interpolate samples pos := by
  rw [interpolate_eq, interpolate_eq, List.map_drop, lerp_drop _ n h]

end Interpolate

/-! ## A chunk, and two chunks -/

namespace Pcm16Resampler

/-- The states that `process` is called in. -/
structure WellFormed (r : Pcm16Resampler) : Prop where
  step : 0 < r.step
  pos : 0 ≤ r.pos
  last : ∀ x ∈ r.last, IsInt16 x
  odd : r.odd.length ≤ 1

/-- `process` without the failure of `struct.pack`. -/
def resample (r : Pcm16Resampler) (chunk : Bytes) : Bytes × Pcm16Resampler :=
  if chunk = [] then ([], r)
  else
    let (data, odd) := splitOdd (r.odd ++ chunk)
    let r := { r with odd }
    if r.same ∨ data = [] then (data, r) else ((r.outputs data).flatMap int16Bytes, r.after data)

variable {r : Pcm16Resampler} {data : Bytes}

theorem WellFormed.withOdd (h : r.WellFormed) {odd : Bytes} (hodd : odd.length ≤ 1) :
    ({ r with odd } : Pcm16Resampler).WellFormed := ⟨h.step, h.pos, h.last, hodd⟩

theorem WellFormed.input (h : r.WellFormed) {x : ℤ} (hx : x ∈ r.input data) : IsInt16 x := by
  rcases List.mem_append.mp hx with hx | hx
  · exact h.last x (Option.mem_toList.mp hx)
  · exact isInt16_of_mem_samples hx

/-- Every output sample lies between the two source samples that it interpolates. -/
theorem WellFormed.between (h : r.WellFormed) {p : ℚ} (hp : p ∈ (r.visited data).1) :
    ∃ a b, (r.input data)[(trunc p).toNat]? = some a ∧ (r.input data)[(trunc p).toNat + 1]? = some b ∧
      min a b ≤ interpolate (r.input data) p ∧ interpolate (r.input data) p ≤ max a b := by
  obtain ⟨hle, hlt⟩ := mem_positions h.step hp
  exact interpolate_between (h.pos.trans hle) hlt

theorem WellFormed.outputs (h : r.WellFormed) {x : ℤ} (hx : x ∈ r.outputs data) : IsInt16 x := by
  obtain ⟨p, hp, rfl⟩ := List.mem_map.mp hx
  obtain ⟨a, b, ha, hb, hmin, hmax⟩ := h.between hp
  have hra := h.input (List.mem_of_getElem? ha)
  have hrb := h.input (List.mem_of_getElem? hb)
  unfold IsInt16 at hra hrb ⊢
  omega

theorem WellFormed.after (h : r.WellFormed) (data : Bytes) : (r.after data).WellFormed where
  step := h.step
  pos := by
    show 0 ≤ (r.visited data).2 - (((r.input data).length : ℚ) - 1)
    have hle : ((r.input data).length : ℚ) - 1 ≤ (r.visited data).2 := le_positions h.step
    linarith
  last x hx := h.input (List.mem_of_getLast? hx)
  odd := h.odd

theorem input_append (heven : data.length % 2 = 0) (more : Bytes) :
    r.input (data ++ more) = r.input data ++ samples more := by
  rw [input, samples_append heven, ← List.append_assoc]
  rfl

/-- The last sample is kept, so the next chunk starts from it. -/
theorem input_after (hne : r.input data ≠ []) (more : Bytes) :
    (r.after data).input more = (r.input data ++ samples more).drop ((r.input data).length - 1) := by
  rw [List.drop_append_of_le_length (Nat.sub_le _ _), List.drop_length_sub_one hne]
  show (r.input data).getLast?.toList ++ samples more = _
  rw [List.getLast?_eq_some_getLast hne]
  rfl

theorem input_ne_nil (heven : data.length % 2 = 0) (hne : data ≠ []) : r.input data ≠ [] :=
  List.append_ne_nil_of_right_ne_nil _ (samples_ne_nil heven hne)

/-- The positions in two chunks joined are those in the first, and those in the second counted from its first sample. -/
theorem visited_append (h : r.WellFormed) (heven : data.length % 2 = 0) (hne : data ≠ []) (more : Bytes) :
    (r.visited (data ++ more)).1 = (r.visited data).1 ++
        ((r.after data).visited more).1.map (· + (((r.input data).length - 1 : ℕ) : ℚ)) ∧
      (r.visited (data ++ more)).2 = ((r.after data).visited more).2 + (((r.input data).length - 1 : ℕ) : ℚ) := by
  have hlength : 1 ≤ (r.input data).length := List.length_pos_iff.mpr (input_ne_nil heven hne)
  have hmid : ((r.input data).length : ℚ) - 1 = (((r.input data).length - 1 : ℕ) : ℚ) := by
    rw [Nat.cast_sub hlength, Nat.cast_one]
  have hle : ((r.input data).length : ℚ) - 1 ≤ ((r.input (data ++ more)).length : ℚ) - 1 := by
    rw [input_append heven, List.length_append, Nat.cast_add]
    have hnonneg : (0 : ℚ) ≤ (samples more).length := Nat.cast_nonneg _
    linarith
  have hcount : (((r.after data).input more).length : ℚ) - 1 =
      (((r.input (data ++ more)).length : ℚ) - 1) - (((r.input data).length : ℚ) - 1) := by
    rw [input_after (input_ne_nil heven hne), ← input_append heven, List.length_drop, Nat.cast_sub, ← hmid]
    · ring
    · rw [input_append heven, List.length_append]
      omega
  have hsecond : (r.after data).visited more =
      ((positions r.step (((r.input (data ++ more)).length : ℚ) - 1) (r.visited data).2).1.map
        (· - (((r.input data).length : ℚ) - 1)),
      (positions r.step (((r.input (data ++ more)).length : ℚ) - 1) (r.visited data).2).2 -
        (((r.input data).length : ℚ) - 1)) := by
    rw [visited, hcount]
    exact positions_sub h.step _
  have hboth : r.visited (data ++ more) = ((r.visited data).1 ++
        (positions r.step (((r.input (data ++ more)).length : ℚ) - 1) (r.visited data).2).1,
      (positions r.step (((r.input (data ++ more)).length : ℚ) - 1) (r.visited data).2).2) := positions_append h.step hle
  rw [hsecond, hboth, ← hmid, List.map_map]
  refine ⟨?_, ?_⟩
  · have hback := List.map_id'' (fun p : ℚ => sub_add_cancel p (((r.input data).length : ℚ) - 1))
    exact congrArg _ (hback _).symm
  · exact (sub_add_cancel _ _).symm

theorem outputs_append (h : r.WellFormed) (heven : data.length % 2 = 0) (hne : data ≠ []) (more : Bytes) :
    r.outputs (data ++ more) = r.outputs data ++ (r.after data).outputs more := by
  have hinput := input_ne_nil (r := r) heven hne
  unfold outputs
  rw [(visited_append h heven hne more).1, List.map_append, List.map_map, input_append heven]
  congr 1
  · apply List.map_congr_left
    intro p hp
    obtain ⟨hle, hlt⟩ := mem_positions h.step hp
    exact interpolate_append_left _ (h.pos.trans hle) hlt
  · apply List.map_congr_left
    intro p hp
    obtain ⟨hle, -⟩ := mem_positions (h.after data).step hp
    have h0 : 0 ≤ p := (h.after data).pos.trans hle
    have hdrop : interpolate ((r.input data ++ samples more).drop ((r.input data).length - 1))
        (p + (((r.input data).length - 1 : ℕ) : ℚ) - (((r.input data).length - 1 : ℕ) : ℚ)) = _ :=
      interpolate_drop ((r.input data).length - 1) (by linarith)
    rw [Function.comp_apply, input_after hinput, ← hdrop, add_sub_cancel_right]

theorem after_append (h : r.WellFormed) (heven : data.length % 2 = 0) (hne : data ≠ []) (more : Bytes) :
    r.after (data ++ more) = (r.after data).after more := by
  have hinput := input_ne_nil (r := r) heven hne
  have hlength : 1 ≤ (r.input data).length := List.length_pos_iff.mpr hinput
  have hlast : (r.input (data ++ more)).getLast? = ((r.after data).input more).getLast? := by
    rw [input_after hinput, input_append heven, List.getLast?_drop, if_neg]
    rw [List.length_append]
    omega
  have hpos : (r.visited (data ++ more)).2 - (((r.input (data ++ more)).length : ℚ) - 1) =
      ((r.after data).visited more).2 - ((((r.after data).input more).length : ℚ) - 1) := by
    have hle : (r.input data).length - 1 ≤ (r.input (data ++ more)).length := by
      rw [input_append heven, List.length_append]
      omega
    rw [(visited_append h heven hne more).2, input_after hinput, ← input_append heven, List.length_drop,
      Nat.cast_sub hle]
    ring
  show ({ r with pos := _, last := _ } : Pcm16Resampler) = { r with pos := _, last := _ }
  rw [hlast, hpos]

/-- `struct.pack` never fails. -/
theorem process_eq_some (h : r.WellFormed) (chunk : Bytes) : r.process chunk = some (r.resample chunk) := by
  unfold process resample
  split
  · rfl
  obtain ⟨-, -, hodd⟩ := splitOdd_spec (r.odd ++ chunk)
  have hwell := h.withOdd hodd
  dsimp only
  split
  · rfl
  · have hrange : ∀ x ∈ ({ r with odd := (splitOdd (r.odd ++ chunk)).2 } : Pcm16Resampler).outputs
        (splitOdd (r.odd ++ chunk)).1, IsInt16 x := fun x hx => hwell.outputs hx
    rw [pack, if_pos hrange]
    rfl

theorem WellFormed.resample (h : r.WellFormed) (chunk : Bytes) : (r.resample chunk).2.WellFormed := by
  obtain ⟨-, -, hodd⟩ := splitOdd_spec (r.odd ++ chunk)
  have hwell := h.withOdd hodd
  unfold Pcm16Resampler.resample
  split
  · exact h
  dsimp only
  split
  · exact hwell
  · exact hwell.after _

/-- What `process` does to the whole samples of its input. -/
def convert (r : Pcm16Resampler) (data : Bytes) : Bytes × Pcm16Resampler :=
  if r.same ∨ data = [] then (data, r) else ((r.outputs data).flatMap int16Bytes, r.after data)

theorem resample_eq (r : Pcm16Resampler) {chunk : Bytes} (hne : chunk ≠ []) :
    r.resample chunk =
      ({ r with odd := (splitOdd (r.odd ++ chunk)).2 } : Pcm16Resampler).convert (splitOdd (r.odd ++ chunk)).1 :=
  if_neg hne

/-- The left over byte takes no part in the conversion. -/
theorem convert_withOdd (r : Pcm16Resampler) (odd data : Bytes) :
    ({ r with odd } : Pcm16Resampler).convert data =
      ((r.convert data).1, { (r.convert data).2 with odd }) := by
  unfold convert
  by_cases hskip : r.same ∨ data = []
  · rw [if_pos hskip, if_pos hskip]
  · rw [if_neg hskip, if_neg hskip]
    rfl

theorem convert_append (h : r.WellFormed) (heven : data.length % 2 = 0) (more : Bytes) :
    r.convert (data ++ more) =
      ((r.convert data).1 ++ ((r.convert data).2.convert more).1, ((r.convert data).2.convert more).2) := by
  by_cases hsame : r.same
  · simp only [convert, hsame, true_or, if_true]
  by_cases hdata : data = []
  · subst hdata
    simp only [convert, or_true, if_true, List.nil_append]
  by_cases hmore : more = []
  · subst hmore
    simp only [convert, or_true, if_true, List.append_nil]
  have hfirst : r.convert data = ((r.outputs data).flatMap int16Bytes, r.after data) := if_neg (by simp [hsame, hdata])
  have hsecond : (r.after data).convert more =
      (((r.after data).outputs more).flatMap int16Bytes, (r.after data).after more) :=
    if_neg (by simp [Pcm16Resampler.after, hsame, hmore])
  have hboth : r.convert (data ++ more) = ((r.outputs (data ++ more)).flatMap int16Bytes, r.after (data ++ more)) :=
    if_neg (by simp [hsame, hdata])
  rw [hboth, hfirst, outputs_append h heven hdata, after_append h heven hdata, List.flatMap_append]
  show _ = (_ ++ ((r.after data).convert more).1, ((r.after data).convert more).2)
  rw [hsecond]

theorem resample_additive : Additive WellFormed resample where
  nil _ := if_pos rfl
  keeps chunk h := h.resample chunk
  append {r} x y h := by
    by_cases hx : x = []
    · subst hx
      have hnil : r.resample [] = ([], r) := if_pos rfl
      rw [hnil]
      rfl
    by_cases hy : y = []
    · subst hy
      have hnil : (r.resample x).2.resample [] = ([], (r.resample x).2) := if_pos rfl
      rw [hnil, List.append_nil, List.append_nil]
    obtain ⟨-, heven, -⟩ := splitOdd_spec (r.odd ++ x)
    have hsplit := splitOdd_append (r.odd ++ x) y
    generalize hdata : (splitOdd (r.odd ++ x)).1 = data at heven hsplit
    generalize hodd : (splitOdd (r.odd ++ x)).2 = odd at hsplit
    generalize hmore : splitOdd (odd ++ y) = more at hsplit
    have hfirst : r.resample x = ((r.convert data).1, { (r.convert data).2 with odd }) := by
      rw [resample_eq r hx, hdata, hodd]
      exact convert_withOdd r odd data
    have hsecond : (r.resample x).2.resample y =
        (((r.convert data).2.convert more.1).1, { ((r.convert data).2.convert more.1).2 with odd := more.2 }) := by
      rw [resample_eq _ hy, hfirst, hmore]
      exact convert_withOdd (r.convert data).2 more.2 more.1
    have hboth : r.resample (x ++ y) = ((r.convert (data ++ more.1)).1, { (r.convert (data ++ more.1)).2 with odd := more.2 }) := by
      rw [resample_eq r (List.append_ne_nil_of_left_ne_nil hx y), ← List.append_assoc, hsplit]
      exact convert_withOdd r more.2 (data ++ more.1)
    rw [hboth, hsecond, hfirst, convert_append h heven]

/-! ## The whole stream -/

/-- The samples `ys` that a fresh resampler makes of the samples `xs` : the same ones at the same rate, otherwise one for
each of the positions `0, step, 2 * step, ...` before the last sample, between the two neighbours of the position. -/
structure Resampled (srcRate dstRate : ℤ) (xs ys : List ℤ) : Prop where
  same : srcRate = dstRate → ys = xs
  count : srcRate ≠ dstRate → ∀ k : ℕ, k < ys.length ↔ k * ((srcRate : ℚ) / dstRate) < (xs.length : ℚ) - 1
  between : srcRate ≠ dstRate → ∀ (k : ℕ) y, ys[k]? = some y → ∃ a b,
    xs[(trunc (k * ((srcRate : ℚ) / dstRate))).toNat]? = some a ∧
    xs[(trunc (k * ((srcRate : ℚ) / dstRate))).toNat + 1]? = some b ∧
    y = interpolate xs (k * ((srcRate : ℚ) / dstRate)) ∧ min a b ≤ y ∧ y ≤ max a b

/-- The resampler before its first chunk. -/
def fresh (srcRate dstRate : ℤ) : Pcm16Resampler := { step := (srcRate : ℚ) / dstRate, same := srcRate = dstRate }

/-- The samples that a fresh resampler makes of a string. -/
def freshOutputs (srcRate dstRate : ℤ) (data : Bytes) : List ℤ :=
  if srcRate = dstRate then samples data else (fresh srcRate dstRate).outputs data

section Fresh

variable {srcRate dstRate : ℤ}

theorem init_eq (hsrc : 0 < srcRate) (hdst : 0 < dstRate) : init srcRate dstRate = some (fresh srcRate dstRate) :=
  if_neg (by omega)

theorem step_pos (hsrc : 0 < srcRate) (hdst : 0 < dstRate) : (0 : ℚ) < (srcRate : ℚ) / dstRate := by
  positivity

theorem fresh_wellFormed (hsrc : 0 < srcRate) (hdst : 0 < dstRate) : (fresh srcRate dstRate).WellFormed where
  step := step_pos hsrc hdst
  pos := le_refl _
  last x hx := by cases hx
  odd := Nat.zero_le _

theorem fresh_outputs (hsrc : 0 < srcRate) (hdst : 0 < dstRate) (data : Bytes) :
    (fresh srcRate dstRate).outputs data =
      (List.range (iterations ((srcRate : ℚ) / dstRate) ((samples data).length - 1) 0)).map
        (fun k : ℕ => interpolate (samples data) (k * ((srcRate : ℚ) / dstRate))) := by
  have hinput : (fresh srcRate dstRate).input data = samples data := rfl
  have hvisited : ((fresh srcRate dstRate).visited data).1 =
      (List.range (iterations ((srcRate : ℚ) / dstRate) ((samples data).length - 1) 0)).map
        (fun k : ℕ => 0 + k * ((srcRate : ℚ) / dstRate)) :=
    congrArg Prod.fst (positions_eq (step_pos hsrc hdst) _ 0)
  rw [outputs, hinput, hvisited, List.map_map]
  apply List.map_congr_left
  intro k _
  rw [Function.comp_apply, zero_add]

/-- Of fewer than two samples nothing is made. -/
theorem fresh_outputs_nil (hsrc : 0 < srcRate) (hdst : 0 < dstRate) : (fresh srcRate dstRate).outputs [] = [] := by
  have hzero : iterations ((srcRate : ℚ) / dstRate) (((samples []).length : ℚ) - 1) 0 = 0 := by
    by_contra hne
    have hlt := (lt_iterations_iff (step_pos hsrc hdst)).mp (Nat.pos_of_ne_zero hne)
    simp [samples] at hlt
    linarith
  rw [fresh_outputs hsrc hdst, hzero]
  rfl

theorem fresh_resample (hsrc : 0 < srcRate) (hdst : 0 < dstRate) (chunk : Bytes) :
    ((fresh srcRate dstRate).resample chunk).1 = (freshOutputs srcRate dstRate chunk).flatMap int16Bytes := by
  obtain ⟨-, heven, -⟩ := splitOdd_spec chunk
  have hwhole := samples_splitOdd chunk
  have houtputs : (fresh srcRate dstRate).outputs (splitOdd chunk).1 = (fresh srcRate dstRate).outputs chunk := by
    rw [fresh_outputs hsrc hdst, fresh_outputs hsrc hdst, hwhole]
  by_cases hchunk : chunk = []
  · subst hchunk
    unfold freshOutputs
    rw [fresh_outputs_nil hsrc hdst]
    simp [resample, samples]
  rw [resample_eq _ hchunk]
  have hodd : (fresh srcRate dstRate).odd ++ chunk = chunk := rfl
  rw [hodd, convert_withOdd]
  show ((fresh srcRate dstRate).convert (splitOdd chunk).1).1 = _
  unfold freshOutputs convert
  by_cases hsame : srcRate = dstRate
  · rw [if_pos (Or.inl (by simp [fresh, hsame])), if_pos hsame, ← hwhole, flatMap_samples heven]
  · rw [if_neg hsame]
    by_cases hdata : (splitOdd chunk).1 = []
    · rw [if_pos (Or.inr hdata), ← houtputs, hdata, fresh_outputs_nil hsrc hdst]
      rfl
    · rw [if_neg (by simp [fresh, hsame, hdata]), houtputs]

theorem freshOutputs_resampled (hsrc : 0 < srcRate) (hdst : 0 < dstRate) (data : Bytes) :
    Resampled srcRate dstRate (samples data) (freshOutputs srcRate dstRate data) where
  same hsame := if_pos hsame
  count hne k := by
    rw [freshOutputs, if_neg hne, fresh_outputs hsrc hdst, List.length_map, List.length_range,
      lt_iterations_iff (step_pos hsrc hdst), zero_add]
  between hne k y hy := by
    rw [freshOutputs, if_neg hne, fresh_outputs hsrc hdst, List.getElem?_map] at hy
    obtain ⟨k', hk', rfl⟩ := Option.map_eq_some_iff.mp hy
    obtain ⟨hlt, rfl⟩ := List.getElem?_eq_some_iff.mp hk'
    rw [List.getElem_range]
    rw [List.length_range, lt_iterations_iff (step_pos hsrc hdst), zero_add] at hlt
    obtain ⟨a, b, ha, hb, hmin, hmax⟩ := @interpolate_between (samples data) _ (by positivity) hlt
    exact ⟨a, b, ha, hb, rfl, hmin, hmax⟩

theorem freshOutputs_isInt16 (hsrc : 0 < srcRate) (hdst : 0 < dstRate) (data : Bytes) :
    ∀ y ∈ freshOutputs srcRate dstRate data, IsInt16 y := by
  intro y hy
  unfold freshOutputs at hy
  split at hy
  · exact isInt16_of_mem_samples hy
  · exact (fresh_wellFormed hsrc hdst).outputs hy

end Fresh

theorem processAll_eq (h : r.WellFormed) (chunks : List Bytes) :
    r.processAll chunks = some (runAll resample r chunks) := by
  induction chunks generalizing r with
  | nil => rfl
  | cons chunk chunks ih =>
      rw [processAll, process_eq_some h, Option.bind_eq_bind, Option.bind_some]
      dsimp only
      rw [ih (h.resample chunk)]
      rfl

/-- However a stream is cut, nothing raises, and the resampler gives the audio that it gives for the whole and ends in the
same state; the audio is the bytes of samples that lie between the neighbouring samples of the stream, each of them a
valid one. -/
theorem init_processAll {srcRate dstRate : ℤ} (hsrc : 0 < srcRate) (hdst : 0 < dstRate) :
    ∃ r, init srcRate dstRate = some r ∧ ∀ chunks : List Bytes, ∃ out r', r.processAll chunks = some (out, r') ∧
      r.process chunks.flatten = some (out, r') ∧
      ∃ ys : List ℤ, out = ys.flatMap int16Bytes ∧ (∀ y ∈ ys, IsInt16 y) ∧
        Resampled srcRate dstRate (samples chunks.flatten) ys := by
  refine ⟨_, init_eq hsrc hdst, ?_⟩
  intro chunks
  have h := fresh_wellFormed hsrc hdst
  refine ⟨_, _, processAll_eq h chunks, ?_, freshOutputs srcRate dstRate chunks.flatten, ?_, ?_, ?_⟩
  · rw [process_eq_some h, resample_additive.runAll_eq h]
  · rw [resample_additive.runAll_eq h]
    exact fresh_resample hsrc hdst _
  · exact freshOutputs_isInt16 hsrc hdst _
  · exact freshOutputs_resampled hsrc hdst _

/-- From 24 kHz to 16 kHz, with three samples that are cut between their bytes: two samples come out. -/
theorem init_processAll_cut : 0 < (24000 : ℤ) ∧ 0 < (16000 : ℤ) ∧ ∃ r, init 24000 16000 = some r ∧
    r.processAll [[0], [1, 0], [], [2, 0, 3]] = r.process [0, 1, 0, 2, 0, 3] ∧
    ∃ out r', r.process [0, 1, 0, 2, 0, 3] = some (out, r') ∧ ∃ ys : List ℤ, out = ys.flatMap int16Bytes ∧
      (∀ k, k < ys.length ↔ (k : ℚ) * ((24000 : ℤ) / (16000 : ℤ)) < 2) := by
  obtain ⟨r, hr, hcut⟩ := init_processAll (show (0 : ℤ) < 24000 by decide) (show (0 : ℤ) < 16000 by decide)
  obtain ⟨out, r', hchunks, hwhole, ys, hout, -, hys⟩ := hcut [[0], [1, 0], [], [2, 0, 3]]
  refine ⟨by decide, by decide, r, hr, hchunks.trans hwhole.symm, out, r', hwhole, ys, hout, ?_⟩
  intro k
  rw [hys.count (by decide) k]
  simp [samples]
  norm_num

end Pcm16Resampler

end Voxera
