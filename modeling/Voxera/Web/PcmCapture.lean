import Voxera.Framing
import Voxera.Numbers
import Voxera.Pcm16
import Voxera.Positions

/-!
# `PcmCaptureProcessor`: the microphone worklet

Samples and positions are exact. A read outside the block gives `undefined` and a write outside the frame raises; both
are `none` here, and neither occurs.

* `PcmCaptureProcessor.emit`, `process` : the methods; `processAll` : one render quantum after the other;
* `Capture` : what the processor stands for, a position in the stream of samples and the samples of a frame begun;
* `capture n` : what a block does to it, one processor of a stream after another (`capture_additive`);
* `Capture.processor` : the object that stands for it; `process_eq` : the methods do what `capture` says;
* `processAll_blockwise` : the frames posted do not depend on how the samples come in blocks.
-/

namespace Voxera.Web

open Incremental Framing

/-- `{ type: "frame", pcm, rms }` -/
structure FrameMessage where
  pcm : Bytes
  rms : ℚ
  deriving DecidableEq, Repr

/-- `options.processorOptions` -/
structure ProcessorOptions where
  targetSampleRate : Option ℚ := none
  frameSamples : Option ℕ := none

structure PcmCaptureProcessor where
  frameSamples : ℕ
  /-- Input samples consumed for each output sample. -/
  step : ℚ
  /-- Read position in the current block; -1 is the last sample of the block before it. -/
  pos : ℚ := 0
  prev : ℚ := 0
  frame : Bytes
  filled : ℕ := 0
  sumSquares : ℚ := 0
  running : Bool := true
  deriving DecidableEq, Repr

/-- What `process` is called with: the channels of each input. -/
abbrev Inputs := List (List (List ℚ))

/-- `inputs[0] && inputs[0][0]` -/
def Inputs.first (inputs : Inputs) : Option (List ℚ) := inputs[0]?.bind (fun channels => channels[0]?)

/-- The samples that a render quantum delivers; none for a missing input. -/
def Inputs.samples (inputs : Inputs) : List ℚ := inputs.first.getD []

/-- `new DataView(new ArrayBuffer(frameSamples * 2))` -/
def newFrame (frameSamples : ℕ) : Bytes := List.replicate (frameSamples * 2) 0

/-- `setInt16(offset, value, true)`; `none` where it raises. -/
def setInt16 (frame : Bytes) (offset : ℕ) (value : ℚ) : Option Bytes :=
  if offset + 2 ≤ frame.length then some (frame.take offset ++ int16Bytes (trunc value) ++ frame.drop (offset + 2)) else none

/-- `input[i]`; `none` for `undefined`. -/
def readAt (input : List ℚ) (i : ℤ) : Option ℚ := if i < 0 then none else input[i.toNat]?

/-- `sample < -1 ? -1 : sample > 1 ? 1 : sample` -/
def clip (sample : ℚ) : ℚ := if sample < -1 then -1 else if sample > 1 then 1 else sample

/-- `s < 0 ? s * 0x8000 : s * 0x7fff` -/
def scale (s : ℚ) : ℚ := if s < 0 then s * 0x8000 else s * 0x7fff

namespace PcmCaptureProcessor

/-- The constructor, in a scope with the global `sampleRate`. -/
def init (sampleRate : ℚ) (opts : ProcessorOptions) : PcmCaptureProcessor :=
  let targetRate := orDefault opts.targetSampleRate 16000
  let frameSamples := orDefault opts.frameSamples 320
  { frameSamples, step := sampleRate / targetRate, frame := newFrame frameSamples }

/-- `port.onmessage` for `{ type: "stop" }` -/
def stop (p : PcmCaptureProcessor) : PcmCaptureProcessor := { p with running := false }

variable (sqrt : ℚ → ℚ)

/-- `emit`; the messages posted and the object after it. -/
def emit (p : PcmCaptureProcessor) (sample : ℚ) : Option (List FrameMessage × PcmCaptureProcessor) := do
  let s := clip sample
  let frame ← setInt16 p.frame (p.filled * 2) (scale s)
  let p := { p with frame, sumSquares := p.sumSquares + s * s, filled := p.filled + 1 }
  if p.filled = p.frameSamples then
    return ([{ pcm := p.frame, rms := sqrt (p.sumSquares / p.frameSamples) }],
      { p with frame := newFrame p.frameSamples, filled := 0, sumSquares := 0 })
  else return ([], p)

/-- `a + (b - a) * frac` at the read position. -/
def sampleAt (p : PcmCaptureProcessor) (input : List ℚ) : Option ℚ :=
  let i := ⌊p.pos⌋
  let frac := p.pos - i
  let a := if i < 0 then some p.prev else readAt input i
  let b := readAt input (i + 1)
  a.bind (fun a => b.map (fun b => a + (b - a) * frac))

/-- `while (this.pos < n - 1)` -/
def loop (input : List ℚ) : ℕ → PcmCaptureProcessor → Option (List FrameMessage × PcmCaptureProcessor)
  | 0, p => some ([], p)
  | fuel + 1, p =>
    if p.pos < input.length - 1 then do
      let sample ← p.sampleAt input
      let (posted, p) ← p.emit sqrt sample
      let (more, p) ← loop input fuel { p with pos := p.pos + p.step }
      return (posted ++ more, p)
    else some ([], p)

/-- `process`: whether the processor is kept alive, the messages posted and the object after it. -/
def process (p : PcmCaptureProcessor) (inputs : Inputs) : Option (Bool × List FrameMessage × PcmCaptureProcessor) :=
  if !p.running then some (false, [], p)
  else
    match inputs.first with
    | none | some [] => some (true, [], p)
    | some input => do
      let (posted, p) ← p.loop sqrt input (iterations p.step (input.length - 1) p.pos)
      let prev ← readAt input (input.length - 1)
      return (true, posted, { p with pos := p.pos - input.length, prev })

/-- The render quanta one after the other. -/
def processAll (p : PcmCaptureProcessor) : List Inputs → Option (List FrameMessage × PcmCaptureProcessor)
  | [] => some ([], p)
  | inputs :: quanta => do
    let (_, posted, p) ← p.process sqrt inputs
    let (more, p) ← processAll p quanta
    return (posted ++ more, p)

end PcmCaptureProcessor

/-! ## What the processor stands for -/

/-- A position in the stream, counted from the block that comes next, and the samples of the frame that is begun. -/
structure Reading where
  step : ℚ
  pos : ℚ
  prev : ℚ

/-- The position is that of a sample to come, or lies after the last one that has come. -/
structure Reading.Valid (r : Reading) : Prop where
  step : 0 < r.step
  pos : -1 ≤ r.pos

/-- The positions read in the block. -/
def Reading.visited (r : Reading) (input : List ℚ) : List ℚ × ℚ := positions r.step (input.length - 1) r.pos

/-- What is emitted at a position, which lies in the block with the sample before it put in front. -/
def Reading.value (r : Reading) (input : List ℚ) (pos : ℚ) : ℚ := clip (lerp (r.prev :: input) (pos + 1))

/-- The samples emitted for the block. -/
def Reading.outputs (r : Reading) (input : List ℚ) : List ℚ := (r.visited input).1.map (r.value input)

def read (r : Reading) (input : List ℚ) : List ℚ × Reading :=
  (r.outputs input, { r with pos := (r.visited input).2 - input.length, prev := input.getLastD r.prev })

/-- `n` samples and what `emit` has in the buffer for them. -/
def sampleBytes (buffer : List ℚ) : Bytes := buffer.flatMap (fun s => int16Bytes (trunc (scale s)))

def energy (buffer : List ℚ) : ℚ := (buffer.map (fun s => s * s)).sum

abbrev Capture := Reading × List ℚ

/-- A block is read, and what it gives is cut into frames of `n` samples. -/
def capture (n : ℕ) : Capture → List ℚ → List (List ℚ) × Capture := pipe read (push n)

/-- The message for the samples of a frame. -/
def frameMessage (sqrt : ℚ → ℚ) (n : ℕ) (frame : List ℚ) : FrameMessage :=
  { pcm := sampleBytes frame, rms := sqrt (energy frame / n) }

/-- A processor that has just been made. -/
def Capture.fresh (step : ℚ) : Capture := ({ step, pos := 0, prev := 0 }, [])

/-- The object that stands for it. -/
def Capture.processor (n : ℕ) (s : Capture) : PcmCaptureProcessor :=
  { frameSamples := n, step := s.1.step, pos := s.1.pos, prev := s.1.prev, frame := sampleBytes s.2 ++ newFrame (n - s.2.length),
    filled := s.2.length, sumSquares := energy s.2 }

/-- The samples of the frames posted and of the frame that is begun. -/
def emitted (posted : List FrameMessage) (p : PcmCaptureProcessor) : List ℤ :=
  samples (posted.flatMap FrameMessage.pcm ++ p.frame.take (2 * p.filled))

/-- The positions `0, step, 2 * step, ...` that lie before the last sample of the stream. -/
def IsCount (step : ℚ) (whole : List ℚ) (count : ℕ) : Prop := ∀ k : ℕ, k < count ↔ k * step < (whole.length : ℚ) - 1

/-- A block is read within its bounds, except for the sample before it, which is the last one that came. -/
def ReadsInside (p : PcmCaptureProcessor) (before input : List ℚ) : Prop :=
  ∀ pos ∈ (positions p.step (input.length - 1) p.pos).1,
    ⌊pos⌋ + 1 < input.length ∧ (0 ≤ ⌊pos⌋ ∨ ⌊pos⌋ = -1 ∧ before.getLast? = some p.prev)

/-! ## `emit` -/

section Emit

variable {sqrt : ℚ → ℚ} {n : ℕ} {buffer : List ℚ} {s : Capture}

theorem length_sampleBytes (buffer : List ℚ) : (sampleBytes buffer).length = 2 * buffer.length := by
  induction buffer with
  | nil => rfl
  | cons x buffer ih =>
      have hcons : sampleBytes (x :: buffer) = int16Bytes (trunc (scale x)) ++ sampleBytes buffer := rfl
      have htwo : (int16Bytes (trunc (scale x))).length = 2 := rfl
      rw [hcons, List.length_append, ih, htwo, List.length_cons]
      omega

theorem length_newFrame (n : ℕ) : (newFrame n).length = n * 2 := List.length_replicate

theorem sampleBytes_concat (buffer : List ℚ) (x : ℚ) :
    sampleBytes (buffer ++ [x]) = sampleBytes buffer ++ int16Bytes (trunc (scale x)) := by
  unfold sampleBytes
  rw [List.flatMap_append, List.flatMap_singleton]

theorem sampleBytes_flatten (frames : List (List ℚ)) : sampleBytes frames.flatten = frames.flatMap sampleBytes := by
  induction frames with
  | nil => rfl
  | cons frame frames ih =>
      rw [List.flatten_cons, List.flatMap_cons, ← ih]
      exact List.flatMap_append

theorem energy_concat (buffer : List ℚ) (x : ℚ) : energy (buffer ++ [x]) = energy buffer + x * x := by
  unfold energy
  rw [List.map_append, List.sum_append, List.map_singleton, List.sum_singleton]

/-- The next sample of a frame goes behind the ones written before it. -/
theorem setInt16_eq (h : buffer.length < n) (x : ℚ) :
    setInt16 (sampleBytes buffer ++ newFrame (n - buffer.length)) (buffer.length * 2) (scale x) =
      some (sampleBytes (buffer ++ [x]) ++ newFrame (n - (buffer ++ [x]).length)) := by
  have hoffset : buffer.length * 2 = (sampleBytes buffer).length := by
    rw [length_sampleBytes, Nat.mul_comm]
  have hroom : buffer.length * 2 + 2 ≤ (sampleBytes buffer ++ newFrame (n - buffer.length)).length := by
    rw [List.length_append, length_newFrame, ← hoffset]
    omega
  have hrest : newFrame (n - buffer.length) = [0, 0] ++ newFrame (n - (buffer ++ [x]).length) := by
    have hcount : (n - buffer.length) * 2 = 2 + (n - (buffer ++ [x]).length) * 2 := by
      rw [List.length_append, List.length_singleton]
      omega
    unfold newFrame
    rw [hcount, List.replicate_add]
    rfl
  have hdrop : (sampleBytes buffer ++ newFrame (n - buffer.length)).drop (buffer.length * 2 + 2) =
      newFrame (n - (buffer ++ [x]).length) := by
    rw [hoffset, List.drop_append, hrest]
    simp
  rw [setInt16, if_pos hroom, hdrop, hoffset, List.take_left, sampleBytes_concat]

/-- `emit` puts the clipped sample into the frame, and posts the frame when it is full. -/
theorem emit_eq (h : s.2.length < n) (x : ℚ) :
    (s.processor n).emit sqrt x =
      some ((push n s.2 [clip x]).1.map (frameMessage sqrt n), Capture.processor n (s.1, (push n s.2 [clip x]).2)) := by
  obtain ⟨r, buffer⟩ := s
  have hlength : (buffer ++ [clip x]).length = buffer.length + 1 := List.length_append
  have hset := setInt16_eq h (clip x)
  have henergy := energy_concat buffer (clip x)
  unfold PcmCaptureProcessor.emit Capture.processor
  dsimp only at h hset ⊢
  rw [hset, Option.bind_eq_bind, Option.bind_some]
  by_cases hfull : buffer.length + 1 = n
  · have hpush : push n buffer [clip x] = ([buffer ++ [clip x]], []) := by
      rw [push, cut_of_le (by omega) (by omega), List.take_of_length_le (by omega), List.drop_of_length_le (by omega),
        cut_of_lt (by rw [List.length_nil]; omega)]
    have hnone : newFrame (n - (buffer ++ [clip x]).length) = [] := by
      rw [hlength, hfull, Nat.sub_self]
      rfl
    rw [if_pos hfull, hpush, hnone, List.append_nil, ← henergy]
    rfl
  · have hpush : push n buffer [clip x] = ([], buffer ++ [clip x]) := cut_of_lt (by omega)
    rw [if_neg hfull, hpush, ← henergy, hlength]
    rfl

end Emit

/-! ## The loop of `process` -/

section Loop

variable {sqrt : ℚ → ℚ} {n : ℕ} {buffer input : List ℚ} {r : Reading} {p : PcmCaptureProcessor}

theorem readAt_natCast (input : List ℚ) (i : ℕ) : readAt input i = input[i]? := by
  rw [readAt, if_neg (by omega), Int.toNat_natCast]

/-- Both samples are there, the first of them in the block or remembered from the block before it. -/
theorem floor_of_lt (h0 : -1 ≤ p.pos) (h : p.pos < (input.length : ℚ) - 1) :
    -1 ≤ ⌊p.pos⌋ ∧ ⌊p.pos⌋ + 1 < input.length := by
  refine ⟨Int.le_floor.mpr (by exact_mod_cast h0), ?_⟩
  have hfloor : ⌊p.pos⌋ < (input.length : ℤ) - 1 := Int.floor_lt.mpr (by push_cast; exact h)
  omega

theorem sampleAt_eq (h0 : -1 ≤ p.pos) (h : p.pos < (input.length : ℚ) - 1) :
    p.sampleAt input = some (lerp (p.prev :: input) (p.pos + 1)) := by
  obtain ⟨hlow, hhigh⟩ := floor_of_lt h0 h
  obtain ⟨k, hk⟩ : ∃ k : ℕ, ⌊p.pos⌋ + 1 = k := ⟨(⌊p.pos⌋ + 1).toNat, (Int.toNat_of_nonneg (by omega)).symm⟩
  have hkq : ((⌊p.pos⌋ : ℤ) : ℚ) = k - 1 := by
    have hcast : ((⌊p.pos⌋ + 1 : ℤ) : ℚ) = ((k : ℤ) : ℚ) := by rw [hk]
    push_cast at hcast
    linarith
  have hindex : ⌊p.pos + 1⌋.toNat = k := by
    rw [Int.floor_add_one, hk, Int.toNat_natCast]
  have hb : input[k]? = some (input.getD k 0) := by
    rw [List.getD_eq_getElem?_getD, List.getElem?_eq_getElem (by omega), Option.getD_some]
  have ha : (if ⌊p.pos⌋ < 0 then some p.prev else readAt input ⌊p.pos⌋) = some ((p.prev :: input).getD k 0) := by
    cases k with
    | zero => rw [if_pos (by omega), List.getD_cons_zero]
    | succ k =>
        have hfloor : ⌊p.pos⌋ = k := by omega
        rw [if_neg (by omega), hfloor, readAt_natCast, List.getD_cons_succ, List.getD_eq_getElem?_getD,
          List.getElem?_eq_getElem (by omega), Option.getD_some]
  unfold PcmCaptureProcessor.sampleAt lerp
  dsimp only
  rw [ha, hk, readAt_natCast, hb, hindex, List.getD_cons_succ, hkq, Option.bind_some, Option.map_some, Option.some.injEq]
  ring

/-- The loop visits the positions and emits the value at each of them. -/
theorem loop_eq (hn : 0 < n) (hstep : 0 < r.step) (hpos : -1 ≤ r.pos) (hbuffer : buffer.length < n) (fuel : ℕ) :
    (Capture.processor n (r, buffer)).loop sqrt input fuel =
      let visited := positionsFrom r.step (input.length - 1) fuel r.pos
      let pushed := push n buffer (visited.1.map (r.value input))
      some (pushed.1.map (frameMessage sqrt n), Capture.processor n ({ r with pos := visited.2 }, pushed.2)) := by
  induction fuel generalizing r buffer with
  | zero =>
      have hnil := (push_additive hn).nil hbuffer
      simp only [PcmCaptureProcessor.loop, positionsFrom, List.map_nil, hnil]
  | succ fuel ih =>
      by_cases hlast : r.pos < (input.length : ℚ) - 1
      · have hsample : (Capture.processor n (r, buffer)).sampleAt input = some (lerp (r.prev :: input) (r.pos + 1)) :=
          sampleAt_eq hpos hlast
        have hemit : (Capture.processor n (r, buffer)).emit sqrt (lerp (r.prev :: input) (r.pos + 1)) =
            some ((push n buffer [r.value input r.pos]).1.map (frameMessage sqrt n),
              Capture.processor n (r, (push n buffer [r.value input r.pos]).2)) := emit_eq hbuffer _
        have hrest := ih (r := { r with pos := r.pos + r.step }) hstep (by dsimp only; linarith)
          ((push_additive hn).keeps [r.value input r.pos] hbuffer)
        have happend := (push_additive hn).append [r.value input r.pos]
          ((positionsFrom r.step (input.length - 1) fuel (r.pos + r.step)).1.map (r.value input)) hbuffer
        rw [List.singleton_append] at happend
        have hloop : (Capture.processor n (r, buffer)).loop sqrt input (fuel + 1) =
            ((Capture.processor n (r, buffer)).sampleAt input).bind (fun sample =>
              ((Capture.processor n (r, buffer)).emit sqrt sample).bind (fun e =>
                (({ e.2 with pos := e.2.pos + e.2.step } : PcmCaptureProcessor).loop sqrt input fuel).bind (fun m =>
                  some (e.1 ++ m.1, m.2)))) := if_pos hlast
        rw [hloop, hsample, Option.bind_some, hemit, Option.bind_some]
        dsimp only [Capture.processor] at hrest ⊢
        rw [hrest, Option.bind_some, positionsFrom, if_pos hlast]
        dsimp only
        rw [List.map_cons, happend, List.map_append]
        rfl
      · have hnil := (push_additive hn).nil hbuffer
        have hloop : (Capture.processor n (r, buffer)).loop sqrt input (fuel + 1) =
            some ([], Capture.processor n (r, buffer)) :=
          if_neg hlast
        rw [hloop, positionsFrom, if_neg hlast]
        simp only [List.map_nil, hnil]

end Loop

/-! ## Blocks -/

section Blocks

variable {sqrt : ℚ → ℚ} {n : ℕ} {r : Reading} {s : Capture} {x : List ℚ}

/-- The last sample of a block is in front of the next one. -/
theorem cons_append_drop (a : ℚ) (x y : List ℚ) : (a :: (x ++ y)).drop x.length = x.getLastD a :: y := by
  induction x generalizing a with
  | nil => rfl
  | cons b x ih => rw [List.cons_append, List.length_cons, List.drop_succ_cons, ih, List.getLastD_cons]

theorem getLastD_append (a : ℚ) (x y : List ℚ) : (x ++ y).getLastD a = y.getLastD (x.getLastD a) := by
  induction x generalizing a with
  | nil => rfl
  | cons b x ih => rw [List.cons_append, List.getLastD_cons, List.getLastD_cons, ih]

/-- The positions in two blocks are those in the first, and those in the second counted from its first sample. -/
theorem visited_append (h : r.Valid) (x y : List ℚ) :
    r.visited (x ++ y) = ((r.visited x).1 ++ ((read r x).2.visited y).1.map (· + (x.length : ℚ)),
      ((read r x).2.visited y).2 + x.length) := by
  have hmid : (x.length : ℚ) - 1 ≤ ((x ++ y).length : ℚ) - 1 := by
    rw [List.length_append, Nat.cast_add]
    have hnonneg : (0 : ℚ) ≤ y.length := Nat.cast_nonneg _
    linarith
  have hlength : (y.length : ℚ) - 1 = ((x ++ y).length : ℚ) - 1 - x.length := by
    rw [List.length_append, Nat.cast_add]
    ring
  have hsecond : (read r x).2.visited y =
      ((positions r.step (((x ++ y).length : ℚ) - 1) (r.visited x).2).1.map (· - (x.length : ℚ)),
        (positions r.step (((x ++ y).length : ℚ) - 1) (r.visited x).2).2 - x.length) := by
    rw [Reading.visited, hlength]
    exact positions_sub h.step _
  have hboth : r.visited (x ++ y) = ((r.visited x).1 ++ (positions r.step (((x ++ y).length : ℚ) - 1) (r.visited x).2).1,
      (positions r.step (((x ++ y).length : ℚ) - 1) (r.visited x).2).2) := positions_append h.step hmid
  have hback := List.map_id'' (fun p : ℚ => sub_add_cancel p (x.length : ℚ))
  rw [hboth, hsecond, List.map_map, sub_add_cancel]
  exact Prod.ext (congrArg ((r.visited x).1 ++ ·) (hback _).symm) rfl

theorem outputs_append (h : r.Valid) (x y : List ℚ) : r.outputs (x ++ y) = r.outputs x ++ (read r x).2.outputs y := by
  unfold Reading.outputs
  rw [visited_append h, List.map_append, List.map_map]
  congr 1
  · apply List.map_congr_left
    intro pos hpos
    obtain ⟨hle, hlt⟩ := mem_positions h.step hpos
    have h0 := h.pos
    have hfirst : lerp (r.prev :: x ++ y) (pos + 1) = lerp (r.prev :: x) (pos + 1) := by
      apply lerp_append_left y (by linarith)
      rw [List.length_cons, Nat.cast_succ]
      linarith
    exact congrArg clip hfirst
  · apply List.map_congr_left
    intro pos hpos
    obtain ⟨hle, -⟩ := mem_positions h.step hpos
    have hend : (x.length : ℚ) - 1 ≤ (r.visited x).2 := le_positions h.step
    have hfrom : (x.length : ℚ) ≤ pos + x.length + 1 := by
      have hpos' : (r.visited x).2 - x.length ≤ pos := hle
      linarith
    have hdrop := lerp_drop (r.prev :: (x ++ y)) x.length hfrom
    rw [cons_append_drop, add_right_comm, add_sub_cancel_right] at hdrop
    rw [Function.comp_apply, Reading.value, Reading.value, add_right_comm, ← hdrop]
    rfl

theorem Reading.Valid.read (h : r.Valid) (x : List ℚ) : (read r x).2.Valid where
  step := h.step
  pos := by
    have hend : (x.length : ℚ) - 1 ≤ (r.visited x).2 := le_positions h.step
    show -1 ≤ (r.visited x).2 - x.length
    linarith

theorem visited_nil (h : r.Valid) : r.visited [] = ([], r.pos) := by
  have h0 := h.pos
  exact positions_of_le (by simpa using h0)

theorem read_additive : Additive Reading.Valid read where
  nil {r} h := by
    show ((r.visited []).1.map (r.value []), ({ r with pos := (r.visited []).2 - ((0 : ℕ) : ℚ) } : Reading)) = ([], r)
    rw [visited_nil h, Nat.cast_zero, sub_zero]
    rfl
  keeps x h := h.read x
  append {r} x y h := by
    have hpos : (r.visited (x ++ y)).2 - ((x ++ y).length : ℚ) = ((Web.read r x).2.visited y).2 - y.length := by
      rw [visited_append h, List.length_append, Nat.cast_add]
      ring
    show (r.outputs (x ++ y), ({ r with pos := _, prev := _ } : Reading)) = _
    rw [outputs_append h, hpos, getLastD_append]
    rfl

theorem capture_additive (hn : 0 < n) : Additive (fun s : Capture => s.1.Valid ∧ s.2.length < n) (capture n) :=
  read_additive.pipe (push_additive hn)

/-- `process` reads a block and posts the frames that it fills, and does nothing without a block. -/
theorem process_eq (hn : 0 < n) (h : s.1.Valid ∧ s.2.length < n) (inputs : Inputs) :
    (s.processor n).process sqrt inputs = some (true, (capture n s inputs.samples).1.map (frameMessage sqrt n),
      Capture.processor n (capture n s inputs.samples).2) := by
  have hempty : inputs.samples = [] → some (true, ([] : List FrameMessage), s.processor n) =
      some (true, (capture n s inputs.samples).1.map (frameMessage sqrt n),
        Capture.processor n (capture n s inputs.samples).2) := by
    intro hsamples
    rw [hsamples, (capture_additive hn).nil h, List.map_nil]
  unfold PcmCaptureProcessor.process
  rw [if_neg (by simp [Capture.processor])]
  split
  · rename_i hfirst
    exact hempty (by rw [Inputs.samples, hfirst, Option.getD_none])
  · rename_i hfirst
    exact hempty (by rw [Inputs.samples, hfirst, Option.getD_some])
  · rename_i input hne hfirst
    have hsamples : inputs.samples = input := by rw [Inputs.samples, hfirst, Option.getD_some]
    have hlast : readAt input ((input.length : ℤ) - 1) = some (input.getLastD s.1.prev) := by
      obtain ⟨front, last, rfl⟩ := (List.eq_nil_or_concat input).resolve_left hne
      have hindex : (((front.concat last).length : ℕ) : ℤ) - 1 = (front.length : ℕ) := by
        rw [List.length_concat]
        push_cast
        ring
      rw [hindex, readAt_natCast, List.concat_eq_append, List.getElem?_concat_length, getLastD_append]
      rfl
    dsimp only
    rw [hsamples]
    show (PcmCaptureProcessor.loop sqrt input (iterations s.1.step (input.length - 1) s.1.pos)
      (Capture.processor n (s.1, s.2))).bind _ = _
    rw [loop_eq hn h.1.step h.1.pos h.2]
    dsimp only
    rw [Option.bind_some]
    dsimp only
    rw [hlast]
    rfl

theorem processAll_eq (hn : 0 < n) (h : s.1.Valid ∧ s.2.length < n) (quanta : List Inputs) :
    (s.processor n).processAll sqrt quanta =
      some ((capture n s (quanta.flatMap Inputs.samples)).1.map (frameMessage sqrt n),
        Capture.processor n (capture n s (quanta.flatMap Inputs.samples)).2) := by
  induction quanta generalizing s with
  | nil =>
      have hnil := (capture_additive hn).nil h
      rw [List.flatMap_nil, hnil]
      rfl
  | cons inputs quanta ih =>
      have hrest := ih ((capture_additive hn).keeps inputs.samples h)
      have happend := (capture_additive hn).append inputs.samples (quanta.flatMap Inputs.samples) h
      rw [List.flatMap_cons, happend, PcmCaptureProcessor.processAll, process_eq hn h, Option.bind_eq_bind, Option.bind_some]
      dsimp only
      rw [hrest, List.map_append]
      rfl

end Blocks

/-! ## The stream as a whole -/

section Whole

variable {sqrt : ℚ → ℚ} {n : ℕ} {step : ℚ}

theorem fresh_valid (hstep : 0 < step) (hn : 0 < n) : (Capture.fresh step).1.Valid ∧ (Capture.fresh step).2.length < n :=
  ⟨⟨hstep, by norm_num [Capture.fresh]⟩, hn⟩

theorem init_eq {sampleRate targetRate : ℚ} (htarget : 0 < targetRate) (hn : 0 < n) :
    PcmCaptureProcessor.init sampleRate { targetSampleRate := some targetRate, frameSamples := some n } =
      (Capture.fresh (sampleRate / targetRate)).processor n := by
  have hrate : orDefault (some targetRate) 16000 = targetRate := if_neg htarget.ne'
  have hsize : orDefault (some n) 320 = n := if_neg (Nat.pos_iff_ne_zero.mp hn)
  unfold PcmCaptureProcessor.init
  rw [hrate, hsize]
  rfl

/-- The values that `setInt16` gets fit. -/
theorem isInt16_scale_clip (x : ℚ) : IsInt16 (trunc (scale (clip x))) := by
  have hclip : -1 ≤ clip x ∧ clip x ≤ 1 := by
    unfold clip
    split
    · norm_num
    · split
      · norm_num
      · exact ⟨by linarith, by linarith⟩
  apply trunc_between
  · unfold scale
    split <;> push_cast <;> linarith
  · unfold scale
    split <;> push_cast <;> linarith

/-- The buffer with the frames before it holds all that was emitted. -/
theorem emitted_eq (hn : 0 < n) (r : Reading) (values : List ℚ) :
    emitted ((push n [] (values.map clip)).1.map (frameMessage sqrt n)) (Capture.processor n (r, (push n [] (values.map clip)).2)) =
      values.map (fun x => trunc (scale (clip x))) := by
  have hposted : ((push n [] (values.map clip)).1.map (frameMessage sqrt n)).flatMap FrameMessage.pcm =
      sampleBytes (push n [] (values.map clip)).1.flatten := by
    rw [List.flatMap_map, sampleBytes_flatten]
    rfl
  have hbegun : (Capture.processor n (r, (push n [] (values.map clip)).2)).frame.take
      (2 * (Capture.processor n (r, (push n [] (values.map clip)).2)).filled) = sampleBytes (push n [] (values.map clip)).2 := by
    show (sampleBytes _ ++ _).take (2 * (push n [] (values.map clip)).2.length) = _
    rw [← length_sampleBytes, List.take_left]
  have hall : sampleBytes (push n [] (values.map clip)).1.flatten ++ sampleBytes (push n [] (values.map clip)).2 =
      (values.map (fun x => trunc (scale (clip x)))).flatMap int16Bytes := by
    unfold sampleBytes
    rw [← List.flatMap_append, push, List.nil_append, cut_flatten hn, List.flatMap_map, List.flatMap_map]
  rw [emitted, hposted, hbegun, hall, samples_flatMap]
  intro x hx
  obtain ⟨y, -, rfl⟩ := List.mem_map.mp hx
  exact isInt16_scale_clip y

/-- The first block starts at its first sample. -/
theorem outputs_fresh (hstep : 0 < step) (whole : List ℚ) :
    (Capture.fresh step).1.outputs whole =
      ((List.range (iterations step (whole.length - 1) 0)).map (fun k : ℕ => lerp whole (k * step))).map clip := by
  have hvisited : ((Capture.fresh step).1.visited whole).1 =
      (List.range (iterations step (whole.length - 1) 0)).map (fun k : ℕ => 0 + k * step) := by
    show (positions step (whole.length - 1) 0).1 = _
    rw [positions_eq hstep]
  unfold Reading.outputs
  rw [hvisited, List.map_map, List.map_map]
  apply List.map_congr_left
  intro k _
  have hnonneg : (0 : ℚ) ≤ k * step := by positivity
  have hfirst : ((1 : ℕ) : ℚ) ≤ k * step + 1 := by
    rw [Nat.cast_one]
    linarith
  have hdrop := lerp_drop ((0 : ℚ) :: whole) 1 hfirst
  rw [List.drop_one, List.tail_cons, Nat.cast_one, add_sub_cancel_right] at hdrop
  rw [Function.comp_apply, Function.comp_apply, Reading.value, zero_add, hdrop]
  rfl

theorem isCount_iterations (hstep : 0 < step) (whole : List ℚ) : IsCount step whole (iterations step (whole.length - 1) 0) := by
  intro k
  rw [lt_iterations_iff hstep, zero_add]

theorem readsInside_capture (hstep : 0 < step) (hn : 0 < n) (before input : List ℚ) :
    ReadsInside (Capture.processor n (capture n (Capture.fresh step) before).2) before input := by
  have hvalid := (capture_additive hn).keeps before (fresh_valid hstep hn)
  intro pos hpos
  obtain ⟨hle, hlt⟩ := mem_positions hvalid.1.step hpos
  have h0 := hvalid.1.pos
  have hfloor : ⌊pos⌋ < (input.length : ℤ) - 1 := Int.floor_lt.mpr (by push_cast; exact hlt)
  have hlow : -1 ≤ ⌊pos⌋ := Int.le_floor.mpr (by push_cast; exact h0.trans hle)
  refine ⟨by omega, ?_⟩
  rcases List.eq_nil_or_concat before with rfl | ⟨front, last, rfl⟩
  · have hnil := (capture_additive hn).nil (fresh_valid hstep hn)
    rw [hnil] at hle
    exact Or.inl (Int.floor_nonneg.mpr hle)
  · by_cases hneg : 0 ≤ ⌊pos⌋
    · exact Or.inl hneg
    · refine Or.inr ⟨by omega, ?_⟩
      show _ = some ((front.concat last).getLastD 0)
      rw [List.concat_eq_append, List.getLast?_concat, getLastD_append]
      rfl

/-- However the samples come in blocks, the worklet posts the frames that it posts for all of them in one block; each frame
has its `n` samples, and together with the frame begun they are the stream at the positions `0, step, 2 * step, ...`. -/
theorem processAll_blockwise (sqrt : ℚ → ℚ) {sampleRate targetRate : ℚ} {n : ℕ} (hsample : 0 < sampleRate)
    (htarget : 0 < targetRate) (hn : 0 < n) (quanta : List Inputs) :
    let p := PcmCaptureProcessor.init sampleRate { targetSampleRate := some targetRate, frameSamples := some n }
    let step := sampleRate / targetRate
    let whole := quanta.flatMap Inputs.samples
    ∃ posted p', p.processAll sqrt quanta = some (posted, p') ∧ p.processAll sqrt [[[whole]]] = some (posted, p') ∧
      (∀ m ∈ posted, m.pcm.length = 2 * n) ∧
      (∃ count, IsCount step whole count ∧
        emitted posted p' = (List.range count).map (fun k : ℕ => trunc (scale (clip (lerp whole (k * step)))))) ∧
      ∀ front inputs back, quanta = front ++ inputs :: back → ∃ before sent, p.processAll sqrt front = some (sent, before) ∧
        ReadsInside before (front.flatMap Inputs.samples) inputs.samples := by
  intro p step whole
  have hstep : 0 < step := div_pos hsample htarget
  have hfresh := fresh_valid hstep hn
  have hp : p = (Capture.fresh step).processor n := init_eq htarget hn
  have hone : ([[[whole]]] : List Inputs).flatMap Inputs.samples = whole := List.append_nil _
  refine ⟨_, _, by rw [hp, processAll_eq hn hfresh], by rw [hp, processAll_eq hn hfresh, hone], ?_, ?_, ?_⟩
  · intro m hm
    obtain ⟨frame, hframe, rfl⟩ := List.mem_map.mp hm
    have hlength : frame.length = n := length_of_mem_cut hn _ frame hframe
    show (sampleBytes frame).length = _
    rw [length_sampleBytes, hlength]
  · refine ⟨_, isCount_iterations hstep whole, ?_⟩
    have hcapture : capture n (Capture.fresh step) whole = ((push n [] ((Capture.fresh step).1.outputs whole)).1,
        (read (Capture.fresh step).1 whole).2, (push n [] ((Capture.fresh step).1.outputs whole)).2) := rfl
    rw [hcapture, outputs_fresh hstep, emitted_eq hn, List.map_map]
    rfl
  · rintro front inputs back rfl
    exact ⟨_, _, by rw [hp, processAll_eq hn hfresh], readsInside_capture hstep hn _ _⟩

/-- Four samples at 48 kHz in two blocks, with a missing and an empty input between them. -/
theorem processAll_blockwise_cut : 0 < (48000 : ℚ) ∧ 0 < (16000 : ℚ) ∧ 0 < 2 ∧
    let p := PcmCaptureProcessor.init 48000 { targetSampleRate := some 16000, frameSamples := some 2 }
    p.processAll id [[[[1 / 2, 1 / 4]]], [], [[[]]], [[[0, 1]]]] = p.processAll id [[[[1 / 2, 1 / 4, 0, 1]]]] := by
  obtain ⟨posted, p', hblocks, hwhole, -⟩ := processAll_blockwise id (show (0 : ℚ) < 48000 by norm_num)
    (show (0 : ℚ) < 16000 by norm_num) (show 0 < 2 by decide) [[[[1 / 2, 1 / 4]]], [], [[[]]], [[[0, 1]]]]
  exact ⟨by norm_num, by norm_num, by decide, hblocks.trans hwhole.symm⟩

end Whole

end Voxera.Web
