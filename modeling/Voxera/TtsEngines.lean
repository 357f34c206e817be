import Voxera.Framing
import Voxera.Resampler

/-!
# The frames of the speech engines

What an uncancelled `stream()` yields for the chunks that the provider sends. The chunks that `aiter_bytes` gives may be
empty; `read` gives an empty one at the end of the body and only there.

* `chunkPcmBytes` : the function;
* `elevenLabsStream`, `openAiStream`, `pollyStream` : the engines; the frames of Polly go through a queue, which keeps
  their order, up to the mark that ends it;
* `streams_framed` : the frames do not depend on the chunks, and are the body in frames.
-/

namespace Voxera

open Incremental Framing

/-- `chunk_pcm_bytes` -/
def chunkPcmBytes (data : Bytes) (frameBytes : ℤ) : List Bytes × Bytes :=
  if frameBytes ≤ 0 then (if data.isEmpty then [] else [data], []) else cut frameBytes.toNat data

/-- `data.ljust(width, b"\x00")` -/
def ljust (data : Bytes) (width : ℤ) : Bytes := data ++ List.replicate (width.toNat - data.length) 0

/-- What is yielded of the buffer at the end. -/
def lastFrame (buffer : Bytes) (frameBytes : ℤ) : List Bytes :=
  if buffer.isEmpty then [] else [(ljust buffer frameBytes).take frameBytes.toNat]

/-! ## ElevenLabs -/

/-- The loop over `response.aiter_bytes()`: what it yields, and the buffer after it. -/
def elevenLabsLoop (frameBytes : ℤ) (buffer : Bytes) : List Bytes → List Bytes × Bytes
  | [] => ([], buffer)
  | chunk :: chunks =>
    if chunk.isEmpty then elevenLabsLoop frameBytes buffer chunks
    else
      let (frames, buffer) := chunkPcmBytes (buffer ++ chunk) frameBytes
      let (more, buffer) := elevenLabsLoop frameBytes buffer chunks
      (frames ++ more, buffer)

/-- `ElevenLabsStreamingTTSEngine.stream` -/
def elevenLabsStream (frameBytes : ℤ) (chunks : List Bytes) : List Bytes :=
  let (frames, buffer) := elevenLabsLoop frameBytes [] chunks
  frames ++ lastFrame buffer frameBytes

/-! ## OpenAI -/

/-- `OPENAI_PCM_SAMPLE_RATE` -/
def openAiSampleRate : ℤ := 24000

/-- The loop over `response.aiter_bytes()`; `none` where the resampler raises. -/
def openAiLoop (frameBytes : ℤ) (buffer : Bytes) (resampler : Pcm16Resampler) :
    List Bytes → Option (List Bytes × Bytes)
  | [] => some ([], buffer)
  | chunk :: chunks =>
    if chunk.isEmpty then openAiLoop frameBytes buffer resampler chunks
    else do
      let (out, resampler) ← resampler.process chunk
      let (frames, buffer) := chunkPcmBytes (buffer ++ out) frameBytes
      let (more, buffer) ← openAiLoop frameBytes buffer resampler chunks
      return (frames ++ more, buffer)

/-- `OpenAIStreamingTTSEngine.stream` -/
def openAiStream (frameBytes sampleRate : ℤ) (chunks : List Bytes) : Option (List Bytes) := do
  let resampler ← Pcm16Resampler.init openAiSampleRate sampleRate
  let (frames, buffer) ← openAiLoop frameBytes [] resampler chunks
  return frames ++ lastFrame buffer frameBytes

/-! ## Polly -/

/-- What the worker puts into the queue. -/
inductive PollyItem where
  | frame (bytes : Bytes)
  /-- `_DONE` -/
  | done

/-- The loop over `body.read`: the frames that it puts, and what is pending after it. -/
def pollyLoop (frameBytes : ℤ) (pending : Bytes) : List Bytes → List Bytes × Bytes
  | [] => ([], pending)
  | chunk :: chunks =>
    if chunk.isEmpty then ([], pending)
    else
      let (frames, pending) := cut frameBytes.toNat (pending ++ chunk)
      let (more, pending) := pollyLoop frameBytes pending chunks
      (frames ++ more, pending)

/-- `worker` -/
def pollyWorker (frameBytes : ℤ) (chunks : List Bytes) : List PollyItem :=
  let (frames, pending) := pollyLoop frameBytes [] chunks
  (frames ++ if pending.isEmpty then [] else [ljust pending frameBytes]).map .frame ++ [.done]

/-- What the loop over `queue.get` yields. -/
def pollyYields : List PollyItem → List Bytes
  | .frame bytes :: items => bytes :: pollyYields items
  | .done :: _ => []
  | [] => []

/-- `PollyStreamingTTSEngine.stream` -/
def pollyStream (frameBytes : ℤ) (chunks : List Bytes) : List Bytes := pollyYields (pollyWorker frameBytes chunks)

/-! ## The loops are processors of frames -/

section Engines
variable {frameBytes : ℤ} {buffer : Bytes} {chunks : List Bytes} {resampler : Pcm16Resampler}

theorem chunkPcmBytes_eq (h : 0 < frameBytes) (data : Bytes) :
    chunkPcmBytes data frameBytes = cut frameBytes.toNat data := if_neg (not_le.mpr h)

theorem elevenLabsLoop_eq (h : 0 < frameBytes) (hbuffer : buffer.length < frameBytes.toNat) (chunks : List Bytes) :
    elevenLabsLoop frameBytes buffer chunks = runAll (push frameBytes.toNat) buffer chunks := by
  have hn : 0 < frameBytes.toNat := by omega
  induction chunks generalizing buffer with
  | nil => rfl
  | cons chunk chunks ih =>
      rw [elevenLabsLoop, runAll]
      split
      · next hempty =>
          rw [List.isEmpty_iff] at hempty
          rw [hempty, (push_additive hn).nil hbuffer, List.nil_append, ih hbuffer]
      · rw [chunkPcmBytes_eq h, ← push]
        dsimp only
        rw [ih ((push_additive hn).keeps chunk hbuffer)]

theorem pollyLoop_eq (hbuffer : buffer.length < frameBytes.toNat)
    (hchunks : ∀ chunk ∈ chunks, chunk ≠ []) :
    pollyLoop frameBytes buffer chunks = runAll (push frameBytes.toNat) buffer chunks := by
  have hn : 0 < frameBytes.toNat := by omega
  induction chunks generalizing buffer with
  | nil => rfl
  | cons chunk chunks ih =>
      have hne : chunk.isEmpty = false := by simpa using hchunks chunk (by simp)
      rw [pollyLoop, hne, if_neg (by simp), ← push]
      dsimp only
      rw [ih ((push_additive hn).keeps chunk hbuffer) (fun c hc => hchunks c (by simp [hc])), runAll]

theorem openAiLoop_eq (h : 0 < frameBytes) (hbuffer : buffer.length < frameBytes.toNat)
    (hresampler : resampler.WellFormed) (chunks : List Bytes) :
    openAiLoop frameBytes buffer resampler chunks =
      some ((runAll (pipe Pcm16Resampler.resample (push frameBytes.toNat)) (resampler, buffer) chunks).1,
        (runAll (pipe Pcm16Resampler.resample (push frameBytes.toNat)) (resampler, buffer) chunks).2.2) := by
  have hn : 0 < frameBytes.toNat := by omega
  have hpipe := Pcm16Resampler.resample_additive.pipe (push_additive (α := UInt8) hn)
  induction chunks generalizing buffer resampler with
  | nil => rfl
  | cons chunk chunks ih =>
      rw [openAiLoop, runAll]
      split
      · next hempty =>
          rw [List.isEmpty_iff] at hempty
          rw [hempty, hpipe.nil (s := (resampler, buffer)) ⟨hresampler, hbuffer⟩, List.nil_append,
            ih hbuffer hresampler]
      · have hkeeps := hpipe.keeps (s := (resampler, buffer)) chunk ⟨hresampler, hbuffer⟩
        rw [Pcm16Resampler.process_eq_some hresampler, Option.bind_eq_bind, Option.bind_some]
        rcases hout : resampler.resample chunk with ⟨out, next⟩
        rw [pipe, hout] at hkeeps
        dsimp only at hkeeps ⊢
        rw [chunkPcmBytes_eq h, ← push, pipe, hout]
        dsimp only
        rw [ih hkeeps.2 hkeeps.1]
        rfl

theorem lastFrame_eq (hbuffer : buffer.length < frameBytes.toNat) :
    lastFrame buffer frameBytes = pad frameBytes.toNat 0 buffer := by
  unfold lastFrame pad ljust
  rw [List.take_of_length_le]
  rw [List.length_append, List.length_replicate]
  omega

theorem pollyYields_frames (frames : List Bytes) : pollyYields (frames.map .frame ++ [.done]) = frames := by
  induction frames with
  | nil => rfl
  | cons frame frames ih => rw [List.map_cons, List.cons_append, pollyYields, ih]

theorem elevenLabsStream_eq (h : 0 < frameBytes) (chunks : List Bytes) :
    elevenLabsStream frameBytes chunks = frames frameBytes.toNat 0 chunks.flatten := by
  have hn : 0 < frameBytes.toNat := by omega
  have hstart : ([] : Bytes).length < frameBytes.toNat := hn
  have hrun := (push_additive hn).runAll_eq hstart chunks
  rw [elevenLabsStream, elevenLabsLoop_eq h hstart, hrun]
  dsimp only [push]
  rw [lastFrame_eq (length_cut_rest hn _)]
  rfl

theorem pollyStream_eq (h : 0 < frameBytes) (hchunks : ∀ chunk ∈ chunks, chunk ≠ []) :
    pollyStream frameBytes chunks = frames frameBytes.toNat 0 chunks.flatten := by
  have hn : 0 < frameBytes.toNat := by omega
  have hstart : ([] : Bytes).length < frameBytes.toNat := hn
  have hrun := (push_additive hn).runAll_eq hstart chunks
  rw [pollyStream, pollyWorker, pollyLoop_eq hstart hchunks, hrun]
  exact pollyYields_frames _

theorem openAiStream_eq (h : 0 < frameBytes) {sampleRate : ℤ}
    (hinit : Pcm16Resampler.init openAiSampleRate sampleRate = some resampler) (chunks : List Bytes) :
    ∃ out, (resampler.process chunks.flatten).map Prod.fst = some out ∧
      openAiStream frameBytes sampleRate chunks = some (frames frameBytes.toNat 0 out) := by
  have hn : 0 < frameBytes.toNat := by omega
  have hresampler : resampler.WellFormed := by
    unfold Pcm16Resampler.init at hinit
    split_ifs at hinit with hrates
    rw [not_or, not_le, not_le] at hrates
    obtain rfl := Option.some.inj hinit
    exact Pcm16Resampler.fresh_wellFormed hrates.1 hrates.2
  have hpipe := Pcm16Resampler.resample_additive.pipe (push_additive (α := UInt8) hn)
  have hstart : ([] : Bytes).length < frameBytes.toNat := hn
  have hrun := hpipe.runAll_eq (s := (resampler, [])) ⟨hresampler, hstart⟩ chunks
  refine ⟨(resampler.resample chunks.flatten).1, ?_, ?_⟩
  · rw [Pcm16Resampler.process_eq_some hresampler]
    rfl
  · rw [openAiStream, hinit, Option.bind_eq_bind, Option.bind_some, openAiLoop_eq h hstart hresampler, hrun,
      Option.bind_eq_bind, Option.bind_some]
    dsimp only [pipe]
    rw [push, List.nil_append, lastFrame_eq (length_cut_rest hn _)]
    rfl

end Engines

/-- Whatever the chunks, the engines yield the body in frames, or what the resampler makes of the whole body. -/
theorem streams_framed (frameBytes : ℤ) (h : 0 < frameBytes) (body : Bytes) (chunks : List Bytes)
    (hbody : chunks.flatten = body) :
    (elevenLabsStream frameBytes chunks = frames frameBytes.toNat 0 body ∧
      Framed frameBytes.toNat 0 body (elevenLabsStream frameBytes chunks)) ∧
    (∀ sampleRate resampler, Pcm16Resampler.init openAiSampleRate sampleRate = some resampler →
      ∃ out, (resampler.process body).map Prod.fst = some out ∧
        openAiStream frameBytes sampleRate chunks = some (frames frameBytes.toNat 0 out) ∧
        Framed frameBytes.toNat 0 out (frames frameBytes.toNat 0 out)) ∧
    ((∀ chunk ∈ chunks, chunk ≠ []) →
      pollyStream frameBytes chunks = frames frameBytes.toNat 0 body ∧
      Framed frameBytes.toNat 0 body (pollyStream frameBytes chunks)) := by
  subst hbody
  have hn : 0 < frameBytes.toNat := by omega
  refine ⟨⟨elevenLabsStream_eq h chunks, ?_⟩, fun sampleRate resampler hinit => ?_,
    fun hchunks => ⟨pollyStream_eq h hchunks, ?_⟩⟩
  · rw [elevenLabsStream_eq h]
    exact framed_frames hn 0 _
  · obtain ⟨out, hout, hstream⟩ := openAiStream_eq h hinit chunks
    exact ⟨out, hout, hstream, framed_frames hn 0 _⟩
  · rw [pollyStream_eq h hchunks]
    exact framed_frames hn 0 _

/-- Five bytes in frames of four, in two chunks. -/
theorem streams_framed_five : elevenLabsStream 4 [[1, 2, 3], [4, 5]] = frames 4 0 [1, 2, 3, 4, 5] ∧
    (∃ out, openAiStream 4 16000 [[1, 2, 3], [4, 5]] = some (frames 4 0 out)) ∧
    pollyStream 4 [[1, 2, 3], [4, 5]] = frames 4 0 [1, 2, 3, 4, 5] := by
  obtain ⟨h₁, h₂, h₃⟩ := streams_framed 4 (by decide) [1, 2, 3, 4, 5] [[1, 2, 3], [4, 5]] rfl
  obtain ⟨out, -, hout, -⟩ := h₂ 16000 _ (Pcm16Resampler.init_eq (by decide) (by decide))
  exact ⟨h₁.1, ⟨out, hout⟩, (h₃ (by decide)).1⟩

end Voxera
