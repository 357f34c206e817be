import Voxera.Resampler

/-!
# Telephony audio: μ-law at 8 kHz and PCM16 at 16 kHz

`audioop` is a module of the interpreter that may be missing: it is a parameter, and `none` where the pure functions
stand in for it.

* `ulawToPcm16Pure`, `pcm16ToUlawPure` : the pure codec, `decodeUlaw` and `encodeUlaw` on one sample;
* `convertTwilioAudio`, `pcm1616kToTwilioAudio` : the whole path in the two directions;
* `g711` : what G.711 says that a byte means;
* `isG711_iff` : on which payloads the pure codec is G.711.
-/

namespace Voxera.Telephony

/-- The functions of `audioop` that are used. -/
structure Audioop where
  ulaw2lin : Bytes → Bytes
  lin2ulaw : Bytes → Bytes

/-! ## Inbound -/

/-- The sample of a byte in `_ulaw_to_pcm16_pure`. -/
def decodeUlaw (u : UInt8) : ℤ :=
  let u := u ^^^ 0xFF
  let sign := u &&& 0x80
  let exponent := (u >>> 4) &&& 0x07
  let mantissa := u &&& 0x0F
  let sample : ℤ := (mantissa.toNat * 8 + 0x84) * 2 ^ exponent.toNat
  let sample := sample - 0x84
  let sample := if sign ≠ 0 then -sample else sample
  max (-32768) (min 32767 (sample * 4))

/-- `_ulaw_to_pcm16_pure` -/
def ulawToPcm16Pure (payload : Bytes) : Bytes := payload.flatMap (fun u => int16Bytes (decodeUlaw u))

/-- `_ulaw_to_pcm16` -/
def ulawToPcm16 (audioop : Option Audioop) (payload : Bytes) : Bytes :=
  match audioop with
  | some audioop => audioop.ulaw2lin payload
  | none => ulawToPcm16Pure payload

/-- `_resample_8k_to_16k_pure` -/
def resample8kTo16kPure : Bytes → Bytes
  | lo :: hi :: rest => lo :: hi :: lo :: hi :: resample8kTo16kPure rest
  | _ => []

/-- `convert_twilio_audio` -/
def convertTwilioAudio (audioop : Option Audioop) (payload : Bytes) : Bytes :=
  if payload.isEmpty then [] else resample8kTo16kPure (ulawToPcm16 audioop payload)

/-! ## Outbound -/

/-- `_SEG_ULAW_END` -/
def segUlawEnd : List ℕ := [0xFC, 0x1F8, 0x3F0, 0x7E0, 0xFC0, 0x1F80, 0x3F00, 0x7E00]

/-- The byte of a sample in `_pcm16_to_ulaw_pure`. -/
def encodeUlaw (sample : ℤ) : UInt8 :=
  let sign := if sample < 0 then 0x80 else 0
  let sample := min (sample.natAbs >>> 2) 0x1FFF + 0x84
  let exponent := (segUlawEnd.findIdx? (fun bound => sample ≤ bound)).getD 7
  let mantissa := (sample >>> (exponent + 3)) &&& 0x0F
  ~~~UInt8.ofNat (sign ||| (exponent <<< 4) ||| mantissa)

/-- `_pcm16_to_ulaw_pure`; `none` where `struct.unpack_from` raises. -/
def pcm16ToUlawPure (pcm16 : Bytes) : Option Bytes :=
  if pcm16.length % 2 = 1 then none else some ((samples pcm16).map encodeUlaw)

/-- `_pcm16_to_ulaw` -/
def pcm16ToUlaw (audioop : Option Audioop) (pcm16 : Bytes) : Option Bytes :=
  match audioop with
  | some audioop => some (audioop.lin2ulaw pcm16)
  | none => pcm16ToUlawPure pcm16

/-- `_resample_16k_to_8k_pure` -/
def resample16kTo8kPure : Bytes → Bytes
  | lo :: hi :: _ :: _ :: rest => lo :: hi :: resample16kTo8kPure rest
  | _ => []

/-- `pcm16_16k_to_twilio_audio` -/
def pcm1616kToTwilioAudio (audioop : Option Audioop) (pcm1616k : Bytes) : Option Bytes :=
  if pcm1616k.isEmpty then some [] else pcm16ToUlaw audioop (resample16kTo8kPure pcm1616k)

/-! ## G.711 -/

/-- The 16-bit value of a μ-law byte. -/
def g711 (u : UInt8) : ℤ :=
  let complement := 255 - u.toNat
  let exponent := complement / 16 % 8
  let mantissa := complement % 16
  let magnitude : ℤ := (8 * mantissa + 132) * 2 ^ exponent - 132
  if 128 ≤ complement then -magnitude else magnitude

/-- Up to the sign of zero, a byte comes back as itself. -/
def ComesBack (u v : UInt8) : Prop := v = u ∨ (u = 0x7F ∧ v = 0xFF)

instance (u v : UInt8) : Decidable (ComesBack u v) := inferInstanceAs (Decidable (_ ∨ _))

/-- On the payload the pure codec is G.711 in both directions. -/
structure IsG711 (payload : Bytes) : Prop where
  decodes : ulawToPcm16Pure payload = payload.flatMap (fun u => int16Bytes (g711 u))
  comesBack : ∃ back, pcm1616kToTwilioAudio none (convertTwilioAudio none payload) = some back ∧
    List.Forall₂ ComesBack payload back

/-! ## One byte -/

theorem forall_byte {P : UInt8 → Prop} (h : ∀ n < 256, P (UInt8.ofNat n)) (u : UInt8) : P u := by
  have := h u.toNat u.toNat_lt
  rwa [UInt8.ofNat_toNat] at this

theorem isInt16_decodeUlaw (u : UInt8) : IsInt16 (decodeUlaw u) := by
  unfold decodeUlaw IsInt16
  dsimp only
  omega

theorem isInt16_g711 : ∀ u, IsInt16 (g711 u) := forall_byte (by decide +kernel)

/-- The decoder multiplies by four what is a 16-bit value already: only zero is left as it is. -/
theorem decodeUlaw_eq_g711_iff : ∀ u, decodeUlaw u = g711 u ↔ u = 0xFF ∨ u = 0x7F := forall_byte (by decide +kernel)

theorem comesBack_of_zero : ∀ u : UInt8, u = 0xFF ∨ u = 0x7F → ComesBack u (encodeUlaw (decodeUlaw u)) :=
  forall_byte (by decide +kernel)

/-! ## Payloads -/

section Payloads
variable {f : UInt8 → ℤ} {payload : Bytes}

/-- The samples of a decoded payload are those of its bytes. -/
theorem samples_decoded (hf : ∀ u, IsInt16 (f u)) (payload : Bytes) :
    samples (payload.flatMap (fun u => int16Bytes (f u))) = payload.map f := by
  have hall : ∀ x ∈ payload.map f, IsInt16 x := by
    intro x hx
    obtain ⟨u, -, rfl⟩ := List.mem_map.mp hx
    exact hf u
  have h := samples_flatMap hall
  rwa [List.flatMap_map] at h

theorem resample16kTo8kPure_resample8kTo16kPure {pcm16 : Bytes} (h : pcm16.length % 2 = 0) :
    resample16kTo8kPure (resample8kTo16kPure pcm16) = pcm16 := by
  induction pcm16 using samples.induct with
  | case1 lo hi rest ih =>
      simp only [List.length_cons] at h
      rw [resample8kTo16kPure, resample16kTo8kPure, ih (by omega)]
  | case2 data hshort =>
      rcases data with _ | ⟨lo, _ | ⟨hi, rest⟩⟩
      · rfl
      · simp at h
      · exact absurd rfl (hshort lo hi rest)

theorem length_ulawToPcm16Pure (payload : Bytes) : (ulawToPcm16Pure payload).length = 2 * payload.length := by
  induction payload with
  | nil => rfl
  | cons u payload ih =>
      rw [ulawToPcm16Pure, List.flatMap_cons, List.length_append, ← ulawToPcm16Pure, ih, List.length_cons]
      simp only [int16Bytes, List.length_cons, List.length_nil]
      omega

/-- The whole path is the codec on each byte. -/
theorem roundTrip_eq (payload : Bytes) : pcm1616kToTwilioAudio none (convertTwilioAudio none payload) =
    some (payload.map (fun u => encodeUlaw (decodeUlaw u))) := by
  cases payload with
  | nil => rfl
  | cons u payload =>
      have heven : (ulawToPcm16Pure (u :: payload)).length % 2 = 0 := by
        rw [length_ulawToPcm16Pure]
        omega
      have hconvert : convertTwilioAudio none (u :: payload) = resample8kTo16kPure (ulawToPcm16Pure (u :: payload)) := rfl
      have hne : (convertTwilioAudio none (u :: payload)).isEmpty = false := rfl
      rw [pcm1616kToTwilioAudio, hne, if_neg (by simp), hconvert, resample16kTo8kPure_resample8kTo16kPure heven]
      rw [pcm16ToUlaw, pcm16ToUlawPure, if_neg (by omega), ulawToPcm16Pure, samples_decoded isInt16_decodeUlaw,
        List.map_map]
      rfl

theorem decodes_iff (payload : Bytes) :
    ulawToPcm16Pure payload = payload.flatMap (fun u => int16Bytes (g711 u)) ↔
      ∀ u ∈ payload, decodeUlaw u = g711 u := by
  constructor
  · intro h u hu
    have hsamples := congrArg samples h
    rw [ulawToPcm16Pure, samples_decoded isInt16_decodeUlaw, samples_decoded isInt16_g711] at hsamples
    exact List.map_inj_left.mp hsamples u hu
  · intro h
    rw [ulawToPcm16Pure, List.flatMap_def, List.flatMap_def, List.map_congr_left (fun u hu => by rw [h u hu])]

end Payloads

/-- The pure codec is G.711 on the payloads that hold nothing but zero. -/
theorem isG711_iff (payload : Bytes) : IsG711 payload ↔ ∀ u ∈ payload, u = 0xFF ∨ u = 0x7F := by
  constructor
  · intro h u hu
    exact (decodeUlaw_eq_g711_iff u).mp ((decodes_iff payload).mp h.decodes u hu)
  · intro h
    refine ⟨(decodes_iff payload).mpr (fun u hu => (decodeUlaw_eq_g711_iff u).mpr (h u hu)), _, roundTrip_eq payload, ?_⟩
    rw [List.forall₂_map_right_iff]
    exact List.forall₂_same.mpr (fun u hu => comesBack_of_zero u (h u hu))

/-- The loudest byte is decoded to a clamped value, and does not come back. -/
theorem not_isG711_loudest : ¬IsG711 [0x80] := by
  intro h
  exact absurd h.decodes (by decide +kernel)

end Voxera.Telephony
