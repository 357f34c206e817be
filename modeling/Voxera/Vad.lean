import Mathlib.Algebra.GroupWithZero.Nat
import Mathlib.Algebra.Order.Ring.Unbundled.Rat

/-!
# `EnergyVAD`: voice activity from loudness

The energy of a frame is a mean of sample magnitudes and the noise floor a weighted mean of
energies: both are rational, and are computed here in exact arithmetic.
-/

namespace Voxera

abbrev Bytes := List UInt8

/-- `struct.unpack("<h")`: the little-endian signed 16-bit value of two bytes. -/
def int16 (lo hi : UInt8) : Int :=
  let u : Int := lo.toNat + 256 * hi.toNat
  if u < 32768 then u else u - 65536

/-- The PCM16 samples of a frame; a last odd byte is left out. -/
def samples : Bytes → List Int
  | lo :: hi :: rest => int16 lo hi :: samples rest
  | _ => []

/-- Mean absolute PCM16 sample value. -/
def pcmFrameEnergy (frame : Bytes) : ℚ :=
  let xs := samples frame
  if xs = [] then 0 else ((xs.map Int.natAbs).sum : ℚ) / (xs.length : ℚ)

structure EnergyVAD where
  minEnergy : ℚ := 500
  noiseRatio : ℚ := 3
  speechFrames : Nat := 3
  noiseAlpha : ℚ := 1 / 20
  noiseFloor : ℚ := 100
  run : Nat := 0
  inSpeech : Bool := false

namespace EnergyVAD

def threshold (v : EnergyVAD) : ℚ := max v.minEnergy (v.noiseFloor * v.noiseRatio)

/-- Feed one frame; the flag is true when speech starts at it. -/
def update (v : EnergyVAD) (frame : Bytes) : Bool × EnergyVAD :=
  let energy := pcmFrameEnergy frame
  if v.threshold ≤ energy then
    let v := { v with run := v.run + 1 }
    if !v.inSpeech && v.speechFrames ≤ v.run then (true, { v with inSpeech := true }) else (false, v)
  else
    (false, { v with
      run := 0
      inSpeech := false
      noiseFloor := v.noiseFloor + v.noiseAlpha * (energy - v.noiseFloor) })

end EnergyVAD

end Voxera
