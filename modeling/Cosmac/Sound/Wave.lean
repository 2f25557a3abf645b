import Cosmac.Number.Basic
import Cosmac.Picture.Runs

/-!
# Square waves

The samples of a tone: whole periods of a square wave, about a tenth of a second of them. The first
half of a period holds the amplitude and the rest its negative, in signed sixteen-bit words; with
several channels every sample is repeated once for each channel. The periods are whole, so the
buffer can be played again and again without a jump.
-/

namespace Cosmac

/-- A square wave. -/
structure Wave where
  /-- The number of samples in a period. -/
  period : Nat
  /-- The number of periods. -/
  periods : Nat
  amplitude : Int
  /-- The number of channels as it was asked for; below two there is a single one. -/
  channels : Int
  deriving DecidableEq, Repr

namespace Wave

/-- A sixteen-bit sample, to be read with a sign. -/
abbrev Sample := BitVec 16

/-- Why no wave can be made. -/
inductive Error where
  | notPositive (frequency : Number)
  /-- The length of a period is no number. -/
  | periodNaN
  | periodInfinite
  /-- A whole number is out of the range of double precision. -/
  | outOfRange
  | quotientOutOfRange
  /-- There would be more samples than can be counted. -/
  | tooLong
  deriving DecidableEq, Repr

/-- What the user is told. -/
def Error.message : Error → String
  | notPositive frequency => "Tone frequency must be positive, got " ++ frequency.text
  | periodNaN => "cannot convert float NaN to integer"
  | periodInfinite => "cannot convert float infinity to integer"
  | outOfRange => "int too large to convert to float"
  | quotientOutOfRange => "integer division result too large for a float"
  | tooLong => "Maximum allowed size exceeded"

/-- The amplitude unless another is asked for. -/
def defaultAmplitude : Int := 8000

/-- The length of a buffer in seconds. -/
def bufferSeconds : Float := 0.1

/-- The samples of one channel. -/
def samples (w : Wave) : Runs Sample :=
  let half := w.period / 2
  (List.replicate w.periods
    [⟨half, BitVec.ofInt 16 w.amplitude⟩, ⟨w.period - half, BitVec.ofInt 16 (-w.amplitude)⟩]).flatten

/-- The number of channels that are written. -/
def channelCount (w : Wave) : Nat :=
  if 1 < w.channels then w.channels.toNat else 1

/-- The samples of all channels, interleaved. -/
def interleaved (w : Wave) : Runs Sample :=
  w.samples.stretch w.channelCount

/-- The number of samples of one channel. -/
def frameCount (w : Wave) : Nat :=
  w.period * w.periods

/-- The size of the buffer in bytes. -/
def byteCount (w : Wave) : Nat :=
  w.frameCount * w.channelCount * 2

/-- A whole number in double precision. -/
def toFloat? (n : Int) : Except Error Float :=
  let x := Binary64.ofInt n
  if x.isInf then .error .outOfRange else .ok x

/-- The quotient of a sample rate and a frequency in double precision. -/
def quotient? (rate : Int) : Number → Except Error Float
  | .int n =>
    let x := Binary64.ofRatio (decide (rate < 0) != decide (n < 0)) rate.natAbs n.natAbs
    if x.isInf then .error .quotientOutOfRange else .ok x
  | .float x => do .ok ((← toFloat? rate) / x)

/-- The whole number nearest to a double, a half going to the even neighbour. -/
def round? (x : Float) : Except Error Int :=
  match Binary64.ofFloat x with
  | .nan => .error .periodNaN
  | .infinite _ => .error .periodInfinite
  | .finite negative m q => .ok (Binary64.signed negative (Binary64.roundMagnitude m q))

/-- The whole part of a double. -/
def truncate? (x : Float) : Except Error Int :=
  match Binary64.ofFloat x with
  | .nan => .error .periodNaN
  | .infinite _ => .error .periodInfinite
  | .finite negative m q => .ok (Binary64.signed negative (Binary64.truncateMagnitude m q))

/-- A frequency above zero, or not comparable with it. -/
def acceptable : Number → Bool
  | .int n => 0 < n
  | .float x => !(x ≤ 0)

/-- The most samples that can be counted. -/
def maxLength : Nat := 0x7FFFFFFFFFFFFFFF

/-- The wave of a frequency at a sample rate. -/
def make? (frequency : Number) (rate channels amplitude : Int) : Except Error Wave := do
  if !acceptable frequency then .error (.notPositive frequency)
  let period := max 2 (← round? (← quotient? rate frequency))
  let length ← truncate? ((← toFloat? rate) * bufferSeconds)
  let periods := max 1 (Int.fdiv length period)
  let w : Wave := ⟨period.toNat, periods.toNat, amplitude, channels⟩
  if maxLength < w.frameCount then .error .tooLong else .ok w

end Wave

end Cosmac
