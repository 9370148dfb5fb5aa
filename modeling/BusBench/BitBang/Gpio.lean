import BusBench.Board.Request

/-!
# Driving pins

What a bit-banged bus needs: lines that can be driven and sampled, and time that passes. A line or a
pin may report a fault.

* `Gpio`: lines `L` on a machine with states `σ`.
* `Drive`: programs that drive lines.
* `halfPeriod`: how long each level of a clock lasts.
-/

namespace BusBench.BitBang

/-- Why a bit-banged transfer failed. -/
inductive BitError where
  /-- No device acknowledged a byte. -/
  | nack
  | pin
  deriving DecidableEq, Repr

def BitError.message : BitError → String
  | nack => "no acknowledgement"
  | pin => "pin error: PinFault"

/-- The failure as users of a bus see it. -/
def BitError.toBus : BitError → BusError
  | nack => .nack
  | pin => .fault

/-- Programs that drive lines. -/
abbrev Drive (σ : Type) := ExceptT BitError (StateM σ)

/-- Lines `L` on a machine with states `σ`. -/
class Gpio (σ : Type) (L : outParam Type) where
  /-- Drives a line high or low; an open-drain line driven high is released. -/
  drive : L → Bool → Drive σ Unit
  /-- The level of a line. -/
  sample : L → Drive σ Bool
  /-- Lets microseconds pass. -/
  wait : Nat → Drive σ Unit

/-- The result of a program that drives lines, as users of a bus see it. -/
def Drive.onBus {σ α : Type} (program : Drive σ α) (s : σ) : Except BusError α × σ :=
  let (result, s) := program.run s
  (result.mapError BitError.toBus, s)

/-- The microseconds of half a clock period, at least one. -/
def halfPeriod (hz : Nat) : Nat :=
  if hz = 0 then 1 else max 1 (500000 / hz)

end BusBench.BitBang
