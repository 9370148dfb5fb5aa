import BusBench.BitBang.Gpio
import BusBench.Bus.Spi

/-!
# Bit-banged SPI

An SPI controller on three lines, most significant bit first.

* `Spi.park`: the clock at its idle level.
* `Spi.transferByte`, `Spi.transfer`: bytes out and in at once.
-/

namespace BusBench.BitBang

open BusBench.Spi (Mode)

inductive SpiLine where
  | sck
  | mosi
  | miso
  deriving DecidableEq, Repr

/-- A bit-banged SPI controller: its clock mode, its timing and its lock. -/
structure SpiController where
  mode : Mode := .ofNumber 0
  half : Nat := halfPeriod 30000
  locked : Bool := false
  deriving DecidableEq, Repr

namespace SpiController

def withFrequency (controller : SpiController) (hz : Nat) : SpiController :=
  { controller with half := halfPeriod hz }

/-- The controller with the clock mode and speed of an SPI configuration. -/
def withConfig (controller : SpiController) (config : BusBench.Spi.Config) : SpiController :=
  { controller with mode := config.mode, half := halfPeriod config.speed.hz }

/-- Takes the lock; answers whether it was free. -/
def tryLock (controller : SpiController) : Bool × SpiController :=
  (!controller.locked, { controller with locked := true })

def unlock (controller : SpiController) : SpiController :=
  { controller with locked := false }

end SpiController

namespace Spi

open Gpio (wait)

variable {σ : Type} [Gpio σ SpiLine]

/-- Drives the clock to its active level, or back to idle. -/
def clock (mode : Mode) (active : Bool) : Drive σ Unit :=
  Gpio.drive .sck (active != (mode.idle = .high : Bool))

/-- Drives the clock to its idle level. -/
def park (mode : Mode) : Drive σ Unit :=
  clock mode false

def put (bit : Bool) : Drive σ Unit :=
  Gpio.drive .mosi bit

/-- Clocks one bit out and one in. -/
def transferBit (mode : Mode) (half : Nat) (bit : Bool) : Drive σ Bool :=
  match mode.phase with
  | .first => do
    put bit
    wait half
    clock mode true
    let sampled ← Gpio.sample SpiLine.miso
    wait half
    clock mode false
    return sampled
  | .second => do
    clock mode true
    put bit
    wait half
    clock mode false
    let sampled ← Gpio.sample SpiLine.miso
    wait half
    return sampled

/-- Clocks bits out, and others in behind those of a byte. -/
def transferBits (mode : Mode) (half : Nat) : List Bool → UInt8 → Drive σ UInt8
  | [], byte => pure byte
  | bit :: bits, byte => do
    let sampled ← transferBit mode half bit
    transferBits mode half bits (Byte.shiftIn byte sampled)

def transferByte (mode : Mode) (half : Nat) (byte : UInt8) : Drive σ UInt8 :=
  transferBits mode half (Byte.bits byte) 0

/-- Clocks bytes out, and others in behind those collected in reverse. -/
def collect (mode : Mode) (half : Nat) : List UInt8 → List UInt8 → Drive σ (List UInt8)
  | [], collected => pure collected.reverse
  | byte :: bytes, collected => do
    let back ← transferByte mode half byte
    collect mode half bytes (back :: collected)

/-- Clocks bytes out and answers those that came in. -/
def transfer (mode : Mode) (half : Nat) (bytes : List UInt8) : Drive σ (List UInt8) :=
  collect mode half bytes []

end Spi

end BusBench.BitBang
