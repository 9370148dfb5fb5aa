import BusBench.BitBang.Gpio
import BusBench.Bus.I2c

/-!
# Bit-banged I2C

An I2C controller on two open-drain lines. A device cannot stretch the clock.

* `I2c.write`, `I2c.read`, `I2c.writeRead`: whole transactions, which end with a stop also where
  they fail.
-/

namespace BusBench.BitBang

inductive I2cLine where
  | scl
  | sda
  deriving DecidableEq, Repr

namespace I2c

open Gpio (wait)
open BusBench.I2c (readAddress writeAddress)

variable {σ α : Type} [Gpio σ I2cLine]

def scl (high : Bool) : Drive σ Unit :=
  Gpio.drive .scl high

def sda (high : Bool) : Drive σ Unit :=
  Gpio.drive .sda high

def idle : Drive σ Unit := do
  sda true
  scl true

/-- A start, or a repeated start where the bus is in use already. -/
def start (half : Nat) : Drive σ Unit := do
  sda true
  scl true
  wait half
  sda false
  wait half
  scl false

def stop (half : Nat) : Drive σ Unit := do
  sda false
  scl true
  wait half
  sda true
  wait half

def writeBit (half : Nat) (bit : Bool) : Drive σ Unit := do
  sda bit
  wait half
  scl true
  wait half
  scl false

/-- Clocks a byte out, most significant bit first; answers whether it was acknowledged. -/
def writeByte (half : Nat) (byte : UInt8) : Drive σ Bool := do
  (Byte.bits byte).forM (writeBit half)
  sda true
  wait half
  scl true
  wait half
  let high ← Gpio.sample I2cLine.sda
  scl false
  return !high

def readBit (half : Nat) : Drive σ Bool := do
  wait half
  scl true
  wait half
  let high ← Gpio.sample I2cLine.sda
  scl false
  return high

/-- Clocks bits in, behind those of a byte. -/
def readBits (half : Nat) : Nat → UInt8 → Drive σ UInt8
  | 0, byte => pure byte
  | n + 1, byte => do
    let bit ← readBit half
    readBits half n (Byte.shiftIn byte bit)

/-- Clocks a byte in, and acknowledges it or not. -/
def readByte (half : Nat) (acknowledge : Bool) : Drive σ UInt8 := do
  sda true
  let byte ← readBits half 8 0
  sda !acknowledge
  wait half
  scl true
  wait half
  scl false
  sda true
  return byte

/-- Clocks a byte out that has to be acknowledged. -/
def send (half : Nat) (byte : UInt8) : Drive σ Unit := do
  if !(← writeByte half byte) then throw .nack

/-- Clocks bytes in and acknowledges all but the last. -/
def receive (half : Nat) : Nat → Drive σ (List UInt8)
  | 0 => pure []
  | n + 1 => do
    let byte ← readByte half (n ≠ 0)
    return byte :: (← receive half n)

/-- Runs a program between a start and a stop. The stop is sent also where the program fails. -/
def transaction (half : Nat) (body : Drive σ α) : Drive σ α := do
  start half
  let result ← ExceptT.lift body.run
  stop half
  liftExcept result

def write (half : Nat) (address : UInt8) (bytes : List UInt8) : Drive σ Unit :=
  transaction half do
    send half (writeAddress address)
    bytes.forM (send half)

def read (half : Nat) (address : UInt8) (count : Nat) : Drive σ (List UInt8) :=
  transaction half do
    send half (readAddress address)
    receive half count

/-- Writes bytes to a device and reads from it after a repeated start. -/
def writeRead (half : Nat) (address : UInt8) (bytes : List UInt8) (count : Nat) :
    Drive σ (List UInt8) :=
  transaction half do
    send half (writeAddress address)
    bytes.forM (send half)
    start half
    send half (readAddress address)
    receive half count

/-- The addresses from 0x08 to 0x77 that acknowledge an empty write. -/
def scan (half : Nat) : Drive σ (List UInt8) :=
  BusBench.I2c.scanned.filterM fun address => do
    let result ← ExceptT.lift (write half address []).run
    return result.isOk

end I2c

/-- A bit-banged I2C controller: its timing and its lock. -/
structure I2cController where
  half : Nat
  locked : Bool := false
  deriving DecidableEq, Repr

namespace I2cController

/-- A controller that is not locked. -/
def atFrequency (hz : Nat) : I2cController where
  half := halfPeriod hz

def withFrequency (controller : I2cController) (hz : Nat) : I2cController :=
  { controller with half := halfPeriod hz }

/-- Takes the lock; answers whether it was free. -/
def tryLock (controller : I2cController) : Bool × I2cController :=
  (!controller.locked, { controller with locked := true })

def unlock (controller : I2cController) : I2cController :=
  { controller with locked := false }

end I2cController

end BusBench.BitBang
