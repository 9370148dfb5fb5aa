import BusBench.Bus.I2c
import BusBench.World

/-!
# Claiming a bus

Where a board has no controller for a bus, the bus is bit-banged on the same pins.

* `Act.claimI2c`, `Act.claimSpi`: a bus, and what stands behind it.
-/

namespace BusBench.Act

variable {ω β τ ε : Type}

/-- Claims an I2C bus on two pins: the controller, or else the pins themselves. -/
def claimI2c (clock data : Pin) (hz : Nat) : Act ω β τ ε (Except Unavailable Backing) := do
  match ← ask (.i2c .hardware (.claim clock data hz)) with
  | .ok _ => return .ok .hardware
  | .error _ =>
    let answer : Except Unavailable Unit ← ask (.i2c .bitBanged (.claim clock data hz))
    return answer.map fun _ => .bitBanged

/-- Claims the SPI bus: the controller, or else the pins themselves. -/
def claimSpi : Act ω β τ ε (Except Unavailable Backing) := do
  match ← ask (.spi .hardware .claim) with
  | .ok _ => return .ok .hardware
  | .error _ =>
    let answer : Except Unavailable Unit ← ask (.spi .bitBanged .claim)
    return answer.map fun _ => .bitBanged

/-- The addresses that acknowledge an empty write, the reserved ranges left out. -/
def scanI2c (backing : Backing) : Act ω β τ ε (List UInt8) :=
  I2c.scanned.filterM fun address => do
    let answer : Except BusError Unit ← ask (.i2c backing (.write address []))
    return answer.isOk

/-- Reads by sending zeros. -/
def readSpi (backing : Backing) (count : Nat) : Act ω β τ ε (Except BusError (List UInt8)) := do
  let answer : Except BusError _ ← ask (.spi backing (.transfer (List.replicate count 0)))
  return answer.map (·.val)

/-- Writes, and drops what comes back. -/
def writeSpi (backing : Backing) (bytes : List UInt8) : Act ω β τ ε (Except BusError Unit) := do
  let answer : Except BusError _ ← ask (.spi backing (.transfer bytes))
  return answer.map fun _ => ()

/-- Takes what a UART has received out of its buffer, up to 64 bytes; `none` if there is nothing. -/
def takeUart : Act ω β τ ε (Option (List UInt8)) := do
  let available : Nat ← ask (.uart .available)
  let waiting := min available 64
  if waiting = 0 then return none
  let bytes : { bytes : List UInt8 // bytes.length ≤ waiting } ← ask (.uart (.read waiting))
  return some bytes.val

end BusBench.Act
