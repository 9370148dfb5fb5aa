import BusBench.Binary.I2c
import BusBench.Binary.Spi
import BusBench.Binary.Uart

/-!
# The binary protocol

The root of the binary protocol announces itself with `BBIO1`, hands over to an engine for SPI, I2C
or UART, and announces itself anew when the engine is left. The byte `0x0F` ends the protocol.

* `Binary.run`: serves the binary protocol.
-/

namespace BusBench.Binary

variable {ω β : Type}

def banner : String := "BBIO1"

inductive Engine where
  | spi
  | i2c
  | uart
  deriving DecidableEq, Repr

/-- The engine that a command byte asks for. -/
def Engine.ofCommandByte? (byte : UInt8) : Option Engine :=
  match byte.toNat with
  | 0x01 => some .spi
  | 0x02 => some .i2c
  | 0x03 => some .uart
  | _ => none

def Engine.run : Engine → Talk ω β Unit
  | spi => Spi.run
  | i2c => I2c.run
  | uart => Uart.run

/-- Serves one command of the root; answers as soon as the protocol is left. Commands for engines
and pins that are not there are ignored. -/
def serveRound (_ : Unit) : Talk ω β (Unit ⊕ Unit) := do
  Act.reach (.command .root)
  let command ← Act.dialogue Link.read
  if command = 0x00 then
    sendBanner banner
    return .inl ()
  else if command = 0x0F then
    reply 1
    return .inr ()
  else
    match Engine.ofCommandByte? command with
    | none => return .inl ()
    | some engine =>
      engine.run
      sendBanner banner
      return .inl ()

/-- Serves the binary protocol until the host leaves it. -/
def run : Talk ω β Unit := do
  sendBanner banner
  serveUntil serveRound ()

end BusBench.Binary
