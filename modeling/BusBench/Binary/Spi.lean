import BusBench.Binary.Session

/-!
# Binary SPI

The engine `SPI1` of the binary protocol. It holds the bus and its lock until it is left.

* `Binary.Spi.run`: serves SPI commands until the byte 0.
-/

namespace BusBench.Binary.Spi

open BusBench.Spi (Config Speed)

variable {ω β ε : Type}

def banner : String := "SPI1"

/-- Sets up the bus; answers whether it took the settings. -/
def configure (backing : Backing) (config : Config) : Talk ω β Bool := do
  let answer : Except BusError Unit ← Act.ask (.spi backing (.configure config))
  return answer.isOk

/-- Writes, and reads where that succeeded. -/
def writeThenRead (backing : Backing) (paired : Paired) :
    Act ω β Link ε (Except BusError (List UInt8)) := do
  match ← Act.writeSpi backing paired.writes with
  | .error reason => return .error reason
  | .ok _ => Act.readSpi backing paired.readCount

/-- Writes and reads while chip select is low. Nothing is transferred where it cannot be driven low,
and the transfer failed where it cannot be driven high again. -/
def selectedWriteThenRead (backing : Backing) (paired : Paired) :
    Act ω β Link ε (Except BusError (List UInt8)) := do
  match ← Act.ask (.pin .cs (.output false)) with
  | .error reason => return .error reason
  | .ok _ =>
    let result ← writeThenRead backing paired
    match ← Act.ask (.pin .cs (.output true)) with
    | .ok _ => return result
    | .error reason =>
      match result with
      | .ok _ => return .error reason
      | .error earlier => return .error earlier

/-- Replies the bytes that were read, or 0 where the transfer failed. -/
def replyResult : Except BusError (List UInt8) → Talk ω β Unit
  | .ok bytes => replyData bytes
  | .error _ => reply 0

/-- Serves one command; the settings are answered as long as the engine goes on. -/
def serveRound (backing : Backing) (config : Config) : Talk ω β (Config ⊕ Unit) := do
  Act.reach (.command .spi)
  let command ← Act.dialogue Link.read
  match command.toNat with
  | 0x00 => return .inr ()
  | 0x01 => sendBanner banner
  | 0x02 | 0x03 =>
    let answer : Except BusError Unit ← Act.ask (.pin .cs (.output (command = 0x03)))
    reply (status answer.isOk)
  | 0x04 =>
    match ← Act.dialogue readPaired with
    | some paired => replyResult (← selectedWriteThenRead backing paired)
    | none => pure ()
  | 0x05 =>
    match ← Act.dialogue readPaired with
    | some paired => replyResult (← writeThenRead backing paired)
    | none => pure ()
  | n =>
    if 0x10 ≤ n ∧ n ≤ 0x1F then
      let bytes ← Act.dialogue (Link.readExact (n % 16 + 1))
      let answer : Except BusError _ ← Act.ask (.spi backing (.transfer bytes))
      replyResult (answer.map (·.val))
    else if 0x40 ≤ n ∧ n ≤ 0x4F then
      reply (← peripheralCommand command)
    else if 0x60 ≤ n ∧ n ≤ 0x67 then
      let config := { config with speed := (Speed.ofIndex? (n % 8)).getD config.speed }
      reply (status (← configure backing config))
      return .inl config
    else if 0x80 ≤ n ∧ n ≤ 0x8F then
      -- Outputs in open drain and sampling at the end are refused.
      if command &&& 0x09 ≠ 0x08 then reply 0
      else
        let config := config.withCommandByte command
        reply (status (← configure backing config))
        return .inl config
  return .inl config

/-- Sets up the bus and serves commands. -/
def serve (backing : Backing) : Talk ω β Unit := do
  let config : Config := {}
  let _ ← configure backing config
  sendBanner banner
  serveUntil (serveRound backing) config

/-- Serves SPI commands until the byte 0. Where the bus cannot be claimed or locked, the engine is
left before it announces itself. -/
def run : Talk ω β Unit := do
  match ← Act.claimSpi with
  | .error _ => return
  | .ok backing =>
    let granted : Bool ← Act.ask (.spi backing .lock)
    if granted then
      let result ← Act.attempt (serve backing)
      Act.tell (.spi backing .unlock)
      Act.tell (.spi backing .release)
      Act.ofExcept result
    else Act.tell (.spi backing .release)

end BusBench.Binary.Spi
