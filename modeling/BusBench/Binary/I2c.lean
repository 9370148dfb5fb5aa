import BusBench.Binary.Session
import BusBench.Prompt.I2c

/-!
# Binary I2C

The engine `I2C1` of the binary protocol. Start and stop belong to each transaction, so the commands
that frame are only acknowledged and those of single bits ignored.

* `Binary.I2c.run`: serves I2C commands until the byte 0.
-/

namespace BusBench.Binary.I2c

variable {ω β ε α : Type}

def banner : String := "I2C1"

/-- Runs a transaction under the bus lock, `none` where the lock is refused. -/
def locked (backing : Backing) (transaction : Act ω β Link ε α) : Act ω β Link ε (Option α) := do
  let granted : Bool ← Act.ask (.i2c backing .lock)
  if !granted then return none
  let result ← Act.attempt transaction
  Act.tell (.i2c backing .unlock)
  return some (← Act.ofExcept result)

/-- Writes all but the first byte to the device of the first byte, then reads; without anything to
write it only reads. -/
def writeThenRead (backing : Backing) (paired : Paired) :
    Act ω β Link ε (Except BusError (List UInt8)) := do
  let device := paired.writes.headD 0 >>> 1
  let payload := paired.writes.tail
  if payload.isEmpty then
    let answer : Except BusError _ ← Act.ask (.i2c backing (.read device paired.readCount))
    return answer.map (·.val)
  else
    let answer : Except BusError _ ←
      Act.ask (.i2c backing (.writeRead device payload paired.readCount))
    return answer.map (·.val)

/-- Writes all but the first byte to the device of the first byte. -/
def writeBulk (backing : Backing) (bytes : List UInt8) : Act ω β Link ε (Except BusError Unit) :=
  Act.ask (.i2c backing (.write (bytes.headD 0 >>> 1) bytes.tail))

/-- Serves one command; answers as soon as the engine is left. -/
def serveRound (backing : Backing) (_ : Unit) : Talk ω β (Unit ⊕ Unit) := do
  Act.reach (.command .i2c)
  let command ← Act.dialogue Link.read
  match command.toNat with
  | 0x00 => return .inr ()
  | 0x01 => sendBanner banner
  | 0x02 | 0x03 => reply 1
  | 0x08 | 0x09 =>
    match ← Act.dialogue readPaired with
    | none => pure ()
    | some paired =>
      match ← locked backing (writeThenRead backing paired) with
      | some (.ok bytes) => replyData bytes
      | _ => reply 0
  | n =>
    if 0x10 ≤ n ∧ n ≤ 0x1F then
      let bytes ← Act.dialogue (Link.readExact (n % 16 + 1))
      -- Every byte is answered by an acknowledge bit, which is 0 where the device acknowledged.
      let bit : UInt8 :=
        match ← locked backing (writeBulk backing bytes) with
        | some (.ok _) => 0
        | _ => 1
      replyData (List.replicate bytes.length bit)
    else if 0x40 ≤ n ∧ n ≤ 0x4F then
      reply (← peripheralCommand command)
    else if 0x60 ≤ n ∧ n ≤ 0x6F then
      match BusBench.I2c.speedsKhz[n % 16]? with
      | none => reply 0
      | some khz =>
        let answer : Except BusError Unit ← Act.ask (.i2c backing (.setFrequency (khz * 1000)))
        reply (status answer.isOk)
  return .inl ()

/-- Serves I2C commands until the byte 0. Where the bus cannot be claimed, the engine is left before
it announces itself. -/
def run : Talk ω β Unit := do
  let board ← read
  let (clock, data) := board.header.i2cPins
  match ← Act.claimI2c clock data 100000 with
  | .error _ => return
  | .ok backing =>
    let result ← Act.attempt do
      sendBanner banner
      serveUntil (serveRound backing) ()
    Act.tell (.i2c backing .release)
    Act.ofExcept result

end BusBench.Binary.I2c
