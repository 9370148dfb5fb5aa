import BusBench.Board.Claim
import BusBench.Link.Basic

/-!
# Parts of the binary protocol

What the engines of the binary protocol have in common: the byte `0100wxyz` that switches the rails
and drives AUX and chip select, and the frame of a transfer that writes and then reads.

* `Peripherals.ofCommandByte?`, `Peripherals.commandByte`: the settings of the byte.
* `Peripherals.apply`: carries them out.
* `readPaired`: the frame of a write-then-read command.
-/

namespace BusBench

/-- The settings carried by the byte `0100wxyz`. -/
structure Peripherals where
  power : Bool := false
  pullups : Bool := false
  aux : Bool := false
  cs : Bool := false
  deriving DecidableEq, Repr

namespace Peripherals

/-- The settings of a byte `0100wxyz`, `none` for any other byte. -/
def ofCommandByte? (byte : UInt8) : Option Peripherals :=
  if byte &&& 0xF0 ≠ 0x40 then none
  else
    some
      { power := Byte.bit byte 3
        pullups := Byte.bit byte 2
        aux := Byte.bit byte 1
        cs := Byte.bit byte 0 }

def commandByte (p : Peripherals) : UInt8 :=
  0x40 ||| (if p.power then 8 else 0) ||| (if p.pullups then 4 else 0) |||
    (if p.aux then 2 else 0) ||| (if p.cs then 1 else 0)

/-- Switches the rails and drives the pins; chip select only where AUX did not fail. -/
def apply {ω β τ ε : Type} (p : Peripherals) : Act ω β τ ε (Except BusError Unit) := do
  Act.tell (.power p.power)
  Act.tell (.pullups p.pullups)
  match ← Act.ask (.pin .aux (.output p.aux)) with
  | .error reason => return .error reason
  | .ok _ => Act.ask (.pin .cs (.output p.cs))

end Peripherals

namespace Binary

variable {ω β ε : Type}

/-- Programs that speak the binary protocol. -/
abbrev Talk (ω β : Type) := Act ω β Link LinkError

/-- The byte that answers a command: 1 where it was carried out, 0 where not. -/
def status (ok : Bool) : UInt8 :=
  if ok then 1 else 0

/-- Carries out a byte `0100wxyz`; answers the status byte to reply. -/
def peripheralCommand {τ : Type} (byte : UInt8) : Act ω β τ ε UInt8 := do
  match Peripherals.ofCommandByte? byte with
  | none => return 0
  | some p => return status (← p.apply).isOk

/-- Sends and flushes the letters that announce an engine. -/
def sendBanner (letters : String) : Talk ω β Unit :=
  Act.dialogue do
    Link.sendAll letters.toUTF8.toList
    Link.flush

/-- Sends and flushes a status byte. -/
def reply (byte : UInt8) : Talk ω β Unit :=
  Act.dialogue (Link.reply byte)

/-- Sends and flushes the status byte 1 and the data that belong to it. -/
def replyData (bytes : List UInt8) : Talk ω β Unit :=
  Act.dialogue do
    Link.send 1
    Link.sendAll bytes
    Link.flush

/-- Runs a round that reads something from the link until it answers. It ends because only so much
arrives, and fails when nothing is left. -/
@[specialize]
def serveUntil {σ α : Type} (round : σ → Talk ω β (σ ⊕ α)) (s : σ) : Talk ω β α := do
  rounds (throw .endOfInput) round ((← get).peer.incoming.length + 1) s

/-- The payload of a command that writes and then reads. -/
structure Paired where
  writes : List UInt8
  readCount : Nat
  deriving DecidableEq, Repr

/-- Reads two counts and the bytes to write. Where a count is zero the command is refused: the bytes
are dropped and 0 is replied. -/
def readPaired : Dialogue Link LinkError (Option Paired) := do
  let writeCount ← Link.readCount
  let readCount ← Link.readCount
  if writeCount = 0 ∨ readCount = 0 then
    Link.skip writeCount
    Link.reply 0
    return none
  else
    return some ⟨← Link.readExact writeCount, readCount⟩

end Binary

end BusBench
