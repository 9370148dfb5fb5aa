import BusBench.Binary.Session

/-!
# Binary UART

The engine `ART1` of the binary protocol. It never waits for the host while the device may have
something to say.

* `Binary.Uart.run`: serves UART commands until the byte 0, or the bridge until the link fails.
-/

namespace BusBench.Binary.Uart

open BusBench.Uart (Config numberedSpeeds)

variable {ω β : Type}

def banner : String := "ART1"

/-- The settings in force, and whether what the device sends is passed on. -/
structure State where
  config : Config := {}
  echo : Bool := false
  deriving DecidableEq, Repr

/-- Passes on what the device has sent. -/
def forward : Talk ω β Unit := do
  match ← Act.takeUart with
  | none => return
  | some bytes =>
    Act.dialogue do
      Link.sendAll bytes
      Link.flush

/-- Writes a byte to the device; a failure goes unnoticed. -/
def writeByte (byte : UInt8) : Talk ω β Unit :=
  Act.tell (.uart (.write [byte]))

/-- One round of the bridge: a byte to the device, if there is one, and whatever it has sent. -/
def bridgeRound (_ : Unit) : Talk ω β (Unit ⊕ Unit) := do
  match ← Act.dialogue Link.tryRead with
  | some byte => writeByte byte
  | none => pure ()
  forward
  return .inl ()

/-- Writes the next bytes to the device, each answered by 1. -/
def bulk : Nat → Talk ω β Unit
  | 0 => return
  | n + 1 => do
    let byte ← Act.dialogue Link.read
    writeByte byte
    reply 1
    bulk n

/-- Sets up the UART and replies whether it took the settings; answers those in force. -/
def reconfigure (config next : Config) : Talk ω β Config := do
  match ← Act.ask (.uart (.configure next)) with
  | .ok _ =>
    reply 1
    return next
  | .error _ =>
    reply 0
    return config

/-- Serves one command; the state is answered as long as the engine goes on. -/
def serveCommand (state : State) (command : UInt8) : Talk ω β (State ⊕ Unit) := do
  match command.toNat with
  | 0x00 => return .inr ()
  | 0x01 => sendBanner banner
  | 0x02 =>
    Act.tell (.uart .clear)
    reply 1
    return .inl { state with echo := true }
  | 0x03 =>
    reply 1
    return .inl { state with echo := false }
  | 0x07 => reply 0
  | 0x0F => serveUntil bridgeRound ()
  | n =>
    if 0x10 ≤ n ∧ n ≤ 0x1F then
      reply 1
      bulk (n % 16 + 1)
    else if 0x40 ≤ n ∧ n ≤ 0x4F then
      reply (← peripheralCommand command)
    else if 0x60 ≤ n ∧ n ≤ 0x6F then
      match numberedSpeeds[n % 16]? with
      | none => reply 0
      | some baud =>
        let config ← reconfigure state.config { state.config with baud }
        return .inl { state with config }
    else if 0x80 ≤ n ∧ n ≤ 0x9F then
      match state.config.withCommandByte command with
      | none => reply 0
      | some next =>
        let config ← reconfigure state.config next
        return .inl { state with config }
  return .inl state

/-- Serves the command that is there, if any. -/
def awaitCommand (state : State) : Talk ω β (State ⊕ Unit) := do
  Act.reach (.command .uart)
  match ← Act.dialogue Link.tryRead with
  | none => return .inl state
  | some command => serveCommand state command

/-- Passes on what the device has sent, if that is asked for, then awaits a command. -/
def serveRound (state : State) : Talk ω β (State ⊕ Unit) := do
  if state.echo then forward
  awaitCommand state

/-- Serves UART commands until the byte 0. Where the UART cannot be claimed, the engine is left
before it announces itself. -/
def run : Talk ω β Unit := do
  match ← Act.ask (.uart (.claim .mosi .miso {})) with
  | .error _ => return
  | .ok _ =>
    let result ← Act.attempt do
      sendBanner banner
      serveUntil serveRound {}
    Act.tell (.uart .release)
    Act.ofExcept result

end BusBench.Binary.Uart
