import BusBench.Board.Claim
import BusBench.Prompt.MacroTable
import BusBench.Sequence.Action

/-!
# The UART mode

Sequences write and read bytes; the macros connect the user to the device.

* `Uart.run`: runs a sequence.
* `Uart.bridge`, `Uart.monitor`: pass bytes on as they come.
-/

namespace BusBench.Uart

variable {ω β τ : Type} [Terminal τ]

def runAction : Action → Act ω β τ Error Unit
  | .start => Act.tell (.uart .clear)
  | .write value count => do
    let bytes := List.replicate count.toNat value
    Act.dialogue (Terminal.writeBytesLine "WRITE" bytes)
    Act.done (← Act.ask (.uart (.write bytes)))
  | .read count => do
    let bytes : { bytes : List UInt8 // bytes.length ≤ count.toNat } ←
      Act.ask (.uart (.read count.toNat))
    if !bytes.val.isEmpty then Act.dialogue (Terminal.writeBytesLine "READ" bytes.val)
  | _ => return

def run (actions : List Action) : Act ω β τ Error Unit :=
  actions.forM runAction

/-! ## Macros -/

/-- Passes on what the device has sent. -/
def forward : Act ω β τ Error Unit := do
  match ← Act.takeUart with
  | some bytes => Act.dialogue (Terminal.writeBytes bytes)
  | none => return

/-- One round of the bridge: a byte to the device, if there is one, and whatever it has sent. -/
def bridgeRound (_ : Unit) : Act ω β τ Error (Unit ⊕ Unit) := do
  match ← Act.dialogue Terminal.pollKey with
  | some key => Act.done (← Act.ask (.uart (.write [key])))
  | none => pure ()
  forward
  return .inl ()

/-- Passes bytes both ways until the link to the user fails. -/
def bridge : Act ω β τ Error Unit := do
  Act.writeLine "UART bridge"
  Act.writeLine "Reset to exit"
  match ← Act.dialogue (Terminal.readLine "Are you sure? ") with
  | .modeSwitch => throw .modeSwitch
  | .text answer => if Text.trim answer = ['y'] then Act.askUntil bridgeRound ()

/-- One round of the monitor, which ends at a key. -/
def monitorRound (_ : Unit) : Act ω β τ Error (Unit ⊕ Unit) := do
  match ← Act.dialogue Terminal.pollKey with
  | some _ => return .inr ()
  | none =>
    forward
    return .inl ()

/-- Shows what the device sends until a key is pressed. -/
def monitor : Act ω β τ Error Unit := do
  Act.writeLine "Raw UART input"
  Act.writeLine "Any key to exit"
  Act.askUntil monitorRound ()

inductive Shortcut where
  | bridge
  | monitor
  deriving DecidableEq, Repr

def shortcuts : MacroTable Shortcut :=
  .ofList
    [(1, "Transparent bridge", .bridge), (2, "Live monitor", .monitor),
     (3, "Bridge with flow control", .bridge)]

def runShortcut (key : UInt8) : Act ω β τ Error Unit := do
  match ← Act.dialogue (shortcuts.resolve key) with
  | some .bridge => bridge
  | some .monitor => monitor
  | none => return

/-! ## Entering -/

def askConfig : Dialogue τ Error Config := do
  let speeds := menuSpeeds.map Text.decimal
  let speed ← Terminal.select "Set serial port speed: (bps)" speeds 0
  let format ←
    Terminal.select "Data bits and parity:" ["8, NONE *default", "8, EVEN", "8, ODD", "9, NONE"] 0
  let stop ← Terminal.select "Stop bits:" ["1 *default", "2"] 0
  return { baud := menuSpeeds.getD speed 0 : Config }.withFormat format (stop = 1)

/-- Asks for the settings and claims the UART. -/
def enter : Act ω β τ Error Unit := do
  let config ← Act.dialogue askConfig
  Act.claimed (← Act.ask (.uart (.claim .mosi .miso config)))

omit [Terminal τ] in
def leave : Act ω β τ Error Unit :=
  Act.tell (.uart .release)

end BusBench.Uart
