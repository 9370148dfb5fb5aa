import BusBench.Prompt.I2c
import BusBench.Prompt.OneWire
import BusBench.Prompt.Spi
import BusBench.Prompt.Uart

/-!
# Modes

The text prompt is always in one mode. Entering a mode claims its bus, leaving it gives the bus
back.

* `ModeKind.all`: the modes in the order of their numbers.
* `Mode`: a mode with what it needs to work.
* `Mode.run`, `Mode.runShortcut`: sequences and macros in a mode.
-/

namespace BusBench

/-- The modes, without what belongs to them. -/
inductive ModeKind where
  | hiz
  | oneWire
  | uart
  | i2c
  | spi
  deriving DecidableEq, Repr

/-- What can be done in a mode besides running sequences. -/
structure Capabilities where
  /-- The pull-up resistors make sense on the bus. -/
  pullups : Bool := false
  /-- The mode shows the directions of its pins. -/
  pinDirections : Bool := false
  /-- The mode has a chip select that the user may drive. -/
  chipSelect : Bool := false
  deriving DecidableEq, Repr

/-- The capabilities as one number. -/
def Capabilities.bits (c : Capabilities) : Nat :=
  c.pullups.toNat + 2 * c.pinDirections.toNat + 4 * c.chipSelect.toNat

namespace ModeKind

/-- All modes, in the order of their numbers. -/
def all : List ModeKind :=
  [hiz, oneWire, uart, i2c, spi]

/-- The mode of a number, counted from one. -/
def ofNumber? : Nat → Option ModeKind
  | 0 => none
  | n + 1 => all[n]?

def name : ModeKind → String
  | hiz => "HiZ"
  | oneWire => "1-WIRE"
  | uart => "UART"
  | i2c => "I2C"
  | spi => "SPI"

def capabilities : ModeKind → Capabilities
  | hiz => { pinDirections := true }
  | oneWire => { pullups := true, pinDirections := true }
  | uart => { pullups := true, pinDirections := true }
  | i2c => { pullups := true }
  | spi => { pullups := true, pinDirections := true, chipSelect := true }

/-- What CLK, MOSI, CS and MISO are in the mode, in columns. -/
def pinFunctions : ModeKind → String
  | hiz => "CLK     MOSI    CS      MISO"
  | oneWire => "-       OWD     -       -"
  | uart => "-       TxD     -       RxD"
  | i2c => "SCL     SDA     -       -"
  | spi => "CLK     MOSI    CS      MISO"

/-- The directions of CLK, MOSI, CS and MISO in the mode, in columns. -/
def pinDirections : ModeKind → String
  | uart => "I       O       I       I"
  | spi => "O       O       O       I"
  | _ => "I       I       I       I"

end ModeKind

/-- A mode with what it needs to work. -/
inductive Mode where
  | hiz
  | oneWire (session : OneWire.Session)
  | uart
  | i2c (backing : Backing)
  | spi (session : Spi.Session)

namespace Mode

variable {ω β τ : Type}

def kind : Mode → ModeKind
  | hiz => .hiz
  | oneWire _ => .oneWire
  | uart => .uart
  | i2c _ => .i2c
  | spi _ => .spi

def holdsSelect : Mode → Bool
  | spi _ => true
  | _ => false

/-- Gives back what the mode holds. -/
def leave : Mode → Act ω β τ Error Unit
  | hiz => return
  | oneWire _ => OneWire.leave
  | uart => Uart.leave
  | i2c backing => I2c.leave backing
  | spi session => Spi.leave session

variable [Terminal τ]

/-- Asks for the settings of a mode and claims its bus. -/
def enter : ModeKind → Act ω β τ Error Mode
  | .hiz => return .hiz
  | .oneWire => return .oneWire (← OneWire.enter)
  | .uart => do
    Uart.enter
    return .uart
  | .i2c => return .i2c (← I2c.enter)
  | .spi => return .spi (← Spi.enter)

def run (actions : List Action) : Mode → Act ω β τ Error Unit
  | hiz => return
  | oneWire _ => OneWire.run actions
  | uart => Uart.run actions
  | i2c backing => I2c.run backing actions
  | spi session => Spi.run session actions

/-- Runs a macro of a mode that has none, which can still fail. -/
def runNoShortcut (key : UInt8) (mode : Mode) : Act ω β τ Error (Except Error Unit × Mode) := do
  let result ← Act.attempt (Act.dialogue (({} : MacroTable Unit).resolve key))
  return (result.map fun _ => (), mode)

/-- Runs a macro; answers how it went, and the mode afterwards. -/
def runShortcut (key : UInt8) (mode : Mode) : Act ω β τ Error (Except Error Unit × Mode) :=
  match mode with
  | hiz | spi _ => runNoShortcut key mode
  | oneWire session => do
    let (result, session) ← Act.withOwn session (OneWire.runShortcut key)
    return (result, .oneWire session)
  | uart => return (← Act.attempt (Uart.runShortcut key), mode)
  | i2c backing => return (← Act.attempt (I2c.runShortcut backing key), mode)

end Mode

end BusBench
