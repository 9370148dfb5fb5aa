import BusBench.BitBang.I2c
import BusBench.BitBang.OneWire
import BusBench.BitBang.Spi
import BusBench.Text.Numeral

/-!
# Scripted pins

Pins whose levels are prepared and whose operations may fail at prepared moments. Everything that
happens to them is kept as a trace.

* `PinEvent`: what can happen to the pins.
* `Scripted`: the state of scripted pins.
-/

namespace BusBench.BitBang

/-- Something that happened to the lines `L`. -/
inductive PinEvent (L : Type) where
  | drove (line : L) (high : Bool)
  | sampled (line : L) (high : Bool)
  /-- An operation failed. -/
  | failed (line : L)
  | waited (us : Nat)
  deriving DecidableEq, Repr

structure Scripted (L : Type) where
  /-- The levels still to be sampled; after them every line is high. -/
  levels : List Bool := []
  /-- The numbers, from one, of the operations that fail. -/
  failing : List Nat := []
  /-- How many operations there have been. -/
  operations : Nat := 0
  /-- A line whose driven level is sampled instead of the prepared ones. -/
  looped? : Option L := none
  /-- The level to which that line was driven last. -/
  loopLevel : Bool := true
  /-- What happened, the newest first. -/
  trace : List (PinEvent L) := []

namespace Scripted

variable {L : Type}

/-- Counts an operation, and fails if it is one that does. -/
def count (line : L) : Drive (Scripted L) Unit := do
  modify fun pins => { pins with operations := pins.operations + 1 }
  let pins ← get
  if pins.failing.contains pins.operations then
    set { pins with trace := .failed line :: pins.trace }
    throw .pin

def drive [DecidableEq L] (line : L) (high : Bool) : Drive (Scripted L) Unit := do
  count line
  modify fun pins =>
    { pins with
      loopLevel := if pins.looped? = some line then high else pins.loopLevel
      trace := .drove line high :: pins.trace }

def sample (line : L) : Drive (Scripted L) Bool := do
  count line
  let pins ← get
  let (level, levels) :=
    if pins.looped?.isSome then (pins.loopLevel, pins.levels)
    else (pins.levels.headD true, pins.levels.tail)
  set { pins with levels, trace := .sampled line level :: pins.trace }
  return level

def wait (us : Nat) : Drive (Scripted L) Unit :=
  modify fun pins => { pins with trace := .waited us :: pins.trace }

instance [DecidableEq L] : Gpio (Scripted L) L where
  drive := drive
  sample := sample
  wait := wait

/-- A number of passes that no 1-Wire search reaches: each of them samples the line, and after the
prepared levels it shows no presence. -/
def searchLimit (pins : Scripted OneWireLine) : Nat :=
  pins.levels.length + 2

end Scripted

/-! ## Traces as text -/

def I2cLine.letter : I2cLine → Char
  | scl => 'c'
  | sda => 'd'

/-- The letter of an SPI line; MISO is never driven. -/
def SpiLine.letter : SpiLine → Char
  | sck => 'c'
  | mosi => 'o'
  | miso => 'i'

def OneWireLine.letter : OneWireLine → Char
  | wire => 'p'

/-- What an event looks like: the letter of a driven line, in upper case for high; the digit of a
sampled level; an exclamation mark for a failure; a time in parentheses. -/
def PinEvent.text {L : Type} (letter : L → Char) : PinEvent L → String
  | drove line high =>
    String.singleton (if high then (letter line).toUpper else letter line)
  | sampled _ high => if high then "1" else "0"
  | failed _ => "!"
  | waited us => "(" ++ Text.decimal us ++ ")"

/-- A trace whose newest event stands first, as text that begins with the oldest. -/
def traceText {L : Type} (letter : L → Char) (trace : List (PinEvent L)) : String :=
  trace.reverse.foldl (fun text event => text ++ event.text letter) ""

end BusBench.BitBang
