import BusBench.Bus.Byte

/-!
# SPI settings

The settings of an SPI bus and their one-byte form: bit 3 switches the outputs between open drain
and 3.3 V, bit 2 is the idle level of the clock, bit 1 the edge on which data changes, bit 0 the
moment of sampling. The speed is set apart from them.

* `Config.withCommandByte`: the settings with the format of a byte.
* `Config.commandByte`: the byte of the format.
-/

namespace BusBench.Spi

/-- The clock speeds, slowest first. -/
inductive Speed where
  | khz30
  | khz125
  | khz250
  | mhz1
  | mhz2
  | mhz2point6
  | mhz4
  | mhz8
  deriving DecidableEq, Repr

namespace Speed

def all : List Speed :=
  [khz30, khz125, khz250, mhz1, mhz2, mhz2point6, mhz4, mhz8]

/-- The speed of an index, `none` above the last. -/
def ofIndex? (index : Nat) : Option Speed :=
  all[index]?

def hz : Speed → Nat
  | khz30 => 30000
  | khz125 => 125000
  | khz250 => 250000
  | mhz1 => 1000000
  | mhz2 => 2000000
  | mhz2point6 => 2600000
  | mhz4 => 4000000
  | mhz8 => 8000000

end Speed

/-- How the outputs are driven. -/
inductive PinOutput where
  | openDrain
  | push3V3
  deriving DecidableEq, Repr

/-- The level of a resting clock. -/
inductive ClockIdle where
  | low
  | high
  deriving DecidableEq, Repr

/-- The clock transition on which output data changes. -/
inductive ClockEdge where
  | idleToActive
  | activeToIdle
  deriving DecidableEq, Repr

/-- When within a clock period input is sampled. -/
inductive SampleTime where
  | middle
  | last
  deriving DecidableEq, Repr

/-- On which transition of a clock pulse input is captured. -/
inductive Phase where
  | first
  | second
  deriving DecidableEq, Repr

structure Mode where
  idle : ClockIdle
  phase : Phase
  deriving DecidableEq, Repr

/-- The modes by their usual numbers. -/
def Mode.ofNumber : Nat → Mode
  | 0 => ⟨.low, .first⟩
  | 1 => ⟨.low, .second⟩
  | 2 => ⟨.high, .first⟩
  | _ => ⟨.high, .second⟩

structure Config where
  speed : Speed := .khz30
  output : PinOutput := .openDrain
  idle : ClockIdle := .low
  edge : ClockEdge := .activeToIdle
  sample : SampleTime := .middle
  deriving DecidableEq, Repr, Inhabited

namespace Config

/-- The byte that sets the format of this configuration. -/
def commandByte (config : Config) : UInt8 :=
  0x80 ||| (match config.output with | .openDrain => 0 | .push3V3 => 8) |||
    (match config.idle with | .low => 0 | .high => 4) |||
    (match config.edge with | .idleToActive => 0 | .activeToIdle => 2) |||
    (match config.sample with | .middle => 0 | .last => 1)

/-- The settings with the format bits of a byte and the same speed. -/
def withCommandByte (config : Config) (byte : UInt8) : Config where
  speed := config.speed
  output := if Byte.bit byte 3 then .push3V3 else .openDrain
  idle := if Byte.bit byte 2 then .high else .low
  edge := if Byte.bit byte 1 then .activeToIdle else .idleToActive
  sample := if Byte.bit byte 0 then .last else .middle

/-- The clock mode. Output that changes on the active-to-idle edge is captured on the first one. -/
def mode (config : Config) : Mode where
  idle := config.idle
  phase :=
    match config.edge with
    | .activeToIdle => .first
    | .idleToActive => .second

end Config

end BusBench.Spi
