import BusBench.Bus.Byte

/-!
# UART settings

* `Config.withCommandByte`: the settings with the frame format of a byte, if the format is
  supported.
-/

namespace BusBench.Uart

inductive Parity where
  | none
  | even
  | odd
  deriving DecidableEq, Repr

structure Config where
  baud : Nat := 300
  dataBits : Nat := 8
  parity : Parity := .none
  stopBits : Nat := 1
  deriving DecidableEq, Repr, Inhabited

/-- The baud rates of the speed menu, in menu order. -/
def menuSpeeds : List Nat :=
  [300, 1200, 2400, 4800, 9600, 19200, 38400, 57600, 115200, 31250]

/-- The baud rates that the binary protocol numbers, in the order of their numbers. -/
def numberedSpeeds : List Nat :=
  [300, 1200, 2400, 4800, 9600, 19200, 31250, 38400, 57600, 115200]

namespace Config

/-- The settings with a frame format: 8N, 8E, 8O or 9N by number, and one or two stop bits. -/
def withFormat (config : Config) (format : Nat) (twoStopBits : Bool) : Config :=
  let (dataBits, parity) : Nat × Parity :=
    match format with
    | 1 => (8, .even)
    | 2 => (8, .odd)
    | 3 => (9, .none)
    | _ => (8, .none)
  { config with dataBits, parity, stopBits := if twoStopBits then 2 else 1 }

/-- The settings with the frame format of a byte `100wxxyz`: `w` asks for driven outputs, `xx`
numbers the format, `y` doubles the stop bit, `z` inverts the receiver. Open drain outputs and an
inverted receiver are not supported. -/
def withCommandByte (config : Config) (byte : UInt8) : Option Config :=
  if byte &&& 0xE0 ≠ 0x80 ∨ byte &&& 0x10 = 0 ∨ byte &&& 0x01 ≠ 0 then none
  else some (config.withFormat ((byte >>> 2) &&& 3).toNat (byte &&& 0x02 ≠ 0))

end Config

end BusBench.Uart
