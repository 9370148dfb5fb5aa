import BusBench.Bus.Spi
import BusBench.Bus.Uart
import BusBench.Board.Volts

/-!
# What a board can be asked

A board hands out its pins and bus peripherals, and is then asked to operate them. Each request has
its own type of answer, and a board is a machine that answers every request.

* `Request`: everything that can be asked of a board.
* `Request.Answer`: the type of the answer to a request.
* `Board`: a machine with states `σ` that answers requests.
-/

namespace BusBench

/-- The pins of a board. `scl` and `sda` are those of a header that I2C has to itself. -/
inductive Pin where
  | mosi
  | clk
  | miso
  | cs
  | aux
  | scl
  | sda
  deriving DecidableEq, Repr

/-- The name printed on the board. -/
def Pin.name : Pin → String
  | mosi => "MOSI"
  | clk => "CLK"
  | miso => "MISO"
  | cs => "CS"
  | aux => "AUX"
  | scl => "SCL"
  | sda => "SDA"

def Pin.all : List Pin :=
  [mosi, clk, miso, cs, aux, scl, sda]

def Pin.ofName? (name : String) : Option Pin :=
  all.find? (·.name == name)

/-- Which of its two pins an I2C header brings out. -/
structure Header where
  scl : Bool := false
  sda : Bool := false
  deriving DecidableEq, Repr

inductive Probe where
  | adc
  | v3
  | v5
  | vpullup
  deriving DecidableEq, Repr

/-- The eight bytes that identify a 1-Wire device, as the 64 bits in the order in which they are
sent: bit `0` is the least significant bit of the first byte. -/
abbrev Rom := BitVec 64

namespace Rom

/-- Byte `i < 8` of the code; byte `0` is the family. -/
def byte (rom : Rom) (i : Nat) : UInt8 :=
  UInt8.ofNat (rom.toNat >>> (8 * i))

/-- The bytes of the code, family first. -/
def bytes (rom : Rom) : List UInt8 :=
  (List.range 8).map (byte rom)

/-- The code with the given bytes, family first. -/
def ofBytes (bytes : List UInt8) : Rom :=
  BitVec.ofNat 64 (bytes.foldr (fun b n => b.toNat + 256 * n) 0)

end Rom

/-- Exactly `n` bytes. -/
abbrev Bytes (n : Nat) := { bytes : List UInt8 // bytes.length = n }

namespace Bytes

/-- The `n` bytes `f 0`, `f 1` and so on. -/
def tabulate (n : Nat) (f : Nat → UInt8) : Bytes n :=
  ⟨(List.range n).map f, by rw [List.length_map, List.length_range]⟩

/-- The first `n` of the bytes, filled up with a byte where there are fewer. -/
def filled (n : Nat) (filler : UInt8) (bytes : List UInt8) : Bytes n :=
  ⟨bytes.take n ++ List.replicate (n - bytes.length) filler, by
    rw [List.length_append, List.length_take, List.length_replicate]; omega⟩

end Bytes

/-- Why a board does not hand out a resource. -/
inductive Unavailable where
  /-- There is no controller for the bus on these pins. -/
  | noHardware
  /-- The pin is claimed already. -/
  | pinBusy (pin : Pin)
  /-- The configuration cannot be produced. -/
  | unsupported
  deriving DecidableEq, Repr

/-- Why a transfer or pin operation failed. -/
inductive BusError where
  /-- No device acknowledged. -/
  | nack
  /-- The peripheral or a pin reported an error. -/
  | fault
  deriving DecidableEq, Repr

def Unavailable.message : Unavailable → String
  | noHardware => "no hardware peripheral on these pins"
  | pinBusy pin => "pin " ++ pin.name ++ " is already in use"
  | unsupported => "configuration not supported"

def BusError.message : BusError → String
  | nack => "no acknowledgement from device"
  | fault => "bus fault"

/-- What stands behind an I2C or SPI bus. -/
inductive Backing where
  /-- A controller of the board. -/
  | hardware
  /-- Pins driven one change at a time. -/
  | bitBanged
  deriving DecidableEq, Repr

/-! ## Requests -/

inductive I2cCall where
  | claim (clock data : Pin) (hz : Nat)
  | release
  | lock
  | unlock
  | setFrequency (hz : Nat)
  | write (address : UInt8) (bytes : List UInt8)
  | read (address : UInt8) (count : Nat)
  | writeRead (address : UInt8) (bytes : List UInt8) (count : Nat)
  deriving DecidableEq, Repr

inductive SpiCall where
  | claim
  | release
  | lock
  | unlock
  | configure (config : Spi.Config)
  /-- Clocks the bytes out and answers those that came back. -/
  | transfer (bytes : List UInt8)
  deriving DecidableEq, Repr

inductive UartCall where
  | claim (tx rx : Pin) (config : Uart.Config)
  | release
  | configure (config : Uart.Config)
  | write (bytes : List UInt8)
  /-- Takes up to `count` bytes out of the receive buffer. -/
  | read (count : Nat)
  /-- How many bytes are in the receive buffer. -/
  | available
  | clear
  deriving DecidableEq, Repr

inductive OneWireCall where
  | claim (pin : Pin)
  | release
  /-- Answers whether any device is present. -/
  | reset
  | write (bytes : List UInt8)
  | read (count : Nat)
  | search
  deriving DecidableEq, Repr

inductive PinCall where
  | claim
  | release
  | output (high : Bool)
  | input
  | sample
  deriving DecidableEq, Repr

/-- Everything that can be asked of a board. -/
inductive Request where
  | i2c (backing : Backing) (call : I2cCall)
  | spi (backing : Backing) (call : SpiCall)
  | uart (call : UartCall)
  | oneWire (call : OneWireCall)
  | pin (pin : Pin) (call : PinCall)
  | power (on : Bool)
  | pullups (on : Bool)
  | modeLed (on : Bool)
  | voltage (probe : Probe)
  | delay (ms : Nat)
  deriving DecidableEq, Repr

/-! ## Answers -/

abbrev I2cCall.Answer : I2cCall → Type
  | claim .. => Except Unavailable Unit
  | release | unlock => Unit
  | lock => Bool
  | setFrequency .. | write .. => Except BusError Unit
  | read _ count | writeRead _ _ count => Except BusError (Bytes count)

abbrev SpiCall.Answer : SpiCall → Type
  | claim => Except Unavailable Unit
  | release | unlock => Unit
  | lock => Bool
  | configure _ => Except BusError Unit
  | transfer bytes => Except BusError (Bytes bytes.length)

abbrev UartCall.Answer : UartCall → Type
  | claim .. => Except Unavailable Unit
  | release | clear => Unit
  | configure _ | write _ => Except BusError Unit
  | read count => { bytes : List UInt8 // bytes.length ≤ count }
  | available => Nat

abbrev OneWireCall.Answer : OneWireCall → Type
  | claim _ => Except Unavailable Unit
  | release => Unit
  | reset => Except BusError Bool
  | write _ => Except BusError Unit
  | read count => Except BusError (Bytes count)
  | search => Except BusError (List Rom)

abbrev PinCall.Answer : PinCall → Type
  | claim => Except Unavailable Unit
  | release => Unit
  | output _ | input => Except BusError Unit
  | sample => Except BusError Bool

abbrev Request.Answer : Request → Type
  | i2c _ call => call.Answer
  | spi _ call => call.Answer
  | uart call => call.Answer
  | oneWire call => call.Answer
  | pin _ call => call.Answer
  | power _ | pullups _ | modeLed _ | delay _ => Unit
  | voltage _ => Volts

/-- A machine with states `σ` that answers requests. -/
structure Board (σ : Type) where
  name : String
  header : Header
  answer : (request : Request) → σ → request.Answer × σ

structure Exchange where
  request : Request
  answer : request.Answer

/-- The pins of I2C where nobody is asked: the header if it brings out both, else clock and data of
the other buses. -/
def Header.i2cPins (header : Header) : Pin × Pin :=
  if header.scl && header.sda then (.scl, .sda) else (.clk, .mosi)

end BusBench
