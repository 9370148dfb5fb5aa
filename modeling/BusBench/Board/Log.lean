import BusBench.Board.Request

/-!
# The log line of a board request

Each exchange with a board is written on one line: the resource and the operation with a dot between
them, its arguments, and a mark for a refusal or failure.

* `Request.word`: the first word of the line.
* `Exchange.line?`: the line; only the question how much a UART has received has none.
-/

namespace BusBench

open Text (decimal hex hexBytes hexByte)

/-! ## Words -/

/-- The word of a bus that may be bit-banged. -/
def Backing.word (bus : String) : Backing → String
  | hardware => bus
  | bitBanged => "soft_" ++ bus

def Probe.word : Probe → String
  | adc => "Adc"
  | v3 => "V3"
  | v5 => "V5"
  | vpullup => "Vpullup"

def Uart.Parity.word : Uart.Parity → String
  | none => "None"
  | even => "Even"
  | odd => "Odd"

def Spi.PinOutput.word : Spi.PinOutput → String
  | openDrain => "HiZ"
  | push3V3 => "Push3V3"

def Spi.ClockIdle.word : Spi.ClockIdle → String
  | low => "Low"
  | high => "High"

def Spi.ClockEdge.word : Spi.ClockEdge → String
  | idleToActive => "IdleToActive"
  | activeToIdle => "ActiveToIdle"

def Spi.SampleTime.word : Spi.SampleTime → String
  | middle => "Middle"
  | last => "End"

def Spi.Mode.words (mode : Spi.Mode) : String :=
  (match mode.idle with | .low => "IdleLow" | .high => "IdleHigh") ++
    (match mode.phase with | .first => " First" | .second => " Second")

def levelWord (high : Bool) : String :=
  if high then "1" else "0"

def Spi.Config.words (config : Spi.Config) : String :=
  " ".intercalate
    [decimal config.speed.hz, config.output.word, config.idle.word, config.edge.word,
      config.sample.word]

def Uart.Config.words (config : Uart.Config) : String :=
  " ".intercalate
    [decimal config.baud, decimal config.dataBits, config.parity.word, decimal config.stopBits]

/-- A 7-bit address as two hexadecimal digits. -/
def addressWord (address : UInt8) : String :=
  String.ofList (hexByte address)

def I2cCall.word : I2cCall → String
  | claim .. => "open"
  | release => "close"
  | lock => "lock"
  | unlock => "unlock"
  | setFrequency _ => "freq"
  | write .. => "write"
  | read .. => "read"
  | writeRead .. => "write_read"

def SpiCall.word : SpiCall → String
  | claim => "open"
  | release => "close"
  | lock => "lock"
  | unlock => "unlock"
  | configure _ => "configure"
  | transfer _ => "transfer"

def UartCall.word : UartCall → String
  | claim .. => "open"
  | release => "close"
  | configure _ => "configure"
  | write _ => "write"
  | read _ => "read"
  | available => "available"
  | clear => "clear"

def OneWireCall.word : OneWireCall → String
  | claim _ => "open"
  | release => "close"
  | reset => "reset"
  | write _ => "write"
  | read _ => "read"
  | search => "search"

def PinCall.word : PinCall → String
  | claim => "open"
  | release => "close"
  | output _ => "output"
  | input => "input"
  | sample => "sample"

/-- The first word of a request's line. -/
def Request.word : Request → String
  | i2c backing call => backing.word "i2c" ++ "." ++ call.word
  | spi backing call => backing.word "spi" ++ "." ++ call.word
  | uart call => "uart." ++ call.word
  | oneWire call => "onewire." ++ call.word
  | pin p call => p.name ++ "." ++ call.word
  | power _ => "power"
  | pullups _ => "pullups"
  | modeLed _ => "led"
  | voltage _ => "voltage"
  | delay _ => "delay"

/-! ## Lines -/

def Request.arguments : Request → List String
  | i2c _ (.claim clock data hz) => [clock.name, data.name, decimal hz]
  | i2c _ (.setFrequency hz) => [decimal hz]
  | i2c _ (.write address bytes) => [addressWord address, hexBytes bytes]
  | i2c _ (.read address count) => [addressWord address, decimal count]
  | i2c _ (.writeRead address bytes count) => [addressWord address, hexBytes bytes, decimal count]
  | spi _ .claim => ["CLK", "MOSI", "MISO"]
  | spi _ (.configure config) => [config.words]
  | spi _ (.transfer bytes) => [hexBytes bytes]
  | uart (.claim tx rx config) => [tx.name, rx.name, config.words]
  | uart (.configure config) => [config.words]
  | uart (.write bytes) => [hexBytes bytes]
  | uart (.read count) => [decimal count]
  | oneWire (.claim p) => [p.name]
  | oneWire (.write bytes) => [hexBytes bytes]
  | oneWire (.read count) => [decimal count]
  | pin _ (.output high) => [levelWord high]
  | power on | pullups on | modeLed on => [levelWord on]
  | voltage probe => [probe.word]
  | delay ms => [decimal ms]
  | _ => []

def Unavailable.mark : Unavailable → String
  | noHardware => " !NoHardware"
  | pinBusy _ => " !PinBusy"
  | unsupported => " !Unsupported"

def BusError.mark : BusError → String
  | nack => " !nack"
  | fault => " !fault"

def claimMark : Except Unavailable Unit → String
  | .ok _ => ""
  | .error reason => reason.mark

def callMark {α : Type} : Except BusError α → String
  | .ok _ => ""
  | .error reason => reason.mark

def lockMark (granted : Bool) : String :=
  if granted then "" else " !busy"

/-- What a line says of the answer. -/
def Exchange.mark : Exchange → String
  | ⟨.i2c _ (.claim ..), answer⟩ => claimMark answer
  | ⟨.i2c _ .lock, granted⟩ => lockMark granted
  | ⟨.i2c _ (.setFrequency _), answer⟩ => callMark answer
  | ⟨.i2c _ (.write ..), answer⟩ => callMark answer
  | ⟨.i2c _ (.read ..), answer⟩ => callMark answer
  | ⟨.i2c _ (.writeRead ..), answer⟩ => callMark answer
  | ⟨.spi _ .claim, answer⟩ => claimMark answer
  | ⟨.spi _ .lock, granted⟩ => lockMark granted
  | ⟨.spi _ (.configure _), answer⟩ => callMark answer
  | ⟨.spi _ (.transfer _), answer⟩ => callMark answer
  | ⟨.uart (.claim ..), answer⟩ => claimMark answer
  | ⟨.uart (.configure _), answer⟩ => callMark answer
  | ⟨.uart (.write _), answer⟩ => callMark answer
  | ⟨.uart (.read _), bytes⟩ => " -> " ++ decimal bytes.val.length
  | ⟨.oneWire (.claim _), answer⟩ => claimMark answer
  | ⟨.oneWire .reset, answer⟩ => callMark answer
  | ⟨.oneWire (.write _), answer⟩ => callMark answer
  | ⟨.oneWire (.read _), answer⟩ => callMark answer
  | ⟨.oneWire .search, answer⟩ => callMark answer
  | ⟨.pin _ .claim, answer⟩ => claimMark answer
  | ⟨.pin _ (.output _), answer⟩ => callMark answer
  | ⟨.pin _ .input, answer⟩ => callMark answer
  | ⟨.pin _ .sample, answer⟩ => callMark answer
  | _ => ""

def Exchange.line? (exchange : Exchange) : Option String :=
  match exchange.request with
  | .uart .available => none
  | request => some (" ".intercalate (request.word :: request.arguments) ++ exchange.mark)

end BusBench
