import BusBench.BitBang.Spi
import BusBench.Board.Request

/-!
# The simulated board

A board with a few devices on its buses: an I2C EEPROM and a temperature sensor, SPI with MOSI
looped back to MISO, a UART looped back to itself, and two 1-Wire devices. It can do without
controllers; SPI is then driven pin by pin.

* `Simulated.Eeprom`, `Simulated.Thermometer`: the I2C devices.
* `Simulated.level`: the levels of the pins.
* `Simulated.board`: the board.
-/

namespace BusBench.Simulated

open BitBang (Drive Gpio SpiController SpiLine)

/-! ## I2C devices -/

/-- A 24xx02-style EEPROM: 256 bytes, and the address at which the next one is read or stored. -/
structure Eeprom where
  memory : Vector UInt8 256 := Vector.replicate 256 0xFF
  pointer : UInt8 := 0

namespace Eeprom

def byteAt (eeprom : Eeprom) (address : UInt8) : UInt8 :=
  eeprom.memory.get ⟨address.toNat, address.toNat_lt⟩

/-- Stores a byte and goes on to the next address. -/
def store (eeprom : Eeprom) (byte : UInt8) : Eeprom where
  memory := eeprom.memory.set eeprom.pointer.toNat byte eeprom.pointer.toNat_lt
  pointer := eeprom.pointer + 1

/-- The first byte written sets the address, and the others are stored from there on. -/
def write (bytes : List UInt8) (eeprom : Eeprom) : Eeprom :=
  match bytes with
  | [] => eeprom
  | pointer :: data => data.foldl store { eeprom with pointer }

/-- Reads bytes and goes on behind them. -/
def read (n : Nat) (eeprom : Eeprom) : Bytes n × Eeprom :=
  (.tabulate n fun i => eeprom.byteAt (eeprom.pointer + UInt8.ofNat i),
    { eeprom with pointer := eeprom.pointer + UInt8.ofNat n })

end Eeprom

/-- An LM75-style sensor stuck at 25.5 degrees. Register 0 is the temperature, register 1 the
configuration. -/
structure Thermometer where
  pointer : UInt8 := 0
  config : UInt8 := 0
  deriving DecidableEq, Repr

namespace Thermometer

/-- The first byte written picks the register; the second one is kept by the configuration. -/
def write (bytes : List UInt8) (sensor : Thermometer) : Thermometer :=
  match bytes with
  | [] => sensor
  | [pointer] => { sensor with pointer }
  | 1 :: config :: _ => { pointer := 1, config }
  | pointer :: _ => { sensor with pointer }

/-- The bytes of the register picked. -/
def register (sensor : Thermometer) : List UInt8 :=
  match sensor.pointer with
  | 0 => [0x19, 0x80]
  | 1 => [sensor.config]
  | _ => [0x00]

/-- The bytes of the register, again and again. -/
def read (n : Nat) (sensor : Thermometer) : Bytes n :=
  let register := sensor.register
  .tabulate n fun i => register.getD (i % register.length) 0

end Thermometer

/-! ## State -/

/-- A UART looped back to itself, a 1-Wire bus, and the locks of the buses are as new after a claim.
-/
structure State where
  /-- Whether the board has controllers for SPI and I2C. -/
  controllers : Bool
  power : Bool := false
  pullups : Bool := false
  claimed : List Pin := []
  driven : List (Pin × Bool) := []
  eeprom : Eeprom := {}
  thermometer : Thermometer := {}
  /-- The I2C buses whose lock is held, by what stands behind them. -/
  i2cLocked : List Backing := []
  spiLocked : Bool := false
  /-- The SPI bus that is driven pin by pin. -/
  softSpi : SpiController := {}
  /-- What the UART has received. -/
  received : List UInt8 := []
  /-- What the 1-Wire devices are about to send. -/
  pending : List UInt8 := []

def roms : List Rom :=
  [Rom.ofBytes [0x28, 0xFF, 0x4C, 0x1A, 0x61, 0x16, 0x03, 0x9E],
   Rom.ofBytes [0x2D, 0x54, 0xD2, 0xEF, 0x00, 0x00, 0x00, 0x2B]]

/-! ## Pins -/

/-- The level of a pin. MISO follows MOSI unless it is driven; any other pin that is not driven is
high where the pull-ups are powered. -/
def level (p : Pin) (s : State) : Bool :=
  match s.driven.lookup p with
  | some high => high
  | none =>
    if p = .miso then (s.driven.lookup Pin.mosi).getD false else s.pullups && s.power

def drive (p : Pin) (high : Bool) (s : State) : State :=
  { s with driven := (p, high) :: s.driven.filter (·.1 != p) }

def undrive (p : Pin) (s : State) : State :=
  { s with driven := s.driven.filter (·.1 != p) }

/-- Claims a pin, which nobody else may hold. -/
def claimPin (p : Pin) (s : State) : Except Unavailable Unit × State :=
  if s.claimed.contains p then (.error (.pinBusy p), s)
  else (.ok (), { s with claimed := p :: s.claimed })

/-- Gives a pin back, which is not driven any more. -/
def releasePin (p : Pin) (s : State) : State :=
  undrive p { s with claimed := s.claimed.filter (· != p) }

def linePin : SpiLine → Pin
  | .sck => .clk
  | .mosi => .mosi
  | .miso => .miso

instance : Gpio State SpiLine where
  drive line high := modify (drive (linePin line) high)
  sample line := return level (linePin line) (← get)
  wait _ := pure ()

def pin (p : Pin) : (call : PinCall) → State → call.Answer × State
  | .claim, s => claimPin p s
  | .release, s => ((), releasePin p s)
  | .output high, s => (.ok (), drive p high s)
  | .input, s => (.ok (), undrive p s)
  | .sample, s => (.ok (level p s), s)

/-! ## Buses -/

def writeI2c (address : UInt8) (bytes : List UInt8) (s : State) : Except BusError Unit × State :=
  if address = 0x50 then (.ok (), { s with eeprom := s.eeprom.write bytes })
  else if address = 0x48 then (.ok (), { s with thermometer := s.thermometer.write bytes })
  else (.error .nack, s)

def readI2c (address : UInt8) (n : Nat) (s : State) : Except BusError (Bytes n) × State :=
  if address = 0x50 then
    let (bytes, eeprom) := s.eeprom.read n
    (.ok bytes, { s with eeprom })
  else if address = 0x48 then (.ok (s.thermometer.read n), s)
  else (.error .nack, s)

/-- The devices work on transactions, so both kinds of I2C bus reach them in the same way. -/
def i2c (backing : Backing) : (call : I2cCall) → State → call.Answer × State
  | .claim .., s =>
    if backing = .hardware ∧ !s.controllers then (.error .noHardware, s)
    else (.ok (), { s with i2cLocked := s.i2cLocked.filter (· != backing) })
  | .release, s => ((), s)
  | .lock, s =>
    if s.i2cLocked.contains backing then (false, s)
    else (true, { s with i2cLocked := backing :: s.i2cLocked })
  | .unlock, s => ((), { s with i2cLocked := s.i2cLocked.filter (· != backing) })
  | .setFrequency _, s => (.ok (), s)
  | .write address bytes, s => writeI2c address bytes s
  | .read address n, s => readI2c address n s
  | .writeRead address bytes n, s =>
    match writeI2c address bytes s with
    | (.ok _, s) => readI2c address n s
    | (.error reason, s) => (.error reason, s)

/-- The SPI controller answers what it is sent. -/
def hardSpi : (call : SpiCall) → State → call.Answer × State
  | .claim, s =>
    if s.controllers then (.ok (), { s with spiLocked := false }) else (.error .noHardware, s)
  | .release, s => ((), s)
  | .lock, s => (!s.spiLocked, { s with spiLocked := true })
  | .unlock, s => ((), { s with spiLocked := false })
  | .configure _, s => (.ok (), s)
  | .transfer bytes, s => (.ok ⟨bytes, rfl⟩, s)

/-- Claims the pins of SPI in order; those already taken are given back where one is busy. -/
def claimSpiPins (s : State) : Except Unavailable Unit × State :=
  match claimPin .clk s with
  | (.error reason, s) => (.error reason, s)
  | (.ok _, s) =>
    match claimPin .mosi s with
    | (.error reason, s) => (.error reason, releasePin .clk s)
    | (.ok _, s) =>
      match claimPin .miso s with
      | (.error reason, s) => (.error reason, releasePin .clk (releasePin .mosi s))
      | (.ok _, s) => (.ok (), s)

/-- SPI driven pin by pin. -/
def softSpi : (call : SpiCall) → State → call.Answer × State
  | .claim, s =>
    match claimSpiPins s with
    | (.ok _, s) => (.ok (), { s with softSpi := {} })
    | refused => refused
  | .release, s => ((), releasePin .miso (releasePin .mosi (releasePin .clk s)))
  | .lock, s => (!s.softSpi.locked, { s with softSpi := { s.softSpi with locked := true } })
  | .unlock, s => ((), { s with softSpi := { s.softSpi with locked := false } })
  | .configure config, s =>
    let controller :=
      { s.softSpi with mode := config.mode, half := BitBang.halfPeriod config.speed.hz }
    (BitBang.Spi.park config.mode).onBus { s with softSpi := controller }
  | .transfer bytes, s =>
    let (result, s) :=
      (BitBang.Spi.transfer s.softSpi.mode s.softSpi.half bytes : Drive State _).onBus s
    (result.map (Bytes.filled bytes.length 0), s)

def uart : (call : UartCall) → State → call.Answer × State
  | .claim .., s => (.ok (), { s with received := [] })
  | .release, s => ((), s)
  | .configure _, s => (.ok (), s)
  | .write bytes, s => (.ok (), { s with received := s.received ++ bytes })
  | .read n, s =>
    (⟨s.received.take n, List.length_take_le _ _⟩, { s with received := s.received.drop n })
  | .available, s => (s.received.length, s)
  | .clear, s => ((), { s with received := [] })

def oneWire : (call : OneWireCall) → State → call.Answer × State
  | .claim _, s => (.ok (), { s with pending := [] })
  | .release, s => ((), s)
  | .reset, s => (.ok !roms.isEmpty, { s with pending := [] })
  | .write bytes, s =>
    match bytes, roms with
    | 0x33 :: _, rom :: _ => (.ok (), { s with pending := s.pending ++ rom.bytes })
    | _, _ => (.ok (), s)
  | .read n, s => (.ok (.filled n 0xFF s.pending), { s with pending := s.pending.drop n })
  | .search, s => (.ok roms, s)

/-! ## The board -/

/-- The binary32 number nearest to 3.3. -/
def v3point3 : Volts :=
  .finite false 13841203 (-22)

def volts (probe : Probe) (s : State) : Volts :=
  match probe with
  | .v3 | .vpullup => if s.power then v3point3 else .finite false 0 0
  | .v5 => if s.power then .finite false 5 0 else .finite false 0 0
  | .adc => if level .aux s then v3point3 else .finite false 0 0

def answer : (request : Request) → State → request.Answer × State
  | .i2c backing call, s => i2c backing call s
  | .spi .hardware call, s => hardSpi call s
  | .spi .bitBanged call, s => softSpi call s
  | .uart call, s => uart call s
  | .oneWire call, s => oneWire call s
  | .pin p call, s => pin p call s
  | .power on, s => ((), { s with power := on })
  | .pullups on, s => ((), { s with pullups := on })
  | .modeLed _, s => ((), s)
  | .voltage probe, s => (volts probe s, s)
  | .delay _, s => ((), s)

/-- The state of the board when it is switched on. -/
def initial (controllers : Bool) : State :=
  { controllers }

def board : Board State where
  name := "simulator"
  header := {}
  answer := answer

end BusBench.Simulated
