import BusBench.Board.Faults
import BusBench.Board.Log

/-!
# The recording board

A board without hardware, whose answers follow from settings: what it refuses, which calls fail,
which devices are on its buses.

* `Recording.Settings`: what decides the answers.
* `Recording.board`: the board.
-/

namespace BusBench.Recording

/-- What decides the answers of the board. -/
structure Settings where
  /-- The resources that are refused, by their words. -/
  unavailable : List (String × Unavailable) := []
  /-- The levels of pins that are not driven, low where nothing is said. -/
  inputs : List (Pin × Bool) := []
  i2cDevices : List UInt8 := []
  /-- What SPI transfers combine with every byte. -/
  spiMask : UInt8 := 0
  /-- How many bytes one read of the UART answers at most. -/
  uartShort? : Option Nat := none
  /-- Whether the UART receives what it sends. -/
  uartLoopback : Bool := false
  roms : List Rom := []
  /-- The voltages, zero where nothing is said. -/
  volts : List (Probe × Volts) := []

structure State where
  settings : Settings := {}
  faults : Faults := {}
  claimed : List Pin := []
  driven : List (Pin × Bool) := []
  /-- The buses whose lock is held, by their words. -/
  locked : List String := []
  /-- What the UART has received. -/
  received : List UInt8 := []
  /-- What the 1-Wire devices are about to send, whoever has claimed the bus meanwhile. -/
  pending : List UInt8 := []

/-! ## Parts of the state -/

/-- The list with the value of a key set. -/
def assign {κ α : Type} [BEq κ] (key : κ) (value : α) (entries : List (κ × α)) : List (κ × α) :=
  (key, value) :: entries.filter (·.1 != key)

/-- The list without a key. -/
def unassign {κ α : Type} [BEq κ] (key : κ) (entries : List (κ × α)) : List (κ × α) :=
  entries.filter (·.1 != key)

/-- Counts a call; answers whether it fails. -/
def count (word : String) (s : State) : Bool × State :=
  let (fails, faults) := s.faults.count word
  (fails, { s with faults })

/-- Makes a call that a rule may let fail. -/
def guarded {α : Type} (word : String) (s : State) (call : State → Except BusError α × State) :
    Except BusError α × State :=
  let (fails, s) := count word s
  if fails then (.error .fault, s) else call s

def claim (resource : String) (s : State) : Except Unavailable Unit × State :=
  match s.settings.unavailable.lookup resource with
  | some reason => (.error reason, s)
  | none => (.ok (), { s with locked := s.locked.filter (· != resource) })

/-- Takes the lock of a bus, unless it is held or a rule lets the call fail. -/
def lock (resource word : String) (s : State) : Bool × State :=
  let (fails, s) := count word s
  if fails || s.locked.contains resource then (false, s)
  else (true, { s with locked := resource :: s.locked })

def unlock (resource : String) (s : State) : State :=
  { s with locked := s.locked.filter (· != resource) }

/-- The level of a pin: the one to which it is driven, else the one that is there. -/
def level (pin : Pin) (s : State) : Bool :=
  match s.driven.lookup pin with
  | some high => high
  | none => (s.settings.inputs.lookup pin).getD false

/-- The bytes that a read answers. -/
def counted (n : Nat) : Bytes n :=
  .tabulate n fun i => UInt8.ofNat (0xA0 + i)

/-! ## Answers -/

/-- The answer of a transaction with an I2C device. -/
def addressed {α : Type} (word : String) (address : UInt8) (answer : α) (s : State) :
    Except BusError α × State :=
  guarded word s fun s =>
    if s.settings.i2cDevices.contains address then (.ok answer, s) else (.error .nack, s)

def i2c (resource word : String) : (call : I2cCall) → State → call.Answer × State
  | .claim .., s => claim resource s
  | .release, s => ((), s)
  | .lock, s => lock resource word s
  | .unlock, s => ((), unlock resource s)
  | .setFrequency _, s => guarded word s fun s => (.ok (), s)
  | .write address _, s => addressed word address () s
  | .read address n, s => addressed word address (counted n) s
  | .writeRead address _ n, s => addressed word address (counted n) s

def spi (resource word : String) : (call : SpiCall) → State → call.Answer × State
  | .claim, s => claim resource s
  | .release, s => ((), s)
  | .lock, s => lock resource word s
  | .unlock, s => ((), unlock resource s)
  | .configure _, s => guarded word s fun s => (.ok (), s)
  | .transfer bytes, s => guarded word s fun s =>
    (.ok ⟨bytes.map (· ^^^ s.settings.spiMask), List.length_map _⟩, s)

/-- How many bytes a read of the UART answers. -/
def readable (wanted : Nat) (s : State) : Nat :=
  let n := min wanted s.received.length
  match s.settings.uartShort? with
  | some short => min n short
  | none => n

theorem readable_le (wanted : Nat) (s : State) : readable wanted s ≤ wanted := by
  have h : min wanted s.received.length ≤ wanted := Nat.min_le_left _ _
  unfold readable
  split
  · exact Nat.le_trans (Nat.min_le_left _ _) h
  · exact h

def uart (word : String) : (call : UartCall) → State → call.Answer × State
  | .claim .., s => claim "uart" s
  | .release, s => ((), s)
  | .configure _, s => guarded word s fun s => (.ok (), s)
  | .write bytes, s => guarded word s fun s =>
    (.ok (), if s.settings.uartLoopback then { s with received := s.received ++ bytes } else s)
  | .read wanted, s =>
    let n := readable wanted s
    (⟨s.received.take n, Nat.le_trans (List.length_take_le _ _) (readable_le wanted s)⟩,
      { s with received := s.received.drop n })
  | .available, s => (s.received.length, s)
  | .clear, s => ((), { s with received := [] })

def oneWire (word : String) : (call : OneWireCall) → State → call.Answer × State
  | .claim _, s => claim "onewire" s
  | .release, s => ((), s)
  | .reset, s => guarded word s fun s => (.ok !s.settings.roms.isEmpty, { s with pending := [] })
  | .write bytes, s => guarded word s fun s =>
    match bytes, s.settings.roms with
    | [0x33], rom :: _ => (.ok (), { s with pending := s.pending ++ rom.bytes })
    | _, _ => (.ok (), s)
  | .read n, s => guarded word s fun s =>
    (.ok (.filled n 0xFF s.pending), { s with pending := s.pending.drop n })
  | .search, s => guarded word s fun s => (.ok s.settings.roms, s)

/-- Claims a pin, which nobody else may hold. -/
def claimPin (pin : Pin) (s : State) : Except Unavailable Unit × State :=
  if s.claimed.contains pin then (.error (.pinBusy pin), s)
  else
    match claim pin.name s with
    | (.ok _, s) => (.ok (), { s with claimed := pin :: s.claimed })
    | refused => refused

def pin (p : Pin) (word : String) : (call : PinCall) → State → call.Answer × State
  | .claim, s => claimPin p s
  | .release, s =>
    ((), { s with claimed := s.claimed.filter (· != p), driven := unassign p s.driven })
  | .output high, s => guarded word s fun s => (.ok (), { s with driven := assign p high s.driven })
  | .input, s => guarded word s fun s => (.ok (), { s with driven := unassign p s.driven })
  | .sample, s => guarded word s fun s => (.ok (level p s), s)

def answer : (request : Request) → State → request.Answer × State
  | .i2c backing call, s => i2c (backing.word "i2c") (Request.i2c backing call).word call s
  | .spi backing call, s => spi (backing.word "spi") (Request.spi backing call).word call s
  | .uart call, s => uart (Request.uart call).word call s
  | .oneWire call, s => oneWire (Request.oneWire call).word call s
  | .pin p call, s => pin p (Request.pin p call).word call s
  | .power _, s => ((), s)
  | .pullups _, s => ((), s)
  | .modeLed _, s => ((), s)
  | .voltage probe, s => ((s.settings.volts.lookup probe).getD (.finite false 0 0), s)
  | .delay _, s => ((), s)

/-- A recording board with a name and an I2C header. -/
def board (name : String) (header : Header) : Board State where
  name := name
  header := header
  answer := answer

end BusBench.Recording
