import BusBench.BitBang.OneWire

/-!
# 1-Wire devices on a simulated line

Devices on one open-drain line, which see only when the line falls and how long it was held low.
They answer resets with their presence, and the commands to read and to search ROM codes with the
wired AND of their bits. Time passes only where the controller waits.

* `OneWireWires.fall`, `OneWireWires.rise`: what the devices do when the controller pulls the line
  and lets it go.
* `OneWireWires.level`: the level of the line.
-/

namespace BusBench.Wire

open BitBang (Drive Gpio OneWireLine)

inductive Protocol where
  /-- They receive a command, of which so many bits have come. -/
  | command (bits : Nat) (shift : UInt8)
  /-- They send their codes at once. -/
  | readRom (bit : Nat)
  /-- They take part in a search: the bit, its complement, the direction. -/
  | search (bit step : Nat)
  | ignoring
  deriving DecidableEq, Repr

/-- The state of the line and its devices. -/
structure OneWireWires where
  /-- The codes of the devices, and whether each still takes part. -/
  devices : List (Rom × Bool)
  /-- The time in microseconds. -/
  now : Nat := 0
  /-- Whether the controller holds the line low. -/
  held : Bool := false
  /-- When the controller pulled the line last. -/
  fellAt : Nat := 0
  /-- From when until when the devices show their presence. -/
  presence? : Option (Nat × Nat) := none
  /-- Until when a device holds the line low. -/
  holdUntil : Nat := 0
  protocol : Protocol := .ignoring
  /-- The commands that no device knows. -/
  received : List UInt8 := []
  deriving DecidableEq, Repr

namespace OneWireWires

/-- A released line with devices of the given codes. -/
def new (roms : List Rom) : OneWireWires :=
  { devices := roms.map (·, true) }

/-- Whether the devices show their presence now. -/
def showsPresence (wires : OneWireWires) : Bool :=
  match wires.presence? with
  | some (start, stop) => start ≤ wires.now && wires.now < stop
  | none => false

/-- The level of the line: high where nobody holds it low. -/
def level (wires : OneWireWires) : Bool :=
  !(wires.held || wires.showsPresence || wires.now < wires.holdUntil)

/-- What the devices that take part put on the line together. -/
def wiredAnd (wires : OneWireWires) (bitOf : Rom → Bool) : Bool :=
  wires.devices.all fun (rom, active) => !active || bitOf rom

/-- The bit that the devices send now, if they send any. -/
def sending? (wires : OneWireWires) : Option Bool :=
  match wires.protocol with
  | .readRom bit | .search bit 0 => some (wires.wiredAnd (·.getLsbD bit))
  | .search bit 1 => some (wires.wiredAnd fun rom => !rom.getLsbD bit)
  | _ => none

def fall (wires : OneWireWires) : OneWireWires :=
  { wires with
    held := true
    fellAt := wires.now
    holdUntil := if wires.sending? = some false then wires.now + 30 else wires.holdUntil }

/-- A pulse was long enough to be a reset. -/
def reset (wires : OneWireWires) : OneWireWires :=
  { wires with
    presence? :=
      if wires.devices.isEmpty then none else some (wires.now + 15, wires.now + 135)
    devices := wires.devices.map fun (rom, _) => (rom, true)
    protocol := .command 0 0 }

/-- The last bit of a command has come. -/
def runCommand (command : UInt8) (wires : OneWireWires) : OneWireWires :=
  if command = 0x33 then { wires with protocol := .readRom 0 }
  else if command = 0xF0 then { wires with protocol := .search 0 0 }
  else { wires with protocol := .command 0 0, received := wires.received ++ [command] }

/-- The devices whose bit is another one than the direction drop out. -/
def keepDirection (bit : Nat) (direction : Bool) (wires : OneWireWires) : OneWireWires :=
  { wires with
    devices := wires.devices.map fun (rom, active) =>
      (rom, active && rom.getLsbD bit == direction) }

/-- A bit passed, with which a controller that writes wrote `bit`. -/
def slot (bit : Bool) (wires : OneWireWires) : OneWireWires :=
  match wires.protocol with
  | .command bits shift =>
    let shift := (shift >>> 1) ||| (if bit then 0x80 else 0)
    if bits < 7 then { wires with protocol := .command (bits + 1) shift }
    else wires.runCommand shift
  | .readRom i => { wires with protocol := if i = 63 then .ignoring else .readRom (i + 1) }
  | .search i 2 =>
    { wires.keepDirection i bit with protocol := if i = 63 then .ignoring else .search (i + 1) 0 }
  | .search i step => { wires with protocol := .search i (step + 1) }
  | .ignoring => wires

/-- The controller lets the line go. -/
def rise (wires : OneWireWires) : OneWireWires :=
  let wires := { wires with held := false }
  let lowFor := wires.now - wires.fellAt
  if 480 ≤ lowFor then wires.reset else wires.slot (lowFor < 15)

def drive (high : Bool) (wires : OneWireWires) : OneWireWires :=
  if high then
    if wires.held then wires.rise else wires
  else if wires.held then wires
  else wires.fall

instance : Gpio OneWireWires OneWireLine where
  drive _ high := modify (OneWireWires.drive high)
  sample _ := return (← get).level
  wait us := modify fun wires => { wires with now := wires.now + us }

/-- How many passes of a search are enough, one more than there can be devices to find. -/
def searchLimit (wires : OneWireWires) : Nat :=
  wires.devices.length + 2

end OneWireWires

end BusBench.Wire
