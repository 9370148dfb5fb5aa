import BusBench.BitBang.I2c

/-!
# An I2C target on simulated lines

Two open-drain lines with at most one target, which acknowledges one address, keeps what it is sent
and answers reads from a queue. The target sees nothing but the edges of the two lines.

* `Target.rising`, `Target.falling`: what the target does at the edges of the clock.
* `I2cWires.drive`: what driving a line leads to.
-/

namespace BusBench.Wire

open BitBang (Drive Gpio I2cLine)

inductive TargetPhase where
  | idle
  /-- It receives a byte, which may be the address byte. -/
  | receiving (address : Bool)
  | sending
  deriving DecidableEq, Repr

structure Target where
  /-- The address it acknowledges. -/
  address? : Option UInt8
  phase : TargetPhase := .idle
  /-- How often the clock rose since the byte began. -/
  clocks : Nat := 0
  /-- The bits received of the byte. -/
  shift : UInt8 := 0
  /-- Whether it was last addressed to be read. -/
  reading : Bool := false
  /-- The bytes still to be sent; after them it sends 0xFF. -/
  outgoing : List UInt8 := []
  current : UInt8 := 0xFF
  /-- Whether the controller acknowledged the byte sent last. -/
  acknowledged : Bool := false
  /-- The data bytes received so far. -/
  received : List UInt8 := []
  /-- Whether it holds the data line low. -/
  pullsLow : Bool := false
  deriving DecidableEq, Repr

namespace Target

def start (target : Target) : Target :=
  { target with phase := .receiving true, clocks := 0, shift := 0, pullsLow := false }

/-- A stop was seen, or the byte is no concern of the target. -/
def stop (target : Target) : Target :=
  { target with phase := .idle, pullsLow := false }

/-- Puts out one bit of the byte being sent. -/
def putBit (i : Nat) (target : Target) : Target :=
  { target with pullsLow := !Byte.bit target.current i }

/-- Begins to send the next byte. -/
def load (target : Target) : Target :=
  putBit 7
    { target with
      current := target.outgoing.headD 0xFF
      outgoing := target.outgoing.tail }

/-- The clock rises while the data line has a level. -/
def rising (sda : Bool) (target : Target) : Target :=
  if target.phase = .idle then target
  else
    let target := { target with clocks := target.clocks + 1 }
    match target.phase with
    | .receiving _ =>
      if target.clocks ≤ 8 then { target with shift := Byte.shiftIn target.shift sda } else target
    | .sending => if target.clocks = 9 then { target with acknowledged := !sda } else target
    | .idle => target

def falling (target : Target) : Target :=
  match target.phase, target.clocks with
  | .receiving true, 8 =>
    if target.address? = some (target.shift >>> 1) then
      { target with reading := Byte.bit target.shift 0, pullsLow := true }
    else target.stop
  | .receiving false, 8 =>
    { target with received := target.received ++ [target.shift], pullsLow := true }
  | .receiving address, 9 =>
    let target := { target with pullsLow := false, clocks := 0, shift := 0 }
    if address && target.reading then load { target with phase := .sending }
    else { target with phase := .receiving false }
  | .sending, 8 => { target with pullsLow := false }
  | .sending, 9 =>
    let target := { target with clocks := 0 }
    if target.acknowledged then target.load else target.stop
  | .sending, n => if n < 8 then target.putBit (7 - n) else target
  | _, _ => target

end Target

/-- The two lines: how the controller drives them, and the target on them. -/
structure I2cWires where
  scl : Bool := true
  sda : Bool := true
  target : Target
  deriving DecidableEq, Repr

namespace I2cWires

/-- Released lines with a target of an address, and what it has to send. -/
def new (address? : Option UInt8) (outgoing : List UInt8) : I2cWires :=
  { target := { address?, outgoing } }

/-- The level of the data line: high where neither side holds it low. -/
def sdaLevel (wires : I2cWires) : Bool :=
  wires.sda && !wires.target.pullsLow

def level (wires : I2cWires) : I2cLine → Bool
  | .scl => wires.scl
  | .sda => wires.sdaLevel

/-- How the controller drives the lines. -/
def setLine (line : I2cLine) (high : Bool) (wires : I2cWires) : I2cWires :=
  match line with
  | .scl => { wires with scl := high }
  | .sda => { wires with sda := high }

/-- What the target makes of the change between two states of the lines. -/
def react (before after : I2cWires) : I2cWires :=
  if after.scl ≠ before.scl then
    if after.scl then { after with target := after.target.rising after.sdaLevel }
    else { after with target := after.target.falling }
  else if after.scl ∧ after.sdaLevel ≠ before.sdaLevel then
    if after.sdaLevel then { after with target := after.target.stop }
    else { after with target := after.target.start }
  else after

def drive (line : I2cLine) (high : Bool) (wires : I2cWires) : I2cWires :=
  react wires (wires.setLine line high)

/-- Whether the last transaction ended with a stop and both lines are released. -/
def isIdle (wires : I2cWires) : Bool :=
  wires.target.phase == .idle && wires.scl && wires.sdaLevel

instance : Gpio I2cWires I2cLine where
  drive line high := modify (I2cWires.drive line high)
  sample line := return (← get).level line
  wait _ := pure ()

end I2cWires

end BusBench.Wire
