import BusBench.BitBang.Spi

/-!
# Plain wires

A wire shows the level to which it was driven last. For SPI there are two: the clock, and one for
data that loops the output back to the input.

* `Plain.drive`: drives a wire and counts its rising edges.
* `SpiWires`: the wires of a looped SPI bus.
-/

namespace BusBench.Wire

open BitBang (Drive Gpio SpiLine)

structure Plain where
  level : Bool
  risingEdges : Nat := 0
  deriving DecidableEq, Repr

def Plain.drive (high : Bool) (wire : Plain) : Plain where
  level := high
  risingEdges := if high && !wire.level then wire.risingEdges + 1 else wire.risingEdges

/-- The wires of an SPI bus whose output is looped back to its input. -/
structure SpiWires where
  clock : Plain
  data : Plain
  deriving DecidableEq, Repr

namespace SpiWires

/-- Two wires at a level. -/
def new (level : Bool) : SpiWires :=
  ⟨⟨level, 0⟩, ⟨level, 0⟩⟩

def drive (line : SpiLine) (high : Bool) (wires : SpiWires) : SpiWires :=
  match line with
  | .sck => { wires with clock := wires.clock.drive high }
  | .mosi | .miso => { wires with data := wires.data.drive high }

def level (wires : SpiWires) : SpiLine → Bool
  | .sck => wires.clock.level
  | .mosi | .miso => wires.data.level

instance : Gpio SpiWires SpiLine where
  drive line high := modify (SpiWires.drive line high)
  sample line := return (← get).level line
  wait _ := pure ()

end SpiWires

end BusBench.Wire
