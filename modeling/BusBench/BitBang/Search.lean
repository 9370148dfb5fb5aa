import BusBench.Board.Request

/-!
# Searching for ROM codes

All devices on a 1-Wire bus answer each bit of their ROM codes together, first the bit, then its
complement; the controller picks a direction, and the devices with the other bit drop out. One pass
finds one code. The next pass follows the previous code up to the last branch where zero was taken,
and takes one there.

* `Search.choose`: the direction at a bit.
* `Search.finishPass`: the code that a pass found.
-/

namespace BusBench.BitBang

/-- The state of a search between and during passes. -/
structure Search where
  /-- The code found last, overwritten bit by bit. -/
  rom : Rom := 0
  /-- The position, from one, where this pass takes the branch of one; `0` if there is none. -/
  lastDiscrepancy : Nat := 0
  /-- The last position of this pass where zero was taken and one is possible too. -/
  lastZero : Nat := 0
  /-- Whether every branch has been taken. -/
  finished : Bool := false
  deriving DecidableEq, Repr

namespace Search

/-- The state at the beginning of a pass. -/
def startPass (search : Search) : Search :=
  { search with lastZero := 0 }

def setBit (rom : Rom) (bit : Nat) (value : Bool) : Rom :=
  let mask : Rom := 1 <<< bit
  if value then rom ||| mask else rom &&& ~~~mask

/-- Goes in a direction at a bit. -/
def take (bit : Nat) (direction : Bool) (search : Search) : Search :=
  { search with rom := setBit search.rom bit direction }

/-- The direction at a bit where devices of both kinds answered. -/
def branch (bit : Nat) (search : Search) : Bool :=
  if bit + 1 < search.lastDiscrepancy then search.rom.getLsbD bit
  else bit + 1 == search.lastDiscrepancy

/-- The direction to write at a bit for which the devices answered `id` and then `complement`;
`none` if no device answered. -/
def choose (bit : Nat) (id complement : Bool) (search : Search) : Option Bool × Search :=
  match id, complement with
  | true, true => (none, search)
  | true, false => (some true, search.take bit true)
  | false, true => (some false, search.take bit false)
  | false, false =>
    let direction := search.branch bit
    let search := if direction then search else { search with lastZero := bit + 1 }
    (some direction, search.take bit direction)

/-- The state after a whole pass, whose code is then `rom`. -/
def finishPass (search : Search) : Search :=
  { search with
    lastDiscrepancy := search.lastZero
    finished := search.finished || search.lastZero == 0 }

end Search

end BusBench.BitBang
