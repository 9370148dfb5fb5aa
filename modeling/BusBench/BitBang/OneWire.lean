import BusBench.BitBang.Gpio
import BusBench.BitBang.Search

/-!
# Bit-banged 1-Wire

A 1-Wire controller on one open-drain line, with the timings of standard speed. Bytes go least
significant bit first.

* `OneWire.resetPulse`: a reset, and whether any device is present.
* `OneWire.write`, `OneWire.read`: bytes.
* `OneWire.searchWithin`: the ROM codes of all devices, found in a limited number of passes.
-/

namespace BusBench.BitBang

inductive OneWireLine where
  | wire
  deriving DecidableEq, Repr

namespace OneWire

open Gpio (wait)

variable {σ : Type} [Gpio σ OneWireLine]

def idle : Drive σ Unit :=
  Gpio.drive .wire true

/-- Holds the line low for a time. -/
def low (us : Nat) : Drive σ Unit := do
  Gpio.drive .wire false
  wait us
  Gpio.drive .wire true

def sample : Drive σ Bool :=
  Gpio.sample OneWireLine.wire

/-- Resets the bus; answers whether any device shows its presence. -/
def resetPulse : Drive σ Bool := do
  low 480
  wait 70
  let high ← sample
  wait 410
  return !high

def writeBit (bit : Bool) : Drive σ Unit :=
  if bit then do
    low 6
    wait 64
  else do
    low 60
    wait 10

def readBit : Drive σ Bool := do
  low 6
  wait 9
  let bit ← sample
  wait 55
  return bit

def writeByte (byte : UInt8) : Drive σ Unit :=
  (Byte.bits byte).reverse.forM writeBit

/-- Reads a bit into its place in a byte. -/
def readBitInto (byte : UInt8) (i : Nat) : Drive σ UInt8 := do
  let bit ← readBit
  return byte ||| (if bit then 1 <<< UInt8.ofNat i else 0)

def readByte : Drive σ UInt8 :=
  (List.range 8).foldlM readBitInto 0

def write (bytes : List UInt8) : Drive σ Unit :=
  bytes.forM writeByte

/-- Reads bytes, behind those collected in reverse. -/
def collect : Nat → List UInt8 → Drive σ (List UInt8)
  | 0, collected => pure collected.reverse
  | n + 1, collected => do
    let byte ← readByte
    collect n (byte :: collected)

def read (count : Nat) : Drive σ (List UInt8) :=
  collect count []

/-! ## Search -/

/-- Follows the answers of the devices for some bits of their codes, from a bit on. The state is
`none` where the devices stopped answering. -/
def walk : Nat → Nat → Search → Drive σ (Option Search)
  | 0, _, search => return some search
  | n + 1, bit, search => do
    let id ← readBit
    let complement ← readBit
    match search.choose bit id complement with
    | (none, _) => return none
    | (some direction, search) =>
      writeBit direction
      walk n (bit + 1) search

def searchPass (search : Search) : Drive σ (Option Search) := do
  writeByte 0xF0
  let search ← walk 64 0 search.startPass
  return search.map (·.finishPass)

/-- The codes of all devices, behind those found in reverse. A line that contradicts itself may keep
a search going for ever, so the passes are limited; `none` if the limit is reached. -/
def searchFrom : Nat → Search → List Rom → Drive σ (Option (List Rom))
  | 0, _, _ => return none
  | n + 1, search, found => do
    if search.finished then return some found.reverse
    if !(← resetPulse) then return some found.reverse
    match ← searchPass search with
    | none => return some found.reverse
    | some search => searchFrom n search (search.rom :: found)

/-- The codes of all devices, found in fewer passes than `limit`. -/
def searchWithin (limit : Nat) : Drive σ (Option (List Rom)) :=
  searchFrom limit {} []

end OneWire

end BusBench.BitBang
