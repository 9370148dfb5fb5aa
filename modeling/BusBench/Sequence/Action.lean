import BusBench.Text.Numeral

/-!
# Actions

The steps of a bus sequence, and the token that writes each of them.

* `Action.count`: how many unit transfers an action stands for.
* `Action.token`: the text that reads back as the action.
-/

namespace BusBench

/-- A single step of a bus sequence. -/
inductive Action where
  /-- Start condition, chip select asserted or bus reset, as the bus has it. -/
  | start
  /-- Stop condition, or chip select released. -/
  | stop
  /-- The same byte, written `count` times. -/
  | write (value : UInt8) (count : UInt16)
  /-- `count` bytes, read. -/
  | read (count : UInt16)
  | clockTick (count : UInt16)
  | bitRead (count : UInt16)
  | clockHigh
  | clockLow
  | dataHigh
  | dataLow
  | readPin
  deriving DecidableEq, Repr

namespace Action

/-- How many unit transfers the action stands for; a marker counts as one. -/
def count : Action → UInt16
  | write _ n | read n | clockTick n | bitRead n => n
  | _ => 1

/-- The part of a token after its symbol: nothing for one transfer, else a colon and the count. -/
def repetition (n : UInt16) : List Char :=
  if 1 < n then ':' :: Text.Base.decimal.digits n.toNat else []

def token : Action → List Char
  | start => ['[']
  | stop => [']']
  | clockHigh => ['/']
  | clockLow => ['\\']
  | dataHigh => ['-']
  | dataLow => ['_']
  | readPin => ['.']
  | write value n => '0' :: 'x' :: Text.Base.hexadecimal.padded 2 value.toNat ++ repetition n
  | read n => 'r' :: repetition n
  | clockTick n => '^' :: repetition n
  | bitRead n => '!' :: repetition n

end Action

end BusBench
