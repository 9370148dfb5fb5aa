/-!
# Bits of a byte

Bit `0` is the least significant one.

* `Byte.reverse`: the byte with its bits in the opposite order.
* `Byte.ofBits`: the byte with given bits, most significant first.
-/

namespace BusBench.Byte

def bit (b : UInt8) (i : Nat) : Bool :=
  b.toNat.testBit i

/-- The bits of a byte, most significant first. -/
def bits (b : UInt8) : List Bool :=
  [bit b 7, bit b 6, bit b 5, bit b 4, bit b 3, bit b 2, bit b 1, bit b 0]

/-- The byte with one more bit shifted in at its least significant end. -/
def shiftIn (b : UInt8) (bit : Bool) : UInt8 :=
  (b <<< 1) ||| (if bit then 1 else 0)

/-- The byte with the given bits, most significant first; of more than eight the last eight count.
-/
def ofBits (bits : List Bool) : UInt8 :=
  bits.foldl shiftIn 0

/-- The byte with its bits in the opposite order. -/
def reverse (b : UInt8) : UInt8 :=
  ofBits (bits b).reverse

end BusBench.Byte
