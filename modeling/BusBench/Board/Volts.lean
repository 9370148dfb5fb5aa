import BusBench.Text.Numeral

/-!
# Measured voltages

A voltage is a binary32 number: a sign, and a mantissa times a power of two, or infinite, or no
number at all. It is printed with two places, rounded to the nearest hundredth and a tie to the even
one.

* `Volts.ofBits`: the voltage of a 32-bit pattern.
* `Volts.text`: two places after the point, the sign kept even before a zero.
* `Volts.isBelowTenth`: whether the voltage is below the binary32 number nearest to a tenth.
-/

namespace BusBench

inductive Volts where
  | notANumber
  | infinite (negative : Bool)
  /-- The number `mantissa * 2 ^ exponent`, or its opposite. -/
  | finite (negative : Bool) (mantissa : Nat) (exponent : Int)
  deriving DecidableEq, Repr

/-- The quotient rounded to the nearest integer, a tie to the even one. -/
def roundHalfEven (num den : Nat) : Nat :=
  let quotient := num / den
  let twice := 2 * (num % den)
  if twice < den then quotient
  else if den < twice then quotient + 1
  else quotient + quotient % 2

namespace Volts

/-- The voltage of a binary32 bit pattern. -/
def ofBits (pattern : UInt32) : Volts :=
  let negative := pattern.toNat.testBit 31
  let exponent : Nat := pattern.toNat / 0x800000 % 0x100
  let fraction : Nat := pattern.toNat % 0x800000
  if exponent = 255 then
    if fraction = 0 then .infinite negative else .notANumber
  else if exponent = 0 then .finite negative fraction (-149)
  else .finite negative (0x800000 + fraction) (exponent - 150)

/-- The numerator and denominator of `mantissa * 2 ^ exponent`. -/
def ratio (mantissa : Nat) : Int → Nat × Nat
  | .ofNat n => (mantissa <<< n, 1)
  | .negSucc n => (mantissa, 1 <<< (n + 1))

/-- The voltage in volts, with two places. -/
def text : Volts → String
  | notANumber => "NaN"
  | infinite negative => if negative then "-inf" else "inf"
  | finite negative mantissa exponent =>
    let (num, den) := ratio mantissa exponent
    let hundredths := roundHalfEven (num * 100) den
    let places := String.ofList (Text.Base.decimal.padded 2 (hundredths % 100))
    (if negative then "-" else "") ++ Text.decimal (hundredths / 100) ++ "." ++ places

/-- Whether the voltage is below a tenth of a volt, which in binary32 is `13421773 / 2 ^ 27`. -/
def isBelowTenth : Volts → Bool
  | notANumber => false
  | infinite negative => negative
  | finite negative mantissa exponent =>
    let (num, den) := ratio mantissa exponent
    negative || num <<< 27 < 13421773 * den

end Volts

end BusBench
