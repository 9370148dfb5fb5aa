/-!
# Numerals

Writing and reading natural numbers in the four bases of the command line.

* `Base.digits`: the digits of a number, most significant first, letters in upper case.
* `Base.value?`: the number that a digit string denotes.
-/

namespace BusBench.Text

/-- The bases in which numbers are written and read. -/
inductive Base where
  | binary
  | octal
  | decimal
  | hexadecimal
  deriving DecidableEq, Repr

/-- How many digits a base has. -/
def Base.radix : Base → Nat
  | binary => 2
  | octal => 8
  | decimal => 10
  | hexadecimal => 16

theorem Base.one_lt_radix (b : Base) : 1 < b.radix := by
  cases b <;> decide

/-! ## Writing -/

/-- The character of the digit `d < 16`. -/
def digitChar (d : Nat) : Char :=
  if d < 10 then Char.ofNat (48 + d) else Char.ofNat (55 + d)

/-- The digits of `n`, most significant first; `0` has one digit. -/
def Base.digits (b : Base) (n : Nat) : List Char :=
  if n < b.radix then [digitChar n]
  else b.digits (n / b.radix) ++ [digitChar (n % b.radix)]
termination_by n
decreasing_by
  have := b.one_lt_radix
  exact Nat.div_lt_self (by omega) this

/-- The digits of `n`, filled up with leading zeros to at least `width` of them. -/
def Base.padded (b : Base) (width n : Nat) : List Char :=
  let ds := b.digits n
  List.replicate (width - ds.length) '0' ++ ds

def decimal (n : Nat) : String :=
  String.ofList (Base.decimal.digits n)

/-- At least two hexadecimal digits, in upper case. -/
def hex (n : Nat) : String :=
  String.ofList (Base.hexadecimal.padded 2 n)

/-- At least eight binary digits. -/
def bits (n : Nat) : String :=
  String.ofList (Base.binary.padded 8 n)

/-- A byte as two hexadecimal digits in lower case. -/
def hexByte (b : UInt8) : List Char :=
  (Base.hexadecimal.padded 2 b.toNat).map Char.toLower

/-- Bytes as hexadecimal digits in lower case, two each, with nothing between them. -/
def hexBytes (bytes : List UInt8) : String :=
  String.ofList (bytes.flatMap hexByte)

/-! ## Reading -/

/-- What `c` is worth as a hexadecimal digit, in either case. -/
def digitValue? (c : Char) : Option Nat :=
  if '0' ≤ c ∧ c ≤ '9' then some (c.toNat - 48)
  else if 'A' ≤ c ∧ c ≤ 'F' then some (c.toNat - 55)
  else if 'a' ≤ c ∧ c ≤ 'f' then some (c.toNat - 87)
  else none

/-- What `c` is worth as a digit of the base. -/
def Base.digit? (b : Base) (c : Char) : Option Nat :=
  (digitValue? c).filter (· < b.radix)

/-- The number that `text` denotes in the base: one or more digits and nothing else. -/
def Base.value? (b : Base) (text : List Char) : Option Nat :=
  if text.isEmpty then none
  else text.foldlM (fun n c => (b.digit? c).map (n * b.radix + ·)) 0

/-- A number typed as the answer to a menu: decimal digits, with a plus sign allowed before them. -/
def answer? (text : List Char) : Option Nat :=
  match text with
  | '+' :: rest => Base.decimal.value? rest
  | _ => Base.decimal.value? text

end BusBench.Text
