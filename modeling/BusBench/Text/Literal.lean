import BusBench.Text.Numeral

/-!
# Integer literals

A literal is written `0x1F` or `0X1F` in hexadecimal, `0b101` in binary, `0o17` or with a bare
leading zero `017` in octal, and otherwise in decimal. It has 32 bits.

The prefix is looked for in the first two bytes of the text's UTF-8 form, so a text whose third byte
is the middle of a character cannot be read at all (`Fault.splitCharacter`).

* `read`: the value of a literal, or why there is none.
-/

namespace BusBench.Text.Literal

/-- Why a text has no value. -/
inductive Fault where
  /-- The text is no literal, or its value needs more than 32 bits. -/
  | malformed
  /-- The two bytes of the prefix would end inside a character. -/
  | splitCharacter
  deriving DecidableEq, Repr

/-- Whether the byte offset lies inside a character of the text. -/
def cutsCharacter : Nat → List Char → Bool
  | 0, _ => false
  | _, [] => false
  | offset + 1, c :: cs =>
    if c.utf8Size ≤ offset + 1 then cutsCharacter (offset + 1 - c.utf8Size) cs else true

/-- The base that the start of a literal picks, and the digits that follow it. -/
def body : List Char → Base × List Char
  | '0' :: 'x' :: ds => (.hexadecimal, ds)
  | '0' :: 'X' :: ds => (.hexadecimal, ds)
  | '0' :: 'b' :: ds => (.binary, ds)
  | '0' :: 'B' :: ds => (.binary, ds)
  | '0' :: 'o' :: ds => (.octal, ds)
  | '0' :: 'O' :: ds => (.octal, ds)
  | '0' :: d :: ds => (.octal, d :: ds)
  | ds => (.decimal, ds)

/-- The value of a literal. -/
def read (text : List Char) : Except Fault Nat :=
  if cutsCharacter 2 text then .error .splitCharacter
  else
    let (base, ds) := body text
    match base.value? ds with
    | some n => if n < UInt32.size then .ok n else .error .malformed
    | none => .error .malformed

end BusBench.Text.Literal
