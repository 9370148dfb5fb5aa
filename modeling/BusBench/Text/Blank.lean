/-!
# Blank characters

The characters of the Unicode property White_Space, and cutting them off both ends of a text.

* `trim`: the text without the blanks at its ends.
-/

namespace BusBench.Text

/-- The code points of the property White_Space, as closed ranges. -/
def blankRanges : List (Nat × Nat) :=
  [(0x09, 0x0D), (0x20, 0x20), (0x85, 0x85), (0xA0, 0xA0), (0x1680, 0x1680), (0x2000, 0x200A),
   (0x2028, 0x2029), (0x202F, 0x202F), (0x205F, 0x205F), (0x3000, 0x3000)]

/-- Whether `c` has the property White_Space. -/
def isBlank (c : Char) : Bool :=
  blankRanges.any fun range => range.1 ≤ c.toNat && c.toNat ≤ range.2

/-- The text without the characters at its end that satisfy `p`. -/
def dropEnd (p : Char → Bool) (text : List Char) : List Char :=
  (text.reverse.dropWhile p).reverse

/-- The text without the characters at both ends that satisfy `p`. -/
def trimBy (p : Char → Bool) (text : List Char) : List Char :=
  dropEnd p (text.dropWhile p)

/-- The text without the blanks at its ends. -/
def trim (text : List Char) : List Char :=
  trimBy isBlank text

end BusBench.Text
