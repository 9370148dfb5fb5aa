import BusBench.Bus.Byte

/-!
# Bytes and their bits

A byte sent bit by bit arrives as it was, whichever end goes first.

* `Byte.ofBits_bits`: most significant bit first.
* `Byte.foldl_shiftDown_reverse_bits`: least significant bit first.
-/

namespace BusBench.Byte

/-- There are only 256 bytes to look at. -/
theorem forall_of_lt {P : UInt8 → Prop} (h : ∀ n < 256, P (UInt8.ofNat n)) (b : UInt8) : P b := by
  have := h b.toNat b.toNat_lt
  rwa [UInt8.ofNat_toNat] at this

theorem ofBits_bits (b : UInt8) : ofBits (bits b) = b :=
  forall_of_lt (P := fun b => ofBits (bits b) = b) (by decide +kernel) b

theorem drop_bits (b : UInt8) {i : Nat} (hi : i < 8) :
    (bits b).drop i = bit b (7 - i) :: (bits b).drop (i + 1) := by
  match i, hi with
  | 0, _ | 1, _ | 2, _ | 3, _ | 4, _ | 5, _ | 6, _ | 7, _ => rfl

/-- The byte with one more bit shifted in at its most significant end. -/
def shiftDown (b : UInt8) (bit : Bool) : UInt8 :=
  (b >>> 1) ||| (if bit then 0x80 else 0)

theorem foldl_shiftDown_reverse_bits (b : UInt8) : (bits b).reverse.foldl shiftDown 0 = b :=
  forall_of_lt (P := fun b => (bits b).reverse.foldl shiftDown 0 = b) (by decide +kernel) b

end BusBench.Byte
