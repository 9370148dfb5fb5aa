import BusBench.BitBang.Spi
import BusBench.Proofs.BitBang.Runs
import BusBench.Proofs.Bus.Byte

/-!
# SPI transfers bit by bit

Whatever the lines are, a transfer of bytes is a transfer of their bits, the most significant bit of
each byte first, and the bits that came in make up the bytes that are answered.

* `Spi.Exchanges`: bits that went out and bits that came in.
* `Spi.Exchanges.runs_transfer`: bytes from bits.
-/

namespace BusBench

namespace Byte

theorem length_bits (b : UInt8) : (bits b).length = 8 :=
  rfl

/-- Eight bits are those of the byte that they make up. -/
theorem bits_ofBits {levels : List Bool} (h : levels.length = 8) :
    bits (ofBits levels) = levels := by
  have hAll : ∀ a b c d e f g h,
      bits (ofBits [a, b, c, d, e, f, g, h]) = [a, b, c, d, e, f, g, h] := by
    decide +kernel
  match levels, h with
  | [a, b, c, d, e, f, g, h], _ => exact hAll a b c d e f g h

theorem length_flatMap_bits (bytes : List UInt8) :
    (bytes.flatMap bits).length = 8 * bytes.length := by
  induction bytes with
  | nil => rfl
  | cons b bytes ih =>
    rw [List.flatMap_cons, List.length_append, ih, length_bits, List.length_cons]
    omega

/-- Bytes with the same bits are the same. -/
theorem flatMap_bits_injective {bytes bytes' : List UInt8}
    (h : bytes.flatMap bits = bytes'.flatMap bits) : bytes = bytes' := by
  induction bytes generalizing bytes' with
  | nil =>
    have hLength := length_flatMap_bits bytes'
    rw [← h, List.flatMap_nil, List.length_nil] at hLength
    exact (List.eq_nil_of_length_eq_zero (by omega)).symm
  | cons b bytes ih =>
    cases bytes' with
    | nil => simp [bits] at h
    | cons b' bytes' =>
      have hBits : bits b ++ bytes.flatMap bits = bits b' ++ bytes'.flatMap bits := h
      obtain ⟨hHead, hTail⟩ := List.append_inj hBits rfl
      rw [← ofBits_bits b, hHead, ofBits_bits, ih hTail]

end Byte

namespace BitBang.Spi

open BusBench.Spi (Mode)
open Drive (Runs)

variable {σ : Type} [Gpio σ SpiLine] {mode : Mode} {half : Nat}

/-- Between two states bits went out one after the other, and for each of them one came in. -/
inductive Exchanges (mode : Mode) (half : Nat) : σ → List Bool → List Bool → σ → Prop
  | nil (s) : Exchanges mode half s [] [] s
  | cons {s s' s'' bit bits level levels}
    (hBit : Runs (transferBit mode half bit) s (.ok level) s')
    (h : Exchanges mode half s' bits levels s'') :
    Exchanges mode half s (bit :: bits) (level :: levels) s''

namespace Exchanges

variable {s s' : σ} {bits bits' levels : List Bool}

theorem length_eq (h : Exchanges mode half s bits levels s') : levels.length = bits.length := by
  induction h with
  | nil => rfl
  | cons hBit h ih => exact congrArg (· + 1) ih

theorem of_append (h : Exchanges mode half s (bits ++ bits') levels s') :
    ∃ front back mid, levels = front ++ back ∧ Exchanges mode half s bits front mid ∧
      Exchanges mode half mid bits' back s' := by
  induction bits generalizing s levels with
  | nil => exact ⟨[], levels, s, rfl, .nil s, h⟩
  | cons bit bits ih =>
    cases h with
    | cons hBit h =>
      obtain ⟨front, back, mid, rfl, hFront, hBack⟩ := ih h
      exact ⟨_ :: front, back, mid, rfl, .cons hBit hFront, hBack⟩

theorem runs_transferBits (h : Exchanges mode half s bits levels s') (byte : UInt8) :
    Runs (transferBits mode half bits byte) s (.ok (levels.foldl Byte.shiftIn byte)) s' := by
  induction h generalizing byte with
  | nil s => exact Runs.pure byte
  | cons hBit h ih => exact Runs.bind hBit (ih _)

theorem runs_collect {words : List UInt8} (collected : List UInt8)
    (h : Exchanges mode half s (words.flatMap Byte.bits) levels s') :
    ∃ answer : List UInt8, Runs (collect mode half words collected) s
        (.ok (collected.reverse ++ answer)) s' ∧ answer.flatMap Byte.bits = levels := by
  induction words generalizing s levels collected with
  | nil =>
    cases h
    exact ⟨[], by rw [List.append_nil]; exact Runs.pure _, rfl⟩
  | cons word words ih =>
    obtain ⟨front, back, mid, rfl, hWord, hWords⟩ := of_append h
    obtain ⟨answer, hRest, hBack⟩ := ih (Byte.ofBits front :: collected) hWords
    refine ⟨Byte.ofBits front :: answer, Runs.bind (hWord.runs_transferBits 0) ?_, ?_⟩
    · rw [List.reverse_cons, List.append_assoc] at hRest
      exact hRest
    · have hByte := Byte.bits_ofBits (hWord.length_eq.trans (Byte.length_bits word))
      rw [List.flatMap_cons, hBack, hByte]

/-- The bits of the answer are those that came in. -/
theorem runs_transfer {words : List UInt8}
    (h : Exchanges mode half s (words.flatMap Byte.bits) levels s') :
    ∃ answer : List UInt8, Runs (transfer mode half words) s (.ok answer) s' ∧
      answer.flatMap Byte.bits = levels :=
  h.runs_collect []

/-- Where every bit comes back, so do the bytes. -/
theorem runs_same {bytes : List UInt8}
    (h : Exchanges mode half s (bytes.flatMap Byte.bits) (bytes.flatMap Byte.bits) s') :
    Runs (transfer mode half bytes) s (.ok bytes) s' := by
  obtain ⟨answer, hRun, hAnswer⟩ := h.runs_transfer
  rwa [Byte.flatMap_bits_injective hAnswer] at hRun

end Exchanges

end BitBang.Spi

end BusBench
