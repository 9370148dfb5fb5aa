import Mathlib.Data.List.Basic
import BusBench.Text.Literal

/-!
# Numerals read back

Reading undoes writing: the digits of a number, with any number of zeros before them, denote that
number in every base, and the literals written in decimal and in hexadecimal denote their numbers.

* `Base.value?_padded`: padded digits denote the number they were made from.
* `Literal.read_digits`, `Literal.read_padded`: the decimal and the hexadecimal literal of a number.
-/

namespace BusBench.Text

/-! ## Digits -/

theorem digitValue?_digitChar {d : Nat} (hd : d < 16) : digitValue? (digitChar d) = some d := by
  revert d
  decide

theorem toNat_lt_of_digit {c : Char} (hc : (digitValue? c).isSome) : c.toNat < 128 := by
  unfold digitValue? at hc
  split_ifs at hc with hDecimal hUpper hLower
  · exact Nat.lt_of_le_of_lt (UInt32.le_iff_toNat_le.mp hDecimal.2) (by decide)
  · exact Nat.lt_of_le_of_lt (UInt32.le_iff_toNat_le.mp hUpper.2) (by decide)
  · exact Nat.lt_of_le_of_lt (UInt32.le_iff_toNat_le.mp hLower.2) (by decide)
  · cases hc

theorem utf8Size_of_toNat_lt {c : Char} (h : c.toNat < 128) : c.utf8Size = 1 := by
  have hVal : c.val ≤ 0x7F := UInt32.le_iff_toNat_le.mpr (Nat.le_of_lt_succ h)
  simp [Char.utf8Size, hVal]

/-- Digits are ASCII, so that two bytes of a numeral are two characters. -/
theorem utf8Size_of_digit {c : Char} (hc : (digitValue? c).isSome) : c.utf8Size = 1 :=
  utf8Size_of_toNat_lt (toNat_lt_of_digit hc)

namespace Base

theorem radix_le_sixteen (b : Base) : b.radix ≤ 16 := by
  cases b <;> decide

theorem digit?_digitChar (b : Base) {d : Nat} (hd : d < b.radix) :
    b.digit? (digitChar d) = some d := by
  have hSixteen := b.radix_le_sixteen
  rw [digit?, digitValue?_digitChar (by omega)]
  simp [hd]

theorem digits_ne_nil (b : Base) (n : Nat) : b.digits n ≠ [] := by
  fun_induction digits b n <;> simp

theorem isSome_digitValue?_of_mem_digits (b : Base) {n : Nat} {c : Char} (hc : c ∈ b.digits n) :
    (digitValue? c).isSome := by
  have hSixteen := b.radix_le_sixteen
  have hRadix := b.one_lt_radix
  fun_induction digits b n with
  | case1 n hn =>
    rw [List.mem_singleton.mp hc, digitValue?_digitChar (by omega)]
    rfl
  | case2 n hn ih =>
    rcases List.mem_append.mp hc with hc | hc
    · exact ih hc
    · have hLast : n % b.radix < b.radix := Nat.mod_lt n (by omega)
      rw [List.mem_singleton.mp hc, digitValue?_digitChar (by omega)]
      rfl

theorem isSome_digitValue?_of_mem_padded (b : Base) {width n : Nat} {c : Char}
    (hc : c ∈ b.padded width n) : (digitValue? c).isSome := by
  rcases List.mem_append.mp hc with hZero | hDigit
  · rw [(List.mem_replicate.mp hZero).2]
    rfl
  · exact b.isSome_digitValue?_of_mem_digits hDigit

/-- Only the number zero has a leading zero. -/
theorem head?_digits_ne_zero (b : Base) {n : Nat} (hPos : 0 < n) :
    (b.digits n).head? ≠ some '0' := by
  have hSixteen := b.radix_le_sixteen
  have hRadix := b.one_lt_radix
  fun_induction digits b n with
  | case1 n hn =>
    have hDigit : ∀ d < 16, 0 < d → digitChar d ≠ '0' := by decide
    simpa using hDigit n (by omega) hPos
  | case2 n hn ih =>
    rw [List.head?_append_of_ne_nil _ (b.digits_ne_nil _)]
    exact ih (Nat.div_pos (by omega) (by omega))

/-! ## Values -/

/-- One digit more. -/
def shiftIn (b : Base) (n : Nat) (c : Char) : Option Nat :=
  (b.digit? c).map (n * b.radix + ·)

theorem value?_eq_foldlM (b : Base) {text : List Char} (h : text ≠ []) :
    b.value? text = text.foldlM b.shiftIn 0 := by
  simp only [value?, List.isEmpty_iff, if_neg h]
  rfl

theorem shiftIn_digitChar (b : Base) (n : Nat) {d : Nat} (hd : d < b.radix) :
    b.shiftIn n (digitChar d) = some (n * b.radix + d) := by
  rw [shiftIn, b.digit?_digitChar hd]
  rfl

theorem foldlM_digits (b : Base) (n : Nat) : (b.digits n).foldlM b.shiftIn 0 = some n := by
  have hRadix := b.one_lt_radix
  fun_induction digits b n with
  | case1 n hn => simp [b.shiftIn_digitChar 0 hn]
  | case2 n hn ih =>
    have hLast : n % b.radix < b.radix := Nat.mod_lt n (by omega)
    simp [List.foldlM_append, ih, b.shiftIn_digitChar _ hLast, Nat.div_add_mod']

theorem foldlM_zeros (b : Base) (k : Nat) (text : List Char) :
    (List.replicate k '0' ++ text).foldlM b.shiftIn 0 = text.foldlM b.shiftIn 0 := by
  have hZero : b.shiftIn 0 '0' = some 0 := by cases b <;> decide
  induction k with
  | zero => rfl
  | succ k ih => simpa [List.replicate_succ, hZero] using ih

theorem value?_padded (b : Base) (width n : Nat) : b.value? (b.padded width n) = some n := by
  have hNonempty : b.padded width n ≠ [] := by simp [padded, b.digits_ne_nil]
  rw [b.value?_eq_foldlM hNonempty, padded, foldlM_zeros, foldlM_digits]

theorem value?_digits (b : Base) (n : Nat) : b.value? (b.digits n) = some n := by
  rw [b.value?_eq_foldlM (b.digits_ne_nil n), foldlM_digits]

end Base

/-! ## Literals -/

namespace Literal

theorem cutsCharacter_ascii (offset : Nat) {text : List Char}
    (h : ∀ c ∈ text, c.utf8Size = 1) : cutsCharacter offset text = false := by
  induction text generalizing offset with
  | nil => cases offset <;> rfl
  | cons c text ih =>
    cases offset with
    | zero => rfl
    | succ offset =>
      have hTail := ih offset fun d hd => h d (List.mem_cons_of_mem c hd)
      simp [cutsCharacter, h c List.mem_cons_self, hTail]

theorem body_of_head?_ne_zero {text : List Char} (h : text.head? ≠ some '0') :
    body text = (.decimal, text) := by
  unfold body
  split <;> simp_all

theorem read_of_body {text ds : List Char} {b : Base} {n : Nat}
    (hAscii : ∀ c ∈ text, c.utf8Size = 1) (hBody : body text = (b, ds))
    (hValue : b.value? ds = some n) (hn : n < UInt32.size) : read text = .ok n := by
  simp [read, cutsCharacter_ascii 2 hAscii, hBody, hValue, hn]

/-- The bare digits of a number are its decimal literal. -/
theorem read_digits {n : Nat} (hn : n < UInt32.size) : read (Base.decimal.digits n) = .ok n := by
  have hAscii : ∀ c ∈ Base.decimal.digits n, c.utf8Size = 1 := fun c hc =>
    utf8Size_of_digit (Base.decimal.isSome_digitValue?_of_mem_digits hc)
  refine read_of_body hAscii ?_ (Base.decimal.value?_digits n) hn
  rcases Nat.eq_zero_or_pos n with rfl | hPos
  · simp [Base.digits, Base.radix, digitChar, body]
  · exact body_of_head?_ne_zero (Base.decimal.head?_digits_ne_zero hPos)

theorem read_padded (width : Nat) {n : Nat} (hn : n < UInt32.size) :
    read ('0' :: 'x' :: Base.hexadecimal.padded width n) = .ok n := by
  refine read_of_body ?_ rfl (Base.hexadecimal.value?_padded width n) hn
  intro c hc
  rcases List.mem_cons.mp hc with rfl | hc
  · rfl
  rcases List.mem_cons.mp hc with rfl | hc
  · rfl
  exact utf8Size_of_digit (Base.hexadecimal.isSome_digitValue?_of_mem_padded hc)

end Literal

end BusBench.Text
