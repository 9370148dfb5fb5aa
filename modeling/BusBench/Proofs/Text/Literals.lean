import Mathlib.Data.List.Forall2
import Mathlib.Data.Nat.Digits.Defs
import Mathlib.Data.String.Basic
import Mathlib.Tactic.Ring
import BusBench.Prompt.Command
import BusBench.Proofs.Text.Numerals
import BusBench.Terminal.Script

/-!
# Which texts are literals

The literals are given by a grammar: a prefix that picks the base, and digits of that base. Reading
accepts exactly the literals of the grammar whose value has 32 bits, and answers that value. It
fails hard exactly where the prefix of two bytes would end inside a character.

* `Numeral`: digits and the number they make up.
* `Literal.Denotes`: the grammar of literals, with their values.
* `Literal.denotes_iff`: what the prefix and the digits of a text come to.
* `Literal.cutsCharacter_toList`: where an offset is not the boundary of a character.
* `Literal.read_by_grammar`: what is read of a text, and that what the command `=` shows is read
  back.
-/

namespace BusBench.Text

/-! ## Numerals -/

/-- The character stands for the digit `d`, where letters may be in either case. -/
structure IsDigit (radix : Nat) (c : Char) (d : Nat) : Prop where
  lt : d < radix
  spelled : c = d.digitChar ∨ c = d.digitChar.toUpper

/-- The text consists of one or more digits, the most significant first, which make up `n`. -/
def Numeral (radix : Nat) (text : List Char) (n : Nat) : Prop :=
  ∃ ds : List Nat, ds ≠ [] ∧ List.Forall₂ (IsDigit radix) text ds ∧ n = Nat.ofDigits radix ds.reverse

theorem digitValue?_eq_some_iff {c : Char} {d : Nat} : digitValue? c = some d ↔ IsDigit 16 c d := by
  constructor
  · intro hValue
    have hAscii : ∀ k < 128, ∀ d ∈ digitValue? (Char.ofNat k),
        d < 16 ∧ (Char.ofNat k = d.digitChar ∨ Char.ofNat k = d.digitChar.toUpper) := by
      decide +kernel
    have hLow : c.toNat < 128 := toNat_lt_of_digit (by rw [hValue]; rfl)
    have hDigit := hAscii c.toNat hLow d (by rw [Char.ofNat_toNat]; exact hValue)
    rw [Char.ofNat_toNat] at hDigit
    exact ⟨hDigit.1, hDigit.2⟩
  · rintro ⟨hLt, hSpelled⟩
    have hBoth : ∀ d < 16, digitValue? d.digitChar = some d ∧
        digitValue? d.digitChar.toUpper = some d := by decide +kernel
    rcases hSpelled with rfl | rfl
    · exact (hBoth d hLt).1
    · exact (hBoth d hLt).2

/-- There is nothing in a numeral but letters and decimal digits. -/
theorem isAlphanum_of_numeral {radix n : Nat} {text : List Char} (hRadix : radix ≤ 16)
    (h : Numeral radix text n) : ∀ c ∈ text, c.isAlphanum = true := by
  have hDigits : ∀ d < 16, d.digitChar.isAlphanum = true ∧ d.digitChar.toUpper.isAlphanum = true := by
    decide
  obtain ⟨ds, -, hForall, -⟩ := h
  induction hForall with
  | nil => exact nofun
  | cons hDigit _ ih =>
    have hLt := hDigit.lt
    refine List.forall_mem_cons.mpr ⟨?_, ih⟩
    rcases hDigit.spelled with rfl | rfl
    · exact (hDigits _ (by omega)).1
    · exact (hDigits _ (by omega)).2

namespace Base

variable {b : Base} {text : List Char} {n : Nat}

theorem digit?_eq_some_iff {c : Char} {d : Nat} : b.digit? c = some d ↔ IsDigit b.radix c d := by
  have hSixteen := b.radix_le_sixteen
  simp only [digit?, Option.filter_eq_some_iff, digitValue?_eq_some_iff, decide_eq_true_eq]
  constructor
  · rintro ⟨hDigit, hLt⟩
    exact ⟨hLt, hDigit.spelled⟩
  · intro hDigit
    exact ⟨⟨Nat.lt_of_lt_of_le hDigit.lt hSixteen, hDigit.spelled⟩, hDigit.lt⟩

/-- The digits are shifted in behind `m`. -/
theorem foldlM_shiftIn_eq_some_iff (m : Nat) : text.foldlM b.shiftIn m = some n ↔
    ∃ ds : List Nat, List.Forall₂ (IsDigit b.radix) text ds ∧
      n = m * b.radix ^ ds.length + Nat.ofDigits b.radix ds.reverse := by
  induction text generalizing m with
  | nil => simp [List.forall₂_nil_left_iff, eq_comm]
  | cons c text ih =>
    have hShift (d : Nat) (ds : List Nat) :
        (m * b.radix + d) * b.radix ^ ds.length + Nat.ofDigits b.radix ds.reverse =
          m * b.radix ^ (d :: ds).length + Nat.ofDigits b.radix (d :: ds).reverse := by
      rw [Nat.ofDigits_reverse_cons, List.length_cons, Nat.pow_succ]
      ring
    simp only [List.foldlM_cons, Option.bind_eq_bind, Option.bind_eq_some_iff, shiftIn,
      Option.map_eq_some_iff, digit?_eq_some_iff, List.forall₂_cons_left_iff]
    constructor
    · rintro ⟨_, ⟨d, hDigit, rfl⟩, hRest⟩
      obtain ⟨ds, hDigits, rfl⟩ := (ih _).mp hRest
      exact ⟨d :: ds, ⟨d, ds, hDigit, hDigits, rfl⟩, hShift d ds⟩
    · rintro ⟨_, ⟨d, ds, hDigit, hDigits, rfl⟩, rfl⟩
      exact ⟨_, ⟨d, hDigit, rfl⟩, (ih _).mpr ⟨ds, hDigits, (hShift d ds).symm⟩⟩

theorem value?_eq_some_iff : b.value? text = some n ↔ Numeral b.radix text n := by
  cases text with
  | nil =>
    refine iff_of_false nofun ?_
    rintro ⟨ds, hNonempty, hDigits, -⟩
    exact hNonempty (List.forall₂_nil_left_iff.mp hDigits)
  | cons c text =>
    rw [b.value?_eq_foldlM (List.cons_ne_nil c text), foldlM_shiftIn_eq_some_iff]
    constructor
    · rintro ⟨ds, hDigits, rfl⟩
      refine ⟨ds, ?_, hDigits, by rw [Nat.zero_mul, Nat.zero_add]⟩
      rintro rfl
      cases hDigits
    · rintro ⟨ds, -, hDigits, rfl⟩
      exact ⟨ds, hDigits, by rw [Nat.zero_mul, Nat.zero_add]⟩

end Base

/-! ## The grammar -/

namespace Literal

/-- The literals and their values, however large. -/
inductive Denotes : List Char → Nat → Prop
  | hexadecimal {x ds n} (hLetter : x = 'x' ∨ x = 'X') (h : Numeral 16 ds n) :
    Denotes ('0' :: x :: ds) n
  | binary {x ds n} (hLetter : x = 'b' ∨ x = 'B') (h : Numeral 2 ds n) : Denotes ('0' :: x :: ds) n
  | octal {x ds n} (hLetter : x = 'o' ∨ x = 'O') (h : Numeral 8 ds n) : Denotes ('0' :: x :: ds) n
  | bareOctal {ds n} (h : Numeral 8 ds n) : Denotes ('0' :: ds) n
  | zero : Denotes ['0'] 0
  | decimal {d ds n} (hZero : d ≠ '0') (h : Numeral 10 (d :: ds) n) : Denotes (d :: ds) n

variable {text : List Char} {n : Nat}

theorem Denotes.isAlphanum (h : Denotes text n) : ∀ c ∈ text, c.isAlphanum = true := by
  cases h with
  | hexadecimal hLetter h | binary hLetter h | octal hLetter h =>
    refine List.forall_mem_cons.mpr
      ⟨rfl, List.forall_mem_cons.mpr ⟨?_, isAlphanum_of_numeral (by decide) h⟩⟩
    rcases hLetter with rfl | rfl <;> rfl
  | bareOctal h => exact List.forall_mem_cons.mpr ⟨rfl, isAlphanum_of_numeral (by decide) h⟩
  | zero => exact List.forall_mem_singleton.mpr rfl
  | decimal _ h => exact isAlphanum_of_numeral (by decide) h

/-- An octal digit is no letter of a prefix. -/
theorem body_bareOctal {c : Char} {d : Nat} (hDigit : IsDigit 8 c d) (ds : List Char) :
    body ('0' :: c :: ds) = (.octal, c :: ds) := by
  have hDigits : ∀ d < 8,
      d.digitChar.toNat < 'B'.toNat ∧ d.digitChar.toUpper.toNat < 'B'.toNat := by
    decide
  have hLetters : ∀ x ∈ ['x', 'X', 'b', 'B', 'o', 'O'], 'B'.toNat ≤ x.toNat := by
    simp
  have hOther : c ∉ ['x', 'X', 'b', 'B', 'o', 'O'] := by
    intro hMem
    obtain ⟨hLower, hUpper⟩ := hDigits d hDigit.lt
    have hLetter := hLetters c hMem
    rcases hDigit.spelled with rfl | rfl
    · exact Nat.not_le_of_lt hLower hLetter
    · exact Nat.not_le_of_lt hUpper hLetter
  unfold body
  split <;> simp_all

/-- A text denotes what its digits make up in the base that its prefix picks. -/
theorem denotes_iff : Denotes text n ↔ (body text).1.value? (body text).2 = some n := by
  constructor
  · intro h
    rw [Base.value?_eq_some_iff]
    cases h with
    | hexadecimal hLetter h | binary hLetter h | octal hLetter h =>
      rcases hLetter with rfl | rfl <;> exact h
    | @bareOctal ds _ h =>
      obtain ⟨values, hNonempty, hDigits, rfl⟩ := h
      cases hDigits with
      | nil => exact absurd rfl hNonempty
      | cons hDigit hDigits =>
        rw [body_bareOctal hDigit]
        exact ⟨_, hNonempty, .cons hDigit hDigits, rfl⟩
    | zero => exact ⟨[0], List.cons_ne_nil _ _, .cons ⟨by decide, .inl rfl⟩ .nil, rfl⟩
    | @decimal d ds _ hZero h =>
      rw [body_of_head?_ne_zero (by simpa using hZero)]
      exact h
  · intro hValue
    have h := Base.value?_eq_some_iff.mp hValue
    unfold body at h hValue
    split at h
    case h_1 | h_2 => exact .hexadecimal (by simp) h
    case h_3 | h_4 => exact .binary (by simp) h
    case h_5 | h_6 => exact .octal (by simp) h
    case h_7 => exact .bareOctal h
    case h_8 hNot =>
      -- no two characters of a prefix: the text is empty, a lone zero, or starts with another digit
      cases text with
      | nil => cases hValue
      | cons d ds =>
        by_cases hZero : d = '0'
        · subst hZero
          cases ds with
          | nil =>
            cases hValue
            exact .zero
          | cons c ds => exact absurd rfl (hNot c ds)
        · exact .decimal hZero h

/-! ## Boundaries of characters -/

theorem forall_take_cons_ne_iff {offset : Nat} {c : Char} :
    (∀ i, String.utf8Len ((c :: text).take i) ≠ offset + 1) ↔
      ∀ i, String.utf8Len (text.take i) + c.utf8Size ≠ offset + 1 := by
  constructor
  · exact fun h i => h (i + 1)
  · intro h i
    cases i with
    | zero => exact (Nat.succ_ne_zero offset).symm
    | succ i => exact h i

/-- The offset lies in the text, but no number of its first characters comes to it. -/
theorem cutsCharacter_eq_true_iff {offset : Nat} :
    cutsCharacter offset text = true ↔
      offset ≤ String.utf8Len text ∧ ∀ i, String.utf8Len (text.take i) ≠ offset := by
  fun_induction cutsCharacter offset text with
  | case1 text => exact iff_of_false nofun fun h => h.2 0 rfl
  | case2 offset hOffset => exact iff_of_false nofun fun h => hOffset (Nat.le_zero.mp h.1)
  | case3 offset c text hFits ih =>
    rw [ih, forall_take_cons_ne_iff, String.utf8Len_cons]
    refine and_congr (by omega) (forall_congr' fun i => ?_)
    omega
  | case4 offset c text hTooLong =>
    rw [forall_take_cons_ne_iff, String.utf8Len_cons]
    exact iff_of_true rfl ⟨by omega, fun i => by omega⟩

theorem cutsCharacter_toList {offset : Nat} {text : String} :
    cutsCharacter offset text.toList = true ↔
      offset ≤ text.utf8ByteSize ∧ ¬ String.Pos.Raw.IsValid text ⟨offset⟩ := by
  have hSize : text.utf8ByteSize = String.utf8Len text.toList := by
    rw [← String.utf8ByteSize_ofList, String.ofList_toList]
  rw [cutsCharacter_eq_true_iff, hSize, String.Pos.Raw.isValid_iff_exists_take_toList, not_exists]
  refine and_congr_right fun _ => forall_congr' fun i => ?_
  rw [String.utf8ByteSize_ofList]
  exact ne_comm

/-! ## Reading -/

theorem toNat_lt_of_isAlphanum {c : Char} (h : c.isAlphanum = true) : c.toNat < 128 := by
  have hBound {last : Char} (hLast : c.val ≤ last.val) (h : last.toNat < 128) : c.toNat < 128 :=
    Nat.lt_of_le_of_lt (UInt32.le_iff_toNat_le.mp hLast) h
  rcases Bool.or_eq_true_iff.mp h with hAlpha | hDigit
  · rcases Bool.or_eq_true_iff.mp hAlpha with hUpper | hLower
    · have hLetter : 'A'.val ≤ c.val ∧ c.val ≤ 'Z'.val := of_decide_eq_true hUpper
      exact hBound hLetter.2 (by decide)
    · have hLetter : c.val ≤ 'z'.val := of_decide_eq_true (Bool.and_eq_true_iff.mp hLower).2
      exact hBound hLetter (by decide)
  · have hLast : c.val ≤ '9'.val := of_decide_eq_true (Bool.and_eq_true_iff.mp hDigit).2
    exact hBound hLast (by decide)

theorem read_eq_ok_iff : read text = .ok n ↔ Denotes text n ∧ n < 2 ^ 32 := by
  constructor
  · intro h
    unfold read at h
    split at h
    · cases h
    · simp only at h
      split at h
      · next hValue =>
        split at h
        · next hSmall =>
          cases h
          exact ⟨denotes_iff.mpr hValue, hSmall⟩
        · cases h
      · cases h
  · rintro ⟨hDenotes, hSmall⟩
    have hWhole : cutsCharacter 2 text = false := cutsCharacter_ascii 2 fun c hc =>
      utf8Size_of_toNat_lt (toNat_lt_of_isAlphanum (hDenotes.isAlphanum c hc))
    have hSize : n < UInt32.size := hSmall
    simp [read, hWhole, denotes_iff.mp hDenotes, hSize]

theorem read_eq_splitCharacter_iff :
    read text = .error .splitCharacter ↔ cutsCharacter 2 text = true := by
  unfold read
  split
  · next hCuts => exact iff_of_true rfl hCuts
  · next hCuts =>
    refine iff_of_false ?_ hCuts
    simp only
    split
    · split <;> nofun
    · nofun

theorem read_binary (width : Nat) (hn : n < 2 ^ 32) :
    read ('0' :: 'b' :: Base.binary.padded width n) = .ok n :=
  read_eq_ok_iff.mpr
    ⟨.binary (.inl rfl) (Base.value?_eq_some_iff.mp (Base.binary.value?_padded width n)), hn⟩

/-- The command `=` shows the number it reads. -/
theorem runCommand_convert {β τ : Type} [Terminal τ] {args : List Char}
    (h : read (trim args) = .ok n) :
    (Bench.runCommand ('=' :: args) : Act Bench β τ Error Flow) =
      Bench.andContinue (Act.writeLine (Bench.spellings n)) := by
  have hLiteral : (Bench.readLiteral (trim args) : Act Bench β τ Error (Option Nat)) =
      pure (some n) := by
    rw [Bench.readLiteral, h]
  change Bench.andContinue (Bench.convert (trim args) id) = _
  rw [Bench.convert, hLiteral, pure_bind]
  rfl

/-- A text is read without success as one whose first two bytes end inside a character, or as a
literal with its value, or else not at all. What the command `=` shows of a number is read back as
that number. -/
theorem read_by_grammar {β τ : Type} [Terminal τ] :
    (∀ text : String,
      (read text.toList = .error .splitCharacter ↔
        2 ≤ text.utf8ByteSize ∧ ¬ String.Pos.Raw.IsValid text ⟨2⟩) ∧
      (∀ n, read text.toList = .ok n ↔ Denotes text.toList n ∧ n < 2 ^ 32) ∧
      (∀ n, read text.toList = .ok n → ∀ c ∈ text.toList, c.isAlphanum = true)) ∧
    ∀ n < 2 ^ 32,
      read ("0x" ++ hex n).toList = .ok n ∧ read (decimal n).toList = .ok n ∧
      read ("0b" ++ bits n).toList = .ok n ∧
      ∀ args, read (trim args) = .ok n →
        (Bench.runCommand ('=' :: args) : Act Bench β τ Error Flow) = Bench.andContinue
          (Act.writeLine ("0x" ++ hex n ++ " = " ++ decimal n ++ " = " ++ bits n ++ " ")) := by
  refine ⟨fun text => ⟨?_, fun n => read_eq_ok_iff, fun n h => ?_⟩, fun n hn => ⟨?_, ?_, ?_, ?_⟩⟩
  · rw [read_eq_splitCharacter_iff, cutsCharacter_toList]
  · exact (read_eq_ok_iff.mp h).1.isAlphanum
  · simpa [hex] using read_padded 2 hn
  · simpa [decimal] using read_digits hn
  · simpa [bits] using read_binary 8 hn
  · exact fun args h => runCommand_convert h

/-- The largest number, behind zeros and a blank, is read, shown and read back. -/
theorem read_by_grammar_largest :
    let n := 0xFFFFFFFF
    let args := " 0X00FfFFFFfF".toList
    read (trim args) = .ok n ∧ (∀ c ∈ trim args, c.isAlphanum = true) ∧
      read ("0b" ++ bits n).toList = .ok n ∧
      (Bench.runCommand ('=' :: args) : Act Bench Unit Script Error Flow) = Bench.andContinue
        (Act.writeLine ("0x" ++ hex n ++ " = " ++ decimal n ++ " = " ++ bits n ++ " ")) := by
  intro n args
  obtain ⟨hTexts, hNumbers⟩ := read_by_grammar (β := Unit) (τ := Script)
  have hTrim : trim args = "0X00FfFFFFfF".toList := by decide +kernel
  have hNumeral : Numeral 16 "00FfFFFFfF".toList n := by
    refine Base.value?_eq_some_iff (b := .hexadecimal).mp ?_
    decide +kernel
  have hRead : read (trim args) = .ok n := by
    rw [hTrim]
    exact ((hTexts _).2.1 n).mpr ⟨.hexadecimal (.inr rfl) hNumeral, by decide⟩
  refine ⟨hRead, ?_, (hNumbers n (by decide)).2.2.1, (hNumbers n (by decide)).2.2.2 args hRead⟩
  rw [hTrim] at hRead ⊢
  exact (hTexts _).2.2 n hRead

end Literal

end BusBench.Text
