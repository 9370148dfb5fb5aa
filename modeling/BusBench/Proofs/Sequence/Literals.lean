import BusBench.Proofs.Sequence.Composition
import BusBench.Proofs.Sequence.Spelling
import BusBench.Proofs.Text.Literals

/-!
# Literals in sequences

Which characters go on with a number is decided apart from which texts are literals. The two agree
on every literal but those that the letter `o` marks as octal: there the number ends before the
letter, and the letter by itself is no token. All other literals write their value, on their own and
with a repeat count, which may be any such literal too.

* `marksOctal`: the literals on which the two disagree.
* `Literal.isDigitClass_of_denotes`, `Literal.exists_of_marksOctal`: the characters of literals.
* `tokens_cut`: where a number ends before the letter `o`.
* `parse_literals`: what becomes of a literal, alone and before a repeat count.
-/

namespace BusBench.Sequence

open Text (IsDigit Numeral)
open Text.Literal (Denotes read)

/-- Whether a literal is marked as octal by the letter `o`. -/
def marksOctal (text : List Char) : Bool :=
  text.contains 'o' || text.contains 'O'

/-! ## The characters of literals -/

/-- No digit is the letter `o`. -/
theorem ne_of_isDigitClass {c : Char} (h : isDigitClass c) : c ≠ 'o' ∧ c ≠ 'O' := by
  constructor
  · rintro rfl
    cases h
  · rintro rfl
    cases h

theorem marksOctal_eq_false {text : List Char} (h : ∀ c ∈ text, isDigitClass c) :
    marksOctal text = false := by
  have hLetters : 'o' ∉ text ∧ 'O' ∉ text :=
    ⟨fun hc => (ne_of_isDigitClass (h _ hc)).1 rfl, fun hc => (ne_of_isDigitClass (h _ hc)).2 rfl⟩
  simpa [marksOctal] using hLetters

theorem isDigitClass_of_isDigit {radix d : Nat} {c : Char} (hRadix : radix ≤ 16)
    (h : IsDigit radix c d) : isDigitClass c := by
  have hValue : Text.digitValue? c = some d :=
    Text.digitValue?_eq_some_iff.mpr ⟨Nat.lt_of_lt_of_le h.lt hRadix, h.spelled⟩
  simp [isDigitClass, hValue]

theorem isDigitClass_of_numeral {radix n : Nat} {text : List Char} (hRadix : radix ≤ 16)
    (h : Numeral radix text n) : ∀ c ∈ text, isDigitClass c := by
  obtain ⟨ds, -, hDigits, -⟩ := h
  induction hDigits with
  | nil => exact nofun
  | cons hDigit _ ih => exact List.forall_mem_cons.mpr ⟨isDigitClass_of_isDigit hRadix hDigit, ih⟩

theorem exists_cons_of_numeral {radix n : Nat} {text : List Char} (h : Numeral radix text n) :
    ∃ d ds, text = d :: ds := by
  obtain ⟨values, hNonempty, hDigits, -⟩ := h
  cases hDigits with
  | nil => exact absurd rfl hNonempty
  | cons => exact ⟨_, _, rfl⟩

section Denotes

variable {text : List Char} {n : Nat} (h : Denotes text n)

include h

/-- A literal goes on with digits throughout, or it is a zero, the letter `o` and digits. -/
theorem Literal.digits_or_octal : (∀ c ∈ text, isDigitClass c) ∨
    ∃ x d ds, text = '0' :: x :: d :: ds ∧ (x = 'o' ∨ x = 'O') ∧ isDigitClass d := by
  have hPrefixed {x : Char} {ds : List Char} (hx : isDigitClass x)
      (hds : ∀ c ∈ ds, isDigitClass c) : ∀ c ∈ '0' :: x :: ds, isDigitClass c :=
    List.forall_mem_cons.mpr ⟨rfl, List.forall_mem_cons.mpr ⟨hx, hds⟩⟩
  cases h with
  | hexadecimal hLetter hDigits =>
    refine .inl (hPrefixed ?_ (isDigitClass_of_numeral (by decide) hDigits))
    rcases hLetter with rfl | rfl <;> rfl
  | binary hLetter hDigits =>
    refine .inl (hPrefixed ?_ (isDigitClass_of_numeral (by decide) hDigits))
    rcases hLetter with rfl | rfl <;> rfl
  | octal hLetter hDigits =>
    have hAll := isDigitClass_of_numeral (by decide) hDigits
    obtain ⟨d, ds, rfl⟩ := exists_cons_of_numeral hDigits
    exact .inr ⟨_, d, ds, rfl, hLetter, hAll d List.mem_cons_self⟩
  | bareOctal hDigits =>
    exact .inl (List.forall_mem_cons.mpr ⟨rfl, isDigitClass_of_numeral (by decide) hDigits⟩)
  | zero => exact .inl (List.forall_mem_singleton.mpr rfl)
  | decimal _ hDigits => exact .inl (isDigitClass_of_numeral (by decide) hDigits)

theorem Literal.isDigitClass_of_denotes (hMarks : marksOctal text = false) :
    ∀ c ∈ text, isDigitClass c := by
  rcases Literal.digits_or_octal h with hAll | ⟨x, d, ds, rfl, rfl | rfl, -⟩
  · exact hAll
  · simp [marksOctal] at hMarks
  · simp [marksOctal] at hMarks

theorem Literal.exists_of_marksOctal (hMarks : marksOctal text = true) :
    ∃ x d ds, text = '0' :: x :: d :: ds ∧ (x = 'o' ∨ x = 'O') ∧ isDigitClass d := by
  rcases Literal.digits_or_octal h with hAll | hOctal
  · rw [marksOctal_eq_false hAll] at hMarks
    cases hMarks
  · exact hOctal

theorem Literal.exists_cons_of_denotes : ∃ c cs, text = c :: cs := by
  cases h with
  | hexadecimal | binary | octal | bareOctal | zero | decimal => exact ⟨_, _, rfl⟩

end Denotes

/-! ## Literals that are cut -/

theorem isNumeral_of_isDigitClass {c : Char} (h : isDigitClass c) : isNumeral c := by
  simp [isNumeral, h]

theorem isRepeatMark_of_isDigitClass {c : Char} (h : isDigitClass c) : isRepeatMark c = false := by
  by_contra hMark
  simp only [isRepeatMark, Bool.not_eq_false, Bool.or_eq_true, beq_iff_eq] at hMark
  rcases hMark with rfl | rfl <;> cases h

/-- Before the letter `o` a number ends, and a digit after it begins another token. -/
theorem tokens_cut {front : List Char} (rest : List Char) {x d : Char} (hFront : front ≠ [])
    (hNumeral : ∀ c ∈ front, isNumeral c) (hx : x = 'o' ∨ x = 'O') (hd : isDigitClass d) :
    tokens (front ++ x :: d :: rest) = front :: [x] :: tokens (d :: rest) := by
  obtain ⟨hSeparator, hDigit, hMark⟩ :
      isSeparator x = false ∧ isDigitClass x = false ∧ isRepeatMark x = false := by
    rcases hx with rfl | rfl <;> decide
  have hBefore : Apart front (x :: d :: rest) := by
    intro c hc e he
    cases he
    have hLast : (isDigitClass c || isRepeatMark c) = true :=
      hNumeral c (List.mem_of_mem_getLast? hc)
    simp [joins, hDigit, hMark, hLast]
  have hAfter : ∀ e ∈ (d :: rest).head?, joins x e = false := by
    intro e he
    cases he
    simp [joins, hDigit, hMark, isRepeatMark_of_isDigitClass hd, hd]
  rw [hBefore.tokens_append, tokens_numeral hFront hNumeral,
    tokens_cons_of_not_joins hSeparator hAfter]
  rfl

/-- A literal marked by the letter `o` makes nothing of the sequence, whatever follows. -/
theorem parse_octal {x d : Char} (ds : List Char) (hx : x = 'o' ∨ x = 'O') (hd : isDigitClass d) :
    parse ('0' :: x :: d :: ds) = .ok [] := by
  have hZero : ∀ c ∈ ['0'], isNumeral c := List.forall_mem_singleton.mpr rfl
  have hTokens : tokens ('0' :: x :: d :: ds) = [['0']] ++ [x] :: tokens (d :: ds) :=
    tokens_cut ds (List.cons_ne_nil _ _) hZero hx hd
  refine parse_of_malformed hTokens (by decide) ?_
  rcases hx with rfl | rfl <;> decide

/-! ## Literals as tokens -/

section Tokens

variable {s n : List Char} (hs : ∀ c ∈ s, isDigitClass c)

include hs

theorem splitColon_literal : splitColon s = (s, none) := by
  simpa [splitColon] using splitColon_append (fun c hc => isRepeatMark_of_isDigitClass (hs c hc)) []

theorem splitColon_counted : splitColon (s ++ ':' :: n) = (s, some n) := by
  simpa [splitColon] using
    splitColon_append (fun c hc => isRepeatMark_of_isDigitClass (hs c hc)) (':' :: n)

theorem not_mem_of_isDigitClass : ';' ∉ s := by
  intro hc
  cases hs _ hc

theorem isNumeral_counted (hn : ∀ c ∈ n, isDigitClass c) : ∀ c ∈ s ++ ':' :: n, isNumeral c := by
  simp only [List.forall_mem_append, List.forall_mem_cons]
  exact ⟨fun c hc => isNumeral_of_isDigitClass (hs c hc), rfl,
    fun c hc => isNumeral_of_isDigitClass (hn c hc)⟩

/-- Repeating zero times is refused, so a count marked by the letter `o` is as well. -/
theorem parse_octal_count {x d : Char} (ds : List Char) (hx : x = 'o' ∨ x = 'O')
    (hd : isDigitClass d) : parse (s ++ ':' :: '0' :: x :: d :: ds) = .ok [] := by
  have hZero : ∀ c ∈ ['0'], isDigitClass c := List.forall_mem_singleton.mpr rfl
  have hTokens : tokens (s ++ ':' :: '0' :: x :: d :: ds) =
      [] ++ (s ++ [':', '0']) :: [x] :: tokens (d :: ds) := by
    have hCut := tokens_cut ds (by simp) (isNumeral_counted hs hZero) hx hd
    rw [List.append_assoc] at hCut
    exact hCut
  have hReserved : (s ++ [':', '0']).contains ';' = false := by
    simpa using not_mem_of_isDigitClass hs
  have hCount : repeatCount ['0'] = .error .malformed := by decide
  refine parse_of_malformed hTokens nofun ?_
  simp only [resolve, hReserved, splitColon_counted hs, hCount]
  rfl

/-- Before a literal there is no symbol, so it is read for what it writes. -/
theorem resolveBody_literal {value : UInt8} (hRead : read s = .ok value.toNat) (count : UInt16) :
    resolveBody count s = .ok (.write value count) := by
  obtain ⟨c, cs, rfl⟩ := Literal.exists_cons_of_denotes (Text.Literal.read_eq_ok_iff.mp hRead).1
  have hEnds := endsToken_eq_false_of_isNumeral
    (isNumeral_of_isDigitClass (hs c List.mem_cons_self))
  have hSymbol : symbol? c = none := by
    simpa using (Bool.or_eq_false_iff.mp hEnds).2
  have hSize : value.toNat < 256 := value.toNat_lt
  have hByte : value.toNat.toUInt8 = value := UInt8.ofNat_toNat
  rw [resolveBody_of_read hSymbol hRead, if_neg (by omega), hByte]

theorem parse_literal {value : UInt8} (hRead : read s = .ok value.toNat) :
    parse s = .ok [.write value 1] := by
  have hNonempty : s ≠ [] := by
    rintro rfl
    cases hRead
  have hTokens := tokens_numeral hNonempty fun c hc => isNumeral_of_isDigitClass (hs c hc)
  have hResolve : resolve s = .ok (.write value 1) :=
    (resolve_of_once (not_mem_of_isDigitClass hs) (splitColon_literal hs)).trans
      (resolveBody_literal hs hRead 1)
  rw [parse, parseActions, hTokens, List.mapM_cons, hResolve]
  rfl

theorem parse_counted (hn : ∀ c ∈ n, isDigitClass c) {value : UInt8} {count : UInt16}
    (hRead : read s = .ok value.toNat) (hReadCount : read n = .ok count.toNat)
    (hCount : 1 ≤ count) : parse (s ++ ':' :: n) = .ok [.write value count] := by
  have hTokens := tokens_numeral (by simp) (isNumeral_counted hs hn)
  have hReserved : ';' ∉ s ++ ':' :: n := by
    simp [not_mem_of_isDigitClass hs, not_mem_of_isDigitClass hn]
  have hPos : 1 ≤ count.toNat := hCount
  have hSize : count.toNat < 65536 := count.toNat_lt
  have hRepeats : repeatCount n = .ok count := by
    rw [repeatCount_of_read hReadCount, if_neg (by omega)]
    exact congrArg Except.ok UInt16.ofNat_toNat
  have hResolve : resolve (s ++ ':' :: n) = .ok (.write value count) :=
    (resolve_of_count hReserved (splitColon_counted hs) hRepeats).trans
      (resolveBody_literal hs hRead count)
  rw [parse, parseActions, hTokens, List.mapM_cons, hResolve]
  rfl

end Tokens

/-- A literal that is worth a byte writes it, and before a colon and a literal that is worth a
repeat count it writes it as often, in whatever bases they are. Only a literal marked by the letter
`o`, on either side of the colon, makes nothing of the sequence. -/
theorem parse_literals {s n : List Char} {value : UInt8} {count : UInt16}
    (hs : read s = .ok value.toNat) (hn : read n = .ok count.toNat) (hCount : 1 ≤ count) :
    parse s = .ok (if marksOctal s then [] else [.write value 1]) ∧
      parse (s ++ ':' :: n) =
        .ok (if marksOctal s || marksOctal n then [] else [.write value count]) := by
  have hValue : Denotes s value.toNat := (Text.Literal.read_eq_ok_iff.mp hs).1
  have hTimes : Denotes n count.toNat := (Text.Literal.read_eq_ok_iff.mp hn).1
  cases hMarks : marksOctal s with
  | true =>
    obtain ⟨x, d, ds, rfl, hx, hd⟩ := Literal.exists_of_marksOctal hValue hMarks
    exact ⟨parse_octal ds hx hd, parse_octal (ds ++ ':' :: n) hx hd⟩
  | false =>
    have hDigits := Literal.isDigitClass_of_denotes hValue hMarks
    refine ⟨parse_literal hDigits hs, ?_⟩
    cases hMarks' : marksOctal n with
    | true =>
      obtain ⟨x, d, ds, rfl, hx, hd⟩ := Literal.exists_of_marksOctal hTimes hMarks'
      exact parse_octal_count hDigits ds hx hd
    | false =>
      exact parse_counted hDigits (Literal.isDigitClass_of_denotes hTimes hMarks') hs hn hCount

/-- Fifteen in octal is written with a leading zero, but not with the letter `o`. -/
theorem parse_literals_fifteen :
    read "017".toList = .ok (15 : UInt8).toNat ∧ read "0o17".toList = .ok (15 : UInt8).toNat ∧
      read "0B11".toList = .ok (3 : UInt16).toNat ∧ (1 : UInt16) ≤ 3 ∧
      parse "017:0B11".toList = .ok [.write 15 3] ∧ parse "0o17".toList = .ok [] := by
  have hBare : read "017".toList = .ok (15 : UInt8).toNat := by decide +kernel
  have hMarked : read "0o17".toList = .ok (15 : UInt8).toNat := by decide +kernel
  have hCount : read "0B11".toList = .ok (3 : UInt16).toNat := by decide +kernel
  have hOnce : (1 : UInt16) ≤ 3 := by decide
  exact ⟨hBare, hMarked, hCount, hOnce, (parse_literals hBare hCount hOnce).2,
    (parse_literals hMarked hCount hOnce).1⟩

end BusBench.Sequence
