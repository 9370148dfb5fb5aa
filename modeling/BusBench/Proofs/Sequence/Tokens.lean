import Mathlib.Data.List.Basic
import BusBench.Sequence.Parser
import BusBench.Proofs.Text.Numerals

/-!
# Where tokens end

Cutting a text into tokens looks at two neighbouring characters at a time: a token goes on from one
to the next or ends between them. So what is on one side of an end never changes the tokens on the
other.

* `tokens_append`: the tokens on both sides of a seam are the tokens of the whole.
* `tokens_numeral`: digits and repeat marks make a single token.
-/

namespace BusBench.Sequence

/-! ## Characters -/

/-- Whether `c` ends any token before it. -/
def endsToken (c : Char) : Bool :=
  isSeparator c || (symbol? c).isSome

/-- Whether `c` may occur in a number with a repeat count. -/
def isNumeral (c : Char) : Bool :=
  isDigitClass c || isRepeatMark c

theorem joins_eq_false_of_endsToken {last c : Char} (h : endsToken c) : joins last c = false := by
  rcases Bool.or_eq_true_iff.mp h with hSeparator | hSymbol
  · simp [joins, hSeparator]
  · simp [joins, Option.ne_none_iff_isSome.mpr hSymbol]

theorem isSeparator_of_joins {last c : Char} (h : joins last c) : isSeparator c = false := by
  simp only [joins, Bool.and_eq_true, Bool.not_eq_true'] at h
  exact h.1.1

theorem toNat_lt_of_isNumeral {c : Char} (h : isNumeral c) : c.toNat < 128 := by
  simp only [isNumeral, isDigitClass, isRepeatMark, Bool.or_eq_true, beq_iff_eq] at h
  rcases h with ((hDigit | rfl) | rfl) | (rfl | rfl)
  · exact Text.toNat_lt_of_digit hDigit
  all_goals decide

theorem endsToken_eq_false_of_isNumeral {c : Char} (h : isNumeral c) : endsToken c = false := by
  have hAscii : ∀ n < 128, isNumeral (Char.ofNat n) → endsToken (Char.ofNat n) = false := by
    decide +kernel
  have hc := hAscii c.toNat (toNat_lt_of_isNumeral h)
  rw [Char.ofNat_toNat] at hc
  exact hc h

/-- Digits and repeat marks go on with one another. -/
theorem joins_numerals {last c : Char} (hLast : isNumeral last) (hc : isNumeral c) :
    joins last c := by
  have hEnds := endsToken_eq_false_of_isNumeral hc
  simp only [endsToken, Bool.or_eq_false_iff, Option.isSome_eq_false_iff] at hEnds
  simp only [isNumeral] at hLast hc
  cases hMark : isRepeatMark c <;> simp_all [joins]

/-! ## Tokens -/

variable {c d : Char} {cs : List Char}

theorem tokens_cons_separator (h : isSeparator c) : tokens (c :: cs) = tokens cs := by
  rw [tokens.eq_def]
  exact if_pos h

theorem tokens_cons_of_not_joins (hc : isSeparator c = false)
    (h : ∀ d ∈ cs.head?, joins c d = false) : tokens (c :: cs) = [c] :: tokens cs := by
  rw [tokens.eq_def]
  simp only [hc, Bool.false_eq_true, if_false]
  split
  · next d cs t ts hTokens =>
    rw [h d rfl, if_neg Bool.false_ne_true, hTokens]
  · rfl

theorem tokens_cons_of_joins {t : List Char} {ts : List (List Char)} (hc : isSeparator c = false)
    (h : joins c d) (hTokens : tokens (d :: cs) = t :: ts) :
    tokens (c :: d :: cs) = (c :: t) :: ts := by
  rw [tokens.eq_def]
  simp [hc, h, hTokens]

theorem exists_tokens_cons (hc : isSeparator c = false) : ∃ t ts, tokens (c :: cs) = t :: ts := by
  rw [tokens.eq_def]
  simp only [hc, Bool.false_eq_true, if_false]
  split
  · split <;> exact ⟨_, _, rfl⟩
  · exact ⟨_, _, rfl⟩

/-- Digits and repeat marks make a single token. -/
theorem tokens_numeral {text : List Char} (hText : text ≠ []) (h : ∀ c ∈ text, isNumeral c) :
    tokens text = [text] := by
  induction text with
  | nil => exact absurd rfl hText
  | cons c text ih =>
    have hEnds := endsToken_eq_false_of_isNumeral (h c List.mem_cons_self)
    have hc : isSeparator c = false := (Bool.or_eq_false_iff.mp hEnds).1
    cases text with
    | nil => exact tokens_cons_of_not_joins hc fun _ h => by cases h
    | cons d text =>
      have hJoins := joins_numerals (h c (by simp)) (h d (by simp))
      have hRest := ih (by simp) fun e he => h e (List.mem_cons_of_mem c he)
      exact tokens_cons_of_joins hc hJoins hRest

/-- Separators hold no tokens. -/
theorem tokens_gap_append {gap : List Char} (hGap : ∀ c ∈ gap, isSeparator c) (text : List Char) :
    tokens (gap ++ text) = tokens text := by
  induction gap with
  | nil => rfl
  | cons c gap ih =>
    rw [List.cons_append, tokens_cons_separator (hGap c List.mem_cons_self)]
    exact ih fun d hd => hGap d (List.mem_cons_of_mem c hd)

/-! ## Seams -/

/-- No token goes on from `s` to `t`. -/
def Apart (s t : List Char) : Prop :=
  ∀ c ∈ s.getLast?, ∀ d ∈ t.head?, isSeparator c ∨ joins c d = false

theorem Apart.tail {s t : List Char} (h : Apart (c :: s) t) : Apart s t := by
  intro d hd
  cases s with
  | nil => cases hd
  | cons e s => exact h d (by rwa [List.getLast?_cons_cons])

/-- The tokens of two texts that are apart are the tokens of the whole. -/
theorem Apart.tokens_append {s t : List Char} (h : Apart s t) :
    tokens (s ++ t) = tokens s ++ tokens t := by
  induction s with
  | nil => rfl
  | cons c s ih =>
    have hTail := ih h.tail
    cases hc : isSeparator c with
    | true => rw [List.cons_append, tokens_cons_separator hc, tokens_cons_separator hc, hTail]
    | false =>
      cases s with
      | nil =>
        -- The last character is no separator, so it does not join what comes after it.
        have hEnds : ∀ d ∈ t.head?, joins c d = false := fun d hd =>
          (h c rfl d hd).resolve_left (by simp [hc])
        have hLast : tokens [c] = [[c]] := tokens_cons_of_not_joins hc fun _ h => by cases h
        rw [List.singleton_append, tokens_cons_of_not_joins hc hEnds, hLast, List.singleton_append]
      | cons d s =>
        cases hJoins : joins c d with
        | true =>
          obtain ⟨u, us, hTokens⟩ : ∃ u us, tokens (d :: s) = u :: us :=
            exists_tokens_cons (isSeparator_of_joins hJoins)
          rw [hTokens] at hTail
          rw [tokens_cons_of_joins hc hJoins hTokens]
          exact tokens_cons_of_joins hc hJoins hTail
        | false =>
          have hApart : ∀ e ∈ (d :: s).head?, joins c e = false := by simpa using hJoins
          calc tokens (c :: d :: s ++ t)
            _ = [c] :: tokens (d :: s ++ t) := tokens_cons_of_not_joins hc hApart
            _ = [c] :: tokens (d :: s) ++ tokens t := by rw [hTail, List.cons_append]
            _ = tokens (c :: d :: s) ++ tokens t := by rw [tokens_cons_of_not_joins hc hApart]

/-- There is a separator or nothing before the seam, or else a separator, a symbol or nothing after
it. -/
def Seam (s t : List Char) : Prop :=
  (∀ c ∈ s.getLast?, isSeparator c) ∨ ∀ c ∈ t.head?, endsToken c

theorem Seam.apart {s t : List Char} (h : Seam s t) : Apart s t := fun c hc d hd =>
  h.imp (fun hLast => hLast c hc) fun hHead => joins_eq_false_of_endsToken (hHead d hd)

/-- The tokens on both sides of a seam are the tokens of the whole. -/
theorem tokens_append {s t : List Char} (h : Seam s t) :
    tokens (s ++ t) = tokens s ++ tokens t :=
  h.apart.tokens_append

end BusBench.Sequence
