import BusBench.Proofs.Sequence.Tokens
import BusBench.Proofs.Terminals.LineEnds

/-!
# Printable text

The two bytes in which the prefix of a literal is looked for end inside a character only where there
is one of more than one byte. A printable line has none, and neither has any part that is cut out of
it, so whatever is read in it can be looked at.

* `Printable.part`: parts of printable text.
* `Printable.read_ne`, `Printable.parse_ok`: literals and sequences in printable text.
-/

namespace BusBench

variable {text : List Char}

/-! ## Parts of a text -/

namespace Text

theorem dropEnd_sublist (p : Char → Bool) (text : List Char) : (dropEnd p text).Sublist text := by
  have hRest := (text.reverse.dropWhile_sublist p).reverse
  rwa [List.reverse_reverse] at hRest

theorem trimBy_sublist (p : Char → Bool) (text : List Char) : (trimBy p text).Sublist text :=
  (dropEnd_sublist p _).trans (text.dropWhile_sublist p)

end Text

namespace Sequence

theorem tokens_sublist {token : List Char} (h : token ∈ tokens text) : token.Sublist text := by
  induction text generalizing token with
  | nil => cases h
  | cons c cs ih =>
    rw [tokens.eq_def] at h
    simp only at h
    split at h
    · exact (ih h).cons c
    · split at h
      · next d rest t ts hTokens =>
        have hFirst : t.Sublist (d :: rest) := ih (by rw [hTokens]; exact List.mem_cons_self)
        have hOthers : ∀ other ∈ ts, other.Sublist (d :: rest) := fun other hOther =>
          ih (by rw [hTokens]; exact List.mem_cons_of_mem t hOther)
        split at h
        · rcases List.mem_cons.mp h with rfl | hMem
          · exact hFirst.cons_cons c
          · exact (hOthers token hMem).cons c
        · rcases List.mem_cons.mp h with rfl | hMem
          · exact (List.nil_sublist _).cons_cons c
          · rcases List.mem_cons.mp hMem with rfl | hMem
            · exact hFirst.cons c
            · exact (hOthers token hMem).cons c
      · rcases List.mem_cons.mp h with rfl | hMem
        · exact (List.nil_sublist _).cons_cons c
        · exact (ih hMem).cons c

theorem splitColon_sublist (text : List Char) : (splitColon text).1.Sublist text ∧
    ∀ count, (splitColon text).2 = some count → count.Sublist text := by
  induction text with
  | nil => exact ⟨.slnil, nofun⟩
  | cons c cs ih =>
    unfold splitColon
    split
    · refine ⟨List.nil_sublist _, ?_⟩
      rintro count ⟨⟩
      exact (List.Sublist.refl cs).cons c
    · exact ⟨ih.1.cons_cons c, fun count hCount => (ih.2 count hCount).cons c⟩

end Sequence

/-! ## Reading it -/

/-- Steps that do not fail in this way do not fail in this way together. -/
theorem bind_ne_error {ε α γ : Type} {result : Except ε α} {next : α → Except ε γ} {e : ε}
    (h : result ≠ .error e) (hNext : ∀ a, next a ≠ .error e) : (result >>= next) ≠ .error e := by
  cases result with
  | error e' =>
    rintro ⟨⟩
    exact h rfl
  | ok a => exact hNext a

namespace Printable

open Text (Literal.Fault)

theorem part (h : Printable text) {part : List Char} (hPart : part.Sublist text) :
    Printable part :=
  fun c hc => h c (hPart.subset hc)

theorem utf8Size (h : Printable text) : ∀ c ∈ text, c.utf8Size = 1 := by
  intro c hc
  exact Text.utf8Size_of_toNat_lt (Nat.lt_succ_of_le (Nat.le_trans (h c hc).2 (by decide)))

theorem read_ne (h : Printable text) : Text.Literal.read text ≠ .error .splitCharacter := by
  rw [Text.Literal.read, Text.Literal.cutsCharacter_ascii 2 h.utf8Size]
  dsimp only
  split
  · next hCut => cases hCut
  · split
    · split <;> rintro ⟨⟩
    · rintro ⟨⟩

theorem repeatCount_ne (h : Printable text) :
    Sequence.repeatCount text ≠ .error .splitCharacter := by
  refine bind_ne_error h.read_ne fun n => ?_
  dsimp only
  split <;> nofun

theorem resolveBody_ne (h : Printable text) (n : UInt16) :
    Sequence.resolveBody n text ≠ .error .splitCharacter := by
  unfold Sequence.resolveBody
  split
  · nofun
  · split
    · split
      · nofun
      · split
        · split <;> nofun
        · nofun
    · refine bind_ne_error h.read_ne fun value => ?_
      dsimp only
      split <;> nofun

theorem resolve_ne (h : Printable text) : Sequence.resolve text ≠ .error .splitCharacter := by
  obtain ⟨hBody, hCount⟩ := Sequence.splitColon_sublist text
  unfold Sequence.resolve
  dsimp only
  split
  · nofun
  · split
    · next body hSplit =>
      rw [hSplit] at hBody
      exact (h.part hBody).resolveBody_ne 1
    · next body count hSplit =>
      rw [hSplit] at hBody hCount
      exact bind_ne_error (h.part (hCount count rfl)).repeatCount_ne fun n =>
        (h.part hBody).resolveBody_ne n

theorem mapM_resolve_ne {tokens : List (List Char)} (h : ∀ token ∈ tokens, Printable token) :
    tokens.mapM Sequence.resolve ≠ .error .splitCharacter := by
  induction tokens with
  | nil => nofun
  | cons token tokens ih =>
    obtain ⟨hToken, hRest⟩ := List.forall_mem_cons.mp h
    rw [List.mapM_cons]
    exact bind_ne_error hToken.resolve_ne fun action => bind_ne_error (ih hRest) nofun

/-- A printable text can be read as a sequence, be it the empty one. -/
theorem parse_ok (h : Printable text) : ∃ actions, Sequence.parse text = .ok actions := by
  have hActions : Sequence.parseActions text ≠ .error .splitCharacter :=
    mapM_resolve_ne fun token hToken => h.part (Sequence.tokens_sublist hToken)
  unfold Sequence.parse
  cases hResult : Sequence.parseActions text with
  | ok actions => exact ⟨actions, rfl⟩
  | error fault =>
    cases fault with
    | malformed => exact ⟨[], rfl⟩
    | splitCharacter => exact absurd hResult hActions

end Printable

end BusBench
