import BusBench.Proofs.Resources.Ownership
import BusBench.Proofs.Sequence.Tokens

/-!
# Reading text in parts

A sequence can be read in parts wherever no token runs from one part to the next, and one malformed
token makes nothing of all of it. Only a line that starts with no command character is read as a
sequence; a command is carried out whatever its tokens are.

* `parseActions_append`: the two parts of a text are read one after the other.
* `parse_of_malformed`: a malformed token makes the sequence empty.
* `reading_composes`: both together, and what a malformed token means to the prompt.
* `scans_despite_malformed`: a command whose tokens are malformed.
-/

namespace BusBench.Sequence

theorem parseActions_append {s t : List Char} (h : Seam s t) :
    parseActions (s ++ t) = do
      let first ← parseActions s
      let second ← parseActions t
      return first ++ second := by
  rw [parseActions, tokens_append h, List.mapM_append]
  rfl

/-! ## Malformed tokens -/

/-- The tokens are resolved from the left, and the first that fails decides. -/
theorem mapM_resolve_of_malformed {before after : List (List Char)} {bad : List Char}
    (hBefore : ∀ token ∈ before, resolve token ≠ .error .splitCharacter)
    (hBad : resolve bad = .error .malformed) :
    (before ++ bad :: after).mapM resolve = .error .malformed := by
  induction before with
  | nil =>
    rw [List.nil_append, List.mapM_cons, hBad]
    rfl
  | cons token before ih =>
    have hRest := ih fun other h => hBefore other (List.mem_cons_of_mem token h)
    rw [List.cons_append, List.mapM_cons]
    cases hToken : resolve token with
    | ok action =>
      rw [hRest]
      rfl
    | error fault =>
      cases fault with
      | malformed => rfl
      | splitCharacter => exact absurd hToken (hBefore token List.mem_cons_self)

theorem parse_of_malformed {text : List Char} {before after : List (List Char)} {bad : List Char}
    (hTokens : tokens text = before ++ bad :: after)
    (hBefore : ∀ token ∈ before, resolve token ≠ .error .splitCharacter)
    (hBad : resolve bad = .error .malformed) : parse text = .ok [] := by
  have hActions : parseActions text = .error .malformed := by
    rw [parseActions, hTokens]
    exact mapM_resolve_of_malformed hBefore hBad
  rw [parse, hActions]
  rfl

end BusBench.Sequence

/-! ## At the prompt -/

namespace BusBench

/-- The characters that make a line a command. -/
def commandCharacters : List Char :=
  ['?', 'i', 'b', '=', '|', 'c', 'C', 'a', 'A', '@', 'd', 'D', 'm', 'w', 'W', 'v', 'p', 'P', '(',
   '#', '$']

namespace Bench

variable {β τ : Type} [Terminal τ]

/-- Any line but a command is a sequence for the bus. -/
theorem runCommand_sequence {line : List Char} (h : ∀ c ∈ line.head?, c ∉ commandCharacters) :
    (runCommand line : Act Bench β τ Error Flow) = andContinue (runSequence line) := by
  cases line with
  | nil => rfl
  | cons c rest =>
    have hc : c ∉ commandCharacters := h c rfl
    simp only [commandCharacters, List.mem_cons, List.not_mem_nil, or_false, not_or] at hc
    unfold runCommand
    split <;> simp_all

theorem runSequence_of_parse_nil {line : List Char} (h : Sequence.parse line = .ok []) :
    (runSequence line : Act Bench β τ Error Unit) = pure () := by
  rw [runSequence, h]

end Bench

/-- Two texts with a seam between them are read one after the other: their actions are joined, and
the earlier fault decides. A malformed token makes the whole sequence empty, whatever surrounds it,
and then the prompt does nothing at all, unless the line starts with the character of a command. -/
theorem Sequence.reading_composes :
    (∀ s t : List Char, Seam s t →
      parseActions (s ++ t) = do
        let first ← parseActions s
        let second ← parseActions t
        return first ++ second) ∧
    ∀ (text bad : List Char) (before after : List (List Char)),
      tokens text = before ++ bad :: after →
      (∀ token ∈ before, resolve token ≠ .error .splitCharacter) →
      resolve bad = .error .malformed →
      parse text = .ok [] ∧
      ∀ (β τ : Type) [Terminal τ],
        (Bench.runSequence text : Act Bench β τ Error Unit) = pure () ∧
        ((∀ c ∈ text.head?, c ∉ commandCharacters) →
          (Bench.runCommand text : Act Bench β τ Error Flow) = pure .continue) := by
  refine ⟨fun s t => parseActions_append, ?_⟩
  intro text bad before after hTokens hBefore hBad
  have hParse := parse_of_malformed hTokens hBefore hBad
  refine ⟨hParse, fun β τ _ => ?_⟩
  have hRun : (Bench.runSequence text : Act Bench β τ Error Unit) = pure () :=
    Bench.runSequence_of_parse_nil hParse
  refine ⟨hRun, fun hHead => ?_⟩
  rw [Bench.runCommand_sequence hHead, Bench.andContinue, hRun]
  rfl

/-- A repeat mark right after the seam is a token that repeats nothing. -/
theorem Sequence.reading_composes_colon :
    Seam "[0x40,".toList ":2 r]".toList ∧
    (parseActions ("[0x40,".toList ++ ":2 r]".toList) = do
      let first ← parseActions "[0x40,".toList
      let second ← parseActions ":2 r]".toList
      return first ++ second) ∧
    parse "[0x40,:2 r]".toList = .ok [] ∧
    (Bench.runCommand "[0x40,:2 r]".toList : Act Bench Unit Script Error Flow) =
      pure .continue := by
  have hSeam : Seam "[0x40,".toList ":2 r]".toList := .inl fun _ h => by cases h; rfl
  have hHead : ∀ c ∈ "[0x40,:2 r]".toList.head?, c ∉ commandCharacters := fun _ h => by
    cases h
    decide
  obtain ⟨hParse, hPrompt⟩ := reading_composes.2 "[0x40,:2 r]".toList ":2".toList
    [['['], "0x40".toList] [['r'], [']']] (by decide) (by decide) (by decide)
  exact ⟨hSeam, reading_composes.1 _ _ hSeam, hParse, (hPrompt Unit Script).2 hHead⟩

/-- A line that starts with the character of a command is carried out, however it would read as a
sequence: a parenthesis is no token of a sequence, yet in the I2C mode `(1)` is the macro that
searches the bus. -/
theorem Sequence.scans_despite_malformed :
    let board := Recording.board "fake" {}
    let before := Bench.recorded {} { lines := [.text [], .text []] }
    let entered := (Bench.runCommand "m 4".toList).after board before
    let scanned := (Bench.runCommand "(1)".toList).after board entered
    tokens "(1)".toList = [] ++ ['('] :: [['1'], [')']] ∧
      resolve ['('] = .error .malformed ∧ parse "(1)".toList = .ok [] ∧
      Bench.Prompting board entered ∧ entered.own.mode.kind = .i2c ∧
      (exchanges scanned.events).map (·.request) = (exchanges entered.events).map (·.request) ++
        .i2c .bitBanged .lock :: (List.range' 0x08 112).map
          (fun address => .i2c .bitBanged (.write (UInt8.ofNat address) [])) ++
        [.i2c .bitBanged .unlock] := by
  intro board before entered scanned
  have hPrompting : Bench.Prompting board entered :=
    .command "m 4".toList (Bench.prompting_recorded (s := {}) _ rfl) rfl
  exact ⟨by decide, by decide, by decide, hPrompting, by decide +kernel, by decide +kernel⟩

end BusBench
