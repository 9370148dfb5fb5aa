import BusBench.Proofs.Sequence.Composition
import BusBench.Proofs.Sequence.Spelling

/-!
# Sequences and commands apart

Some command characters are hexadecimal digits, so the tokenizer puts a line that starts with one
into tokens like any other. But no number starts with a letter, and no command character is a symbol
or stands between tokens. So the first token of such a line names no action, and a line that can be
read as a sequence is never taken for a command.

* `resolve_command_ne_ok`: a token that starts with a command character names no action.
* `head?_of_parse`: a text of one action or more starts with no command character.
* `Bench.runCommand_apart`: what the prompt does with a line that is no command.
-/

namespace BusBench

namespace Text

/-- A number starts with a digit. -/
theorem Base.value?_cons_of_not_digit {b : Base} {c : Char} (h : b.digit? c = none)
    (cs : List Char) : b.value? (c :: cs) = none := by
  have hFirst : b.shiftIn 0 c = none := by
    rw [Base.shiftIn, h]
    rfl
  rw [b.value?_eq_foldlM (List.cons_ne_nil c cs), List.foldlM_cons, hFirst]
  rfl

/-- So does a literal, in whatever base it goes on. -/
theorem Literal.read_cons_ne_ok {c : Char} (h : Base.decimal.digit? c = none) (cs : List Char)
    (n : Nat) : read (c :: cs) ≠ .ok n := by
  have hZero : c ≠ '0' := by
    rintro rfl
    exact absurd h (by decide)
  have hBody : body (c :: cs) = (.decimal, c :: cs) := by
    unfold body
    split <;> simp_all
  intro hRead
  unfold read at hRead
  split at hRead
  · cases hRead
  · simp only [hBody, Base.value?_cons_of_not_digit h cs] at hRead
    cases hRead

end Text

/-! ## The first token -/

namespace Sequence

/-- Where two steps end well, the first of them did. -/
theorem exists_ok_of_bind {α γ : Type} {first : Except Text.Literal.Fault α}
    {next : α → Except Text.Literal.Fault γ} {result : γ} (h : first >>= next = .ok result) :
    ∃ value, first = .ok value ∧ next value = .ok result := by
  cases first with
  | error fault => cases h
  | ok value => exact ⟨value, rfl, h⟩

/-- What the tokenizer makes of a command character: it may be part of a number, but it starts no
number, no action and no repeat count. -/
theorem command_character {c : Char} (h : c ∈ commandCharacters) :
    isSeparator c = false ∧ symbol? c = none ∧ Text.Base.decimal.digit? c = none ∧ c ≠ ':' := by
  have hAll : commandCharacters.all (fun c => !isSeparator c && (symbol? c).isNone &&
      (Text.Base.decimal.digit? c).isNone && c != ':') = true := by decide
  have hc := List.all_eq_true.mp hAll c h
  simp only [Bool.and_eq_true, Bool.not_eq_true', Option.isNone_iff_eq_none, bne_iff_ne] at hc
  obtain ⟨⟨⟨hSeparator, hSymbol⟩, hDigit⟩, hColon⟩ := hc
  exact ⟨hSeparator, hSymbol, hDigit, hColon⟩

theorem splitColon_cons {c : Char} (h : c ≠ ':') (cs : List Char) :
    splitColon (c :: cs) = (c :: (splitColon cs).1, (splitColon cs).2) := by
  rw [splitColon, if_neg (by simpa using h)]

/-- A body without a symbol in front of it has to be a number. -/
theorem resolveBody_cons_ne_ok {c : Char} (hSymbol : symbol? c = none)
    (hDigit : Text.Base.decimal.digit? c = none) (n : UInt16) (cs : List Char) (action : Action) :
    resolveBody n (c :: cs) ≠ .ok action := by
  intro hBody
  simp only [resolveBody, hSymbol] at hBody
  obtain ⟨value, hRead, -⟩ := exists_ok_of_bind hBody
  exact Text.Literal.read_cons_ne_ok hDigit cs value hRead

/-- A token that starts with a command character names no action. -/
theorem resolve_command_ne_ok {c : Char} (hCommand : c ∈ commandCharacters) (cs : List Char)
    (action : Action) : resolve (c :: cs) ≠ .ok action := by
  obtain ⟨-, hSymbol, hDigit, hColon⟩ := command_character hCommand
  intro hResolve
  obtain ⟨n, -, hBody⟩ := exists_resolveBody_of_resolve hResolve
  rw [splitColon_cons hColon] at hBody
  exact resolveBody_cons_ne_ok hSymbol hDigit n _ action hBody

/-! ## The line -/

/-- The character that starts a text starts its first token, unless it is a separator. -/
theorem tokens_cons_head {c : Char} (hc : isSeparator c = false) (cs : List Char) :
    ∃ t ts, tokens (c :: cs) = (c :: t) :: ts := by
  cases cs with
  | nil => exact ⟨[], [], tokens_cons_of_not_joins hc fun _ h => by cases h⟩
  | cons d cs =>
    cases hJoins : joins c d with
    | true =>
      obtain ⟨t, ts, hTokens⟩ : ∃ t ts, tokens (d :: cs) = t :: ts :=
        exists_tokens_cons (isSeparator_of_joins hJoins)
      exact ⟨t, ts, tokens_cons_of_joins hc hJoins hTokens⟩
    | false =>
      have hApart : ∀ e ∈ (d :: cs).head?, joins c e = false := by simpa using hJoins
      exact ⟨[], tokens (d :: cs), tokens_cons_of_not_joins hc hApart⟩

theorem parseActions_of_parse {text : List Char} {action : Action} {actions : List Action}
    (h : parse text = .ok (action :: actions)) : parseActions text = .ok (action :: actions) := by
  unfold parse at h
  split at h
  · cases h
  · exact h

/-- A text of one action or more starts with no command character. -/
theorem head?_of_parse {text : List Char} {actions : List Action} (hParse : parse text = .ok actions)
    (hSome : actions ≠ []) : ∀ c ∈ text.head?, c ∉ commandCharacters := by
  intro c hHead hCommand
  obtain ⟨cs, rfl⟩ : ∃ cs, text = c :: cs := by
    obtain ⟨cs, hText⟩ := List.head?_eq_some_iff.mp hHead
    exact ⟨cs, hText⟩
  obtain ⟨action, actions, rfl⟩ := List.exists_cons_of_ne_nil hSome
  obtain ⟨t, ts, hTokens⟩ := tokens_cons_head (command_character hCommand).1 cs
  have hActions := parseActions_of_parse hParse
  rw [parseActions, hTokens, List.mapM_cons] at hActions
  -- The tokens are resolved from the left, so the first of them must name an action.
  obtain ⟨first, hFirst, -⟩ := exists_ok_of_bind hActions
  exact resolve_command_ne_ok hCommand t first hFirst

end Sequence

/-! ## At the prompt -/

namespace Bench

variable {β τ : Type} [Terminal τ]

theorem runSequence_of_parse {line : List Char} {actions : List Action}
    (hParse : Sequence.parse line = .ok actions) (hSome : actions ≠ []) :
    (runSequence line : Act Bench β τ Error Unit) =
      Act.own >>= fun bench => bench.mode.run actions := by
  obtain ⟨action, actions, rfl⟩ := List.exists_cons_of_ne_nil hSome
  rw [runSequence, hParse]

/-- A line that reads as one action or more starts with no command character, and all the prompt
does with it is to run those actions in its mode, once. A line that is neither a command nor a
sequence leaves everything as it was and shows nothing. -/
theorem runCommand_apart (line : List Char) :
    (∀ actions, Sequence.parse line = .ok actions → actions ≠ [] →
      (∀ c ∈ line.head?, c ∉ commandCharacters) ∧
      (runCommand line : Act Bench β τ Error Flow) = do
        (← Act.own).mode.run actions
        return .continue) ∧
    (Sequence.parse line = .ok [] → (∀ c ∈ line.head?, c ∉ commandCharacters) →
      (runCommand line : Act Bench β τ Error Flow) = pure .continue) := by
  refine ⟨fun actions hParse hSome => ?_, fun hParse hHead => ?_⟩
  · have hHead := Sequence.head?_of_parse hParse hSome
    refine ⟨hHead, ?_⟩
    rw [runCommand_sequence hHead, andContinue, runSequence_of_parse hParse hSome, bind_assoc]
  · rw [runCommand_sequence hHead, andContinue, runSequence_of_parse_nil hParse, pure_bind]

/-- A transaction, and a word that is nothing to the prompt although it starts like a number. -/
theorem runCommand_apart_transaction :
    ((runCommand "[0x50 r:2]".toList : Act Bench Unit Script Error Flow) = do
      (← Act.own).mode.run [.start, .write 0x50 1, .read 2, .stop]
      return .continue) ∧
    (runCommand "fade".toList : Act Bench Unit Script Error Flow) = pure .continue := by
  have hTransaction := (runCommand_apart "[0x50 r:2]".toList (β := Unit) (τ := Script)).1
    [.start, .write 0x50 1, .read 2, .stop] (by decide) (by decide)
  have hWord := (runCommand_apart "fade".toList (β := Unit) (τ := Script)).2 (by decide)
    fun _ h => by
      cases h
      decide
  exact ⟨hTransaction.2, hWord⟩

end Bench

end BusBench
