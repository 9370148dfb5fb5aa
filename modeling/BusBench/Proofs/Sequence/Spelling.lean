import BusBench.Proofs.Sequence.Tokens

/-!
# Sequences written and read back

A list of actions is written as the tokens of the actions with gaps between them. A gap may be left
out where a token could not go on anyway: before a symbol, and after a token of a single symbol.

* `Spelling`: the ways to write a list of actions.
* `resolve_token`: the token of an action names it.
* `Spelling.tokens_eq`: a spelling is cut into the tokens it was made from.
* `reading_undoes_writing`: every spelling reads back, and what was read can be written again.
-/

namespace BusBench.Sequence

/-- `text` writes out `actions`: their tokens, with gaps between them and at both ends. -/
inductive Spelling : List Action → List Char → Prop where
  | nil {gap : List Char} (blank : ∀ c ∈ gap, isSeparator c) : Spelling [] gap
  | cons {gap text : List Char} {action : Action} {actions : List Action}
      (blank : ∀ c ∈ gap, isSeparator c)
      (apart : action.token.length = 1 ∨ ∀ c ∈ text.head?, endsToken c)
      (rest : Spelling actions text) : Spelling (action :: actions) (gap ++ action.token ++ text)

/-- The tokens of the actions with a blank between any two of them. -/
def spaced (actions : List Action) : List Char :=
  [' '].intercalate (actions.map Action.token)

/-! ## One token for each action -/

theorem isNumeral_of_digit {c : Char} (h : (Text.digitValue? c).isSome) : isNumeral c := by
  simp [isNumeral, isDigitClass, h]

theorem isNumeral_of_mem_repetition {n : UInt16} {c : Char} (h : c ∈ Action.repetition n) :
    isNumeral c := by
  unfold Action.repetition at h
  split at h
  · rcases List.mem_cons.mp h with rfl | h
    · rfl
    · exact isNumeral_of_digit (Text.Base.decimal.isSome_digitValue?_of_mem_digits h)
  · cases h

theorem tokens_symbol_repetition {c : Char} (hc : isSeparator c = false) (n : UInt16) :
    tokens (c :: Action.repetition n) = [c :: Action.repetition n] := by
  have hNumeral : ∀ d ∈ Action.repetition n, isNumeral d := fun d => isNumeral_of_mem_repetition
  unfold Action.repetition at hNumeral ⊢
  split
  · next hMany =>
    rw [if_pos hMany] at hNumeral
    have hMark : joins c ':' := rfl
    exact tokens_cons_of_joins hc hMark (tokens_numeral (by simp) hNumeral)
  · exact tokens_cons_of_not_joins hc fun _ h => by cases h

/-- The token of an action is cut as one. -/
theorem tokens_token (action : Action) : tokens action.token = [action.token] := by
  cases action with
  | start | stop | clockHigh | clockLow | dataHigh | dataLow | readPin => rfl
  | read n | clockTick n | bitRead n => exact tokens_symbol_repetition rfl n
  | write value n =>
    refine tokens_numeral (by simp [Action.token]) fun c hc => ?_
    simp only [Action.token, List.cons_append, List.mem_cons, List.mem_append] at hc
    rcases hc with rfl | rfl | hDigit | hRepetition
    · rfl
    · rfl
    · exact isNumeral_of_digit (Text.Base.hexadecimal.isSome_digitValue?_of_mem_padded hDigit)
    · exact isNumeral_of_mem_repetition hRepetition

/-- A token starts with a symbol or with the digit zero. -/
theorem head?_token (action : Action) :
    ∀ c ∈ action.token.head?, (symbol? c).isSome ∨ c = '0' := by
  cases action <;> intro c hc <;> cases hc <;> decide

/-- A token of a single character is a symbol, and no number goes on from it. -/
theorem not_joins_of_token {action : Action} {c : Char} (h : action.token = [c]) :
    isSeparator c = false ∧ joins c '0' = false := by
  have hHead : c ∈ action.token.head? := by rw [h]; rfl
  cases action with
  | write value n => simp [Action.token] at h
  | _ =>
    cases hHead
    decide

namespace Spelling

/-- After a gap, a spelling starts with a symbol or with the digit zero. -/
theorem endsToken_or_zero {actions : List Action} {text : List Char} (h : Spelling actions text) :
    ∀ c ∈ text.head?, endsToken c ∨ c = '0' := by
  intro c hc
  cases h with
  | nil blank => exact .inl (by simp [endsToken, blank c (List.mem_of_mem_head? hc)])
  | @cons gap rest action actions blank apart spelling =>
    cases gap with
    | cons d gap =>
      cases hc
      exact .inl (by simp [endsToken, blank c List.mem_cons_self])
    | nil =>
      have hToken : c ∈ action.token.head? := by
        cases action <;> exact hc
      exact (head?_token action c hToken).imp_left fun hSymbol => by simp [endsToken, hSymbol]

/-- A spelling is cut into the tokens it was made from. -/
theorem tokens_eq {actions : List Action} {text : List Char} (h : Spelling actions text) :
    tokens text = actions.map Action.token := by
  induction h with
  | @nil gap blank =>
    have hGap := tokens_gap_append blank []
    rwa [List.append_nil] at hGap
  | @cons gap text action actions blank apart rest ih =>
    rw [List.append_assoc, tokens_gap_append blank, List.map_cons]
    -- Either the token cannot go on into what follows, or what follows begins something new.
    rcases apart with hSingle | hHead
    · obtain ⟨c, hToken⟩ := List.length_eq_one_iff.mp hSingle
      obtain ⟨hc, hZero⟩ := not_joins_of_token hToken
      have hApart : ∀ d ∈ text.head?, joins c d = false := by
        intro d hd
        rcases rest.endsToken_or_zero d hd with hEnds | rfl
        · exact joins_eq_false_of_endsToken hEnds
        · exact hZero
      rw [hToken, List.singleton_append, tokens_cons_of_not_joins hc hApart, ih]
    · rw [tokens_append (.inr hHead), tokens_token, ih]
      rfl

theorem gap_append {gap text : List Char} {actions : List Action}
    (blank : ∀ c ∈ gap, isSeparator c) (h : Spelling actions text) :
    Spelling actions (gap ++ text) := by
  cases h with
  | nil more => exact .nil fun c hc => (List.mem_append.mp hc).elim (blank c) (more c)
  | cons more apart rest =>
    have hGap : ∀ c ∈ gap ++ _, isSeparator c := fun c hc =>
      (List.mem_append.mp hc).elim (blank c) (more c)
    simpa using Spelling.cons hGap apart rest

theorem of_spaced (actions : List Action) : Spelling actions (spaced actions) := by
  have hNone : ∀ c ∈ ([] : List Char), isSeparator c := fun _ h => by cases h
  induction actions with
  | nil => exact .nil hNone
  | cons action actions ih =>
    cases actions with
    | nil => simpa [spaced] using Spelling.cons hNone (.inr fun _ h => by cases h) (.nil hNone)
    | cons next actions =>
      have hRest := ih.gap_append (List.forall_mem_singleton.mpr (rfl : isSeparator ' ' = true))
      have hBlank : ∀ c ∈ ([' '] ++ spaced (next :: actions)).head?, endsToken c := by
        intro c hc
        cases hc
        rfl
      simpa [spaced] using Spelling.cons hNone (.inr hBlank) hRest

end Spelling

/-! ## The action of a token -/

theorem isRepeatMark_of_digit {c : Char} (h : (Text.digitValue? c).isSome) :
    isRepeatMark c = false := by
  by_contra hMark
  simp only [isRepeatMark, Bool.not_eq_false, Bool.or_eq_true, beq_iff_eq] at hMark
  rcases hMark with rfl | rfl <;> cases h

/-- Up to its first repeat mark a token has no colon. -/
theorem splitColon_append {body : List Char} (h : ∀ c ∈ body, isRepeatMark c = false)
    (rest : List Char) :
    splitColon (body ++ rest) = (body ++ (splitColon rest).1, (splitColon rest).2) := by
  induction body with
  | nil => rfl
  | cons c body ih =>
    have hc : (c == ':') = false := (Bool.or_eq_false_iff.mp (h c List.mem_cons_self)).1
    rw [List.cons_append, splitColon, hc, ih fun d hd => h d (List.mem_cons_of_mem c hd)]
    rfl

theorem resolve_of_once {token body : List Char} (hReserved : ';' ∉ token)
    (hSplit : splitColon token = (body, none)) : resolve token = resolveBody 1 body := by
  have hContains : token.contains ';' = false := by simpa using hReserved
  rw [resolve, hContains, hSplit]
  rfl

theorem resolve_of_count {token body count : List Char} {n : UInt16} (hReserved : ';' ∉ token)
    (hSplit : splitColon token = (body, some count)) (hCount : repeatCount count = .ok n) :
    resolve token = resolveBody n body := by
  have hContains : token.contains ';' = false := by simpa using hReserved
  simp only [resolve, hContains, hSplit, hCount]
  rfl

theorem repeatCount_of_read {text : List Char} {n : Nat} (h : Text.Literal.read text = .ok n) :
    repeatCount text = if n = 0 ∨ 0xFFFF < n then .error .malformed else .ok n.toUInt16 := by
  rw [repeatCount, h]
  rfl

theorem repeatCount_digits {n : UInt16} (hn : 1 ≤ n) :
    repeatCount (Text.Base.decimal.digits n.toNat) = .ok n := by
  have hPos : 1 ≤ n.toNat := hn
  have hSize : n.toNat < 65536 := n.toNat_lt
  have hRead := Text.Literal.read_digits (Nat.lt_trans hSize (by decide))
  rw [repeatCount_of_read hRead, if_neg (by omega)]
  exact congrArg Except.ok UInt16.ofNat_toNat

/-- A repeat count after a token's body is read along with it. -/
theorem resolve_repetition {body : List Char} (h : ∀ c ∈ body, isRepeatMark c = false) {n : UInt16}
    (hn : 1 ≤ n) : resolve (body ++ Action.repetition n) = resolveBody n body := by
  have hBody : ';' ∉ body := fun hc => by cases h _ hc
  unfold Action.repetition
  split
  · have hDigits : ';' ∉ Text.Base.decimal.digits n.toNat := fun hc => by
      cases isRepeatMark_of_digit (Text.Base.decimal.isSome_digitValue?_of_mem_digits hc)
    have hReserved : ';' ∉ body ++ ':' :: Text.Base.decimal.digits n.toNat := by
      simp [hBody, hDigits]
    have hSplit := splitColon_append h (':' :: Text.Base.decimal.digits n.toNat)
    refine (resolve_of_count hReserved hSplit (repeatCount_digits hn)).trans ?_
    exact congrArg (resolveBody n) (List.append_nil body)
  · next hOnce =>
    have hOne : n = 1 := UInt16.le_antisymm (UInt16.not_lt.mp hOnce) hn
    have hSplit : splitColon body = (body, none) := by
      simpa [splitColon] using splitColon_append h []
    rw [List.append_nil, hOne]
    exact resolve_of_once hBody hSplit

theorem resolve_symbol {c : Char} (hc : isRepeatMark c = false) {n : UInt16} (hn : 1 ≤ n) :
    resolve (c :: Action.repetition n) = resolveBody n [c] := by
  have hBody : ∀ d ∈ [c], isRepeatMark d = false := by simpa using hc
  exact resolve_repetition hBody hn

theorem resolveBody_of_read {c : Char} {cs : List Char} {value : Nat} (hSymbol : symbol? c = none)
    (hRead : Text.Literal.read (c :: cs) = .ok value) (n : UInt16) :
    resolveBody n (c :: cs) =
      if 0xFF < value then .error .malformed else .ok (.write value.toUInt8 n) := by
  simp only [resolveBody, hSymbol, hRead]
  rfl

theorem resolveBody_hexadecimal (n : UInt16) (value : UInt8) :
    resolveBody n ('0' :: 'x' :: Text.Base.hexadecimal.padded 2 value.toNat) =
      .ok (.write value n) := by
  have hSize : value.toNat < 256 := value.toNat_lt
  have hRead := Text.Literal.read_padded 2 (Nat.lt_trans hSize (by decide))
  have hByte : value.toNat.toUInt8 = value := UInt8.ofNat_toNat
  rw [resolveBody_of_read rfl hRead, if_neg (by omega), hByte]

/-- The token of an action names it. -/
theorem resolve_token {action : Action} (h : 1 ≤ action.count) :
    resolve action.token = .ok action := by
  cases action with
  | start | stop | clockHigh | clockLow | dataHigh | dataLow | readPin => rfl
  | read n | clockTick n | bitRead n => exact resolve_symbol rfl h
  | write value n =>
    refine (resolve_repetition (fun c hc => ?_) h).trans (resolveBody_hexadecimal n value)
    rcases List.mem_cons.mp hc with rfl | hc
    · rfl
    rcases List.mem_cons.mp hc with rfl | hc
    · rfl
    exact isRepeatMark_of_digit (Text.Base.hexadecimal.isSome_digitValue?_of_mem_padded hc)

/-! ## What was read can be written -/

theorem count_of_marker {c : Char} {action : Action} (h : symbol? c = some (.marker action)) :
    action.count = 1 := by
  unfold symbol? at h
  split at h <;> cases h <;> rfl

theorem count_of_repeatable {c : Char} {action : UInt16 → Action}
    (h : symbol? c = some (.repeatable action)) (n : UInt16) : (action n).count = n := by
  unfold symbol? at h
  split at h <;> cases h <;> rfl

/-- An action has the repeat count of its token. -/
theorem count_of_resolveBody {n : UInt16} {body : List Char} {action : Action}
    (h : resolveBody n body = .ok action) : action.count = n := by
  cases body with
  | nil => cases h
  | cons c cs =>
    cases hSymbol : symbol? c with
    | none =>
      cases hRead : Text.Literal.read (c :: cs) with
      | error fault =>
        simp only [resolveBody, hSymbol, hRead] at h
        cases h
      | ok value =>
        rw [resolveBody_of_read hSymbol hRead] at h
        split at h <;> cases h
        rfl
    | some symbol =>
      simp only [resolveBody, hSymbol] at h
      split at h
      · cases h
      cases symbol with
      | marker marked =>
        dsimp only at h
        split at h
        · next hOnce =>
          cases h
          rw [hOnce, count_of_marker hSymbol]
        · cases h
      | repeatable build =>
        cases h
        exact count_of_repeatable hSymbol n

theorem one_le_of_repeatCount {text : List Char} {n : UInt16} (h : repeatCount text = .ok n) :
    1 ≤ n := by
  cases hRead : Text.Literal.read text with
  | error fault =>
    rw [repeatCount, hRead] at h
    cases h
  | ok m =>
    rw [repeatCount_of_read hRead] at h
    split at h
    · cases h
    · cases h
      have hSize : m < 65536 := by omega
      have hm : m.toUInt16.toNat = m := UInt16.toNat_ofNat_of_lt hSize
      show 1 ≤ m.toUInt16.toNat
      omega

/-- A token names what its part before the colon does, repeated as the part after it says. -/
theorem exists_resolveBody_of_resolve {token : List Char} {action : Action}
    (h : resolve token = .ok action) :
    ∃ n, 1 ≤ n ∧ resolveBody n (splitColon token).1 = .ok action := by
  have hReserved : ';' ∉ token := by
    intro hMem
    have hContains : token.contains ';' = true := by simpa using hMem
    rw [resolve, hContains] at h
    cases h
  rcases hSplit : splitColon token with ⟨body, _ | count⟩
  · rw [resolve_of_once hReserved hSplit] at h
    exact ⟨1, by decide, h⟩
  · cases hCount : repeatCount count with
    | error fault =>
      have hContains : token.contains ';' = false := by simpa using hReserved
      simp only [resolve, hContains, hSplit, hCount] at h
      cases h
    | ok n =>
      rw [resolve_of_count hReserved hSplit hCount] at h
      exact ⟨n, one_le_of_repeatCount hCount, h⟩

theorem one_le_count_of_resolve {token : List Char} {action : Action}
    (h : resolve token = .ok action) : 1 ≤ action.count := by
  obtain ⟨n, hn, hBody⟩ := exists_resolveBody_of_resolve h
  rwa [count_of_resolveBody hBody]

/-! ## Whole sequences -/

theorem mapM_resolve_tokens {actions : List Action} (h : ∀ action ∈ actions, 1 ≤ action.count) :
    (actions.map Action.token).mapM resolve = .ok actions := by
  induction actions with
  | nil => rfl
  | cons action actions ih =>
    have hRest := ih fun other hOther => h other (List.mem_cons_of_mem action hOther)
    rw [List.map_cons, List.mapM_cons, resolve_token (h action List.mem_cons_self), hRest]
    rfl

theorem one_le_count_of_mapM {ts : List (List Char)} {actions : List Action}
    (h : ts.mapM resolve = .ok actions) : ∀ action ∈ actions, 1 ≤ action.count := by
  induction ts generalizing actions with
  | nil =>
    cases h
    intro action hMem
    cases hMem
  | cons token ts ih =>
    rw [List.mapM_cons] at h
    cases hToken : resolve token with
    | error fault =>
      rw [hToken] at h
      cases h
    | ok first =>
      cases hRest : ts.mapM resolve with
      | error fault =>
        rw [hToken, hRest] at h
        cases h
      | ok rest =>
        rw [hToken, hRest] at h
        cases h
        intro action hMem
        rcases List.mem_cons.mp hMem with rfl | hMem
        · exact one_le_count_of_resolve hToken
        · exact ih hRest action hMem

theorem parse_of_spelling {actions : List Action} {text : List Char}
    (hCount : ∀ action ∈ actions, 1 ≤ action.count) (h : Spelling actions text) :
    parse text = .ok actions := by
  have hActions : parseActions text = .ok actions := by
    rw [parseActions, h.tokens_eq, mapM_resolve_tokens hCount]
  rw [parse, hActions]

theorem one_le_count_of_parse {text : List Char} {actions : List Action}
    (h : parse text = .ok actions) : ∀ action ∈ actions, 1 ≤ action.count := by
  unfold parse at h
  split at h
  · cases h
    intro action hMem
    cases hMem
  · exact one_le_count_of_mapM h

theorem exists_ok_of_parse {text : List Char} (h : parse text ≠ .error .splitCharacter) :
    ∃ actions, parse text = .ok actions := by
  unfold parse at h ⊢
  cases hActions : parseActions text with
  | ok actions => exact ⟨actions, rfl⟩
  | error fault =>
    cases fault with
    | malformed => exact ⟨[], rfl⟩
    | splitCharacter =>
      rw [hActions] at h
      exact absurd rfl h

/-- Every spelling of a list of actions reads back as that list. Conversely, unless a literal is cut
inside a character, what is read has repeat counts from 1 to 65535, and any spelling of it, such as
its tokens with blanks between them, reads back as the same. -/
theorem reading_undoes_writing :
    (∀ (actions : List Action) (text : List Char), (∀ action ∈ actions, 1 ≤ action.count) →
      Spelling actions text → parse text = .ok actions) ∧
    ∀ text : List Char, parse text ≠ .error .splitCharacter →
      ∃ actions, parse text = .ok actions ∧
        (∀ action ∈ actions, 1 ≤ action.count.toNat ∧ action.count.toNat ≤ 65535) ∧
        parse (spaced actions) = .ok actions ∧
        ∀ again : List Char, Spelling actions again → parse again = .ok actions := by
  refine ⟨fun actions text => parse_of_spelling, fun text hText => ?_⟩
  obtain ⟨actions, h⟩ := exists_ok_of_parse hText
  have hCount := one_le_count_of_parse h
  refine ⟨actions, h, fun action hMem => ⟨hCount action hMem, ?_⟩, ?_, ?_⟩
  · exact Nat.le_of_lt_succ action.count.toNat_lt
  · exact parse_of_spelling hCount (.of_spaced actions)
  · exact fun again => parse_of_spelling hCount

/-- A number may follow a read without a gap, but not another number. -/
theorem reading_undoes_writing_compact :
    (∀ action ∈ [Action.start, .read 1, .write 0x0A 300, .write 1 1, .stop], 1 ≤ action.count) ∧
    Spelling [.start, .read 1, .write 0x0A 300, .write 1 1, .stop] "\t[r0x0A:300, 0x01]".toList ∧
    parse "\t[r0x0A:300, 0x01]".toList =
      .ok [.start, .read 1, .write 0x0A 300, .write 1 1, .stop] := by
  have hNone : ∀ c ∈ ([] : List Char), isSeparator c := fun _ h => by cases h
  have hComma : ∀ c ∈ ", ".toList, isSeparator c := List.all_eq_true.mp rfl
  have hTab : ∀ c ∈ "\t".toList, isSeparator c := List.all_eq_true.mp rfl
  have hOnce : (Action.write 1 1).token = "0x01".toList := by
    simp [Action.token, Action.repetition, Text.Base.padded, Text.Base.digits, Text.Base.radix,
      Text.digitChar]
  have hMany : (Action.write 0x0A 300).token = "0x0A:300".toList := by
    simp [Action.token, Action.repetition, Text.Base.padded, Text.Base.digits, Text.Base.radix,
      Text.digitChar]
  have hStop : Spelling [.stop] "]".toList := .cons hNone (.inl rfl) (.nil hNone)
  have hOne : Spelling [.write 1 1, .stop]
      (", ".toList ++ (Action.write 1 1).token ++ "]".toList) :=
    .cons hComma (.inr fun _ h => by cases h; rfl) hStop
  rw [hOnce] at hOne
  have hTen : Spelling [.write 0x0A 300, .write 1 1, .stop]
      ([] ++ (Action.write 0x0A 300).token ++ ", 0x01]".toList) :=
    .cons hNone (.inr fun _ h => by cases h; rfl) hOne
  rw [hMany] at hTen
  have hRead : Spelling [.read 1, .write 0x0A 300, .write 1 1, .stop]
      ([] ++ (Action.read 1).token ++ "0x0A:300, 0x01]".toList) :=
    .cons hNone (.inl rfl) hTen
  have hAll : Spelling [.start, .read 1, .write 0x0A 300, .write 1 1, .stop]
      ("\t".toList ++ Action.start.token ++ "r0x0A:300, 0x01]".toList) :=
    .cons hTab (.inl rfl) hRead
  have hCount : ∀ action ∈ [Action.start, .read 1, .write 0x0A 300, .write 1 1, .stop],
      1 ≤ action.count := by decide
  exact ⟨hCount, hAll, reading_undoes_writing.1 _ _ hCount hAll⟩

end BusBench.Sequence
