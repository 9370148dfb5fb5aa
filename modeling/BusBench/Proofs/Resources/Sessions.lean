import BusBench.Proofs.Resources.Ownership

/-!
# Whole sessions

A session starts the prompt and serves a link until a reset is confirmed or something fails. Between
the lines it serves it holds what belongs to its mode, and all that is exchanged meanwhile is a
conversation with the one board on which it runs.

* `Bench.serve_conserves`: serving a link.
* `Bench.run_answers`: the exchanges of a session.
* `Bench.AtPrompt.answers`: the exchanges of a run of lines and binary sessions.
-/

namespace BusBench.Bench

open Act (Obeys)

variable {β τ ε δ α γ σ : Type}

/-! ## Serving -/

namespace Conserves

theorem attempt_bind {program : Act Bench β τ ε α} {next : Except ε α → Act Bench β τ δ γ}
    (h : Conserves program) (hNext : ∀ r, Conserves (next r)) :
    Conserves (Act.attempt program >>= next) := by
  intro bench hSound
  refine .bind (.attempt ((h bench hSound).mono fun r bench' s' hKept => ?_))
  obtain ⟨hSound', rfl⟩ := hKept
  exact hNext r bench' hSound'

theorem askUntil [Terminal τ] {round : σ → Act Bench β τ Error (σ ⊕ α)}
    (h : ∀ state, Conserves (round state)) (state : σ) : Conserves (Act.askUntil round state) := by
  have hRounds (limit : Nat) (state : σ) :
      Conserves (rounds (MonadExcept.throw .link) round limit state) := by
    induction limit generalizing state with
    | zero => exact .throw _
    | succ limit ih =>
      refine Conserves.bind (h state) fun result => ?_
      cases result with
      | inl state' => exact ih state'
      | inr a => exact .pure a
  intro bench hSound
  exact .at_peer (fun peer => rounds _ round (Terminal.remaining peer + 1) state)
    fun peer => hRounds _ state bench hSound

end Conserves

theorem answerLine_conserves (line : Line) :
    Conserves (answerLine line : Act Bench β Console Error Flow) := by
  cases line with
  | modeSwitch => exact .pure _
  | text line =>
    refine Conserves.attempt_bind (runCommand_conserves line) fun r => ?_
    cases r with
    | ok flow => exact .pure _
    | error e =>
      cases e with
      | modeSwitch => exact .pure _
      | link | splitCharacter => exact .throw _
      | unavailable | bus | aborted => exact .pure _

theorem serveRound_conserves (u : Unit) :
    Conserves (serveRound u : Act Bench β Console Error (Unit ⊕ Unit)) := by
  have hOwn : Conserves (Act.own : Act Bench β Console Error Bench) :=
    .of_stays fun _ _ _ hOwn => .own ⟨hOwn, rfl⟩
  refine Conserves.bind hOwn fun bench => Conserves.bind (.dialogue _) fun line => ?_
  refine Conserves.bind (answerLine_conserves line) fun flow => ?_
  cases flow with
  | «continue» | reset => exact .pure _
  | binary => exact Conserves.bind runBinary_conserves fun _ => .pure _

theorem serve_conserves : Conserves (serve : Act Bench β Console Error Unit) :=
  .askUntil serveRound_conserves ()

/-! ## Exchanges with the board -/

/-- Everything that is asked in a session is answered by the board, one after the other. -/
theorem run_answers (board : Board β) (world : World Bench β Console) :
    ∃ trace, exchanges (run.after board world).events = exchanges world.events ++ trace ∧
      board.Answers world.board trace (run.after board world).board := by
  have hRun : Obeys custody (run : Act Bench β Console Error Unit) world.own {}
      fun _ _ _ => True := by
    refine .bind ((start_obeys world.own).mono fun r bench s' hStarted => ?_)
    cases r with
    | error e => trivial
    | ok started =>
      obtain ⟨rfl, rfl⟩ := hStarted started rfl
      exact .bind (.modifyOwn ((serve_conserves {} sound_initial).mono fun _ _ _ _ => trivial))
  obtain ⟨trace, _, hTrace, hAnswers, -, -⟩ := hRun board world rfl
  exact ⟨trace, hTrace, hAnswers⟩

/-- The same for lines that are typed at any terminals and binary sessions. -/
theorem AtPrompt.answers {board : Board β} {bench : Bench} {s : β} {trace : List Exchange}
    (h : AtPrompt board bench s trace) : ∃ s₀, board.Answers s₀ trace s := by
  have hMore {τ α : Type} {program : Act Bench β τ Error α} {before after : World Bench β τ}
      (hBefore : AtPrompt board before.own before.board (exchanges before.events))
      (hKept : Conserves program) (hRun : program.after board before = after) {s₀ : β}
      (hEarlier : board.Answers s₀ (exchanges before.events) before.board) :
      board.Answers s₀ (exchanges after.events) after.board := by
    obtain ⟨hSound, -⟩ := hBefore.in_custody
    obtain ⟨trace, _, hTrace, hAnswers, -, -⟩ := hKept before.own hSound board before rfl
    rw [hRun] at hTrace hAnswers
    rw [hTrace]
    exact hEarlier.append hAnswers
  induction h with
  | @start ω τ before after bench hFresh hRun =>
    obtain ⟨trace, _, hTrace, hAnswers, -, -⟩ :=
      start_obeys (τ := τ) before.own board before rfl
    unfold Act.after at hTrace hAnswers
    rw [hRun] at hTrace hAnswers
    rw [hFresh] at hTrace
    exact ⟨before.board, hTrace ▸ hAnswers⟩
  | command line h hRun ih =>
    obtain ⟨s₀, hEarlier⟩ := ih
    exact ⟨s₀, hMore h (runCommand_conserves line) hRun hEarlier⟩
  | binary h hRun ih =>
    obtain ⟨s₀, hEarlier⟩ := ih
    exact ⟨s₀, hMore h runBinary_conserves hRun hEarlier⟩

end BusBench.Bench
