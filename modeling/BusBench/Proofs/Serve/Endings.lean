import BusBench.Proofs.Prompt.Deeds
import BusBench.Proofs.Serve.Safety
import BusBench.Proofs.Serve.Termination
import BusBench.Proofs.World.Listening

/-!
# How serving a link ends

The prompt goes on after a command that failed, whatever it failed with, and after one in which the
binary protocol was announced. There are three ways out: a reset that was confirmed, a link that
failed, and the entry to the binary protocol, which passes on that chip select was refused.

* `Loops.last_round`: the round with which a loop ends.
* `Act.Returns`: what a program can come to at all.
* `Bench.runBinary_ends`: which failures leave a binary session.
* `Bench.awaitFlow_confirms`, `Bench.serveRound_ends`: what one round comes to.
* `Bench.serve_ends`: the three ways out.
-/

namespace BusBench

open Act (Ends Passes)

variable {β ω τ ε α γ σ : Type}

/-! ## The last round -/

/-- A loop that has ended did so in its last round, and all rounds before it have passed. -/
theorem Loops.last_round {board : Board β} {round : σ → Act ω β τ ε (σ ⊕ α)} {x : σ}
    {w after : World ω β τ} {r : Except ε α}
    (h : Loops (fun x => round x board) x w r after) :
    ∃ x' last, Passes board round x w x' last ∧
      (round x' board).run last = (r.map .inr, after) := by
  induction h with
  | goesOn hRound hRest ih =>
    obtain ⟨x', last, hPasses, hLast⟩ := ih
    have hFirst := Passes.next .start hRound
    exact ⟨x', last, hFirst.trans hPasses, hLast⟩
  | @answers x w after a hRound => exact ⟨x, w, .start, hRound⟩
  | @fails x w after e hRound => exact ⟨x, w, .start, hRound⟩

/-! ## Results -/

namespace Act

/-- On every board and in every world the program comes to a result that `post` accepts. -/
def Returns (program : Act ω β τ ε α) (post : Except ε α → Prop) : Prop :=
  ∀ (board : Board β) (world : World ω β τ), Ends board program world fun r _ => post r

namespace Returns

variable {program : Act ω β τ ε α} {post : Except ε γ → Prop}

theorem pure {a : γ} (h : post (.ok a)) : Returns (Pure.pure a : Act ω β τ ε γ) post :=
  fun _ _ => h

theorem throw {e : ε} (h : post (.error e)) :
    Returns (MonadExcept.throw e : Act ω β τ ε γ) post :=
  fun _ _ => h

theorem bind {next : α → Act ω β τ ε γ}
    (h : Returns program fun
      | .ok a => Returns (next a) post
      | .error e => post (.error e)) : Returns (program >>= next) post := by
  intro board world
  refine .bind ((h board world).mono fun r w hFirst => ?_)
  cases r with
  | ok a => exact hFirst board w
  | error e => exact hFirst

/-- Where it does not matter what the first part comes to, only the rest is looked at. -/
theorem behind {next : α → Act ω β τ ε γ} (hError : ∀ e, post (.error e))
    (h : ∀ a, Returns (next a) post) : Returns (program >>= next) post := by
  refine bind fun board world => ?_
  show match ((program board).run world).1 with
    | .ok a => Returns (next a) post
    | .error e => post (.error e)
  cases ((program board).run world).1 with
  | ok a => exact h a
  | error e => exact hError e

/-- Where both parts can fail with the link only, so can the whole. -/
theorem linked {program : Act ω β τ Error α} {next : α → Act ω β τ Error γ}
    (h : Returns program LinkOnly) (hNext : ∀ a, Returns (next a) LinkOnly) :
    Returns (program >>= next) LinkOnly := by
  refine bind fun board world => (h board world).mono fun r _ hLink => ?_
  cases r with
  | ok a => exact hNext a
  | error e =>
    obtain rfl := hLink e rfl
    exact linkOnly_link

end Returns

end Act

namespace Bench

open Act (Returns)

variable {board : Board β} {w : World Bench β Console}

/-! ## Lines -/

section Lines

variable [Terminal τ]

theorem enterMode_returns (kind : ModeKind) :
    Returns (enterMode kind : Act Bench β τ Error Flow) (· ≠ .ok .reset) := by
  refine .behind nofun fun result => ?_
  rcases result with e | mode
  · cases e with
    | modeSwitch => exact .pure nofun
    | link | splitCharacter => exact .throw nofun
    | unavailable reason | bus reason => exact .behind nofun fun _ => .pure nofun
    | aborted => exact .behind nofun fun _ => .pure nofun
  · refine .behind nofun fun _ => ?_
    dsimp only
    split
    · exact .behind nofun fun _ => .pure nofun
    · exact .pure nofun

theorem changeMode_returns (args : List Char) :
    Returns (changeMode args : Act Bench β τ Error Flow) (· ≠ .ok .reset) := by
  refine .behind nofun fun selection? => ?_
  cases selection? with
  | none => exact .pure nofun
  | some selection =>
    have hLit (flow : Flow) (h : flow ≠ .reset) : Returns (do
        showModeLed
        return flow : Act Bench β τ Error Flow) (· ≠ .ok .reset) :=
      .behind nofun fun _ => .pure fun hReset => h (Except.ok.inj hReset)
    refine .behind nofun fun _ => .behind nofun fun number? => ?_
    dsimp only
    cases ModeKind.ofNumber? (number?.getD 1) with
    | none => exact .behind nofun fun _ => .bind (.pure (hLit .continue nofun))
    | some kind =>
      refine .bind fun board world => (enterMode_returns kind board world).mono fun r w hFlow => ?_
      cases r with
      | error e => exact nofun
      | ok flow => exact hLit flow fun hReset => hFlow (congrArg _ hReset)

/-- No other line answers that a reset was confirmed. -/
theorem runCommand_returns {line : List Char}
    (h : ∀ rest, line ≠ '#' :: rest ∧ line ≠ '$' :: rest) :
    Returns (runCommand line : Act Bench β τ Error Flow) (· ≠ .ok .reset) := by
  have hContinue (command : Act Bench β τ Error Unit) :
      Returns (andContinue command) (· ≠ .ok .reset) := .behind nofun fun _ => .pure nofun
  unfold runCommand
  split
  · exact .pure nofun
  · next command rest =>
    dsimp only
    split
    case h_13 => exact changeMode_returns _
    case h_20 => exact absurd rfl (h rest).1
    case h_21 => exact absurd rfl (h rest).2
    all_goals exact hContinue _

theorem askReset_ends (board : Board β) (w : World Bench β τ) :
    Ends board (askReset : Act Bench β τ Error Flow) w fun r _ =>
      r = .ok .reset → confirms w.peer = true := by
  refine .bind ((asked board (Terminal.readLine "Are you sure? ") w).mono fun r mid hAsked => ?_)
  obtain ⟨hAnswer, -, -⟩ := hAsked
  unfold confirms
  rw [← hAnswer]
  rcases r with e | answer | -
  · exact nofun
  · dsimp only
    split
    · next hYes =>
      exact Returns.behind (fun _ _ => decide_eq_true hYes)
        (fun _ => .pure fun _ => decide_eq_true hYes) board mid
    · exact .pure nofun
  · exact .pure nofun

/-- A line answers that a reset was confirmed only where it asks for one, and this is confirmed. -/
theorem runCommand_confirms (board : Board β) (line : List Char) (w : World Bench β τ) :
    Ends board (runCommand line) w fun r _ => r = .ok .reset →
      ∃ command rest, line = command :: rest ∧ (command = '#' ∨ command = '$') ∧
        confirms w.peer = true := by
  by_cases hAsks : ∃ rest, line = '#' :: rest ∨ line = '$' :: rest
  · obtain ⟨rest, rfl | rfl⟩ := hAsks
    · exact (askReset_ends board w).mono fun r _ hYes hReset =>
        ⟨'#', rest, rfl, .inl rfl, hYes hReset⟩
    · exact (askReset_ends board w).mono fun r _ hYes hReset =>
        ⟨'$', rest, rfl, .inr rfl, hYes hReset⟩
  · have hOther : ∀ rest, line ≠ '#' :: rest ∧ line ≠ '$' :: rest := fun rest =>
      ⟨fun h => hAsks ⟨rest, .inl h⟩, fun h => hAsks ⟨rest, .inr h⟩⟩
    exact (runCommand_returns hOther board w).mono fun r _ hNot hReset => absurd hReset hNot

end Lines

/-! ## Rounds -/

/-- In this world the line of a reset is typed next, and is then confirmed. -/
def ConfirmsReset (world : World Bench β Console) : Prop :=
  ∃ (command : Char) (rest : List Char) (peer : Console) (events : List PeerEvent),
    (Console.readLine world.own.prompt).run ⟨world.peer, []⟩ =
      (.ok (.text (command :: rest)), ⟨peer, events⟩) ∧
    (command = '#' ∨ command = '$') ∧ confirms peer = true

/-- A line that was awaited is followed by a reset only if it asks for one that is confirmed. What
goes wrong with a command is forgotten, unless the link failed or a character would be cut. -/
theorem awaitFlow_confirms (board : Board β) (w : World Bench β Console) :
    Ends board awaitFlow w fun
      | .ok .reset, _ => ConfirmsReset w
      | .ok _, _ => True
      | .error e, _ => e = .link ∨ e = .splitCharacter := by
  have hRead : Ends board (Act.dialogue (Console.readLine w.own.prompt)) w fun r mid =>
      ∃ events, (Console.readLine w.own.prompt).run ⟨w.peer, []⟩ = (r, ⟨mid.peer, events⟩) :=
    ⟨_, rfl⟩
  refine .bind (.own (.bind (hRead.mono fun r mid hLine => ?_)))
  obtain ⟨events, hLine⟩ := hLine
  have hAnswered := Console.readLine_returns w.own.prompt ⟨w.peer, []⟩
  rw [hLine] at hAnswered
  rcases r with e | line | -
  · exact .inl hAnswered
  · refine .bind (.attempt ((runCommand_confirms board line mid).mono fun r after hReset => ?_))
    rcases r with e | flow
    · cases e with
      | link => exact .throw (.inl rfl)
      | splitCharacter => exact .throw (.inr rfl)
      | unavailable _ | bus _ | modeSwitch | aborted => exact .pure trivial
    · cases flow with
      | «continue» | binary => exact .pure trivial
      | reset =>
        obtain ⟨command, rest, rfl, hCommand, hYes⟩ := hReset rfl
        exact .pure ⟨command, rest, mid.peer, events, hLine, hCommand, hYes⟩
  · exact .pure trivial

/-! ## Binary sessions -/

theorem releaseMode_returns :
    Returns (releaseMode : Act Bench β τ Error Unit) (· = .ok ()) := by
  rintro board ⟨⟨mode, capabilities, select, userPin⟩, s, peer, events⟩
  cases mode <;> cases select <;> rfl

/-- Going back to the state of the start needs nothing but the link. -/
theorem softReset_returns : Returns (softReset : Act Bench β Console Error Unit) LinkOnly := by
  have hLine (text : String) :
      Returns (Act.writeLine text : Act Bench β Console Error Unit) LinkOnly :=
    fun _ world => Terminal.writeLine_returns text ⟨world.peer, []⟩
  have hRelease : Returns (releaseMode : Act Bench β Console Error Unit) LinkOnly :=
    fun board world => (releaseMode_returns board world).mono fun r _ hOk => by
      rw [hOk]
      exact nofun
  have hOwn : Returns (Act.own : Act Bench β Console Error Bench) LinkOnly := fun _ _ => nofun
  have hBoard : Returns (read : Act Bench β Console Error (Board β)) LinkOnly := fun _ _ => nofun
  have hVersion : Returns (showVersion : Act Bench β Console Error Unit) LinkOnly :=
    hBoard.linked fun _ => (hLine _).linked fun _ => (hLine _).linked fun _ =>
      hOwn.linked fun _ => hLine _
  have hSet : Returns (Act.modifyOwn fun bench => { bench with userPin := .aux } :
      Act Bench β Console Error Unit) LinkOnly := fun _ _ => nofun
  have hLed : Returns (Act.tell (.modeLed false) : Act Bench β Console Error Unit) LinkOnly :=
    fun _ _ => nofun
  exact hRelease.linked fun _ => hSet.linked fun _ => hLed.linked fun _ => hVersion

theorem leaveRoot_returns (result : Except LinkError Unit) :
    Returns (leaveRoot result : Act Bench β Console Error Unit) LinkOnly := by
  have hSelect : Returns (Act.tell (.pin .cs .release) : Act Bench β Console Error Unit) LinkOnly :=
    fun _ _ => nofun
  refine hSelect.linked fun _ => ?_
  cases result with
  | error e => exact .throw linkOnly_link
  | ok _ => exact softReset_returns

/-- The claim of chip select that was refused. -/
def selectRefused (reason : Unavailable) : Exchange :=
  ⟨.pin .cs .claim, .error reason⟩

/-- A session of the binary protocol fails with the link, or it does not even begin because chip
select is refused; then this was the last that happened. -/
theorem runBinary_ends (board : Board β) (w : World Bench β Console) :
    Ends board runBinary w fun
      | .ok _, _ | .error .link, _ => True
      | .error (.unavailable reason), after => ∃ earlier,
          after.events = .board (selectRefused reason) :: .board ledOff :: earlier
      | .error _, _ => False := by
  have hBare : Returns (onBareLink Binary.run : Act Bench β Console Error (Except LinkError Unit))
      fun r => ∃ result, r = .ok result := fun _ _ => ⟨_, rfl⟩
  have hReleased : ((releaseMode : Act Bench β Console Error Unit) board).run w =
      (.ok (), releaseMode.after board w) := Prod.ext (releaseMode_returns board w) rfl
  refine .bind_run hReleased (.bind (.tell (.bind (.ask ?_))))
  generalize releaseMode.after board w = released
  cases (board.answer (.pin .cs .claim) (board.answer (.modeLed false) released.board).2).1 with
  | error reason => exact .bind (.throw ⟨released.events, rfl⟩)
  | ok _ =>
    refine .bind (.pure (.bind ((hBare board _).mono fun r inside hResult => ?_)))
    obtain ⟨result, rfl⟩ := hResult
    refine (leaveRoot_returns result board inside).mono fun r after hLink => ?_
    cases r with
    | ok _ => trivial
    | error e =>
      obtain rfl := hLink e rfl
      trivial

/-- In this world the host asks for the binary protocol next, and the board refuses chip select,
with which the prompt is over. -/
def RefusesEntry (board : Board β) (reason : Unavailable) (world after : World Bench β Console) :
    Prop :=
  ∃ atEntry earlier, (awaitFlow board).run world = (.ok .binary, atEntry) ∧
    (runBinary board).run atEntry = (.error (.unavailable reason), after) ∧
    after.events = .board (selectRefused reason) :: .board ledOff :: earlier

/-- How a round of the prompt comes out. -/
theorem serveRound_ends (board : Board β) (w : World Bench β Console) :
    Ends board (serveRound ()) w fun
      | .ok (.inl _), _ | .error .link, _ | .error .splitCharacter, _ => True
      | .ok (.inr _), _ => ConfirmsReset w
      | .error (.unavailable reason), after => RefusesEntry board reason w after
      | .error _, _ => False := by
  rw [serveRound_eq]
  refine .bind ((awaitFlow_confirms board w).with_run.mono fun r mid hAwaited => ?_)
  obtain ⟨hRun, hFlow⟩ := hAwaited
  rcases r with e | flow
  · rcases hFlow with rfl | rfl
    · trivial
    · trivial
  · cases flow with
    | «continue» => exact .pure trivial
    | reset => exact .pure hFlow
    | binary =>
      refine .bind ((runBinary_ends board mid).with_run.mono fun r after hBinary => ?_)
      obtain ⟨hBinary, hEnd⟩ := hBinary
      rcases r with e | _
      · cases e with
        | link => trivial
        | unavailable reason =>
          obtain ⟨earlier, hEvents⟩ := hEnd
          exact ⟨mid, earlier, hRun, hBinary, hEvents⟩
        | bus _ | modeSwitch | aborted | splitCharacter => exact hEnd.elim
      · exact .pure trivial

/-! ## Serving -/

/-- Whatever a board refuses and whatever goes wrong on it, whatever arrives and wherever the output
fails, there are three ways in which serving a link ends, after its last round has begun. A reset
was asked for and confirmed; or a read or an output of the link has failed; or the host has asked
for the binary protocol and the board has refused chip select. -/
theorem serve_ends (board : Board β) (w : World Bench β Console) :
    ∃ last new, Passes board serveRound () w () last ∧
      ((serveRound ()) board).run last =
        (((serve board).run w).1.map .inr, serve.after board w) ∧
      (serve.after board w).events = new ++ w.events ∧
      match ((serve board).run w).1 with
      | .ok _ => ConfirmsReset last
      | .error .link => ∃ reason, .peer (.failed reason) ∈ new
      | .error (.unavailable reason) => RefusesEntry board reason last (serve.after board w)
      | .error _ => False := by
  obtain ⟨hLoops, -, new, hNew, -, -, hFailed⟩ := serve_terminates board w
  obtain ⟨⟨⟩, last, hPasses, hLast⟩ := hLoops.last_round
  have hSplit := serve_ne_split board w
  have hEnd := serveRound_ends board last
  unfold Ends at hEnd
  rw [hLast] at hEnd
  refine ⟨last, new, hPasses, hLast, hNew, ?_⟩
  generalize ((serve board).run w).1 = r at hFailed hSplit hEnd
  rcases r with e | _
  · cases e with
    | link => exact hFailed.mp rfl
    | unavailable reason => exact hEnd
    | splitCharacter => exact hSplit rfl
    | bus _ | modeSwitch | aborted => exact hEnd
  · exact hEnd

end Bench

end BusBench
