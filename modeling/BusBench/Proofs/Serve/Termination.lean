import BusBench.Proofs.Binary.Spending
import BusBench.Proofs.Serve.Handover
import BusBench.Proofs.Terminals.Commands
import BusBench.Proofs.Terminals.Spending

/-!
# Serving a link ends

Every loop of the prompt and of the binary protocol reads something in each of its rounds, and none
of them goes on when the link has failed. As only so much arrives, serving a link ends, and so does
each loop on the way. Nothing is read after the read that fails, and nothing after an output that
fails.

* `Act.RunsOut`: a loop that is bounded, but needs no bound.
* `Bench.awaitFlow_accords`: a line on two terminals in accord.
* `Bench.serveRound_spends`: a round of the prompt.
* `Bench.InnerLoops`: the loops within.
* `Bench.serve_terminates`: the whole.
-/

namespace BusBench

variable {ω β τ ε α σ : Type}

/-! ## Loops that need no bound -/

/-- From every world the loop runs as its rounds do without any bound. -/
def Act.RunsOut (round : σ → Act ω β τ ε (σ ⊕ α)) (loop : σ → Act ω β τ ε α) : Prop :=
  ∀ (board : Board β) (x : σ) (w : World ω β τ),
    Loops (fun x => round x board) x w ((loop x board).run w).1 ((loop x).after board w)

/-- After every dialogue the loop runs as its rounds do without any bound. -/
def Dialogue.RunsOut (round : σ → Dialogue τ ε (σ ⊕ α)) (loop : σ → Dialogue τ ε α) : Prop :=
  ∀ (x : σ) (r : Recorded τ), Loops round x r ((loop x).run r).1 ((loop x).run r).2

theorem Act.RunsOut.serveUntil {round : σ → Binary.Talk ω β (σ ⊕ α)}
    (h : ∀ x, Act.Spends Link.meter 1 (round x)) : Act.RunsOut round (Binary.serveUntil round) :=
  fun _ x _ => Act.Spends.loops h (Nat.lt_succ_self _) x

theorem Act.RunsOut.askUntil {round : σ → Act ω β Console Error (σ ⊕ α)}
    (h : ∀ x, Act.Spends Console.meter 1 (round x)) : Act.RunsOut round (Act.askUntil round) :=
  fun _ x _ => Act.Spends.loops h (Nat.lt_succ_self _) x

namespace Bench

open Act (RunsOut Spends)
open Console (meter spending spending_bond spending_keys spends_of_accords)

/-! ## Rounds of the prompt -/

section Bond

variable [Terminal τ] {τ' : Type} [Terminal τ'] {A : Accord τ τ'} (h : A.Bond)

include h

/-- A line says the same on terminals in accord. -/
theorem answerLine_accords (line : Line)
    (hKeys : ∀ {chars}, line = .text chars → Polls chars → A.Keys) :
    Act.Accords A (A.endsWith line) (answerLine line : Act Bench β τ Error Flow) (answerLine line)
      A.endsAfter := by
  cases line with
  | modeSwitch => exact .pure rfl
  | text chars =>
    refine .bind (.attempt (runCommand_accords h chars (hKeys rfl))) fun result => ?_
    cases result with
    | ok flow => exact .pure rfl
    | error e =>
      have hContinue : e ≠ .modeSwitch → e ≠ .link → A.ends e = false := A.ends_eq_false
      cases e with
      | modeSwitch => exact .pure rfl
      | link => exact .throw rfl
      | splitCharacter => exact .throw rfl
      | unavailable reason => exact .pure (hContinue nofun nofun).symm
      | bus reason => exact .pure (hContinue nofun nofun).symm
      | aborted => exact .pure (hContinue nofun nofun).symm

theorem awaitFlow_accords (hKeys : A.Keys) :
    Act.Accords A false (awaitFlow : Act Bench β τ Error Flow) awaitFlow A.endsAfter :=
  .bind .own fun bench => .bind (.dialogue (h.readLine bench.prompt)) fun line =>
    answerLine_accords h line fun _ _ => hKeys

end Bond

theorem answerLine_spends (line : Line) :
    Spends meter 0 (answerLine line : Act Bench β Console Error Flow) := by
  cases line with
  | modeSwitch => exact .pure _
  | text chars =>
    have hGoesOn : ∀ start, (spending start).endsAfter = fun _ => false := fun start =>
      funext fun flow => by cases flow <;> rfl
    have hAccords : ∀ start, Act.Accords (spending start) false
        (answerLine (.text chars) : Act Bench β Console Error Flow) (answerLine (.text chars))
        fun _ => false := by
      intro start
      rw [← hGoesOn start]
      exact answerLine_accords spending_bond (.text chars) fun _ _ => spending_keys
    exact (spends_of_accords (fun _ => rfl) hAccords).1

/-- The link below the console, with failures of its own. -/
def bareMeter : Meter Console LinkError where
  supply := meter.supply
  ends _ := true

/-- A failure of the binary protocol is a failure of the link, and chip select is given back. -/
theorem runBinary_spends : Spends meter 0 (runBinary : Act Bench β Console Error Unit) := by
  have hRelease : Spends meter 0 (releaseMode : Act Bench β Console Error Unit) :=
    (spends_of_accords (fun _ => rfl) fun _ => releaseMode_accords).1
  have hReset : Spends meter 0 (softReset : Act Bench β Console Error Unit) :=
    (spends_of_accords (fun _ => rfl) fun _ => softReset_keeps_on spending_bond).1
  have hClaimed : ∀ answer, Spends meter 0 (Act.claimed answer : Act Bench β Console Error Unit) :=
    fun answer => (spends_of_accords (fun _ => rfl) fun _ => .claimed answer).1
  have hProtocol : Spends bareMeter 0
      (Act.onPart (·.link) (fun link console => { console with link }) Binary.run :
        Act Bench β Console LinkError Unit) :=
    .onPart (fun _ => rfl) (fun _ _ => rfl) rfl Binary.run_spends
  refine hRelease.bind fun _ => (Spends.tell _).bind fun _ => (Spends.ask _).bind fun answer =>
    (hClaimed answer).bind fun _ => ?_
  let anew : Console → Console := fun console => { console with detector := {} }
  rw [onBareLink, bind_assoc]
  exact Spends.bind (.modifyPeer anew fun _ => rfl) fun _ =>
    hProtocol.attempt_bind rfl (fun _ => rfl) (fun _ => (Spends.tell _).bind fun _ => hReset)
      fun _ => .tell_bind (.throw rfl)

theorem serveRound_spends (u : Unit) :
    Spends meter 1 (serveRound u : Act Bench β Console Error (Unit ⊕ Unit)) := by
  have hAwait : Spends meter 1 (awaitFlow : Act Bench β Console Error Flow) :=
    Spends.own.bind_next fun bench =>
      (Spends.dialogue (Console.readLine_spends bench.prompt)).bind answerLine_spends
  rw [serveRound_eq]
  refine hAwait.bind fun flow => ?_
  cases flow with
  | «continue» => exact .pure _
  | reset => exact .pure _
  | binary => exact runBinary_spends.bind fun _ => .pure _

/-! ## All loops -/

/-- The loops that serving a link may come to need no bound, whatever the board and the host do. -/
structure InnerLoops (β : Type) : Prop where
  line : Dialogue.RunsOut Console.readLineRound fun line => do
    rounds (throw .link) Console.readLineRound ((← Dialogue.peer).link.incoming.length + 1) line
  menu : ∀ question count default,
    Dialogue.RunsOut (Terminal.menuRound question count default : Unit → Dialogue Console _ _)
      (Terminal.askUntil (Terminal.menuRound question count default))
  voltmeter : RunsOut (voltmeterRound : Unit → Act Bench β Console Error (Unit ⊕ Unit))
    (Act.askUntil voltmeterRound)
  bridge : RunsOut (Uart.bridgeRound : Unit → Act Bench β Console Error (Unit ⊕ Unit))
    (Act.askUntil Uart.bridgeRound)
  monitor : RunsOut (Uart.monitorRound : Unit → Act Bench β Console Error (Unit ⊕ Unit))
    (Act.askUntil Uart.monitorRound)
  root : RunsOut (Binary.serveRound : Unit → Binary.Talk Bench β (Unit ⊕ Unit))
    (Binary.serveUntil Binary.serveRound)
  spi : ∀ backing, RunsOut (Binary.Spi.serveRound backing : _ → Binary.Talk Bench β _)
    (Binary.serveUntil (Binary.Spi.serveRound backing))
  i2c : ∀ backing, RunsOut (Binary.I2c.serveRound backing : _ → Binary.Talk Bench β _)
    (Binary.serveUntil (Binary.I2c.serveRound backing))
  uart : RunsOut (Binary.Uart.serveRound : _ → Binary.Talk Bench β _)
    (Binary.serveUntil Binary.Uart.serveRound)
  uartBridge : RunsOut (Binary.Uart.bridgeRound : _ → Binary.Talk Bench β _)
    (Binary.serveUntil Binary.Uart.bridgeRound)
  /-- An output is repeated until it succeeds or fails. -/
  output : ∀ link : Link, (Link.insist Link.serveByte link.stalled link).1 ≠ .notYet ∧
    (Link.insist Link.serveFlush link.stalled link).1 ≠ .notYet

theorem innerLoops : InnerLoops β where
  line _ _ := Dialogue.Spends.loops Console.readLineRound_spends (Nat.lt_succ_self _)
  menu _ _ _ _ _ :=
    Dialogue.Spends.loops (Console.menuRound_spends _ _ _) (Nat.lt_succ_self _)
  voltmeter := .askUntil fun x => (Console.keyed_spends voltmeterRound_keyed x).1
  bridge := .askUntil fun x => (Console.keyed_spends Uart.bridgeRound_keyed x).1
  monitor := .askUntil fun x => (Console.keyed_spends Uart.monitorRound_keyed x).1
  root := .serveUntil Binary.serveRound_spends
  spi backing := .serveUntil (Binary.Spi.serveRound_spends backing)
  i2c backing := .serveUntil (Binary.I2c.serveRound_spends backing)
  uart := .serveUntil Binary.Uart.serveRound_spends
  uartBridge := .serveUntil Binary.Uart.bridgeRound_spends
  output _ := ⟨Link.insist_answers Link.serveByte_answers (Nat.le_refl _),
    Link.insist_answers Link.serveFlush_answers (Nat.le_refl _)⟩

/-- Serving a link ends, whatever the board answers, whatever arrives, and wherever the output fails:
the rounds of the prompt come to an end without a bound, and so do all loops within. There is at
most one more read than there are arrivals. Once a read or an output has failed nothing passes over
the link any more, and the prompt ends with that failure if and only if there was one. -/
theorem serve_terminates (board : Board β) (w : World Bench β Console) :
    Loops (fun u => serveRound u board) () w ((serve board).run w).1 (serve.after board w) ∧
      InnerLoops β ∧
      ∃ new, (serve.after board w).events = new ++ w.events ∧
        new.countP Event.isRead ≤ w.peer.link.incoming.length + 1 ∧
        (∀ later reason earlier, new = later ++ .peer (.failed reason) :: earlier →
          ∀ event ∈ later, event.isPeer = false) ∧
        (((serve board).run w).1 = .error .link ↔ ∃ reason, .peer (.failed reason) ∈ new) := by
  have hServe : Spends meter 1 (serve : Act Bench β Console Error Unit) :=
    Console.askUntil_spends serveRound_spends ()
  have hLoop : Loops (fun u => serveRound u board) () w ((serve board).run w).1
      (serve.after board w) :=
    RunsOut.askUntil serveRound_spends board () w
  obtain ⟨new, hNew, hPassage⟩ := hServe board w
  have hSpent := hPassage.spent
  refine ⟨hLoop, innerLoops, new, hNew, hSpent.reads_le, fun _ _ _ hCut => hSpent.silent hCut, ?_⟩
  rw [hSpent.failed_iff]
  generalize ((serve board).run w).1 = r
  cases r with
  | ok u => exact ⟨nofun, nofun⟩
  | error e => exact ⟨fun h => decide_eq_true (Except.error.inj h),
      fun h => congrArg _ (of_decide_eq_true h)⟩

end Bench

end BusBench
