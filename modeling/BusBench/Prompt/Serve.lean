import BusBench.Binary.Root
import BusBench.Prompt.Command
import BusBench.Terminal.Console

/-!
# Serving a link

The text prompt on a serial link, which hands the link over to the binary protocol when the host
announces it and takes it back when the host leaves it.

* `Bench.serve`: serves a link until a reset is confirmed or the link fails.
* `Bench.run`: the prompt from its start.
-/

namespace BusBench.Bench

variable {β : Type}

/-- Runs a program of the binary protocol on the link of a console, past its line editor. -/
def onBareLink {ε : Type} (program : Binary.Talk Bench β Unit) :
    Act Bench β Console ε (Except LinkError Unit) := do
  modify fun world => { world with peer := { world.peer with detector := {} } }
  Act.attempt (Act.onPart (·.link) (fun link console => { console with link }) program)

/-- Leaves the mode, claims chip select and serves the binary protocol; then goes back to the state
of the start. -/
def runBinary : Act Bench β Console Error Unit := do
  releaseMode
  Act.tell (.modeLed false)
  Act.claimed (← Act.ask (.pin .cs .claim))
  let result ← onBareLink Binary.run
  Act.tell (.pin .cs .release)
  match result with
  | .error _ => throw .link
  | .ok _ => softReset

/-- What is to be done after a line was awaited. Only a failed link ends the prompt. -/
def answerLine {τ : Type} [Terminal τ] : Line → Act Bench β τ Error Flow
  | .modeSwitch => return .binary
  | .text line => do
    match ← Act.attempt (runCommand line) with
    | .ok flow => return flow
    | .error .modeSwitch => return .binary
    | .error .link => throw .link
    | .error .splitCharacter => throw .splitCharacter
    | .error _ => return .continue

/-- Awaits one line and does what it says; answers as soon as a reset is confirmed. -/
def serveRound (_ : Unit) : Act Bench β Console Error (Unit ⊕ Unit) := do
  let line ← Act.dialogue (Console.readLine (← Act.own).prompt)
  match ← answerLine line with
  | .continue => return .inl ()
  | .reset => return .inr ()
  | .binary =>
    runBinary
    return .inl ()

/-- Serves a link until a reset is confirmed. -/
def serve : Act Bench β Console Error Unit :=
  Act.askUntil serveRound ()

/-- Starts the prompt and serves a link until a reset is confirmed. -/
def run : Act Bench β Console Error Unit := do
  let bench ← start
  Act.modifyOwn fun _ => bench
  serve

end BusBench.Bench
