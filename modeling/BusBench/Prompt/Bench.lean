import BusBench.Prompt.Mode

/-!
# The bench

The text prompt drives the bench: the mode it is in, and the pins that the user drives by hand.

* `Bench`: the state of the prompt.
* `Bench.drivenPin`: the pin that the pin commands drive.
* `Bench.start`, `Bench.softReset`: the state in which the prompt begins, and the way back to it.
-/

namespace BusBench

/-- Which pin the pin commands drive. -/
inductive UserPin where
  | aux
  | cs
  deriving DecidableEq, Repr

structure Bench where
  mode : Mode := .hiz
  /-- What can be done at present, set whenever a mode is entered or left. -/
  capabilities : Capabilities := ModeKind.hiz.capabilities
  /-- Whether the prompt itself holds chip select. -/
  holdsSelect : Bool := false
  userPin : UserPin := .aux

namespace Bench

variable {β τ : Type}

def version : String := "0.1.0"

/-- The prompt, which names the mode. -/
def prompt (bench : Bench) : String :=
  bench.mode.kind.name ++ "> "

/-- The pin that the pin commands drive: chip select if it was picked and anybody here holds it. -/
def drivenPin (bench : Bench) : Pin :=
  if bench.userPin = .cs ∧ (bench.holdsSelect ∨ bench.mode.holdsSelect) then .cs else .aux

/-! ## Starting, leaving modes, resetting -/

/-- Claims AUX, switches everything off and begins in HiZ. -/
def start {ω : Type} : Act ω β τ Error Bench := do
  Act.claimed (← Act.ask (.pin .aux .claim))
  Act.tell (.power false)
  Act.tell (.pullups false)
  Act.tell (.modeLed false)
  return {}

/-- Gives back chip select, if the prompt itself holds it. -/
def dropSelect : Act Bench β τ Error Unit := do
  if (← Act.own).holdsSelect then
    Act.tell (.pin .cs .release)
    Act.modifyOwn fun bench => { bench with holdsSelect := false }

/-- Leaves the mode for HiZ and gives back chip select. -/
def releaseMode : Act Bench β τ Error Unit := do
  (← Act.own).mode.leave
  Act.modifyOwn fun bench =>
    { bench with mode := .hiz, capabilities := ModeKind.hiz.capabilities }
  dropSelect

variable [Terminal τ]

def showVersion : Act Bench β τ Error Unit := do
  Act.writeLine ("Bus Pirate on " ++ (← read).name)
  Act.writeLine ("Firmware v" ++ version)
  Act.writeLine ("Mode: " ++ (← Act.own).mode.kind.name)

/-- Goes back to the state of the start. -/
def softReset : Act Bench β τ Error Unit := do
  releaseMode
  Act.modifyOwn fun bench => { bench with userPin := .aux }
  Act.tell (.modeLed false)
  showVersion

end Bench

end BusBench
