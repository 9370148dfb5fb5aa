import BusBench.Prompt.Bench
import BusBench.Sequence.Parser

/-!
# Commands

A line that starts with a command character is a command; any other line is a sequence for the bus.

* `Flow`: what is to be done after a command.
* `Bench.runCommand`: runs one line.
-/

namespace BusBench

/-- What is to be done after a command. -/
inductive Flow where
  | continue
  /-- The host asked for the binary protocol in the middle of a command. -/
  | binary
  /-- The user confirmed a reset. -/
  | reset
  deriving DecidableEq, Repr

namespace Bench

variable {β τ : Type} [Terminal τ]

def help : String :=
  "MENUS\n?    \tHelp\n= X  \tConverts X to dec/hex/bin\n| X  \tReverse bits in byte X\n" ++
  "i    \tVersion & status info\nb    \tSet baud rate\nc/C  \tAUX assignment (aux pin/CS)\n" ++
  "a/A/@\tAUXPIN (low/HIGH/READ)\nd/D  \tMeasure ADC (once/CONT.)\nm    \tChange mode\n" ++
  "(0)  \tList current macros\n(x)  \tMacro x\nw/W  \tPSU (off/ON)\nv    \tShow volts/states\n" ++
  "p/P  \tPull-up resistors (off/ON)\n#    \tReset\nPROTOCOL INTERACTION\n[/\x7b  \tStart\n" ++
  "]/\x7d  \tStop\n123  \tSend value\n0x12 \tSend hex value\n0b10 \tSend binary value\n" ++
  "r    \tRead\n:    \tRepeat e.g. r:10"

/-! ## Numbers -/

/-- The value of a literal, `none` if it is malformed. -/
def readLiteral (text : List Char) : Act Bench β τ Error (Option Nat) :=
  match Text.Literal.read text with
  | .ok n => return some n
  | .error .malformed => return none
  | .error .splitCharacter => throw .splitCharacter

/-- A number in hexadecimal, decimal and binary. -/
def spellings (n : Nat) : String :=
  "0x" ++ Text.hex n ++ " = " ++ Text.decimal n ++ " = " ++ Text.bits n ++ " "

def showInvalid (text : List Char) : Act Bench β τ Error Unit :=
  Act.writeLine ("Invalid input! " ++ String.ofList text)

/-- Shows the number `change` makes of a literal. -/
def convert (text : List Char) (change : Nat → Nat) : Act Bench β τ Error Unit := do
  match ← readLiteral text with
  | some n => Act.writeLine (spellings (change n))
  | none => showInvalid text

/-- The lowest byte of a number, with its bits in the opposite order. -/
def reverseByte (n : Nat) : Nat :=
  (Byte.reverse (UInt8.ofNat n)).toNat

/-! ## Pins -/

/-- Picks AUX for the pin commands, and gives back chip select. -/
def selectAux : Act Bench β τ Error Unit := do
  dropSelect
  Act.modifyOwn fun bench => { bench with userPin := .aux }

/-- Picks chip select for the pin commands, and claims it unless it is held already. -/
def selectCs : Act Bench β τ Error Unit := do
  let bench ← Act.own
  if !bench.capabilities.chipSelect && !bench.holdsSelect then
    Act.claimed (← Act.ask (.pin .cs .claim))
    Act.modifyOwn fun bench => { bench with holdsSelect := true }
  Act.modifyOwn fun bench => { bench with userPin := .cs }

def drivePin (high : Bool) (message : String) : Act Bench β τ Error Unit := do
  let pin := (← Act.own).drivenPin
  Act.done (← Act.ask (.pin pin (.output high)))
  Act.writeLine message

def readPin : Act Bench β τ Error Unit := do
  let pin := (← Act.own).drivenPin
  Act.done (← Act.ask (.pin pin .input))
  let level ← Act.done (← Act.ask (.pin pin .sample))
  Act.writeLine ("AUX INPUT/HI-Z, READ: " ++ levelWord level)

/-! ## Voltages and rails -/

def showVoltage : Act Bench β τ Error Unit := do
  let volts : Volts ← Act.ask (.voltage .adc)
  Act.writeLine ("VOLTAGE PROBE " ++ volts.text ++ "V")

def voltmeterRound (_ : Unit) : Act Bench β τ Error (Unit ⊕ Unit) := do
  match ← Act.dialogue Terminal.pollKey with
  | some _ => return .inr ()
  | none =>
    showVoltage
    Act.tell (.delay 100)
    return .inl ()

/-- Shows the voltage again and again until a key is pressed. -/
def runVoltmeter : Act Bench β τ Error Unit := do
  Act.writeLine "VOLTMETER MODE\nAny key to exit"
  Act.askUntil voltmeterRound ()
  Act.writeLine "DONE"

def showPins : Act Bench β τ Error Unit := do
  let bench ← Act.own
  let kind := bench.mode.kind
  Act.writeLine "Pinstates:"
  Act.writeLine
    "1.(BR)  2.(RD)  3.(OR)  4.(YW)  5.(GN)  6.(BL)  7.(PU)  8.(GR)  9.(WT)  0.(Blk)"
  Act.writeLine ("GND     3.3V    5.0V    ADC     VPU     AUX     " ++ kind.pinFunctions)
  let directions :=
    if bench.capabilities.pinDirections then kind.pinDirections else "-       -       -       -"
  Act.writeLine ("P       P       P       I       I       I       " ++ directions)
  Act.write "GND     "
  [Probe.v3, .v5, .adc, .vpullup].forM fun probe => do
    let volts : Volts ← Act.ask (.voltage probe)
    Act.write (volts.text ++ "V   ")
  Act.writeLine "L       L       L       L       L"

def setPower (on : Bool) : Act Bench β τ Error Unit := do
  Act.tell (.power on)
  Act.writeLine (if on then "Power supplies ON" else "Power supplies OFF")

/-- Switches the pull-up resistors where the mode has a use for them. -/
def setPullups (on : Bool) : Act Bench β τ Error Unit := do
  if !(← Act.own).capabilities.pullups then
    Act.writeLine "Command not used in this mode"
  else
    Act.tell (.pullups on)
    if on then
      Act.writeLine "Pull-up resistors ON"
      let volts : Volts ← Act.ask (.voltage .vpullup)
      if volts.isBelowTenth then Act.writeLine "Warning: no voltage on Vpullup pin"
    else
      Act.writeLine "Pull-up resistors OFF"

/-! ## Modes -/

/-- The number of the mode to enter: what was typed after the command, or else the answer to a list
of the modes; `none` if the host announced the binary protocol instead. -/
def askMode (args : List Char) : Dialogue τ Error (Option (List Char)) := do
  if args.isEmpty then
    ModeKind.all.zipIdx.forM fun (kind, i) =>
      Terminal.writeLine (Text.decimal (i + 1) ++ ". " ++ kind.name)
    match ← Terminal.readLine "(1) > " with
    | .text answer => return some answer
    | .modeSwitch => return none
  else return some args

/-- Enters a mode from HiZ. Where that fails for want of a resource, the bench stays in HiZ. -/
def enterMode (kind : ModeKind) : Act Bench β τ Error Flow := do
  match ← Act.attempt (Mode.enter kind) with
  | .ok mode =>
    Act.modifyOwn fun bench => { bench with mode, capabilities := kind.capabilities }
    if kind ≠ .hiz then Act.writeLine "Mode selected"
    return .continue
  | .error .modeSwitch => return .binary
  | .error .link => throw .link
  | .error .splitCharacter => throw .splitCharacter
  | .error _ =>
    Act.writeLine "Mode failed"
    return .continue

/-- The LED is lit in every mode but HiZ. -/
def showModeLed : Act Bench β τ Error Unit := do
  Act.tell (.modeLed ((← Act.own).mode.kind ≠ .hiz))

/-- Leaves the mode and enters the one of a number. A number that cannot be read stands for the first
mode. -/
def switchMode (selection : List Char) : Act Bench β τ Error Flow := do
  releaseMode
  let number := (← readLiteral (Text.trim selection)).getD 1
  let flow ←
    match ModeKind.ofNumber? number with
    | none => do
      Act.writeLine "Unknown mode"
      pure Flow.continue
    | some kind => enterMode kind
  showModeLed
  return flow

/-- Enters another mode, once its number is known. -/
def changeMode (args : List Char) : Act Bench β τ Error Flow := do
  match ← Act.dialogue (askMode args) with
  | none => return .binary
  | some selection => switchMode selection

/-! ## Commands -/

/-- Keeps what a macro made of the mode, however it went. -/
def keepMode (result : Except Error Unit) (mode : Mode) : Act Bench β τ Error Unit := do
  Act.modifyOwn fun bench => { bench with mode }
  Act.ofExcept result

/-- Runs the macro that a line such as `(1)` names. -/
def runShortcutLine (line : List Char) : Act Bench β τ Error Unit := do
  let number := Text.trimBy (fun c => c == '(' || c == ')') (Text.trim line)
  match (← readLiteral number).filter (· ≤ 0xFF) with
  | none => showInvalid number
  | some key =>
    let (result, mode) ← (← Act.own).mode.runShortcut (UInt8.ofNat key)
    keepMode result mode

def askReset : Act Bench β τ Error Flow := do
  match ← Act.dialogue (Terminal.readLine "Are you sure? ") with
  | .modeSwitch => return .binary
  | .text answer =>
    if Text.trim answer = ['y'] then
      softReset
      return .reset
    else return .continue

/-- Runs a line that is a sequence for the bus, if it can be read as one. -/
def runSequence (line : List Char) : Act Bench β τ Error Unit := do
  match Sequence.parse line with
  | .error _ => throw .splitCharacter
  | .ok [] => return
  | .ok actions => (← Act.own).mode.run actions

/-- Goes on at the prompt after a command. -/
def andContinue (command : Act Bench β τ Error Unit) : Act Bench β τ Error Flow := do
  command
  return .continue

def runCommand (line : List Char) : Act Bench β τ Error Flow :=
  match line with
  | [] => return .continue
  | command :: rest =>
    let args := Text.trim rest
    match command with
    | '?' => andContinue (Act.writeLine help)
    | 'i' => andContinue showVersion
    | 'b' => andContinue (Act.writeLine "No baud rate change required for USB!")
    | '=' => andContinue (convert args id)
    | '|' => andContinue (convert args reverseByte)
    | 'c' => andContinue selectAux
    | 'C' => andContinue selectCs
    | 'a' => andContinue (drivePin false "AUX LOW")
    | 'A' => andContinue (drivePin true "AUX HIGH")
    | '@' => andContinue readPin
    | 'd' => andContinue showVoltage
    | 'D' => andContinue runVoltmeter
    | 'm' => changeMode args
    | 'w' => andContinue (setPower false)
    | 'W' => andContinue (setPower true)
    | 'v' => andContinue showPins
    | 'p' => andContinue (setPullups false)
    | 'P' => andContinue (setPullups true)
    | '(' => andContinue (runShortcutLine line)
    | '#' | '$' => askReset
    | _ => andContinue (runSequence line)

end Bench

end BusBench
