import BusBench.Dialogue
import BusBench.Rounds
import BusBench.Text.Blank
import BusBench.Text.Numeral

/-!
# Terminals

Where transcripts are written to and answers come from. Text has line ends `\n`; the terminal turns
them into what its line needs.

* `Terminal`: what a terminal can do.
* `Terminal.select`: a numbered menu.
* `Terminal.writeBytesLine`: bytes in hexadecimal after a label.
-/

namespace BusBench

/-- The answer to a request for a line. -/
inductive Line where
  | text (chars : List Char)
  /-- The host announced the binary protocol instead of finishing the line. -/
  | modeSwitch
  deriving DecidableEq, Repr

/-- Peers of type `τ` work as terminals. -/
class Terminal (τ : Type) where
  /-- How many more answers, lines and keys, can come at most. -/
  remaining : τ → Nat
  /-- Shows a text. -/
  write : String → Dialogue τ Error Unit
  /-- Shows a question and waits for a line. -/
  readLine : String → Dialogue τ Error Line
  /-- The key that is pressed now, if any. -/
  pollKey : Dialogue τ Error (Option UInt8)
  /-- Sends bytes as they are. -/
  writeBytes : List UInt8 → Dialogue τ Error Unit

namespace Terminal

variable {τ : Type} [Terminal τ]

/-- Shows a text and ends the line. -/
def writeLine (text : String) : Dialogue τ Error Unit :=
  write (text ++ "\n")

/-- Shows a label and the bytes in hexadecimal, and ends the line. -/
def writeBytesLine (label : String) (bytes : List UInt8) : Dialogue τ Error Unit :=
  writeLine (bytes.foldl (fun text b => text ++ " 0x" ++ Text.hex b.toNat) label)

/-- Runs a round that asks for something until it answers. It ends because a terminal has only so
many answers, and fails when it has none left. -/
@[specialize]
def askUntil {σ α : Type} (round : σ → Dialogue τ Error (σ ⊕ α)) (s : σ) : Dialogue τ Error α := do
  rounds (throw .link) round (remaining (← Dialogue.peer) + 1) s

/-- Writes the options of a menu, numbered from `n`. -/
def writeOptions : Nat → List String → Dialogue τ Error Unit
  | _, [] => pure ()
  | n, option :: options => do
    writeLine (" " ++ Text.decimal n ++ ". " ++ option)
    writeOptions (n + 1) options

/-- The option that an answer picks, counting from zero; a blank answer picks the default. -/
def choice? (count default : Nat) (answer : List Char) : Option Nat :=
  let answer := Text.trim answer
  if answer.isEmpty then some default
  else
    match Text.answer? answer with
    | some n => if 1 ≤ n ∧ n ≤ count then some (n - 1) else none
    | none => none

/-- Shows a numbered menu and asks until an option is picked; answers its index from zero. -/
def select (message : String) (options : List String) (default : Nat) : Dialogue τ Error Nat := do
  writeLine message
  writeOptions 1 options
  let question := "(" ++ Text.decimal (default + 1) ++ ")>"
  askUntil (fun (_ : Unit) => do
    match ← readLine question with
    | .modeSwitch => throw .modeSwitch
    | .text answer =>
      match choice? options.length default answer with
      | some index => return .inr index
      | none =>
        writeLine "Invalid choice, try again"
        return .inl ()) ()

end Terminal

end BusBench
