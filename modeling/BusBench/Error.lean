import BusBench.Board.Request

/-!
# Why a command fails

* `Error`: the failures of the text prompt.
* `LinkError`: the failures of the serial link itself.
-/

namespace BusBench

/-- A failure of the text prompt. -/
inductive Error where
  | unavailable (reason : Unavailable)
  | bus (reason : BusError)
  /-- The serial link to the user failed. -/
  | link
  /-- The host announced the binary protocol where a line of text was awaited. -/
  | modeSwitch
  /-- The operation was given up before it did anything. -/
  | aborted
  /-- A literal could not be looked at because its prefix would end inside a character. Nothing
  recovers from this. -/
  | splitCharacter
  deriving DecidableEq, Repr

def Error.message : Error → String
  | unavailable reason => reason.message
  | bus reason => reason.message
  | link => "serial link failed"
  | modeSwitch => "binary mode requested"
  | aborted => "operation aborted"
  | splitCharacter => "a number would be cut inside a character"

/-- A failure of the serial link. -/
inductive LinkError where
  /-- Nothing more will ever arrive. -/
  | endOfInput
  | sendBroken
  | flushBroken
  deriving DecidableEq, Repr

def LinkError.message : LinkError → String
  | endOfInput => "serial read failed: Eof"
  | sendBroken => "serial write failed: Broken"
  | flushBroken => "serial write failed: FlushBroken"

end BusBench
