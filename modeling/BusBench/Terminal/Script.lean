import BusBench.Terminal.Basic

/-!
# The scripted terminal

A terminal whose answers are prepared. It fails where an answer is missing, and may refuse text
after so many bytes.
-/

namespace BusBench

structure Script where
  /-- The lines still to be answered. -/
  lines : List Line := []
  /-- The keys still to be answered, `none` where none is pressed. -/
  keys : List (Option UInt8) := []
  /-- How many bytes of text are still accepted, `none` for any number. -/
  room : Option Nat := none
  deriving DecidableEq, Repr

namespace Script

/-- The longest start of the text that has room in `n` bytes. -/
def fitting : Nat → List Char → List Char
  | _, [] => []
  | n, c :: cs => if c.utf8Size ≤ n then c :: fitting (n - c.utf8Size) cs else []

/-- Takes a text, of which nothing remains if it is empty. -/
def keep (text : String) : Dialogue Script Error Unit :=
  if text.isEmpty then pure () else Dialogue.note (.shown text)

/-- Shows a text, or as much of it as has room. -/
def write (text : String) : Dialogue Script Error Unit := do
  match (← Dialogue.peer).room with
  | none => keep text
  | some n =>
    if text.utf8ByteSize ≤ n then
      keep text
      Dialogue.modifyPeer fun script => { script with room := some (n - text.utf8ByteSize) }
    else
      keep (String.ofList (fitting n text.toList))
      Dialogue.modifyPeer fun script => { script with room := some 0 }
      throw .link

def readLine (question : String) : Dialogue Script Error Line := do
  Dialogue.note (.asked question)
  match (← Dialogue.peer).lines with
  | [] => throw .link
  | line :: lines =>
    Dialogue.modifyPeer fun script => { script with lines }
    pure line

def pollKey : Dialogue Script Error (Option UInt8) := do
  Dialogue.note .polled
  match (← Dialogue.peer).keys with
  | [] => throw .link
  | key :: keys =>
    Dialogue.modifyPeer fun script => { script with keys }
    pure key

def writeBytes (bytes : List UInt8) : Dialogue Script Error Unit :=
  Dialogue.note (.passed bytes)

instance : Terminal Script where
  remaining script := script.lines.length + script.keys.length
  write := write
  readLine := readLine
  pollKey := pollKey
  writeBytes := writeBytes

end Script

end BusBench
