import BusBench.Link.Basic
import BusBench.Link.Detector
import BusBench.Terminal.Basic

/-!
# The terminal on the serial link

Echoes what is typed, lets the last character be deleted, and watches for the announcement of the
binary protocol. A line ends at a carriage return, or at a line feed that does not follow one.

* `Console.edit`: what a byte does to the line being typed.
* `Console.readLine`: the next line.
-/

namespace BusBench

structure Console where
  link : Link
  detector : Detector := {}
  /-- Whether the last byte of text was a carriage return. -/
  afterReturn : Bool := false
  deriving DecidableEq, Repr

namespace Console

variable {α : Type}

/-- The bytes of a text as they are sent, with `\r\n` at each line end. -/
def wireBytes (text : String) : List UInt8 :=
  text.toUTF8.toList.flatMap fun b => if b = 0x0A then [0x0D, 0x0A] else [b]

/-- A program on the link; all its failures are failures of the link. -/
def onLink (program : Dialogue Link LinkError α) : Dialogue Console Error α :=
  program.within (·.link) (fun link console => { console with link }) (fun _ => .link)

def write (text : String) : Dialogue Console Error Unit :=
  onLink (Link.sendAll (wireBytes text))

def writeBytes (bytes : List UInt8) : Dialogue Console Error Unit :=
  onLink do
    Link.sendAll bytes
    Link.flush

def pollKey : Dialogue Console Error (Option UInt8) :=
  onLink Link.tryRead

/-! ## The line editor -/

/-- What a byte does to the line being typed. -/
inductive Edit where
  /-- The line goes on, and these bytes are echoed. -/
  | continue (line : List Char) (echo : List UInt8)
  | finish
  deriving DecidableEq, Repr

/-- What a byte does to the line, whose last character stands first. -/
def edit (afterReturn : Bool) (line : List Char) (byte : UInt8) : Edit :=
  if byte = 0x0A ∧ afterReturn then .continue line []
  else if byte = 0x0D ∨ byte = 0x0A then .finish
  else if byte = 0x08 ∨ byte = 0x7F then
    match line with
    | [] => .continue [] []
    | _ :: line => .continue line [0x08, 0x20, 0x08]
  else if 0x20 ≤ byte ∧ byte ≤ 0x7E then .continue (Char.ofNat byte.toNat :: line) [byte]
  else .continue line []

/-- Reads one byte of a line. A swallowed zero byte is not even flushed for. -/
def readLineRound (line : List Char) : Dialogue Console Error (List Char ⊕ Line) := do
  let byte ← onLink Link.read
  let console ← Dialogue.peer
  let (heard, detector) := console.detector.feed byte
  Dialogue.modifyPeer fun console => { console with detector }
  match heard with
  | .nothing => return .inl line
  | .modeSwitch => return .inr .modeSwitch
  | .data byte =>
    Dialogue.modifyPeer fun console => { console with afterReturn := byte = 0x0D }
    match edit console.afterReturn line byte with
    | .finish =>
      onLink (Link.sendAll [0x0D, 0x0A])
      return .inr (.text line.reverse)
    | .continue line echo =>
      onLink do
        Link.sendAll echo
        Link.flush
      return .inl line

/-- Shows a question and reads a line. -/
def readLine (question : String) : Dialogue Console Error Line := do
  onLink do
    Link.sendAll question.toUTF8.toList
    Link.flush
  let console ← Dialogue.peer
  rounds (throw .link) readLineRound (console.link.incoming.length + 1) []

/-- A program on the bare link, past echo and line editing. The announcement has to start anew
afterwards. -/
def onBareLink (program : Dialogue Link LinkError α) : Dialogue Console LinkError α := do
  Dialogue.modifyPeer fun console => { console with detector := {} }
  program.within (·.link) (fun link console => { console with link }) id

instance : Terminal Console where
  remaining console := console.link.incoming.length
  write := write
  readLine := readLine
  pollKey := pollKey
  writeBytes := writeBytes

end Console

end BusBench
