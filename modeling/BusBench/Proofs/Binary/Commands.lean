import BusBench.Binary.Session
import BusBench.Proofs.Link.Dialogues

/-!
# Commands of the binary protocol

From the events of the binary protocol one can tell which commands it took, which bytes of the input
each of them had, and what was replied to it. The layout of the commands is written down here once
more, apart from the programs that serve them.

* `Tally`: commands and grants, as an observer of events collects them.
* `commands`, `grants`: the commands that were taken, and the engines that the board granted.
* `Kind`, `kind`: the layout of a command, which decides how many bytes belong to it.
* `replyLength`: how many bytes are replied to a command.
-/

namespace BusBench

/-! ## Grants -/

/-- Whether a claim succeeded. -/
def isClaimed (answer : Except Unavailable Unit) : Bool :=
  answer.isOk

/-- Where the exchange decides whether an engine of the binary protocol may start, the decision. SPI
needs its lock as well, and the refusal of a controller alone decides nothing. -/
def Exchange.grant? : Exchange → Option Bool
  | ⟨.spi _ .lock, granted⟩ => some granted
  | ⟨.spi .bitBanged .claim, answer⟩ => if isClaimed answer then none else some false
  | ⟨.i2c .hardware (.claim ..), answer⟩ => if isClaimed answer then some true else none
  | ⟨.i2c .bitBanged (.claim ..), answer⟩ => some (isClaimed answer)
  | ⟨.uart (.claim ..), answer⟩ => some (isClaimed answer)
  | _ => none

namespace Binary

/-! ## Tallies -/

/-- A command as it came over the link. -/
structure Command where
  server : Server
  frame : List UInt8
  /-- The bytes that were sent between this command and the next. -/
  reply : List UInt8
  deriving DecidableEq, Repr

/-- Commands and grants, the newest first. -/
structure Tally where
  /-- The loop that takes the next byte as a command, if one awaits it. -/
  awaiting? : Option Server := none
  commands : List Command := []
  grants : List Bool := []
  deriving DecidableEq, Repr

namespace Tally

def hear (b : UInt8) (t : Tally) : Tally :=
  match t.awaiting?, t.commands with
  | some server, commands =>
    { t with awaiting? := none, commands := ⟨server, [b], []⟩ :: commands }
  | none, command :: commands =>
    { t with commands := { command with frame := command.frame ++ [b] } :: commands }
  | none, [] => t

def say (b : UInt8) (t : Tally) : Tally :=
  match t.commands with
  | command :: commands =>
    { t with commands := { command with reply := command.reply ++ [b] } :: commands }
  | [] => t

def granting (t : Tally) (granted : Bool) : Tally :=
  { t with grants := granted :: t.grants }

def decide (exchange : Exchange) (t : Tally) : Tally :=
  match exchange.grant? with
  | some granted => t.granting granted
  | none => t

def see : Event → Tally → Tally
  | .reached (.command server), t => { t with awaiting? := some server }
  | .peer (.received b), t => t.hear b
  | .peer (.sent b), t => t.say b
  | .board exchange, t => t.decide exchange
  | _, t => t

/-- The observer that collects commands and grants. -/
def observer : Observer Tally where
  start := {}
  see := see
  see_idle _ := rfl

/-- The tally with one more command, which is being served. -/
def serving (t : Tally) (command : Command) : Tally :=
  { t with awaiting? := none, commands := command :: t.commands }

variable (t : Tally) (command : Command)

theorem hear_serving (b : UInt8) :
    observer.see (.peer (.received b)) (t.serving command) =
      t.serving { command with frame := command.frame ++ [b] } :=
  rfl

theorem say_serving (b : UInt8) :
    observer.see (.peer (.sent b)) (t.serving command) =
      t.serving { command with reply := command.reply ++ [b] } :=
  rfl

theorem hearAll_serving (bytes : List UInt8) :
    observer.hearAll bytes (t.serving command) =
      t.serving { command with frame := command.frame ++ bytes } := by
  induction bytes generalizing command with
  | nil => rw [List.append_nil]; rfl
  | cons b bytes ih =>
    rw [Observer.hearAll, List.foldl_cons, hear_serving]
    exact (ih _).trans (by rw [List.append_assoc]; rfl)

theorem sayAll_serving (bytes : List UInt8) :
    observer.sayAll bytes (t.serving command) =
      t.serving { command with reply := command.reply ++ bytes } := by
  induction bytes generalizing command with
  | nil => rw [List.append_nil]; rfl
  | cons b bytes ih =>
    rw [Observer.sayAll, List.foldl_cons, say_serving]
    exact (ih _).trans (by rw [List.append_assoc]; rfl)

end Tally

/-- The commands among events, of which the newest stands first. The commands begin with the oldest.
-/
def commands (events : List Event) : List Command :=
  (Tally.observer.of events).commands.reverse

/-- The decisions of the board among events, of which the newest stands first. The decisions begin
with the oldest. -/
def grants (events : List Event) : List Bool :=
  (Tally.observer.of events).grants.reverse

/-- Commands without their replies, each with the number of bytes before it. -/
def placed : Nat → List Command → List (Nat × Server × List UInt8)
  | _, [] => []
  | offset, command :: rest =>
    (offset, command.server, command.frame) :: placed (offset + command.frame.length) rest

/-! ## Layout -/

/-- What follows a command byte, and what is replied. -/
inductive Kind where
  /-- Nothing follows, and the letters of the engine are replied. -/
  | banner
  /-- Nothing follows, and one byte is replied. -/
  | status
  /-- Nothing follows, and nothing is replied. -/
  | ignored
  /-- So many bytes follow. -/
  | bulk (count : Nat)
  /-- Two counts follow, and as many bytes as the first one says. -/
  | paired
  /-- Everything that follows belongs to the command. -/
  | bridge
  deriving DecidableEq, Repr

/-- The commands of the engines, apart from the byte 0, which leaves them. -/
def kind (server : Server) (command : UInt8) : Kind :=
  match server, command.toNat with
  | .root, _ => .ignored
  | _, 0x01 => .banner
  | .spi, 0x02 | .spi, 0x03 => .status
  | .spi, 0x04 | .spi, 0x05 => .paired
  | .i2c, 0x02 | .i2c, 0x03 => .status
  | .i2c, 0x08 | .i2c, 0x09 => .paired
  | .uart, 0x02 | .uart, 0x03 | .uart, 0x07 => .status
  | .uart, 0x0F => .bridge
  | .spi, n =>
    if 0x10 ≤ n ∧ n ≤ 0x1F then .bulk (n % 16 + 1)
    else if 0x40 ≤ n ∧ n ≤ 0x4F ∨ 0x60 ≤ n ∧ n ≤ 0x67 ∨ 0x80 ≤ n ∧ n ≤ 0x8F then .status
    else .ignored
  | .i2c, n =>
    if 0x10 ≤ n ∧ n ≤ 0x1F then .bulk (n % 16 + 1)
    else if 0x40 ≤ n ∧ n ≤ 0x4F ∨ 0x60 ≤ n ∧ n ≤ 0x6F then .status
    else .ignored
  | .uart, n =>
    if 0x10 ≤ n ∧ n ≤ 0x1F then .bulk (n % 16 + 1)
    else if 0x40 ≤ n ∧ n ≤ 0x4F ∨ 0x60 ≤ n ∧ n ≤ 0x6F ∨ 0x80 ≤ n ∧ n ≤ 0x9F then .status
    else .ignored

def countOf (high low : UInt8) : Nat :=
  high.toNat * 256 + low.toNat

/-- The next `n` bytes, what arrives after them, and whether there are as many. -/
def exactly (n : Nat) (arrivals : List Arrival) : List UInt8 × List Arrival × Bool :=
  ((fetch n arrivals).1, (fetch n arrivals).2, (fetch n arrivals).1.length = n)

/-- The bytes that follow two counts, behind the counts. -/
def afterCounts : List UInt8 → List Arrival → List UInt8 × List Arrival × Bool
  | [writeHigh, writeLow, readHigh, readLow], arrivals =>
    let (bytes, rest, complete) := exactly (countOf writeHigh writeLow) arrivals
    (writeHigh :: writeLow :: readHigh :: readLow :: bytes, rest, complete)
  | counts, arrivals => (counts, arrivals, false)

/-- The bytes after a command byte that belong to the command, what arrives after them, and whether
the command is complete. -/
def payload : Kind → List Arrival → List UInt8 × List Arrival × Bool
  | .banner, arrivals | .status, arrivals | .ignored, arrivals => ([], arrivals, true)
  | .bulk n, arrivals => exactly n arrivals
  | .paired, arrivals => afterCounts (fetch 4 arrivals).1 (fetch 4 arrivals).2
  | .bridge, arrivals => (bytesOf arrivals, [], false)

/-- How many bytes are replied to a command that writes and then reads. -/
def pairedReplyLength (accepted : Bool) : List UInt8 → Nat
  | writeHigh :: writeLow :: readHigh :: readLow :: bytes =>
    if bytes.length = countOf writeHigh writeLow then
      if accepted then 1 + countOf readHigh readLow else 1
    else 0
  | _ => 0

/-- How many bytes are replied to so many bytes. A command of which bytes are missing is not
answered, but the UART answers every byte at once. -/
def bulkReplyLength (server : Server) (n sent : Nat) (accepted : Bool) : Nat :=
  match server with
  | .uart => 1 + sent
  | .i2c => if sent = n then 1 + n else 0
  | _ => if sent = n then if accepted then 1 + n else 1 else 0

/-- How many bytes are replied to a command, where it is known whether the first of them is 1. -/
def replyLength (server : Server) (frame : List UInt8) (accepted : Bool) : Nat :=
  match frame with
  | [] => 0
  | command :: bytes =>
    match kind server command with
    | .banner => 4
    | .status => 1
    | .ignored | .bridge => 0
    | .bulk n => bulkReplyLength server n bytes.length accepted
    | .paired => pairedReplyLength accepted bytes

/-- Whether a command lets the UART pass on what it receives, for as long as it likes. -/
def stirs (server : Server) (frame : List UInt8) : Bool :=
  server = .uart && (frame.head? = some 0x02 || frame.head? = some 0x0F)

/-- As many bytes were replied as the command and the first of them say. The byte 0, after which the
root announces itself, is not looked at, nor are the commands of the root. -/
def Command.Proper (command : Command) : Prop :=
  command.server ≠ .root → command.frame ≠ [0x00] →
    command.reply.length =
      replyLength command.server command.frame (command.reply.head? = some 1)

end Binary

end BusBench
