import BusBench.Dialogue
import BusBench.Rounds

/-!
# The serial link

The link to the host. Its input is a finite list of bytes and pauses; where it ends every read
fails. Its output may start to fail at some byte or some flush, and may make the sender wait before
each attempt.

* `Link.read`, `Link.tryRead`: the next byte, with and without waiting for it.
* `Link.send`, `Link.flush`: output, waiting for as long as the link asks to.
-/

namespace BusBench

/-- One step of what the host sends. -/
inductive Arrival where
  | byte (b : UInt8)
  /-- A moment at which nothing has arrived yet. -/
  | pause
  deriving DecidableEq, Repr

structure Link where
  /-- What is still to arrive. -/
  incoming : List Arrival := []
  sent : Nat := 0
  flushes : Nat := 0
  /-- The number, from zero, of the first byte that cannot be sent. -/
  sendLimit : Option Nat := none
  /-- The number, from zero, of the first flush that fails. -/
  flushLimit : Option Nat := none
  /-- How often each attempt to send or flush has to be repeated before it counts. -/
  busy : Nat := 0
  /-- How often the coming attempt still has to be repeated. -/
  stalled : Nat := busy
  deriving DecidableEq, Repr

/-- The answer to one attempt to use the link. -/
inductive Attempt where
  | notYet
  | failed
  | done
  deriving DecidableEq, Repr

namespace Link

variable {α : Type}

def unread (link : Link) : Nat :=
  link.incoming.countP fun arrival => arrival != .pause

/-- Whether the limit has been reached. -/
def isOver (limit : Option Nat) (n : Nat) : Bool :=
  match limit with
  | some l => l ≤ n
  | none => false

/-! ## Output -/

/-- One attempt, which `serve` answers once the link is not stalled. -/
def attempt (serve : Link → Attempt × Link) (link : Link) : Attempt × Link :=
  match link.stalled with
  | k + 1 => (.notYet, { link with stalled := k })
  | 0 => serve { link with stalled := link.busy }

def serveByte (link : Link) : Attempt × Link :=
  if isOver link.sendLimit link.sent then (.failed, link)
  else (.done, { link with sent := link.sent + 1 })

def serveFlush (link : Link) : Attempt × Link :=
  if isOver link.flushLimit link.flushes then (.failed, link)
  else (.done, { link with flushes := link.flushes + 1 })

/-- Repeats an attempt until it counts; `n` bounds the repetitions. -/
def insist (serve : Link → Attempt × Link) : Nat → Link → Attempt × Link
  | 0, link => attempt serve link
  | n + 1, link =>
    match attempt serve link with
    | (.notYet, link) => insist serve n link
    | result => result

/-- Repeats an attempt until it counts, then records how it went. -/
def output (serve : Link → Attempt × Link) (event : PeerEvent) (reason : LinkError) :
    Dialogue Link LinkError Unit := do
  let link ← Dialogue.peer
  let (result, link) := insist serve link.stalled link
  Dialogue.modifyPeer fun _ => link
  if result = .done then Dialogue.note event
  else
    Dialogue.note (.failed reason)
    throw reason

def send (byte : UInt8) : Dialogue Link LinkError Unit :=
  output serveByte (.sent byte) .sendBroken

def flush : Dialogue Link LinkError Unit :=
  output serveFlush .flushed .flushBroken

/-- Sends bytes in order, up to the first that fails. -/
def sendAll (bytes : List UInt8) : Dialogue Link LinkError Unit :=
  bytes.forM send

/-- Sends and flushes one byte. -/
def reply (status : UInt8) : Dialogue Link LinkError Unit := do
  send status
  flush

/-! ## Input -/

/-- The next byte of the arrivals, if there is one, what arrives after it, and the events with which
it was awaited. -/
def awaitByte : List Arrival → List PeerEvent → Option UInt8 × List Arrival × List PeerEvent
  | [], events => (none, [], .failed .endOfInput :: events)
  | .pause :: rest, events => awaitByte rest (.idle :: events)
  | .byte b :: rest, events => (some b, rest, .received b :: events)

/-- The next byte, however long it takes. -/
def read : Dialogue Link LinkError UInt8 := do
  let r ← get
  let (result, incoming, events) := awaitByte r.peer.incoming r.events
  set { r with peer := { r.peer with incoming }, events : Recorded Link }
  match result with
  | some b => pure b
  | none => throw .endOfInput

/-- The next byte, if it is there already. -/
def tryRead : Dialogue Link LinkError (Option UInt8) := do
  let link ← Dialogue.peer
  match link.incoming with
  | [] =>
    Dialogue.note (.failed .endOfInput)
    throw .endOfInput
  | .pause :: incoming =>
    Dialogue.modifyPeer fun link => { link with incoming }
    Dialogue.note .idle
    pure none
  | .byte b :: incoming =>
    Dialogue.modifyPeer fun link => { link with incoming }
    Dialogue.note (.received b)
    pure (some b)

/-- The next `count` bytes, put behind those already collected in reverse. -/
def collect : Nat → List UInt8 → Dialogue Link LinkError (List UInt8)
  | 0, collected => pure collected.reverse
  | count + 1, collected => do
    let b ← read
    collect count (b :: collected)

def readExact (count : Nat) : Dialogue Link LinkError (List UInt8) :=
  collect count []

/-- A count of two bytes, the more significant one first. -/
def readCount : Dialogue Link LinkError Nat := do
  let high ← read
  let low ← read
  return high.toNat * 256 + low.toNat

def skip : Nat → Dialogue Link LinkError Unit
  | 0 => pure ()
  | count + 1 => do
    let _ ← read
    skip count

end Link

end BusBench
