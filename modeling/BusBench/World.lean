import BusBench.Board.Log
import BusBench.Dialogue
import BusBench.Rounds
import BusBench.Terminal.Basic

/-!
# Programs on a board and a peer

A program that serves the user has a board to work with, a peer to talk to, and possibly a state
of its own. Everything it does is kept as a list of events, which can be written as a log.

* `Act`: programs on a board and a peer.
* `Act.ask`: one request to the board.
* `Act.dialogue`: a dialogue as a part of the whole.
* `Act.reach`: remembers a place in the program.
* `Event.log`: the log of a list of events.
-/

namespace BusBench

/-! ## Events -/

/-- The loops of the binary protocol that take commands. -/
inductive Server where
  | root
  | spi
  | i2c
  | uart
  deriving DecidableEq, Repr

/-- A place in a program that is worth remembering when it is reached. -/
inductive Point where
  /-- A loop of the binary protocol awaits a command. -/
  | command (server : Server)
  /-- The prompt claims the bus of its I2C mode. -/
  | i2cMode
  deriving DecidableEq, Repr

/-- Something that a program did. -/
inductive Event where
  | board (exchange : Exchange)
  | peer (event : PeerEvent)
  | reached (point : Point)

namespace Event

/-- How an event is written in the log. -/
inductive Entry where
  /-- Part of what was sent over the link; such parts run together. -/
  | serial (text : String)
  /-- Part of what a terminal was shown; such parts run together. -/
  | shown (text : String)
  /-- A line of its own. -/
  | line (text : String)

/-- How an event is written; input and places are not written at all. -/
def entry? : Event → Option Entry
  | board exchange => exchange.line?.map .line
  | peer (.sent byte) => some (.serial (String.ofList (Text.hexByte byte)))
  | peer .flushed => some (.serial "|")
  | peer (.shown text) => some (.shown text)
  | peer (.asked question) => some (.line ("ask " ++ question))
  | peer .polled => some (.line "poll")
  | peer (.passed bytes) => some (.line ("raw " ++ Text.hexBytes bytes))
  | peer _ => none
  | reached _ => none

/-- Adds an entry to a log whose newest entry stands first. -/
def Entry.addTo : List Entry → Entry → List Entry
  | .serial old :: log, .serial new => .serial (old ++ new) :: log
  | .shown old :: log, .shown new => .shown (old ++ new) :: log
  | log, entry => entry :: log

def Entry.text : Entry → String
  | serial text => "tx " ++ text
  | shown text => "out " ++ text
  | line text => text

/-- The log of events, of which the newest stands first. The log begins with the oldest. -/
def log (events : List Event) : List String :=
  let entries := (events.reverse.filterMap entry?).foldl Entry.addTo []
  entries.reverse.map Entry.text

/-- Whether the event happened between the program and its peer. -/
def isPeer : Event → Bool
  | board _ => false
  | peer _ => true
  | reached _ => false

end Event

/-! ## Programs -/

/-- What a program works on: a state of its own, a board and a peer. -/
structure World (ω β τ : Type) where
  own : ω
  board : β
  peer : τ
  /-- The events so far, the newest first. -/
  events : List Event := []

/-- Programs that may fail with `ε`. -/
abbrev Act (ω β τ ε : Type) := ReaderT (Board β) (ExceptT ε (StateM (World ω β τ)))

namespace Act

variable {ω ψ β τ κ ε δ α : Type}

/-- Makes one request to the board. -/
def ask (request : Request) : Act ω β τ ε request.Answer := fun board =>
  ExceptT.mk fun world =>
    let (answer, state) := board.answer request world.board
    (.ok answer,
      { world with board := state, events := .board ⟨request, answer⟩ :: world.events })

/-- Makes one request to the board whose answer does not matter. -/
def tell (request : Request) : Act ω β τ ε Unit := do
  let _ ← ask request

/-- Remembers that a place was reached. -/
def reach (point : Point) : Act ω β τ ε Unit :=
  modify fun world => { world with events := .reached point :: world.events }

def dialogue (program : Dialogue τ ε α) : Act ω β τ ε α := fun _ =>
  ExceptT.mk fun world =>
    let (result, r) := program.run ⟨world.peer, []⟩
    (result, { world with peer := r.peer, events := r.events.map .peer ++ world.events })

/-- Runs a program whose failure is an answer like any other. -/
def attempt (program : Act ω β τ ε α) : Act ω β τ δ (Except ε α) := fun board =>
  ExceptT.mk fun world =>
    let (result, world) := (program board).run world
    (.ok result, world)

/-- Succeeds or fails as a result says. -/
def ofExcept : Except ε α → Act ω β τ ε α
  | .ok a => pure a
  | .error e => throw e

def own : Act ω β τ ε ω :=
  return (← get).own

def modifyOwn (f : ω → ω) : Act ω β τ ε Unit :=
  modify fun world => { world with own := f world.own }

/-- Runs a program with another own state, of which the new value is answered with the result. -/
def withOwn (own : ψ) (program : Act ψ β τ ε α) : Act ω β τ δ (Except ε α × ψ) := fun board =>
  ExceptT.mk fun world =>
    let (result, inner) := (program board).run ⟨own, world.board, world.peer, world.events⟩
    (.ok (result, inner.own), ⟨world.own, inner.board, inner.peer, inner.events⟩)

/-- Runs a program whose peer is a part of the whole one. -/
def onPart (get : τ → κ) (set : κ → τ → τ) (program : Act ω β κ ε α) : Act ω β τ ε α := fun board =>
  ExceptT.mk fun world =>
    let (result, inner) :=
      (program board).run ⟨world.own, world.board, get world.peer, world.events⟩
    (result, ⟨inner.own, inner.board, set inner.peer world.peer, inner.events⟩)

/-- Makes a claim, and fails if it is refused. -/
def claimed (answer : Except Unavailable Unit) : Act ω β τ Error Unit :=
  ofExcept (answer.mapError .unavailable)

/-- The result of a bus or pin operation, and fails if the operation did. -/
def done (answer : Except BusError α) : Act ω β τ Error α :=
  ofExcept (answer.mapError .bus)

section Terminal

variable [Terminal τ]

def write (text : String) : Act ω β τ Error Unit :=
  dialogue (Terminal.write text)

def writeLine (text : String) : Act ω β τ Error Unit :=
  dialogue (Terminal.writeLine text)

/-- Runs a round that asks the terminal for something until it answers. -/
@[specialize]
def askUntil {σ : Type} (round : σ → Act ω β τ Error (σ ⊕ α)) (s : σ) : Act ω β τ Error α := do
  rounds (throw .link) round (Terminal.remaining (← get).peer + 1) s

end Terminal

end Act

end BusBench
