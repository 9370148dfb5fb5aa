import BusBench.Error

/-!
# Dialogues and what happens in them

The peer of a dialogue is what connects the user: a serial link, or a prepared script. A dialogue
changes the peer's state, may fail, and leaves behind the events of which it consists.

* `PeerEvent`: what can happen between a program and its peer.
* `Dialogue`: programs that do nothing but talk.
-/

namespace BusBench

/-- Something that happened between a program and its peer. -/
inductive PeerEvent where
  | received (byte : UInt8)
  /-- Nothing had arrived yet. -/
  | idle
  | sent (byte : UInt8)
  | flushed
  | failed (reason : LinkError)
  /-- A scripted terminal took this text. -/
  | shown (text : String)
  /-- A scripted terminal was asked for a line. -/
  | asked (question : String)
  /-- A scripted terminal was asked for a key. -/
  | polled
  /-- A scripted terminal took these bytes as they are. -/
  | passed (bytes : List UInt8)
  deriving DecidableEq, Repr

/-- A peer and the events so far, the newest first. -/
structure Recorded (τ : Type) where
  peer : τ
  events : List PeerEvent := []

/-- Dialogues with peers `τ` that may fail with `ε`. -/
abbrev Dialogue (τ ε : Type) := ExceptT ε (StateM (Recorded τ))

namespace Dialogue

variable {τ κ ε δ α : Type}

def peer : Dialogue τ ε τ :=
  return (← get).peer

def modifyPeer (f : τ → τ) : Dialogue τ ε Unit :=
  modify fun r => { r with peer := f r.peer }

def note (event : PeerEvent) : Dialogue τ ε Unit :=
  modify fun r => { r with events := event :: r.events }

/-- Holds a dialogue with a part of the peer, with its failures renamed. -/
def within (get : κ → τ) (set : τ → κ → κ) (rename : ε → δ) (program : Dialogue τ ε α) :
    Dialogue κ δ α :=
  ExceptT.mk fun r =>
    let (result, inner) := program.run ⟨get r.peer, r.events⟩
    (result.mapError rename, ⟨set inner.peer r.peer, inner.events⟩)

end Dialogue

end BusBench
