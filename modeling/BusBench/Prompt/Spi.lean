import BusBench.Board.Claim
import BusBench.Sequence.Action

/-!
# The SPI mode

Start and stop drive chip select; bytes are transferred in runs.

* `Spi.run`: runs a sequence under the bus lock.
* `Spi.enter`: asks for the settings and claims the bus and chip select.
-/

namespace BusBench.Spi

variable {ω β τ : Type} [Terminal τ]

/-- The SPI bus in use. -/
structure Session where
  backing : Backing
  config : Config
  /-- Whether the low level of chip select addresses the device. -/
  activeLow : Bool
  deriving DecidableEq, Repr

namespace Session

/-- The level of chip select that addresses the device, or the other one. -/
def selectLevel (session : Session) (active : Bool) : Bool :=
  active != session.activeLow

/-- The name of chip select in transcripts. -/
def selectName (session : Session) : String :=
  if session.activeLow then "/CS" else "CS"

end Session

def runAction (session : Session) : Action → Act ω β τ Error Unit
  | .start => do
    Act.done (← Act.ask (.pin .cs (.output (session.selectLevel true))))
    Act.writeLine (session.selectName ++ " ENABLED")
  | .stop => do
    Act.done (← Act.ask (.pin .cs (.output (session.selectLevel false))))
    Act.writeLine (session.selectName ++ " DISABLED")
  | .write value count => do
    let bytes := List.replicate count.toNat value
    Act.dialogue (Terminal.writeBytesLine "WRITE" bytes)
    Act.done (← Act.writeSpi session.backing bytes)
  | .read count => do
    let bytes ← Act.done (← Act.readSpi session.backing count.toNat)
    Act.dialogue (Terminal.writeBytesLine "READ" bytes)
  | _ => return

/-- Sets up the bus and runs the actions. -/
def replay (session : Session) (actions : List Action) : Act ω β τ Error Unit := do
  Act.done (← Act.ask (.spi session.backing (.configure session.config)))
  actions.forM (runAction session)

/-- Runs a sequence under the bus lock; does nothing where the lock is refused. -/
def run (session : Session) (actions : List Action) : Act ω β τ Error Unit := do
  let granted : Bool ← Act.ask (.spi session.backing .lock)
  if !granted then return
  let result ← Act.attempt (replay session actions)
  Act.tell (.spi session.backing .unlock)
  Act.ofExcept result

/-! ## Entering -/

def askConfig : Dialogue τ Error (Config × Bool) := do
  let speed ← Terminal.select "Set speed:" ["30KHz", "125KHz", "250KHz", "1MHz"] 0
  let idle ← Terminal.select "Clock polarity:" ["Idle low *default", "Idle high"] 0
  let edge ←
    Terminal.select "Output clock edge:" ["Idle to active", "Active to idle *default"] 1
  let select ← Terminal.select "CS:" ["CS", "/CS *default"] 1
  let config : Config :=
    { speed := (Speed.ofIndex? speed).getD .khz30
      output := .push3V3
      idle := if idle = 1 then .high else .low
      edge := if edge = 1 then .activeToIdle else .idleToActive
      sample := .middle }
  return (config, select = 1)

/-- Asks for the settings and claims the bus and chip select, which is released to its inactive
level. What was claimed is given back where a later step fails. -/
def enter : Act ω β τ Error Session := do
  let (config, activeLow) ← Act.dialogue askConfig
  let backing ← Act.ofExcept ((← Act.claimSpi).mapError Error.unavailable)
  match ← Act.ask (.pin .cs .claim) with
  | .error reason =>
    Act.tell (.spi backing .release)
    throw (.unavailable reason)
  | .ok _ =>
    match ← Act.ask (.pin .cs (.output activeLow)) with
    | .error reason =>
      Act.tell (.pin .cs .release)
      Act.tell (.spi backing .release)
      throw (.bus reason)
    | .ok _ => return ⟨backing, config, activeLow⟩

omit [Terminal τ] in
/-- Gives the bus back, then chip select. -/
def leave (session : Session) : Act ω β τ Error Unit := do
  Act.tell (.spi session.backing .release)
  Act.tell (.pin .cs .release)

end BusBench.Spi
