import BusBench.Board.Faults
import BusBench.Board.Log
import BusBench.Bus.I2c

/-!
# Bus controllers

A bus controller of its own makes transactions but knows no lock, and its errors rarely say what
went wrong. Behind a lock it becomes a bus.

* `Controller`: a machine with states `σ` that makes transactions.
* `LockedBus`: a controller behind a lock.
* `Scripted`: a controller whose devices and faults are prepared.
-/

namespace BusBench

/-- What a controller can be asked. -/
inductive ControllerCall where
  | write (address : UInt8) (bytes : List UInt8)
  | read (address : UInt8) (count : Nat)
  | writeRead (address : UInt8) (bytes : List UInt8) (count : Nat)
  | setFrequency (hz : Nat)
  | setMode (mode : Spi.Mode)
  | spiTransfer (bytes : List UInt8)
  | spiWrite (bytes : List UInt8)
  deriving DecidableEq, Repr

/-- The type of the answer to a call. Failed transactions have no reason. -/
abbrev ControllerCall.Answer : ControllerCall → Type
  | write .. | spiWrite _ => Except Unit Unit
  | read _ count | writeRead _ _ count => Except Unit (Bytes count)
  | setFrequency _ | setMode _ => Except BusError Unit
  | spiTransfer bytes => Except Unit (Bytes bytes.length)

/-- A machine with states `σ` that makes transactions. -/
structure Controller (σ : Type) where
  answer : (call : ControllerCall) → σ → call.Answer × σ

/-- The controller without clock modes, to which setting one means nothing. -/
def Controller.withoutModes {σ : Type} (controller : Controller σ) : Controller σ where
  answer
    | .setMode _, s => (.ok (), s)
    | call, s => controller.answer call s

/-! ## Behind a lock -/

/-- A controller behind a lock. -/
structure LockedBus (σ : Type) where
  inner : σ
  locked : Bool := false

namespace LockedBus

variable {σ α : Type}

abbrev Use (σ : Type) := StateM (LockedBus σ)

/-- Takes the lock, unless it is held. -/
def tryLock : Use σ Bool := fun bus => (!bus.locked, { bus with locked := true })

def unlock : Use σ Unit :=
  modify fun bus => { bus with locked := false }

def call (controller : Controller σ) (call : ControllerCall) : Use σ call.Answer := fun bus =>
  let (answer, inner) := controller.answer call bus.inner
  (answer, { bus with inner })

/-- A failed I2C transaction counts as not acknowledged. -/
def write (controller : Controller σ) (address : UInt8) (bytes : List UInt8) :
    Use σ (Except BusError Unit) := do
  let answer : Except Unit Unit ← call controller (.write address bytes)
  return answer.mapError fun _ => .nack

def read (controller : Controller σ) (address : UInt8) (count : Nat) :
    Use σ (Except BusError (Bytes count)) := do
  let answer : Except Unit (Bytes count) ← call controller (.read address count)
  return answer.mapError fun _ => .nack

def writeRead (controller : Controller σ) (address : UInt8) (bytes : List UInt8) (count : Nat) :
    Use σ (Except BusError (Bytes count)) := do
  let answer : Except Unit (Bytes count) ← call controller (.writeRead address bytes count)
  return answer.mapError fun _ => .nack

/-- The addresses that acknowledge an empty write. -/
def scan (controller : Controller σ) : Use σ (List UInt8) :=
  I2c.scanned.filterM fun address => do
    let answer ← write controller address []
    return answer.isOk

def setFrequency (controller : Controller σ) (hz : Nat) : Use σ (Except BusError Unit) :=
  call controller (.setFrequency hz)

/-- Sets the clock mode, then the frequency. -/
def configure (controller : Controller σ) (config : Spi.Config) : Use σ (Except BusError Unit) := do
  match ← call controller (.setMode config.mode) with
  | .error reason => return .error reason
  | .ok _ => call controller (.setFrequency config.speed.hz)

/-- A failed SPI transfer counts as a fault. -/
def transfer (controller : Controller σ) (bytes : List UInt8) :
    Use σ (Except BusError (List UInt8)) := do
  let answer : Except Unit (Bytes bytes.length) ← call controller (.spiTransfer bytes)
  return (answer.map (·.val)).mapError fun _ => .fault

def writeSpi (controller : Controller σ) (bytes : List UInt8) : Use σ (Except BusError Unit) := do
  let answer : Except Unit Unit ← call controller (.spiWrite bytes)
  return answer.mapError fun _ => .fault

/-- Reads by sending zeros. -/
def readSpi (controller : Controller σ) (count : Nat) : Use σ (Except BusError (List UInt8)) :=
  transfer controller (List.replicate count 0)

end LockedBus

/-! ## The scripted controller -/

/-- The first word of a call's log line. -/
def ControllerCall.word : ControllerCall → String
  | write .. => "write"
  | read .. => "read"
  | writeRead .. => "write_read"
  | setFrequency _ => "set_frequency"
  | setMode _ => "set_mode"
  | spiTransfer _ => "spi_transfer"
  | spiWrite _ => "spi_write"

/-- The arguments of a call in its log line. -/
def ControllerCall.arguments : ControllerCall → List String
  | write address bytes => [addressWord address, Text.hexBytes bytes]
  | read address count => [addressWord address, Text.decimal count]
  | writeRead address bytes count =>
    [addressWord address, Text.hexBytes bytes, Text.decimal count]
  | setFrequency hz => [Text.decimal hz]
  | setMode mode => [mode.words]
  | spiTransfer bytes | spiWrite bytes => [Text.hexBytes bytes]

structure ScriptedController where
  /-- The addresses that acknowledge. -/
  devices : List UInt8 := []
  faults : Faults := {}
  /-- The log, its newest line first. -/
  log : List String := []

namespace ScriptedController

/-- Counts and logs a call; answers whether a rule lets it fail. -/
def enter (call : ControllerCall) (s : ScriptedController) : Bool × ScriptedController :=
  let (fails, faults) := s.faults.count call.word
  let line := " ".intercalate (call.word :: call.arguments) ++ if fails then " !fault" else ""
  (fails, { s with faults, log := line :: s.log })

/-- The bytes of a read after a write: those written, then the address. -/
def echoed (address : UInt8) (bytes : List UInt8) (n : Nat) : Bytes n :=
  .tabulate n fun i => bytes.getD i address

/-- The answer to a call: a read answers the address again and again, and an SPI transfer the
complements of what was sent. -/
def answer (call : ControllerCall) (s : ScriptedController) : call.Answer × ScriptedController :=
  let (fails, s) := s.enter call
  match call with
  | .write address _ =>
    (if fails || !s.devices.contains address then .error () else .ok (), s)
  | .read address n =>
    (if fails || !s.devices.contains address then .error () else .ok (echoed address [] n), s)
  | .writeRead address bytes n =>
    (if fails || !s.devices.contains address then .error () else .ok (echoed address bytes n), s)
  | .setFrequency _ => (if fails then .error .fault else .ok (), s)
  | .setMode _ => (if fails then .error .nack else .ok (), s)
  | .spiTransfer bytes =>
    (if fails then .error () else .ok ⟨bytes.map (~~~ ·), List.length_map _⟩, s)
  | .spiWrite _ => (if fails then .error () else .ok (), s)

def controller : Controller ScriptedController :=
  ⟨answer⟩

end ScriptedController

end BusBench
