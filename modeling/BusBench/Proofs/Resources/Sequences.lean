import BusBench.Proofs.Resources.Custody
import BusBench.Prompt.Mode

/-!
# Custody in sequences and macros

Sequences and macros use what their mode holds, and hold the same afterwards. In the modes with a
lock they transfer under the lock, and whatever fails on the way, the lock is given back.

* `run_stays` of every mode: sequences.
* `runShortcut_stays` of the modes with macros.
-/

namespace BusBench

open Act (Stays Succeeds Unlocks)

variable {ω β τ ε : Type} {P : ω → Prop} {s : Custody}

/-! ## Buses -/

theorem Act.takeUart_stays (hBus : s.bus? = some .uart) :
    Stays custody P s (Act.takeUart : Act ω β τ ε _) := by
  refine Stays.bind (.ask (Custody.step_uses rfl hBus)) fun available => ?_
  refine Stays.ite (.pure _) ?_
  exact Stays.bind (.ask (Custody.step_uses rfl hBus)) fun bytes => .pure _

section Locked

variable {backing : Backing}

theorem Act.scanI2c_succeeds (hBus : s.bus? = some (.i2c backing)) (hLocked : s.locked = true) :
    Succeeds custody P s (Act.scanI2c backing : Act ω β τ ε _) := by
  refine Succeeds.filterM _ fun address => ?_
  exact Succeeds.bind (.ask (Custody.step_transfers rfl hBus hLocked)) fun _ => .pure _

theorem Act.readSpi_stays (hBus : s.bus? = some (.spi backing)) (hLocked : s.locked = true)
    (count : Nat) : Stays custody P s (Act.readSpi backing count : Act ω β τ ε _) :=
  Stays.bind (.ask (Custody.step_transfers rfl hBus hLocked)) fun _ => .pure _

theorem Act.writeSpi_stays (hBus : s.bus? = some (.spi backing)) (hLocked : s.locked = true)
    (bytes : List UInt8) : Stays custody P s (Act.writeSpi backing bytes : Act ω β τ ε _) :=
  Stays.bind (.ask (Custody.step_transfers rfl hBus hLocked)) fun _ => .pure _

end Locked

variable [Terminal τ]

/-! ## UART -/

namespace Uart

theorem runAction_stays (hBus : s.bus? = some .uart) (action : Action) :
    Stays custody P s (runAction action : Act ω β τ Error Unit) := by
  cases action with
  | start => exact .tell (Custody.step_uses rfl hBus)
  | write value count =>
    refine Stays.bind (.dialogue _) fun _ => ?_
    exact Stays.bind (.ask (Custody.step_uses rfl hBus)) fun _ => .ofExcept _
  | read count =>
    refine Stays.bind (.ask (Custody.step_uses rfl hBus)) fun bytes => ?_
    exact Stays.ite (.dialogue _) (.pure _)
  | _ => exact .pure _

theorem run_stays (hBus : s.bus? = some .uart) (actions : List Action) :
    Stays custody P s (run actions : Act ω β τ Error Unit) :=
  .forM actions (runAction_stays hBus)

theorem forward_stays (hBus : s.bus? = some .uart) :
    Stays custody P s (forward : Act ω β τ Error Unit) := by
  refine Stays.bind (Act.takeUart_stays hBus) fun taken => ?_
  cases taken with
  | none => exact .pure _
  | some bytes => exact .dialogue _

theorem bridge_stays (hBus : s.bus? = some .uart) :
    Stays custody P s (bridge : Act ω β τ Error Unit) := by
  have hRound : ∀ u, Stays custody P s (bridgeRound u : Act ω β τ Error (Unit ⊕ Unit)) := by
    intro u
    refine Stays.bind (.dialogue _) fun key => ?_
    cases key with
    | none => exact (forward_stays hBus).bind fun _ => .pure _
    | some key =>
      refine Stays.bind (.ask (Custody.step_uses rfl hBus)) fun answer => ?_
      refine Stays.bind (.ofExcept _) fun _ => ?_
      exact (forward_stays hBus).bind fun _ => .pure _
  refine Stays.bind (.dialogue _) fun _ => Stays.bind (.dialogue _) fun _ => ?_
  refine Stays.bind (.dialogue _) fun answer => ?_
  cases answer with
  | modeSwitch => exact .throw _
  | text answer => exact Stays.ite (.askUntil hRound ()) (.pure _)

theorem monitor_stays (hBus : s.bus? = some .uart) :
    Stays custody P s (monitor : Act ω β τ Error Unit) := by
  have hRound : ∀ u, Stays custody P s (monitorRound u : Act ω β τ Error (Unit ⊕ Unit)) := by
    intro u
    refine Stays.bind (.dialogue _) fun key => ?_
    cases key with
    | none => exact (forward_stays hBus).bind fun _ => .pure _
    | some key => exact .pure _
  refine Stays.bind (.dialogue _) fun _ => Stays.bind (.dialogue _) fun _ => ?_
  exact .askUntil hRound ()

theorem runShortcut_stays (hBus : s.bus? = some .uart) (key : UInt8) :
    Stays custody P s (runShortcut key : Act ω β τ Error Unit) := by
  refine Stays.bind (.dialogue _) fun shortcut => ?_
  rcases shortcut with - | - | -
  · exact .pure _
  · exact bridge_stays hBus
  · exact monitor_stays hBus

end Uart

/-! ## 1-Wire -/

namespace OneWire

section Any

variable (hBus : s.bus? = some .oneWire)

include hBus

theorem reset_stays : Stays custody P s (reset : Act ω β τ Error Unit) := by
  refine Stays.bind (.ask (Custody.step_uses rfl hBus)) fun answer => ?_
  exact Stays.bind (.ofExcept _) fun present => .dialogue _

omit [Terminal τ] in
theorem write_stays (bytes : List UInt8) :
    Stays custody P s
      (do Act.done (← Act.ask (.oneWire (.write bytes))) : Act ω β τ Error Unit) :=
  Stays.bind (.ask (Custody.step_uses rfl hBus)) fun _ => .ofExcept _

omit [Terminal τ] in
theorem readBytes_stays (count : Nat) :
    Stays custody P s (readBytes count : Act ω β τ Error (List UInt8)) := by
  refine Stays.bind (.ask (Custody.step_uses rfl hBus)) fun answer => ?_
  exact Stays.bind (.ofExcept _) fun bytes => .pure _

theorem runAction_stays (action : Action) :
    Stays custody P s (runAction action : Act ω β τ Error Unit) := by
  cases action with
  | start => exact reset_stays hBus
  | write value count => exact Stays.bind (.dialogue _) fun _ => write_stays hBus _
  | read count => exact (readBytes_stays hBus _).bind fun bytes => .dialogue _
  | _ => exact .pure _

theorem run_stays (actions : List Action) :
    Stays custody P s (run actions : Act ω β τ Error Unit) :=
  .forM actions (runAction_stays hBus)

theorem readRom_stays : Stays custody P s (readRom : Act ω β τ Error Unit) := by
  refine (reset_stays hBus).bind fun _ => ?_
  refine Stays.bind (.ask (Custody.step_uses rfl hBus)) fun answer => ?_
  refine Stays.bind (.ofExcept _) fun _ => ?_
  refine (readBytes_stays hBus 8).bind fun bytes => ?_
  exact Stays.bind (.dialogue _) fun _ => .dialogue _

theorem skipRom_stays : Stays custody P s (skipRom : Act ω β τ Error Unit) :=
  Stays.bind (.dialogue _) fun _ => write_stays hBus _

end Any

/-! The macros of devices are state of the mode and none of the board. -/

abbrev Anything : Session → Prop := fun _ => True

theorem listDevices_stays (index : Nat) (roms : List Rom) :
    Stays custody Anything s (listDevices index roms : Act Session β τ Error Unit) := by
  induction roms generalizing index with
  | nil => exact .pure _
  | cons rom roms ih =>
    refine Stays.bind (.dialogue _) fun _ => Stays.bind (.dialogue _) fun _ => ?_
    exact Stays.ite (Stays.bind (.modifyOwn fun _ _ => trivial) fun _ => ih _) (ih _)

variable (hBus : s.bus? = some .oneWire)

include hBus

theorem searchRom_stays :
    Stays custody Anything s (searchRom : Act Session β τ Error Unit) := by
  refine Stays.bind (.ask (Custody.step_uses rfl hBus)) fun answer => ?_
  refine Stays.bind (.ofExcept _) fun found => ?_
  refine Stays.bind (.modifyOwn fun _ _ => trivial) fun _ => ?_
  refine Stays.bind (.dialogue _) fun _ => ?_
  refine (listDevices_stays 0 found).bind fun _ => ?_
  exact .modifyOwn fun _ _ => trivial

theorem addressDevice_stays (index : Nat) :
    Stays custody Anything s (addressDevice index : Act Session β τ Error Unit) := by
  refine Stays.own_bind fun session _ => ?_
  cases session.devices[index]? with
  | none => exact .pure _
  | some rom => exact Stays.bind (.dialogue _) fun _ => write_stays hBus _

theorem runShortcut_stays (key : UInt8) :
    Stays custody Anything s (runShortcut key : Act Session β τ Error Unit) := by
  refine Stays.own_bind fun session _ => Stays.bind (.dialogue _) fun shortcut => ?_
  rcases shortcut with - | - | - | - | index
  · exact .pure _
  · exact readRom_stays hBus
  · exact skipRom_stays hBus
  · exact searchRom_stays hBus
  · exact addressDevice_stays hBus index

end OneWire

/-! ## I2C -/

namespace I2c

variable {backing : Backing}

omit [Terminal τ] in
theorem transact_succeeds (hBus : s.bus? = some (.i2c backing)) (hLocked : s.locked = true)
    (group : Group) : Succeeds custody P s (transact backing group : Act ω β τ Error _) := by
  refine Succeeds.ite ?_ (Succeeds.ite ?_ ?_)
  all_goals exact Succeeds.bind (.ask (Custody.step_transfers rfl hBus hLocked)) fun _ => .pure _

theorem lines_stay (lines : List String) :
    Stays custody P s (lines.forM Act.writeLine : Act ω β τ Error PUnit) :=
  .forM lines fun _ => .dialogue _

variable (hBus : s.bus? = some (.i2c backing)) (hFree : s.locked = false)

include hBus hFree

theorem execute_stays (group : Group) :
    Stays custody P s (execute backing group : Act ω β τ Error Bool) := by
  refine Stays.lock_bind rfl hBus hFree fun granted => ?_
  cases granted with
  | true =>
    refine Unlocks.bind (.attempt (.dialogue _)) fun started => ?_
    have hTransact : Succeeds custody P { s with locked := true }
        (transact backing group : Act ω β τ Error _) :=
      transact_succeeds (s := { s with locked := true }) hBus rfl group
    refine Unlocks.bind hTransact fun result => ?_
    refine Unlocks.tell_bind rfl hBus hFree ?_
    refine Stays.bind (.ofExcept _) fun _ => ?_
    exact (lines_stay _).bind fun _ => .pure _
  | false => exact .pure _

theorem runGroups_stays (n : Nat) (actions : List Action) :
    Stays custody P s (runGroups backing n actions : Act ω β τ Error Unit) := by
  induction n generalizing actions with
  | zero => exact .pure _
  | succ n ih =>
    rcases actions with - | ⟨action, actions⟩
    · exact .pure _
    cases action with
    | start =>
      rw [runGroups]
      split
      next body tail hSpan =>
      cases tail with
      | nil => exact .dialogue _
      | cons _ tail =>
        dsimp only
        cases plan body with
        | error fault => exact Stays.bind (.dialogue _) fun _ => ih tail
        | ok group =>
          refine (execute_stays hBus hFree group).bind fun granted => ?_
          exact Stays.ite (ih tail) (.pure _)
    | _ => exact .pure _

theorem run_stays (actions : List Action) :
    Stays custody P s (run backing actions : Act ω β τ Error Unit) :=
  runGroups_stays hBus hFree _ actions

theorem searchAddresses_stays :
    Stays custody P s (searchAddresses backing : Act ω β τ Error Unit) := by
  refine Stays.lock_bind rfl hBus hFree fun granted => ?_
  cases granted with
  | true =>
    refine Unlocks.bind (Act.scanI2c_succeeds hBus rfl) fun found => ?_
    refine Unlocks.tell_bind rfl hBus hFree ?_
    exact Stays.bind (.dialogue _) fun _ => lines_stay _
  | false => exact .pure _

theorem runShortcut_stays (key : UInt8) :
    Stays custody P s (runShortcut backing key : Act ω β τ Error Unit) := by
  refine Stays.bind (.dialogue _) fun shortcut => ?_
  rcases shortcut with - | -
  · exact .pure _
  · exact searchAddresses_stays hBus hFree

end I2c

/-! ## SPI -/

namespace Spi

variable {session : Session}

theorem replay_stays (hBus : s.bus? = some (.spi session.backing)) (hLocked : s.locked = true)
    (hSelect : .cs ∈ s.pins) (actions : List Action) :
    Stays custody P s (replay session actions : Act ω β τ Error Unit) := by
  have hAction : ∀ action, Stays custody P s (runAction session action : Act ω β τ Error Unit) := by
    intro action
    cases action with
    | start =>
      refine Stays.bind (.ask (Custody.step_uses rfl hSelect)) fun answer => ?_
      exact Stays.bind (.ofExcept _) fun _ => .dialogue _
    | stop =>
      refine Stays.bind (.ask (Custody.step_uses rfl hSelect)) fun answer => ?_
      exact Stays.bind (.ofExcept _) fun _ => .dialogue _
    | write value count =>
      refine Stays.bind (.dialogue _) fun _ => ?_
      exact (Act.writeSpi_stays hBus hLocked _).bind fun _ => .ofExcept _
    | read count =>
      refine (Act.readSpi_stays hBus hLocked _).bind fun answer => ?_
      exact Stays.bind (.ofExcept _) fun bytes => .dialogue _
    | _ => exact .pure _
  refine Stays.bind (.ask (Custody.step_transfers rfl hBus hLocked)) fun answer => ?_
  exact Stays.bind (.ofExcept _) fun _ => .forM actions hAction

theorem run_stays (hBus : s.bus? = some (.spi session.backing)) (hFree : s.locked = false)
    (hSelect : .cs ∈ s.pins) (actions : List Action) :
    Stays custody P s (run session actions : Act ω β τ Error Unit) := by
  refine Stays.lock_bind rfl hBus hFree fun granted => ?_
  cases granted with
  | true =>
    have hReplay : Stays custody P { s with locked := true }
        (replay session actions : Act ω β τ Error Unit) :=
      replay_stays (s := { s with locked := true }) hBus rfl hSelect actions
    refine Unlocks.bind (.attempt hReplay) fun result => ?_
    exact Unlocks.tell_bind rfl hBus hFree (.ofExcept _)
  | false => exact .pure _

end Spi

end BusBench
