import BusBench.Prompt.Mode
import BusBench.Proofs.Terminals.Accord

/-!
# Modes on two terminals

What is done in a mode comes to the same on two terminals that are in accord. Sequences show texts
only; the settings of a mode are asked for with menus, and some macros of the UART wait for keys.

* `Uart.bridgeRound_keyed`, `Uart.monitorRound_keyed`: rounds that wait for a key.
* `Mode.run_keeps_on`: sequences.
* `Mode.runShortcut_accords`: macros, whose failures are answers.
* `Mode.enter_keeps_on`: asking for the settings and claiming the bus.
-/

namespace BusBench

open Act (Keeps)

variable {τ τ' ω β : Type} [Terminal τ] [Terminal τ'] {A : Accord τ τ'}

/-! ## UART -/

namespace Uart

section Talk

variable (h : A.Bond)

include h

theorem runAction_keeps_on (action : Action) :
    Keeps A (runAction action : Act ω β τ Error Unit) (runAction action) := by
  cases action with
  | start => exact .tell _
  | write value count =>
    exact .bind (h.writeBytesLine _ _) fun _ => .bind (.ask _) fun answer => .done answer
  | read count => exact .bind (.ask _) fun _ => .ite (h.writeBytesLine _ _) (.pure rfl)
  | _ => exact .pure rfl

theorem forward_keeps_on : Keeps A (forward : Act ω β τ Error Unit) forward := by
  refine .bind .takeUart fun bytes? => ?_
  cases bytes? with
  | none => exact .pure rfl
  | some bytes => exact .dialogue (h.writeBytes bytes)

omit h in
theorem bridgeRound_keyed :
    Accord.Keyed (bridgeRound : Unit → Act ω β τ Error (Unit ⊕ Unit))
      (bridgeRound : Unit → Act ω β τ' Error (Unit ⊕ Unit)) := by
  refine ⟨_, _, fun _ => rfl, fun _ => rfl, fun hBond _ key? => ?_⟩
  cases key? with
  | none => exact .bind (forward_keeps_on hBond) fun _ => .pure rfl
  | some key =>
    exact .bind (.ask _) fun answer => .bind (.done answer) fun _ =>
      .bind (forward_keeps_on hBond) fun _ => .pure rfl

omit h in
theorem monitorRound_keyed :
    Accord.Keyed (monitorRound : Unit → Act ω β τ Error (Unit ⊕ Unit))
      (monitorRound : Unit → Act ω β τ' Error (Unit ⊕ Unit)) := by
  refine ⟨_, _, fun _ => rfl, fun _ => rfl, fun hBond _ key? => ?_⟩
  cases key? with
  | none => exact .bind (forward_keeps_on hBond) fun _ => .pure rfl
  | some key => exact .pure rfl

theorem enter_keeps_on : Keeps A (enter : Act ω β τ Error Unit) enter := by
  have hConfig : Dialogue.Keeps A askConfig askConfig :=
    .bind (h.select _ _ _) fun _ => .bind (h.select _ _ _) fun _ =>
      .bind (h.select _ _ _) fun _ => .pure rfl
  exact .bind (.dialogue hConfig) fun _ => .bind (.ask _) fun answer => .claimed answer

variable (hKeys : A.Keys)

include hKeys

theorem bridge_keeps_on : Keeps A (bridge : Act ω β τ Error Unit) bridge := by
  refine .bind (h.writeLine _) fun _ => .bind (h.writeLine _) fun _ =>
    .bind (.dialogue (h.readLine _)) fun line => ?_
  cases line with
  | modeSwitch => exact .throw rfl
  | text answer => exact .ite (hKeys.askUntil bridgeRound_keyed ()) (.pure rfl)

theorem monitor_keeps_on : Keeps A (monitor : Act ω β τ Error Unit) monitor :=
  .bind (h.writeLine _) fun _ => .bind (h.writeLine _) fun _ =>
    hKeys.askUntil monitorRound_keyed ()

theorem runShortcut_keeps_on (key : UInt8) :
    Keeps A (runShortcut key : Act ω β τ Error Unit) (runShortcut key) := by
  refine .bind (.dialogue (h.resolve _ _)) fun shortcut? => ?_
  rcases shortcut? with _ | (_ | _)
  · exact .pure rfl
  · exact bridge_keeps_on h hKeys
  · exact monitor_keeps_on h hKeys

end Talk

end Uart

/-! ## 1-Wire -/

namespace OneWire

omit [Terminal τ] [Terminal τ'] in
theorem readBytes_keeps_on (count : Nat) :
    Keeps A (readBytes count : Act ω β τ Error (List UInt8)) (readBytes count) :=
  .bind (.ask _) fun answer => .bind (.done answer) fun _ => .pure rfl

variable (h : A.Bond)

include h

theorem reset_keeps_on : Keeps A (reset : Act ω β τ Error Unit) reset :=
  .bind (.ask _) fun answer => .bind (.done answer) fun _ => h.writeLine _

theorem runAction_keeps_on (action : Action) :
    Keeps A (runAction action : Act ω β τ Error Unit) (runAction action) := by
  cases action with
  | start => exact reset_keeps_on h
  | write value count =>
    exact .bind (h.writeBytesLine _ _) fun _ => .bind (.ask _) fun answer => .done answer
  | read count => exact .bind (readBytes_keeps_on _) fun _ => h.writeBytesLine _ _
  | _ => exact .pure rfl

theorem listDevices_keeps_on (index : Nat) (roms : List Rom) :
    Keeps A (listDevices index roms : Act Session β τ Error Unit) (listDevices index roms) := by
  induction roms generalizing index with
  | nil => exact .pure rfl
  | cons rom roms ih =>
    exact .bind (h.writeLine _) fun _ => .bind (h.writeLine _) fun _ =>
      .ite (.bind (.modifyOwn _) fun _ => ih _) (ih _)

theorem runShortcut_keeps_on (key : UInt8) :
    Keeps A (runShortcut key : Act Session β τ Error Unit) (runShortcut key) := by
  refine .bind .own fun session => .bind (.dialogue (h.resolve _ _)) fun shortcut? => ?_
  rcases shortcut? with _ | (_ | _ | _ | index)
  · exact .pure rfl
  · exact .bind (reset_keeps_on h) fun _ => .bind (.ask _) fun answer => .bind (.done answer)
      fun _ => .bind (readBytes_keeps_on 8) fun _ => .bind (h.writeBytesLine _ _) fun _ =>
        h.writeLine _
  · exact .bind (h.writeBytesLine _ _) fun _ => .bind (.ask _) fun answer => .done answer
  · exact .bind (.ask _) fun answer => .bind (.done answer) fun _ => .bind (.modifyOwn _) fun _ =>
      .bind (h.writeLine _) fun _ => .bind (listDevices_keeps_on h _ _) fun _ => .modifyOwn _
  · refine .bind .own fun session => ?_
    cases session.devices[index]? with
    | none => exact .pure rfl
    | some rom => exact .bind (h.writeLine _) fun _ => .bind (.ask _) fun answer => .done answer

end OneWire

/-! ## SPI -/

namespace Spi

variable (h : A.Bond)

include h

theorem runAction_keeps_on (session : Session) (action : Action) :
    Keeps A (runAction session action : Act ω β τ Error Unit) (runAction session action) := by
  cases action with
  | start | stop =>
    exact .bind (.ask _) fun answer => .bind (.done answer) fun _ => h.writeLine _
  | write value count =>
    exact .bind (h.writeBytesLine _ _) fun _ => .bind (.writeSpi _ _) fun answer => .done answer
  | read count =>
    exact .bind (.readSpi _ _) fun answer => .bind (.done answer) fun _ => h.writeBytesLine _ _
  | _ => exact .pure rfl

/-- The lock is given back after a failure, even where the talk is over. -/
theorem run_keeps_on (session : Session) (actions : List Action) :
    Keeps A (run session actions : Act ω β τ Error Unit) (run session actions) := by
  have hReplay : Keeps A (replay session actions : Act ω β τ Error Unit) (replay session actions) :=
    .bind (.ask _) fun answer => .bind (.done answer) fun _ =>
      .forM _ (runAction_keeps_on h session)
  exact .bind (.ask _) fun granted => .ite (.pure rfl) (.bind (.attempt hReplay) fun _ =>
    .bind (.tell _) fun _ => .ofExcept rfl)

theorem enter_keeps_on : Keeps A (enter : Act ω β τ Error Session) enter := by
  have hConfig : Dialogue.Keeps A askConfig askConfig :=
    .bind (h.select _ _ _) fun _ => .bind (h.select _ _ _) fun _ =>
      .bind (h.select _ _ _) fun _ => .bind (h.select _ _ _) fun _ => .pure rfl
  have hRefused : ∀ reason, A.ends (.unavailable reason) = false :=
    fun reason => A.ends_eq_false nofun nofun
  have hFault : ∀ reason, A.ends (.bus reason) = false := fun reason => A.ends_eq_false nofun nofun
  refine .bind (.dialogue hConfig) fun _ => .bind .claimSpi fun answer =>
    .bind (.granted answer) fun backing => .bind (.ask _) fun claimed => ?_
  cases claimed with
  | error reason => exact .bind (.tell _) fun _ => .throw (hRefused reason)
  | ok _ =>
    refine .bind (.ask _) fun driven => ?_
    cases driven with
    | error reason =>
      exact .bind (.tell _) fun _ => .bind (.tell _) fun _ => .throw (hFault reason)
    | ok _ => exact .pure rfl

end Spi

/-! ## I2C -/

namespace I2c

omit [Terminal τ] [Terminal τ'] in
theorem transact_accords {ended : Bool} (backing : Backing) (group : Group) :
    Act.Accords A ended (transact backing group : Act ω β τ Error _) (transact backing group)
      fun _ => ended :=
  .ite (.bind (.ask _) fun _ => .pure rfl)
    (.ite (.bind (.ask _) fun _ => .pure rfl) (.bind (.ask _) fun _ => .pure rfl))

variable (h : A.Bond)

include h

/-- The transaction is made even where the talk is over. -/
theorem execute_keeps_on (backing : Backing) (group : Group) :
    Keeps A (execute backing group : Act ω β τ Error Bool) (execute backing group) := by
  refine .bind (.ask _) fun _ => .ite (.pure rfl) (.bind (.attempt (h.writeLine _)) fun started =>
    .bind (transact_accords backing group) fun outcome => .bind (.tell _) fun _ => ?_)
  have hStarted : Act.Accords A (A.isOver (fun _ => false) started)
      (Act.ofExcept started : Act ω β τ Error Unit) (Act.ofExcept started) fun _ => false :=
    .ofExcept rfl
  exact .bind hStarted fun _ => .bind (h.writeLines _) fun _ => .pure rfl

theorem runGroups_keeps_on (backing : Backing) (n : Nat) (actions : List Action) :
    Keeps A (runGroups backing n actions : Act ω β τ Error Unit) (runGroups backing n actions) := by
  induction n generalizing actions with
  | zero => exact .pure rfl
  | succ n ih =>
    rcases actions with _ | ⟨action, actions⟩
    · exact .pure rfl
    · cases action with
      | start =>
        simp only [runGroups]
        generalize actions.span _ = parts
        obtain ⟨body, _ | ⟨_, tail⟩⟩ := parts
        · exact h.writeLine _
        · dsimp only
          cases plan body with
          | error fault => exact .bind (h.writeLine _) fun _ => ih tail
          | ok group =>
            exact .bind (execute_keeps_on h backing group) fun _ => .ite (ih tail) (.pure rfl)
      | _ => exact .pure rfl

theorem runShortcut_keeps_on (backing : Backing) (key : UInt8) :
    Keeps A (runShortcut backing key : Act ω β τ Error Unit) (runShortcut backing key) := by
  refine .bind (.dialogue (h.resolve _ _)) fun shortcut? => ?_
  rcases shortcut? with _ | _
  · exact .pure rfl
  · exact .bind (.ask _) fun _ => .ite (.pure rfl) (.bind (.scanI2c backing) fun _ =>
      .bind (.tell _) fun _ => .bind (h.writeLine _) fun _ => h.writeLines _)

/-- A controller is given back where the menu that offers to turn it down is not answered. -/
theorem claimBus_keeps_on (clock data : Pin) (hz : Nat) :
    Keeps A (claimBus clock data hz : Act ω β τ Error Backing) (claimBus clock data hz) := by
  refine .bind (.claimI2c clock data hz) fun answer => .bind (.granted answer) fun backing => ?_
  cases backing with
  | bitBanged => exact .pure rfl
  | hardware =>
    refine .bind (.attempt (.dialogue (h.select _ _ _))) fun choice => ?_
    rcases choice with e | _ | n
    · exact .bind (.tell _) fun _ => .throw rfl
    · exact .bind (.tell _) fun _ => .bind (.ask _) fun answer => .bind (.claimed answer) fun _ =>
        .pure rfl
    · exact .pure rfl

theorem enter_keeps_on : Keeps A (enter : Act ω β τ Error Backing) enter := by
  have hPins : ∀ header, Dialogue.Keeps A (choosePins header) (choosePins header) := by
    intro header
    unfold choosePins
    split
    · exact .bind (h.select _ _ _) fun _ => .pure rfl
    · exact .pure rfl
  exact .bind .board fun board => .bind (.dialogue (hPins _)) fun (clock, data) =>
    .bind (.dialogue (h.select _ _ _)) fun _ => .bind (.reach _) fun _ => claimBus_keeps_on h _ _ _

end I2c

/-! ## All modes -/

namespace Mode

omit [Terminal τ] [Terminal τ'] in
theorem leave_accords {ended : Bool} (mode : Mode) :
    Act.Accords A ended (mode.leave : Act ω β τ Error Unit) mode.leave fun _ => ended := by
  cases mode with
  | hiz => exact .pure rfl
  | oneWire | uart | i2c => exact .tell _
  | spi => exact .bind (.tell _) fun _ => .tell _

variable (h : A.Bond)

include h

theorem run_keeps_on (mode : Mode) (actions : List Action) :
    Keeps A (mode.run actions : Act ω β τ Error Unit) (mode.run actions) := by
  cases mode with
  | hiz => exact .pure rfl
  | oneWire => exact .forM _ (OneWire.runAction_keeps_on h)
  | uart => exact .forM _ (Uart.runAction_keeps_on h)
  | i2c backing => exact I2c.runGroups_keeps_on h backing _ _
  | spi session => exact Spi.run_keeps_on h session actions

theorem enter_keeps_on (kind : ModeKind) :
    Keeps A (enter kind : Act ω β τ Error Mode) (enter kind) := by
  cases kind with
  | hiz => exact .pure rfl
  | oneWire =>
    exact .bind (.bind (.ask _) fun answer => .bind (.claimed answer) fun _ => .pure rfl) fun _ =>
      .pure rfl
  | uart => exact .bind (Uart.enter_keeps_on h) fun _ => .pure rfl
  | i2c => exact .bind (I2c.enter_keeps_on h) fun _ => .pure rfl
  | spi => exact .bind (Spi.enter_keeps_on h) fun _ => .pure rfl

/-- What a macro comes to is an answer, after which the talk may be over. -/
theorem runShortcut_accords (hKeys : A.Keys) (mode : Mode) (key : UInt8) :
    Act.Accords A false (mode.runShortcut key : Act ω β τ Error (Except Error Unit × Mode))
      (mode.runShortcut key) fun r => A.isOver (fun _ => false) r.1 := by
  have hNone : Act.Accords A false
      (mode.runNoShortcut key : Act ω β τ Error (Except Error Unit × Mode)) (mode.runNoShortcut key)
      fun r => A.isOver (fun _ => false) r.1 := by
    refine .bind (.attempt (.dialogue (h.resolve _ _))) fun result => .pure ?_
    cases result <;> rfl
  cases mode with
  | hiz | spi => exact hNone
  | oneWire session =>
    exact .bind (.withOwn (OneWire.runShortcut_keeps_on h key)) fun (result, session) => .pure rfl
  | uart => exact .bind (.attempt (Uart.runShortcut_keeps_on h hKeys key)) fun _ => .pure rfl
  | i2c backing =>
    exact .bind (.attempt (I2c.runShortcut_keeps_on h backing key)) fun _ => .pure rfl

end Mode

end BusBench
