import BusBench.Proofs.Binary.Programs
import BusBench.Proofs.World.Monitors
import BusBench.Prompt.Mode

/-!
# The LED of the mode

The LED stays as it is while a mode is entered or used, and while the engines of the binary
protocol work. Only the prompt switches it.

* `ledLevel?`: the level that the LED was given last.
* `lamp`: a monitor that knows this level.
* `Mode.enter_dark`, `Mode.run_dark`, `Mode.runShortcut_dark`: modes.
* `Binary.run_dark`: the binary protocol.
-/

namespace BusBench

open Act (Obeys Stays)

/-! ## The level of the LED -/

/-- The level that an exchange gives to the LED of the mode. -/
def Exchange.ledLevel? (exchange : Exchange) : Option Bool :=
  match exchange.request with
  | .modeLed on => some on
  | _ => none

/-- The level that the LED of the mode was given last. -/
def ledLevel? (trace : List Exchange) : Option Bool :=
  trace.reverse.findSome? Exchange.ledLevel?

/-- Objects to nothing, and knows the level of the LED. -/
def lamp : Monitor (Option Bool) where
  step exchange level := some (exchange.ledLevel?.or level)

theorem ledLevel?_append (trace trace' : List Exchange) :
    ledLevel? (trace ++ trace') = (ledLevel? trace').or (ledLevel? trace) := by
  rw [ledLevel?, List.reverse_append, List.findSome?_append]
  rfl

theorem lamp_run (trace : List Exchange) (level : Option Bool) :
    lamp.run trace level = some ((ledLevel? trace).or level) := by
  induction trace generalizing level with
  | nil => rfl
  | cons exchange trace ih =>
    have hFirst : ledLevel? [exchange] = exchange.ledLevel? := List.findSome?_singleton
    have hStep : lamp.step exchange level = some (exchange.ledLevel?.or level) := rfl
    calc lamp.run (exchange :: trace) level
        = some ((ledLevel? trace).or (exchange.ledLevel?.or level)) := by
          rw [Monitor.run, hStep, Option.bind_some, ih]
      _ = some ((ledLevel? ([exchange] ++ trace)).or level) := by
          rw [ledLevel?_append, hFirst, Option.or_assoc]

variable {ω β τ ε α : Type} {P : ω → Prop} {s : Option Bool}

/-! ## Buses -/

namespace Act

theorem claimI2c_dark (clock data : Pin) (hz : Nat) :
    Stays lamp P s (claimI2c clock data hz : Act ω β τ ε _) := by
  refine (Stays.ask fun _ => rfl).bind fun answer => ?_
  cases answer with
  | ok _ => exact .pure _
  | error reason => exact (Stays.ask fun _ => rfl).bind fun _ => .pure _

theorem claimSpi_dark : Stays lamp P s (claimSpi : Act ω β τ ε _) := by
  refine (Stays.ask fun _ => rfl).bind fun answer => ?_
  cases answer with
  | ok _ => exact .pure _
  | error reason => exact (Stays.ask fun _ => rfl).bind fun _ => .pure _

theorem scanI2c_dark (backing : Backing) : Stays lamp P s (scanI2c backing : Act ω β τ ε _) :=
  Stays.filterM _ fun _ => (Stays.ask fun _ => rfl).bind fun _ => .pure _

theorem readSpi_dark (backing : Backing) (count : Nat) :
    Stays lamp P s (readSpi backing count : Act ω β τ ε _) :=
  (Stays.ask fun _ => rfl).bind fun _ => .pure _

theorem writeSpi_dark (backing : Backing) (bytes : List UInt8) :
    Stays lamp P s (writeSpi backing bytes : Act ω β τ ε _) :=
  (Stays.ask fun _ => rfl).bind fun _ => .pure _

theorem takeUart_dark : Stays lamp P s (takeUart : Act ω β τ ε _) := by
  refine (Stays.ask fun _ => rfl).bind fun available => Stays.ite (.pure _) ?_
  exact (Stays.ask fun _ => rfl).bind fun _ => .pure _

end Act

/-! ## Modes -/

section Modes

variable [Terminal τ]

namespace Uart

theorem runAction_dark (action : Action) :
    Stays lamp P s (runAction action : Act ω β τ Error Unit) := by
  cases action with
  | start => exact .tell fun _ => rfl
  | write value count =>
    refine (Stays.dialogue _).bind fun _ => ?_
    exact (Stays.ask fun _ => rfl).bind fun _ => .ofExcept _
  | read count => exact (Stays.ask fun _ => rfl).bind fun _ => Stays.ite (.dialogue _) (.pure _)
  | _ => exact .pure _

theorem forward_dark : Stays lamp P s (forward : Act ω β τ Error Unit) := by
  refine Act.takeUart_dark.bind fun taken => ?_
  cases taken with
  | none => exact .pure _
  | some bytes => exact .dialogue _

theorem bridgeRound_dark (u : Unit) :
    Stays lamp P s (bridgeRound u : Act ω β τ Error (Unit ⊕ Unit)) := by
  refine (Stays.dialogue _).bind fun key => ?_
  cases key with
  | none => exact forward_dark.bind fun _ => .pure _
  | some key =>
    refine (Stays.ask fun _ => rfl).bind fun _ => (Stays.ofExcept _).bind fun _ => ?_
    exact forward_dark.bind fun _ => .pure _

theorem bridge_dark : Stays lamp P s (bridge : Act ω β τ Error Unit) := by
  refine (Stays.dialogue _).bind fun _ => (Stays.dialogue _).bind fun _ => ?_
  refine (Stays.dialogue _).bind fun answer => ?_
  cases answer with
  | modeSwitch => exact .throw _
  | text answer => exact Stays.ite (.askUntil bridgeRound_dark ()) (.pure _)

theorem monitorRound_dark (u : Unit) :
    Stays lamp P s (monitorRound u : Act ω β τ Error (Unit ⊕ Unit)) := by
  refine (Stays.dialogue _).bind fun key => ?_
  cases key with
  | none => exact forward_dark.bind fun _ => .pure _
  | some key => exact .pure _

theorem runShortcut_dark (key : UInt8) :
    Stays lamp P s (runShortcut key : Act ω β τ Error Unit) := by
  refine (Stays.dialogue _).bind fun shortcut => ?_
  rcases shortcut with - | - | -
  · exact .pure _
  · exact bridge_dark
  · refine (Stays.dialogue _).bind fun _ => (Stays.dialogue _).bind fun _ => ?_
    exact .askUntil monitorRound_dark ()

end Uart

namespace OneWire

theorem reset_dark : Stays lamp P s (reset : Act ω β τ Error Unit) :=
  (Stays.ask fun _ => rfl).bind fun _ => (Stays.ofExcept _).bind fun _ => .dialogue _

omit [Terminal τ] in
theorem write_dark (bytes : List UInt8) :
    Stays lamp P s (do Act.done (← Act.ask (.oneWire (.write bytes))) : Act ω β τ Error Unit) :=
  (Stays.ask fun _ => rfl).bind fun _ => .ofExcept _

omit [Terminal τ] in
theorem readBytes_dark (count : Nat) :
    Stays lamp P s (readBytes count : Act ω β τ Error (List UInt8)) :=
  (Stays.ask fun _ => rfl).bind fun _ => (Stays.ofExcept _).bind fun _ => .pure _

theorem runAction_dark (action : Action) :
    Stays lamp P s (runAction action : Act ω β τ Error Unit) := by
  cases action with
  | start => exact reset_dark
  | write value count => exact (Stays.dialogue _).bind fun _ => write_dark _
  | read count => exact (readBytes_dark _).bind fun _ => .dialogue _
  | _ => exact .pure _

theorem readRom_dark : Stays lamp P s (readRom : Act ω β τ Error Unit) := by
  refine reset_dark.bind fun _ => (Stays.ask fun _ => rfl).bind fun _ => ?_
  refine (Stays.ofExcept _).bind fun _ => (readBytes_dark 8).bind fun _ => ?_
  exact (Stays.dialogue _).bind fun _ => .dialogue _

/-! The macros of devices are kept in the session. -/

theorem listDevices_dark (index : Nat) (roms : List Rom) :
    Stays lamp (fun _ => True) s (listDevices index roms : Act Session β τ Error Unit) := by
  induction roms generalizing index with
  | nil => exact .pure _
  | cons rom roms ih =>
    refine (Stays.dialogue _).bind fun _ => (Stays.dialogue _).bind fun _ => ?_
    exact Stays.ite ((Stays.modifyOwn fun _ _ => trivial).bind fun _ => ih _) (ih _)

theorem searchRom_dark :
    Stays lamp (fun _ => True) s (searchRom : Act Session β τ Error Unit) := by
  refine (Stays.ask fun _ => rfl).bind fun _ => (Stays.ofExcept _).bind fun found => ?_
  refine (Stays.modifyOwn fun _ _ => trivial).bind fun _ => (Stays.dialogue _).bind fun _ => ?_
  exact (listDevices_dark 0 found).bind fun _ => .modifyOwn fun _ _ => trivial

theorem addressDevice_dark (index : Nat) :
    Stays lamp (fun _ => True) s (addressDevice index : Act Session β τ Error Unit) := by
  refine Stays.own_bind fun session _ => ?_
  cases session.devices[index]? with
  | none => exact .pure _
  | some rom => exact (Stays.dialogue _).bind fun _ => write_dark _

theorem runShortcut_dark (key : UInt8) :
    Stays lamp (fun _ => True) s (runShortcut key : Act Session β τ Error Unit) := by
  refine Stays.own_bind fun session _ => (Stays.dialogue _).bind fun shortcut => ?_
  rcases shortcut with - | - | - | - | index
  · exact .pure _
  · exact readRom_dark
  · exact (Stays.dialogue _).bind fun _ => write_dark _
  · exact searchRom_dark
  · exact addressDevice_dark index

end OneWire

namespace I2c

variable (backing : Backing)

omit [Terminal τ] in
theorem transact_dark (group : Group) :
    Stays lamp P s (transact backing group : Act ω β τ Error _) := by
  refine Stays.ite ?_ (Stays.ite ?_ ?_)
  all_goals exact (Stays.ask fun _ => rfl).bind fun _ => .pure _

theorem execute_dark (group : Group) :
    Stays lamp P s (execute backing group : Act ω β τ Error Bool) := by
  refine (Stays.ask fun _ => rfl).bind fun granted => Stays.ite (.pure _) ?_
  refine (Stays.attempt (.dialogue _)).bind fun _ => (transact_dark backing group).bind fun _ => ?_
  refine (Stays.tell fun _ => rfl).bind fun _ => (Stays.ofExcept _).bind fun _ => ?_
  exact (Stays.forM _ fun _ => .dialogue _).bind fun _ => .pure _

theorem runGroups_dark (n : Nat) (actions : List Action) :
    Stays lamp P s (runGroups backing n actions : Act ω β τ Error Unit) := by
  induction n generalizing actions with
  | zero => exact .pure _
  | succ n ih =>
    rcases actions with - | ⟨action, actions⟩
    · exact .pure _
    cases action with
    | start =>
      rw [runGroups]
      split
      next body tail hSpan =>
      cases tail with
      | nil => exact .dialogue _
      | cons _ tail =>
        dsimp only
        cases plan body with
        | error fault => exact (Stays.dialogue _).bind fun _ => ih tail
        | ok group =>
          exact (execute_dark backing group).bind fun _ => Stays.ite (ih tail) (.pure _)
    | _ => exact .pure _

theorem runShortcut_dark (key : UInt8) :
    Stays lamp P s (runShortcut backing key : Act ω β τ Error Unit) := by
  refine (Stays.dialogue _).bind fun shortcut => ?_
  rcases shortcut with - | -
  · exact .pure _
  · refine (Stays.ask fun _ => rfl).bind fun granted => Stays.ite (.pure _) ?_
    refine (Act.scanI2c_dark backing).bind fun _ => (Stays.tell fun _ => rfl).bind fun _ => ?_
    exact (Stays.dialogue _).bind fun _ => .forM _ fun _ => .dialogue _

theorem claimBus_dark (clock data : Pin) (hz : Nat) :
    Stays lamp P s (claimBus clock data hz : Act ω β τ Error Backing) := by
  refine (Act.claimI2c_dark clock data hz).bind fun _ => (Stays.ofExcept _).bind fun backing => ?_
  cases backing with
  | bitBanged => exact .pure _
  | hardware =>
    refine (Stays.attempt (.dialogue _)).bind fun choice => ?_
    rcases choice with e | - | n
    · exact (Stays.tell fun _ => rfl).bind fun _ => .throw _
    · refine (Stays.tell fun _ => rfl).bind fun _ => (Stays.ask fun _ => rfl).bind fun _ => ?_
      exact (Stays.ofExcept _).bind fun _ => .pure _
    · exact .pure _

theorem enter_dark : Stays lamp P s (enter : Act ω β τ Error Backing) := by
  refine Stays.board.bind fun board => (Stays.dialogue _).bind fun _ => ?_
  refine (Stays.dialogue _).bind fun _ => (Stays.reach _).bind fun _ => ?_
  exact claimBus_dark _ _ _

end I2c

namespace Spi

theorem runAction_dark (session : Session) (action : Action) :
    Stays lamp P s (runAction session action : Act ω β τ Error Unit) := by
  cases action with
  | start | stop =>
    exact (Stays.ask fun _ => rfl).bind fun _ => (Stays.ofExcept _).bind fun _ => .dialogue _
  | write value count =>
    refine (Stays.dialogue _).bind fun _ => ?_
    exact (Act.writeSpi_dark _ _).bind fun _ => .ofExcept _
  | read count =>
    refine (Act.readSpi_dark _ _).bind fun _ => ?_
    exact (Stays.ofExcept _).bind fun _ => .dialogue _
  | _ => exact .pure _

theorem run_dark (session : Session) (actions : List Action) :
    Stays lamp P s (run session actions : Act ω β τ Error Unit) := by
  have hReplay : Stays lamp P s (replay session actions : Act ω β τ Error Unit) :=
    (Stays.ask fun _ => rfl).bind fun _ => (Stays.ofExcept _).bind fun _ =>
      .forM actions (runAction_dark session)
  refine (Stays.ask fun _ => rfl).bind fun granted => Stays.ite (.pure _) ?_
  refine (Stays.attempt hReplay).bind fun _ => ?_
  exact (Stays.tell fun _ => rfl).bind fun _ => .ofExcept _

theorem enter_dark : Stays lamp P s (enter : Act ω β τ Error Session) := by
  refine (Stays.dialogue _).bind fun _ => Act.claimSpi_dark.bind fun _ => ?_
  refine (Stays.ofExcept _).bind fun _ => (Stays.ask fun _ => rfl).bind fun answer => ?_
  cases answer with
  | error reason => exact (Stays.tell fun _ => rfl).bind fun _ => .throw _
  | ok _ =>
    refine (Stays.ask fun _ => rfl).bind fun answer => ?_
    cases answer with
    | ok _ => exact .pure _
    | error reason =>
      refine (Stays.tell fun _ => rfl).bind fun _ => ?_
      exact (Stays.tell fun _ => rfl).bind fun _ => .throw _

end Spi

namespace Mode

theorem enter_dark (kind : ModeKind) : Stays lamp P s (enter kind : Act ω β τ Error Mode) := by
  cases kind with
  | hiz => exact .pure _
  | oneWire =>
    refine Stays.bind ?_ fun _ => .pure _
    exact (Stays.ask fun _ => rfl).bind fun _ => (Stays.ofExcept _).bind fun _ => .pure _
  | uart =>
    refine Stays.bind ?_ fun _ => .pure _
    exact (Stays.dialogue _).bind fun _ => (Stays.ask fun _ => rfl).bind fun _ => .ofExcept _
  | i2c => exact I2c.enter_dark.bind fun _ => .pure _
  | spi => exact Spi.enter_dark.bind fun _ => .pure _

theorem run_dark (mode : Mode) (actions : List Action) :
    Stays lamp P s (mode.run actions : Act ω β τ Error Unit) := by
  cases mode with
  | hiz => exact .pure _
  | oneWire session => exact .forM actions OneWire.runAction_dark
  | uart => exact .forM actions Uart.runAction_dark
  | i2c backing => exact I2c.runGroups_dark backing _ actions
  | spi session => exact Spi.run_dark session actions

/-- A macro changes its session at most. -/
theorem runShortcut_dark {x : ω} (mode : Mode) (key : UInt8) (hOwn : P x) :
    Obeys lamp (mode.runShortcut key : Act ω β τ Error (Except Error Unit × Mode)) x s
      fun r x' s' => (P x' ∧ s' = s) ∧
        ∀ done mode', r = .ok (done, mode') → mode'.kind = mode.kind := by
  have hKept : ∀ {δ : Type} {program : Act ω β τ Error δ} {next : δ → Except Error Unit × Mode},
      Stays lamp P s program → (∀ d, (next d).2.kind = mode.kind) →
      Obeys lamp (program >>= fun d => pure (next d)) x s fun r x' s' => (P x' ∧ s' = s) ∧
        ∀ done mode', r = .ok (done, mode') → mode'.kind = mode.kind := by
    intro δ program next hProgram hNext
    refine .bind ((hProgram x hOwn).mono fun r x' s' hStays => ?_)
    cases r with
    | error e => exact ⟨hStays, fun done mode' h => by cases h⟩
    | ok d =>
      refine .pure ⟨hStays, fun done mode' h => ?_⟩
      have hKind := hNext d
      rw [Except.ok.inj h] at hKind
      exact hKind
  cases mode with
  | hiz => exact hKept (.attempt (.dialogue _)) fun _ => rfl
  | oneWire session =>
    have hSession : Stays lamp P s (Act.withOwn session (OneWire.runShortcut key) :
        Act ω β τ Error (Except Error Unit × OneWire.Session)) :=
      .withOwn (OneWire.runShortcut_dark key) trivial
    exact hKept hSession fun _ => rfl
  | uart => exact hKept (.attempt (Uart.runShortcut_dark key)) fun _ => rfl
  | i2c backing => exact hKept (.attempt (I2c.runShortcut_dark backing key)) fun _ => rfl
  | spi session => exact hKept (.attempt (.dialogue _)) fun _ => rfl

end Mode

end Modes

/-! ## The binary protocol -/

namespace Binary

/-- Nothing that the engines ask for concerns the LED. -/
theorem lamp_step_of_engines {request : Request} (h : request.isOfEngines = true)
    (answer : request.Answer) : lamp.step ⟨request, answer⟩ s = some s := by
  cases request with
  | modeLed on => cases h
  | _ => rfl

theorem compositional_dark :
    Compositional fun {ε α : Type} (program : Act ω β Link ε α) => Stays lamp P s program where
  pure := .pure
  bind := .bind
  ask _ h := .ask (lamp_step_of_engines h)
  reach := .reach
  board := .board
  dialogue _ := .dialogue _
  attempt := .attempt
  ofExcept := .ofExcept
  serveUntil _ h := .serveUntil h

namespace Uart

theorem forward_dark : Stays lamp P s (forward : Talk ω β Unit) := by
  refine Act.takeUart_dark.bind fun bytes? => ?_
  cases bytes? with
  | none => exact .pure _
  | some bytes => exact .dialogue _

theorem bridgeRound_dark (u : Unit) : Stays lamp P s (bridgeRound u : Talk ω β _) := by
  refine (Stays.dialogue _).bind fun byte? => ?_
  cases byte? with
  | none => exact forward_dark.bind fun _ => .pure _
  | some byte => exact (Stays.tell fun _ => rfl).bind fun _ => forward_dark.bind fun _ => .pure _

theorem serveRound_dark (state : State) : Stays lamp P s (serveRound state : Talk ω β _) := by
  have hAwait : Stays lamp P s (awaitCommand state : Talk ω β _) := by
    refine (Stays.reach _).bind fun _ => (Stays.dialogue _).bind fun command? => ?_
    cases command? with
    | none => exact .pure _
    | some command =>
      exact compositional_dark.uart_serveCommand state command fun _ =>
        .serveUntil bridgeRound_dark ()
  exact Stays.ite (forward_dark.bind fun _ => hAwait) hAwait

end Uart

theorem run_dark : Stays lamp P s (run : Talk ω β Unit) :=
  compositional_dark.run (.serveUntil Uart.serveRound_dark {})

end Binary

end BusBench
