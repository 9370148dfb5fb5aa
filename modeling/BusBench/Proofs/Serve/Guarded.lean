import BusBench.Proofs.OneWire.DeviceMacros
import BusBench.Proofs.Serve.Menus
import BusBench.Prompt.Serve

/-!
# The prompt is guarded

A line from a console is printable, and whatever the prompt reads as a literal or a sequence is part
of such a line. So no command comes to a literal that cannot be looked at, in whichever mode.

* `Mode.Meets`: what is true of a session of the 1-Wire mode.
* `Mode.run_guards`, `Mode.runShortcut_ends`: sequences and macros.
* `Bench.runCommand_guards`: every printable line.
-/

namespace BusBench

open Act (Ends Guards)
open Dialogue (Returns)

variable {ω β : Type} {P : ω → Prop} {K : OneWire.Session → Prop}

/-! ## Menus -/

theorem select_bind_guarded {γ : Type} {message : String} {options : List String} {default : Nat}
    {next : Nat → Dialogue Console Error γ} (hDefault : default < options.length)
    (h : ∀ index, Returns (next index) (· ≠ .error .splitCharacter)) :
    Returns (Terminal.select message options default >>= next) (· ≠ .error .splitCharacter) := by
  refine .bind ((Terminal.select_returns message hDefault).mono fun r hPicked => ?_)
  cases r with
  | ok index => exact h index
  | error e => exact fun hSplit => hPicked (Except.error.inj hSplit)

/-! ## UART -/

namespace Uart

theorem run_guards (actions : List Action) :
    Guards P (run actions : Act ω β Console Error Unit) := by
  refine .forM actions fun action => ?_
  cases action with
  | start => exact .tell _
  | write value count =>
    exact (Guards.writeLine _).bind fun _ => (Guards.ask _).bind fun answer => .done answer
  | read count => exact (Guards.ask _).bind fun _ => .ite (.writeLine _) (.pure _)
  | _ => exact .pure _

theorem forward_guards : Guards P (forward : Act ω β Console Error Unit) := by
  refine Guards.takeUart.bind fun bytes? => ?_
  cases bytes? with
  | none => exact .pure _
  | some bytes => exact .writeBytes _

theorem bridgeRound_guards (u : Unit) :
    Guards P (bridgeRound u : Act ω β Console Error (Unit ⊕ Unit)) := by
  refine Guards.pollKey.bind fun key? => ?_
  cases key? with
  | none => exact forward_guards.bind fun _ => .pure _
  | some key =>
    refine (Guards.ask _).bind fun answer => (Guards.done answer).bind fun _ => ?_
    exact forward_guards.bind fun _ => .pure _

theorem monitorRound_guards (u : Unit) :
    Guards P (monitorRound u : Act ω β Console Error (Unit ⊕ Unit)) := by
  refine Guards.pollKey.bind fun key? => ?_
  cases key? with
  | none => exact forward_guards.bind fun _ => .pure _
  | some key => exact .pure _

theorem runShortcut_guards (key : UInt8) :
    Guards P (runShortcut key : Act ω β Console Error Unit) := by
  refine (Guards.resolve _ _).bind fun action? => ?_
  rcases action? with _ | _ | _
  · exact .pure _
  · refine (Guards.writeLine _).bind fun _ => (Guards.writeLine _).bind fun _ => ?_
    refine (Guards.readLine _).bind fun line => ?_
    cases line with
    | modeSwitch => exact .throw nofun
    | text answer => exact .ite (.askUntil bridgeRound_guards ()) (.pure _)
  · refine (Guards.writeLine _).bind fun _ => (Guards.writeLine _).bind fun _ => ?_
    exact .askUntil monitorRound_guards ()

end Uart

/-! ## I2C -/

namespace I2c

theorem transact_guards (backing : Backing) (group : Group) :
    Guards P (transact backing group : Act ω β Console Error _) :=
  .ite ((Guards.ask _).bind fun _ => .pure _)
    (.ite ((Guards.ask _).bind fun _ => .pure _) ((Guards.ask _).bind fun _ => .pure _))

theorem execute_guards (backing : Backing) (group : Group) :
    Guards P (execute backing group : Act ω β Console Error Bool) := by
  refine (Guards.ask _).bind fun granted => .ite (.pure _) ?_
  refine .attempt_dialogue_bind (LinkOnly.returns_ne_split (Terminal.writeLine_returns _))
    fun started hStarted => (transact_guards backing group).bind fun result => ?_
  refine (Guards.tell _).bind fun _ => (Guards.ofExcept hStarted).bind fun _ => ?_
  exact (Guards.writeLines _).bind fun _ => .pure _

theorem runGroups_guards (backing : Backing) (n : Nat) (actions : List Action) :
    Guards P (runGroups backing n actions : Act ω β Console Error Unit) := by
  induction n generalizing actions with
  | zero => exact .pure _
  | succ n ih =>
    rcases actions with - | ⟨action, actions⟩
    · exact .pure _
    cases action with
    | start =>
      rw [runGroups]
      split
      next body tail hSpan =>
      cases tail with
      | nil => exact .writeLine _
      | cons _ tail =>
        dsimp only
        cases plan body with
        | error fault => exact (Guards.writeLine _).bind fun _ => ih tail
        | ok group => exact (execute_guards backing group).bind fun _ => .ite (ih tail) (.pure _)
    | _ => exact .pure _

/-- A controller is given back where the menu that offers to turn it down is not answered. -/
theorem claimBus_guards (clock data : Pin) (hz : Nat) :
    Guards P (claimBus clock data hz : Act ω β Console Error Backing) := by
  refine (Guards.claimI2c _ _ _).bind fun answer => (Guards.granted answer).bind fun backing => ?_
  cases backing with
  | bitBanged => exact .pure _
  | hardware =>
    refine .attempt_dialogue_bind ((Terminal.select_returns _ (Nat.succ_pos 1)).mono fun _ =>
      Terminal.Picked.ne_split) fun choice hChoice => ?_
    rcases choice with e | _ | _
    · exact (Guards.tell _).bind fun _ => .throw fun h => hChoice (by rw [h])
    · refine (Guards.tell _).bind fun _ => (Guards.ask _).bind fun answer => ?_
      exact (Guards.claimed answer).bind fun _ => .pure _
    · exact .pure _

theorem enter_guards : Guards P (enter : Act ω β Console Error Backing) := by
  have hPins : ∀ header, Returns (choosePins header : Dialogue Console Error (Pin × Pin))
      (· ≠ .error .splitCharacter) := by
    intro header
    unfold choosePins
    split
    · exact select_bind_guarded (Nat.succ_pos 1) fun _ => .pure nofun
    · exact .pure nofun
  refine Guards.board.bind fun board => (Guards.dialogue (hPins _)).bind fun (clock, data) => ?_
  refine (Guards.select _ (Nat.succ_pos 3)).bind fun speed => ?_
  exact (Guards.reach _).bind fun _ => claimBus_guards _ _ _

theorem runShortcut_guards (backing : Backing) (key : UInt8) :
    Guards P (runShortcut backing key : Act ω β Console Error Unit) := by
  refine (Guards.resolve _ _).bind fun action? => ?_
  rcases action? with _ | _
  · exact .pure _
  · refine (Guards.ask _).bind fun granted => .ite (.pure _) ?_
    refine (Guards.scanI2c backing).bind fun found => (Guards.tell _).bind fun _ => ?_
    exact (Guards.writeLine _).bind fun _ => .writeLines _

end I2c

/-! ## SPI -/

namespace Spi

variable (session : Session)

theorem runAction_guards (action : Action) :
    Guards P (runAction session action : Act ω β Console Error Unit) := by
  cases action with
  | start => exact (Guards.ask _).bind fun answer => (Guards.done answer).bind fun _ => .writeLine _
  | stop => exact (Guards.ask _).bind fun answer => (Guards.done answer).bind fun _ => .writeLine _
  | write value count =>
    exact (Guards.writeLine _).bind fun _ => (Guards.writeSpi _ _).bind fun answer => .done answer
  | read count =>
    exact (Guards.readSpi _ _).bind fun answer => (Guards.done answer).bind fun _ => .writeLine _
  | _ => exact .pure _

theorem run_guards (actions : List Action) :
    Guards P (run session actions : Act ω β Console Error Unit) := by
  refine (Guards.ask _).bind fun granted => .ite (.pure _) ?_
  refine .attempt_bind ((Guards.ask _).bind fun answer => (Guards.done answer).bind fun _ =>
    .forM actions (runAction_guards session)) (fun result hResult _ => ?_) fun board world => rfl
  exact (Guards.tell _).bind fun _ => .ofExcept hResult

theorem askConfig_guarded : Returns (askConfig : Dialogue Console Error (Config × Bool))
    (· ≠ .error .splitCharacter) := by
  refine select_bind_guarded (Nat.succ_pos 3) fun _ => ?_
  refine select_bind_guarded (Nat.succ_pos 1) fun _ => ?_
  refine select_bind_guarded (Nat.lt_succ_self 1) fun _ => ?_
  exact select_bind_guarded (Nat.lt_succ_self 1) fun _ => .pure nofun

/-- What was claimed is given back where a later step fails. -/
theorem enter_guards : Guards P (enter : Act ω β Console Error Session) := by
  refine (Guards.dialogue askConfig_guarded).bind fun (config, activeLow) => ?_
  refine Guards.claimSpi.bind fun answer => (Guards.granted answer).bind fun backing => ?_
  refine (Guards.ask _).bind fun answer => ?_
  cases answer with
  | error reason => exact (Guards.tell _).bind fun _ => .throw nofun
  | ok _ =>
    refine (Guards.ask _).bind fun answer => ?_
    cases answer with
    | ok _ => exact .pure _
    | error reason => exact (Guards.tell _).bind fun _ => (Guards.tell _).bind fun _ => .throw nofun

end Spi

/-! ## In a mode -/

namespace Mode

/-- The session of the 1-Wire mode. -/
def session? : Mode → Option OneWire.Session
  | oneWire session => some session
  | _ => none

theorem eq_of_session? {mode : Mode} {session : OneWire.Session}
    (h : mode.session? = some session) : mode = oneWire session := by
  cases mode with
  | oneWire session' => exact congrArg _ (Option.some.inj h)
  | _ => cases h

/-- A session of the 1-Wire mode, if there is one, is as `K` says. -/
def Meets (K : OneWire.Session → Prop) (mode : Mode) : Prop :=
  ∀ session, mode.session? = some session → K session

theorem meets_oneWire {session : OneWire.Session} (h : K session) : (oneWire session).Meets K :=
  fun _ hSession => Option.some.inj hSession ▸ h

theorem leave_guards (mode : Mode) : Guards P (mode.leave : Act ω β Console Error Unit) := by
  cases mode with
  | hiz => exact .pure _
  | oneWire | uart | i2c => exact .tell _
  | spi => exact (Guards.tell _).bind fun _ => .tell _

theorem run_guards (mode : Mode) (actions : List Action) :
    Guards P (mode.run actions : Act ω β Console Error Unit) := by
  cases mode with
  | hiz => exact .pure _
  | oneWire session => exact OneWire.run_guards actions
  | uart => exact Uart.run_guards actions
  | i2c backing => exact I2c.runGroups_guards backing _ _
  | spi session => exact Spi.run_guards session actions

/-- What a macro comes to is an answer like any other. -/
def Ran (K : OneWire.Session → Prop) : Except Error (Except Error Unit × Mode) → Prop
  | .ok (result, mode) => result ≠ .error .splitCharacter ∧ (result ≠ .error .link → mode.Meets K)
  | .error _ => False

theorem runShortcut_ends {board : Board β} {world : World ω β Console} {mode : Mode}
    (hKept : OneWire.Session.Kept K) (key : UInt8) (h : mode.Meets K) :
    Ends board (mode.runShortcut key) world fun r _ => Ran K r := by
  have hNone : Ends board (mode.runNoShortcut key) world fun r _ => Ran K r := by
    have hResolve := Guards.resolve (P := fun _ => True) key ({} : MacroTable Unit) board world
      trivial
    refine .bind (.attempt (hResolve.mono fun r w hResolved => .pure ⟨?_, fun _ => h⟩))
    cases r with
    | ok action => exact nofun
    | error e => exact fun hSplit => hResolved.1 (by rw [Except.error.inj hSplit])
  cases mode with
  | hiz | spi session => exact hNone
  | oneWire session =>
    have hSession := OneWire.runShortcut_guards hKept key board
      ⟨session, world.board, world.peer, world.events⟩ (h session rfl)
    exact .bind (.withOwn (hSession.mono fun r w hRan =>
      .pure ⟨hRan.1, fun hLink => meets_oneWire (hRan.2 hLink)⟩))
  | uart =>
    have hUart := Uart.runShortcut_guards (P := fun _ => True) key board world trivial
    exact .bind (.attempt (hUart.mono fun r w hRan => .pure ⟨hRan.1, fun _ => nofun⟩))
  | i2c backing =>
    have hI2c := I2c.runShortcut_guards (P := fun _ => True) backing key board world trivial
    exact .bind (.attempt (hI2c.mono fun r w hRan => .pure ⟨hRan.1, fun _ => nofun⟩))

/-! ### Entering -/

theorem enter_guards (kind : ModeKind) :
    Guards P (enter kind : Act ω β Console Error Mode) := by
  cases kind with
  | hiz => exact .pure _
  | oneWire =>
    refine Guards.bind ?_ fun _ => .pure _
    exact (Guards.ask _).bind fun answer => (Guards.claimed answer).bind fun _ => .pure _
  | uart =>
    refine Guards.bind ?_ fun _ => .pure _
    refine .dialogue_bind (Uart.askConfig_returns.mono fun r hConfig => ?_)
    cases r with
    | ok config => exact (Guards.ask _).bind fun answer => .claimed answer
    | error e => exact hConfig
  | i2c => exact I2c.enter_guards.bind fun _ => .pure _
  | spi => exact Spi.enter_guards.bind fun _ => .pure _

/-- The 1-Wire mode begins with a new session. -/
theorem enter_meets {board : Board β} {world : World ω β Console} (hInitial : K .initial)
    (kind : ModeKind) :
    Ends board (enter kind) world fun r _ => ∀ mode, r = .ok mode → mode.Meets K := by
  have hOther : ∀ {α : Type} {program : Act ω β Console Error α} {make : α → Mode},
      (∀ a, (make a).Meets K) →
      Ends board (do return make (← program)) world fun r _ =>
        ∀ mode, r = .ok mode → mode.Meets K := by
    intro α program make h
    have hAny : Ends board program world fun _ _ => True := trivial
    refine .bind (hAny.mono fun r w _ => ?_)
    cases r with
    | error e => exact nofun
    | ok a => exact .pure fun mode hMode => Except.ok.inj hMode ▸ h a
  cases kind with
  | hiz => exact .pure fun mode hMode => Except.ok.inj hMode ▸ nofun
  | oneWire =>
    refine .bind (.bind (.ask_any fun answer w => ?_))
    cases answer with
    | error reason => exact nofun
    | ok _ => exact .pure (.pure fun mode hMode => Except.ok.inj hMode ▸ meets_oneWire hInitial)
  | uart | i2c | spi => exact hOther fun _ => nofun

end Mode

/-! ## Commands -/

namespace Bench

/-- The mode is as `K` says. -/
def Meets (K : OneWire.Session → Prop) (bench : Bench) : Prop :=
  bench.mode.Meets K

theorem dropSelect_guards : Guards (Meets K) (dropSelect : Act Bench β Console Error Unit) :=
  .own_bind fun _ _ => .ite ((Guards.tell _).bind fun _ => .modifyOwn fun _ h => h) (.pure _)

theorem releaseMode_guards : Guards (Meets K) (releaseMode : Act Bench β Console Error Unit) := by
  refine .own_bind fun bench _ => bench.mode.leave_guards.bind fun _ => ?_
  -- HiZ has no session.
  refine .bind (.modifyOwn fun bench _ => nofun) fun _ => ?_
  exact dropSelect_guards

theorem showVersion_guards : Guards (Meets K) (showVersion : Act Bench β Console Error Unit) := by
  refine Guards.board.bind fun board => (Guards.writeLine _).bind fun _ => ?_
  exact (Guards.writeLine _).bind fun _ => .own_bind fun bench _ => .writeLine _

theorem softReset_guards : Guards (Meets K) (softReset : Act Bench β Console Error Unit) := by
  refine releaseMode_guards.bind fun _ => .bind (.modifyOwn fun _ h => h) fun _ => ?_
  exact (Guards.tell _).bind fun _ => showVersion_guards

/-! ### Literals -/

variable {line text : List Char}

theorem readLiteral_guards {P : Bench → Prop} (h : Printable text) :
    Guards P (readLiteral text : Act Bench β Console Error (Option Nat)) := by
  have hRead := h.read_ne
  unfold readLiteral
  split
  · exact .pure _
  · exact .pure _
  · next hSplit => exact absurd hSplit hRead

theorem convert_guards (h : Printable text) (change : Nat → Nat) :
    Guards (Meets K) (convert text change : Act Bench β Console Error Unit) := by
  refine (readLiteral_guards h).bind fun number? => ?_
  cases number? with
  | none => exact .writeLine _
  | some n => exact .writeLine _

theorem runSequence_guards (h : Printable line) :
    Guards (Meets K) (runSequence line : Act Bench β Console Error Unit) := by
  obtain ⟨actions, hParse⟩ := h.parse_ok
  rw [runSequence, hParse]
  cases actions with
  | nil => exact .pure _
  | cons action actions => exact .own_bind fun bench _ => bench.mode.run_guards _

theorem keepMode_ends {board : Board β} {world : World Bench β Console} {result : Except Error Unit}
    {mode : Mode} (h : Mode.Ran K (.ok (result, mode))) :
    Ends board (keepMode result mode) world fun r w =>
      r ≠ .error .splitCharacter ∧ (r ≠ .error .link → Meets K w.own) := by
  refine .bind (.modifyOwn ?_)
  cases result with
  | ok _ => exact .pure h
  | error e => exact .throw h

theorem runShortcutLine_guards (hKept : OneWire.Session.Kept K) (h : Printable line) :
    Guards (Meets K) (runShortcutLine line : Act Bench β Console Error Unit) := by
  have hNumber : Printable (Text.trimBy (fun c => c == '(' || c == ')') (Text.trim line)) :=
    (h.part (Text.trimBy_sublist _ _)).part (Text.trimBy_sublist _ _)
  refine (readLiteral_guards hNumber).bind fun number? => ?_
  dsimp only
  cases number?.filter (· ≤ 0xFF) with
  | none => exact .writeLine _
  | some key =>
    refine .own_bind fun bench hMeets board world _ => ?_
    refine .bind ((Mode.runShortcut_ends hKept _ hMeets).mono fun r w hRan => ?_)
    rcases r with e | ⟨result, mode⟩
    · exact hRan.elim
    · exact keepMode_ends hRan

/-! ### Modes -/

theorem showModeLed_guards : Guards (Meets K) (showModeLed : Act Bench β Console Error Unit) :=
  .own_bind fun _ _ => .tell _

theorem enterMode_guards (hInitial : K .initial) (kind : ModeKind) :
    Guards (Meets K) (enterMode kind : Act Bench β Console Error Flow) := by
  intro board world hOwn
  have hEnter := (Mode.enter_guards kind board world hOwn).and (Mode.enter_meets hInitial kind)
  refine .bind (.attempt (hEnter.mono fun r w h => ?_))
  obtain ⟨⟨hSplit, hKept⟩, hMeets⟩ := h
  have hFailed : Guards (Meets K)
      (do Act.writeLine "Mode failed"; return Flow.continue : Act Bench β Console Error Flow) :=
    (Guards.writeLine _).bind fun _ => .pure _
  cases r with
  | ok mode =>
    have hSelected : Guards (Meets K) (do
        if kind ≠ .hiz then Act.writeLine "Mode selected"
        return Flow.continue : Act Bench β Console Error Flow) :=
      .ite ((Guards.writeLine _).bind fun _ => .pure _) (.pure _)
    exact .bind (.modifyOwn (hSelected board _ (hMeets mode rfl)))
  | error e =>
    cases e with
    | modeSwitch => exact .pure ⟨nofun, fun _ => hKept nofun⟩
    | link => exact .throw ⟨nofun, fun h => absurd rfl h⟩
    | splitCharacter => exact absurd rfl hSplit
    | unavailable reason => exact hFailed board w (hKept nofun)
    | bus reason => exact hFailed board w (hKept nofun)
    | aborted => exact hFailed board w (hKept nofun)

/-- Leaves the mode before the number is looked at. -/
theorem switchMode_guards {selection : List Char} (hInitial : K .initial)
    (h : Printable selection) :
    Guards (Meets K) (switchMode selection : Act Bench β Console Error Flow) := by
  have hNumber : Printable (Text.trim selection) := h.part (Text.trimBy_sublist _ _)
  refine releaseMode_guards.bind fun _ => (readLiteral_guards hNumber).bind fun number? => ?_
  have hLed : ∀ flow, Guards (Meets K)
      (do showModeLed; return flow : Act Bench β Console Error Flow) :=
    fun flow => showModeLed_guards.bind fun _ => .pure _
  dsimp only
  cases ModeKind.ofNumber? (number?.getD 1) with
  | none => exact (Guards.writeLine _).bind fun _ => (Guards.pure _).bind hLed
  | some kind => exact (enterMode_guards hInitial kind).bind hLed

theorem changeMode_guards {args : List Char} (hInitial : K .initial) (h : Printable args) :
    Guards (Meets K) (changeMode args : Act Bench β Console Error Flow) := by
  refine .dialogue_bind ((askMode_returns h).mono fun r hAsked => ?_)
  rcases r with e | _ | selection
  · cases hAsked
    exact nofun
  · exact .pure _
  · exact switchMode_guards hInitial (hAsked selection rfl)

/-! ### The rest -/

theorem askReset_guards : Guards (Meets K) (askReset : Act Bench β Console Error Flow) := by
  refine (Guards.readLine _).bind fun line => ?_
  cases line with
  | modeSwitch => exact .pure _
  | text answer => exact .ite (softReset_guards.bind fun _ => .pure _) (.pure _)

theorem selectAux_guards : Guards (Meets K) (selectAux : Act Bench β Console Error Unit) :=
  dropSelect_guards.bind fun _ => .modifyOwn fun _ h => h

theorem selectCs_guards : Guards (Meets K) (selectCs : Act Bench β Console Error Unit) := by
  refine .own_bind fun bench _ => .ite ?claims ?keeps
  case claims =>
    refine (Guards.ask _).bind fun answer => (Guards.claimed answer).bind fun _ => ?_
    exact .bind (.modifyOwn fun _ h => h) fun _ => .modifyOwn fun _ h => h
  case keeps => exact .modifyOwn fun _ h => h

theorem drivePin_guards (high : Bool) (message : String) :
    Guards (Meets K) (drivePin high message : Act Bench β Console Error Unit) := by
  refine .own_bind fun bench _ => (Guards.ask _).bind fun answer => ?_
  exact (Guards.done answer).bind fun _ => .writeLine _

theorem readPin_guards : Guards (Meets K) (readPin : Act Bench β Console Error Unit) := by
  refine .own_bind fun bench _ => (Guards.ask _).bind fun answer => ?_
  refine (Guards.done answer).bind fun _ => (Guards.ask _).bind fun level => ?_
  exact (Guards.done level).bind fun _ => .writeLine _

theorem showVoltage_guards : Guards (Meets K) (showVoltage : Act Bench β Console Error Unit) :=
  (Guards.ask _).bind fun _ => .writeLine _

theorem runVoltmeter_guards : Guards (Meets K) (runVoltmeter : Act Bench β Console Error Unit) := by
  have hRound : ∀ u, Guards (Meets K)
      (voltmeterRound u : Act Bench β Console Error (Unit ⊕ Unit)) := by
    intro u
    refine Guards.pollKey.bind fun key? => ?_
    cases key? with
    | some key => exact .pure _
    | none => exact showVoltage_guards.bind fun _ => (Guards.tell _).bind fun _ => .pure _
  exact (Guards.writeLine _).bind fun _ => (Guards.askUntil hRound ()).bind fun _ => .writeLine _

theorem showPins_guards : Guards (Meets K) (showPins : Act Bench β Console Error Unit) := by
  have hVolts : ∀ probe, Guards (Meets K) (do
      let volts : Volts ← Act.ask (.voltage probe)
      Act.write (volts.text ++ "V   ") : Act Bench β Console Error PUnit) :=
    fun probe => (Guards.ask _).bind fun volts => .write _
  refine .own_bind fun bench _ => (Guards.writeLine _).bind fun _ => ?_
  refine (Guards.writeLine _).bind fun _ => (Guards.writeLine _).bind fun _ => ?_
  refine (Guards.writeLine _).bind fun _ => (Guards.write _).bind fun _ => ?_
  exact (Guards.forM _ hVolts).bind fun _ => .writeLine _

theorem setPower_guards (on : Bool) :
    Guards (Meets K) (setPower on : Act Bench β Console Error Unit) :=
  (Guards.tell _).bind fun _ => .writeLine _

theorem setPullups_guards (on : Bool) :
    Guards (Meets K) (setPullups on : Act Bench β Console Error Unit) := by
  refine .own_bind fun bench _ => .ite (.writeLine _) ?_
  refine (Guards.tell _).bind fun _ => .ite ?switchedOn (.writeLine _)
  refine (Guards.writeLine _).bind fun _ => (Guards.ask _).bind fun volts => ?_
  exact .ite (.writeLine _) (.pure _)

/-- Whatever line is typed. -/
theorem runCommand_guards (hKept : OneWire.Session.Kept K) (h : Printable line) :
    Guards (Meets K) (runCommand line : Act Bench β Console Error Flow) := by
  have hContinue : ∀ {command : Act Bench β Console Error Unit}, Guards (Meets K) command →
      Guards (Meets K) (andContinue command) := fun h => h.bind fun _ => .pure _
  unfold runCommand
  split
  · exact .pure _
  · next command rest =>
    have hArgs : Printable (Text.trim rest) :=
      (h.part (List.sublist_cons_self command rest)).part (Text.trimBy_sublist _ _)
    dsimp only
    split
    case h_1 | h_3 => exact hContinue (.writeLine _)
    case h_2 => exact hContinue showVersion_guards
    case h_4 | h_5 => exact hContinue (convert_guards hArgs _)
    case h_6 => exact hContinue selectAux_guards
    case h_7 => exact hContinue selectCs_guards
    case h_8 | h_9 => exact hContinue (drivePin_guards _ _)
    case h_10 => exact hContinue readPin_guards
    case h_11 => exact hContinue showVoltage_guards
    case h_12 => exact hContinue runVoltmeter_guards
    case h_13 => exact changeMode_guards hKept.initial hArgs
    case h_14 | h_15 => exact hContinue (setPower_guards _)
    case h_16 => exact hContinue showPins_guards
    case h_17 | h_18 => exact hContinue (setPullups_guards _)
    case h_19 => exact hContinue (runShortcutLine_guards hKept h)
    case h_20 | h_21 => exact askReset_guards
    case h_22 => exact hContinue (runSequence_guards h)

end Bench

end BusBench
