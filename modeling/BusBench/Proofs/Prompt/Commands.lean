import BusBench.Proofs.Prompt.Lamp
import BusBench.Proofs.Resources.Commands

/-!
# Mode, pins and LED at the prompt

Only some lines change the mode, what the user has picked for the pin commands, or the LED: those
that pick a pin, that change the mode and that reset. All others leave them alone.

* `Standing`: the mode, the pins of the user and the LED.
* `Act.Ends.of_lamp`: the LED in a single run.
* `Bench.releaseMode_lamp`, `Bench.softReset_lamp`, `Bench.switchMode_lamp`, `Bench.selectAux_lamp`,
  `Bench.selectCs_lamp`: what is changed.
* `Bench.runCommand_dark`: all other lines.
-/

namespace BusBench

open Act (Ends Obeys Stays)

variable {β τ ω ε α : Type}

/-- The mode, the pins that the user drives, and the LED. -/
structure Standing where
  mode : ModeKind
  holdsSelect : Bool
  userPin : UserPin
  level : Option Bool
  deriving DecidableEq, Repr

/-- After the start of the prompt. -/
def Standing.initial : Standing :=
  ⟨.hiz, false, .aux, some false⟩

/-- The program as the LED sees it, in a single run. -/
theorem Act.Ends.of_lamp (board : Board β) {program : Act ω β τ ε α} {world : World ω β τ}
    {post : Except ε α → ω → Option Bool → Prop}
    (h : Obeys lamp program world.own (ledLevel? (exchanges world.events)) post) :
    Ends board program world fun r w => post r w.own (ledLevel? (exchanges w.events)) := by
  obtain ⟨trace, level, hTrace, -, hRun, hPost⟩ := h board world rfl
  have hLevel : level = ledLevel? (exchanges (program.after board world).events) := by
    rw [hTrace, ledLevel?_append]
    exact (Option.some.inj ((lamp_run trace _).symm.trans hRun)).symm
  subst hLevel
  exact hPost

namespace Bench

def standing (bench : Bench) (level : Option Bool) : Standing :=
  ⟨bench.mode.kind, bench.holdsSelect, bench.userPin, level⟩

/-! ## Leaving a mode -/

variable {bench : Bench} {s : Option Bool}

theorem dropSelect_lamp :
    Obeys lamp (dropSelect : Act Bench β τ Error Unit) bench s fun r bench' s' =>
      r = .ok () ∧ bench' = { bench with holdsSelect := false } ∧ s' = s := by
  refine .bind (.own ?_)
  change Obeys lamp (if bench.holdsSelect = true then _ else _) bench s _
  by_cases hSelect : bench.holdsSelect = true
  · rw [if_pos hSelect]
    exact .bind (.tell fun _ => ⟨s, rfl, .modifyOwn ⟨rfl, rfl, rfl⟩⟩)
  · rw [if_neg hSelect]
    have hKept : bench = { bench with holdsSelect := false } := by
      rw [← Bool.eq_false_iff.mpr hSelect]
    exact .pure ⟨rfl, hKept, rfl⟩

theorem releaseMode_lamp :
    Obeys lamp (releaseMode : Act Bench β τ Error Unit) bench s fun r bench' s' =>
      r = .ok () ∧ bench' = bench.rested ∧ s' = s := by
  have hLeave : Obeys lamp (bench.mode.leave : Act Bench β τ Error Unit) bench s
      fun r bench' s' => r = .ok () ∧ bench' = bench ∧ s' = s := by
    cases bench.mode with
    | hiz => exact .pure ⟨rfl, rfl, rfl⟩
    | oneWire | uart | i2c => exact .tell fun _ => ⟨s, rfl, rfl, rfl, rfl⟩
    | spi session => exact .bind (.tell fun _ => ⟨s, rfl, .tell fun _ => ⟨s, rfl, rfl, rfl, rfl⟩⟩)
  refine .bind (.own (.bind (hLeave.mono fun r bench' s' hLeft => ?_)))
  obtain ⟨rfl, rfl, rfl⟩ := hLeft
  refine .bind (.modifyOwn (dropSelect_lamp.mono fun r bench'' s' hDropped => ?_))
  obtain ⟨rfl, rfl, rfl⟩ := hDropped
  exact ⟨rfl, rfl, rfl⟩

variable [Terminal τ]

theorem showVersion_dark {P : Bench → Prop} :
    Stays lamp P s (showVersion : Act Bench β τ Error Unit) :=
  Stays.board.bind fun _ => (Stays.dialogue _).bind fun _ => (Stays.dialogue _).bind fun _ =>
    Stays.own_bind fun _ _ => .dialogue _

/-- A reset goes back to the start, whatever becomes of its output. -/
theorem softReset_lamp :
    Obeys lamp (softReset : Act Bench β τ Error Unit) bench s fun _ bench' s' =>
      bench'.standing s' = .initial := by
  refine .bind (releaseMode_lamp.mono fun r bench' s' hReleased => ?_)
  obtain ⟨rfl, rfl, rfl⟩ := hReleased
  refine .bind (.modifyOwn (.bind (.tell fun _ => ⟨some false, rfl, ?_⟩)))
  refine (showVersion_dark (P := (· = { bench.rested with userPin := .aux })) _ rfl).mono
    fun r bench' s' hShown => ?_
  obtain ⟨rfl, rfl⟩ := hShown
  rfl

/-! ## Entering a mode -/

/-- The prompt holds nothing of its own, and the pin commands drive this pin. -/
structure Idle (pin : UserPin) (bench : Bench) : Prop where
  select : bench.holdsSelect = false
  userPin : bench.userPin = pin

omit [Terminal τ] in
theorem readLiteral_dark {P : Bench → Prop} (text : List Char) :
    Stays lamp P s (readLiteral text : Act Bench β τ Error (Option Nat)) := by
  unfold readLiteral
  split
  · exact .pure _
  · exact .pure _
  · exact .throw _

theorem enterMode_dark (kind : ModeKind) (pin : UserPin) :
    Stays lamp (Idle pin) s (enterMode kind : Act Bench β τ Error Flow) := by
  refine (Stays.attempt (Mode.enter_dark kind)).bind fun entered => ?_
  cases entered with
  | ok mode =>
    refine (Stays.modifyOwn fun bench h => ⟨h.select, h.userPin⟩).bind fun _ => ?_
    exact Stays.ite ((Stays.dialogue _).bind fun _ => .pure _) (.pure _)
  | error e =>
    cases e with
    | modeSwitch => exact .pure _
    | link | splitCharacter => exact .throw _
    | _ => exact (Stays.dialogue _).bind fun _ => .pure _

/-- The LED shows the new mode only where the change succeeds. -/
theorem switchMode_lamp (selection : List Char) :
    Obeys lamp (switchMode selection : Act Bench β τ Error Flow) bench s fun r bench' s' =>
      Idle bench.userPin bench' ∧
        s' = if r.isOk then some (decide (bench'.mode.kind ≠ .hiz)) else s := by
  refine .bind (releaseMode_lamp.mono fun r bench' s' hReleased => ?_)
  obtain ⟨rfl, rfl, rfl⟩ := hReleased
  have hRested : Idle bench.userPin bench.rested := ⟨rfl, rfl⟩
  have hLed : ∀ (flow : Flow) (bench' : Bench), Idle bench.userPin bench' →
      Obeys lamp (do showModeLed; return flow : Act Bench β τ Error Flow) bench' s'
        fun r bench'' s'' => Idle bench.userPin bench'' ∧
          s'' = if r.isOk then some (decide (bench''.mode.kind ≠ .hiz)) else s' :=
    fun flow bench' hIdle => .bind (.bind (.own (.tell fun _ => ⟨_, rfl, .pure ⟨hIdle, rfl⟩⟩)))
  refine (readLiteral_dark _).obeys_bind hRested (fun number? bench' hIdle => ?_)
    fun e bench' hIdle => ⟨hIdle, rfl⟩
  dsimp only
  cases ModeKind.ofNumber? (number?.getD 1) with
  | none =>
    exact (Stays.dialogue _).obeys_bind hIdle (fun _ bench' hIdle => .bind (.pure (hLed _ _ hIdle)))
      fun e bench' hIdle => ⟨hIdle, rfl⟩
  | some kind =>
    exact (enterMode_dark kind _).obeys_bind hIdle hLed fun e bench' hIdle => ⟨hIdle, rfl⟩

/-! ## The other commands -/

omit [Terminal τ] in
theorem selectAux_lamp :
    Obeys lamp (selectAux : Act Bench β τ Error Unit) bench s fun r bench' s' =>
      r = .ok () ∧ bench' = { bench with holdsSelect := false, userPin := .aux } ∧ s' = s := by
  refine .bind (dropSelect_lamp.mono fun r bench' s' hDropped => ?_)
  obtain ⟨rfl, rfl, rfl⟩ := hDropped
  exact .modifyOwn ⟨rfl, rfl, rfl⟩

omit [Terminal τ] in
/-- A refused claim of chip select changes nothing. -/
theorem selectCs_lamp :
    Obeys lamp (selectCs : Act Bench β τ Error Unit) bench s fun r bench' s' => s' = s ∧
      bench' = if r.isOk then
        { bench with
          holdsSelect := bench.holdsSelect || !bench.capabilities.chipSelect
          userPin := .cs }
        else bench := by
  refine .bind (.own ?_)
  dsimp only
  split
  · next hClaim =>
    rw [Bool.and_eq_true_iff] at hClaim
    refine .bind (.ask fun answer => ⟨s, rfl, ?_⟩)
    cases answer with
    | ok _ =>
      refine .bind (.ofExcept (.bind (.modifyOwn (.modifyOwn ⟨rfl, ?_⟩))))
      simp [Except.isOk, Except.toBool, hClaim.1]
    | error reason => exact .throw ⟨rfl, rfl⟩
  · next hClaim =>
    refine .modifyOwn ⟨rfl, ?_⟩
    have hHeld : (bench.holdsSelect || !bench.capabilities.chipSelect) = bench.holdsSelect := by
      cases hSelect : bench.holdsSelect with
      | true => rfl
      | false => simpa [hSelect] using hClaim
    simp [Except.isOk, Except.toBool, hHeld]

section Any

variable {P : Bench → Prop}

theorem drivePin_dark (high : Bool) (message : String) :
    Stays lamp P s (drivePin high message : Act Bench β τ Error Unit) :=
  Stays.own_bind fun _ _ => (Stays.ask fun _ => rfl).bind fun _ => (Stays.ofExcept _).bind fun _ =>
    .dialogue _

theorem readPin_dark : Stays lamp P s (readPin : Act Bench β τ Error Unit) := by
  refine Stays.own_bind fun _ _ => (Stays.ask fun _ => rfl).bind fun _ => ?_
  refine (Stays.ofExcept _).bind fun _ => (Stays.ask fun _ => rfl).bind fun _ => ?_
  exact (Stays.ofExcept _).bind fun _ => .dialogue _

theorem showVoltage_dark : Stays lamp P s (showVoltage : Act Bench β τ Error Unit) :=
  (Stays.ask fun _ => rfl).bind fun _ => .dialogue _

theorem runVoltmeter_dark : Stays lamp P s (runVoltmeter : Act Bench β τ Error Unit) := by
  have hRound : ∀ u, Stays lamp P s (voltmeterRound u : Act Bench β τ Error (Unit ⊕ Unit)) := by
    intro u
    refine (Stays.dialogue _).bind fun key => ?_
    cases key with
    | some key => exact .pure _
    | none => exact showVoltage_dark.bind fun _ => (Stays.tell fun _ => rfl).bind fun _ => .pure _
  refine (Stays.dialogue _).bind fun _ => ?_
  exact (Stays.askUntil hRound ()).bind fun _ => .dialogue _

theorem showPins_dark : Stays lamp P s (showPins : Act Bench β τ Error Unit) := by
  refine Stays.own_bind fun bench _ => ?_
  refine (Stays.dialogue _).bind fun _ => (Stays.dialogue _).bind fun _ => ?_
  refine (Stays.dialogue _).bind fun _ => (Stays.dialogue _).bind fun _ => ?_
  refine (Stays.dialogue _).bind fun _ => (Stays.forM _ fun probe => ?_).bind fun _ => .dialogue _
  exact (Stays.ask fun _ => rfl).bind fun _ => .dialogue _

theorem setPower_dark (on : Bool) : Stays lamp P s (setPower on : Act Bench β τ Error Unit) :=
  (Stays.tell fun _ => rfl).bind fun _ => .dialogue _

theorem setPullups_dark (on : Bool) :
    Stays lamp P s (setPullups on : Act Bench β τ Error Unit) := by
  refine Stays.own_bind fun bench _ => Stays.ite (.dialogue _) ?_
  refine (Stays.tell fun _ => rfl).bind fun _ => Stays.ite ?_ (.dialogue _)
  refine (Stays.dialogue _).bind fun _ => (Stays.ask fun _ => rfl).bind fun _ => ?_
  exact Stays.ite (.dialogue _) (.pure _)

theorem convert_dark (text : List Char) (change : Nat → Nat) :
    Stays lamp P s (convert text change : Act Bench β τ Error Unit) := by
  refine (readLiteral_dark text).bind fun number? => ?_
  cases number? with
  | none => exact .dialogue _
  | some n => exact .dialogue _

theorem runSequence_dark (line : List Char) :
    Stays lamp P s (runSequence line : Act Bench β τ Error Unit) := by
  unfold runSequence
  split
  · exact .throw _
  · exact .pure _
  · exact Stays.own_bind fun bench _ => bench.mode.run_dark _

end Any

/-- A macro leaves the mode what it is. -/
theorem runShortcutLine_dark (line : List Char) (standing : Standing) :
    Stays lamp (fun bench => bench.standing s = standing) s
      (runShortcutLine line : Act Bench β τ Error Unit) := by
  refine (readLiteral_dark _).bind fun number? => ?_
  dsimp only
  cases number?.filter (· ≤ 0xFF) with
  | none => exact .dialogue _
  | some key =>
    intro bench hStanding
    refine .bind (.own (.bind ((bench.mode.runShortcut_dark (UInt8.ofNat key)
      (P := (· = bench)) rfl).mono fun r bench' s' hRun => ?_)))
    obtain ⟨⟨rfl, rfl⟩, hMode⟩ := hRun
    rcases r with e | ⟨result, mode⟩
    · exact ⟨hStanding, rfl⟩
    · have hSame : standing = { bench' with mode }.standing s' := by
        rw [← hStanding, Bench.standing, Bench.standing, hMode result mode rfl]
      exact .bind (.modifyOwn (.ofExcept ⟨hSame.symm, rfl⟩))

/-- All other lines leave the mode, the pins of the user and the LED as they are. -/
theorem runCommand_dark {command : Char} (rest : List Char) (standing : Standing)
    (h : command ∉ ['c', 'C', 'm', '#', '$']) :
    Stays lamp (fun bench => bench.standing s = standing) s
      (runCommand (command :: rest) : Act Bench β τ Error Flow) := by
  simp only [List.mem_cons, List.not_mem_nil, or_false, not_or] at h
  obtain ⟨hAux, hSelect, hMode, hReset, hReset'⟩ := h
  have hContinue : ∀ {program : Act Bench β τ Error Unit},
      Stays lamp (fun bench => bench.standing s = standing) s program →
      Stays lamp (fun bench => bench.standing s = standing) s (andContinue program) :=
    fun h => h.bind fun _ => .pure _
  unfold runCommand
  dsimp only
  split
  case h_1 | h_3 => exact hContinue (.dialogue _)
  case h_2 => exact hContinue showVersion_dark
  case h_4 | h_5 => exact hContinue (convert_dark _ _)
  case h_6 | h_7 | h_13 | h_20 | h_21 => contradiction
  case h_8 | h_9 => exact hContinue (drivePin_dark _ _)
  case h_10 => exact hContinue readPin_dark
  case h_11 => exact hContinue showVoltage_dark
  case h_12 => exact hContinue runVoltmeter_dark
  case h_14 | h_15 => exact hContinue (setPower_dark _)
  case h_16 => exact hContinue showPins_dark
  case h_17 | h_18 => exact hContinue (setPullups_dark _)
  case h_19 => exact hContinue (runShortcutLine_dark _ _)
  case h_22 => exact hContinue (runSequence_dark _)

end Bench

end BusBench
