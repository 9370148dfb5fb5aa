import BusBench.Proofs.Terminals.Modes
import BusBench.Prompt.Command

/-!
# Commands on two terminals

A line comes to the same on two terminals that are in accord. Where the talk ends in the middle of
it because the host announced the binary protocol, the command says so, by a failure or by its
answer, and has undone what it had begun.

* `Accord.endsAfter`: the answers of commands after which the talk may be over.
* `Bench.Polls`: lines whose commands may wait for keys.
* `Bench.runCommand_accords`: every line that is typed.
-/

namespace BusBench

open Act (Keeps)

variable {τ τ' β : Type} {A : Accord τ τ'} {ended : Bool}

/-- Whether the talk may be over after a command with this answer. -/
def Accord.endsAfter (A : Accord τ τ') : Flow → Bool
  | .binary => A.ends .modeSwitch
  | .continue | .reset => false

namespace Bench

/-- Lines whose commands may wait for keys: the voltmeter, and the macros. -/
def Polls (line : List Char) : Prop :=
  line.head? = some 'D' ∨ line.head? = some '('

instance (line : List Char) : Decidable (Polls line) :=
  inferInstanceAs (Decidable (line.head? = some 'D' ∨ line.head? = some '('))

/-! ## Without a terminal -/

theorem dropSelect_accords :
    Act.Accords A ended (dropSelect : Act Bench β τ Error Unit) dropSelect fun _ => ended :=
  .bind .own fun _ => .ite (.bind (.tell _) fun _ => .modifyOwn _) (.pure rfl)

theorem releaseMode_accords :
    Act.Accords A ended (releaseMode : Act Bench β τ Error Unit) releaseMode fun _ => ended :=
  .bind .own fun bench => .bind (Mode.leave_accords bench.mode) fun _ => .bind (.modifyOwn _)
    fun _ => dropSelect_accords

theorem showModeLed_accords :
    Act.Accords A ended (showModeLed : Act Bench β τ Error Unit) showModeLed fun _ => ended :=
  .bind .own fun _ => .tell _

theorem readLiteral_keeps_on (text : List Char) :
    Keeps A (readLiteral text : Act Bench β τ Error (Option Nat)) (readLiteral text) := by
  unfold readLiteral
  split
  · exact .pure rfl
  · exact .pure rfl
  · exact .throw (A.ends_eq_false nofun nofun)

theorem selectAux_keeps_on : Keeps A (selectAux : Act Bench β τ Error Unit) selectAux :=
  .bind dropSelect_accords fun _ => .modifyOwn _

theorem selectCs_keeps_on : Keeps A (selectCs : Act Bench β τ Error Unit) selectCs :=
  .bind .own fun _ => .ite
    (.bind (.ask _) fun answer => .bind (.claimed answer) fun _ => .bind (.modifyOwn _) fun _ =>
      .modifyOwn _)
    (.modifyOwn _)

/-- A macro may have ended the talk. -/
theorem keepMode_accords (result : Except Error Unit) (mode : Mode) :
    Act.Accords A (A.isOver (fun _ => false) result)
      (keepMode result mode : Act Bench β τ Error Unit) (keepMode result mode) fun _ => false :=
  .bind (.modifyOwn _) fun _ => .ofExcept rfl

variable [Terminal τ] [Terminal τ']

section Bond

variable (h : A.Bond)

include h

/-! ## Pins, voltages and rails -/

theorem showVersion_keeps_on : Keeps A (showVersion : Act Bench β τ Error Unit) showVersion :=
  .bind .board fun _ => .bind (h.writeLine _) fun _ => .bind (h.writeLine _) fun _ =>
    .bind .own fun _ => h.writeLine _

theorem softReset_keeps_on : Keeps A (softReset : Act Bench β τ Error Unit) softReset :=
  .bind releaseMode_accords fun _ => .bind (.modifyOwn _) fun _ => .bind (.tell _) fun _ =>
    showVersion_keeps_on h

theorem convert_keeps_on (text : List Char) (change : Nat → Nat) :
    Keeps A (convert text change : Act Bench β τ Error Unit) (convert text change) := by
  refine .bind (readLiteral_keeps_on text) fun number? => ?_
  cases number? with
  | none => exact h.writeLine _
  | some n => exact h.writeLine _

theorem drivePin_keeps_on (high : Bool) (message : String) :
    Keeps A (drivePin high message : Act Bench β τ Error Unit) (drivePin high message) :=
  .bind .own fun _ => .bind (.ask _) fun answer => .bind (.done answer) fun _ => h.writeLine _

theorem readPin_keeps_on : Keeps A (readPin : Act Bench β τ Error Unit) readPin :=
  .bind .own fun _ => .bind (.ask _) fun answer => .bind (.done answer) fun _ =>
    .bind (.ask _) fun answer => .bind (.done answer) fun _ => h.writeLine _

theorem showVoltage_keeps_on : Keeps A (showVoltage : Act Bench β τ Error Unit) showVoltage :=
  .bind (.ask _) fun _ => h.writeLine _

omit h in
theorem voltmeterRound_keyed :
    Accord.Keyed (voltmeterRound : Unit → Act Bench β τ Error (Unit ⊕ Unit))
      (voltmeterRound : Unit → Act Bench β τ' Error (Unit ⊕ Unit)) := by
  refine ⟨_, _, fun _ => rfl, fun _ => rfl, fun hBond _ key? => ?_⟩
  cases key? with
  | some key => exact .pure rfl
  | none => exact .bind (showVoltage_keeps_on hBond) fun _ => .bind (.tell _) fun _ => .pure rfl

theorem runVoltmeter_keeps_on (hKeys : A.Keys) :
    Keeps A (runVoltmeter : Act Bench β τ Error Unit) runVoltmeter :=
  .bind (h.writeLine _) fun _ => .bind (hKeys.askUntil voltmeterRound_keyed ()) fun _ =>
    h.writeLine _

theorem showPins_keeps_on : Keeps A (showPins : Act Bench β τ Error Unit) showPins :=
  .bind .own fun _ => .bind (h.writeLine _) fun _ => .bind (h.writeLine _) fun _ =>
    .bind (h.writeLine _) fun _ => .bind (h.writeLine _) fun _ =>
      .bind (.dialogue (h.write _)) fun _ =>
        .bind (.forM _ fun _ => .bind (.ask _) fun _ => .dialogue (h.write _)) fun _ =>
          h.writeLine _

theorem setPower_keeps_on (on : Bool) :
    Keeps A (setPower on : Act Bench β τ Error Unit) (setPower on) :=
  .bind (.tell _) fun _ => h.writeLine _

theorem setPullups_keeps_on (on : Bool) :
    Keeps A (setPullups on : Act Bench β τ Error Unit) (setPullups on) :=
  .bind .own fun _ => .ite (h.writeLine _) (.bind (.tell _) fun _ => .ite
    (.bind (h.writeLine _) fun _ => .bind (.ask _) fun _ => .ite (h.writeLine _) (.pure rfl))
    (h.writeLine _))

/-! ## Modes -/

theorem askMode_accords (args : List Char) :
    Dialogue.Accords A false (askMode args) (askMode args)
      fun selection? => selection?.isNone && A.ends .modeSwitch := by
  unfold askMode
  split
  · refine .bind (.forM _ fun _ => h.write _) fun _ => .bind (h.readLine _) fun line => ?_
    cases line with
    | text answer => exact .pure rfl
    | modeSwitch => exact .pure rfl
  · exact .pure rfl

theorem enterMode_accords (kind : ModeKind) :
    Act.Accords A false (enterMode kind : Act Bench β τ Error Flow) (enterMode kind)
      A.endsAfter := by
  refine .bind (.attempt (Mode.enter_keeps_on h kind)) fun result => ?_
  have hFailed : ∀ e, e ≠ .modeSwitch → e ≠ .link →
      Act.Accords A (A.ends e)
        (do Act.writeLine "Mode failed"; return .continue : Act Bench β τ Error Flow)
        (do Act.writeLine "Mode failed"; return .continue) A.endsAfter := by
    intro e hSwitch hLink
    rw [A.ends_eq_false hSwitch hLink]
    exact .bind (h.writeLine _) fun _ => .pure rfl
  cases result with
  | ok mode =>
    exact .bind (.modifyOwn _) fun _ =>
      .ite (.bind (h.writeLine _) fun _ => .pure rfl) (.pure rfl)
  | error e =>
    cases e with
    | modeSwitch => exact .pure rfl
    | link => exact .throw rfl
    | splitCharacter => exact .throw rfl
    | unavailable reason => exact hFailed _ nofun nofun
    | bus reason => exact hFailed _ nofun nofun
    | aborted => exact hFailed _ nofun nofun

theorem switchMode_accords (selection : List Char) :
    Act.Accords A false (switchMode selection : Act Bench β τ Error Flow) (switchMode selection)
      A.endsAfter := by
  refine .bind releaseMode_accords fun _ => .bind (readLiteral_keeps_on _) fun number? => ?_
  have hLed : ∀ flow, Act.Accords A (A.endsAfter flow)
      (do showModeLed; return flow : Act Bench β τ Error Flow) (do showModeLed; return flow)
      A.endsAfter := fun flow => .bind showModeLed_accords fun _ => .pure rfl
  dsimp only
  cases ModeKind.ofNumber? (number?.getD 1) with
  | none => exact .bind (h.writeLine _) fun _ => .bind (.pure rfl) hLed
  | some kind => exact .bind (enterMode_accords h kind) hLed

theorem changeMode_accords (args : List Char) :
    Act.Accords A false (changeMode args : Act Bench β τ Error Flow) (changeMode args)
      A.endsAfter := by
  refine .bind (.dialogue (askMode_accords h args)) fun selection? => ?_
  cases selection? with
  | none => exact .pure rfl
  | some selection => exact switchMode_accords h selection

/-! ## Sequences, macros and resets -/

theorem runShortcutLine_keeps_on (hKeys : A.Keys) (line : List Char) :
    Keeps A (runShortcutLine line : Act Bench β τ Error Unit) (runShortcutLine line) := by
  refine .bind (readLiteral_keeps_on _) fun number? => ?_
  dsimp only
  cases number?.filter (· ≤ 0xFF) with
  | none => exact h.writeLine _
  | some key =>
    exact .bind .own fun bench => .bind (Mode.runShortcut_accords h hKeys bench.mode _)
      fun (result, mode) => keepMode_accords result mode

theorem askReset_accords :
    Act.Accords A false (askReset : Act Bench β τ Error Flow) askReset A.endsAfter := by
  refine .bind (.dialogue (h.readLine _)) fun line => ?_
  cases line with
  | modeSwitch => exact .pure rfl
  | text answer => exact .ite (.bind (softReset_keeps_on h) fun _ => .pure rfl) (.pure rfl)

theorem runSequence_keeps_on (line : List Char) :
    Keeps A (runSequence line : Act Bench β τ Error Unit) (runSequence line) := by
  unfold runSequence
  split
  · exact .throw (A.ends_eq_false nofun nofun)
  · exact .pure rfl
  · exact .bind .own fun bench => Mode.run_keeps_on h bench.mode _

/-! ## Lines -/

theorem runCommand_accords (line : List Char) (hKeys : Polls line → A.Keys) :
    Act.Accords A false (runCommand line : Act Bench β τ Error Flow) (runCommand line)
      A.endsAfter := by
  have hContinue : ∀ {command : Act Bench β τ Error Unit} {command' : Act Bench β τ' Error Unit},
      Keeps A command command' →
      Act.Accords A false (andContinue command) (andContinue command') A.endsAfter :=
    fun h => .bind h fun _ => .pure rfl
  unfold runCommand
  split
  · exact .pure rfl
  · dsimp only
    split
    case h_1 | h_3 => exact hContinue (h.writeLine _)
    case h_2 => exact hContinue (showVersion_keeps_on h)
    case h_4 | h_5 => exact hContinue (convert_keeps_on h _ _)
    case h_6 => exact hContinue selectAux_keeps_on
    case h_7 => exact hContinue selectCs_keeps_on
    case h_8 | h_9 => exact hContinue (drivePin_keeps_on h _ _)
    case h_10 => exact hContinue (readPin_keeps_on h)
    case h_11 => exact hContinue (showVoltage_keeps_on h)
    case h_12 => exact hContinue (runVoltmeter_keeps_on h (hKeys (.inl rfl)))
    case h_13 => exact changeMode_accords h _
    case h_14 | h_15 => exact hContinue (setPower_keeps_on h _)
    case h_16 => exact hContinue (showPins_keeps_on h)
    case h_17 | h_18 => exact hContinue (setPullups_keeps_on h _)
    case h_19 => exact hContinue (runShortcutLine_keeps_on h (hKeys (.inr rfl)) _)
    case h_20 | h_21 => exact askReset_accords h
    case h_22 => exact hContinue (runSequence_keeps_on h _)

end Bond

end Bench

end BusBench
