import BusBench.Proofs.Twins.Bench

/-!
# Commands on two boards

* `Bench.changeMode_keeps`, `Bench.softReset_keeps`: commands that leave a mode.
* `Bench.runCommand_keeps`: every line that is typed.
-/

namespace BusBench.Bench

open Simulated (State)
open Twins (At Grows Keeps Matches Tie)

variable {τ : Type} [Terminal τ] {O : Tie Bench}

/-! ## Looking at the bench -/

theorem Steady.twin (opened : Bool) (bench bench' : Bench) (h : Steady opened bench bench') :
    bench.Twin bench' :=
  h.2

theorem showVersion_keeps
    (hTwin : ∀ opened bench bench', O opened bench bench' → bench.Twin bench') :
    Keeps O (showVersion : Act Bench State τ Error Unit) showVersion := by
  refine .bind .board fun board => .bind (.dialogue _) fun _ => .bind (.dialogue _) fun _ =>
    own_keeps hTwin fun bench bench' hSame => ?_
  rw [hSame.mode.kind]
  exact .dialogue _

/-- The mode is left for good, and the prompt begins anew. -/
theorem softReset_keeps : Keeps Steady (softReset : Act Bench State τ Error Unit) softReset := by
  refine Matches.bind releaseMode_matches (fun _ => ?_) fun _ => Steady.of_rested
  refine Steady.matches_of_rested ?_
  refine .bind (Matches.modifyOwn fun opened bench bench' h => ?_) fun _ =>
    .bind (.tell trivial) fun _ => showVersion_keeps fun _ _ _ h => h.2.2
  exact ⟨h.1, h.2.1, h.2.2.mode, h.2.2.capabilities, h.2.2.holdsSelect, rfl⟩

omit [Terminal τ] in
theorem readLiteral_keeps (text : List Char) :
    Keeps O (readLiteral text : Act Bench State τ Error _) (readLiteral text) := by
  unfold readLiteral
  rcases Text.Literal.read text with (_ | _) | n
  · exact .pure _
  · exact .throw _
  · exact .pure _

theorem convert_keeps (text : List Char) (change : Nat → Nat) :
    Keeps O (convert text change : Act Bench State τ Error Unit) (convert text change) := by
  refine .bind (readLiteral_keeps text) fun n? => ?_
  cases n? with
  | none => exact .dialogue _
  | some n => exact .dialogue _

/-! ## Pins and voltages -/

omit [Terminal τ] in
theorem selectAux_keeps : Keeps Steady (selectAux : Act Bench State τ Error Unit) selectAux := by
  refine .bind (dropSelect_keeps Steady.twin fun _ _ _ h => ?_) fun _ =>
    Matches.modifyOwn fun _ _ _ h => ?_
  · exact ⟨h.1, h.2.mode, h.2.capabilities, rfl, h.2.userPin⟩
  · exact ⟨h.1, h.2.mode, h.2.capabilities, h.2.holdsSelect, rfl⟩

omit [Terminal τ] in
theorem selectCs_keeps : Keeps Steady (selectCs : Act Bench State τ Error Unit) selectCs := by
  refine own_keeps Steady.twin fun bench bench' hSame => ?_
  rw [hSame.capabilities, hSame.holdsSelect]
  have hPick : Keeps Steady
      (Act.modifyOwn fun bench => { bench with userPin := .cs } : Act Bench State τ Error Unit)
      (Act.modifyOwn fun bench => { bench with userPin := .cs }) :=
    Matches.modifyOwn fun _ _ _ h => ⟨h.1, h.2.mode, h.2.capabilities, h.2.holdsSelect, rfl⟩
  refine .ite (fun _ => ?_) fun _ => hPick
  exact .bind (.ask rfl) fun _ => .bind (.ofExcept _) fun _ =>
    .bind (Matches.modifyOwn fun _ _ _ h => ⟨h.1, h.2.mode, h.2.capabilities, rfl, h.2.userPin⟩)
      fun _ => hPick

theorem drivePin_keeps (high : Bool) (message : String) :
    Keeps Steady (drivePin high message : Act Bench State τ Error Unit) (drivePin high message) := by
  refine own_keeps Steady.twin fun bench bench' hSame => ?_
  rw [hSame.drivenPin]
  exact .bind (.ask bench.drivenPin_user) fun _ => .bind (.ofExcept _) fun _ => .dialogue _

theorem readPin_keeps : Keeps Steady (readPin : Act Bench State τ Error Unit) readPin := by
  refine own_keeps Steady.twin fun bench bench' hSame => ?_
  rw [hSame.drivenPin]
  exact .bind (.ask bench.drivenPin_user) fun _ => .bind (.ofExcept _) fun _ =>
    .bind (.ask bench.drivenPin_user) fun _ => .bind (.ofExcept _) fun _ => .dialogue _

theorem showVoltage_keeps : Keeps O (showVoltage : Act Bench State τ Error Unit) showVoltage :=
  .bind (.ask trivial) fun _ => .dialogue _

theorem voltmeterRound_keeps :
    Keeps O (voltmeterRound () : Act Bench State τ Error (Unit ⊕ Unit)) (voltmeterRound ()) := by
  refine .bind (.dialogue _) fun key? => ?_
  cases key? with
  | none => exact .bind showVoltage_keeps fun _ => .bind (.tell trivial) fun _ => .pure _
  | some key => exact .pure _

theorem runVoltmeter_keeps : Keeps O (runVoltmeter : Act Bench State τ Error Unit) runVoltmeter :=
  .bind (.dialogue _) fun _ => .bind (.askUntil (fun _ => voltmeterRound_keeps) _) fun _ =>
    .dialogue _

theorem showPins_keeps : Keeps Steady (showPins : Act Bench State τ Error Unit) showPins := by
  refine own_keeps Steady.twin fun bench bench' hSame => ?_
  rw [hSame.mode.kind, hSame.capabilities]
  exact .bind (.dialogue _) fun _ => .bind (.dialogue _) fun _ => .bind (.dialogue _) fun _ =>
    .bind (.dialogue _) fun _ => .bind (.dialogue _) fun _ =>
      .bind (.forM _ fun _ => .bind (.ask trivial) fun _ => .dialogue _) fun _ => .dialogue _

theorem setPower_keeps (on : Bool) :
    Keeps O (setPower on : Act Bench State τ Error Unit) (setPower on) :=
  .bind (.tell trivial) fun _ => .dialogue _

theorem setPullups_keeps (on : Bool) :
    Keeps Steady (setPullups on : Act Bench State τ Error Unit) (setPullups on) := by
  refine own_keeps Steady.twin fun bench bench' hSame => ?_
  rw [hSame.capabilities]
  refine .ite (fun _ => .dialogue _) fun _ => .bind (.tell trivial) fun _ => .ite (fun _ => ?_)
    fun _ => .dialogue _
  exact .bind (.dialogue _) fun _ => .bind (.ask trivial) fun _ => .ite (fun _ => .dialogue _)
    fun _ => .pure _

/-! ## Modes -/

theorem enterMode_matches (kind : ModeKind) :
    Matches (At false Rested) (enterMode kind : Act Bench State τ Error Flow) (enterMode kind) Eq
      fun _ => Steady := by
  refine .bind_related (Matches.covers_related Mode.covers_twin)
    (P := fun r => match r with
      | .ok r => At (Mode.isSpi r) Rested
      | .error _ => Steady)
    (.attempt (Mode.enter_matches kind)) (fun r r' h => ?_) fun _ _ _ _ => id
  cases h with
  | @ok mode mode' h =>
    refine .bind (P := fun _ => Steady) (.modifyOwn fun opened bench bench' hTie => ?_) (fun _ => ?_)
      fun _ _ _ _ => id
    · exact ⟨hTie.1, h, rfl, hTie.2.2.holdsSelect, hTie.2.2.userPin⟩
    · exact Keeps.ite (fun _ => .bind (.dialogue _) fun _ => .pure _) fun _ => .pure _
  | error e =>
    cases e with
    | modeSwitch => exact .pure rfl Steady.of_rested
    | link | splitCharacter => exact .throw Steady.of_rested
    | _ => exact Steady.matches_of_rested (.bind (.dialogue _) fun _ => .pure _)

omit [Terminal τ] in
theorem showModeLed_keeps :
    Keeps Steady (showModeLed : Act Bench State τ Error Unit) showModeLed := by
  refine own_keeps Steady.twin fun bench bench' hSame => ?_
  rw [hSame.mode.kind]
  exact .tell trivial

theorem switchMode_keeps (selection : List Char) :
    Keeps Steady (switchMode selection : Act Bench State τ Error Flow) (switchMode selection) := by
  refine Matches.bind releaseMode_matches (fun _ => ?_) fun _ => Steady.of_rested
  refine .bind (readLiteral_keeps _) (fun number => ?_) fun _ => Steady.of_rested
  dsimp only
  cases ModeKind.ofNumber? (number.getD 1) with
  | none =>
    refine .bind (Keeps.dialogue _) (fun _ => ?_) fun _ => Steady.of_rested
    exact Steady.matches_of_steady (.bind (.pure _) fun flow => .bind showModeLed_keeps fun _ =>
      .pure flow)
  | some kind =>
    refine .bind (enterMode_matches kind) (fun flow => ?_) fun _ _ _ _ => id
    exact Keeps.bind showModeLed_keeps fun _ => .pure flow

theorem changeMode_keeps (args : List Char) :
    Keeps Steady (changeMode args : Act Bench State τ Error Flow) (changeMode args) := by
  refine .bind (.dialogue _) fun selection? => ?_
  cases selection? with
  | none => exact .pure _
  | some selection => exact switchMode_keeps selection

/-! ## Commands -/

omit [Terminal τ] in
theorem grows_keepMode (result : Except Error Unit) (mode : Mode) :
    Grows (keepMode result mode : Act Bench State τ Error Unit) :=
  Grows.bind (fun _ => List.suffix_rfl) fun _ => .ofExcept result

/-- A macro may change what belongs to the mode, but not the mode. -/
theorem runShortcutLine_keeps (line : List Char) :
    Keeps Steady (runShortcutLine line : Act Bench State τ Error Unit) (runShortcutLine line) := by
  refine .bind (readLiteral_keeps _) fun number? => ?_
  cases number?.filter (· ≤ 0xFF) with
  | none => exact .dialogue _
  | some key =>
    refine Matches.bind_related covers_twin (.own Steady.twin) (fun bench bench' hSame => ?_)
      fun _ _ _ _ => And.left
    refine .bind_of_grows (Mode.runShortcut_matches hSame.mode (UInt8.ofNat key))
      (fun a => grows_keepMode a.1 a.2) (fun a => grows_keepMode a.1 a.2) (fun a a' h => ?_)
      fun _ _ _ _ => And.left
    obtain ⟨result, mode⟩ := a
    obtain ⟨result', mode'⟩ := a'
    obtain ⟨hResult, hMode, hSelect⟩ := h
    obtain rfl : result = result' := hResult
    refine .bind (P := fun _ => Steady) (.modifyOwn fun opened x x' hTie => ?_)
      (fun _ => Keeps.ofExcept result) fun _ _ _ _ => id
    obtain ⟨⟨hOpened, hTwin⟩, hOwn⟩ := hTie
    cases hOwn
    exact ⟨hOpened.trans hSelect.symm, hMode, hTwin.capabilities, hTwin.holdsSelect,
      hTwin.userPin⟩

theorem askReset_keeps : Keeps Steady (askReset : Act Bench State τ Error Flow) askReset := by
  refine .bind (.dialogue _) fun answer => ?_
  cases answer with
  | modeSwitch => exact .pure _
  | text answer => exact .ite (fun _ => .bind softReset_keeps fun _ => .pure _) fun _ => .pure _

theorem runSequence_keeps (line : List Char) :
    Keeps Steady (runSequence line : Act Bench State τ Error Unit) (runSequence line) := by
  unfold runSequence
  rcases Sequence.parse line with e | _ | ⟨action, actions⟩
  · exact .throw _
  · exact .pure _
  · exact own_keeps Steady.twin fun bench bench' hSame => Mode.run_keeps hSame.mode _

omit [Terminal τ] in
theorem andContinue_keeps {command command' : Act Bench State τ Error Unit}
    (h : Keeps O command command') : Keeps O (andContinue command) (andContinue command') :=
  .bind h fun _ => .pure _

theorem runCommand_keeps (line : List Char) :
    Keeps Steady (runCommand line : Act Bench State τ Error Flow) (runCommand line) := by
  cases line with
  | nil => exact .pure _
  | cons command rest =>
    unfold runCommand
    dsimp only
    split
    case h_1 => exact andContinue_keeps (.dialogue _)
    case h_2 => exact andContinue_keeps (showVersion_keeps Steady.twin)
    case h_3 => exact andContinue_keeps (.dialogue _)
    case h_4 | h_5 => exact andContinue_keeps (convert_keeps _ _)
    case h_6 => exact andContinue_keeps selectAux_keeps
    case h_7 => exact andContinue_keeps selectCs_keeps
    case h_8 | h_9 => exact andContinue_keeps (drivePin_keeps _ _)
    case h_10 => exact andContinue_keeps readPin_keeps
    case h_11 => exact andContinue_keeps showVoltage_keeps
    case h_12 => exact andContinue_keeps runVoltmeter_keeps
    case h_13 => exact changeMode_keeps _
    case h_14 | h_15 => exact andContinue_keeps (setPower_keeps _)
    case h_16 => exact andContinue_keeps showPins_keeps
    case h_17 | h_18 => exact andContinue_keeps (setPullups_keeps _)
    case h_19 => exact andContinue_keeps (runShortcutLine_keeps _)
    case h_20 | h_21 => exact askReset_keeps
    case h_22 => exact andContinue_keeps (runSequence_keeps _)

end BusBench.Bench
