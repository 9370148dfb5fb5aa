import BusBench.Proofs.Prompt.Deeds

/-!
# The LED tells the mode

A change of the mode leaves the old mode first and switches the LED last, so where it fails on the
way the LED is left as it was. At all other times the LED is lit in every mode but HiZ.

* `toldMode`: the mode of which the LED was told last.
* `isLagging`: a change of the mode has failed, and nothing has corrected the LED since.
* `Bench.modeLed_tells_mode`: what the LED shows.
-/

namespace BusBench

namespace Deed

/-- The deed ends in a mode that may be another one than before. -/
def movesMode : Deed → Bool
  | changeMode .. | reset | session _ => true
  | _ => false

/-- The LED was told of the mode in which the deed ended. -/
def tellsMode : Deed → Bool
  | changeMode _ failed => !failed
  | reset | session _ => true
  | _ => false

end Deed

/-- The mode of which the LED was told last, by deeds of which the newest stands first. -/
def toldMode (deeds : List Deed) : ModeKind :=
  match deeds.find? Deed.tellsMode with
  | some (.changeMode mode _) => mode
  | _ => .hiz

/-- The latest change of the mode has failed before the LED was told. -/
def isLagging (deeds : List Deed) : Bool :=
  match deeds.find? Deed.movesMode with
  | some (.changeMode _ failed) => failed
  | _ => false

theorem level_after (deeds : List Deed) :
    (deeds.foldr Deed.apply .initial).level = some (decide (toldMode deeds ≠ .hiz)) := by
  induction deeds with
  | nil => rfl
  | cons deed deeds ih =>
    cases deed with
    | changeMode mode failed =>
      cases failed with
      | true => exact ih
      | false => rfl
    | reset | session => rfl
    | pickAux | pickSelect | other => exact ih

theorem mode_after {deeds : List Deed} (h : isLagging deeds = false) :
    (deeds.foldr Deed.apply .initial).mode = toldMode deeds := by
  induction deeds with
  | nil => rfl
  | cons deed deeds ih =>
    cases deed with
    | changeMode mode failed =>
      have hTold : failed = false := h
      subst hTold
      rfl
    | reset | session => rfl
    | pickAux | pickSelect | other => exact ih h

namespace Bench

variable {β : Type} {board : Board β} {deeds : List Deed} {bench : Bench} {state : β}
  {trace : List Exchange}

/-- The LED shows the mode of which it was told last, and this is the mode of the prompt unless the
latest change of the mode has failed after the old mode was left. -/
theorem modeLed_tells_mode (h : History board deeds bench state trace) :
    ledLevel? trace = some (decide (toldMode deeds ≠ .hiz)) ∧
      (isLagging deeds = false → toldMode deeds = bench.mode.kind) := by
  have hLevel := congrArg Standing.level h.standing
  have hMode := congrArg Standing.mode h.standing
  exact ⟨hLevel.trans (level_after deeds), fun hTold => (hMode.trans (mode_after hTold)).symm⟩

/-- Nobody answers the menu of another mode, so the 1-Wire mode is left and the LED stays lit. -/
theorem modeLed_tells_mode_unanswered :
    let board := Recording.board "fake" {}
    let entered := (runCommand "m 2".toList).after board (recorded {} {})
    let failed := (runCommand "m 4".toList).after board entered
    let deeds : List Deed := [.changeMode .hiz true, .changeMode .oneWire false]
    History board deeds failed.own failed.board (exchanges failed.events) ∧
      failed.own.mode.kind = .hiz ∧ isLagging deeds = true ∧
        ledLevel? (exchanges failed.events) = some true := by
  intro board entered failed deeds
  have hStart := history_recorded (s := {}) {} rfl
  have hEntered : commandDeed board "m 2".toList (recorded {} {}) = .changeMode .oneWire false := by
    decide +kernel
  have hFailed : commandDeed board "m 4".toList entered = .changeMode .hiz true := by
    decide +kernel
  have hHistory : History board deeds failed.own failed.board (exchanges failed.events) := by
    have hBoth := (hStart.command "m 2".toList rfl).command "m 4".toList rfl
    rw [hEntered, hFailed] at hBoth
    exact hBoth
  exact ⟨hHistory, by decide +kernel, rfl, (modeLed_tells_mode hHistory).1⟩

end Bench

end BusBench
