import BusBench.BitBang.Scripted
import BusBench.Proofs.BitBang.Runs

/-!
# Operations on scripted pins

An operation on scripted pins is done and noted in their trace, or it fails and its failure is noted
there. Pins whose script holds no failures any more are faultless, and stay so.

* `Scripted.Faultless`: no operation still to come fails.
* `Scripted.Operated`: the two ways in which an operation can end.
-/

namespace BusBench.BitBang.Scripted

open Drive (Runs)

variable {L α : Type} {pins : Scripted L}

/-! ## Counting -/

theorem runs_count (h : pins.operations + 1 ∉ pins.failing) (line : L) :
    Runs (count line) pins (.ok ()) { pins with operations := pins.operations + 1 } := by
  have hPasses : pins.failing.contains (pins.operations + 1) = false :=
    eq_false_of_ne_true fun hFails => h (List.contains_iff_mem.mp hFails)
  refine Runs.bind (a := ()) rfl
    (Runs.bind (a := { pins with operations := pins.operations + 1 }) rfl ?_)
  rw [if_neg (by rw [hPasses]; exact Bool.false_ne_true)]
  exact Runs.pure ()

theorem runs_count_failing (h : pins.operations + 1 ∈ pins.failing) (line : L) :
    Runs (count line) pins (.error .pin)
      { pins with operations := pins.operations + 1, trace := .failed line :: pins.trace } := by
  refine Runs.bind (a := ()) rfl
    (Runs.bind (a := { pins with operations := pins.operations + 1 }) rfl ?_)
  rw [if_pos (List.contains_iff_mem.mpr h)]
  exact rfl

/-! ## Pins without faults -/

/-- No operation still to come fails, and every sample is a prepared level. -/
structure Faultless (pins : Scripted L) : Prop where
  working : ∀ n ∈ pins.failing, n ≤ pins.operations
  unlooped : pins.looped? = none

/-- The pins when a line has been driven. -/
def driven (line : L) (high : Bool) (pins : Scripted L) : Scripted L :=
  { pins with operations := pins.operations + 1, trace := .drove line high :: pins.trace }

/-- The pins when a line has shown a level, and others are left. -/
def sampled (line : L) (level : Bool) (rest : List Bool) (pins : Scripted L) : Scripted L :=
  { pins with
    operations := pins.operations + 1
    levels := rest
    trace := .sampled line level :: pins.trace }

/-- The pins when some time has passed. -/
def waited (us : Nat) (pins : Scripted L) : Scripted L :=
  { pins with trace := .waited us :: pins.trace }

namespace Faultless

theorem driven (h : pins.Faultless) (line : L) (high : Bool) : (pins.driven line high).Faultless :=
  ⟨fun n hn => Nat.le_succ_of_le (h.working n hn), h.unlooped⟩

theorem sampled (h : pins.Faultless) (line : L) (level : Bool) (rest : List Bool) :
    (pins.sampled line level rest).Faultless :=
  ⟨fun n hn => Nat.le_succ_of_le (h.working n hn), h.unlooped⟩

theorem waited (h : pins.Faultless) (us : Nat) : (pins.waited us).Faultless :=
  ⟨h.working, h.unlooped⟩

theorem next_notMem (h : pins.Faultless) : pins.operations + 1 ∉ pins.failing := fun hFails =>
  absurd (h.working _ hFails) (Nat.not_succ_le_self _)

theorem runs_count (h : pins.Faultless) (line : L) :
    Runs (count line) pins (.ok ()) { pins with operations := pins.operations + 1 } :=
  Scripted.runs_count h.next_notMem line

variable [DecidableEq L]

theorem runs_drive (h : pins.Faultless) (line : L) (high : Bool) :
    Runs (Gpio.drive line high) pins (.ok ()) (pins.driven line high) := by
  refine Runs.bind (h.runs_count line) (congrArg (Except.ok (), ·) ?_)
  simp [Scripted.driven, h.unlooped]

theorem runs_sample (h : pins.Faultless) (line : L) {level : Bool} {rest : List Bool}
    (hLevels : pins.levels = level :: rest) :
    Runs (Gpio.sample line) pins (.ok level) (pins.sampled line level rest) := by
  refine Runs.bind (h.runs_count line) ?_
  obtain ⟨levels, failing, operations, looped?, loopLevel, trace⟩ := pins
  obtain rfl : looped? = none := h.unlooped
  obtain rfl : levels = level :: rest := hLevels
  rfl

end Faultless

theorem runs_wait [DecidableEq L] (us : Nat) :
    Runs (Gpio.wait us) pins (.ok ()) (pins.waited us) :=
  rfl

/-! ## Pins that may fail -/

/-- How an operation on a line ends: an event that goes with the answer is noted, or the failure. -/
inductive Operated (line : L) (event : α → PinEvent L) (pins : Scripted L) :
    Except BitError α → Scripted L → Prop where
  | done {after : Scripted L} (a : α) (noted : after.trace = event a :: pins.trace)
      (faultless : pins.Faultless → after.Faultless) : Operated line event pins (.ok a) after
  | failed {after : Scripted L} (noted : after.trace = .failed line :: pins.trace)
      (faulty : ¬ pins.Faultless) : Operated line event pins (.error .pin) after

section
variable [DecidableEq L]

theorem operated_drive (line : L) (high : Bool) (pins : Scripted L) :
    ∃ result after, Runs (Gpio.drive line high) pins result after ∧
      Operated line (fun _ => .drove line high) pins result after := by
  by_cases hFails : pins.operations + 1 ∈ pins.failing
  · exact ⟨_, _, Runs.bind_error (runs_count_failing hFails line),
      .failed rfl fun h => h.next_notMem hFails⟩
  · exact ⟨_, _, Runs.bind (runs_count hFails line) rfl,
      .done () rfl fun h => ⟨fun n hn => Nat.le_succ_of_le (h.working n hn), h.unlooped⟩⟩

theorem operated_sample (line : L) (pins : Scripted L) :
    ∃ result after, Runs (Gpio.sample line) pins result after ∧
      Operated line (.sampled line) pins result after := by
  by_cases hFails : pins.operations + 1 ∈ pins.failing
  · exact ⟨_, _, Runs.bind_error (runs_count_failing hFails line),
      .failed rfl fun h => h.next_notMem hFails⟩
  · exact ⟨_, _, Runs.bind (runs_count hFails line) rfl,
      .done _ rfl fun h => ⟨fun n hn => Nat.le_succ_of_le (h.working n hn), h.unlooped⟩⟩

end

end BusBench.BitBang.Scripted
