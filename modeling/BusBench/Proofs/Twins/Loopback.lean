import BusBench.Board.Simulated
import BusBench.Proofs.BitBang.SpiBits

/-!
# Transfers over a loop

On the simulated board MISO follows MOSI, so that a byte which is clocked out comes back as it was,
in every clock mode. All that is left behind are the levels of CLK and MOSI.

* `Simulated.Moved`: what a transfer leaves behind.
* `Simulated.softSpi_transfer`: a transfer answers what was sent.
-/

namespace BusBench.Simulated

open BitBang (Drive)
open BitBang.Drive (Runs)
open BitBang.Spi (Exchanges)
open BusBench.Spi (Mode)

/-! ## Levels -/

theorem lookup_cons_eq (driven : List (Pin × Bool)) (p p' : Pin) (high : Bool) :
    ((p, high) :: driven).lookup p' = if p' = p then some high else driven.lookup p' := by
  rw [List.lookup_cons]
  by_cases hSame : p' = p
  · rw [if_pos hSame, hSame, beq_self_eq_true]
  · rw [if_neg hSame, beq_false_of_ne hSame]

theorem lookup_filter_ne (driven : List (Pin × Bool)) (p p' : Pin) :
    (driven.filter (·.1 != p)).lookup p' = if p' = p then none else driven.lookup p' := by
  induction driven with
  | nil => exact (ite_self _).symm
  | cons entry driven ih =>
    obtain ⟨pin, high⟩ := entry
    by_cases hPin : pin = p
    · rw [List.filter_cons_of_neg (by simpa using hPin), ih, lookup_cons_eq, hPin]
      by_cases hSame : p' = p
      · rw [if_pos hSame, if_pos hSame]
      · rw [if_neg hSame, if_neg hSame, if_neg hSame]
    · rw [List.filter_cons_of_pos (by simpa using hPin), lookup_cons_eq, lookup_cons_eq, ih]
      by_cases hSame : p' = p
      · rw [if_pos hSame, if_pos hSame, if_neg (hSame ▸ Ne.symm hPin)]
      · rw [if_neg hSame, if_neg hSame]

theorem lookup_drive (p p' : Pin) (high : Bool) (s : State) :
    (drive p high s).driven.lookup p' = if p' = p then some high else s.driven.lookup p' := by
  rw [drive, lookup_cons_eq, lookup_filter_ne]
  by_cases hSame : p' = p
  · rw [if_pos hSame, if_pos hSame]
  · rw [if_neg hSame, if_neg hSame, if_neg hSame]

theorem lookup_undrive (p p' : Pin) (s : State) :
    (undrive p s).driven.lookup p' = if p' = p then none else s.driven.lookup p' :=
  lookup_filter_ne _ _ _

/-- Nothing has changed but the levels of CLK and MOSI. -/
structure Moved (s s' : State) : Prop where
  lookup : ∀ p, p ≠ .clk → p ≠ .mosi → s'.driven.lookup p = s.driven.lookup p
  rest : s' = { s with driven := s'.driven }

namespace Moved

theorem refl (s : State) : Moved s s :=
  ⟨fun _ _ _ => rfl, rfl⟩

theorem trans {s s' s'' : State} (h : Moved s s') (h' : Moved s' s'') : Moved s s'' where
  lookup p hClock hData := (h'.lookup p hClock hData).trans (h.lookup p hClock hData)
  rest := by rw [h'.rest, h.rest]

theorem clock (high : Bool) (s : State) : Moved s (drive .clk high s) :=
  ⟨fun p hClock _ => by rw [lookup_drive, if_neg hClock], rfl⟩

theorem data (high : Bool) (s : State) : Moved s (drive .mosi high s) :=
  ⟨fun p _ hData => by rw [lookup_drive, if_neg hData], rfl⟩

theorem miso {s s' : State} (h : Moved s s') (hFree : s.driven.lookup Pin.miso = none) :
    s'.driven.lookup Pin.miso = none :=
  (h.lookup .miso (by decide) (by decide)).trans hFree

end Moved

/-! ## Transfers -/

variable {s : State} (mode : Mode) (half : Nat)

/-- MISO follows MOSI, whatever happens to the clock meanwhile. -/
theorem level_miso (bit high : Bool) (hFree : s.driven.lookup Pin.miso = none) :
    level .miso (drive .clk high (drive .mosi bit s)) = bit := by
  simp [level, lookup_drive, hFree]

theorem level_miso_clocked (bit high high' : Bool) (hFree : s.driven.lookup Pin.miso = none) :
    level .miso (drive .clk high' (drive .mosi bit (drive .clk high s))) = bit :=
  level_miso bit high' ((Moved.clock high s).miso hFree)

theorem runs_transferBit (bit : Bool) (hFree : s.driven.lookup Pin.miso = none) :
    ∃ s', Runs (BitBang.Spi.transferBit mode half bit) s (.ok bit) s' ∧ Moved s s' := by
  obtain ⟨idle, _ | _⟩ := mode
  · -- first phase: the data is there before the clock moves
    let active := true != (idle = .high : Bool)
    let rested := false != (idle = .high : Bool)
    refine ⟨drive .clk rested (drive .clk active (drive .mosi bit s)), ?_,
      ((Moved.data bit s).trans (.clock _ _)).trans (.clock _ _)⟩
    have hSampled := level_miso bit active hFree
    refine Runs.bind (a := ()) rfl (Runs.bind (a := ()) rfl (Runs.bind (a := ()) rfl
      (Runs.bind (a := bit) ?_ (Runs.bind (a := ()) rfl (Runs.bind (a := ()) rfl rfl)))))
    exact congrArg (fun level => (Except.ok level, _)) hSampled
  · let active := true != (idle = .high : Bool)
    let rested := false != (idle = .high : Bool)
    refine ⟨drive .clk rested (drive .mosi bit (drive .clk active s)), ?_,
      ((Moved.clock active s).trans (.data _ _)).trans (.clock _ _)⟩
    have hSampled := level_miso_clocked bit active rested hFree
    refine Runs.bind (a := ()) rfl (Runs.bind (a := ()) rfl (Runs.bind (a := ()) rfl
      (Runs.bind (a := ()) rfl (Runs.bind (a := bit) ?_ (Runs.bind (a := ()) rfl rfl)))))
    exact congrArg (fun level => (Except.ok level, _)) hSampled

/-- Whatever bits go out, the same bits come in. -/
theorem exchanges_bits (bits : List Bool) (hFree : s.driven.lookup Pin.miso = none) :
    ∃ s', Exchanges mode half s bits bits s' ∧ Moved s s' := by
  induction bits generalizing s with
  | nil => exact ⟨s, .nil s, .refl s⟩
  | cons bit bits ih =>
    obtain ⟨s', hBit, hMoved⟩ := runs_transferBit mode half bit hFree
    obtain ⟨s'', hBits, hMoved'⟩ := ih (hMoved.miso hFree)
    exact ⟨s'', .cons hBit hBits, hMoved.trans hMoved'⟩

theorem runs_transfer (bytes : List UInt8) (hFree : s.driven.lookup Pin.miso = none) :
    ∃ s', Runs (BitBang.Spi.transfer mode half bytes) s (.ok bytes) s' ∧ Moved s s' := by
  obtain ⟨s', hBits, hMoved⟩ := exchanges_bits mode half (bytes.flatMap Byte.bits) hFree
  exact ⟨s', hBits.runs_same, hMoved⟩

theorem filled_length (bytes : List UInt8) :
    Bytes.filled bytes.length 0 bytes = ⟨bytes, rfl⟩ := by
  apply Subtype.ext
  simp [Bytes.filled]

/-- What is sent comes back. -/
theorem softSpi_transfer (bytes : List UInt8) (hFree : s.driven.lookup Pin.miso = none) :
    ∃ s', softSpi (.transfer bytes) s = (.ok ⟨bytes, rfl⟩, s') ∧ Moved s s' := by
  obtain ⟨s', hRun, hMoved⟩ := runs_transfer s.softSpi.mode s.softSpi.half bytes hFree
  refine ⟨s', ?_, hMoved⟩
  have hTransfer : (BitBang.Spi.transfer s.softSpi.mode s.softSpi.half bytes : Drive State _).onBus s =
      (.ok bytes, s') := by
    unfold Drive.onBus
    rw [hRun]
    rfl
  simp only [softSpi, hTransfer, Except.map, filled_length]

/-- The clock is parked. -/
theorem softSpi_configure (config : BusBench.Spi.Config) (s : State) :
    ∃ s' controller, softSpi (.configure config) s = (.ok (), s') ∧
      controller.locked = s.softSpi.locked ∧ Moved { s with softSpi := controller } s' := by
  let controller : BitBang.SpiController :=
    { s.softSpi with mode := config.mode, half := BitBang.halfPeriod config.speed.hz }
  exact ⟨_, controller, rfl, rfl, .clock _ _⟩

end BusBench.Simulated
