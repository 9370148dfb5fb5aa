import BusBench.Proofs.BitBang.Pins
import BusBench.Proofs.BitBang.SpiBits
import BusBench.Wire.Plain

/-!
# The waveform of SPI transfers

A logic analyser on the three lines of a bit-banged SPI controller sees one clock pulse for each bit
that goes out. Every sample is taken in its own pulse, on the leading or on the trailing edge as the
mode says, while MOSI carries the bit and has been left alone since before that edge.

* `Spi.analyse`: what the analyser makes of a trace of the pins.
* `Spi.waveform`: what one bit looks like.
* `Spi.transfer_waveform`: what a transfer looks like, and what it answers.
-/

namespace BusBench.BitBang

open BusBench.Spi (Mode)
open Drive (Runs)

namespace Spi

/-! ## The logic analyser -/

/-- Something that a logic analyser notes. -/
inductive Sight where
  /-- The clock moved to a level. -/
  | edge (high : Bool)
  /-- A level of MISO was sampled while MOSI carried another; MOSI is steady if it has not been
  driven since before the clock moved last. -/
  | sample (mosi? : Option Bool) (steady : Bool) (miso : Bool)
  deriving DecidableEq, Repr

structure Analyser where
  /-- The level of the clock, once it has been driven. -/
  clock? : Option Bool := none
  mosi? : Option Bool := none
  steady : Bool := false
  /-- What was noted, the oldest first. -/
  sights : List Sight := []
  deriving DecidableEq, Repr

def Analyser.see (event : PinEvent SpiLine) (analyser : Analyser) : Analyser :=
  match event with
  | .drove .sck high =>
    if analyser.clock? = some (!high) then
      { analyser with
        clock? := some high, steady := true, sights := analyser.sights ++ [.edge high] }
    else { analyser with clock? := some high }
  | .drove .mosi high => { analyser with mosi? := some high, steady := false }
  | .sampled .miso high =>
    { analyser with sights := analyser.sights ++ [.sample analyser.mosi? analyser.steady high] }
  | _ => analyser

/-- What the analyser makes of a trace whose newest event stands first. -/
def analyse (trace : List (PinEvent SpiLine)) : Analyser :=
  trace.foldr Analyser.see {}

def restLevel (mode : Mode) : Bool :=
  mode.idle = .high

theorem clock_true {σ : Type} [Gpio σ SpiLine] (mode : Mode) :
    (clock mode true : Drive σ Unit) = Gpio.drive .sck !restLevel mode := by
  rw [← Bool.true_bne]
  rfl

theorem clock_false {σ : Type} [Gpio σ SpiLine] (mode : Mode) :
    (clock mode false : Drive σ Unit) = Gpio.drive .sck (restLevel mode) := by
  rw [← Bool.false_bne (restLevel mode)]
  rfl

/-- What is seen of a bit that goes out while another comes in: one pulse of the clock and one
sample, behind the edge of the mode. -/
def waveform (mode : Mode) (bit level : Bool) : List Sight :=
  match mode.phase with
  | .first => [.edge !restLevel mode, .sample (some bit) true level, .edge (restLevel mode)]
  | .second => [.edge !restLevel mode, .edge (restLevel mode), .sample (some bit) true level]

def Sight.edge? : Sight → Option Bool
  | edge high => some high
  | sample .. => none

/-- The levels to which the clock moved. -/
def edges (sights : List Sight) : List Bool :=
  sights.filterMap Sight.edge?

theorem edges_waveforms (mode : Mode) {bits levels : List Bool} (h : levels.length = bits.length) :
    edges (List.zipWith (waveform mode) bits levels).flatten =
      (List.replicate bits.length [!restLevel mode, restLevel mode]).flatten := by
  induction bits generalizing levels with
  | nil => rfl
  | cons bit bits ih =>
    obtain ⟨level, levels, rfl⟩ := List.exists_cons_of_length_eq_add_one h
    rw [List.zipWith_cons_cons, List.flatten_cons, edges, List.filterMap_append, ← edges, ← edges,
      ih (Nat.succ.inj h), List.length_cons, List.replicate_succ, List.flatten_cons]
    obtain ⟨idle, _ | _⟩ := mode <;> rfl

/-! ## Transfers over scripted pins -/

variable {mode : Mode} {pins : Scripted SpiLine}

/-- The pins do not fail, and the clock rests. -/
structure Ready (mode : Mode) (pins : Scripted SpiLine) : Prop where
  faultless : pins.Faultless
  resting : (analyse pins.trace).clock? = some (restLevel mode)

theorem runs_leave (h : pins.Faultless) (mode : Mode) :
    Runs (clock mode true) pins (.ok ()) (pins.driven .sck !restLevel mode) := by
  rw [clock_true]
  exact h.runs_drive .sck _

/-- The clock goes to its idle level, wherever it was. -/
theorem runs_rest (h : pins.Faultless) (mode : Mode) :
    Runs (clock mode false) pins (.ok ()) (pins.driven .sck (restLevel mode)) := by
  rw [clock_false]
  exact h.runs_drive .sck _

theorem runs_park (h : pins.Faultless) (mode : Mode) :
    ∃ parked, Runs (park mode) pins (.ok ()) parked ∧ Ready mode parked ∧
      parked.levels = pins.levels := by
  refine ⟨_, runs_rest h mode, ⟨h.driven _ _, ?_⟩, rfl⟩
  change ((analyse pins.trace).see (.drove .sck (restLevel mode))).clock? = _
  rw [Analyser.see]
  split <;> rfl

/-- The analyser sees the first transition of a pulse behind the level that is put on MOSI, and the
sample before the second one. -/
theorem Analyser.see_first {analyser : Analyser} {rest : Bool} (h : analyser.clock? = some rest)
    (bit level : Bool) :
    ((((analyser.see (.drove .mosi bit)).see (.drove .sck !rest)).see (.sampled .miso level)).see
      (.drove .sck rest)) =
    { clock? := some rest
      mosi? := some bit
      steady := true
      sights := analyser.sights ++ [.edge !rest, .sample (some bit) true level, .edge rest] } := by
  simp [Analyser.see, h]

theorem Analyser.see_second {analyser : Analyser} {rest : Bool} (h : analyser.clock? = some rest)
    (bit level : Bool) :
    ((((analyser.see (.drove .sck !rest)).see (.drove .mosi bit)).see (.drove .sck rest)).see
      (.sampled .miso level)) =
    { clock? := some rest
      mosi? := some bit
      steady := true
      sights := analyser.sights ++ [.edge !rest, .edge rest, .sample (some bit) true level] } := by
  simp [Analyser.see, h]

theorem Ready.runs_transferBit {level : Bool} {rest : List Bool} (h : Ready mode pins) (half : Nat)
    (bit : Bool) (hLevels : pins.levels = level :: rest) :
    ∃ pins', Runs (transferBit mode half bit) pins (.ok level) pins' ∧ Ready mode pins' ∧
      pins'.levels = rest ∧
      (analyse pins'.trace).sights = (analyse pins.trace).sights ++ waveform mode bit level := by
  obtain ⟨hPins, hResting⟩ := h
  unfold transferBit waveform
  cases mode.phase with
  | first =>
    let put := (pins.driven .mosi bit).waited half
    have hPut : put.Faultless := (hPins.driven _ _).waited _
    let led := put.driven .sck !restLevel mode
    have hLed : led.Faultless := hPut.driven _ _
    let sampled := (led.sampled .miso level rest).waited half
    have hSampled : sampled.Faultless := (hLed.sampled _ _ _).waited _
    have hSeen : analyse (sampled.driven .sck (restLevel mode)).trace = _ :=
      Analyser.see_first hResting bit level
    refine ⟨sampled.driven .sck (restLevel mode), ?_, ⟨hSampled.driven _ _, ?_⟩, rfl, ?_⟩
    · exact .bind (hPins.runs_drive .mosi bit) <| .bind (Scripted.runs_wait half) <|
        .bind (runs_leave hPut mode) <| .bind (hLed.runs_sample .miso hLevels) <|
        .bind (Scripted.runs_wait half) <| .bind (runs_rest hSampled mode) <| .pure level
    · rw [hSeen]
    · rw [hSeen]
  | second =>
    let led := pins.driven .sck !restLevel mode
    have hLed : led.Faultless := hPins.driven _ _
    let put := (led.driven .mosi bit).waited half
    have hPut : put.Faultless := (hLed.driven _ _).waited _
    let trailed := put.driven .sck (restLevel mode)
    have hTrailed : trailed.Faultless := hPut.driven _ _
    let sampled := (trailed.sampled .miso level rest).waited half
    have hSeen : analyse sampled.trace = _ := Analyser.see_second hResting bit level
    refine ⟨sampled, ?_, ⟨(hTrailed.sampled _ _ _).waited _, ?_⟩, rfl, ?_⟩
    · exact .bind (runs_leave hPins mode) <| .bind (hLed.runs_drive .mosi bit) <|
        .bind (Scripted.runs_wait half) <| .bind (runs_rest hPut mode) <|
        .bind (hTrailed.runs_sample .miso hLevels) <| .bind (Scripted.runs_wait half) <| .pure level
    · rw [hSeen]
    · rw [hSeen]

/-- A list of bits is a list of pulses. -/
theorem Ready.exchanges {bits levels rest : List Bool} (h : Ready mode pins) (half : Nat)
    (hLength : levels.length = bits.length) (hLevels : pins.levels = levels ++ rest) :
    ∃ pins', Exchanges mode half pins bits levels pins' ∧ Ready mode pins' ∧ pins'.levels = rest ∧
      (analyse pins'.trace).sights =
        (analyse pins.trace).sights ++ (List.zipWith (waveform mode) bits levels).flatten := by
  induction bits generalizing pins levels with
  | nil =>
    obtain rfl := List.eq_nil_of_length_eq_zero hLength
    exact ⟨pins, .nil pins, h, hLevels, (List.append_nil _).symm⟩
  | cons bit bits ih =>
    obtain ⟨level, levels, rfl⟩ := List.exists_cons_of_length_eq_add_one hLength
    obtain ⟨mid, hBit, hMid, hLeft, hSights⟩ := h.runs_transferBit half bit hLevels
    obtain ⟨pins', hBits, hReady, hRest, hSights'⟩ := ih hMid (Nat.succ.inj hLength) hLeft
    refine ⟨pins', .cons hBit hBits, hReady, hRest, ?_⟩
    rw [hSights', hSights, List.append_assoc, List.zipWith_cons_cons, List.flatten_cons]

/-! ## Transfers over a loop of wire -/

open Wire (SpiWires)

section
variable {wires : SpiWires}

/-- A pulse is one rising edge, and the clock rests again. -/
theorem plain_pulse {clock : Wire.Plain} {rest : Bool} (h : clock.level = rest) :
    (clock.drive !rest).drive rest = ⟨rest, clock.risingEdges + 1⟩ := by
  subst h
  obtain ⟨_ | _, _⟩ := clock <;> rfl

theorem wires_park (mode : Mode) (wires : SpiWires) :
    ∃ parked, Runs (park mode) wires (.ok ()) parked ∧ parked.clock.level = restLevel mode :=
  ⟨_, rfl, Bool.false_bne _⟩

/-- MISO shows what was put on MOSI. -/
theorem wires_transferBit (half : Nat) (bit : Bool) (h : wires.clock.level = restLevel mode) :
    Runs (transferBit mode half bit) wires (.ok bit)
      ⟨⟨restLevel mode, wires.clock.risingEdges + 1⟩, wires.data.drive bit⟩ := by
  rw [← plain_pulse h]
  unfold transferBit
  rw [clock_true, clock_false]
  cases mode.phase <;> exact rfl

theorem wires_exchanges (half : Nat) (bits : List Bool) (h : wires.clock.level = restLevel mode) :
    ∃ wires', Exchanges mode half wires bits bits wires' ∧
      wires'.clock = ⟨restLevel mode, wires.clock.risingEdges + bits.length⟩ := by
  induction bits generalizing wires with
  | nil =>
    refine ⟨wires, .nil wires, ?_⟩
    rw [← h]
    rfl
  | cons bit bits ih =>
    let mid : SpiWires :=
      ⟨⟨restLevel mode, wires.clock.risingEdges + 1⟩, wires.data.drive bit⟩
    have hRests : mid.clock.level = restLevel mode := rfl
    obtain ⟨wires', hBits, hClock⟩ := ih hRests
    refine ⟨wires', .cons (wires_transferBit half bit h) hBits, ?_⟩
    rw [hClock, List.length_cons, Nat.add_assoc, Nat.add_comm 1]

end

/-! ## Transfers -/

/-- Bit-banged SPI is faithful in every mode. Setting the mode parks the clock. From there the
bytes go out as pulses, one for each bit, that all look as the mode says, and the bits of the answer
are those that MISO showed; the clock rests again. Where MISO is MOSI the answer is what was sent. -/
theorem transfer_waveform (mode : Mode) (half : Nat) (bytes : List UInt8) :
    (∀ pins : Scripted SpiLine, pins.Faultless →
      ∃ parked, Runs (park mode) pins (.ok ()) parked ∧ Ready mode parked ∧
        parked.levels = pins.levels) ∧
    (∀ (pins : Scripted SpiLine) (levels rest : List Bool), Ready mode pins →
      pins.levels = levels ++ rest → levels.length = 8 * bytes.length →
      ∃ answer after, Runs (transfer mode half bytes) pins (.ok answer) after ∧
        answer.flatMap Byte.bits = levels ∧ Ready mode after ∧ after.levels = rest ∧
        ∃ sights, (analyse after.trace).sights = (analyse pins.trace).sights ++ sights ∧
          sights = (List.zipWith (waveform mode) (bytes.flatMap Byte.bits) levels).flatten ∧
          edges sights =
            (List.replicate (8 * bytes.length) [!restLevel mode, restLevel mode]).flatten) ∧
    (∀ wires : SpiWires,
      ∃ parked, Runs (park mode) wires (.ok ()) parked ∧ parked.clock.level = restLevel mode) ∧
    ∀ wires : SpiWires, wires.clock.level = restLevel mode →
      ∃ after, Runs (transfer mode half bytes) wires (.ok bytes) after ∧
        after.clock = ⟨restLevel mode, wires.clock.risingEdges + 8 * bytes.length⟩ := by
  have hLength := Byte.length_flatMap_bits bytes
  refine ⟨fun pins h => runs_park h mode, fun pins levels rest hReady hLevels hCount => ?_,
    wires_park mode, fun wires hRest => ?_⟩
  · obtain ⟨after, hBits, hAfter, hLeft, hSights⟩ :=
      hReady.exchanges half (hCount.trans hLength.symm) hLevels
    obtain ⟨answer, hRun, hAnswer⟩ := hBits.runs_transfer
    refine ⟨answer, after, hRun, hAnswer, hAfter, hLeft, _, hSights, rfl, ?_⟩
    rw [edges_waveforms mode (hCount.trans hLength.symm), hLength]
  · obtain ⟨after, hBits, hClock⟩ := wires_exchanges half (bytes.flatMap Byte.bits) hRest
    exact ⟨after, hBits.runs_same, hLength ▸ hClock⟩

theorem transfer_waveform_mode_three :
    let pins : Scripted SpiLine := { levels := Byte.bits 0x3C, trace := [.drove .sck true] }
    (∃ parked, Runs (park (.ofNumber 3)) pins (.ok ()) parked ∧ Ready (.ofNumber 3) parked) ∧
    (∃ after, Runs (transfer (.ofNumber 3) 16 [0xA5]) pins (.ok [0x3C]) after ∧
      edges (analyse after.trace).sights = (List.replicate 8 [false, true]).flatten) ∧
    ∃ after, Runs (transfer (.ofNumber 3) 16 [0xA5]) (SpiWires.new true) (.ok [0xA5]) after ∧
      after.clock = ⟨true, 8⟩ := by
  intro pins
  have hFaultless : pins.Faultless := ⟨fun n hn => absurd hn List.not_mem_nil, rfl⟩
  obtain ⟨hPark, hTransfer, -, hLoop⟩ := transfer_waveform (.ofNumber 3) 16 [0xA5]
  obtain ⟨parked, hParked, hReady, -⟩ := hPark pins hFaultless
  obtain ⟨answer, after, hRun, hAnswer, -, -, sights, hSights, -, hEdges⟩ :=
    hTransfer pins (Byte.bits 0x3C) [] ⟨hFaultless, rfl⟩ (List.append_nil _).symm rfl
  obtain rfl : answer = [0x3C] := Byte.flatMap_bits_injective hAnswer
  refine ⟨⟨parked, hParked, hReady⟩, ⟨after, hRun, ?_⟩, hLoop (.new true) rfl⟩
  rw [hSights]
  exact hEdges

end Spi

end BusBench.BitBang
