import BusBench.Proofs.BitBang.Runs
import BusBench.Proofs.Bus.Byte
import BusBench.Wire.I2cTarget

/-!
# Clock pulses on an I2C bus

Between a start and a stop the target sees one clock pulse after the other. Nine pulses make a byte:
eight for its bits and one for the acknowledgement. What a whole byte does to the target is found
here once for each thing the target can be doing.

* `Target.pulse`: one pulse, seen from the target.
* `Target.Listens.own`, `Target.Listens.other`, `Target.Listens.data`: a byte from the controller.
* `Target.Sends`: a byte to the controller is to follow.
* `runs_writeByte`, `runs_readByte`: the same bytes on the lines.
-/

namespace BusBench.Wire

open BitBang (Drive)
open BitBang.Drive (Runs)

namespace Target

variable {target : Target}

/-- A clock pulse, during which the controller puts a bit on the data line. -/
def pulse (target : Target) (bit : Bool) : Target :=
  (target.rising (bit && !target.pullsLow)).falling

/-- Whatever a rising edge means, it does not change the lines. -/
theorem rising_pullsLow (target : Target) (sda : Bool) :
    (target.rising sda).pullsLow = target.pullsLow := by
  unfold rising
  split
  · rfl
  · simp only
    split <;> try split
    all_goals rfl

/-- A target that is not addressed does nothing. -/
theorem pulse_of_idle (hPhase : target.phase = .idle) (bit : Bool) : target.pulse bit = target := by
  simp only [pulse, rising, hPhase, if_true, falling]

/-! ## Receiving -/

/-- A byte is to come, which is the address or not. -/
structure Listens (address : Bool) (target : Target) : Prop where
  phase : target.phase = .receiving address
  clocks : target.clocks = 0
  shift : target.shift = 0
  quiet : target.pullsLow = false

theorem Listens.start (target : Target) : target.start.Listens true :=
  ⟨rfl, rfl, rfl, rfl⟩

theorem rising_receiving {address : Bool} (hPhase : target.phase = .receiving address)
    (hClocks : target.clocks < 8) (sda : Bool) :
    target.rising sda =
      { target with clocks := target.clocks + 1, shift := Byte.shiftIn target.shift sda } := by
  have hFew : target.clocks + 1 ≤ 8 := hClocks
  simp only [rising, hPhase, reduceCtorEq, if_false, hFew, if_true]

theorem falling_receiving {address : Bool} (hPhase : target.phase = .receiving address)
    (hClocks : target.clocks < 8) : target.falling = target := by
  unfold falling
  split <;> simp_all

/-- Before the last bit of a byte, its bits are collected. -/
theorem pulses_receiving {address : Bool} (bits : List Bool)
    (hPhase : target.phase = .receiving address) (hQuiet : target.pullsLow = false)
    (hClocks : target.clocks + bits.length < 8) :
    bits.foldl pulse target =
      { target with
        clocks := target.clocks + bits.length
        shift := bits.foldl Byte.shiftIn target.shift } := by
  induction bits generalizing target with
  | nil => rfl
  | cons bit bits ih =>
    rw [List.length_cons] at hClocks
    have hPulse : target.pulse bit =
        { target with clocks := target.clocks + 1, shift := Byte.shiftIn target.shift bit } := by
      have hSda : (bit && !target.pullsLow) = bit := by rw [hQuiet, Bool.not_false, Bool.and_true]
      rw [pulse, hSda, rising_receiving hPhase (by omega)]
      exact falling_receiving (by exact hPhase) (by simp only; omega)
    rw [List.foldl_cons, hPulse, ih (by exact hPhase) (by exact hQuiet) (by simp only; omega)]
    simp only [List.foldl_cons, List.length_cons, Nat.add_assoc, Nat.add_comm 1]

/-- The clock falls for the eighth time with the whole byte collected. -/
theorem Listens.pulses {address : Bool} (h : target.Listens address) (b : UInt8) :
    (Byte.bits b).foldl pulse target = falling { target with clocks := 8, shift := b } := by
  obtain ⟨front, hFront, hLength⟩ : ∃ front, Byte.bits b = front ++ [Byte.bit b 0] ∧
      front.length = 7 := ⟨(Byte.bits b).take 7, rfl, rfl⟩
  have hByte : Byte.shiftIn (front.foldl Byte.shiftIn 0) (Byte.bit b 0) = b := by
    have hBits := Byte.ofBits_bits b
    rwa [Byte.ofBits, hFront, List.foldl_append] at hBits
  rw [hFront, List.foldl_append, pulses_receiving front h.phase h.quiet (by rw [h.clocks]; omega)]
  simp only [List.foldl_cons, List.foldl_nil, pulse, h.quiet, Bool.not_false, Bool.and_true]
  rw [rising_receiving (by exact h.phase) (by simp only [h.clocks, hLength]; omega)]
  simp only [h.clocks, h.shift, hLength, hByte]

/-- The address byte of another target. -/
theorem Listens.other (h : target.Listens true) {b : UInt8}
    (hOther : target.address? ≠ some (b >>> 1)) :
    (Byte.bits b).foldl pulse target = stop { target with clocks := 8, shift := b } := by
  rw [h.pulses b]
  simp only [falling, h.phase, hOther, if_false]

/-- The address byte of the target, which the target acknowledges. -/
theorem Listens.own (h : target.Listens true) {b : UInt8}
    (hOwn : target.address? = some (b >>> 1)) :
    (Byte.bits b).foldl pulse target =
      { target with clocks := 8, shift := b, reading := Byte.bit b 0, pullsLow := true } := by
  rw [h.pulses b]
  simp only [falling, h.phase, hOwn, if_true]

/-- A data byte, which the target keeps and acknowledges. -/
theorem Listens.data (h : target.Listens false) (b : UInt8) :
    (Byte.bits b).foldl pulse target =
      { target with
        clocks := 8, shift := b, received := target.received ++ [b], pullsLow := true } := by
  rw [h.pulses b]
  simp only [falling, h.phase]

/-- The pulse for the acknowledgement of a byte that the target received. -/
theorem acknowledge_receiving {address : Bool} (hPhase : target.phase = .receiving address)
    (hClocks : target.clocks = 8) :
    target.pulse true =
      if address && target.reading then
        load { target with phase := .sending, pullsLow := false, clocks := 0, shift := 0 }
      else
        { target with phase := .receiving false, pullsLow := false, clocks := 0, shift := 0 } := by
  have hRising (sda : Bool) : target.rising sda = { target with clocks := 9 } := by
    simp [rising, hPhase, hClocks]
  rw [pulse, hRising]
  cases address <;> simp only [falling, hPhase]

/-! ## Sending -/

/-- A byte is to go out, whose first bit is on the line already. -/
structure Sends (target : Target) : Prop where
  phase : target.phase = .sending
  clocks : target.clocks = 0
  first : target.pullsLow = !Byte.bit target.current 7

theorem sends_load (hPhase : target.phase = .sending) (hClocks : target.clocks = 0) :
    target.load.Sends :=
  ⟨hPhase, hClocks, rfl⟩

theorem rising_sending (hPhase : target.phase = .sending) (hClocks : target.clocks < 8)
    (sda : Bool) : target.rising sda = { target with clocks := target.clocks + 1 } := by
  have hFew : ¬ target.clocks + 1 = 9 := by omega
  simp only [rising, hPhase, reduceCtorEq, if_false, hFew]

/-- A pulse between two bits of a byte moves to the next bit. -/
theorem pulse_sending (hPhase : target.phase = .sending) (hClocks : target.clocks < 7) (bit : Bool) :
    target.pulse bit =
      putBit (7 - (target.clocks + 1)) { target with clocks := target.clocks + 1 } := by
  rw [pulse, rising_sending hPhase (by omega)]
  simp only [falling, hPhase]
  split
  case h_6 => exact if_pos (by omega)
  case h_7 hOther _ _ _ _ _ => exact absurd rfl hOther
  all_goals omega

/-- After its last bit the target leaves the line to the controller. -/
theorem pulse_sent (hPhase : target.phase = .sending) (hClocks : target.clocks = 7) (bit : Bool) :
    target.pulse bit = { target with clocks := 8, pullsLow := false } := by
  rw [pulse, rising_sending hPhase (by omega), hClocks]
  simp only [falling, hPhase]

/-- The pulse in which the controller acknowledges the byte or does not. -/
theorem acknowledge_sent (target : Target) (hPhase : target.phase = .sending)
    (hClocks : target.clocks = 8) (hQuiet : target.pullsLow = false) (acknowledge : Bool) :
    target.pulse (!acknowledge) =
      if acknowledge then load { target with acknowledged := true, clocks := 0 }
      else stop { target with acknowledged := false, clocks := 0 } := by
  have hRising (sda : Bool) :
      target.rising sda = { target with clocks := 9, acknowledged := !sda } := by
    simp [rising, hPhase, hClocks]
  rw [pulse, hRising, hQuiet]
  cases acknowledge <;> simp [falling, hPhase]

end Target

namespace I2cWires

open BitBang.I2c (writeBit readBit readBits writeByte readByte)

variable {half : Nat} {target : Target}

/-! ## Bits on the lines -/

/-- The lines between two pulses of the clock. -/
def clockLow (sda : Bool) (target : Target) : I2cWires where
  scl := false
  sda := sda
  target := target

theorem runs_writeBit (sda bit : Bool) :
    Runs (writeBit half bit) (clockLow sda target) (.ok ()) (clockLow bit (target.pulse bit)) :=
  rfl

theorem runs_bits (bits : List Bool) (sda : Bool) :
    ∃ sda', Runs (bits.forM (writeBit half)) (clockLow sda target) (.ok ())
      (clockLow sda' (bits.foldl Target.pulse target)) := by
  induction bits generalizing sda target with
  | nil => exact ⟨sda, Runs.forM_nil _⟩
  | cons bit bits ih =>
    obtain ⟨sda', hRest⟩ := ih bit
    exact ⟨sda', Runs.forM_cons (runs_writeBit sda bit) hRest⟩

theorem runs_readBit :
    Runs (readBit half) (clockLow true target) (.ok (!target.pullsLow))
      (clockLow true (target.pulse true)) := by
  rw [← Target.rising_pullsLow target (!target.pullsLow)]
  rfl

theorem runs_readBits (n : Nat) {i : Nat} (hi : n + 1 + i = 8) (byte : UInt8)
    (hPhase : target.phase = .sending) (hClocks : target.clocks = i)
    (hBit : target.pullsLow = !Byte.bit target.current (7 - i)) :
    Runs (readBits half (n + 1) byte) (clockLow true target)
      (.ok (((Byte.bits target.current).drop i).foldl Byte.shiftIn byte))
      (clockLow true { target with clocks := 8, pullsLow := false }) := by
  induction n generalizing i byte target with
  | zero =>
    have hRead : Runs (readBit half) (clockLow true target) _ _ := runs_readBit
    obtain rfl : i = 7 := by omega
    rw [Target.pulse_sent hPhase hClocks, hBit, Bool.not_not] at hRead
    exact Runs.bind hRead (Runs.pure _)
  | succ n ih =>
    have hRead : Runs (readBit half) (clockLow true target) _ _ := runs_readBit
    rw [Target.pulse_sending hPhase (by omega), hBit, Bool.not_not] at hRead
    rw [Byte.drop_bits _ (by omega), List.foldl_cons]
    subst hClocks
    refine Runs.bind hRead (ih (by omega) _ ?_ ?_ ?_)
    · exact hPhase
    · rfl
    · rfl

/-! ## Bytes on the lines -/

/-- A byte is acknowledged if the target holds the data line low after it. -/
theorem runs_writeByte (sda : Bool) (byte : UInt8) :
    Runs (writeByte half byte) (clockLow sda target)
      (.ok ((Byte.bits byte).foldl Target.pulse target).pullsLow)
      (clockLow true (((Byte.bits byte).foldl Target.pulse target).pulse true)) := by
  obtain ⟨sda', hBits⟩ := runs_bits (Byte.bits byte) sda
  refine Runs.bind hBits ?_
  generalize (Byte.bits byte).foldl Target.pulse target = target'
  change Runs (do BitBang.I2c.sda true; return !(← readBit half) : Drive I2cWires Bool) _ _ _
  have hRelease : Runs (BitBang.I2c.sda true) (clockLow sda' target') (.ok ())
      (clockLow true target') := rfl
  have hAnswer : Runs (pure (!!target'.pullsLow)) (clockLow true (target'.pulse true))
      (.ok target'.pullsLow) (clockLow true (target'.pulse true)) := by
    rw [Bool.not_not]
    exact Runs.pure _
  exact Runs.bind hRelease (Runs.bind runs_readBit hAnswer)

/-- A byte from the target, which the controller acknowledges or not. -/
theorem runs_readByte (hSends : target.Sends) (sda acknowledge : Bool) :
    Runs (readByte half acknowledge) (clockLow sda target) (.ok target.current)
      (clockLow true
        (if acknowledge then
          Target.load { target with clocks := 0, pullsLow := false, acknowledged := true }
        else
          Target.stop { target with clocks := 0, pullsLow := false, acknowledged := false })) := by
  have hRelease : Runs (BitBang.I2c.sda true) (clockLow sda target) (.ok ())
      (clockLow true target) := rfl
  have hByte : Runs (readBits half 8 0) (clockLow true target) _ _ :=
    runs_readBits 7 rfl 0 hSends.phase hSends.clocks hSends.first
  rw [List.drop_zero, ← Byte.ofBits, Byte.ofBits_bits] at hByte
  have hAcknowledge := Target.acknowledge_sent { target with clocks := 8, pullsLow := false }
    hSends.phase rfl rfl acknowledge
  refine Runs.bind hRelease (Runs.bind hByte ?_)
  rw [← hAcknowledge]
  rfl

end I2cWires

end BusBench.Wire
