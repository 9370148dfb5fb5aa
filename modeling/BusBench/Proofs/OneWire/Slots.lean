import BusBench.Proofs.BitBang.Runs
import BusBench.Proofs.Bus.Byte
import BusBench.Wire.OneWireDevices

/-!
# Slots on the timed 1-Wire line

The controller speaks to the devices in slots of fixed length. A line on which nobody pulls, neither
now nor later, is called settled. On a settled line a slot is one transition of the devices
(`OneWireWires.slot`) after which the line is settled again, so what follows can forget about
microseconds.

* `Settled`: nobody holds the line low, now or later.
* `elapse`: the line after a slot that began now.
* `runs_writeBit`, `runs_readBit`, `runs_resetPulse`: a slot and a reset on a settled line.
* `runs_writeByte`: eight slots that spell a command.
-/

namespace BusBench.Wire.OneWireWires

open BitBang (Gpio OneWireLine)
open BitBang.Drive (Runs)
open BitBang.OneWire (low resetPulse writeBit readBit writeByte)

/-! ## Settled lines -/

/-- Nobody holds the line low, neither now nor later on. -/
structure Settled (wires : OneWireWires) : Prop where
  released : wires.held = false
  unpresent : ∀ start stop, wires.presence? = some (start, stop) → stop ≤ wires.now
  unheld : wires.holdUntil ≤ wires.now

/-- Until when a device holds the line low in a slot that begins now. -/
def slotHold (wires : OneWireWires) : Nat :=
  if wires.sending? = some false then wires.now + 30 else wires.holdUntil

/-- The line after a whole slot that began now and in which the controller wrote `bit`. -/
def elapse (bit : Bool) (wires : OneWireWires) : OneWireWires :=
  { wires.slot bit with
    held := false
    fellAt := wires.now
    holdUntil := wires.slotHold
    now := wires.now + 70 }

/-- The line after a whole reset that began now. -/
def elapseReset (wires : OneWireWires) : OneWireWires :=
  { wires with
    held := false
    fellAt := wires.now
    holdUntil := wires.slotHold
    presence? :=
      if wires.devices.isEmpty then none else some (wires.now + 495, wires.now + 615)
    devices := wires.devices.map fun (rom, _) => (rom, true)
    protocol := .command 0 0
    now := wires.now + 960 }

theorem Settled.new (roms : List Rom) : Settled (new roms) :=
  ⟨rfl, fun _ _ h => (nomatch h), Nat.le_refl _⟩

/-- Between slots only a hold that began with the last slot can pull the line. -/
theorem level_of_released {wires : OneWireWires} (hHeld : wires.held = false)
    (hPresence : ∀ start stop, wires.presence? = some (start, stop) → stop ≤ wires.now) :
    wires.level = !decide (wires.now < wires.holdUntil) := by
  have hShows : wires.showsPresence = false := by
    unfold showsPresence
    cases hp : wires.presence? with
    | none => rfl
    | some window =>
      have := hPresence window.1 window.2 hp
      simp only [Bool.and_eq_false_imp, decide_eq_true_eq, decide_eq_false_iff_not]
      omega
  simp only [level, hHeld, hShows, Bool.or_self, Bool.false_or]

/-- A settled line is high. -/
theorem Settled.level {wires : OneWireWires} (h : Settled wires) : wires.level = true := by
  rw [level_of_released h.released h.unpresent]
  simp only [Bool.not_eq_true', decide_eq_false_iff_not]
  exact Nat.not_lt.mpr h.unheld

theorem Settled.slotHold_le {wires : OneWireWires} (h : Settled wires) :
    wires.slotHold ≤ wires.now + 30 := by
  have := h.unheld
  unfold slotHold
  split <;> omega

/-! ## Timing leaves the devices alone -/

theorem runCommand_retime (wires : OneWireWires) (command : UInt8) (held : Bool)
    (now fellAt holdUntil : Nat) :
    runCommand command { wires with held, now, fellAt, holdUntil } =
      { runCommand command wires with held, now, fellAt, holdUntil } := by
  unfold runCommand
  split
  · rfl
  · split <;> rfl

/-- How the line stands in time has no influence on what a slot does to the devices. -/
theorem slot_retime (wires : OneWireWires) (bit held : Bool) (now fellAt holdUntil : Nat) :
    slot bit { wires with held, now, fellAt, holdUntil } =
      { slot bit wires with held, now, fellAt, holdUntil } := by
  rcases wires with ⟨devices, _, _, _, presence, _, protocol, received⟩
  cases protocol with
  | command bits shift =>
    simp only [slot]
    split
    · rfl
    · exact runCommand_retime ⟨devices, _, _, _, presence, _, .command bits shift, received⟩ _ _ _ _ _
  | readRom i => rfl
  | search i step =>
    match step with
    | 0 | 1 | 2 | _ + 3 => rfl
  | ignoring => rfl

theorem runCommand_presence? (wires : OneWireWires) (command : UInt8) :
    (wires.runCommand command).presence? = wires.presence? := by
  unfold runCommand
  split
  · rfl
  · split <;> rfl

theorem slot_presence? (wires : OneWireWires) (bit : Bool) :
    (wires.slot bit).presence? = wires.presence? := by
  rcases wires with ⟨devices, _, _, _, presence, _, protocol, received⟩
  cases protocol with
  | command bits shift =>
    simp only [slot]
    split
    · rfl
    · exact runCommand_presence? _ _
  | readRom i => rfl
  | search i step =>
    match step with
    | 0 | 1 | 2 | _ + 3 => rfl
  | ignoring => rfl

theorem Settled.elapse {wires : OneWireWires} (h : Settled wires) (bit : Bool) :
    Settled (wires.elapse bit) where
  released := rfl
  unpresent start stop hWindow := by
    have : wires.presence? = some (start, stop) := (wires.slot_presence? bit).symm.trans hWindow
    have := h.unpresent start stop this
    change stop ≤ wires.now + 70
    omega
  unheld := by
    have := h.slotHold_le
    change wires.slotHold ≤ wires.now + 70
    omega

theorem Settled.elapseReset {wires : OneWireWires} (h : Settled wires) :
    Settled wires.elapseReset where
  released := rfl
  unpresent start stop hWindow := by
    simp only [OneWireWires.elapseReset] at hWindow ⊢
    split at hWindow
    · cases hWindow
    · cases hWindow
      omega
  unheld := by
    have := h.slotHold_le
    change wires.slotHold ≤ wires.now + 960
    omega

theorem Settled.wait {wires : OneWireWires} (h : Settled wires) (us : Nat) :
    Settled { wires with now := wires.now + us } where
  released := h.released
  unpresent start stop hWindow := Nat.le_add_right_of_le (h.unpresent start stop hWindow)
  unheld := Nat.le_add_right_of_le h.unheld

/-! ## Slots -/

section Runs

variable {wires : OneWireWires}

theorem runs_wait (us : Nat) :
    Runs (Gpio.wait us) wires (.ok ()) { wires with now := wires.now + us } :=
  rfl

theorem runs_sample (wires : OneWireWires) :
    Runs BitBang.OneWire.sample wires (.ok wires.level) wires :=
  rfl

theorem runs_idle (h : Settled wires) : Runs BitBang.OneWire.idle wires (.ok ()) wires := by
  change (Except.ok (), wires.drive true) = _
  simp only [OneWireWires.drive, if_true, h.released, Bool.false_eq_true, if_false]

theorem runs_release (hHeld : wires.held = true) :
    Runs (Gpio.drive OneWireLine.wire true) wires (.ok ()) wires.rise := by
  change (Except.ok (), wires.drive true) = _
  simp only [OneWireWires.drive, if_true, hHeld]

/-- The line is pulled for a time and let go. -/
theorem runs_low (hHeld : wires.held = false) (us : Nat) :
    Runs (low us) wires (.ok ()) (rise { wires.fall with now := wires.now + us }) := by
  have hFall : Runs (Gpio.drive OneWireLine.wire false) wires (.ok ()) wires.fall := by
    change (Except.ok (), wires.drive false) = _
    simp only [OneWireWires.drive, hHeld, Bool.false_eq_true, if_false]
  exact Runs.bind hFall (Runs.bind (runs_wait us) (runs_release rfl))

/-- A pulse that is too short for a reset is a slot. -/
theorem rise_slot {us : Nat} (hShort : us < 480) :
    rise { wires.fall with now := wires.now + us } =
      { wires.elapse (us < 15) with now := wires.now + us } := by
  simp only [fall, rise, Nat.add_sub_cancel_left, Nat.not_le.mpr hShort, if_false]
  exact slot_retime wires _ _ _ _ _

theorem rise_reset :
    rise { wires.fall with now := wires.now + 480 } =
      { wires.elapseReset with now := wires.now + 480 } := by
  simp only [fall, rise, Nat.add_sub_cancel_left, Nat.le_refl, if_true]
  rfl

theorem runs_writeBit (h : Settled wires) (bit : Bool) :
    Runs (writeBit bit) wires (.ok ()) (wires.elapse bit) := by
  cases bit with
  | true =>
    have hLow := runs_low h.released 6
    rw [rise_slot (by omega)] at hLow
    exact Runs.bind hLow (runs_wait 64)
  | false =>
    have hLow := runs_low h.released 60
    rw [rise_slot (by omega)] at hLow
    exact Runs.bind hLow (runs_wait 10)

/-- The controller reads what the devices send, and ones where they send nothing. -/
theorem runs_readBit (h : Settled wires) :
    Runs readBit wires (.ok (decide (wires.sending? ≠ some false))) (wires.elapse true) := by
  have hLevel : ({ wires.elapse true with now := wires.now + 15 }).level =
      decide (wires.sending? ≠ some false) := by
    rw [level_of_released rfl]
    · have := h.unheld
      change (!decide (wires.now + 15 < wires.slotHold)) = _
      unfold slotHold
      by_cases hSends : wires.sending? = some false
      · simp only [hSends, if_true, ne_eq, not_true_eq_false, decide_false, Bool.not_eq_false',
          decide_eq_true_eq]
        omega
      · simp only [hSends, if_false, ne_eq, not_false_eq_true, decide_true, Bool.not_eq_true',
          decide_eq_false_iff_not]
        omega
    · intro start stop hWindow
      have := h.unpresent start stop ((wires.slot_presence? true).symm.trans hWindow)
      change stop ≤ wires.now + 15
      omega
  have hLow := runs_low h.released 6
  rw [rise_slot (by omega)] at hLow
  have hSample := runs_sample { wires.elapse true with now := wires.now + 15 }
  rw [hLevel] at hSample
  exact Runs.bind hLow (Runs.bind (runs_wait 9) (Runs.bind hSample (Runs.bind (runs_wait 55)
    (Runs.pure _))))

/-- A reset wakes all devices, which show their presence if there are any. -/
theorem runs_resetPulse (h : Settled wires) :
    Runs resetPulse wires (.ok (!wires.devices.isEmpty)) wires.elapseReset := by
  have hLevel : ({ wires.elapseReset with now := wires.now + 550 }).level =
      wires.devices.isEmpty := by
    have hHold := h.slotHold_le
    have : ¬ wires.now + 550 < wires.slotHold := by omega
    simp only [level, showsPresence, OneWireWires.elapseReset, this]
    cases wires.devices.isEmpty <;> simp
  have hLow := runs_low h.released 480
  rw [rise_reset] at hLow
  have hSample := runs_sample { wires.elapseReset with now := wires.now + 550 }
  rw [hLevel] at hSample
  exact Runs.bind hLow (Runs.bind (runs_wait 70) (Runs.bind hSample (Runs.bind (runs_wait 410)
    (Runs.pure _))))

end Runs

/-! ## Bytes -/

/-- The line after slots in which the controller wrote the bits of a byte. -/
def elapseByte (byte : UInt8) (wires : OneWireWires) : OneWireWires :=
  (Byte.bits byte).reverse.foldl (fun wires bit => wires.elapse bit) wires

theorem Settled.elapseBits {wires : OneWireWires} (h : Settled wires) (bits : List Bool) :
    Settled (bits.foldl (fun wires bit => wires.elapse bit) wires) := by
  induction bits generalizing wires with
  | nil => exact h
  | cons bit bits ih => exact ih (h.elapse bit)

theorem runs_writeBits {wires : OneWireWires} (h : Settled wires) (bits : List Bool) :
    Runs (bits.forM writeBit) wires (.ok ())
      (bits.foldl (fun wires bit => wires.elapse bit) wires) := by
  induction bits generalizing wires with
  | nil => exact Runs.forM_nil _
  | cons bit bits ih => exact Runs.forM_cons (runs_writeBit h bit) (ih (h.elapse bit))

theorem Settled.elapseByte {wires : OneWireWires} (h : Settled wires) (byte : UInt8) :
    Settled (wires.elapseByte byte) :=
  h.elapseBits _

theorem runs_writeByte {wires : OneWireWires} (h : Settled wires) (byte : UInt8) :
    Runs (writeByte byte) wires (.ok ()) (wires.elapseByte byte) :=
  runs_writeBits h _

/-- A slot that is not the last of a command. -/
theorem elapse_command {wires : OneWireWires} {k : Nat} {shift : UInt8} (bit : Bool)
    (hProtocol : wires.protocol = .command k shift) (hk : k < 7) :
    (wires.elapse bit).protocol = .command (k + 1) (Byte.shiftDown shift bit) ∧
      (wires.elapse bit).devices = wires.devices ∧
      (wires.elapse bit).received = wires.received := by
  simp only [elapse, slot, hProtocol, hk, if_true, Byte.shiftDown, and_self]

/-- Slots that do not complete a command. -/
theorem elapseBits_command {wires : OneWireWires} {k : Nat} {shift : UInt8} (bits : List Bool)
    (hProtocol : wires.protocol = .command k shift) (hk : k + bits.length ≤ 7) :
    let after := bits.foldl (fun wires bit => wires.elapse bit) wires
    after.protocol = .command (k + bits.length) (bits.foldl Byte.shiftDown shift) ∧
      after.devices = wires.devices ∧ after.received = wires.received ∧
      after.now = wires.now + 70 * bits.length := by
  induction bits generalizing wires k shift with
  | nil => exact ⟨hProtocol, rfl, rfl, rfl⟩
  | cons bit bits ih =>
    simp only [List.length_cons] at hk
    obtain ⟨hNext, hDevices, hReceived⟩ := elapse_command bit hProtocol (by omega)
    obtain ⟨h₁, h₂, h₃, h₄⟩ := ih hNext (by omega)
    refine ⟨?_, h₂.trans hDevices, h₃.trans hReceived, ?_⟩
    · rw [List.foldl_cons, h₁, List.length_cons]
      congr 1
      omega
    · rw [List.foldl_cons, h₄, List.length_cons]
      change wires.now + 70 + 70 * bits.length = _
      omega

/-- The eight slots of a byte make the devices run it as a command. -/
theorem elapseByte_command {wires : OneWireWires} (byte : UInt8)
    (hProtocol : wires.protocol = .command 0 0) :
    (wires.elapseByte byte).protocol = (wires.runCommand byte).protocol ∧
      (wires.elapseByte byte).devices = wires.devices ∧
      (wires.elapseByte byte).received = (wires.runCommand byte).received ∧
      (wires.elapseByte byte).now = wires.now + 560 := by
  -- Seven bits only shift the command in; the eighth runs it.
  let front := [Byte.bit byte 0, Byte.bit byte 1, Byte.bit byte 2, Byte.bit byte 3,
    Byte.bit byte 4, Byte.bit byte 5, Byte.bit byte 6]
  obtain ⟨h₁, h₂, h₃, h₄⟩ := elapseBits_command front hProtocol (by simp [front])
  have hWhole : Byte.shiftDown (front.foldl Byte.shiftDown 0) (Byte.bit byte 7) = byte :=
    Byte.foldl_shiftDown_reverse_bits byte
  have hLast : wires.elapseByte byte =
      (front.foldl (fun wires bit => wires.elapse bit) wires).elapse (Byte.bit byte 7) := rfl
  generalize front.foldl (fun wires bit => wires.elapse bit) wires = before at h₁ h₂ h₃ h₄ hLast
  rw [hLast]
  have hSlot : before.slot (Byte.bit byte 7) = before.runCommand byte := by
    have hShift : (before.slot (Byte.bit byte 7)) =
        before.runCommand (Byte.shiftDown (front.foldl Byte.shiftDown 0) (Byte.bit byte 7)) := by
      unfold slot
      rw [h₁]
      rfl
    rw [hShift, hWhole]
  simp only [elapse, hSlot, h₄]
  refine ⟨?_, ?_, ?_, by simp [front]⟩
  · unfold runCommand
    split
    · rfl
    · split <;> rfl
  · rw [← h₂]
    unfold runCommand
    split
    · rfl
    · split <;> rfl
  · unfold runCommand
    split
    · exact h₃
    · split
      · exact h₃
      · rw [h₃]

end BusBench.Wire.OneWireWires
