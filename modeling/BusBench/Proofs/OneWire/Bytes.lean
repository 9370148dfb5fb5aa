import BusBench.Proofs.OneWire.SearchComplete

/-!
# Bytes on the timed 1-Wire line

After a reset the devices take the bytes that are written as commands, and those they do not know
are kept as they were written. Asked for their codes, all of them send at once, so that a byte that
is read is the bitwise AND of theirs; when the codes are over, the line stays high and reads as ones.

* `sharedByte`: what all devices send together.
* `runs_write_unknown`: bytes that are written.
* `Sends`, `Sends.runs_read`: bytes that are read.
* `bytes_transparent`: both, whatever happened on the line before.
-/

namespace BusBench

/-! ## Bits of bytes -/

namespace Byte

theorem bit_and (a b : UInt8) (j : Nat) : bit (a &&& b) j = (bit a j && bit b j) := by
  rw [bit, UInt8.toNat_and, Nat.testBit_and]
  rfl

/-- A byte is made up of its bits. -/
theorem foldl_or_bits (b : UInt8) :
    (List.range 8).foldl (fun byte j => byte ||| (if bit b j then 1 <<< UInt8.ofNat j else 0)) 0 = b :=
  forall_of_lt (P := fun b => (List.range 8).foldl
    (fun byte j => byte ||| (if bit b j then 1 <<< UInt8.ofNat j else 0)) 0 = b) (by decide +kernel) b

end Byte

theorem Rom.bit_byte (rom : Rom) (i : Nat) {j : Nat} (hj : j < 8) :
    Byte.bit (rom.byte i) j = rom.getLsbD (8 * i + j) := by
  rw [Byte.bit, Rom.byte, UInt8.toNat_ofNat', Nat.testBit_mod_two_pow, Nat.testBit_shiftRight,
    decide_eq_true hj, Bool.true_and, BitVec.getLsbD]

namespace Wire.OneWireWires

open BitBang (Drive)
open BitBang.Drive (Runs)
open BitBang.OneWire

variable {codes : List Rom} {wires : OneWireWires} {k : Nat}

/-- Nobody holds the line low. -/
structure Released (wires : OneWireWires) : Prop where
  held : wires.held = false
  level : wires.level = true

theorem Settled.isReleased (h : Settled wires) : Released wires :=
  ⟨h.released, h.level⟩

/-! ## Writing -/

theorem runs_write_unknown (hSettled : Settled wires) (hProtocol : wires.protocol = .command 0 0)
    {bytes : List UInt8} (hUnknown : ∀ byte ∈ bytes, byte ≠ 0x33 ∧ byte ≠ 0xF0) :
    ∃ wires', Runs (write bytes) wires (.ok ()) wires' ∧ Settled wires' ∧
      wires'.received = wires.received ++ bytes := by
  induction bytes generalizing wires with
  | nil => exact ⟨wires, Runs.forM_nil _, hSettled, (List.append_nil _).symm⟩
  | cons byte bytes ih =>
    obtain ⟨hByte, hBytes⟩ := List.forall_mem_cons.mp hUnknown
    have hCommand : wires.runCommand byte =
        { wires with protocol := .command 0 0, received := wires.received ++ [byte] } := by
      rw [runCommand, if_neg hByte.1, if_neg hByte.2]
    obtain ⟨hNext, -, hReceived, -⟩ := elapseByte_command byte hProtocol
    rw [hCommand] at hNext hReceived
    obtain ⟨wires', hRun, hSettled', hRest⟩ := ih (hSettled.elapseByte byte) hNext hBytes
    refine ⟨wires', Runs.forM_cons (runs_writeByte hSettled byte) hRun, hSettled', ?_⟩
    rw [hRest, hReceived, List.append_assoc]
    rfl

/-! ## Reading -/

/-- Bit `k` of what devices with these codes send together; after the codes there are ones. -/
def sharedBit (codes : List Rom) (k : Nat) : Bool :=
  decide (64 ≤ k) || codes.all (·.getLsbD k)

/-- Byte `i` of what devices with these codes send together: the bitwise AND of byte `i` of all
codes, and ones after the codes. -/
def sharedByte (codes : List Rom) (i : Nat) : UInt8 :=
  if i < 8 then codes.foldr (fun rom byte => rom.byte i &&& byte) 0xFF else 0xFF

theorem bit_ones {j : Nat} (hj : j < 8) : Byte.bit 0xFF j = true := by
  revert j
  decide

theorem bit_sharedByte (codes : List Rom) (i : Nat) {j : Nat} (hj : j < 8) :
    Byte.bit (sharedByte codes i) j = sharedBit codes (8 * i + j) := by
  unfold sharedByte sharedBit
  split
  · next hi =>
    rw [decide_eq_false (by omega), Bool.false_or]
    induction codes with
    | nil => exact bit_ones hj
    | cons rom codes ih => rw [List.foldr_cons, Byte.bit_and, ih, rom.bit_byte i hj, List.all_cons]
  · next hi => rw [decide_eq_true (by omega), Bool.true_or, bit_ones hj]

/-- The devices send their codes at once, and are about to send bit `k`. -/
structure Sends (codes : List Rom) (k : Nat) (wires : OneWireWires) : Prop where
  settled : Settled wires
  protocol : wires.protocol = if k < 64 then .readRom k else .ignoring
  devices : wires.devices = codes.map (·, true)

namespace Sends

theorem sending? (h : Sends codes k wires) :
    wires.sending? = if k < 64 then some (codes.all (·.getLsbD k)) else none := by
  have hProtocol := h.protocol
  by_cases hk : k < 64
  · rw [if_pos hk] at hProtocol ⊢
    simp only [OneWireWires.sending?, hProtocol, wiredAnd, h.devices, List.all_map]
    rfl
  · rw [if_neg hk] at hProtocol ⊢
    simp only [OneWireWires.sending?, hProtocol]

theorem shares (h : Sends codes k wires) :
    decide (wires.sending? ≠ some false) = sharedBit codes k := by
  rw [h.sending?, sharedBit]
  by_cases hk : k < 64
  · rw [if_pos hk, decide_eq_false (Nat.not_le.mpr hk), Bool.false_or]
    cases codes.all (·.getLsbD k) <;> rfl
  · rw [if_neg hk, decide_eq_true (Nat.le_of_not_lt hk), Bool.true_or]
    rfl

/-- The next bit follows, up to the last. -/
theorem slot (h : Sends codes k wires) : wires.slot true =
    { wires with protocol := if k + 1 < 64 then .readRom (k + 1) else .ignoring } := by
  have hProtocol := h.protocol
  by_cases hk : k < 64
  · rw [if_pos hk] at hProtocol
    simp only [OneWireWires.slot, hProtocol]
    by_cases hLast : k = 63
    · rw [if_pos hLast, if_neg (by omega)]
    · rw [if_neg hLast, if_pos (by omega)]
  · rw [if_neg hk] at hProtocol
    simp only [OneWireWires.slot, hProtocol]
    rw [if_neg (by omega), ← hProtocol]

theorem elapse (h : Sends codes k wires) : Sends codes (k + 1) (wires.elapse true) where
  settled := h.settled.elapse true
  protocol := by simp only [OneWireWires.elapse, h.slot]
  devices := by simp only [OneWireWires.elapse, h.slot, h.devices]

theorem runs_readBit (h : Sends codes k wires) :
    Runs readBit wires (.ok (sharedBit codes k)) (wires.elapse true) := by
  rw [← h.shares]
  exact OneWireWires.runs_readBit h.settled

/-- Bits `j` to `j + n` of byte `i`. -/
theorem runs_readBits {i j : Nat} (n : Nat) (byte : UInt8) (h : Sends codes (8 * i + j) wires) :
    ∃ wires', Sends codes (8 * i + (j + n)) wires' ∧
      Runs ((List.range' j n).foldlM readBitInto byte) wires
        (.ok ((List.range' j n).foldl (fun byte j =>
          byte ||| (if sharedBit codes (8 * i + j) then 1 <<< UInt8.ofNat j else 0)) byte)) wires' := by
  induction n generalizing byte j wires with
  | zero => exact ⟨wires, h, Runs.pure _⟩
  | succ n ih =>
    obtain ⟨wires', hSends, hRun⟩ := ih (j := j + 1)
      (byte ||| (if sharedBit codes (8 * i + j) then 1 <<< UInt8.ofNat j else 0)) h.elapse
    refine ⟨wires', (show j + (n + 1) = j + 1 + n by omega) ▸ hSends, ?_⟩
    rw [List.range'_succ, List.foldlM_cons, List.foldl_cons]
    exact Runs.bind (Runs.bind h.runs_readBit (Runs.pure _)) hRun

theorem runs_readByte {i : Nat} (h : Sends codes (8 * i) wires) :
    ∃ wires', Sends codes (8 * (i + 1)) wires' ∧
      Runs readByte wires (.ok (sharedByte codes i)) wires' := by
  obtain ⟨wires', hSends, hRun⟩ := runs_readBits (j := 0) 8 0 h
  refine ⟨wires', hSends, ?_⟩
  rw [← Byte.foldl_or_bits (sharedByte codes i)]
  rw [← List.range_eq_range'] at hRun
  have hSame := List.foldl_ext
    (fun byte j => byte ||| (if sharedBit codes (8 * i + j) then 1 <<< UInt8.ofNat j else 0))
    (fun byte j => byte ||| (if Byte.bit (sharedByte codes i) j then 1 <<< UInt8.ofNat j else 0))
    0 (l := List.range 8) fun byte j hj => by rw [bit_sharedByte codes i (List.mem_range.mp hj)]
  rw [← hSame]
  exact hRun

theorem runs_collect {i : Nat} (n : Nat) (collected : List UInt8) (h : Sends codes (8 * i) wires) :
    ∃ wires', Settled wires' ∧ Runs (collect n collected) wires
      (.ok (collected.reverse ++ (List.range' i n).map (sharedByte codes))) wires' := by
  induction n generalizing i wires collected with
  | zero =>
    rw [List.range'_zero, List.map_nil, List.append_nil]
    exact ⟨wires, h.settled, Runs.pure _⟩
  | succ n ih =>
    obtain ⟨mid, hSends, hByte⟩ := h.runs_readByte
    obtain ⟨wires', hSettled, hRest⟩ := ih (sharedByte codes i :: collected) hSends
    rw [List.reverse_cons, List.append_assoc] at hRest
    exact ⟨wires', hSettled, Runs.bind hByte hRest⟩

/-- Read from the start of the codes, the bytes are those that the devices share. -/
theorem runs_read (h : Sends codes 0 wires) (n : Nat) :
    ∃ wires', Settled wires' ∧
      Runs (read n) wires (.ok ((List.range n).map (sharedByte codes))) wires' := by
  rw [List.range_eq_range']
  exact runs_collect n [] h

/-- After a reset, the command to read codes makes all devices send theirs. -/
theorem of_reset (h : Settled wires) :
    Sends wires.codes 0 (wires.elapseReset.elapseByte 0x33) := by
  have hAwake : wires.elapseReset.protocol = .command 0 0 := rfl
  obtain ⟨hProtocol, hDevices, -, -⟩ := elapseByte_command 0x33 hAwake
  refine ⟨h.elapseReset.elapseByte 0x33, hProtocol, hDevices.trans ?_⟩
  rw [OneWireWires.codes, List.map_map]
  rfl

end Sends

/-! ## After anything else -/

/-- Whatever operations came before, a reset shows whether there are devices. Then bytes that are no
command the devices know are received as they were written, and once the codes are asked for, bytes
are read that the devices share. After each of these operations the line is released. -/
theorem bytes_transparent (codes : List Rom) (earlier : List Operation) :
    ∃ wires awake, Runs (earlier.forM Operation.run) (new codes) (.ok ()) wires ∧
      Runs resetPulse wires (.ok (!codes.isEmpty)) awake ∧ Released awake ∧
      (∀ bytes : List UInt8, (∀ byte ∈ bytes, byte ≠ 0x33 ∧ byte ≠ 0xF0) →
        ∃ written, Runs (write bytes) awake (.ok ()) written ∧
          written.received = wires.received ++ bytes ∧ Released written) ∧
      ∃ asked, Runs (write [0x33]) awake (.ok ()) asked ∧ Released asked ∧
        ∀ n, ∃ after, Runs (read n) asked (.ok ((List.range n).map (sharedByte codes))) after ∧
          Released after := by
  obtain ⟨_, wires, hEarlier, hSettled, hCodes⟩ :=
    Completes.forM Operation.completes earlier (new codes) (Settled.new codes)
  have hNew : (new codes).codes = codes := by
    simp only [OneWireWires.codes, new, List.map_map]
    exact List.map_id codes
  have hReset := runs_resetPulse hSettled
  have hPresent : wires.devices.isEmpty = codes.isEmpty := by
    rw [← hNew, ← hCodes, OneWireWires.codes, List.isEmpty_map]
  rw [hPresent] at hReset
  have hSends := Sends.of_reset hSettled
  rw [hCodes, hNew] at hSends
  refine ⟨wires, wires.elapseReset, hEarlier, hReset, hSettled.elapseReset.isReleased,
    fun bytes hUnknown => ?_, _, ?_, hSends.settled.isReleased, fun n => ?_⟩
  · obtain ⟨written, hRun, hSettled', hReceived⟩ :=
      runs_write_unknown hSettled.elapseReset rfl hUnknown
    exact ⟨written, hRun, hReceived, hSettled'.isReleased⟩
  · exact Runs.forM_cons (runs_writeByte hSettled.elapseReset 0x33) (Runs.forM_nil _)
  · obtain ⟨after, hSettled', hRun⟩ := hSends.runs_read n
    exact ⟨after, hRun, hSettled'.isReleased⟩

/-- Two devices that were read and searched for, and hold the line at different bits. -/
theorem bytes_transparent_two :
    let codes := [Rom.ofBytes [0x28, 0xFF, 0x4C, 0x1A, 0x61, 0x16, 0x03, 0x9E],
      Rom.ofBytes [0x2D, 0x54, 0xD2, 0xEF, 0x00, 0x00, 0x00, 0x2B]]
    ∃ wires awake, Runs ([.read 3, .search 5].forM Operation.run) (new codes) (.ok ()) wires ∧
      Runs resetPulse wires (.ok true) awake ∧
      (∃ written, Runs (write [0x44, 0x0F]) awake (.ok ()) written ∧
        written.received = wires.received ++ [0x44, 0x0F]) ∧
      ∃ asked after, Runs (write [0x33]) awake (.ok ()) asked ∧
        Runs (read 9) asked
          (.ok [0x28, 0x54, 0x40, 0x0A, 0x00, 0x00, 0x00, 0x0A, 0xFF]) after := by
  intro codes
  obtain ⟨wires, awake, hEarlier, hReset, -, hWrite, asked, hAsked, -, hRead⟩ :=
    bytes_transparent codes [.read 3, .search 5]
  obtain ⟨written, hWritten, hReceived, -⟩ := hWrite [0x44, 0x0F] (by decide +kernel)
  obtain ⟨after, hAfter, -⟩ := hRead 9
  have hShared : (List.range 9).map (sharedByte codes) =
      [0x28, 0x54, 0x40, 0x0A, 0x00, 0x00, 0x00, 0x0A, 0xFF] := by decide +kernel
  rw [hShared] at hAfter
  exact ⟨wires, awake, hEarlier, hReset, ⟨written, hWritten, hReceived⟩, asked, after, hAsked, hAfter⟩

end Wire.OneWireWires

end BusBench
