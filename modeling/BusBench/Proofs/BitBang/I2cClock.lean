import BusBench.Proofs.BitBang.I2cAnalyser
import Mathlib.Data.List.Chain

/-!
# The clock of an I2C bus

A bit-banged controller waits half a period between any two edges of the clock, with one exception:
it raises the clock at once for a repeated start and for the stop. Half a period is a whole number
of microseconds, rounded down, so that the clock is a little fast where the frequency does not
divide evenly.

* `I2c.Paced`: the pace of the clock in what a logic analyser noted.
* `I2c.waveform`: what it notes of a transaction in which no pin fails.
* `I2c.clock_keeps_pace`: the clock of every transaction.
-/

namespace BusBench.BitBang.I2c

open Drive (Runs)

variable {α β : Type} {works : Prop} {half : Nat}

/-! ## Half a period -/

theorem le_halfPeriod_mul_iff {hz : Nat} (hHz : 0 < hz) :
    500000 ≤ halfPeriod hz * hz ↔ hz ∣ 500000 ∨ 500000 ≤ hz := by
  rw [halfPeriod, if_neg hHz.ne']
  rcases Nat.lt_or_ge hz 500000 with hSlow | hFast
  · have hWhole : 1 ≤ 500000 / hz := (Nat.one_le_div_iff hHz).mpr hSlow.le
    have hBelow : 500000 / hz * hz ≤ 500000 := Nat.div_mul_le_self 500000 hz
    rw [max_eq_right hWhole, or_iff_left hSlow.not_ge, Nat.dvd_iff_div_mul_eq]
    omega
  · have hOnce : 1 * hz ≤ max 1 (500000 / hz) * hz :=
      Nat.mul_le_mul_right hz (le_max_left 1 _)
    exact iff_of_true (by omega) (.inr hFast)

/-- Rounding takes less than a microsecond away. -/
theorem lt_halfPeriod_succ_mul {hz : Nat} (hHz : 0 < hz) :
    500000 < (halfPeriod hz + 1) * hz := by
  rw [halfPeriod, if_neg hHz.ne']
  calc 500000 < hz * (500000 / hz + 1) := Nat.lt_mul_div_succ 500000 hHz
    _ = (500000 / hz + 1) * hz := Nat.mul_comm _ _
    _ ≤ (max 1 (500000 / hz) + 1) * hz :=
      Nat.mul_le_mul_right hz (Nat.succ_le_succ (le_max_right 1 _))

/-! ## The pace of the clock -/

/-- Before a clock pulse, in which SDA rests, the clock is low for half a period. -/
def Sight.Precedes (half : Nat) : Sight → Sight → Prop
  | .edge true us, .edge false _ => half ≤ us
  | _, _ => True

/-- Each level of the clock lasts for half a period, except that it may be low for less before it
rises for a start or a stop. -/
structure Paced (half : Nat) (sights : List Sight) : Prop where
  high : ∀ us, .edge false us ∈ sights → half ≤ us
  low : sights.IsChain (Sight.Precedes half)
  /-- Whatever was seen before, it is not the rising edge of a clock pulse. -/
  opens : ∀ us, sights.head? ≠ some (.edge false us)

namespace Paced

variable {sights more : List Sight}

theorem nil : Paced half [] :=
  ⟨fun _ h => absurd h List.not_mem_nil, .nil, nofun⟩

theorem append (h : Paced half sights) (h' : Paced half more) : Paced half (sights ++ more) where
  high us hUs := (List.mem_append.mp hUs).elim (h.high us) (h'.high us)
  low := by
    refine List.isChain_append.mpr ⟨h.low, h'.low, fun x _ y hy => ?_⟩
    -- Only a falling edge could ask for something, and the second part does not open with one.
    match x, y with
    | .edge true _, .edge false us => exact absurd hy (h'.opens us)
    | .edge true _, .edge true _ | .edge true _, .condition _ => trivial
    | .edge false _, _ | .condition _, _ => trivial
  opens us := by
    cases sights with
    | nil => exact h'.opens us
    | cons sight sights => exact h.opens us

theorem cut (h : Paced half more) (hFirst : sights <+: more) : Paced half sights where
  high us hUs := h.high us (hFirst.subset hUs)
  low := h.low.prefix hFirst
  opens us hUs := by
    obtain ⟨rest, rfl⟩ := hFirst
    cases sights with
    | nil => nomatch hUs
    | cons sight sights => exact h.opens us hUs

/-- Two rising edges of which the second begins a clock pulse are a period apart. -/
theorem period (h : Paced half sights) {high low us : Nat}
    (hSights : [.edge false high, .edge true low, .edge false us] <:+: sights) :
    2 * half ≤ high + low := by
  have hHigh : half ≤ high := h.high high (hSights.subset List.mem_cons_self)
  have hChain := List.IsChain.infix h.low hSights
  have hLow : half ≤ low := (List.isChain_cons_cons.mp (List.isChain_cons_cons.mp hChain).2).1
  omega

end Paced

/-! ## Waveforms -/

/-- The sights of clock pulses. -/
def pulses (half n : Nat) : List Sight :=
  (List.replicate n [.edge true half, .edge false half]).flatten

/-- The sights of a repeated start, for which the clock rises at once. -/
def restart (half : Nat) : List Sight :=
  [.edge true 0, .condition false, .edge false (2 * half)]

/-- The sights of bytes, and of more bytes behind each repeated start. A byte and its
acknowledgement are nine pulses. -/
def frames (half bytes : Nat) (again : List Nat) : List Sight :=
  pulses half (9 * bytes) ++ again.flatMap fun n => restart half ++ pulses half (9 * n)

/-- The sights of a whole transaction on lines that have been idle for some time: a start, bytes,
and a stop for which the clock rises at once. -/
def waveform (half idle bytes : Nat) (again : List Nat) : List Sight :=
  [.condition false, .edge false (idle + 2 * half)] ++ frames half bytes again ++
    [.edge true 0, .condition true]

theorem pulses_add (m n : Nat) : pulses half (m + n) = pulses half m ++ pulses half n := by
  rw [pulses, List.replicate_add, List.flatten_append]
  rfl

theorem frames_append (m n : Nat) (again : List Nat) :
    frames half m [] ++ frames half n again = frames half (m + n) again := by
  rw [frames, frames, frames, List.flatMap_nil, List.append_nil, Nat.mul_add, pulses_add,
    List.append_assoc]

theorem restart_append_frames (n : Nat) (again : List Nat) :
    restart half ++ frames half n again = frames half 0 (n :: again) := by
  rw [frames, frames, List.flatMap_cons, List.append_assoc]
  rfl

theorem paced_pulses (n : Nat) : Paced half (pulses half n) := by
  induction n with
  | zero => exact .nil
  | succ n ih =>
    have hPulse : Paced half [.edge true half, .edge false half] :=
      ⟨by simp, by simp [Sight.Precedes], by simp⟩
    exact hPulse.append ih

theorem paced_restart : Paced half (restart half) :=
  ⟨by simp [restart]; omega, by simp [restart, Sight.Precedes], by simp [restart]⟩

theorem paced_frames (bytes : Nat) (again : List Nat) : Paced half (frames half bytes again) := by
  refine (paced_pulses _).append ?_
  induction again with
  | nil => exact .nil
  | cons n again ih => exact (paced_restart.append (paced_pulses _)).append ih

/-! ## Bits and bytes -/

/-- The lines between two clock pulses. -/
def clockLow (sda : Bool) : Lines where
  scl := false
  sda := sda

/-- The lines in a clock pulse that has lasted for some time. -/
def clockHigh (sda : Bool) (us : Nat) : Lines where
  sda := sda
  elapsed := us

section
variable {after : Lines} {sights : List Sight}

theorem leads_sda (sda high : Bool) :
    Leads works (I2c.sda high) (clockLow sda) (clockLow high) [] :=
  .drive .sda high

theorem leads_fall (sda : Bool) (us : Nat) :
    Leads works (scl false) (clockHigh sda us) (clockLow sda) [.edge false us] :=
  .drive .scl false

theorem Leads.rise {sda : Bool} {next : Drive (Scripted I2cLine) α}
    (h : Leads works next (clockHigh sda half) after sights) :
    Leads works (do Gpio.wait half; scl true; Gpio.wait half; next) (clockLow sda) after
      (.edge true half :: sights) := by
  have hRise : Leads works (do Gpio.wait half; scl true; Gpio.wait half; next)
      (clockLow sda) after _ :=
    .bind (.wait half) fun _ => .bind (.drive .scl true) fun _ => .bind (.wait half) fun _ => by
      simpa [Lines.see, clockLow, clockHigh] using h
  simpa [Lines.see, Lines.note, clockLow] using hRise

theorem Leads.fall {sda : Bool} {us : Nat} {next : Drive (Scripted I2cLine) α}
    (h : Leads works next (clockLow sda) after sights) :
    Leads works (do scl false; next) (clockHigh sda us) after (.edge false us :: sights) :=
  .bind (leads_fall sda us) fun _ => h

end

theorem leads_writeBit (sda bit : Bool) :
    Leads works (writeBit half bit) (clockLow sda) (clockLow bit) (pulses half 1) :=
  .quietly (leads_sda sda bit) fun _ => .rise (leads_fall bit half)

theorem leads_readBit (sda : Bool) :
    Leads works (readBit half) (clockLow sda) (clockLow sda) (pulses half 1) :=
  .rise (.quietly (.sample .sda) fun high => .fall (.pure high))

theorem leads_bits (bits : List Bool) (sda : Bool) :
    Leads works (bits.forM (writeBit half)) (clockLow sda) (clockLow (bits.getLastD sda))
      (pulses half bits.length) := by
  induction bits generalizing sda with
  | nil => exact .pure ()
  | cons bit bits ih =>
    rw [List.length_cons, Nat.add_comm, pulses_add, List.getLastD_cons]
    exact .bind (leads_writeBit sda bit) fun _ => ih bit

theorem leads_readBits (n : Nat) (sda : Bool) (byte : UInt8) :
    Leads works (readBits half n byte) (clockLow sda) (clockLow sda) (pulses half n) := by
  induction n generalizing byte with
  | zero => exact .pure byte
  | succ n ih =>
    have hPulses : pulses half (n + 1) = pulses half 1 ++ pulses half n := by
      rw [Nat.add_comm, pulses_add]
    rw [hPulses]
    exact .bind (leads_readBit sda) fun bit => ih (Byte.shiftIn byte bit)

theorem leads_writeByte (sda : Bool) (byte : UInt8) :
    Leads works (writeByte half byte) (clockLow sda) (clockLow true) (pulses half 9) := by
  rw [show pulses half 9 = pulses half 8 ++ pulses half 1 from pulses_add 8 1]
  refine .bind (leads_bits (Byte.bits byte) sda) fun _ => ?_
  exact .quietly (leads_sda _ true) fun _ => .rise <| .quietly (.sample .sda) fun high =>
    .fall (.pure !high)

theorem leads_readByte (sda acknowledge : Bool) :
    Leads works (readByte half acknowledge) (clockLow sda) (clockLow true) (pulses half 9) := by
  rw [show pulses half 9 = pulses half 8 ++ pulses half 1 from pulses_add 8 1]
  refine .quietly (leads_sda sda true) fun _ => .bind (leads_readBits 8 true 0) fun byte => ?_
  exact .quietly (leads_sda true !acknowledge) fun _ => .rise <| .fall <|
    .quietly (leads_sda _ true) fun _ => .pure byte

/-! ## Starts and stops -/

/-- The controller drives neither of the lines low. -/
def Lines.Idle (lines : Lines) : Prop :=
  lines.scl = true ∧ lines.sda = true

theorem leads_idle (lines : Lines) :
    ∃ after sights, Leads works idle lines after sights ∧ after.Idle := by
  refine ⟨_, _, .bind (.drive .sda true) fun _ => .drive .scl true, ?_⟩
  obtain ⟨_ | _, _, elapsed⟩ := lines <;> exact ⟨rfl, rfl⟩

/-- The sights of a start, wherever the lines are. -/
def opening (half : Nat) (lines : Lines) : List Sight :=
  (if lines.scl then if lines.sda then [] else [.condition true] else [.edge true lines.elapsed]) ++
    [.condition false, .edge false ((if lines.scl then lines.elapsed else 0) + 2 * half)]

/-- The sights of a stop, wherever the lines are. -/
def closing (lines : Lines) : List Sight :=
  (if lines.scl then if lines.sda then [.condition false] else []
    else [.edge true lines.elapsed]) ++ [.condition true]

/-- The lines after a stop. -/
def closed (half : Nat) (lines : Lines) : Lines where
  elapsed := (if lines.scl then lines.elapsed else 0) + 2 * half

theorem leads_start (lines : Lines) :
    Leads works (start half) lines (clockLow false) (opening half lines) := by
  have h : Leads works (start half) lines _ _ :=
    .bind (.drive .sda true) fun _ => .bind (.drive .scl true) fun _ => .bind (.wait half)
      fun _ => .bind (.drive .sda false) fun _ => .bind (.wait half) fun _ => .drive .scl false
  obtain ⟨_ | _, _ | _, elapsed⟩ := lines <;>
    simpa [Lines.see, Lines.note, opening, clockLow, Nat.two_mul, Nat.add_assoc] using h

theorem leads_stop (lines : Lines) :
    Leads works (stop half) lines (closed half lines) (closing lines) := by
  have h : Leads works (stop half) lines _ _ :=
    .bind (.drive .sda false) fun _ => .bind (.drive .scl true) fun _ => .bind (.wait half)
      fun _ => .bind (.drive .sda true) fun _ => .wait half
  obtain ⟨_ | _, _ | _, elapsed⟩ := lines <;>
    simpa [Lines.see, Lines.note, closing, closed, Nat.two_mul, Nat.add_assoc] using h

theorem paced_opening (lines : Lines) : Paced half (opening half lines) := by
  have hHigh (us : Nat) : half ≤ us + 2 * half := by omega
  refine ⟨fun us hUs => ?_, ?_, fun us => ?_⟩
  · obtain rfl : us = (if lines.scl then lines.elapsed else 0) + 2 * half := by
      obtain ⟨_ | _, _ | _, elapsed⟩ := lines <;> simpa [opening] using hUs
    exact hHigh _
  · obtain ⟨_ | _, _ | _, elapsed⟩ := lines <;> simp [opening, Sight.Precedes]
  · obtain ⟨_ | _, _ | _, elapsed⟩ := lines <;> simp [opening]

theorem paced_closing (lines : Lines) : Paced half (closing lines) := by
  obtain ⟨_ | _, _ | _, elapsed⟩ := lines <;>
    exact ⟨by simp [closing], by simp [closing, Sight.Precedes], by simp [closing]⟩

/-! ## Messages -/

/-- The end of a program that clocks bytes. It has clocked them all, or a byte that nobody
acknowledged was the last one, or a pin failed. -/
inductive Clocked (works : Prop) (half bytes : Nat) (again : List Nat) :
    Except BitError α → Lines → List Sight → Prop where
  | whole (a : α) (sda : Bool) :
    Clocked works half bytes again (.ok a) (clockLow sda) (frames half bytes again)
  | refused (sda : Bool) (bytes' : Nat) (again' : List Nat) :
    Clocked works half bytes again (.error .nack) (clockLow sda) (frames half bytes' again')
  | cut {after : Lines} {seen : List Sight} (bytes' : Nat) (again' : List Nat) (faulty : ¬ works)
    (first : seen <+: frames half bytes' again') :
    Clocked works half bytes again (.error .pin) after seen

theorem Clocked.paced {bytes : Nat} {again : List Nat} {result : Except BitError α} {after : Lines}
    {sights : List Sight} (h : Clocked works half bytes again result after sights) :
    Paced half sights := by
  cases h with
  | whole a sda => exact paced_frames bytes again
  | refused sda bytes' again' => exact paced_frames bytes' again'
  | cut bytes' again' faulty first => exact (paced_frames bytes' again').cut first

/-- The end stays the same behind a first part, as long as frames behind it are frames. -/
theorem Clocked.behind {bytes bytes₀ : Nat} {again again₀ : List Nat} {result : Except BitError α}
    {after : Lines} {first sights : List Sight}
    (h : Clocked works half bytes again result after sights)
    (hFrames : ∀ n more, ∃ n' more', first ++ frames half n more = frames half n' more')
    (hWhole : first ++ frames half bytes again = frames half bytes₀ again₀) :
    Clocked works half bytes₀ again₀ result after (first ++ sights) := by
  cases h with
  | whole a sda =>
    rw [hWhole]
    exact .whole a sda
  | refused sda bytes' again' =>
    obtain ⟨n', more', hMore⟩ := hFrames bytes' again'
    rw [hMore]
    exact .refused sda n' more'
  | cut bytes' again' faulty hSeen =>
    obtain ⟨n', more', hMore⟩ := hFrames bytes' again'
    refine .cut n' more' faulty ?_
    rw [← hMore]
    exact (List.prefix_append_right_inj first).mpr hSeen

/-- Between two clock pulses, the program clocks so many bytes, and more behind each repeated start.
-/
def Clocks (works : Prop) (half bytes : Nat) (again : List Nat)
    (program : Drive (Scripted I2cLine) α) : Prop :=
  ∀ sda, Observed works program (clockLow sda) (Clocked works half bytes again)

namespace Clocks

variable {m n : Nat} {again : List Nat} {program : Drive (Scripted I2cLine) α}

theorem pure (a : α) : Clocks works half 0 [] (Pure.pure a : Drive (Scripted I2cLine) α) :=
  fun sda => .ended (fun _ => Runs.pure a) (.whole a sda)

theorem bind {next : α → Drive (Scripted I2cLine) β} (h : Clocks works half m [] program)
    (hNext : ∀ a, Clocks works half n again (next a)) :
    Clocks works half (m + n) again (program >>= next) := by
  intro sda
  refine Observed.bind (h sda) (fun a mid sights hFirst => ?_) fun e after sights hFirst => ?_
  · cases hFirst with
    | whole _ sda' =>
      exact (hNext a sda').mono fun result after more hMore =>
        hMore.behind (fun n' again' => ⟨m + n', again', frames_append m n' again'⟩)
          (frames_append m n again)
  · cases hFirst with
    | refused sda' m' again' => exact .refused sda' m' again'
    | cut m' again' faulty first => exact .cut m' again' faulty first

theorem behind_start (h : Clocks works half n again program) :
    Clocks works half 0 (n :: again) (do start half; program) := by
  intro sda
  have hOpening : opening half (clockLow sda) = restart half := by
    simp [opening, clockLow, restart]
  refine Observed.bind (leads_start (clockLow sda)) (fun _ mid sights hStart => ?_)
    fun e after sights hStart => ?_
  · cases hStart
    rw [hOpening]
    exact (h false).mono fun result after more hMore =>
      hMore.behind (fun n' again' => ⟨0, n' :: again', restart_append_frames n' again'⟩)
        (restart_append_frames n again)
  · cases hStart with
    | cut faulty first =>
      refine .cut 0 [0] faulty ?_
      rw [← restart_append_frames, ← hOpening]
      exact first.trans (List.prefix_append _ _)

end Clocks

theorem clocks_send (byte : UInt8) : Clocks works half 1 [] (send half byte) := by
  intro sda
  refine Observed.bind (leads_writeByte sda byte) (fun acknowledged mid sights hLed => ?_)
    fun e after sights hCut => ?_
  · cases hLed
    cases acknowledged with
    | false => exact .ended (fun _ => Runs.throw .nack) (.refused true 1 [])
    | true => exact .ended (fun _ => Runs.pure ()) (.whole () true)
  · cases hCut with
    | cut faulty first => exact .cut 1 [] faulty first

theorem clocks_sendAll (bytes : List UInt8) :
    Clocks works half bytes.length [] (bytes.forM (send half)) := by
  induction bytes with
  | nil => exact .pure ()
  | cons byte bytes ih =>
    rw [List.length_cons, Nat.add_comm]
    exact .bind (clocks_send byte) fun _ => ih

theorem clocks_readByte (acknowledge : Bool) :
    Clocks works half 1 [] (readByte half acknowledge) := by
  intro sda
  refine (leads_readByte sda acknowledge).mono fun result after sights hLed => ?_
  cases hLed with
  | whole byte => exact .whole byte true
  | cut faulty first => exact .cut 1 [] faulty first

theorem clocks_receive (count : Nat) : Clocks works half count [] (receive half count) := by
  induction count with
  | zero => exact .pure []
  | succ count ih =>
    have h : Clocks works half (1 + (count + 0)) [] (receive half (count + 1)) :=
      .bind (clocks_readByte _) fun byte => .bind ih fun rest => .pure (byte :: rest)
    rwa [Nat.add_zero, Nat.add_comm 1] at h

/-! ## Transactions -/

/-- What comes of a transaction in which so many bytes are to be clocked, and more behind each
repeated start. The clock keeps its pace, so that a clock pulse begins a period after the rising
edge before it. Unless a pin fails, idle lines show the waveform and are idle again. -/
structure Transacted (works : Prop) (half bytes : Nat) (again : List Nat) (lines : Lines)
    (result : Except BitError α) (after : Lines) (sights : List Sight) : Prop where
  faulty : result = .error .pin → ¬ works
  paced : Paced half sights
  period : ∀ high low us,
    [.edge false high, .edge true low, .edge false us] <:+: sights → 2 * half ≤ high + low
  whole : lines.Idle → result ≠ .error .pin → after.Idle ∧ ∃ bytes' again',
    sights = waveform half lines.elapsed bytes' again' ∧
      ∀ a, result = .ok a → bytes' = bytes ∧ again' = again

section
variable {bytes : Nat} {again : List Nat} {lines mid after : Lines} {sights : List Sight}

theorem Transacted.cut (hFaulty : ¬ works) (h : Paced half sights) :
    Transacted works half bytes again lines (.error .pin : Except BitError α) after sights :=
  ⟨fun _ => hFaulty, h, fun _ _ _ => h.period, fun _ hPin => absurd rfl hPin⟩

/-- Whatever became of the bytes, the stop has been sent. -/
theorem Clocked.stopped {result : Except BitError α}
    (h : Clocked works half bytes again result mid sights) :
    Transacted works half bytes again lines result (closed half mid)
      (opening half lines ++ (sights ++ closing mid)) := by
  have hPaced : Paced half (opening half lines ++ (sights ++ closing mid)) :=
    (paced_opening lines).append (h.paced.append (paced_closing mid))
  have hWaveform (hIdle : lines.Idle) (bytes' : Nat) (again' : List Nat) (sda : Bool) :
      opening half lines ++ (frames half bytes' again' ++ closing (clockLow sda)) =
        waveform half lines.elapsed bytes' again' := by
    simp [opening, closing, waveform, clockLow, hIdle.1, hIdle.2]
  cases h with
  | whole a sda =>
    exact ⟨nofun, hPaced, fun _ _ _ => hPaced.period, fun hIdle _ =>
      ⟨⟨rfl, rfl⟩, bytes, again, hWaveform hIdle bytes again sda, fun _ _ => ⟨rfl, rfl⟩⟩⟩
  | refused sda bytes' again' =>
    exact ⟨nofun, hPaced, fun _ _ _ => hPaced.period, fun hIdle _ =>
      ⟨⟨rfl, rfl⟩, bytes', again', hWaveform hIdle bytes' again' sda, nofun⟩⟩
  | cut bytes' again' faulty first => exact .cut faulty hPaced

theorem observed_transaction {body : Drive (Scripted I2cLine) α}
    (h : Clocks works half bytes again body) (lines : Lines) :
    Observed works (transaction half body) lines (Transacted works half bytes again lines) := by
  refine Observed.bind (leads_start lines) (fun _ _ _ hStart => ?_) fun e after sights hCut => ?_
  · cases hStart
    refine Observed.bind (h false).attempt (fun answer mid sights hBody => ?_)
      fun e after sights hBody => ?_
    · obtain ⟨_, hAnswer, hClocked⟩ := hBody
      cases hAnswer
      -- Where the body failed, the stop starts from wherever the lines were left.
      refine Observed.bind (leads_stop mid) (fun _ _ _ hStop => ?_) fun e after more hCut => ?_
      · cases hStop
        refine .ended (fun _ => Runs.liftExcept answer) ?_
        rw [List.append_nil]
        exact hClocked.stopped
      · cases hCut with
        | cut faulty first =>
          exact .cut faulty ((paced_opening lines).append
            (hClocked.paced.append ((paced_closing mid).cut first)))
    · obtain ⟨_, hAnswer, _⟩ := hBody
      cases hAnswer
  · cases hCut with
    | cut faulty first => exact .cut faulty ((paced_opening lines).cut first)

end

/-- On any pins, wherever their lines are, the program is a transaction in which so many bytes are
to be clocked, and more behind each repeated start. -/
def Timed (half bytes : Nat) (again : List Nat) (program : Drive (Scripted I2cLine) α) : Prop :=
  ∀ pins : Scripted I2cLine, ∃ result after events, Runs program pins result after ∧
    after.trace = events.reverse ++ pins.trace ∧ (pins.Faultless → after.Faultless) ∧
    Transacted pins.Faultless half bytes again (Lines.ofTrace pins.trace) result
      (Lines.ofTrace after.trace) ((Lines.ofTrace pins.trace).sights events)

theorem timed_transaction {bytes : Nat} {again : List Nat} {body : Drive (Scripted I2cLine) α}
    (h : ∀ works, Clocks works half bytes again body) :
    Timed half bytes again (transaction half body) := by
  intro pins
  obtain ⟨result, after, events, hRun, hTrace, hAfter, hTransacted⟩ :=
    observed_transaction (h pins.Faultless) (Lines.ofTrace pins.trace) pins rfl id
  refine ⟨result, after, events, hRun, hTrace, hAfter, ?_⟩
  rw [hTrace, Lines.ofTrace_append]
  exact hTransacted

theorem runs_idle (pins : Scripted I2cLine) :
    ∃ result after, Runs idle pins result after ∧
      (pins.Faultless → after.Faultless ∧ result = .ok ()) ∧
      (result = .ok () → (Lines.ofTrace after.trace).Idle) := by
  have hLeads : ∃ after sights,
      Leads pins.Faultless idle (Lines.ofTrace pins.trace) after sights ∧ after.Idle :=
    leads_idle _
  obtain ⟨lines, sights, hLeads, hIdle⟩ := hLeads
  obtain ⟨result, after, events, hRun, hTrace, hAfter, hLed⟩ := hLeads pins rfl id
  refine ⟨result, after, hRun, ?_⟩
  rw [hTrace, Lines.ofTrace_append]
  generalize (Lines.ofTrace pins.trace).seeAll events = found at hLed
  cases hLed with
  | whole => exact ⟨fun hPins => ⟨hAfter hPins, rfl⟩, fun _ => hIdle⟩
  | cut faulty first => exact ⟨fun hPins => absurd hPins faulty, nofun⟩

/-- The clock of a bit-banged controller that was given a frequency when it was opened or later.
Half a period is rounded down to whole microseconds, but not below one. So a period is long enough
exactly where the frequency divides half a million or is no lower than that, and it is nowhere short
by two microseconds. Opening the controller makes the lines idle. From then on, whatever is
transferred, acknowledged or not, and whichever pins fail, half a period passes between two edges of
the clock; only for a repeated start and for the stop the clock rises at once. -/
theorem clock_keeps_pace {hz : Nat} (hHz : 0 < hz) {controller : I2cController}
    (hController : controller = .atFrequency hz ∨
      ∃ earlier : I2cController, controller = earlier.withFrequency hz) :
    (1000000 ≤ 2 * controller.half * hz ↔ hz ∣ 500000 ∨ 500000 ≤ hz) ∧
      1000000 < 2 * (controller.half + 1) * hz ∧
      (∀ pins : Scripted I2cLine, ∃ result after, Runs idle pins result after ∧
        (pins.Faultless → after.Faultless ∧ result = .ok ()) ∧
        (result = .ok () → (Lines.ofTrace after.trace).Idle)) ∧
      (∀ address bytes,
        Timed controller.half (1 + bytes.length) [] (write controller.half address bytes)) ∧
      (∀ address count, Timed controller.half (1 + count) [] (read controller.half address count)) ∧
      ∀ address bytes count, Timed controller.half (1 + bytes.length) [1 + count]
        (writeRead controller.half address bytes count) := by
  have hHalf : controller.half = halfPeriod hz := by
    rcases hController with rfl | ⟨earlier, rfl⟩ <;> rfl
  rw [hHalf]
  refine ⟨?_, ?_, runs_idle, fun address bytes => ?_, fun address count => ?_,
    fun address bytes count => ?_⟩
  · rw [← le_halfPeriod_mul_iff hHz, Nat.mul_assoc]
    omega
  · have hRounded := lt_halfPeriod_succ_mul hHz
    rw [Nat.mul_assoc]
    omega
  · exact timed_transaction fun _ => .bind (clocks_send _) fun _ => clocks_sendAll bytes
  · exact timed_transaction fun _ => .bind (clocks_send _) fun _ => clocks_receive count
  · refine timed_transaction fun works => ?_
    have hBody : Clocks works (halfPeriod hz) (1 + (bytes.length + 0)) [1 + count] (do
        send (halfPeriod hz) (BusBench.I2c.writeAddress address)
        bytes.forM (send (halfPeriod hz))
        start (halfPeriod hz)
        send (halfPeriod hz) (BusBench.I2c.readAddress address)
        receive (halfPeriod hz) count) :=
      .bind (clocks_send _) fun _ => .bind (clocks_sendAll bytes) fun _ =>
        .behind_start (.bind (clocks_send _) fun _ => clocks_receive count)
    exact hBody

/-- A write and a read behind a repeated start, at a frequency that is too high by the rounding. -/
theorem clock_keeps_pace_repeatedStart :
    let controller := (I2cController.atFrequency 100000).withFrequency 400000
    let pins : Scripted I2cLine := { levels := [false, false, false] }
    0 < 400000 ∧ (∃ earlier : I2cController, controller = earlier.withFrequency 400000) ∧
      ¬ 1000000 ≤ 2 * controller.half * 400000 ∧
      ∃ after events, Runs (writeRead controller.half 0x50 [7] 1) pins (.ok [0xFF]) after ∧
        after.trace = events.reverse ∧ Lines.sights {} events = waveform 1 0 2 [2] := by
  intro controller pins
  have hController : ∃ earlier : I2cController, controller = earlier.withFrequency 400000 :=
    ⟨_, rfl⟩
  obtain ⟨hWhole, -, -, -, -, hTimed⟩ :=
    clock_keeps_pace (show 0 < 400000 by decide) (.inr hController)
  obtain ⟨result, after, events, hRun, hTrace, -, hTransacted⟩ := hTimed 0x50 [7] 1 pins
  have hRead : ((writeRead controller.half 0x50 [7] 1).run pins).1 = .ok [0xFF] := by decide +kernel
  obtain rfl : result = .ok [0xFF] := (congrArg Prod.fst hRun).symm.trans hRead
  obtain ⟨-, bytes, again, hSights, hBytes⟩ := hTransacted.whole ⟨rfl, rfl⟩ nofun
  obtain ⟨rfl, rfl⟩ := hBytes _ rfl
  exact ⟨by decide, hController, fun h => absurd (hWhole.mp h) (by decide), after, events, hRun,
    hTrace.trans (List.append_nil _), hSights⟩

end BusBench.BitBang.I2c
