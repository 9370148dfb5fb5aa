import BusBench.Proofs.BitBang.Pins

/-!
# A logic analyser on an I2C bus

A logic analyser watches the two lines that a bit-banged controller drives. It notes every edge of
the clock with the time since the edge before it, and every start and stop.

* `I2c.Lines.sights`: what the analyser notes of some events.
* `I2c.Observed`: what can be said of a program in terms of its answer and of what was noted.
* `I2c.Leads`: a program that is run to its end, unless a pin fails.
-/

namespace BusBench.BitBang.I2c

open Drive (Runs)

variable {α β : Type}

/-! ## Lines and sights -/

/-- Something that a logic analyser notes. -/
inductive Sight where
  /-- SCL moved to a level, so many microseconds after it moved last. -/
  | edge (high : Bool) (us : Nat)
  /-- SDA moved to a level while SCL was high: it fell for a start and rose for a stop. -/
  | condition (high : Bool)
  deriving DecidableEq, Repr

/-- The lines as the analyser knows them; a line is high until it is driven. -/
structure Lines where
  scl : Bool := true
  sda : Bool := true
  /-- The microseconds since SCL moved. -/
  elapsed : Nat := 0
  deriving DecidableEq, Repr

namespace Lines

def see (lines : Lines) : PinEvent I2cLine → Lines
  | .drove .scl high => if lines.scl = high then lines else { lines with scl := high, elapsed := 0 }
  | .drove .sda high => { lines with sda := high }
  | .waited us => { lines with elapsed := lines.elapsed + us }
  | _ => lines

def note (lines : Lines) : PinEvent I2cLine → List Sight
  | .drove .scl high => if lines.scl = high then [] else [.edge high lines.elapsed]
  | .drove .sda high => if lines.scl = false ∨ lines.sda = high then [] else [.condition high]
  | _ => []

def seeAll (lines : Lines) (events : List (PinEvent I2cLine)) : Lines :=
  events.foldl see lines

/-- What is noted of events, the oldest first. -/
def sights : Lines → List (PinEvent I2cLine) → List Sight
  | _, [] => []
  | lines, event :: events => lines.note event ++ (lines.see event).sights events

/-- The lines at the end of a trace whose newest event stands first. -/
def ofTrace (trace : List (PinEvent I2cLine)) : Lines :=
  seeAll {} trace.reverse

variable (lines : Lines) (events events' : List (PinEvent I2cLine))

theorem seeAll_append : lines.seeAll (events ++ events') = (lines.seeAll events).seeAll events' :=
  List.foldl_append

theorem sights_append :
    lines.sights (events ++ events') =
      lines.sights events ++ (lines.seeAll events).sights events' := by
  induction events generalizing lines with
  | nil => rfl
  | cons event events ih =>
    rw [List.cons_append, sights, ih, sights, List.append_assoc]
    rfl

theorem ofTrace_append (trace : List (PinEvent I2cLine)) :
    ofTrace (events.reverse ++ trace) = (ofTrace trace).seeAll events := by
  rw [ofTrace, List.reverse_append, List.reverse_reverse, seeAll_append, ofTrace]

end Lines

/-! ## Observed programs -/

/-- Run on pins whose lines are as the analyser knows them, the program ends, and `Q` holds of its
answer, of the lines then and of what was noted meanwhile. If `works` is true, the pins are without
faults before and after. -/
def Observed (works : Prop) (program : Drive (Scripted I2cLine) α) (lines : Lines)
    (Q : Except BitError α → Lines → List Sight → Prop) : Prop :=
  ∀ pins : Scripted I2cLine, Lines.ofTrace pins.trace = lines → (works → pins.Faultless) →
    ∃ result after events, Runs program pins result after ∧
      after.trace = events.reverse ++ pins.trace ∧ (works → after.Faultless) ∧
      Q result (lines.seeAll events) (lines.sights events)

namespace Observed

variable {works : Prop} {program : Drive (Scripted I2cLine) α} {lines : Lines}
  {Q : Except BitError α → Lines → List Sight → Prop}

theorem mono {Q' : Except BitError α → Lines → List Sight → Prop}
    (h : Observed works program lines Q)
    (hQ : ∀ result after sights, Q result after sights → Q' result after sights) :
    Observed works program lines Q' := by
  intro pins hLines hWorks
  obtain ⟨result, after, events, hRun, hTrace, hAfter, hResult⟩ := h pins hLines hWorks
  exact ⟨result, after, events, hRun, hTrace, hAfter, hQ _ _ _ hResult⟩

/-- A program that ends at once. -/
theorem ended {result : Except BitError α} (hRun : ∀ pins, Runs program pins result pins)
    (h : Q result lines []) : Observed works program lines Q :=
  fun pins _ hWorks => ⟨result, pins, [], hRun pins, rfl, hWorks, h⟩

theorem bind {next : α → Drive (Scripted I2cLine) β}
    {Q' : Except BitError β → Lines → List Sight → Prop} (h : Observed works program lines Q)
    (hNext : ∀ a mid sights, Q (.ok a) mid sights →
      Observed works (next a) mid fun result after more => Q' result after (sights ++ more))
    (hError : ∀ e after sights, Q (.error e) after sights → Q' (.error e) after sights) :
    Observed works (program >>= next) lines Q' := by
  intro pins hLines hWorks
  obtain ⟨result, mid, events, hRun, hTrace, hMid, hResult⟩ := h pins hLines hWorks
  cases result with
  | error e =>
    exact ⟨.error e, mid, events, .bind_error hRun, hTrace, hMid, hError _ _ _ hResult⟩
  | ok a =>
    have hMidLines : Lines.ofTrace mid.trace = lines.seeAll events := by
      rw [hTrace, Lines.ofTrace_append, hLines]
    obtain ⟨result', after, events', hRun', hTrace', hAfter, hResult'⟩ :=
      hNext a _ _ hResult mid hMidLines hMid
    refine ⟨result', after, events ++ events', .bind hRun hRun', ?_, hAfter, ?_⟩
    · rw [hTrace', hTrace, List.reverse_append, List.append_assoc]
    · rw [Lines.seeAll_append, Lines.sights_append]
      exact hResult'

theorem attempt (h : Observed works program lines Q) :
    Observed works (ExceptT.lift program.run : Drive (Scripted I2cLine) (Except BitError α)) lines
      fun result after sights => ∃ answer, result = .ok answer ∧ Q answer after sights := by
  intro pins hLines hWorks
  obtain ⟨result, after, events, hRun, hTrace, hAfter, hResult⟩ := h pins hLines hWorks
  exact ⟨.ok result, after, events, .attempt hRun, hTrace, hAfter, result, rfl, hResult⟩

end Observed

/-! ## Programs that nothing but a pin can stop -/

/-- The end of a program that leaves the lines as said when all of the sights have been noted. Where
a pin fails, the first of them have been. -/
inductive Led (works : Prop) (lines : Lines) (sights : List Sight) :
    Except BitError α → Lines → List Sight → Prop where
  | whole (a : α) : Led works lines sights (.ok a) lines sights
  | cut {after : Lines} {seen : List Sight} (faulty : ¬ works) (first : seen <+: sights) :
    Led works lines sights (.error .pin) after seen

/-- The program leads from lines to lines, and meanwhile these sights are noted. -/
def Leads (works : Prop) (program : Drive (Scripted I2cLine) α) (lines after : Lines)
    (sights : List Sight) : Prop :=
  Observed works program lines (Led works after sights)

namespace Leads

variable {works : Prop} {program : Drive (Scripted I2cLine) α} {lines mid after : Lines}
  {sights more : List Sight}

theorem pure (a : α) : Leads works (Pure.pure a) lines lines [] :=
  .ended (fun _ => Runs.pure a) (.whole a)

theorem bind {next : α → Drive (Scripted I2cLine) β} (h : Leads works program lines mid sights)
    (hNext : ∀ a, Leads works (next a) mid after more) :
    Leads works (program >>= next) lines after (sights ++ more) := by
  refine Observed.bind h (fun a mid' seen hLed => ?_) fun e after' seen hLed => ?_
  · cases hLed
    refine (hNext a).mono fun result after' seen hLed => ?_
    cases hLed with
    | whole b => exact .whole b
    | cut faulty first => exact .cut faulty (List.prefix_append_right_inj sights |>.mpr first)
  · cases hLed with
    | cut faulty first => exact .cut faulty (first.trans (List.prefix_append sights more))

/-- A first part of which nothing is seen. -/
theorem quietly {next : α → Drive (Scripted I2cLine) β} (h : Leads works program lines mid [])
    (hNext : ∀ a, Leads works (next a) mid after sights) :
    Leads works (program >>= next) lines after sights :=
  h.bind hNext

theorem drive (line : I2cLine) (high : Bool) :
    Leads works (Gpio.drive line high) lines (lines.see (.drove line high))
      (lines.note (.drove line high)) := by
  intro pins hLines hWorks
  obtain ⟨result, after, hRun, hOperated⟩ := Scripted.operated_drive line high pins
  cases hOperated with
  | done a noted faultless =>
    refine ⟨_, after, [.drove line high], hRun, noted, fun h => faultless (hWorks h), ?_⟩
    rw [Lines.sights, Lines.sights, List.append_nil]
    exact .whole a
  | failed noted faulty =>
    have hBroken : ¬ works := fun h => faulty (hWorks h)
    exact ⟨_, after, [.failed line], hRun, noted, fun h => absurd h hBroken,
      .cut hBroken List.nil_prefix⟩

theorem sample (line : I2cLine) : Leads works (Gpio.sample line) lines lines [] := by
  intro pins hLines hWorks
  obtain ⟨result, after, hRun, hOperated⟩ := Scripted.operated_sample line pins
  cases hOperated with
  | done a noted faultless =>
    exact ⟨_, after, [.sampled line a], hRun, noted, fun h => faultless (hWorks h), .whole a⟩
  | failed noted faulty =>
    have hBroken : ¬ works := fun h => faulty (hWorks h)
    exact ⟨_, after, [.failed line], hRun, noted, fun h => absurd h hBroken,
      .cut hBroken List.nil_prefix⟩

theorem wait (us : Nat) :
    Leads works (Gpio.wait us) lines (lines.see (.waited us)) [] := fun _ _ hWorks =>
  ⟨_, _, [.waited us], Scripted.runs_wait us, rfl, fun h => (hWorks h).waited us, .whole ()⟩

end Leads

end BusBench.BitBang.I2c
