import BusBench.Proofs.I2c.Refinement

/-!
# When the bus is free again

A transaction ends with a stop also where it fails. But a stop is a rise of the data line while the
clock is high, and the line does not rise as long as the target holds it low. A target that was
addressed to be read puts out the first bit of a byte at once, so it matters whether the controller
then reads this byte: the last byte that is read is not acknowledged, and the target lets go of the
line, but a controller that reads nothing sends its stop against the first bit.

* `Transaction.Holds`: a transaction after which the target holds the line.
* `runs_readingNothing`: the end of a transaction in which the target was asked for nothing.
* `Transaction.runs_leaving`: what any transaction leaves behind.
* `Transaction.idle_after_each`: the bus is free after each of some transactions exactly where none
  of them is such a transaction.
-/

namespace BusBench.Wire.I2cWires

open BitBang (BitError Drive)
open BitBang.Drive (Runs)
open BitBang.I2c (start stop send receive transaction)
open BusBench.I2c

variable {half : Nat} {wires : I2cWires} {target : Target} {sda : Bool} {memory : Memory}
  {address : UInt8}

/-! ## A free bus and a held one -/

/-- After a start the target listens for its address. -/
def HearsStart (half : Nat) (wires : I2cWires) : Prop :=
  ∃ wires', Runs (start half) wires (.ok ()) wires' ∧ wires'.target.Listens true

/-- Both lines are released by the controller, but the target holds one of them, for it has not seen
the stop. -/
structure Held (wires : I2cWires) : Prop where
  scl : wires.scl = true
  sda : wires.sda = true
  phase : wires.target.phase = .sending
  clocks : wires.target.clocks = 1
  low : wires.target.pullsLow = true

theorem Rests.isIdle (h : Rests memory wires) : wires.isIdle = true := by
  have hLevel : wires.sdaLevel = true := by rw [sdaLevel, h.sda, h.quiet, Bool.not_false,
    Bool.and_true]
  rw [I2cWires.isIdle, h.phase, h.scl, hLevel]
  decide

theorem Rests.hearsStart (h : Rests memory wires) : HearsStart half wires :=
  ⟨_, runs_start h, Target.Listens.start wires.target⟩

theorem Held.not_isIdle (h : Held wires) : wires.isIdle = false := by
  rw [I2cWires.isIdle, h.phase, show (TargetPhase.sending == .idle) = false by decide,
    Bool.false_and, Bool.false_and]

/-- The target takes the pulse of a start for the clock of its next bit. -/
theorem Held.runs_start (h : Held wires) :
    Runs (start half) wires (.ok ()) (clockLow false (wires.target.putBit 6)) := by
  obtain ⟨_, _, ⟨_, _, _, _, _, _, _, _, _, _⟩⟩ := wires
  obtain ⟨rfl, rfl, rfl, rfl, rfl⟩ := h
  rfl

theorem Held.not_hearsStart (h : Held wires) : ¬ HearsStart half wires := by
  rintro ⟨wires', hRun, hListens⟩
  have hStates : wires' = clockLow false (wires.target.putBit 6) :=
    congrArg Prod.snd (hRun.symm.trans h.runs_start)
  have hPhase : wires'.target.phase = .sending := by
    rw [hStates]
    exact h.phase
  rw [hListens.phase] at hPhase
  cases hPhase

/-! ## Reading nothing -/

/-- A stop that the target does not see, because it holds the data line. -/
theorem runs_stop_held (hSends : target.Sends) (hLow : target.pullsLow = true) :
    Runs (stop half) (clockLow sda target) (.ok ()) ⟨true, true, { target with clocks := 1 }⟩ := by
  have hRising (level : Bool) : target.rising level = { target with clocks := 1 } := by
    rw [Target.rising_sending hSends.phase (by rw [hSends.clocks]; decide), hSends.clocks]
  change (_, drive .sda true (drive .scl true (drive .sda false (clockLow sda target)))) = _
  simp [drive, setLine, react, clockLow, sdaLevel, hLow, hRising]

/-- Where the body of a transaction ends with a byte of the target still to be read, the first bit
of this byte decides whether the bus is free after it. -/
theorem runs_unread {α : Type} {body : Drive I2cWires α} {result : Except BitError α}
    {memory' : Memory} (h : Rests memory wires)
    (hBody : Runs body (clockLow false wires.target.start) result (clockLow sda target))
    (hSends : target.Sends) (hMemory : target.memory = memory') :
    ∃ wires', Runs (transaction half body) wires result wires' ∧
      (Byte.bit target.current 7 = true → Rests memory' wires') ∧
      (Byte.bit target.current 7 = false → Held wires') := by
  cases hBit : Byte.bit target.current 7 with
  | true =>
    have hQuiet : target.pullsLow = false := by rw [hSends.first, hBit, Bool.not_true]
    obtain ⟨wires', hRun, hRests⟩ := runs_transaction h hBody ⟨hQuiet, hMemory⟩
    exact ⟨wires', hRun, fun _ => hRests, nofun⟩
  | false =>
    have hLow : target.pullsLow = true := by rw [hSends.first, hBit, Bool.not_false]
    refine ⟨⟨true, true, { target with clocks := 1 }⟩, ?_, nofun, fun _ => ?_⟩
    · exact Runs.bind (runs_start h) (Runs.bind hBody.attempt
        (Runs.bind (runs_stop_held hSends hLow) (Runs.liftExcept _)))
    · exact ⟨rfl, rfl, hSends.phase, rfl, hLow⟩

theorem runs_read_nothing (h : Rests memory wires) (hOwn : memory.address? = some address)
    (hAddress : address < 128) :
    ∃ wires', Runs (BitBang.I2c.read half address 0) wires (.ok []) wires' ∧
      (Byte.bit (memory.outgoing.headD 0xFF) 7 = true →
        Rests { memory with outgoing := memory.outgoing.tail } wires') ∧
      (Byte.bit (memory.outgoing.headD 0xFF) 7 = false → Held wires') := by
  obtain ⟨target, hSend, hSends, hCurrent, hMemory⟩ :=
    runs_send_readAddress (Target.Listens.start wires.target) h.memory hOwn hAddress
  rw [← hCurrent]
  exact runs_unread h (Runs.bind hSend (Runs.pure [])) hSends hMemory

theorem runs_writeRead_nothing (h : Rests memory wires) (hOwn : memory.address? = some address)
    (hAddress : address < 128) (bytes : List UInt8) :
    ∃ wires', Runs (BitBang.I2c.writeRead half address bytes 0) wires (.ok []) wires' ∧
      (Byte.bit (memory.outgoing.headD 0xFF) 7 = true →
        Rests
          { memory with
            received := memory.received ++ bytes
            outgoing := memory.outgoing.tail } wires') ∧
      (Byte.bit (memory.outgoing.headD 0xFF) 7 = false → Held wires') := by
  obtain ⟨target, hSend, hListens, hMemory⟩ :=
    runs_send_writeAddress (Target.Listens.start wires.target) h.memory hOwn hAddress
  obtain ⟨_, target', hBytes, hListens', hMemory'⟩ := runs_send_all hListens hMemory bytes
  obtain ⟨final, hSend', hSends, hCurrent, hMemory''⟩ :=
    runs_send_readAddress (Target.Listens.start target') hMemory' hOwn hAddress
  rw [← hCurrent]
  exact runs_unread h (Runs.bind hSend (Runs.bind hBytes (Runs.bind (runs_restart hListens')
    (Runs.bind hSend' (Runs.pure []))))) hSends hMemory''

end BusBench.Wire.I2cWires

namespace BusBench.I2c.Transaction

open BitBang.Drive (Runs)
open Wire (I2cWires)
open Wire.I2cWires

variable {half : Nat} {wires : I2cWires} {memory : Memory} {transaction : Transaction}

/-! ## What a transaction leaves behind -/

/-- How many bytes the target takes from its queue. To be addressed is enough to take the first. -/
def fetched : Transaction → Nat
  | write _ _ => 0
  | read _ count | writeRead _ _ count => max 1 count

/-- The memory of a target after a transaction, which may also read nothing. -/
def next (transaction : Transaction) (memory : Memory) : Memory :=
  if memory.address? = some transaction.address then
    { memory with
      received := memory.received ++ transaction.bytes
      outgoing := memory.outgoing.drop transaction.fetched }
  else memory

/-- The target is addressed to be read and is then asked for nothing, and the byte that it has taken
from its queue begins with a zero. -/
def Holds (memory : Memory) (transaction : Transaction) : Prop :=
  memory.address? = some transaction.address ∧ transaction.count < transaction.fetched ∧
    Byte.bit (memory.outgoing.headD 0xFF) 7 = false

instance : Decidable (Holds memory transaction) :=
  inferInstanceAs (Decidable (_ ∧ _ ∧ _))

theorem valid_or_count_lt (transaction : Transaction) (hAddress : transaction.address < 128) :
    transaction.Valid ∧ transaction.count = transaction.fetched ∨
      transaction.count = 0 ∧ transaction.fetched = 1 := by
  cases transaction with
  | write address bytes => exact .inl ⟨hAddress, rfl⟩
  | read address count | writeRead address bytes count =>
    rcases Nat.eq_zero_or_pos count with rfl | hCount
    · exact .inr ⟨rfl, rfl⟩
    · exact .inl ⟨⟨hAddress, hCount⟩, (Nat.max_eq_right hCount).symm⟩

theorem next_of_other (hOther : memory.address? ≠ some transaction.address) :
    transaction.next memory = memory :=
  if_neg hOther

/-- Where something is read, nothing else is taken from the queue. -/
theorem next_eq_onBus (hCount : transaction.count = transaction.fetched) :
    transaction.next memory = (transaction.onBus memory).2 := by
  unfold next onBus
  rw [hCount]
  split <;> rfl

/-- A target that was asked for nothing. -/
theorem runs_readingNothing (hAddress : transaction.address < 128) (h : Rests memory wires)
    (hOwn : memory.address? = some transaction.address) (hCount : transaction.count = 0)
    (hFetched : transaction.fetched = 1) :
    ∃ wires', Runs (transaction.run half) wires (.ok []) wires' ∧
      (Byte.bit (memory.outgoing.headD 0xFF) 7 = true → Rests (transaction.next memory) wires') ∧
      (Byte.bit (memory.outgoing.headD 0xFF) 7 = false → Held wires') := by
  rw [next, if_pos hOwn, hFetched, List.drop_one]
  cases transaction with
  | write address bytes => cases hFetched
  | read address count =>
    obtain rfl : count = 0 := hCount
    simp only [bytes, List.append_nil]
    exact runs_read_nothing h hOwn hAddress
  | writeRead address bytes count =>
    obtain rfl : count = 0 := hCount
    exact runs_writeRead_nothing h hOwn hAddress bytes

/-- On a free bus every transaction is answered, and unless it holds the line the bus is free again.
-/
theorem runs_leaving (half : Nat) (hAddress : transaction.address < 128) (h : Rests memory wires) :
    ∃ wires', Runs (transaction.run half) wires (transaction.onBus memory).1 wires' ∧
      (¬ transaction.Holds memory → Rests (transaction.next memory) wires') ∧
      (transaction.Holds memory → Held wires') := by
  by_cases hOwn : memory.address? = some transaction.address
  · rcases valid_or_count_lt transaction hAddress with ⟨hValid, hCount⟩ | ⟨hCount, hFetched⟩
    · obtain ⟨wires', hRun, hRests⟩ := runs_onBus half transaction hValid h
      rw [← next_eq_onBus hCount] at hRests
      exact ⟨wires', hRun, fun _ => hRests, fun hHolds => absurd hHolds.2.1 (by omega)⟩
    · have hAnswer : (transaction.onBus memory).1 = .ok [] := by
        rw [onBus, if_pos hOwn, hCount]
        rfl
      obtain ⟨wires', hRun, hFree, hHeld⟩ :=
        runs_readingNothing hAddress h hOwn hCount hFetched
      rw [hAnswer]
      refine ⟨wires', hRun, fun hNot => hFree ?_, fun hHolds => hHeld hHolds.2.2⟩
      by_contra hBit
      exact hNot ⟨hOwn, by omega, Bool.eq_false_iff.mpr hBit⟩
  · rw [next_of_other hOwn, onBus, if_neg hOwn]
    obtain ⟨wires', hRun, hRests⟩ := runs_foreign transaction hAddress h hOwn
    exact ⟨wires', hRun, fun _ => hRests, fun hHolds => absurd hHolds.1 hOwn⟩

/-! ## Several transactions -/

/-- None of the transactions holds the line. -/
def NoneHolds : List Transaction → Memory → Prop
  | [], _ => True
  | transaction :: rest, memory =>
    ¬ transaction.Holds memory ∧ NoneHolds rest (transaction.next memory)

instance decidableNoneHolds : (transactions : List Transaction) → (memory : Memory) →
    Decidable (NoneHolds transactions memory)
  | [], _ => inferInstanceAs (Decidable True)
  | transaction :: rest, memory =>
    have := decidableNoneHolds rest (transaction.next memory)
    inferInstanceAs (Decidable (_ ∧ _))

/-- The lines after each of some transactions, whatever the answers are. -/
def linesAfterEach (half : Nat) : List Transaction → I2cWires → List I2cWires
  | [], _ => []
  | transaction :: rest, wires =>
    let after := ((transaction.run half).run.run wires).2
    after :: linesAfterEach half rest after

theorem linesAfterEach_cons {wires' : I2cWires} {answer : Answer}
    (h : Runs (transaction.run half) wires answer wires') (rest : List Transaction) :
    linesAfterEach half (transaction :: rest) wires =
      wires' :: linesAfterEach half rest wires' := by
  have hAfter : ((transaction.run half).run.run wires).2 = wires' := congrArg Prod.snd h
  rw [linesAfterEach, hAfter]

/-- A property of the lines that a free bus has and a held one has not. -/
theorem forall_linesAfterEach_iff {P : I2cWires → Prop} (hRests : ∀ {m w}, Rests m w → P w)
    (hHeld : ∀ {w}, Held w → ¬ P w) (transactions : List Transaction)
    (hAddress : ∀ t ∈ transactions, t.address < 128) (h : Rests memory wires) :
    (∀ lines ∈ linesAfterEach half transactions wires, P lines) ↔
      NoneHolds transactions memory := by
  induction transactions generalizing memory wires with
  | nil => exact ⟨fun _ => trivial, fun _ lines hLines => absurd hLines List.not_mem_nil⟩
  | cons transaction rest ih =>
    obtain ⟨hFirst, hRest⟩ := List.forall_mem_cons.mp hAddress
    obtain ⟨wires', hRun, hFree, hStuck⟩ := runs_leaving half hFirst h
    rw [linesAfterEach_cons hRun, List.forall_mem_cons, NoneHolds]
    by_cases hHolds : transaction.Holds memory
    · exact ⟨fun hAll => absurd hAll.1 (hHeld (hStuck hHolds)), fun hNone => absurd hHolds hNone.1⟩
    · have hFree' := hFree hHolds
      rw [ih hRest hFree']
      exact ⟨fun hAll => ⟨hHolds, hAll.2⟩, fun hNone => ⟨hRests hFree', hNone.2⟩⟩

/-- Transactions with addresses of seven bits, of any lengths and acknowledged or not. After each of
them both lines are released and the target has seen the stop, unless one of them makes it send and
asks for nothing while the next byte of its queue begins with a zero. In the same cases the target
hears the start of whatever comes next. -/
theorem idle_after_each (half : Nat) (address? : Option UInt8) (queue : List UInt8)
    (transactions : List Transaction) (hAddress : ∀ t ∈ transactions, t.address < 128) :
    ((∀ lines ∈ linesAfterEach half transactions (I2cWires.new address? queue),
        lines.isIdle = true) ↔ NoneHolds transactions ⟨address?, [], queue⟩) ∧
      ((∀ lines ∈ linesAfterEach half transactions (I2cWires.new address? queue),
        HearsStart half lines) ↔ NoneHolds transactions ⟨address?, [], queue⟩) := by
  have hNew := Rests.new address? queue
  constructor
  · refine forall_linesAfterEach_iff Rests.isIdle (fun hHeld => ?_) transactions hAddress hNew
    rw [hHeld.not_isIdle]
    exact Bool.false_ne_true
  · exact forall_linesAfterEach_iff Rests.hearsStart Held.not_hearsStart transactions hAddress hNew

/-- A write, a read of nothing while the queue begins with a one, and a read of the rest. -/
theorem idle_after_each_example :
    let transactions := [write 0x50 [1], read 0x50 0, read 0x51 0, writeRead 0x50 [2] 1]
    (∀ t ∈ transactions, t.address < 128) ∧
      ∀ lines ∈ linesAfterEach 5 transactions (I2cWires.new (some 0x50) [0x80, 7]),
        lines.isIdle = true := by
  have hAddress : ∀ t ∈ [write 0x50 [1], read 0x50 0, read 0x51 0, writeRead 0x50 [2] 1],
      t.address < 128 := by decide
  have hNone : NoneHolds [write 0x50 [1], read 0x50 0, read 0x51 0, writeRead 0x50 [2] 1]
      ⟨some 0x50, [], [0x80, 7]⟩ := by decide
  exact ⟨hAddress, (idle_after_each 5 (some 0x50) [0x80, 7] _ hAddress).1.mpr hNone⟩

end BusBench.I2c.Transaction
