import BusBench.Proofs.I2c.Pulses
import BusBench.Proofs.I2c.Transaction

/-!
# The lines carry transactions

On two lines with a target, the bit-banged controller does what the bus without lines says: every
transaction has the same answer and does the same to the target's memory, and it begins and ends
with a free bus.

* `Rests`: a free bus, and the memory of its target.
* `runs_write`, `runs_read`, `runs_writeRead`: one transaction.
* `transactions_refine`: any sequence of transactions, and a scan after it.
-/

namespace BusBench.Wire

open BitBang (BitError Drive)
open BitBang.Drive (Runs)
open BitBang.I2c (start stop send receive readByte transaction)
open BusBench.I2c

/-- What the target keeps between transactions. -/
def Target.memory (target : Target) : Memory where
  address? := target.address?
  received := target.received
  outgoing := target.outgoing

theorem Target.rising_memory (target : Target) (sda : Bool) :
    (target.rising sda).memory = target.memory := by
  unfold rising
  split
  · rfl
  · simp only
    split <;> try split
    all_goals rfl

namespace I2cWires

variable {half : Nat} {wires : I2cWires} {target : Target} {sda : Bool} {memory : Memory}
  {address : UInt8}

/-! ## Starts and stops -/

/-- The bus is free, and its target waits for a start. -/
structure Rests (memory : Memory) (wires : I2cWires) : Prop where
  scl : wires.scl = true
  sda : wires.sda = true
  phase : wires.target.phase = .idle
  quiet : wires.target.pullsLow = false
  memory : wires.target.memory = memory

theorem Rests.new (address? : Option UInt8) (outgoing : List UInt8) :
    Rests ⟨address?, [], outgoing⟩ (I2cWires.new address? outgoing) :=
  ⟨rfl, rfl, rfl, rfl, rfl⟩

theorem runs_start (h : Rests memory wires) :
    Runs (start half) wires (.ok ()) (clockLow false wires.target.start) := by
  obtain ⟨_, _, ⟨_, _, _, _, _, _, _, _, _, _⟩⟩ := wires
  obtain ⟨rfl, rfl, rfl, rfl, -⟩ := h
  rfl

/-- A start without a stop before it. -/
theorem runs_restart (h : target.Listens false) :
    Runs (start half) (clockLow sda target) (.ok ()) (clockLow false target.start) := by
  obtain ⟨_, _, _, _, _, _, _, _, _, _⟩ := target
  obtain ⟨rfl, rfl, rfl, rfl⟩ := h
  rfl

theorem runs_stop (hQuiet : target.pullsLow = false) :
    Runs (stop half) (clockLow sda target) (.ok ()) ⟨true, true, (target.rising false).stop⟩ := by
  change (_, drive .sda true (drive .scl true (drive .sda false (clockLow sda target)))) = _
  simp [drive, setLine, react, clockLow, sdaLevel, hQuiet, Target.rising_pullsLow]

/-- The bus is in use, but the target leaves the data line to the controller. -/
structure Leaves (memory : Memory) (target : Target) : Prop where
  quiet : target.pullsLow = false
  memory : target.memory = memory

/-- A transaction whose body leaves the data line to the controller ends with a free bus. -/
theorem runs_transaction {α : Type} {body : Drive I2cWires α} {result : Except BitError α}
    {memory' : Memory} (h : Rests memory wires)
    (hBody : Runs body (clockLow false wires.target.start) result (clockLow sda target))
    (hLeaves : Leaves memory' target) :
    ∃ wires', Runs (transaction half body) wires result wires' ∧ Rests memory' wires' := by
  refine ⟨⟨true, true, (target.rising false).stop⟩, ?_, rfl, rfl, rfl, rfl, ?_⟩
  · exact Runs.bind (runs_start h) (Runs.bind hBody.attempt
      (Runs.bind (runs_stop hLeaves.quiet) (Runs.liftExcept _)))
  · exact (target.rising_memory false).trans hLeaves.memory

/-! ## Bytes to the target -/

theorem runs_send_acknowledged {b : UInt8}
    (h : ((Byte.bits b).foldl Target.pulse target).pullsLow = true) :
    Runs (send half b) (clockLow sda target) (.ok ())
      (clockLow true (((Byte.bits b).foldl Target.pulse target).pulse true)) := by
  have hByte : Runs (BitBang.I2c.writeByte half b) (clockLow sda target) _ _ := runs_writeByte sda b
  rw [h] at hByte
  exact Runs.bind hByte (Runs.pure ())

/-- Nobody acknowledges an address that is not the target's. -/
theorem runs_send_other {b : UInt8} (h : target.Listens true) (hMemory : target.memory = memory)
    (hOther : memory.address? ≠ some (b >>> 1)) :
    ∃ target', Runs (send half b) (clockLow sda target) (.error .nack) (clockLow true target') ∧
      Leaves memory target' := by
  subst hMemory
  have hByte : Runs (BitBang.I2c.writeByte half b) (clockLow sda target) _ _ := runs_writeByte sda b
  rw [h.other hOther, Target.pulse_of_idle rfl] at hByte
  exact ⟨_, Runs.bind hByte (Runs.throw _), rfl, rfl⟩

/-- The target is addressed to be written to. -/
theorem runs_send_writeAddress (h : target.Listens true) (hMemory : target.memory = memory)
    (hOwn : memory.address? = some address) (hAddress : address < 128) :
    ∃ target', Runs (send half (writeAddress address)) (clockLow sda target) (.ok ())
        (clockLow true target') ∧ target'.Listens false ∧ target'.memory = memory := by
  subst hMemory
  have hByte := h.own (hOwn.trans (congrArg some (writeAddress_shift hAddress).symm))
  refine ⟨_, runs_send_acknowledged (by rw [hByte]), ?_⟩
  rw [hByte, Target.acknowledge_receiving (by exact h.phase) rfl]
  simp only [bit_writeAddress, Bool.and_false, Bool.false_eq_true, if_false]
  exact ⟨⟨rfl, rfl, rfl, rfl⟩, rfl⟩

/-- The target is addressed to be read from, and takes the first byte from its queue. -/
theorem runs_send_readAddress (h : target.Listens true) (hMemory : target.memory = memory)
    (hOwn : memory.address? = some address) (hAddress : address < 128) :
    ∃ target', Runs (send half (readAddress address)) (clockLow sda target) (.ok ())
        (clockLow true target') ∧ target'.Sends ∧ target'.current = memory.outgoing.headD 0xFF ∧
      target'.memory = { memory with outgoing := memory.outgoing.tail } := by
  subst hMemory
  have hByte := h.own (hOwn.trans (congrArg some (readAddress_shift hAddress).symm))
  refine ⟨_, runs_send_acknowledged (by rw [hByte]), ?_⟩
  rw [hByte, Target.acknowledge_receiving (by exact h.phase) rfl]
  simp only [bit_readAddress, Bool.and_true, if_true]
  exact ⟨Target.sends_load rfl rfl, rfl, rfl⟩

/-- The target keeps a byte that is sent to it. -/
theorem runs_send_data (h : target.Listens false) (hMemory : target.memory = memory) (b : UInt8) :
    ∃ target', Runs (send half b) (clockLow sda target) (.ok ()) (clockLow true target') ∧
      target'.Listens false ∧
      target'.memory = { memory with received := memory.received ++ [b] } := by
  subst hMemory
  have hByte := h.data b
  refine ⟨_, runs_send_acknowledged (by rw [hByte]), ?_⟩
  rw [hByte, Target.acknowledge_receiving (by exact h.phase) rfl]
  exact ⟨⟨rfl, rfl, rfl, rfl⟩, rfl⟩

theorem runs_send_all (h : target.Listens false) (hMemory : target.memory = memory)
    (bytes : List UInt8) :
    ∃ sda' target', Runs (bytes.forM (send half)) (clockLow sda target) (.ok ())
        (clockLow sda' target') ∧ target'.Listens false ∧
      target'.memory = { memory with received := memory.received ++ bytes } := by
  induction bytes generalizing sda target memory with
  | nil => exact ⟨sda, target, Runs.forM_nil _, h, by rw [List.append_nil, hMemory]⟩
  | cons b bytes ih =>
    obtain ⟨next, hByte, hNext, hMemory'⟩ := runs_send_data h hMemory b
    obtain ⟨sda', target', hRest, hListens, hMemory''⟩ := ih hNext hMemory'
    rw [List.append_assoc, List.singleton_append] at hMemory''
    exact ⟨sda', target', Runs.forM_cons hByte hRest, hListens, hMemory''⟩

/-! ## Bytes from the target -/

/-- The controller reads the byte being sent and the next ones from the queue. -/
theorem runs_receive (n : Nat) (h : target.Sends) (hMemory : target.memory = memory) :
    ∃ target', Runs (receive half (n + 1)) (clockLow sda target)
        (.ok (target.current :: supplied memory.outgoing n)) (clockLow true target') ∧
      Leaves { memory with outgoing := memory.outgoing.drop n } target' := by
  subst hMemory
  induction n generalizing sda target with
  | zero =>
    have hByte : Runs (readByte half false) (clockLow sda target) _ _ := runs_readByte h sda false
    exact ⟨_, Runs.bind hByte (Runs.bind (Runs.pure []) (Runs.pure _)), rfl, rfl⟩
  | succ n ih =>
    have hByte : Runs (readByte half true) (clockLow sda target) _ _ := runs_readByte h sda true
    have hNext : (Target.load
        { target with clocks := 0, pullsLow := false, acknowledged := true }).Sends :=
      Target.sends_load (by exact h.phase) rfl
    obtain ⟨target', hRest, hLeaves⟩ := ih hNext
    refine ⟨target', Runs.bind hByte (Runs.bind hRest ?_), hLeaves.quiet, ?_⟩
    · rw [supplied_succ]
      exact Runs.pure _
    · rw [hLeaves.memory]
      change { target.memory with outgoing := target.outgoing.tail.drop n } = _
      rw [List.drop_tail]
      rfl

/-! ## Whole transactions -/

theorem runs_write (h : Rests memory wires) (hOwn : memory.address? = some address)
    (hAddress : address < 128) (bytes : List UInt8) :
    ∃ wires', Runs (BitBang.I2c.write half address bytes) wires (.ok ()) wires' ∧
      Rests { memory with received := memory.received ++ bytes } wires' := by
  obtain ⟨target, hSend, hListens, hMemory⟩ :=
    runs_send_writeAddress (Target.Listens.start wires.target) h.memory hOwn hAddress
  obtain ⟨_, target', hBytes, hListens', hMemory'⟩ := runs_send_all hListens hMemory bytes
  exact runs_transaction h (Runs.bind hSend hBytes) ⟨hListens'.quiet, hMemory'⟩

theorem runs_read (h : Rests memory wires) (hOwn : memory.address? = some address)
    (hAddress : address < 128) (n : Nat) :
    ∃ wires', Runs (BitBang.I2c.read half address (n + 1)) wires
        (.ok (supplied memory.outgoing (n + 1))) wires' ∧
      Rests { memory with outgoing := memory.outgoing.drop (n + 1) } wires' := by
  obtain ⟨target, hSend, hSends, hCurrent, hMemory⟩ :=
    runs_send_readAddress (Target.Listens.start wires.target) h.memory hOwn hAddress
  obtain ⟨target', hBytes, hLeaves⟩ := runs_receive n hSends hMemory
  rw [hCurrent, ← supplied_succ] at hBytes
  rw [List.drop_tail] at hLeaves
  exact runs_transaction h (Runs.bind hSend hBytes) hLeaves

theorem runs_writeRead (h : Rests memory wires) (hOwn : memory.address? = some address)
    (hAddress : address < 128) (bytes : List UInt8) (n : Nat) :
    ∃ wires', Runs (BitBang.I2c.writeRead half address bytes (n + 1)) wires
        (.ok (supplied memory.outgoing (n + 1))) wires' ∧
      Rests
        { memory with
          received := memory.received ++ bytes
          outgoing := memory.outgoing.drop (n + 1) } wires' := by
  obtain ⟨target, hSend, hListens, hMemory⟩ :=
    runs_send_writeAddress (Target.Listens.start wires.target) h.memory hOwn hAddress
  obtain ⟨_, target', hBytes, hListens', hMemory'⟩ := runs_send_all hListens hMemory bytes
  obtain ⟨target'', hSend', hSends, hCurrent, hMemory''⟩ :=
    runs_send_readAddress (Target.Listens.start target') hMemory' hOwn hAddress
  obtain ⟨final, hBytes', hLeaves⟩ := runs_receive n hSends hMemory''
  rw [hCurrent, ← supplied_succ] at hBytes'
  rw [List.drop_tail] at hLeaves
  exact runs_transaction h (Runs.bind hSend (Runs.bind hBytes (Runs.bind
    (runs_restart hListens') (Runs.bind hSend' hBytes')))) hLeaves

/-- A transaction that begins with the address of nobody ends there. -/
theorem runs_other {α : Type} {b : UInt8} {next : Unit → Drive I2cWires α}
    (h : Rests memory wires) (hOther : memory.address? ≠ some (b >>> 1)) :
    ∃ wires', Runs (transaction half (send half b >>= next)) wires (.error .nack) wires' ∧
      Rests memory wires' := by
  obtain ⟨target, hSend, hLeaves⟩ :=
    runs_send_other (Target.Listens.start wires.target) h.memory hOther
  exact runs_transaction h (Runs.bind_error hSend) hLeaves

end I2cWires

end BusBench.Wire

namespace BusBench.I2c.Transaction

open BitBang (Drive)
open BitBang.Drive (Runs)
open Wire (I2cWires)
open Wire.I2cWires

variable {half : Nat} {wires : I2cWires} {memory : Memory}

/-- The transaction of a bit-banged controller. -/
def run (half : Nat) : Transaction → Drive I2cWires (List UInt8)
  | write address bytes => do
    BitBang.I2c.write half address bytes
    return []
  | read address count => BitBang.I2c.read half address count
  | writeRead address bytes count => BitBang.I2c.writeRead half address bytes count

/-- Transactions one after the other, whatever the answers are. -/
def runAll (half : Nat) : List Transaction → Drive I2cWires (List Answer)
  | [] => return []
  | transaction :: rest => do
    let answer ← ExceptT.lift (transaction.run half).run
    return answer :: (← runAll half rest)

theorem runs_own (transaction : Transaction) (hValid : transaction.Valid) (h : Rests memory wires)
    (hOwn : memory.address? = some transaction.address) :
    ∃ wires', Runs (transaction.run half) wires
        (.ok (supplied memory.outgoing transaction.count)) wires' ∧
      Rests
        { memory with
          received := memory.received ++ transaction.bytes
          outgoing := memory.outgoing.drop transaction.count } wires' := by
  cases transaction with
  | write address bytes =>
    obtain ⟨wires', hRun, hRests⟩ := runs_write h hOwn hValid bytes
    exact ⟨wires', Runs.bind hRun (Runs.pure []), hRests⟩
  | read address count =>
    obtain ⟨hAddress, hCount⟩ := hValid
    obtain ⟨n, rfl⟩ := Nat.exists_eq_succ_of_ne_zero (Nat.ne_of_gt hCount)
    simp only [bytes, List.append_nil]
    exact runs_read h hOwn hAddress n
  | writeRead address bytes count =>
    obtain ⟨hAddress, hCount⟩ := hValid
    obtain ⟨n, rfl⟩ := Nat.exists_eq_succ_of_ne_zero (Nat.ne_of_gt hCount)
    exact runs_writeRead h hOwn hAddress bytes n

theorem runs_foreign (transaction : Transaction) (hAddress : transaction.address < 128)
    (h : Rests memory wires) (hOther : memory.address? ≠ some transaction.address) :
    ∃ wires', Runs (transaction.run half) wires (.error .nack) wires' ∧ Rests memory wires' := by
  cases transaction with
  | write address bytes =>
    have hByte : writeAddress address >>> 1 = address := writeAddress_shift hAddress
    obtain ⟨wires', hRun, hRests⟩ := runs_other h (by rw [hByte]; exact hOther)
    exact ⟨wires', Runs.bind_error hRun, hRests⟩
  | read address count =>
    have hByte : readAddress address >>> 1 = address := readAddress_shift hAddress
    exact runs_other h (by rw [hByte]; exact hOther)
  | writeRead address bytes count =>
    have hByte : writeAddress address >>> 1 = address := writeAddress_shift hAddress
    exact runs_other h (by rw [hByte]; exact hOther)

/-- The lines answer as the bus without lines does. -/
theorem runs_onBus (half : Nat) (transaction : Transaction) (hValid : transaction.Valid)
    (h : Rests memory wires) :
    ∃ wires', Runs (transaction.run half) wires (transaction.onBus memory).1 wires' ∧
      Rests (transaction.onBus memory).2 wires' := by
  unfold onBus
  split
  · next hOwn => exact runs_own transaction hValid h hOwn
  · next hOther => exact runs_foreign transaction hValid.address_lt h hOther

theorem runs_allOnBus (half : Nat) (transactions : List Transaction)
    (hValid : ∀ t ∈ transactions, t.Valid) (h : Rests memory wires) :
    ∃ wires', Runs (runAll half transactions) wires (.ok (allOnBus transactions memory).1) wires' ∧
      Rests (allOnBus transactions memory).2 wires' := by
  induction transactions generalizing memory wires with
  | nil => exact ⟨wires, Runs.pure [], h⟩
  | cons transaction rest ih =>
    obtain ⟨hFirst, hRest⟩ := List.forall_mem_cons.mp hValid
    obtain ⟨between, hRun, hRests⟩ := runs_onBus half transaction hFirst h
    obtain ⟨wires', hRun', hRests'⟩ := ih hRest hRests
    exact ⟨wires', Runs.bind hRun.attempt (Runs.bind hRun' (Runs.pure _)), hRests'⟩

/-- A scan asks with a write of nothing. -/
theorem runs_probe {address : UInt8} (hAddress : address < 128) (h : Rests memory wires) :
    ∃ wires', Runs (ExceptT.lift (BitBang.I2c.write half address []).run >>= fun result =>
          pure result.isOk : Drive I2cWires Bool) wires
        (.ok (decide (memory.address? = some address))) wires' ∧ Rests memory wires' := by
  by_cases hOwn : memory.address? = some address
  · obtain ⟨wires', hRun, hRests⟩ := runs_write h hOwn hAddress []
    rw [List.append_nil] at hRests
    rw [decide_eq_true hOwn]
    exact ⟨wires', Runs.bind hRun.attempt (Runs.pure _), hRests⟩
  · have hOther : memory.address? ≠ some (writeAddress address >>> 1) := by
      rwa [writeAddress_shift hAddress]
    obtain ⟨wires', hRun, hRests⟩ := runs_other h hOther
    rw [decide_eq_false hOwn]
    exact ⟨wires', Runs.bind hRun.attempt (Runs.pure _), hRests⟩

/-- A scan finds the target where it looks for one, and changes nothing. -/
theorem runs_scan (half : Nat) (h : Rests memory wires) :
    ∃ wires', Runs (BitBang.I2c.scan half) wires
        (.ok (memory.address?.toList.filter fun address => 0x08 ≤ address ∧ address ≤ 0x77))
        wires' ∧ Rests memory wires' := by
  obtain ⟨wires', hRun, hRests⟩ :=
    Runs.filterM scanned (fun _ hMem _ h => runs_probe (lt_of_mem_scanned hMem) h) h
  refine ⟨wires', ?_, hRests⟩
  have hFound : scanned.filter (fun address => decide (memory.address? = some address)) =
      memory.address?.toList.filter fun address => 0x08 ≤ address ∧ address ≤ 0x77 := by
    cases memory.address? with
    | none => exact List.filter_false scanned
    | some own =>
      simp only [Option.some.injEq, Option.toList_some, List.filter_singleton, Bool.cond_decide,
        eq_comm (a := own), filter_scanned]
  rw [← hFound]
  exact hRun

/-- After any transactions the target has received all bytes written to its address, and the
controller has read the target's queue in order, continued by 0xFF. Transactions with another
address are not acknowledged and change nothing. A scan then finds the target if its address is
not reserved, and changes nothing. -/
theorem transactions_refine (half : Nat) (address? : Option UInt8) (queue : List UInt8)
    (transactions : List Transaction) (hValid : ∀ t ∈ transactions, t.Valid) :
    ∃ answers wires wires', Runs (runAll half transactions) (I2cWires.new address? queue)
        (.ok answers) wires ∧
      List.Forall₂
        (fun transaction answer =>
          if address? = some transaction.address then
            ∃ bytes, answer = .ok bytes ∧ bytes.length = transaction.count
          else answer = .error .nack)
        transactions answers ∧
      wires.target.received = (transactions.filter (reaches address?)).flatMap bytes ∧
      answers.flatMap Answer.bytes = supplied queue (taken address? transactions) ∧
      wires.target.outgoing = queue.drop (taken address? transactions) ∧
      Runs (BitBang.I2c.scan half) wires
        (.ok (address?.toList.filter fun address => 0x08 ≤ address ∧ address ≤ 0x77)) wires' ∧
      wires'.target.received = wires.target.received ∧
      wires'.target.outgoing = wires.target.outgoing := by
  obtain ⟨wires, hRun, hRests⟩ :=
    runs_allOnBus half transactions hValid (Rests.new address? queue)
  obtain ⟨wires', hScan, hRests'⟩ := runs_scan half hRests
  obtain ⟨hRead, hQueue⟩ := read_allOnBus transactions ⟨address?, [], queue⟩
  have hReceived := received_allOnBus transactions ⟨address?, [], queue⟩
  rw [address?_allOnBus] at hScan
  refine ⟨_, wires, wires', hRun, forall₂_allOnBus transactions ⟨address?, [], queue⟩, ?_, hRead, ?_,
    hScan, ?_, ?_⟩
  · exact (congrArg Memory.received hRests.memory).trans hReceived
  · exact (congrArg Memory.outgoing hRests.memory).trans hQueue
  · exact congrArg Memory.received (hRests'.memory.trans hRests.memory.symm)
  · exact congrArg Memory.outgoing (hRests'.memory.trans hRests.memory.symm)

/-- A write that the target keeps, one for nobody, and two reads that use up its queue. -/
theorem transactions_refine_example :
    let transactions := [write 0x50 [1, 2], write 0x51 [3], read 0x50 2, writeRead 0x50 [4] 1]
    (∀ t ∈ transactions, t.Valid) ∧
      ∃ answers wires, Runs (runAll 5 transactions) (I2cWires.new (some 0x50) [7, 8])
        (.ok answers) wires ∧ wires.target.received = [1, 2, 4] ∧
        answers.flatMap Answer.bytes = [7, 8, 0xFF] := by
  have hValid : ∀ t ∈ [write 0x50 [1, 2], write 0x51 [3], read 0x50 2, writeRead 0x50 [4] 1],
      t.Valid := by decide
  obtain ⟨answers, wires, -, hRun, -, hReceived, hRead, -⟩ :=
    transactions_refine 5 (some 0x50) [7, 8] _ hValid
  exact ⟨hValid, answers, wires, hRun, hReceived, hRead⟩

end BusBench.I2c.Transaction
