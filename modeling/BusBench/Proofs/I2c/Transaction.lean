import BusBench.BitBang.I2c
import BusBench.Proofs.Bus.Byte
import Mathlib.Algebra.GroupWithZero.Nat
import Mathlib.Data.List.Forall2
import Mathlib.Data.List.Nodup

/-!
# Transactions on an I2C bus

To a controller that thinks in transactions, the bus is a target with a memory: bytes written to its
address are kept, reads take the bytes that it has to send, and nobody acknowledges another address.

* `Transaction.onBus`: the answer to a transaction, and what it does to the memory.
* `Transaction.allOnBus`: the same for several transactions.
* `received_allOnBus`, `read_allOnBus`: what the target has received and the controller has read
  after all of them.
-/

namespace BusBench.I2c

/-! ## Address bytes -/

/-- The addresses of seven bits are those that an address byte carries. -/
theorem writeAddress_shift {device : UInt8} (h : device < 128) :
    writeAddress device >>> 1 = device :=
  Byte.forall_of_lt (P := fun device => device < 128 → writeAddress device >>> 1 = device)
    (by decide +kernel) device h

theorem readAddress_shift {device : UInt8} (h : device < 128) : readAddress device >>> 1 = device :=
  Byte.forall_of_lt (P := fun device => device < 128 → readAddress device >>> 1 = device)
    (by decide +kernel) device h

theorem bit_writeAddress (device : UInt8) : Byte.bit (writeAddress device) 0 = false :=
  Byte.forall_of_lt (P := fun device => Byte.bit (writeAddress device) 0 = false)
    (by decide +kernel) device

theorem bit_readAddress (device : UInt8) : Byte.bit (readAddress device) 0 = true :=
  Byte.forall_of_lt (P := fun device => Byte.bit (readAddress device) 0 = true)
    (by decide +kernel) device

theorem mem_scanned {device : UInt8} : device ∈ scanned ↔ 0x08 ≤ device ∧ device ≤ 0x77 := by
  simp only [scanned, List.mem_map, List.mem_range, UInt8.le_iff_toNat_le]
  constructor
  · rintro ⟨i, hi, rfl⟩
    rw [UInt8.toNat_ofNat']
    change 8 ≤ (8 + i) % 256 ∧ (8 + i) % 256 ≤ 119
    omega
  · rintro ⟨hLow, hHigh⟩
    change 8 ≤ device.toNat at hLow
    change device.toNat ≤ 119 at hHigh
    exact ⟨device.toNat - 8, by omega, by rw [Nat.add_sub_cancel' hLow, UInt8.ofNat_toNat]⟩

theorem lt_of_mem_scanned {device : UInt8} (h : device ∈ scanned) : device < 128 :=
  UInt8.lt_of_le_of_lt (mem_scanned.mp h).2 (by decide)

theorem nodup_scanned : scanned.Nodup := by
  refine List.Nodup.map_on (fun i hi j hj h => ?_) List.nodup_range
  have hNat := congrArg UInt8.toNat h
  have hi := List.mem_range.mp hi
  have hj := List.mem_range.mp hj
  rw [UInt8.toNat_ofNat', UInt8.toNat_ofNat'] at hNat
  change (8 + i) % 256 = (8 + j) % 256 at hNat
  omega

/-- A scan looks at an address once or not at all. -/
theorem filter_scanned (device : UInt8) :
    scanned.filter (· = device) = if 0x08 ≤ device ∧ device ≤ 0x77 then [device] else [] := by
  rw [List.filter_eq]
  split
  · next hScanned =>
    rw [List.count_eq_one_of_mem nodup_scanned (mem_scanned.mpr hScanned)]
    rfl
  · next hOther =>
    rw [List.count_eq_zero_of_not_mem fun hMem => hOther (mem_scanned.mp hMem)]
    rfl

/-! ## The queue of a target -/

/-- The bytes that a queue supplies, and 0xFF when it is used up. -/
def supplied (queue : List UInt8) (n : Nat) : List UInt8 :=
  (List.range n).map (queue.getD · 0xFF)

theorem length_supplied (queue : List UInt8) (n : Nat) : (supplied queue n).length = n := by
  rw [supplied, List.length_map, List.length_range]

theorem supplied_succ (queue : List UInt8) (n : Nat) :
    supplied queue (n + 1) = queue.headD 0xFF :: supplied queue.tail n := by
  simp only [supplied, List.range_succ_eq_map, List.map_cons, List.map_map]
  cases queue <;> rfl

theorem supplied_add (queue : List UInt8) (m n : Nat) :
    supplied queue (m + n) = supplied queue m ++ supplied (queue.drop m) n := by
  induction m generalizing queue with
  | zero => rw [Nat.zero_add, List.drop_zero]; rfl
  | succ m ih =>
    rw [Nat.succ_add, supplied_succ, supplied_succ, ih, List.cons_append, List.drop_tail]

/-! ## A bus without lines -/

/-- What a target keeps between transactions. -/
structure Memory where
  /-- The address it acknowledges. -/
  address? : Option UInt8
  /-- The data bytes received so far. -/
  received : List UInt8
  /-- The bytes still to be sent. -/
  outgoing : List UInt8
  deriving DecidableEq, Repr

/-- What a controller can ask of a device. -/
inductive Transaction where
  | write (address : UInt8) (bytes : List UInt8)
  | read (address : UInt8) (count : Nat)
  | writeRead (address : UInt8) (bytes : List UInt8) (count : Nat)
  deriving DecidableEq, Repr

/-- The bytes that were read, or why nobody answered. -/
abbrev Answer := Except BitBang.BitError (List UInt8)

/-- The bytes that an answer brings. -/
def Answer.bytes : Answer → List UInt8
  | .ok bytes => bytes
  | .error _ => []

namespace Transaction

def address : Transaction → UInt8
  | write address _ | read address _ | writeRead address _ _ => address

/-- The bytes that are written. -/
def bytes : Transaction → List UInt8
  | write _ bytes | writeRead _ bytes _ => bytes
  | read _ _ => []

/-- How many bytes are read. -/
def count : Transaction → Nat
  | write _ _ => 0
  | read _ count | writeRead _ _ count => count

/-- The address has seven bits, and a read asks for something. -/
def Valid : Transaction → Prop
  | write address _ => address < 128
  | read address count | writeRead address _ count => address < 128 ∧ 0 < count

instance : DecidablePred Valid
  | write address _ => inferInstanceAs (Decidable (address < 128))
  | read address count | writeRead address _ count =>
    inferInstanceAs (Decidable (address < 128 ∧ 0 < count))

theorem Valid.address_lt {transaction : Transaction} (h : transaction.Valid) :
    transaction.address < 128 := by
  cases transaction with
  | write address bytes => exact h
  | read address count | writeRead address bytes count => exact h.1

/-- The transaction on a bus whose target has a memory. -/
def onBus (transaction : Transaction) (memory : Memory) : Answer × Memory :=
  if memory.address? = some transaction.address then
    (.ok (supplied memory.outgoing transaction.count),
      { memory with
        received := memory.received ++ transaction.bytes
        outgoing := memory.outgoing.drop transaction.count })
  else (.error .nack, memory)

/-- Transactions one after the other. -/
def allOnBus : List Transaction → Memory → List Answer × Memory
  | [], memory => ([], memory)
  | transaction :: rest, memory =>
    let (answer, memory) := transaction.onBus memory
    let (answers, memory) := allOnBus rest memory
    (answer :: answers, memory)

/-- Whether the transaction is addressed to the target. -/
def reaches (address? : Option UInt8) (transaction : Transaction) : Bool :=
  address? = some transaction.address

/-- How many bytes of the target's queue the transactions take. -/
def taken (address? : Option UInt8) (transactions : List Transaction) : Nat :=
  ((transactions.filter (reaches address?)).map count).sum

/-! ## After several transactions -/

variable (transactions : List Transaction) (memory : Memory)

theorem address?_onBus (transaction : Transaction) :
    (transaction.onBus memory).2.address? = memory.address? := by
  unfold onBus
  split <;> rfl

theorem allOnBus_cons (transaction : Transaction) :
    allOnBus (transaction :: transactions) memory =
      ((transaction.onBus memory).1 :: (allOnBus transactions (transaction.onBus memory).2).1,
        (allOnBus transactions (transaction.onBus memory).2).2) :=
  rfl

theorem address?_allOnBus :
    (allOnBus transactions memory).2.address? = memory.address? := by
  induction transactions generalizing memory with
  | nil => rfl
  | cons transaction rest ih => rw [allOnBus_cons, ih, address?_onBus]

/-- A transaction is answered exactly where it is addressed to the target. -/
theorem forall₂_allOnBus :
    List.Forall₂
      (fun transaction answer =>
        if memory.address? = some transaction.address then
          ∃ bytes, answer = .ok bytes ∧ bytes.length = transaction.count
        else answer = .error .nack)
      transactions (allOnBus transactions memory).1 := by
  induction transactions generalizing memory with
  | nil => exact .nil
  | cons transaction rest ih =>
    rw [allOnBus_cons]
    refine .cons ?_ ?_
    · unfold onBus
      split
      · exact ⟨_, rfl, length_supplied _ _⟩
      · rfl
    · rw [← address?_onBus memory transaction]
      exact ih _

theorem received_allOnBus :
    (allOnBus transactions memory).2.received =
      memory.received ++ (transactions.filter (reaches memory.address?)).flatMap bytes := by
  induction transactions generalizing memory with
  | nil => exact (List.append_nil _).symm
  | cons transaction rest ih =>
    rw [allOnBus_cons, ih, address?_onBus]
    unfold onBus
    by_cases h : memory.address? = some transaction.address
    · simp [h, reaches]
    · simp [h, reaches]

/-- All bytes that were read come from the queue, each once, and the rest stays there. -/
theorem read_allOnBus :
    (allOnBus transactions memory).1.flatMap Answer.bytes =
        supplied memory.outgoing (taken memory.address? transactions) ∧
      (allOnBus transactions memory).2.outgoing =
        memory.outgoing.drop (taken memory.address? transactions) := by
  induction transactions generalizing memory with
  | nil => exact ⟨rfl, rfl⟩
  | cons transaction rest ih =>
    obtain ⟨hBytes, hQueue⟩ := ih (transaction.onBus memory).2
    rw [address?_onBus] at hBytes hQueue
    rw [allOnBus_cons, List.flatMap_cons, hBytes, hQueue]
    unfold onBus
    by_cases h : memory.address? = some transaction.address
    · simp [h, taken, reaches, supplied_add, Answer.bytes]
    · simp [h, taken, reaches, Answer.bytes]

end Transaction

end BusBench.I2c
