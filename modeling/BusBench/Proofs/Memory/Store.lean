import BusBench.Board.Simulated
import BusBench.Proofs.BitBang.Runs
import BusBench.Proofs.World.Monitors
import Mathlib.Data.List.Induction

/-!
# The EEPROM as a store

Told without the device that keeps it, a store is a byte at each of 256 addresses and the address
of the next one. Whatever the simulated board is asked, and in whatever order, its EEPROM behaves as
one store: transactions with it do what they do to the store, and nothing else reaches it.

* `Store.write`, `Store.next`, `Store.skip`: what transactions do to a store.
* `Store.Serves`: one exchange with the board, as the store has it.
* `Store.Follows`: exchanges one after the other.
* `follows_of_answers`: the exchanges of the simulated board.
-/

namespace BusBench.Simulated

open BitBang (Drive SpiLine)

/-! ## Stores -/

/-- A byte at each address, and the address at which the next one is read or stored. Behind the last
address comes the first one again. -/
@[ext]
structure Store where
  contents : UInt8 → UInt8
  pointer : UInt8

namespace Store

/-- A store with all bits set. -/
def blank : Store :=
  ⟨fun _ => 0xFF, 0⟩

/-- Of bytes that are stored from `start` on, the last one that falls on an address. -/
def laid? (start : UInt8) (data : List UInt8) (address : UInt8) : Option UInt8 :=
  ((data.zipIdx.filter fun (_, i) => start + UInt8.ofNat i = address).map Prod.fst).getLast?

/-- The first byte written sets the pointer, and the others are stored from there on. -/
def write (store : Store) : List UInt8 → Store
  | [] => store
  | start :: data =>
    { contents := fun address => (laid? start data address).getD (store.contents address)
      pointer := start + UInt8.ofNat data.length }

/-- The next `n` bytes. -/
def next (store : Store) (n : Nat) : List UInt8 :=
  (List.range n).map fun i => store.contents (store.pointer + UInt8.ofNat i)

/-- The store behind the next `n` bytes. -/
def skip (store : Store) (n : Nat) : Store :=
  { store with pointer := store.pointer + UInt8.ofNat n }

theorem laid?_append_singleton (start : UInt8) (data : List UInt8) (b address : UInt8) :
    laid? start (data ++ [b]) address =
      if start + UInt8.ofNat data.length = address then some b else laid? start data address := by
  unfold laid?
  rw [List.zipIdx_append, List.filter_append, List.map_append]
  by_cases hHere : start + UInt8.ofNat data.length = address
  · simp [hHere]
  · simp [hHere]

theorem laid?_of_last {start : UInt8} {data : List UInt8} {j : Nat} {b : UInt8}
    (hByte : data[j]? = some b)
    (hLast : ∀ k, j < k → k < data.length → k % 256 ≠ j % 256) :
    laid? start data (start + UInt8.ofNat j) = some b := by
  induction data using List.reverseRecOn with
  | nil => cases hByte
  | append_singleton data b' ih =>
    rw [laid?_append_singleton]
    have hBound : j < data.length + 1 := by
      have hIndex := (List.getElem?_eq_some_iff.mp hByte).1
      simpa using hIndex
    by_cases hNew : j = data.length
    · subst hNew
      rw [List.getElem?_concat_length] at hByte
      rw [if_pos rfl]
      exact hByte
    · have hOld : j < data.length := by omega
      have hApart : start + UInt8.ofNat data.length ≠ start + UInt8.ofNat j := by
        intro hSame
        have hMod : data.length % 256 = j % 256 := by
          simpa using congrArg UInt8.toNat ((UInt8.add_right_inj start).mp hSame)
        exact hLast data.length hOld (by simp) hMod
      rw [if_neg hApart]
      refine ih ?_ fun k hAfter hBelow => hLast k hAfter ?_
      · rwa [List.getElem?_append_left hOld] at hByte
      · rw [List.length_append]
        omega

/-- A write of one byte only sets the pointer. -/
theorem write_singleton (store : Store) (start : UInt8) :
    store.write [start] = { store with pointer := start } :=
  Store.ext rfl (UInt8.add_zero start)

/-- What was written is read back from where it was written, if it fits. -/
theorem next_write (store : Store) (start : UInt8) {data : List UInt8} (h : data.length ≤ 256) :
    ((store.write (start :: data)).write [start]).next data.length = data := by
  rw [write_singleton]
  refine List.ext_getElem? fun i => ?_
  by_cases hBelow : i < data.length
  · have hByte := List.getElem?_eq_getElem hBelow
    have hLaid : laid? start data (start + UInt8.ofNat i) = some data[i] := by
      refine laid?_of_last hByte fun k hAfter hEnd hSame => ?_
      omega
    simp only [next, write, List.getElem?_map, List.getElem?_range hBelow, Option.map_some]
    rw [hLaid, hByte, Option.getD_some]
  · have hAbove : data.length ≤ i := Nat.le_of_not_lt hBelow
    rw [List.getElem?_eq_none hAbove]
    refine List.getElem?_eq_none ?_
    simpa [next] using hAbove

example : ((blank.write [0xFE, 1, 2, 3]).write [0xFF]).next 2 = [2, 3] := by decide

end Store

/-! ## The EEPROM -/

namespace Eeprom

/-- The store that the EEPROM keeps. -/
def toStore (eeprom : Eeprom) : Store :=
  ⟨eeprom.byteAt, eeprom.pointer⟩

theorem toStore_new : toStore {} = .blank := by
  refine Store.ext (funext fun address => ?_) rfl
  exact Vector.getElem_replicate _

theorem byteAt_store (eeprom : Eeprom) (b address : UInt8) :
    (eeprom.store b).byteAt address =
      if eeprom.pointer = address then b else eeprom.byteAt address := by
  have hSet : (eeprom.store b).byteAt address =
      if eeprom.pointer.toNat = address.toNat then b else eeprom.byteAt address :=
    Vector.getElem_set eeprom.pointer.toNat_lt address.toNat_lt
  rw [hSet]
  simp only [UInt8.toNat_inj]

theorem toStore_write (eeprom : Eeprom) (bytes : List UInt8) :
    (eeprom.write bytes).toStore = eeprom.toStore.write bytes := by
  cases bytes with
  | nil => rfl
  | cons start data =>
    -- The last byte stored is looked at first, as it is the one that stays.
    induction data using List.reverseRecOn with
    | nil => exact (Store.write_singleton eeprom.toStore start).symm
    | append_singleton data b ih =>
      have hStep : eeprom.write (start :: (data ++ [b])) =
          (eeprom.write (start :: data)).store b := by
        simp [write, List.foldl_append]
      have hPointer : (eeprom.write (start :: data)).pointer = start + UInt8.ofNat data.length :=
        congrArg Store.pointer ih
      have hContents (address : UInt8) : (eeprom.write (start :: data)).byteAt address =
          (Store.laid? start data address).getD (eeprom.byteAt address) :=
        congrArg (fun store => store.contents address) ih
      rw [hStep]
      refine Store.ext (funext fun address => ?_) ?_
      · change ((eeprom.write (start :: data)).store b).byteAt address = _
        rw [byteAt_store, hPointer, hContents]
        simp only [Store.write, Store.laid?_append_singleton]
        split <;> rfl
      · change (eeprom.write (start :: data)).pointer + 1 = _
        rw [hPointer]
        simp [Store.write, UInt8.add_assoc]

theorem read_fst (eeprom : Eeprom) (n : Nat) : (eeprom.read n).1.val = eeprom.toStore.next n :=
  rfl

theorem toStore_read (eeprom : Eeprom) (n : Nat) :
    (eeprom.read n).2.toStore = eeprom.toStore.skip n :=
  rfl

end Eeprom

/-! ## Exchanges -/

namespace Store

/-- The device that a transaction addresses. -/
def device? : Request → Option UInt8
  | .i2c _ (.write device _) | .i2c _ (.read device _) | .i2c _ (.writeRead device _ _) =>
    some device
  | _ => none

/-- In this exchange the device at an address behaves as a store: what is written goes there, and
what is read is what is there. An exchange that does not address the device leaves it alone. -/
inductive Serves (device : UInt8) : Exchange → Store → Store → Prop
  | write {backing bytes store} (answer : Except BusError Unit) (h : answer = .ok ()) :
    Serves device ⟨.i2c backing (.write device bytes), answer⟩ store (store.write bytes)
  | read {backing n store} (answer : Except BusError (Bytes n))
    (h : answer.map (·.val) = .ok (store.next n)) :
    Serves device ⟨.i2c backing (.read device n), answer⟩ store (store.skip n)
  | writeRead {backing bytes n store} (answer : Except BusError (Bytes n))
    (h : answer.map (·.val) = .ok ((store.write bytes).next n)) :
    Serves device ⟨.i2c backing (.writeRead device bytes n), answer⟩ store
      ((store.write bytes).skip n)
  | other {exchange store} (h : device? exchange.request ≠ some device) :
    Serves device exchange store store

/-- In these exchanges, one after the other, the device behaves as one store. -/
inductive Follows (device : UInt8) : Store → List Exchange → Store → Prop
  | nil (store) : Follows device store [] store
  | cons {exchange trace store store' store''} (h : Serves device exchange store store')
    (hRest : Follows device store' trace store'') :
    Follows device store (exchange :: trace) store''

end Store

/-! ## Requests that do not reach the EEPROM -/

/-- A program that drives lines leaves the EEPROM alone. -/
def Spares {α : Type} (program : Drive State α) : Prop :=
  ∀ s, (program.run s).2.eeprom = s.eeprom

namespace Spares

variable {α γ : Type}

theorem pure (a : α) : Spares (Pure.pure a : Drive State α) :=
  fun _ => rfl

theorem bind {program : Drive State α} {next : α → Drive State γ} (h : Spares program)
    (hNext : ∀ a, Spares (next a)) : Spares (program >>= next) := by
  intro s
  have hFirst := h s
  rcases hRun : program.run s with ⟨e | a, s'⟩
  · have hStopped : (program >>= next).run s = (.error e, s') := Drive.Runs.bind_error hRun
    rw [hRun] at hFirst
    rw [hStopped]
    exact hFirst
  · have hOn : (program >>= next).run s = (next a).run s' := Drive.Runs.bind hRun rfl
    rw [hRun] at hFirst
    rw [hOn]
    exact (hNext a s').trans hFirst

theorem drive (line : SpiLine) (high : Bool) :
    Spares (BitBang.Gpio.drive line high : Drive State Unit) :=
  fun _ => rfl

theorem transferBit (mode : Spi.Mode) (half : Nat) (bit : Bool) :
    Spares (BitBang.Spi.transferBit mode half bit : Drive State Bool) := by
  unfold BitBang.Spi.transferBit
  cases mode.phase with
  | first =>
    refine bind (drive _ _) fun _ => bind (pure ()) fun _ => bind (drive _ _) fun _ => ?_
    refine bind (fun _ => rfl) fun sampled => bind (pure ()) fun _ => bind (drive _ _) fun _ => ?_
    exact pure sampled
  | second =>
    refine bind (drive _ _) fun _ => bind (drive _ _) fun _ => bind (pure ()) fun _ => ?_
    refine bind (drive _ _) fun _ => bind (fun _ => rfl) fun sampled => bind (pure ()) fun _ => ?_
    exact pure sampled

theorem transferBits (mode : Spi.Mode) (half : Nat) (bits : List Bool) (byte : UInt8) :
    Spares (BitBang.Spi.transferBits mode half bits byte : Drive State UInt8) := by
  induction bits generalizing byte with
  | nil => exact pure byte
  | cons bit bits ih => exact (transferBit mode half bit).bind fun sampled => ih _

theorem transfer (mode : Spi.Mode) (half : Nat) (bytes : List UInt8) :
    Spares (BitBang.Spi.transfer mode half bytes : Drive State (List UInt8)) := by
  have hCollect : ∀ collected,
      Spares (BitBang.Spi.collect mode half bytes collected : Drive State (List UInt8)) := by
    induction bytes with
    | nil => exact fun collected => pure collected.reverse
    | cons byte bytes ih =>
      intro collected
      exact (transferBits mode half (Byte.bits byte) 0).bind fun back => ih (back :: collected)
  exact hCollect []

end Spares

theorem eeprom_claimPin (p : Pin) (s : State) : (claimPin p s).2.eeprom = s.eeprom := by
  unfold claimPin
  split <;> rfl

theorem eeprom_claimSpiPins (s : State) : (claimSpiPins s).2.eeprom = s.eeprom := by
  have hClock := eeprom_claimPin .clk s
  unfold claimSpiPins
  split
  · next hPin => rw [hPin] at hClock; exact hClock
  · next s₁ hPin =>
    rw [hPin] at hClock
    have hData := eeprom_claimPin .mosi s₁
    split
    · next hPin => rw [hPin] at hData; exact hData.trans hClock
    · next s₂ hPin =>
      rw [hPin] at hData
      have hMiso := eeprom_claimPin .miso s₂
      split
      · next hPin => rw [hPin] at hMiso; exact (hMiso.trans hData).trans hClock
      · next hPin => rw [hPin] at hMiso; exact (hMiso.trans hData).trans hClock

theorem eeprom_softSpi (call : SpiCall) (s : State) : (softSpi call s).2.eeprom = s.eeprom := by
  cases call with
  | claim =>
    have hPins := eeprom_claimSpiPins s
    simp only [softSpi]
    split
    · next hClaim => rw [hClaim] at hPins; exact hPins
    · exact hPins
  | release | lock | unlock | configure => rfl
  | transfer bytes => exact Spares.transfer s.softSpi.mode s.softSpi.half bytes s

theorem eeprom_hardSpi (call : SpiCall) (s : State) : (hardSpi call s).2.eeprom = s.eeprom := by
  cases call with
  | claim => simp only [hardSpi]; split <;> rfl
  | release | lock | unlock | configure | transfer => rfl

theorem eeprom_oneWire (call : OneWireCall) (s : State) : (oneWire call s).2.eeprom = s.eeprom := by
  cases call with
  | write bytes => simp only [oneWire]; split <;> rfl
  | claim | release | reset | read | search => rfl

theorem eeprom_pin (p : Pin) (call : PinCall) (s : State) : (pin p call s).2.eeprom = s.eeprom := by
  cases call with
  | claim => exact eeprom_claimPin p s
  | release | output | input | sample => rfl

theorem eeprom_writeI2c {device : UInt8} (h : device ≠ 0x50) (bytes : List UInt8) (s : State) :
    (writeI2c device bytes s).2.eeprom = s.eeprom := by
  unfold writeI2c
  rw [if_neg h]
  split <;> rfl

theorem eeprom_readI2c {device : UInt8} (h : device ≠ 0x50) (n : Nat) (s : State) :
    (readI2c device n s).2.eeprom = s.eeprom := by
  unfold readI2c
  rw [if_neg h]
  split <;> rfl

/-- Only transactions that address the EEPROM reach it. -/
theorem eeprom_answer {request : Request} (h : Store.device? request ≠ some 0x50) (s : State) :
    (answer request s).2.eeprom = s.eeprom := by
  cases request with
  | i2c backing call =>
    cases call with
    | claim => simp only [answer, i2c]; split <;> rfl
    | release | unlock | setFrequency => rfl
    | lock => simp only [answer, i2c]; split <;> rfl
    | write device bytes =>
      have hDevice : device ≠ 0x50 := fun hSame => h (congrArg some hSame)
      exact eeprom_writeI2c hDevice bytes s
    | read device n =>
      have hDevice : device ≠ 0x50 := fun hSame => h (congrArg some hSame)
      exact eeprom_readI2c hDevice n s
    | writeRead device bytes n =>
      have hDevice : device ≠ 0x50 := fun hSame => h (congrArg some hSame)
      have hWritten := eeprom_writeI2c hDevice bytes s
      simp only [answer, i2c]
      split
      · next s' hRun =>
        rw [hRun] at hWritten
        exact (eeprom_readI2c hDevice n s').trans hWritten
      · next hRun =>
        rw [hRun] at hWritten
        exact hWritten
  | spi backing call =>
    cases backing with
    | hardware => exact eeprom_hardSpi call s
    | bitBanged => exact eeprom_softSpi call s
  | uart call => cases call <;> rfl
  | oneWire call => exact eeprom_oneWire call s
  | pin p call => exact eeprom_pin p call s
  | power | pullups | modeLed | voltage | delay => rfl

/-! ## The board -/

/-- Whatever the board is asked, its EEPROM behaves as the store that it keeps. -/
theorem serves_answer (request : Request) (s : State) :
    Store.Serves 0x50 ⟨request, (answer request s).1⟩ s.eeprom.toStore
      (answer request s).2.eeprom.toStore := by
  by_cases hDevice : Store.device? request = some 0x50
  · unfold Store.device? at hDevice
    split at hDevice
    · next backing device bytes =>
      obtain rfl : device = 0x50 := Option.some.inj hDevice
      have hStore : (answer (.i2c backing (.write 0x50 bytes)) s).2.eeprom.toStore =
          s.eeprom.toStore.write bytes := s.eeprom.toStore_write bytes
      rw [hStore]
      exact .write _ rfl
    · next backing device n =>
      obtain rfl : device = 0x50 := Option.some.inj hDevice
      have hStore : (answer (.i2c backing (.read 0x50 n)) s).2.eeprom.toStore =
          s.eeprom.toStore.skip n := s.eeprom.toStore_read n
      rw [hStore]
      exact .read _ (congrArg Except.ok (s.eeprom.read_fst n))
    · next backing device bytes n =>
      obtain rfl : device = 0x50 := Option.some.inj hDevice
      have hWritten := s.eeprom.toStore_write bytes
      have hStore : (answer (.i2c backing (.writeRead 0x50 bytes n)) s).2.eeprom.toStore =
          (s.eeprom.toStore.write bytes).skip n := by
        rw [← hWritten]
        exact (s.eeprom.write bytes).toStore_read n
      rw [hStore]
      refine .writeRead _ ?_
      rw [← hWritten]
      exact congrArg Except.ok ((s.eeprom.write bytes).read_fst n)
    · cases hDevice
  · rw [eeprom_answer hDevice]
    exact .other hDevice

/-- Whatever the board is asked, and in whatever order, its EEPROM behaves as one store. -/
theorem follows_of_answers {s s' : State} {trace : List Exchange}
    (h : board.Answers s trace s') :
    Store.Follows 0x50 s.eeprom.toStore trace s'.eeprom.toStore := by
  induction h with
  | nil s => exact .nil _
  | cons request h ih => exact .cons (serves_answer request _) ih

end BusBench.Simulated
