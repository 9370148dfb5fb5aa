import BusBench.Proofs.Twins.Loopback

/-!
# Simulated boards that answer alike

The simulated board with controllers and the one without them keep different states while they
answer alike. One answers an SPI request by its controller, the other by driving CLK, MOSI and MISO,
which the former never touches.

* `Alike`: two states of the boards that cannot be told apart.
* `Alike.answer_plain`: requests that do not tell a controller from bit-banging.
* `Alike.answer_i2c`, `Alike.answer_spi`: the same request to the bus of either board.
* `Alike.claim_spi`, `Alike.release_spi`: the only requests that claim or release the lines of SPI.
-/

namespace BusBench.Simulated

/-- Whether a pin is a line of SPI. -/
def isSpiLine (p : Pin) : Bool :=
  p = .clk || p = .mosi || p = .miso

/-- The board with controllers cannot be told from the one without. The latter holds the lines of
SPI as long as SPI is in use. -/
structure Alike (opened : Bool) (hard soft : State) : Prop where
  controllers : hard.controllers = true
  noControllers : soft.controllers = false
  power : soft.power = hard.power
  pullups : soft.pullups = hard.pullups
  eeprom : soft.eeprom = hard.eeprom
  thermometer : soft.thermometer = hard.thermometer
  received : soft.received = hard.received
  pending : soft.pending = hard.pending
  i2cLock : soft.i2cLocked.contains .bitBanged = hard.i2cLocked.contains .hardware
  spiLock : soft.softSpi.locked = hard.spiLocked
  claimed : ∀ p, isSpiLine p = false → soft.claimed.contains p = hard.claimed.contains p
  driven : ∀ p, isSpiLine p = false → soft.driven.lookup p = hard.driven.lookup p
  lines : ∀ p, isSpiLine p = true → soft.claimed.contains p = opened
  miso : soft.driven.lookup Pin.miso = none

namespace Alike

variable {opened : Bool} {hard soft : State}

theorem initial : Alike false (initial true) (initial false) where
  controllers := rfl
  noControllers := rfl
  power := rfl
  pullups := rfl
  eeprom := rfl
  thermometer := rfl
  received := rfl
  pending := rfl
  i2cLock := rfl
  spiLock := rfl
  claimed _ _ := rfl
  driven _ _ := rfl
  lines _ _ := rfl
  miso := rfl

/-! ## Pins -/

theorem level (h : Alike opened hard soft) {p : Pin} (hPin : isSpiLine p = false) :
    level p soft = level p hard := by
  have hMiso : p ≠ .miso := by
    rintro rfl
    cases hPin
  simp only [Simulated.level, h.driven p hPin, h.power, h.pullups, if_neg hMiso]

theorem contains_filter (claimed : List Pin) (p p' : Pin) :
    (claimed.filter (· != p)).contains p' = (p' != p && claimed.contains p') := by
  by_cases hSame : p' = p
  · simp [hSame]
  · simp [hSame]

theorem answer_pin (h : Alike opened hard soft) {p : Pin} (hPin : isSpiLine p = false)
    (call : PinCall) :
    (pin p call soft).1 = (pin p call hard).1 ∧
      Alike opened (pin p call hard).2 (pin p call soft).2 := by
  have hLine {p' : Pin} (hLine : isSpiLine p' = true) : p' ≠ p := by
    rintro rfl
    rw [hPin] at hLine
    cases hLine
  have hMiso : Pin.miso ≠ p := hLine rfl
  cases call with
  | claim =>
    simp only [pin, claimPin, h.claimed p hPin]
    split
    · exact ⟨rfl, h⟩
    · refine ⟨rfl, { h with claimed := fun p' hPin' => ?_, lines := fun p' hLine' => ?_ }⟩
      · simp only [List.contains_cons, h.claimed p' hPin']
      · simp only [List.contains_cons, h.lines p' hLine', beq_false_of_ne (hLine hLine'), Bool.false_or]
  | release =>
    refine ⟨rfl, { h with claimed := fun p' hPin' => ?_, driven := fun p' hPin' => ?_,
                          lines := fun p' hLine' => ?_, miso := ?_ }⟩
    · simp only [pin, releasePin, undrive, contains_filter, h.claimed p' hPin']
    · simp only [pin, releasePin, lookup_undrive, h.driven p' hPin']
    · simp only [pin, releasePin, undrive, contains_filter, h.lines p' hLine',
        bne_iff_ne.mpr (hLine hLine'), Bool.true_and]
    · simp only [pin, releasePin, lookup_undrive, if_neg hMiso, h.miso]
  | output high =>
    refine ⟨rfl, { h with driven := fun p' hPin' => ?_, miso := ?_ }⟩
    · simp only [pin, lookup_drive, h.driven p' hPin']
    · simp only [pin, lookup_drive, if_neg hMiso, h.miso]
  | input =>
    refine ⟨rfl, { h with driven := fun p' hPin' => ?_, miso := ?_ }⟩
    · simp only [pin, lookup_undrive, h.driven p' hPin']
    · simp only [pin, lookup_undrive, if_neg hMiso, h.miso]
  | sample =>
    refine ⟨?_, h⟩
    simp only [pin, h.level hPin]

/-! ## Devices -/

theorem answer_uart (h : Alike opened hard soft) (call : UartCall) :
    (uart call soft).1 = (uart call hard).1 ∧
      Alike opened (uart call hard).2 (uart call soft).2 := by
  cases call with
  | claim | clear => exact ⟨rfl, { h with received := rfl }⟩
  | release | configure => exact ⟨rfl, h⟩
  | write bytes =>
    refine ⟨rfl, { h with received := ?_ }⟩
    simp only [uart, h.received]
  | read n =>
    refine ⟨Subtype.ext ?_, { h with received := ?_ }⟩
    · simp only [uart, h.received]
    · simp only [uart, h.received]
  | available => exact ⟨congrArg List.length h.received, h⟩

theorem answer_oneWire (h : Alike opened hard soft) (call : OneWireCall) :
    (oneWire call soft).1 = (oneWire call hard).1 ∧
      Alike opened (oneWire call hard).2 (oneWire call soft).2 := by
  cases call with
  | claim | reset => exact ⟨rfl, { h with pending := rfl }⟩
  | release | search => exact ⟨rfl, h⟩
  | write bytes =>
    simp only [oneWire]
    split
    · refine ⟨rfl, { h with pending := ?_ }⟩
      simp only [h.pending]
    · exact ⟨rfl, h⟩
  | read n =>
    simp only [oneWire, h.pending]
    exact ⟨trivial, { h with pending := rfl }⟩

/-- The devices of I2C are reached by transactions on either board. -/
theorem writeI2c (h : Alike opened hard soft) (address : UInt8) (bytes : List UInt8) :
    (writeI2c address bytes soft).1 = (writeI2c address bytes hard).1 ∧
      Alike opened (writeI2c address bytes hard).2 (writeI2c address bytes soft).2 := by
  unfold Simulated.writeI2c
  by_cases hEeprom : address = 0x50
  · rw [if_pos hEeprom, if_pos hEeprom, h.eeprom]
    exact ⟨rfl, { h with eeprom := rfl }⟩
  · rw [if_neg hEeprom, if_neg hEeprom]
    by_cases hThermometer : address = 0x48
    · rw [if_pos hThermometer, if_pos hThermometer, h.thermometer]
      exact ⟨rfl, { h with thermometer := rfl }⟩
    · rw [if_neg hThermometer, if_neg hThermometer]
      exact ⟨rfl, h⟩

theorem readI2c (h : Alike opened hard soft) (address : UInt8) (n : Nat) :
    (readI2c address n soft).1 = (readI2c address n hard).1 ∧
      Alike opened (readI2c address n hard).2 (readI2c address n soft).2 := by
  unfold Simulated.readI2c
  by_cases hEeprom : address = 0x50
  · rw [if_pos hEeprom, if_pos hEeprom, h.eeprom]
    exact ⟨rfl, { h with eeprom := rfl }⟩
  · rw [if_neg hEeprom, if_neg hEeprom]
    by_cases hThermometer : address = 0x48
    · rw [if_pos hThermometer, if_pos hThermometer, h.thermometer]
      exact ⟨rfl, h⟩
    · rw [if_neg hThermometer, if_neg hThermometer]
      exact ⟨rfl, h⟩

theorem contains_filter_self {backing : Backing} (locked : List Backing) :
    (locked.filter (· != backing)).contains backing = false := by
  simp

theorem claim_i2c (h : Alike opened hard soft) (clock data : Pin) (hz : Nat) :
    ∃ hard' soft', i2c .hardware (.claim clock data hz) hard = (.ok (), hard') ∧
      i2c .hardware (.claim clock data hz) soft = (.error .noHardware, soft) ∧
      i2c .bitBanged (.claim clock data hz) soft = (.ok (), soft') ∧ Alike opened hard' soft' := by
  refine ⟨_, _, if_neg (by rw [h.controllers]; decide), if_pos (by rw [h.noControllers]; decide), rfl,
    { h with i2cLock := ?_ }⟩
  rw [contains_filter_self, contains_filter_self]

/-- Every request to the bus of either board, claims included. -/
theorem answer_i2c (h : Alike opened hard soft) (call : I2cCall) :
    (i2c .bitBanged call soft).1 = (i2c .hardware call hard).1 ∧
      Alike opened (i2c .hardware call hard).2 (i2c .bitBanged call soft).2 := by
  cases call with
  | claim clock data hz =>
    obtain ⟨hard', soft', hHard, -, hSoft, hAlike⟩ := h.claim_i2c clock data hz
    rw [hHard, hSoft]
    exact ⟨rfl, hAlike⟩
  | release | setFrequency => exact ⟨rfl, h⟩
  | lock =>
    simp only [i2c, h.i2cLock]
    split
    · exact ⟨rfl, h⟩
    · exact ⟨rfl, { h with i2cLock := by simp }⟩
  | unlock =>
    exact ⟨rfl, { h with i2cLock := by simp only [i2c, contains_filter_self] }⟩
  | write address bytes => exact h.writeI2c address bytes
  | read address n => exact h.readI2c address n
  | writeRead address bytes n =>
    obtain ⟨hAnswer, hAlike⟩ := h.writeI2c address bytes
    simp only [i2c]
    rcases hHard : Simulated.writeI2c address bytes hard with ⟨_ | _, hard'⟩
    · rcases hSoft : Simulated.writeI2c address bytes soft with ⟨_ | _, soft'⟩
      · rw [hHard, hSoft] at hAnswer hAlike
        cases hAnswer
        exact ⟨rfl, hAlike⟩
      · rw [hHard, hSoft] at hAnswer
        cases hAnswer
    · rcases hSoft : Simulated.writeI2c address bytes soft with ⟨_ | _, soft'⟩
      · rw [hHard, hSoft] at hAnswer
        cases hAnswer
      · rw [hHard, hSoft] at hAlike
        exact hAlike.readI2c address n

/-! ## SPI -/

/-- Levels of CLK and MOSI do not show. -/
theorem moved (h : Alike opened hard soft) {soft' : State} (hMoved : Moved soft soft') :
    Alike opened hard soft' := by
  have hRest := hMoved.rest
  have hDriven (p : Pin) (hPin : isSpiLine p = false) :
      soft'.driven.lookup p = hard.driven.lookup p := by
    refine (hMoved.lookup p ?_ ?_).trans (h.driven p hPin) <;> rintro rfl <;> cases hPin
  have hMiso := hMoved.miso h.miso
  generalize soft'.driven = driven at hRest hDriven hMiso
  subst hRest
  exact { h with driven := hDriven, miso := hMiso }

/-- What is sent comes back from either board. -/
theorem answer_spi (h : Alike opened hard soft) {call : SpiCall} (hClaim : call ≠ .claim)
    (hRelease : call ≠ .release) :
    (softSpi call soft).1 = (hardSpi call hard).1 ∧
      Alike opened (hardSpi call hard).2 (softSpi call soft).2 := by
  cases call with
  | claim => exact absurd rfl hClaim
  | release => exact absurd rfl hRelease
  | lock =>
    refine ⟨?_, { h with spiLock := rfl }⟩
    simp only [softSpi, hardSpi, h.spiLock]
  | unlock => exact ⟨rfl, { h with spiLock := rfl }⟩
  | configure config =>
    obtain ⟨soft', controller, hSoft, hLocked, hMoved⟩ := softSpi_configure config soft
    rw [hSoft]
    have hParked : Alike opened hard { soft with softSpi := controller } :=
      { h with spiLock := hLocked.trans h.spiLock }
    exact ⟨rfl, hParked.moved hMoved⟩
  | transfer bytes =>
    obtain ⟨soft', hSoft, hMoved⟩ := softSpi_transfer bytes h.miso
    rw [hSoft]
    exact ⟨rfl, h.moved hMoved⟩

theorem claimSpiPins_eq (h : Alike false hard soft) :
    claimSpiPins soft = (.ok (), { soft with claimed := .miso :: .mosi :: .clk :: soft.claimed }) := by
  have hClock := h.lines .clk rfl
  have hData := h.lines .mosi rfl
  have hMiso := h.lines .miso rfl
  simp only [claimSpiPins, claimPin, hClock, Bool.false_eq_true, if_false, List.contains_cons, hData, hMiso,
    show (Pin.mosi == Pin.clk) = false from rfl, show (Pin.miso == Pin.clk) = false from rfl,
    show (Pin.miso == Pin.mosi) = false from rfl, Bool.false_or]

/-- The lines of SPI are free as long as SPI is not in use. -/
theorem claim_spi (h : Alike false hard soft) :
    ∃ hard' soft', hardSpi .claim hard = (.ok (), hard') ∧
      hardSpi .claim soft = (.error .noHardware, soft) ∧
      softSpi .claim soft = (.ok (), soft') ∧ Alike true hard' soft' := by
  have hPins : softSpi .claim soft = (.ok (),
      { soft with claimed := .miso :: .mosi :: .clk :: soft.claimed, softSpi := {} }) := by
    simp only [softSpi, h.claimSpiPins_eq]
  refine ⟨_, _, if_pos h.controllers, ?_, hPins,
    { h with spiLock := rfl, claimed := fun p hPin => ?_, lines := fun p hLine => ?_ }⟩
  · simp only [hardSpi, h.noControllers, Bool.false_eq_true, if_false]
  · rw [← h.claimed p hPin]
    cases p <;> first | rfl | cases hPin
  · cases p <;> first | rfl | cases hLine

theorem release_spi (h : Alike true hard soft) :
    Alike false (hardSpi .release hard).2 (softSpi .release soft).2 := by
  refine { h with claimed := fun p hPin => ?_, driven := fun p hPin => ?_,
                  lines := fun p hLine => ?_, miso := ?_ }
  · simp only [softSpi, releasePin, undrive, contains_filter, h.claimed p hPin]
    cases p <;> first | rfl | cases hPin
  · simp only [softSpi, releasePin, lookup_undrive, h.driven p hPin]
    cases p <;> first | rfl | cases hPin
  · simp only [softSpi, releasePin, undrive, contains_filter]
    cases p <;> first | rfl | cases hLine
  · simp only [softSpi, releasePin, lookup_undrive, if_true]

end Alike

/-! ## Requests -/

/-- The request goes neither to the I2C nor to the SPI bus, nor to the pins of the latter. -/
def IsPlain : Request → Prop
  | .i2c .. | .spi .. => False
  | .pin p _ => isSpiLine p = false
  | _ => True

theorem Alike.answer_plain {opened : Bool} {hard soft : State} (h : Alike opened hard soft)
    {request : Request} (hPlain : IsPlain request) :
    (answer request soft).1 = (answer request hard).1 ∧
      Alike opened (answer request hard).2 (answer request soft).2 := by
  cases request with
  | i2c | spi => cases hPlain
  | uart call => exact h.answer_uart call
  | oneWire call => exact h.answer_oneWire call
  | pin p call => exact h.answer_pin hPlain call
  | power on => exact ⟨rfl, { h with power := rfl }⟩
  | pullups on => exact ⟨rfl, { h with pullups := rfl }⟩
  | modeLed | delay => exact ⟨rfl, h⟩
  | voltage probe =>
    refine ⟨?_, h⟩
    have hAux := h.level (p := .aux) rfl
    cases probe <;> simp only [answer, volts, h.power, hAux]

end BusBench.Simulated
