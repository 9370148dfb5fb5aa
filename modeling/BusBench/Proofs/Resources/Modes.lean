import BusBench.Proofs.Resources.Sequences

/-!
# Custody of a mode

A mode holds its bus, and the SPI mode chip select as well. Where a mode cannot be entered, whatever
was claimed on the way has been given back.

* `Custody.settled`: what is held between commands.
* `Mode.enter_obeys`, `Mode.leave_obeys`: entering and leaving.
* `Mode.run_stays`, `Mode.runShortcut_obeys`: sequences and macros.
-/

namespace BusBench

open Act (Obeys Stays Succeeds Unlocks)

variable {ω β τ ε α : Type} {P : ω → Prop} {x : ω} {s : Custody}

/-! ## Claims of either backing -/

namespace Act.Obeys

variable {post : Except ε α → ω → Custody → Prop}

theorem claimI2c_bind {next : Except Unavailable Backing → Act ω β τ ε α} {clock data : Pin}
    {hz : Nat} (hPins : ∀ bus, Holding.Separate ⟨.bus bus, [clock, data]⟩) (hBus : s.bus? = none)
    (hFree : s.locked = false)
    (hClaimed : ∀ backing,
      Obeys custody (next (.ok backing)) x (s.add (.bus (.i2c backing))) post)
    (hRefused : ∀ reason, Obeys custody (next (.error reason)) x s post) :
    Obeys custody (Act.claimI2c clock data hz >>= next) x s post := by
  refine .bind (.claim_bind rfl (hPins _) hBus hFree fun answer => ?_)
  cases answer with
  | ok _ => exact .pure (hClaimed .hardware)
  | error reason =>
    refine .claim_bind rfl (hPins _) hBus hFree fun answer => ?_
    cases answer with
    | ok _ => exact .pure (hClaimed .bitBanged)
    | error reason => exact .pure (hRefused reason)

theorem claimSpi_bind {next : Except Unavailable Backing → Act ω β τ ε α} (hBus : s.bus? = none)
    (hFree : s.locked = false)
    (hClaimed : ∀ backing,
      Obeys custody (next (.ok backing)) x (s.add (.bus (.spi backing))) post)
    (hRefused : ∀ reason, Obeys custody (next (.error reason)) x s post) :
    Obeys custody (Act.claimSpi >>= next) x s post := by
  have hPins : ∀ bus, Holding.Separate ⟨.bus bus, [.clk, .mosi, .miso]⟩ :=
    fun _ => Holding.separate_bus.mpr (by decide)
  refine .bind (.claim_bind rfl (hPins _) hBus hFree fun answer => ?_)
  cases answer with
  | ok _ => exact .pure (hClaimed .hardware)
  | error reason =>
    refine .claim_bind rfl (hPins _) hBus hFree fun answer => ?_
    cases answer with
    | ok _ => exact .pure (hClaimed .bitBanged)
    | error reason => exact .pure (hRefused reason)

end Act.Obeys

/-! ## Between commands -/

namespace Custody

/-- What is held between commands: AUX, and a bus and chip select as the case may be. -/
def settled (bus? : Option Bus) (select : Bool) : Custody :=
  { bus?, pins := if select then [.cs, .aux] else [.aux] }

/-- Nothing but AUX is held. -/
abbrev resting : Custody :=
  settled none false

end Custody

namespace Mode

def bus? : Mode → Option Bus
  | hiz => none
  | oneWire _ => some .oneWire
  | uart => some .uart
  | i2c backing => some (.i2c backing)
  | spi session => some (.spi session.backing)

theorem holdsSelect_eq_kind (mode : Mode) : mode.holdsSelect = decide (mode.kind = .spi) := by
  cases mode <;> rfl

end Mode

/-! ## Entering -/

section Entering

variable [Terminal τ]

/-- Either the resource is held or nothing is held that was not held before. -/
def Entered (P : ω → Prop) (after : α → Custody) : Except ε α → ω → Custody → Prop
  | .ok a, x, s => P x ∧ s = after a
  | .error _, x, s => P x ∧ s = .resting

theorem Uart.enter_obeys (hOwn : P x) :
    Obeys custody (Uart.enter : Act ω β τ Error Unit) x .resting
      (Entered P fun _ => .settled (some .uart) false) := by
  refine (Stays.dialogue _).obeys_bind hOwn (fun config x hOwn => ?_) fun e x hOwn => ⟨hOwn, rfl⟩
  refine .claim_bind rfl (by decide) rfl rfl fun answer => ?_
  cases answer with
  | ok _ => exact .pure ⟨hOwn, rfl⟩
  | error reason => exact .throw ⟨hOwn, rfl⟩

omit [Terminal τ] in
theorem OneWire.enter_obeys (hOwn : P x) :
    Obeys custody (OneWire.enter : Act ω β τ Error OneWire.Session) x .resting
      (Entered P fun _ => .settled (some .oneWire) false) := by
  refine .claim_bind rfl (by decide) rfl rfl fun answer => ?_
  cases answer with
  | ok _ => exact .pure ⟨hOwn, rfl⟩
  | error reason => exact .throw ⟨hOwn, rfl⟩

theorem I2c.claimBus_obeys {clock data : Pin} {hz : Nat}
    (hPins : ∀ bus, Holding.Separate ⟨.bus bus, [clock, data]⟩) (hOwn : P x) :
    Obeys custody (I2c.claimBus clock data hz : Act ω β τ Error Backing) x .resting
      (Entered P fun backing => .settled (some (.i2c backing)) false) := by
  refine .claimI2c_bind hPins rfl rfl (fun backing => .bind (.ofExcept ?_))
    fun reason => .throw ⟨hOwn, rfl⟩
  cases backing with
  | bitBanged => exact .pure ⟨hOwn, rfl⟩
  | hardware =>
    -- The user may prefer bit-banging, and may fail to answer: the controller is given back first.
    refine (Succeeds.attempt (.dialogue _)).obeys_bind hOwn fun choice x hOwn => ?_
    rcases choice with e | - | n
    · exact .release_bind rfl rfl rfl (.throw ⟨hOwn, rfl⟩)
    · refine .release_bind rfl rfl rfl ?_
      refine .claim_bind rfl (hPins _) rfl rfl fun answer => ?_
      cases answer with
      | ok _ => exact .pure ⟨hOwn, rfl⟩
      | error reason => exact .throw ⟨hOwn, rfl⟩
    · exact .pure ⟨hOwn, rfl⟩

omit [Terminal τ] in
theorem Dialogue.ok_of_bind {γ : Type} {program : Dialogue τ ε α} {next : α → Dialogue τ ε γ}
    {r : Recorded τ} {c : γ} (h : ((program >>= next).run r).1 = .ok c) :
    ∃ a r', program.run r = (.ok a, r') ∧ ((next a).run r').1 = .ok c := by
  change ((ExceptT.bindCont next (program.run r).1 : StateM _ _).run (program.run r).2).1 = _ at h
  generalize program.run r = done at h ⊢
  obtain ⟨_ | a, r'⟩ := done
  · cases h
  · exact ⟨a, r', rfl, h⟩

/-- The pins are those of the header, or clock and data of the other buses. -/
theorem I2c.choosePins_separate (header : Header) (peer : τ) {clock data : Pin}
    (h : ((I2c.choosePins header).run ⟨peer, []⟩).1 = .ok (clock, data)) (bus : Bus) :
    Holding.Separate ⟨.bus bus, [clock, data]⟩ := by
  rw [Holding.separate_bus]
  unfold I2c.choosePins at h
  split at h
  · obtain ⟨index, r, -, h⟩ := Dialogue.ok_of_bind h
    change Except.ok (if index = 1 then (Pin.scl, Pin.sda) else (Pin.clk, Pin.mosi)) = _ at h
    split at h <;> cases h <;> decide
  · cases h
    decide

theorem I2c.enter_obeys (hOwn : P x) :
    Obeys custody (I2c.enter : Act ω β τ Error Backing) x .resting
      (Entered P fun backing => .settled (some (.i2c backing)) false) := by
  refine Stays.board.obeys_bind hOwn (fun board x hOwn => ?_) fun e x hOwn => ⟨hOwn, rfl⟩
  refine .bind (.dialogue fun peer => ?_)
  cases hPins : ((I2c.choosePins board.header).run ⟨peer, []⟩).1 with
  | error e => exact ⟨hOwn, rfl⟩
  | ok pins =>
    obtain ⟨clock, data⟩ := pins
    refine (Stays.dialogue _).obeys_bind hOwn (fun speed x hOwn => ?_) fun e x hOwn => ⟨hOwn, rfl⟩
    refine (Stays.reach _).obeys_bind hOwn (fun _ x hOwn => ?_) fun e x hOwn => ⟨hOwn, rfl⟩
    exact I2c.claimBus_obeys (I2c.choosePins_separate board.header peer hPins) hOwn

theorem Spi.enter_obeys (hOwn : P x) :
    Obeys custody (Spi.enter : Act ω β τ Error Spi.Session) x .resting
      (Entered P fun session => .settled (some (.spi session.backing)) true) := by
  refine (Stays.dialogue _).obeys_bind hOwn (fun settings x hOwn => ?_) fun e x hOwn => ⟨hOwn, rfl⟩
  obtain ⟨config, activeLow⟩ := settings
  refine .claimSpi_bind rfl rfl (fun backing => .bind (.ofExcept ?_))
    fun reason => .throw ⟨hOwn, rfl⟩
  have hSelect : Pin.cs ∉ [Pin.aux] := by decide
  have hHeld : (Custody.settled (some (.spi backing)) true).Holds (.pin .cs) :=
    List.mem_cons_self
  refine .claim_bind rfl (by decide) hSelect rfl fun answer => ?_
  cases answer with
  | ok _ =>
    refine .bind (.ask fun answer => ⟨_, Custody.step_uses rfl hHeld answer, ?_⟩)
    cases answer with
    | ok _ => exact .pure ⟨hOwn, rfl⟩
    | error reason =>
      refine .release_bind rfl hHeld rfl ?_
      exact .release_bind rfl rfl rfl (.throw ⟨hOwn, rfl⟩)
  | error reason => exact .release_bind rfl rfl rfl (.throw ⟨hOwn, rfl⟩)

/-- The mode is of the kind asked for, and nothing is held but what belongs to it. -/
theorem Mode.enter_obeys (kind : ModeKind) (hOwn : P x) :
    Obeys custody (Mode.enter kind : Act ω β τ Error Mode) x .resting fun
      | .ok mode, x', s' => P x' ∧ mode.kind = kind ∧ s' = .settled mode.bus? mode.holdsSelect
      | .error _, x', s' => P x' ∧ s' = .resting := by
  cases kind with
  | hiz => exact .pure ⟨hOwn, rfl, rfl⟩
  | oneWire =>
    refine .bind ((OneWire.enter_obeys hOwn).mono fun r x s hEntered => ?_)
    cases r with
    | error e => exact hEntered
    | ok session => exact .pure ⟨hEntered.1, rfl, hEntered.2⟩
  | uart =>
    refine .bind ((Uart.enter_obeys hOwn).mono fun r x s hEntered => ?_)
    cases r with
    | error e => exact hEntered
    | ok _ => exact .pure ⟨hEntered.1, rfl, hEntered.2⟩
  | i2c =>
    refine .bind ((I2c.enter_obeys hOwn).mono fun r x s hEntered => ?_)
    cases r with
    | error e => exact hEntered
    | ok backing => exact .pure ⟨hEntered.1, rfl, hEntered.2⟩
  | spi =>
    refine .bind ((Spi.enter_obeys hOwn).mono fun r x s hEntered => ?_)
    cases r with
    | error e => exact hEntered
    | ok session => exact .pure ⟨hEntered.1, rfl, hEntered.2⟩

end Entering

/-! ## In a mode -/

namespace Mode

/-- Leaves the chip select of the prompt alone. -/
theorem leave_obeys {mode : Mode} {select : Bool}
    (hOnce : ¬ (mode.holdsSelect = true ∧ select = true)) (hOwn : P x) :
    Obeys custody (mode.leave : Act ω β τ Error Unit) x
      (.settled mode.bus? (mode.holdsSelect || select)) fun r x' s' =>
        r = .ok () ∧ P x' ∧ s' = .settled none select := by
  have hRelease : ∀ {request : Request} {bus : Bus}, request.role = .releases (.bus bus) →
      Obeys custody (Act.tell request : Act ω β τ Error Unit) x (.settled (some bus) select)
        fun r x' s' => r = .ok () ∧ P x' ∧ s' = .settled none select := by
    intro request bus hRole
    exact .release hRole rfl rfl ⟨rfl, hOwn, rfl⟩
  cases mode with
  | hiz => exact .pure ⟨rfl, hOwn, rfl⟩
  | oneWire session => exact hRelease rfl
  | uart => exact hRelease rfl
  | i2c backing => exact hRelease rfl
  | spi session =>
    have hSelect : select = false := Bool.eq_false_iff.mpr fun h => hOnce ⟨rfl, h⟩
    subst hSelect
    have hHolds : (Custody.settled none true).Holds (.pin .cs) := List.mem_cons_self
    exact .release_bind rfl rfl rfl (.release rfl hHolds rfl ⟨rfl, hOwn, rfl⟩)

variable [Terminal τ] {mode : Mode}

section

variable (hBus : s.bus? = mode.bus?) (hFree : s.locked = false)

include hBus hFree

theorem run_stays (hSelect : mode.holdsSelect = true → .cs ∈ s.pins) (actions : List Action) :
    Stays custody P s (mode.run actions : Act ω β τ Error Unit) := by
  cases mode with
  | hiz => exact .pure _
  | oneWire session => exact OneWire.run_stays hBus actions
  | uart => exact Uart.run_stays hBus actions
  | i2c backing => exact I2c.run_stays hBus hFree actions
  | spi session => exact Spi.run_stays hBus hFree (hSelect rfl) actions

/-- What a macro may change of the mode is no matter of the board. -/
theorem runShortcut_obeys (key : UInt8) (hOwn : P x) :
    Obeys custody (mode.runShortcut key : Act ω β τ Error (Except Error Unit × Mode)) x s
      fun r x' s' => (P x' ∧ s' = s) ∧ ∀ done mode', r = .ok (done, mode') →
        mode'.kind = mode.kind ∧ mode'.bus? = mode.bus? := by
  have hKept : ∀ {δ : Type} {program : Act ω β τ Error δ} {next : δ → Except Error Unit × Mode},
      Succeeds custody P s program →
      (∀ d, (next d).2.kind = mode.kind ∧ (next d).2.bus? = mode.bus?) →
      Obeys custody (program >>= fun d => pure (next d)) x s fun r x' s' => (P x' ∧ s' = s) ∧
        ∀ done mode', r = .ok (done, mode') → mode'.kind = mode.kind ∧ mode'.bus? = mode.bus? := by
    intro δ program next hProgram hNext
    refine hProgram.obeys_bind hOwn fun d x hOwn => .pure ⟨⟨hOwn, rfl⟩, fun done mode' h => ?_⟩
    have hSame := hNext d
    rw [Except.ok.inj h] at hSame
    exact hSame
  cases mode with
  | hiz => exact hKept (.attempt (.dialogue _)) fun _ => ⟨rfl, rfl⟩
  | oneWire session =>
    have hSession : Succeeds custody P s (Act.withOwn session (OneWire.runShortcut key) :
        Act ω β τ Error (Except Error Unit × OneWire.Session)) := fun x hOwn =>
      .withOwn ((OneWire.runShortcut_stays hBus key session trivial).mono
        fun r session' s' hResult => ⟨⟨(r, session'), rfl⟩, hOwn, hResult.2⟩)
    exact hKept hSession fun _ => ⟨rfl, rfl⟩
  | uart => exact hKept (.attempt (Uart.runShortcut_stays hBus key)) fun _ => ⟨rfl, rfl⟩
  | i2c backing => exact hKept (.attempt (I2c.runShortcut_stays hBus hFree key)) fun _ => ⟨rfl, rfl⟩
  | spi session => exact hKept (.attempt (.dialogue _)) fun _ => ⟨rfl, rfl⟩

end

end Mode

end BusBench
