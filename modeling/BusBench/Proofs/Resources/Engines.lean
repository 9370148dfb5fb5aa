import BusBench.Binary.Root
import BusBench.Proofs.Resources.Modes

/-!
# Custody in the binary protocol

AUX and chip select are held while the binary protocol is served. An engine claims its bus and gives
it back when it is left, or when the link breaks. The SPI engine holds the lock of the bus all the
time, the I2C engine for one transaction.

* `Binary.Engine.run_stays`: the engines.
* `Binary.run_stays`: the protocol.
-/

namespace BusBench.Binary

open Act (Obeys Stays Succeeds Unlocks)

variable {ω β ε α : Type} {P : ω → Prop} {s : Custody}

/-! ## Parts -/

theorem peripheralCommand_stays {τ : Type} (hAux : .aux ∈ s.pins) (hSelect : .cs ∈ s.pins)
    (byte : UInt8) : Stays custody P s (peripheralCommand byte : Act ω β τ ε UInt8) := by
  have hApply : ∀ p : Peripherals,
      Stays custody P s (p.apply : Act ω β τ ε (Except BusError Unit)) := by
    intro p
    refine Stays.bind (.tell (Custody.step_free rfl)) fun _ => ?_
    refine Stays.bind (.tell (Custody.step_free rfl)) fun _ => ?_
    refine Stays.bind (.ask (Custody.step_uses rfl hAux)) fun answer => ?_
    cases answer with
    | error reason => exact .pure _
    | ok _ => exact .ask (Custody.step_uses rfl hSelect)
  unfold peripheralCommand
  cases Peripherals.ofCommandByte? byte with
  | none => exact .pure _
  | some p => exact (hApply p).bind fun _ => .pure _

/-- Any reply, and the engine goes on. -/
theorem reply_bind_stays (byte : UInt8) (next : α) :
    Stays custody P s (do reply byte; return next : Talk ω β α) :=
  Stays.bind (.dialogue _) fun _ => .pure _

/-- A claimed bus is given back however serving it ends. -/
theorem attempt_release_obeys {program : Talk ω β Unit} {x : ω} {request : Request} {bus : Bus}
    (hRole : request.role = .releases (.bus bus)) (hBus : s.bus? = none) (hFree : s.locked = false)
    (h : Stays custody P (s.add (.bus bus)) program) (hOwn : P x) :
    Obeys custody
      (do
        let result ← Act.attempt program
        Act.tell request
        Act.ofExcept result : Talk ω β Unit)
      x (s.add (.bus bus)) fun _ x' s' => P x' ∧ s' = s := by
  refine (Succeeds.attempt h).obeys_bind hOwn fun result x hOwn => ?_
  refine .release_bind hRole rfl hFree ?_
  rw [Custody.remove_add_bus hBus]
  exact .ofExcept ⟨hOwn, rfl⟩

/-! ## SPI -/

namespace Spi

variable {backing : Backing}

section Locked

variable (hBus : s.bus? = some (.spi backing)) (hLocked : s.locked = true)

include hBus hLocked

theorem configure_stays (config : BusBench.Spi.Config) :
    Stays custody P s (configure backing config : Talk ω β Bool) :=
  Stays.bind (.ask (Custody.step_transfers rfl hBus hLocked)) fun _ => .pure _

theorem writeThenRead_stays (paired : Paired) :
    Stays custody P s (writeThenRead backing paired : Act ω β Link ε _) := by
  refine (Act.writeSpi_stays hBus hLocked _).bind fun answer => ?_
  cases answer with
  | error reason => exact .pure _
  | ok _ => exact Act.readSpi_stays hBus hLocked _

variable (hSelect : .cs ∈ s.pins)

include hSelect

theorem selectedWriteThenRead_stays (paired : Paired) :
    Stays custody P s (selectedWriteThenRead backing paired : Act ω β Link ε _) := by
  refine Stays.bind (.ask (Custody.step_uses rfl hSelect)) fun answer => ?_
  cases answer with
  | error reason => exact .pure _
  | ok _ =>
    refine (writeThenRead_stays hBus hLocked paired).bind fun result => ?_
    refine Stays.bind (.ask (Custody.step_uses rfl hSelect)) fun answer => ?_
    cases answer with
    | ok _ => exact .pure _
    | error reason =>
      cases result with
      | ok bytes => exact .pure _
      | error earlier => exact .pure _

omit hBus hLocked hSelect in
theorem replyResult_stays (result : Except BusError (List UInt8)) :
    Stays custody P s (replyResult result : Talk ω β Unit) := by
  cases result with
  | ok bytes => exact .dialogue _
  | error reason => exact .dialogue _

variable (hAux : .aux ∈ s.pins)

include hAux

theorem serveRound_stays (config : BusBench.Spi.Config) :
    Stays custody P s (serveRound backing config : Talk ω β _) := by
  refine Stays.bind (.reach _) fun _ => Stays.bind (.dialogue _) fun command => ?_
  dsimp only
  split
  case h_1 => exact .pure _
  case h_2 => exact Stays.bind (.dialogue _) fun _ => .pure _
  case h_3 | h_4 =>
    refine Stays.bind (.ask (Custody.step_uses rfl hSelect)) fun answer => ?_
    exact reply_bind_stays _ _
  case h_5 =>
    refine Stays.bind (.dialogue _) fun paired? => ?_
    cases paired? with
    | none => exact .pure _
    | some paired =>
      refine (selectedWriteThenRead_stays hBus hLocked hSelect paired).bind fun result => ?_
      exact (replyResult_stays result).bind fun _ => .pure _
  case h_6 =>
    refine Stays.bind (.dialogue _) fun paired? => ?_
    cases paired? with
    | none => exact .pure _
    | some paired =>
      refine (writeThenRead_stays hBus hLocked paired).bind fun result => ?_
      exact (replyResult_stays result).bind fun _ => .pure _
  case h_7 =>
    refine .ite ?bulk (.ite ?pins (.ite ?speed (.ite (.ite ?refused ?format) (.pure _))))
    case bulk =>
      refine Stays.bind (.dialogue _) fun bytes => ?_
      refine Stays.bind (.ask (Custody.step_transfers rfl hBus hLocked)) fun answer => ?_
      exact (replyResult_stays _).bind fun _ => .pure _
    case pins => exact (peripheralCommand_stays hAux hSelect _).bind fun _ => reply_bind_stays _ _
    case speed => exact (configure_stays hBus hLocked _).bind fun _ => reply_bind_stays _ _
    case refused => exact reply_bind_stays _ _
    case format => exact (configure_stays hBus hLocked _).bind fun _ => reply_bind_stays _ _

theorem serve_stays : Stays custody P s (serve backing : Talk ω β Unit) := by
  refine (configure_stays hBus hLocked _).bind fun _ => ?_
  refine Stays.bind (.dialogue _) fun _ => ?_
  exact .serveUntil (serveRound_stays hBus hLocked hSelect hAux) _

end Locked

theorem run_stays (hBus : s.bus? = none) (hFree : s.locked = false) (hAux : .aux ∈ s.pins)
    (hSelect : .cs ∈ s.pins) : Stays custody P s (run : Talk ω β Unit) := by
  intro x hOwn
  refine .claimSpi_bind hBus hFree (fun backing => ?_) fun reason => .pure ⟨hOwn, rfl⟩
  have hRelease : Custody.remove (s.add (.bus (.spi backing))) (.bus (.spi backing)) = s :=
    Custody.remove_add_bus hBus
  refine .lock_bind rfl rfl hFree fun granted => ?_
  cases granted with
  | true =>
    have hServe : Stays custody P { s.add (.bus (.spi backing)) with locked := true }
        (serve backing : Talk ω β Unit) := serve_stays rfl rfl hSelect hAux
    refine (Succeeds.attempt hServe).obeys_bind hOwn fun result x hOwn => ?_
    refine .unlock_bind rfl rfl hFree (.release_bind rfl rfl hFree ?_)
    rw [hRelease]
    exact .ofExcept ⟨hOwn, rfl⟩
  | false => exact .release rfl rfl hFree ⟨hOwn, hRelease⟩

end Spi

/-! ## I2C -/

namespace I2c

variable {backing : Backing}

theorem writeThenRead_stays (hBus : s.bus? = some (.i2c backing)) (hLocked : s.locked = true)
    (paired : Paired) : Stays custody P s (writeThenRead backing paired : Act ω β Link ε _) := by
  refine Stays.ite ?_ ?_
  all_goals exact Stays.bind (.ask (Custody.step_transfers rfl hBus hLocked)) fun _ => .pure _

variable (hBus : s.bus? = some (.i2c backing)) (hFree : s.locked = false)

include hBus hFree

theorem locked_stays {transaction : Act ω β Link ε α}
    (h : Stays custody P { s with locked := true } transaction) :
    Stays custody P s (locked backing transaction : Act ω β Link ε (Option α)) := by
  refine Stays.lock_bind rfl hBus hFree fun granted => ?_
  cases granted with
  | true =>
    refine Unlocks.bind (.attempt h) fun result => Unlocks.tell_bind rfl hBus hFree ?_
    exact Stays.bind (.ofExcept _) fun _ => .pure _
  | false => exact .pure _

variable (hAux : .aux ∈ s.pins) (hSelect : .cs ∈ s.pins)

include hAux hSelect

theorem serveRound_stays (u : Unit) : Stays custody P s (serveRound backing u : Talk ω β _) := by
  refine Stays.bind (.reach _) fun _ => Stays.bind (.dialogue _) fun command => ?_
  dsimp only
  split
  case h_1 => exact .pure _
  case h_2 => exact Stays.bind (.dialogue _) fun _ => .pure _
  case h_3 | h_4 => exact reply_bind_stays _ _
  case h_5 | h_6 =>
    refine Stays.bind (.dialogue _) fun paired? => ?_
    cases paired? with
    | none => exact .pure _
    | some paired =>
      have hTransfer : Stays custody P { s with locked := true }
          (writeThenRead backing paired : Act ω β Link LinkError _) :=
        writeThenRead_stays (s := { s with locked := true }) hBus rfl paired
      refine (locked_stays hBus hFree hTransfer).bind fun result? => ?_
      rcases result? with _ | _ | bytes
      · exact reply_bind_stays _ _
      · exact reply_bind_stays _ _
      · exact Stays.bind (.dialogue _) fun _ => .pure _
  case h_7 =>
    refine .ite ?bulk (.ite ?pins (.ite ?speed (.pure _)))
    case bulk =>
      have hTransfer (bytes : List UInt8) : Stays custody P { s with locked := true }
          (writeBulk backing bytes : Act ω β Link LinkError _) :=
        .ask (Custody.step_transfers (s := { s with locked := true }) rfl hBus rfl)
      refine Stays.bind (.dialogue _) fun bytes => ?_
      refine (locked_stays hBus hFree (hTransfer bytes)).bind fun result? => ?_
      exact Stays.bind (.dialogue _) fun _ => .pure _
    case pins => exact (peripheralCommand_stays hAux hSelect _).bind fun _ => reply_bind_stays _ _
    case speed =>
      split
      · exact reply_bind_stays _ _
      · refine Stays.bind (.ask (Custody.step_uses rfl hBus)) fun answer => ?_
        exact reply_bind_stays _ _

omit hBus in
theorem run_stays (hBus : s.bus? = none) : Stays custody P s (run : Talk ω β Unit) := by
  intro x hOwn
  refine Stays.board.obeys_bind hOwn (fun board x hOwn => ?_) fun e x hOwn => ⟨hOwn, rfl⟩
  have hPins : ∀ bus,
      Holding.Separate ⟨.bus bus, [board.header.i2cPins.1, board.header.i2cPins.2]⟩ := by
    intro bus
    rw [Holding.separate_bus]
    unfold Header.i2cPins
    split <;> decide
  refine .claimI2c_bind hPins hBus hFree (fun backing => ?_) fun reason => .pure ⟨hOwn, rfl⟩
  have hRound := serveRound_stays (ω := ω) (β := β) (P := P) (s := s.add (.bus (.i2c backing)))
    rfl hFree hAux hSelect
  exact attempt_release_obeys rfl hBus hFree
    (Stays.bind (.dialogue _) fun _ => .serveUntil hRound _) hOwn

end I2c

/-! ## UART -/

namespace Uart

section Claimed

variable (hBus : s.bus? = some .uart)

include hBus

theorem forward_stays : Stays custody P s (forward : Talk ω β Unit) := by
  refine (Act.takeUart_stays hBus).bind fun bytes? => ?_
  cases bytes? with
  | none => exact .pure _
  | some bytes => exact .dialogue _

theorem writeByte_stays (byte : UInt8) : Stays custody P s (writeByte byte : Talk ω β Unit) :=
  .tell (Custody.step_uses rfl hBus)

theorem bridgeRound_stays (u : Unit) : Stays custody P s (bridgeRound u : Talk ω β _) := by
  refine Stays.bind (.dialogue _) fun byte? => ?_
  cases byte? with
  | none => exact (forward_stays hBus).bind fun _ => .pure _
  | some byte =>
    refine (writeByte_stays hBus byte).bind fun _ => ?_
    exact (forward_stays hBus).bind fun _ => .pure _

theorem bulk_stays (n : Nat) : Stays custody P s (bulk n : Talk ω β Unit) := by
  induction n with
  | zero => exact .pure _
  | succ n ih =>
    refine Stays.bind (.dialogue _) fun byte => (writeByte_stays hBus byte).bind fun _ => ?_
    exact Stays.bind (.dialogue _) fun _ => ih

theorem reconfigure_stays (config next : BusBench.Uart.Config) :
    Stays custody P s (reconfigure config next : Talk ω β _) := by
  refine Stays.bind (.ask (Custody.step_uses rfl hBus)) fun answer => ?_
  cases answer with
  | ok _ => exact reply_bind_stays _ _
  | error reason => exact reply_bind_stays _ _

variable (hAux : .aux ∈ s.pins) (hSelect : .cs ∈ s.pins)

include hAux hSelect

theorem serveCommand_stays (state : State) (command : UInt8) :
    Stays custody P s (serveCommand state command : Talk ω β _) := by
  unfold serveCommand
  split
  case h_1 => exact .pure _
  case h_2 => exact Stays.bind (.dialogue _) fun _ => .pure _
  case h_3 => exact Stays.bind (.tell (Custody.step_uses rfl hBus)) fun _ => reply_bind_stays _ _
  case h_4 => exact reply_bind_stays _ _
  case h_5 => exact reply_bind_stays _ _
  case h_6 => exact (Stays.serveUntil (bridgeRound_stays hBus) _).bind fun _ => .pure _
  case h_7 =>
    refine .ite ?bulk (.ite ?pins (.ite ?speed (.ite ?format (.pure _))))
    case bulk =>
      refine Stays.bind (.dialogue _) fun _ => ?_
      exact (bulk_stays hBus _).bind fun _ => .pure _
    case pins => exact (peripheralCommand_stays hAux hSelect _).bind fun _ => reply_bind_stays _ _
    case speed =>
      split
      · exact reply_bind_stays _ _
      · exact (reconfigure_stays hBus _ _).bind fun _ => .pure _
    case format =>
      split
      · exact reply_bind_stays _ _
      · exact (reconfigure_stays hBus _ _).bind fun _ => .pure _

theorem serveRound_stays (state : State) : Stays custody P s (serveRound state : Talk ω β _) := by
  have hAwait : Stays custody P s (awaitCommand state : Talk ω β _) := by
    refine Stays.bind (.reach _) fun _ => Stays.bind (.dialogue _) fun command? => ?_
    cases command? with
    | none => exact .pure _
    | some command => exact serveCommand_stays hBus hAux hSelect state command
  exact Stays.ite ((forward_stays hBus).bind fun _ => hAwait) hAwait

end Claimed

theorem run_stays (hBus : s.bus? = none) (hFree : s.locked = false) (hAux : .aux ∈ s.pins)
    (hSelect : .cs ∈ s.pins) : Stays custody P s (run : Talk ω β Unit) := by
  intro x hOwn
  refine .claim_bind rfl (by decide) hBus hFree fun answer => ?_
  cases answer with
  | ok _ =>
    have hRound := serveRound_stays (ω := ω) (β := β) (P := P) (s := s.add (.bus .uart))
      rfl hAux hSelect
    exact attempt_release_obeys rfl hBus hFree
      (Stays.bind (.dialogue _) fun _ => .serveUntil hRound _) hOwn
  | error reason => exact .pure ⟨hOwn, rfl⟩

end Uart

/-! ## The root -/

section Root

variable (hBus : s.bus? = none) (hFree : s.locked = false) (hAux : .aux ∈ s.pins)
  (hSelect : .cs ∈ s.pins)

include hBus hFree hAux hSelect

theorem Engine.run_stays (engine : Engine) : Stays custody P s (engine.run : Talk ω β Unit) := by
  cases engine with
  | spi => exact Spi.run_stays hBus hFree hAux hSelect
  | i2c => exact I2c.run_stays hFree hAux hSelect hBus
  | uart => exact Uart.run_stays hBus hFree hAux hSelect

theorem serveRound_stays (u : Unit) : Stays custody P s (serveRound u : Talk ω β _) := by
  refine Stays.bind (.reach _) fun _ => Stays.bind (.dialogue _) fun command => ?_
  refine Stays.ite ?_ (Stays.ite ?_ ?_)
  · exact Stays.bind (.dialogue _) fun _ => .pure _
  · exact reply_bind_stays _ _
  · split
    · exact .pure _
    · next engine _ =>
      refine (Engine.run_stays hBus hFree hAux hSelect engine).bind fun _ => ?_
      exact Stays.bind (.dialogue _) fun _ => .pure _

theorem run_stays : Stays custody P s (run : Talk ω β Unit) := by
  refine Stays.bind (.dialogue _) fun _ => ?_
  exact .serveUntil (serveRound_stays hBus hFree hAux hSelect) _

end Root

end BusBench.Binary
