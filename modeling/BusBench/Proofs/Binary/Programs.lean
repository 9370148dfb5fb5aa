import BusBench.Proofs.Binary.Spending
import BusBench.Proofs.Link.Pauses

/-!
# How the binary protocol is put together

The engines of the binary protocol are put together from requests to the board and from dialogues
that wait for whatever they read. Only the one for UART looks whether a byte is there. So a property
of programs that is kept by all these ways to put them together holds of the whole protocol as soon
as it holds of the rounds of that engine.

* `Request.isOfEngines`: what the engines ask for.
* `Compositional`: properties of programs that are kept.
* `Compositional.spi_run`, `Compositional.i2c_run`: the engines that wait.
* `Compositional.uart_serveCommand`, `Compositional.uart_run`: the engine that does not.
* `Compositional.run`: the whole protocol.
-/

namespace BusBench

/-- Whether the engines of the binary protocol ask for such a thing. -/
def Request.isOfEngines : Request → Bool
  | .i2c .. | .spi .. | .uart _ | .pin _ (.output _) | .power _ | .pullups _ => true
  | _ => false

namespace Binary

open Act (Spends)

variable {ω β : Type}

/-- Every way in which the engines put programs together keeps the property `Q`. -/
structure Compositional (Q : {ε α : Type} → Act ω β Link ε α → Prop) : Prop where
  pure {ε α : Type} (a : α) : Q (Pure.pure a : Act ω β Link ε α)
  bind {ε α γ : Type} {program : Act ω β Link ε α} {next : α → Act ω β Link ε γ}
    (h : Q program) (hNext : ∀ a, Q (next a)) : Q (program >>= next)
  ask {ε : Type} (request : Request) (h : request.isOfEngines = true) :
    Q (Act.ask request : Act ω β Link ε request.Answer)
  reach {ε : Type} (point : Point) : Q (Act.reach point : Act ω β Link ε Unit)
  board {ε : Type} : Q (MonadReader.read : Act ω β Link ε (Board β))
  dialogue {ε α : Type} {talk : Dialogue Link ε α} (h : talk.Patient) :
    Q (Act.dialogue talk)
  attempt {ε δ α : Type} {program : Act ω β Link ε α} (h : Q program) :
    Q (Act.attempt program : Act ω β Link δ (Except ε α))
  ofExcept {ε α : Type} (result : Except ε α) : Q (Act.ofExcept result)
  serveUntil {σ α : Type} {round : σ → Talk ω β (σ ⊕ α)}
    (hSpends : ∀ x, Spends Link.meter 1 (round x)) (h : ∀ x, Q (round x)) (x : σ) :
    Q (Binary.serveUntil round x)

namespace Compositional

variable {ε α : Type} {Q : {ε α : Type} → Act ω β Link ε α → Prop}

theorem of_branches {condition : Prop} [Decidable condition] {yes no : Act ω β Link ε α}
    (hYes : Q yes) (hNo : Q no) : Q (if condition then yes else no) := by
  split
  · exact hYes
  · exact hNo

variable (hQ : Compositional Q)

include hQ

/-! ## Parts of the engines -/

theorem tell (request : Request) (h : request.isOfEngines = true) :
    Q (Act.tell request : Act ω β Link ε Unit) :=
  hQ.bind (hQ.ask request h) fun _ => hQ.pure ()

theorem claimI2c (clock data : Pin) (hz : Nat) :
    Q (Act.claimI2c clock data hz : Act ω β Link ε _) := by
  refine hQ.bind (hQ.ask _ rfl) fun answer => ?_
  cases answer with
  | ok _ => exact hQ.pure _
  | error reason => exact hQ.bind (hQ.ask _ rfl) fun _ => hQ.pure _

theorem claimSpi : Q (Act.claimSpi : Act ω β Link ε _) := by
  refine hQ.bind (hQ.ask _ rfl) fun answer => ?_
  cases answer with
  | ok _ => exact hQ.pure _
  | error reason => exact hQ.bind (hQ.ask _ rfl) fun _ => hQ.pure _

theorem peripheralCommand (byte : UInt8) :
    Q (Binary.peripheralCommand byte : Act ω β Link ε UInt8) := by
  unfold Binary.peripheralCommand
  cases Peripherals.ofCommandByte? byte with
  | none => exact hQ.pure _
  | some p =>
    refine hQ.bind ?_ fun _ => hQ.pure _
    refine hQ.bind (hQ.tell _ rfl) fun _ => hQ.bind (hQ.tell _ rfl) fun _ =>
      hQ.bind (hQ.ask _ rfl) fun answer => ?_
    cases answer with
    | error reason => exact hQ.pure _
    | ok _ => exact hQ.ask _ rfl

theorem sendBanner (letters : String) : Q (Binary.sendBanner letters) :=
  hQ.dialogue (.sendAndFlush _)

theorem reply (byte : UInt8) : Q (Binary.reply byte) :=
  hQ.dialogue (.reply byte)

theorem replyData (bytes : List UInt8) : Q (Binary.replyData bytes) :=
  hQ.dialogue ((Dialogue.Patient.send 1).bind fun _ => .sendAndFlush bytes)

/-- Any reply, and the engine goes on. -/
theorem reply_bind (byte : UInt8) (next : α) :
    Q (do Binary.reply byte; return next) :=
  hQ.bind (hQ.reply byte) fun _ => hQ.pure _

theorem readPaired : Q (Act.dialogue Binary.readPaired) := by
  refine hQ.dialogue (Dialogue.Patient.readCount.bind fun writeCount =>
    Dialogue.Patient.readCount.bind fun readCount => .ite ?_ ?_)
  · exact (Dialogue.Patient.skip _).bind fun _ => (Dialogue.Patient.reply 0).bind fun _ => .pure _
  · exact (Dialogue.Patient.readExact _).bind fun _ => .pure _

/-! ## SPI -/

section Spi

variable (backing : Backing)

theorem spi_configure (config : BusBench.Spi.Config) :
    Q (Spi.configure backing config) :=
  hQ.bind (hQ.ask _ rfl) fun _ => hQ.pure _

theorem spi_writeThenRead (paired : Paired) :
    Q (Spi.writeThenRead backing paired : Act ω β Link ε _) := by
  refine hQ.bind (hQ.bind (hQ.ask _ rfl) fun _ => hQ.pure _) fun answer => ?_
  cases answer with
  | error reason => exact hQ.pure _
  | ok _ => exact hQ.bind (hQ.ask _ rfl) fun _ => hQ.pure _

theorem spi_selectedWriteThenRead (paired : Paired) :
    Q (Spi.selectedWriteThenRead backing paired : Act ω β Link ε _) := by
  refine hQ.bind (hQ.ask _ rfl) fun answer => ?_
  cases answer with
  | error reason => exact hQ.pure _
  | ok _ =>
    refine hQ.bind (hQ.spi_writeThenRead backing paired) fun result =>
      hQ.bind (hQ.ask _ rfl) fun answer => ?_
    cases answer with
    | ok _ => exact hQ.pure _
    | error reason =>
      cases result with
      | ok bytes => exact hQ.pure _
      | error earlier => exact hQ.pure _

theorem spi_replyResult (result : Except BusError (List UInt8)) :
    Q (Spi.replyResult result) := by
  cases result with
  | ok bytes => exact hQ.replyData bytes
  | error reason => exact hQ.reply 0

theorem spi_serveRound (config : BusBench.Spi.Config) :
    Q (Spi.serveRound backing config) := by
  refine hQ.bind (hQ.reach _) fun _ => hQ.bind (hQ.dialogue .read) fun command => ?_
  dsimp only
  split
  case h_1 => exact hQ.pure _
  case h_2 => exact hQ.bind (hQ.sendBanner _) fun _ => hQ.pure _
  case h_3 | h_4 => exact hQ.bind (hQ.ask _ rfl) fun _ => hQ.reply_bind _ _
  case h_5 =>
    refine hQ.bind hQ.readPaired fun paired? => ?_
    cases paired? with
    | none => exact hQ.pure _
    | some paired =>
      exact hQ.bind (hQ.spi_selectedWriteThenRead backing paired) fun _ =>
        hQ.bind (hQ.spi_replyResult _) fun _ => hQ.pure _
  case h_6 =>
    refine hQ.bind hQ.readPaired fun paired? => ?_
    cases paired? with
    | none => exact hQ.pure _
    | some paired =>
      exact hQ.bind (hQ.spi_writeThenRead backing paired) fun _ =>
        hQ.bind (hQ.spi_replyResult _) fun _ => hQ.pure _
  case h_7 =>
    refine of_branches ?bulk (of_branches ?pins (of_branches ?speed
      (of_branches (of_branches ?refused ?format) (hQ.pure _))))
    case bulk =>
      exact hQ.bind (hQ.dialogue (.readExact _)) fun _ => hQ.bind (hQ.ask _ rfl) fun _ =>
        hQ.bind (hQ.spi_replyResult _) fun _ => hQ.pure _
    case pins => exact hQ.bind (hQ.peripheralCommand _) fun _ => hQ.reply_bind _ _
    case speed | format => exact hQ.bind (hQ.spi_configure backing _) fun _ => hQ.reply_bind _ _
    case refused => exact hQ.reply_bind _ _

theorem spi_run : Q Spi.run := by
  refine hQ.bind hQ.claimSpi fun answer => ?_
  cases answer with
  | error reason => exact hQ.pure _
  | ok backing =>
    have hServe : Q (Spi.serve backing) :=
      hQ.bind (hQ.spi_configure backing _) fun _ => hQ.bind (hQ.sendBanner _) fun _ =>
        hQ.serveUntil (Spi.serveRound_spends backing) (hQ.spi_serveRound backing) _
    refine hQ.bind (hQ.ask _ rfl) fun granted => of_branches ?_ (hQ.tell _ rfl)
    exact hQ.bind (hQ.attempt hServe) fun result => hQ.bind (hQ.tell _ rfl) fun _ =>
      hQ.bind (hQ.tell _ rfl) fun _ => hQ.ofExcept result

end Spi

/-! ## I2C -/

section I2c

variable (backing : Backing)

theorem i2c_locked {transaction : Act ω β Link ε α} (h : Q transaction) :
    Q (I2c.locked backing transaction) :=
  hQ.bind (hQ.ask _ rfl) fun _ => of_branches (hQ.pure _) (hQ.bind (hQ.attempt h) fun result =>
    hQ.bind (hQ.tell _ rfl) fun _ => hQ.bind (hQ.ofExcept result) fun _ => hQ.pure _)

theorem i2c_writeThenRead (paired : Paired) :
    Q (I2c.writeThenRead backing paired : Act ω β Link ε _) :=
  of_branches (hQ.bind (hQ.ask _ rfl) fun _ => hQ.pure _)
    (hQ.bind (hQ.ask _ rfl) fun _ => hQ.pure _)

theorem i2c_serveRound (u : Unit) : Q (I2c.serveRound backing u) := by
  refine hQ.bind (hQ.reach _) fun _ => hQ.bind (hQ.dialogue .read) fun command => ?_
  dsimp only
  split
  case h_1 => exact hQ.pure _
  case h_2 => exact hQ.bind (hQ.sendBanner _) fun _ => hQ.pure _
  case h_3 | h_4 => exact hQ.reply_bind _ _
  case h_5 | h_6 =>
    refine hQ.bind hQ.readPaired fun paired? => ?_
    cases paired? with
    | none => exact hQ.pure _
    | some paired =>
      refine hQ.bind (hQ.i2c_locked backing (hQ.i2c_writeThenRead backing paired))
        fun result? => ?_
      rcases result? with _ | _ | bytes
      · exact hQ.reply_bind _ _
      · exact hQ.reply_bind _ _
      · exact hQ.bind (hQ.replyData bytes) fun _ => hQ.pure _
  case h_7 =>
    refine of_branches ?bulk (of_branches ?pins (of_branches ?speed (hQ.pure _)))
    case bulk =>
      exact hQ.bind (hQ.dialogue (.readExact _)) fun bytes =>
        hQ.bind (hQ.i2c_locked backing (hQ.ask _ rfl)) fun _ =>
          hQ.bind (hQ.replyData _) fun _ => hQ.pure _
    case pins => exact hQ.bind (hQ.peripheralCommand _) fun _ => hQ.reply_bind _ _
    case speed =>
      split
      · exact hQ.reply_bind _ _
      · exact hQ.bind (hQ.ask _ rfl) fun _ => hQ.reply_bind _ _

theorem i2c_run : Q I2c.run := by
  refine hQ.bind hQ.board fun board => hQ.bind (hQ.claimI2c _ _ _) fun answer => ?_
  cases answer with
  | error reason => exact hQ.pure _
  | ok backing =>
    have hServe : Q
        (do Binary.sendBanner I2c.banner; Binary.serveUntil (I2c.serveRound backing) ()) :=
      hQ.bind (hQ.sendBanner _) fun _ =>
        hQ.serveUntil (I2c.serveRound_spends backing) (hQ.i2c_serveRound backing) _
    exact hQ.bind (hQ.attempt hServe) fun result => hQ.bind (hQ.tell _ rfl) fun _ =>
      hQ.ofExcept result

end I2c

/-! ## UART -/

theorem uart_bulk (count : Nat) : Q (Uart.bulk count) := by
  induction count with
  | zero => exact hQ.pure _
  | succ count ih =>
    exact hQ.bind (hQ.dialogue .read) fun _ => hQ.bind (hQ.tell _ rfl) fun _ =>
      hQ.bind (hQ.reply _) fun _ => ih

theorem uart_reconfigure (config next : BusBench.Uart.Config) :
    Q (Uart.reconfigure config next) := by
  refine hQ.bind (hQ.ask _ rfl) fun answer => ?_
  cases answer with
  | ok _ => exact hQ.reply_bind _ _
  | error reason => exact hQ.reply_bind _ _

/-- Every command waits for what it reads, apart from the bridge. -/
theorem uart_serveCommand (state : Uart.State) (command : UInt8)
    (hBridge : command = 0x0F → Q (Binary.serveUntil Uart.bridgeRound ())) :
    Q (Uart.serveCommand state command) := by
  unfold Uart.serveCommand
  split
  case h_1 => exact hQ.pure _
  case h_2 => exact hQ.bind (hQ.sendBanner _) fun _ => hQ.pure _
  case h_3 => exact hQ.bind (hQ.tell _ rfl) fun _ => hQ.reply_bind _ _
  case h_4 | h_5 => exact hQ.reply_bind _ _
  case h_6 hByte => exact hQ.bind (hBridge (UInt8.toNat_inj.mp hByte)) fun _ => hQ.pure _
  case h_7 =>
    refine of_branches ?bulk (of_branches ?pins (of_branches ?speed
      (of_branches ?format (hQ.pure _))))
    case bulk =>
      exact hQ.bind (hQ.reply _) fun _ => hQ.bind (hQ.uart_bulk _) fun _ => hQ.pure _
    case pins => exact hQ.bind (hQ.peripheralCommand _) fun _ => hQ.reply_bind _ _
    case speed | format =>
      split
      · exact hQ.reply_bind _ _
      · exact hQ.bind (hQ.uart_reconfigure _ _) fun _ => hQ.pure _

theorem uart_run (hServe : Q (Binary.serveUntil Uart.serveRound {})) :
    Q Uart.run := by
  refine hQ.bind (hQ.ask _ rfl) fun answer => ?_
  cases answer with
  | error reason => exact hQ.pure _
  | ok _ =>
    exact hQ.bind (hQ.attempt (hQ.bind (hQ.sendBanner _) fun _ => hServe)) fun result =>
      hQ.bind (hQ.tell _ rfl) fun _ => hQ.ofExcept result

/-! ## The protocol -/

section Root

variable (hServe : Q (Binary.serveUntil Uart.serveRound {}))

include hServe

theorem engine_run (engine : Engine) : Q engine.run := by
  cases engine with
  | spi => exact hQ.spi_run
  | i2c => exact hQ.i2c_run
  | uart => exact hQ.uart_run hServe

theorem serveRound (u : Unit) : Q (Binary.serveRound u) := by
  refine hQ.bind (hQ.reach _) fun _ => hQ.bind (hQ.dialogue .read) fun command =>
    of_branches ?_ (of_branches ?_ ?_)
  · exact hQ.bind (hQ.sendBanner _) fun _ => hQ.pure _
  · exact hQ.reply_bind _ _
  · cases Engine.ofCommandByte? command with
    | none => exact hQ.pure _
    | some engine =>
      exact hQ.bind (hQ.engine_run hServe engine) fun _ =>
        hQ.bind (hQ.sendBanner _) fun _ => hQ.pure _

/-- What holds of the engine that does not wait holds of the protocol. -/
theorem run : Q Binary.run :=
  hQ.bind (hQ.sendBanner _) fun _ =>
    hQ.serveUntil serveRound_spends (hQ.serveRound hServe) ()

end Root

end Compositional

end Binary

end BusBench
