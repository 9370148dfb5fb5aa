import BusBench.Binary.Root
import BusBench.Proofs.World.Spending

/-!
# What the binary protocol spends

Every round of the binary protocol and of its engines begins with a read, and so does every round of
the bridge. When the link fails, an engine gives back its bus and the failure is passed on.

* `Binary.Spi.serveRound_spends`, `Binary.I2c.serveRound_spends`, `Binary.Uart.serveRound_spends`:
  rounds of the engines.
* `Binary.serveRound_spends`: rounds of the root.
* `Binary.run_spends`: the whole protocol.
-/

namespace BusBench.Binary

open Act (Closes Spends)
open Link (meter)

variable {ω β α : Type}

/-! ## Parts of the engines -/

theorem peripheralCommand_spends (byte : UInt8) :
    Spends meter 0 (peripheralCommand byte : Talk ω β UInt8) := by
  unfold peripheralCommand
  cases Peripherals.ofCommandByte? byte with
  | none => exact .pure _
  | some p =>
    have hApply : Spends meter 0 (p.apply : Talk ω β (Except BusError Unit)) := by
      refine (Spends.tell _).bind fun _ => (Spends.tell _).bind fun _ =>
        (Spends.ask _).bind fun answer => ?_
      cases answer with
      | error reason => exact .pure _
      | ok _ => exact .ask _
    exact hApply.bind fun _ => .pure _

theorem sendBanner_spends (letters : String) :
    Spends meter 0 (sendBanner letters : Talk ω β Unit) :=
  .dialogue (.sendAndFlush _)

theorem reply_spends (byte : UInt8) : Spends meter 0 (reply byte : Talk ω β Unit) :=
  .dialogue (.reply byte)

theorem replyData_spends (bytes : List UInt8) :
    Spends meter 0 (replyData bytes : Talk ω β Unit) :=
  .dialogue ((Dialogue.Spends.send 1).bind fun _ => .sendAndFlush bytes)

theorem readPaired_spends : Dialogue.Spends meter 0 readPaired := by
  refine Dialogue.Spends.readCount.bind fun writeCount =>
    Dialogue.Spends.readCount.bind fun readCount => .ite ?_ ?_
  · exact (Dialogue.Spends.skip _).bind fun _ => (Dialogue.Spends.reply 0).bind fun _ => .pure _
  · exact (Dialogue.Spends.readExact _).bind fun _ => .pure _

/-! ## SPI -/

namespace Spi

theorem configure_spends (backing : Backing) (config : BusBench.Spi.Config) :
    Spends meter 0 (configure backing config : Talk ω β Bool) :=
  (Spends.ask _).bind fun _ => .pure _

theorem writeThenRead_spends (backing : Backing) (paired : Paired) :
    Spends meter 0 (writeThenRead backing paired : Talk ω β _) := by
  refine (Spends.writeSpi _ _).bind fun answer => ?_
  cases answer with
  | error reason => exact .pure _
  | ok _ => exact .readSpi _ _

theorem selectedWriteThenRead_spends (backing : Backing) (paired : Paired) :
    Spends meter 0 (selectedWriteThenRead backing paired : Talk ω β _) := by
  refine (Spends.ask _).bind fun answer => ?_
  cases answer with
  | error reason => exact .pure _
  | ok _ =>
    refine (writeThenRead_spends backing paired).bind fun result =>
      (Spends.ask _).bind fun answer => ?_
    cases answer with
    | ok _ => exact .pure _
    | error reason => cases result <;> exact .pure _

theorem replyResult_spends (result : Except BusError (List UInt8)) :
    Spends meter 0 (replyResult result : Talk ω β Unit) := by
  cases result with
  | ok bytes => exact replyData_spends bytes
  | error reason => exact reply_spends 0

theorem serveRound_spends (backing : Backing) (config : BusBench.Spi.Config) :
    Spends meter 1 (serveRound backing config : Talk ω β _) := by
  refine (Spends.reach _).bind_next fun _ =>
    (Spends.dialogue Dialogue.Spends.read).bind fun command => ?_
  dsimp only
  split
  case h_1 => exact .pure _
  case h_2 => exact (sendBanner_spends _).bind fun _ => .pure _
  case h_3 | h_4 =>
    exact (Spends.ask _).bind fun _ => (reply_spends _).bind fun _ => .pure _
  case h_5 =>
    refine (Spends.dialogue readPaired_spends).bind fun paired? => ?_
    cases paired? with
    | none => exact .pure _
    | some paired =>
      exact (selectedWriteThenRead_spends backing paired).bind fun _ =>
        (replyResult_spends _).bind fun _ => .pure _
  case h_6 =>
    refine (Spends.dialogue readPaired_spends).bind fun paired? => ?_
    cases paired? with
    | none => exact .pure _
    | some paired =>
      exact (writeThenRead_spends backing paired).bind fun _ =>
        (replyResult_spends _).bind fun _ => .pure _
  case h_7 =>
    refine .ite ?_ (.ite ?_ (.ite ?_ (.ite ?_ (.pure _))))
    · exact (Spends.dialogue (.readExact _)).bind fun _ => (Spends.ask _).bind fun _ =>
        (replyResult_spends _).bind fun _ => .pure _
    · exact (peripheralCommand_spends _).bind fun _ => (reply_spends _).bind fun _ => .pure _
    · exact (configure_spends _ _).bind fun _ => (reply_spends _).bind fun _ => .pure _
    · exact .ite ((reply_spends _).bind fun _ => .pure _)
        ((configure_spends _ _).bind fun _ => (reply_spends _).bind fun _ => .pure _)

theorem serve_spends (backing : Backing) : Spends meter 0 (serve backing : Talk ω β Unit) := by
  refine (configure_spends backing _).bind fun _ => (sendBanner_spends _).bind fun _ => ?_
  exact (Spends.serveUntil (serveRound_spends backing) _).mono (Nat.zero_le 1)

theorem run_spends : Spends meter 0 (run : Talk ω β Unit) := by
  refine Spends.claimSpi.bind fun answer => ?_
  cases answer with
  | error reason => exact .pure _
  | ok backing =>
    refine (Spends.ask _).bind fun granted => .ite ?_ (.tell _)
    exact (serve_spends backing).attempt_bind rfl (fun _ => rfl)
      (fun _ => (Spends.tell _).bind fun _ => (Spends.tell _).bind fun _ => .pure _)
      fun _ => .tell_bind (.tell_bind (.throw rfl))

end Spi

/-! ## I2C -/

namespace I2c

/-- The lock is given back even where the link has failed. -/
theorem locked_spends (backing : Backing) {transaction : Talk ω β α}
    (h : Spends meter 0 transaction) : Spends meter 0 (locked backing transaction) := by
  refine (Spends.ask _).bind fun granted => .ite (.pure _) ?_
  exact h.attempt_bind rfl (fun _ => rfl)
    (fun a => (Spends.tell _).bind fun _ => (Spends.pure a).bind fun _ => .pure _)
    fun _ => .tell_bind (Closes.bind (.throw rfl))

theorem writeThenRead_spends (backing : Backing) (paired : Paired) :
    Spends meter 0 (writeThenRead backing paired : Talk ω β _) :=
  .ite ((Spends.ask _).bind fun _ => .pure _) ((Spends.ask _).bind fun _ => .pure _)

theorem serveRound_spends (backing : Backing) (u : Unit) :
    Spends meter 1 (serveRound backing u : Talk ω β (Unit ⊕ Unit)) := by
  refine (Spends.reach _).bind_next fun _ =>
    (Spends.dialogue Dialogue.Spends.read).bind fun command => ?_
  dsimp only
  split
  case h_1 => exact .pure _
  case h_2 => exact (sendBanner_spends _).bind fun _ => .pure _
  case h_3 | h_4 => exact (reply_spends _).bind fun _ => .pure _
  case h_5 | h_6 =>
    refine (Spends.dialogue readPaired_spends).bind fun paired? => ?_
    cases paired? with
    | none => exact .pure _
    | some paired =>
      refine (locked_spends backing (writeThenRead_spends backing paired)).bind fun result? => ?_
      rcases result? with _ | _ | bytes
      · exact (reply_spends _).bind fun _ => .pure _
      · exact (reply_spends _).bind fun _ => .pure _
      · exact (replyData_spends _).bind fun _ => .pure _
  case h_7 =>
    refine .ite ?_ (.ite ?_ (.ite ?_ (.pure _)))
    · refine (Spends.dialogue (.readExact _)).bind fun bytes =>
        (locked_spends backing (.ask _)).bind fun result? => ?_
      rcases result? with _ | _ | _
      all_goals exact (replyData_spends _).bind fun _ => .pure _
    · exact (peripheralCommand_spends _).bind fun _ => (reply_spends _).bind fun _ => .pure _
    · split
      · exact (reply_spends _).bind fun _ => .pure _
      · exact (Spends.ask _).bind fun _ => (reply_spends _).bind fun _ => .pure _

theorem run_spends : Spends meter 0 (run : Talk ω β Unit) := by
  refine Spends.board.bind fun board => (Spends.claimI2c _ _ _).bind fun answer => ?_
  cases answer with
  | error reason => exact .pure _
  | ok backing =>
    have hServe : Spends meter 0
        (do sendBanner banner; serveUntil (serveRound backing) () : Talk ω β Unit) :=
      (sendBanner_spends _).bind fun _ =>
        (Spends.serveUntil (serveRound_spends backing) _).mono (Nat.zero_le 1)
    exact hServe.attempt_bind rfl (fun _ => rfl)
      (fun _ => (Spends.tell _).bind fun _ => .pure _) fun _ => .tell_bind (.throw rfl)

end I2c

/-! ## UART -/

namespace Uart

theorem forward_spends : Spends meter 0 (forward : Talk ω β Unit) := by
  refine Spends.takeUart.bind fun bytes? => ?_
  cases bytes? with
  | none => exact .pure _
  | some bytes => exact .dialogue (.sendAndFlush bytes)

theorem bridgeRound_spends (u : Unit) :
    Spends meter 1 (bridgeRound u : Talk ω β (Unit ⊕ Unit)) := by
  refine (Spends.dialogue Dialogue.Spends.tryRead).bind fun byte? => ?_
  cases byte? with
  | none => exact forward_spends.bind fun _ => .pure _
  | some byte => exact (Spends.tell _).bind fun _ => forward_spends.bind fun _ => .pure _

theorem bulk_spends (count : Nat) : Spends meter 0 (bulk count : Talk ω β Unit) := by
  induction count with
  | zero => exact .pure _
  | succ count ih =>
    exact ((Spends.dialogue Dialogue.Spends.read).mono (Nat.zero_le 1)).bind fun _ =>
      (Spends.tell _).bind fun _ => (reply_spends _).bind fun _ => ih

theorem reconfigure_spends (config next : BusBench.Uart.Config) :
    Spends meter 0 (reconfigure config next : Talk ω β _) := by
  refine (Spends.ask _).bind fun answer => ?_
  cases answer with
  | ok _ => exact (reply_spends _).bind fun _ => .pure _
  | error reason => exact (reply_spends _).bind fun _ => .pure _

theorem serveCommand_spends (state : State) (command : UInt8) :
    Spends meter 0 (serveCommand state command : Talk ω β (State ⊕ Unit)) := by
  unfold serveCommand
  split
  case h_1 => exact .pure _
  case h_2 => exact (sendBanner_spends _).bind fun _ => .pure _
  case h_3 => exact (Spends.tell _).bind fun _ => (reply_spends _).bind fun _ => .pure _
  case h_4 => exact (reply_spends _).bind fun _ => .pure _
  case h_5 => exact (reply_spends _).bind fun _ => .pure _
  case h_6 =>
    exact ((Spends.serveUntil bridgeRound_spends ()).mono (Nat.zero_le 1)).bind fun _ => .pure _
  case h_7 =>
    refine .ite ?_ (.ite ?_ (.ite ?_ (.ite ?_ (.pure _))))
    · exact (reply_spends _).bind fun _ => (bulk_spends _).bind fun _ => .pure _
    · exact (peripheralCommand_spends _).bind fun _ => (reply_spends _).bind fun _ => .pure _
    · split
      · exact (reply_spends _).bind fun _ => .pure _
      · exact (reconfigure_spends _ _).bind fun _ => .pure _
    · split
      · exact (reply_spends _).bind fun _ => .pure _
      · exact (reconfigure_spends _ _).bind fun _ => .pure _

/-- Where nothing has arrived yet the round has taken that moment. -/
theorem serveRound_spends (state : State) :
    Spends meter 1 (serveRound state : Talk ω β (State ⊕ Unit)) := by
  have hAwait : Spends meter 1 (awaitCommand state : Talk ω β (State ⊕ Unit)) := by
    refine (Spends.reach _).bind_next fun _ =>
      (Spends.dialogue Dialogue.Spends.tryRead).bind fun command? => ?_
    cases command? with
    | none => exact .pure _
    | some command => exact serveCommand_spends state command
  exact .ite (forward_spends.bind_next fun _ => hAwait) hAwait

theorem run_spends : Spends meter 0 (run : Talk ω β Unit) := by
  refine (Spends.ask _).bind fun answer => ?_
  cases answer with
  | error reason => exact .pure _
  | ok _ =>
    have hServe : Spends meter 0
        (do sendBanner banner; serveUntil serveRound {} : Talk ω β Unit) :=
      (sendBanner_spends _).bind fun _ =>
        (Spends.serveUntil serveRound_spends _).mono (Nat.zero_le 1)
    exact hServe.attempt_bind rfl (fun _ => rfl)
      (fun _ => (Spends.tell _).bind fun _ => .pure _) fun _ => .tell_bind (.throw rfl)

end Uart

/-! ## The protocol -/

theorem Engine.run_spends (engine : Engine) : Spends meter 0 (engine.run : Talk ω β Unit) := by
  cases engine with
  | spi => exact Spi.run_spends
  | i2c => exact I2c.run_spends
  | uart => exact Uart.run_spends

theorem serveRound_spends (u : Unit) :
    Spends meter 1 (serveRound u : Talk ω β (Unit ⊕ Unit)) := by
  refine (Spends.reach _).bind_next fun _ =>
    (Spends.dialogue Dialogue.Spends.read).bind fun command => .ite ?_ (.ite ?_ ?_)
  · exact (sendBanner_spends _).bind fun _ => .pure _
  · exact (reply_spends _).bind fun _ => .pure _
  · cases Engine.ofCommandByte? command with
    | none => exact .pure _
    | some engine =>
      exact engine.run_spends.bind fun _ => (sendBanner_spends _).bind fun _ => .pure _

theorem run_spends : Spends meter 0 (run : Talk ω β Unit) :=
  (sendBanner_spends _).bind fun _ =>
    (Spends.serveUntil serveRound_spends ()).mono (Nat.zero_le 1)

end BusBench.Binary
