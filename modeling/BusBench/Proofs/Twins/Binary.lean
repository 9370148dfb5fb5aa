import BusBench.Binary.Root
import BusBench.Proofs.Twins.Pairs

/-!
# The binary protocol on two boards

* `Binary.Spi.run_keeps`: the engine of SPI, which claims the lines of SPI and gives them back.
* `Binary.run_keeps`: the whole protocol.
-/

namespace BusBench.Binary

open Simulated (State)
open Twins (At Keeps Matches Tie)

variable {ω ε : Type} {O : Tie ω} {T : ω → ω → Prop}

/-! ## Parts of the engines -/

theorem peripheralCommand_keeps {τ : Type} (byte : UInt8) :
    Keeps O (peripheralCommand byte : Act ω State τ ε UInt8) (peripheralCommand byte) := by
  unfold peripheralCommand
  cases Peripherals.ofCommandByte? byte with
  | none => exact .pure _
  | some p =>
    refine .bind (.bind (.tell trivial) fun _ => .bind (.tell trivial) fun _ =>
      .bind (.ask rfl) fun answer => ?_) fun _ => .pure _
    cases answer with
    | error reason => exact .pure _
    | ok _ => exact .ask rfl

theorem sendBanner_keeps (letters : String) :
    Keeps O (sendBanner letters : Talk ω State Unit) (sendBanner letters) :=
  .dialogue _

theorem reply_keeps (byte : UInt8) : Keeps O (reply byte : Talk ω State Unit) (reply byte) :=
  .dialogue _

theorem replyData_keeps (bytes : List UInt8) :
    Keeps O (replyData bytes : Talk ω State Unit) (replyData bytes) :=
  .dialogue _

/-! ## SPI -/

namespace Spi

theorem configure_keeps (config : BusBench.Spi.Config) :
    Keeps O (configure .hardware config : Talk ω State Bool) (configure .bitBanged config) :=
  .bind (.ask_spi nofun nofun) fun _ => .pure _

theorem writeThenRead_keeps (paired : Paired) :
    Keeps O (writeThenRead .hardware paired : Act ω State Link ε _)
      (writeThenRead .bitBanged paired) := by
  refine .bind (.writeSpi _) fun answer => ?_
  cases answer with
  | error reason => exact .pure _
  | ok _ => exact .readSpi _

theorem selectedWriteThenRead_keeps (paired : Paired) :
    Keeps O (selectedWriteThenRead .hardware paired : Act ω State Link ε _)
      (selectedWriteThenRead .bitBanged paired) := by
  refine .bind (.ask rfl) fun answer => ?_
  cases answer with
  | error reason => exact .pure _
  | ok _ =>
    refine .bind (writeThenRead_keeps paired) fun result => .bind (.ask rfl) fun answer => ?_
    cases answer with
    | ok _ => exact .pure _
    | error reason => cases result <;> exact .pure _

theorem replyResult_keeps (result : Except BusError (List UInt8)) :
    Keeps O (replyResult result : Talk ω State Unit) (replyResult result) := by
  cases result with
  | ok bytes => exact replyData_keeps bytes
  | error reason => exact reply_keeps 0

theorem serveRound_keeps (config : BusBench.Spi.Config) :
    Keeps O (serveRound .hardware config : Talk ω State _) (serveRound .bitBanged config) := by
  refine .bind (.reach _) fun _ => .bind (.dialogue _) fun command => ?_
  dsimp only
  split
  case h_1 => exact .pure _
  case h_2 => exact .bind (sendBanner_keeps _) fun _ => .pure _
  case h_3 | h_4 => exact .bind (.ask rfl) fun _ => .bind (reply_keeps _) fun _ => .pure _
  case h_5 =>
    refine .bind (.dialogue _) fun paired? => ?_
    cases paired? with
    | none => exact .pure _
    | some paired =>
      exact .bind (selectedWriteThenRead_keeps paired) fun _ => .bind (replyResult_keeps _) fun _ =>
        .pure _
  case h_6 =>
    refine .bind (.dialogue _) fun paired? => ?_
    cases paired? with
    | none => exact .pure _
    | some paired =>
      exact .bind (writeThenRead_keeps paired) fun _ => .bind (replyResult_keeps _) fun _ => .pure _
  case h_7 =>
    refine .ite (fun _ => ?_) fun _ => .ite (fun _ => ?_) fun _ => .ite (fun _ => ?_) fun _ =>
      .ite (fun _ => ?_) fun _ => .pure _
    · exact .bind (.dialogue _) fun _ => .bind (.ask_spi nofun nofun) fun _ =>
        .bind (replyResult_keeps _) fun _ => .pure _
    · exact .bind (peripheralCommand_keeps _) fun _ => .bind (reply_keeps _) fun _ => .pure _
    · exact .bind (configure_keeps _) fun _ => .bind (reply_keeps _) fun _ => .pure _
    · exact .ite (fun _ => .bind (reply_keeps _) fun _ => .pure _) fun _ =>
        .bind (configure_keeps _) fun _ => .bind (reply_keeps _) fun _ => .pure _

theorem serve_keeps : Keeps O (serve .hardware : Talk ω State Unit) (serve .bitBanged) :=
  .bind (configure_keeps _) fun _ => .bind (sendBanner_keeps _) fun _ =>
    .serveUntil serveRound_keeps _

/-- Where the lines of SPI are free they are free again afterwards. -/
theorem run_keeps : Keeps (At false T) (run : Talk ω State Unit) run := by
  refine Matches.bind_related (Matches.covers_related Twins.covers_backs) .claimSpi
    (fun r r' h => ?_) fun _ _ _ _ => id
  cases h with
  | error reason => exact .pure rfl fun _ _ _ => id
  | ok h =>
    obtain ⟨rfl, rfl⟩ := h
    refine .sure_bind (Keeps.ask_spi nofun nofun) (fun _ => rfl) fun granted => ?_
    cases granted with
    | false => exact .release_spi
    | true =>
      exact .sure_bind (Keeps.attempt serve_keeps) (fun _ => rfl) fun _ =>
        .sure_bind (Keeps.tell_spi nofun nofun) (fun _ => rfl) fun _ =>
          .sure_bind .release_spi (fun _ => rfl) fun _ => Keeps.ofExcept _

end Spi

/-! ## I2C -/

namespace I2c

variable {α : Type}

theorem locked_keeps {p q : Act ω State Link ε α} (h : Keeps O p q) :
    Keeps O (locked .hardware p) (locked .bitBanged q) :=
  .bind (.ask_i2c _) fun _ => .ite (fun _ => .pure _) fun _ => .bind (.attempt h) fun _ =>
    .bind (.tell_i2c _) fun _ => .bind (.ofExcept _) fun _ => .pure _

theorem writeThenRead_keeps (paired : Paired) :
    Keeps O (writeThenRead .hardware paired : Act ω State Link ε _)
      (writeThenRead .bitBanged paired) :=
  .ite (fun _ => .bind (.ask_i2c _) fun _ => .pure _) fun _ => .bind (.ask_i2c _) fun _ => .pure _

theorem serveRound_keeps :
    Keeps O (serveRound .hardware () : Talk ω State _) (serveRound .bitBanged ()) := by
  refine .bind (.reach _) fun _ => .bind (.dialogue _) fun command => ?_
  dsimp only
  split
  case h_1 => exact .pure _
  case h_2 => exact .bind (sendBanner_keeps _) fun _ => .pure _
  case h_3 | h_4 => exact .bind (reply_keeps _) fun _ => .pure _
  case h_5 | h_6 =>
    refine .bind (.dialogue _) fun paired? => ?_
    cases paired? with
    | none => exact .pure _
    | some paired =>
      refine .bind (locked_keeps (writeThenRead_keeps paired)) fun result? => ?_
      rcases result? with _ | _ | bytes
      · exact .bind (reply_keeps _) fun _ => .pure _
      · exact .bind (reply_keeps _) fun _ => .pure _
      · exact .bind (replyData_keeps _) fun _ => .pure _
  case h_7 =>
    refine .ite (fun _ => ?_) fun _ => .ite (fun _ => ?_) fun _ => .ite (fun _ => ?_) fun _ =>
      .pure _
    · refine .bind (.dialogue _) fun bytes => .bind (locked_keeps (.ask_i2c _)) fun result? => ?_
      rcases result? with _ | _ | _
      all_goals exact .bind (replyData_keeps _) fun _ => .pure _
    · exact .bind (peripheralCommand_keeps _) fun _ => .bind (reply_keeps _) fun _ => .pure _
    · split
      · exact .bind (reply_keeps _) fun _ => .pure _
      · exact .bind (.ask_i2c _) fun _ => .bind (reply_keeps _) fun _ => .pure _

theorem run_keeps : Keeps O (run : Talk ω State Unit) run := by
  refine .bind .board fun board => ?_
  refine Matches.bind_related (Matches.covers_related Twins.covers_backs) (.claimI2c _ _ _)
    (fun r r' h => ?_) fun _ _ _ _ => id
  cases h with
  | error reason => exact .pure rfl fun _ _ _ => id
  | ok h =>
    obtain ⟨rfl, rfl⟩ := h
    exact Keeps.bind (.attempt (.bind (sendBanner_keeps _) fun _ =>
      .serveUntil (fun _ => serveRound_keeps) _)) fun _ => .bind (.tell_i2c _) fun _ => .ofExcept _

end I2c

/-! ## UART -/

namespace Uart

theorem forward_keeps : Keeps O (forward : Talk ω Simulated.State Unit) forward := by
  refine .bind .takeUart fun bytes? => ?_
  cases bytes? with
  | none => exact .pure _
  | some bytes => exact .dialogue _

theorem bridgeRound_keeps :
    Keeps O (bridgeRound () : Talk ω Simulated.State (Unit ⊕ Unit)) (bridgeRound ()) := by
  refine .bind (.dialogue _) fun byte? => ?_
  cases byte? with
  | none => exact .bind forward_keeps fun _ => .pure _
  | some byte => exact .bind (.tell trivial) fun _ => .bind forward_keeps fun _ => .pure _

theorem bulk_keeps (n : Nat) : Keeps O (bulk n : Talk ω Simulated.State Unit) (bulk n) := by
  induction n with
  | zero => exact .pure _
  | succ n ih =>
    exact .bind (.dialogue _) fun _ => .bind (.tell trivial) fun _ => .bind (reply_keeps _) fun _ => ih

theorem reconfigure_keeps (config next : BusBench.Uart.Config) :
    Keeps O (reconfigure config next : Talk ω Simulated.State _) (reconfigure config next) := by
  refine .bind (.ask trivial) fun answer => ?_
  cases answer with
  | ok _ => exact .bind (reply_keeps _) fun _ => .pure _
  | error reason => exact .bind (reply_keeps _) fun _ => .pure _

theorem serveCommand_keeps (state : State) (command : UInt8) :
    Keeps O (serveCommand state command : Talk ω Simulated.State _) (serveCommand state command) := by
  unfold serveCommand
  split
  case h_1 => exact .pure _
  case h_2 => exact .bind (sendBanner_keeps _) fun _ => .pure _
  case h_3 => exact .bind (.tell trivial) fun _ => .bind (reply_keeps _) fun _ => .pure _
  case h_4 => exact .bind (reply_keeps _) fun _ => .pure _
  case h_5 => exact .bind (reply_keeps _) fun _ => .pure _
  case h_6 => exact .bind (.serveUntil (fun _ => bridgeRound_keeps) _) fun _ => .pure _
  case h_7 =>
    refine .ite (fun _ => ?_) fun _ => .ite (fun _ => ?_) fun _ => .ite (fun _ => ?_) fun _ =>
      .ite (fun _ => ?_) fun _ => .pure _
    · exact .bind (reply_keeps _) fun _ => .bind (bulk_keeps _) fun _ => .pure _
    · exact .bind (peripheralCommand_keeps _) fun _ => .bind (reply_keeps _) fun _ => .pure _
    · split
      · exact .bind (reply_keeps _) fun _ => .pure _
      · exact .bind (reconfigure_keeps _ _) fun _ => .pure _
    · split
      · exact .bind (reply_keeps _) fun _ => .pure _
      · exact .bind (reconfigure_keeps _ _) fun _ => .pure _

theorem awaitCommand_keeps (state : State) :
    Keeps O (awaitCommand state : Talk ω Simulated.State _) (awaitCommand state) := by
  refine .bind (.reach _) fun _ => .bind (.dialogue _) fun command? => ?_
  cases command? with
  | none => exact .pure _
  | some command => exact serveCommand_keeps state command

theorem serveRound_keeps (state : State) :
    Keeps O (serveRound state : Talk ω Simulated.State _) (serveRound state) :=
  .ite (fun _ => .bind forward_keeps fun _ => awaitCommand_keeps state) fun _ =>
    awaitCommand_keeps state

theorem run_keeps : Keeps O (run : Talk ω Simulated.State Unit) run := by
  refine .bind (.ask trivial) fun answer => ?_
  cases answer with
  | error reason => exact .pure _
  | ok _ =>
    exact .bind (.attempt (.bind (sendBanner_keeps _) fun _ => .serveUntil serveRound_keeps _))
      fun _ => .bind (.tell trivial) fun _ => .ofExcept _

end Uart

/-! ## The protocol -/

theorem Engine.run_keeps (engine : Engine) :
    Keeps (At false T) (engine.run : Talk ω State Unit) engine.run := by
  cases engine with
  | spi => exact Spi.run_keeps
  | i2c => exact I2c.run_keeps
  | uart => exact Uart.run_keeps

theorem serveRound_keeps :
    Keeps (At false T) (serveRound () : Talk ω State (Unit ⊕ Unit)) (serveRound ()) := by
  refine .bind (.reach _) fun _ => .bind (.dialogue _) fun command =>
    .ite (fun _ => .bind (sendBanner_keeps _) fun _ => .pure _) fun _ =>
      .ite (fun _ => .bind (reply_keeps _) fun _ => .pure _) fun _ => ?_
  cases Engine.ofCommandByte? command with
  | none => exact .pure _
  | some engine =>
    exact .bind engine.run_keeps fun _ => .bind (sendBanner_keeps _) fun _ => .pure _

theorem run_keeps : Keeps (At false T) (run : Talk ω State Unit) run :=
  .bind (sendBanner_keeps _) fun _ => .serveUntil (fun _ => serveRound_keeps) _

end BusBench.Binary
