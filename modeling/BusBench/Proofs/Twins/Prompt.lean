import BusBench.Prompt.Mode
import BusBench.Proofs.Twins.Pairs

/-!
# Modes on two boards

What is done in a mode comes to the same on both boards. Only entering and leaving SPI claims and
releases its lines, and only entering I2C asks for a bus that may be turned down.

* `Uart.run_keeps`, `OneWire.run_keeps`, `Spi.run_keeps`, `I2c.run_keeps`: sequences.
* `Spi.enter_matches`, `Spi.leave_matches`: the lines of SPI.
-/

namespace BusBench

open Simulated (State)
open Twins (At Covers Grows Keeps Matches Tie)

variable {ω τ : Type} [Terminal τ] {O : Tie ω}

/-! ## UART -/

namespace Uart

theorem runAction_keeps (action : Action) :
    Keeps O (runAction action : Act ω State τ Error Unit) (runAction action) := by
  cases action with
  | start => exact .tell trivial
  | write value count =>
    exact .bind (.dialogue _) fun _ => .bind (.ask trivial) fun _ => .ofExcept _
  | read count =>
    exact .bind (.ask trivial) fun _ => .ite (fun _ => .dialogue _) fun _ => .pure _
  | _ => exact .pure _

theorem run_keeps (actions : List Action) :
    Keeps O (run actions : Act ω State τ Error Unit) (run actions) :=
  .forM actions runAction_keeps

theorem forward_keeps : Keeps O (forward : Act ω State τ Error Unit) forward := by
  refine .bind .takeUart fun bytes? => ?_
  cases bytes? with
  | none => exact .pure _
  | some bytes => exact .dialogue _

theorem bridgeRound_keeps :
    Keeps O (bridgeRound () : Act ω State τ Error (Unit ⊕ Unit)) (bridgeRound ()) := by
  refine .bind (.dialogue _) fun key? => ?_
  cases key? with
  | none => exact .bind forward_keeps fun _ => .pure _
  | some key =>
    exact .bind (.ask trivial) fun _ => .bind (.ofExcept _) fun _ => .bind forward_keeps fun _ =>
      .pure _

theorem bridge_keeps : Keeps O (bridge : Act ω State τ Error Unit) bridge := by
  refine .bind (.dialogue _) fun _ => .bind (.dialogue _) fun _ => .bind (.dialogue _) fun line => ?_
  cases line with
  | modeSwitch => exact .throw _
  | text answer => exact .ite (fun _ => .askUntil (fun _ => bridgeRound_keeps) _) fun _ => .pure _

theorem monitorRound_keeps :
    Keeps O (monitorRound () : Act ω State τ Error (Unit ⊕ Unit)) (monitorRound ()) := by
  refine .bind (.dialogue _) fun key? => ?_
  cases key? with
  | none => exact .bind forward_keeps fun _ => .pure _
  | some key => exact .pure _

theorem monitor_keeps : Keeps O (monitor : Act ω State τ Error Unit) monitor :=
  .bind (.dialogue _) fun _ => .bind (.dialogue _) fun _ => .askUntil (fun _ => monitorRound_keeps) _

theorem runShortcut_keeps (key : UInt8) :
    Keeps O (runShortcut key : Act ω State τ Error Unit) (runShortcut key) := by
  refine .bind (.dialogue _) fun shortcut? => ?_
  rcases shortcut? with _ | (_ | _)
  · exact .pure _
  · exact bridge_keeps
  · exact monitor_keeps

theorem enter_keeps : Keeps O (enter : Act ω State τ Error Unit) enter :=
  .bind (.dialogue _) fun _ => .bind (.ask trivial) fun _ => .ofExcept _

omit [Terminal τ] in
theorem leave_keeps : Keeps O (leave : Act ω State τ Error Unit) leave :=
  .tell trivial

end Uart

/-! ## 1-Wire -/

namespace OneWire

theorem reset_keeps : Keeps O (reset : Act ω State τ Error Unit) reset :=
  .bind (.ask trivial) fun _ => .bind (.ofExcept _) fun _ => .dialogue _

omit [Terminal τ] in
theorem readBytes_keeps (count : Nat) :
    Keeps O (readBytes count : Act ω State τ Error (List UInt8)) (readBytes count) :=
  .bind (.ask trivial) fun _ => .bind (.ofExcept _) fun _ => .pure _

theorem runAction_keeps (action : Action) :
    Keeps O (runAction action : Act ω State τ Error Unit) (runAction action) := by
  cases action with
  | start => exact reset_keeps
  | write value count =>
    exact .bind (.dialogue _) fun _ => .bind (.ask trivial) fun _ => .ofExcept _
  | read count => exact .bind (readBytes_keeps _) fun _ => .dialogue _
  | _ => exact .pure _

theorem run_keeps (actions : List Action) :
    Keeps O (run actions : Act ω State τ Error Unit) (run actions) :=
  .forM actions runAction_keeps

theorem readRom_keeps : Keeps O (readRom : Act ω State τ Error Unit) readRom :=
  .bind reset_keeps fun _ => .bind (.ask trivial) fun _ => .bind (.ofExcept _) fun _ =>
    .bind (readBytes_keeps 8) fun _ => .bind (.dialogue _) fun _ => .dialogue _

theorem skipRom_keeps : Keeps O (skipRom : Act ω State τ Error Unit) skipRom :=
  .bind (.dialogue _) fun _ => .bind (.ask trivial) fun _ => .ofExcept _

/-! The macros have the devices of the last search for their own state. -/

section Shortcuts

variable {k : Bool}

theorem listDevices_keeps (index : Nat) (roms : List Rom) :
    Keeps (At k Eq) (listDevices index roms : Act Session State τ Error Unit)
      (listDevices index roms) := by
  induction roms generalizing index with
  | nil => exact .pure _
  | cons rom roms ih =>
    exact .bind (.dialogue _) fun _ => .bind (.dialogue _) fun _ =>
      .ite (fun _ => .bind (.modifyOwn_same _) fun _ => ih _) fun _ => ih _

theorem searchRom_keeps :
    Keeps (At k Eq) (searchRom : Act Session State τ Error Unit) searchRom :=
  .bind (.ask trivial) fun _ => .bind (.ofExcept _) fun _ => .bind (.modifyOwn_same _) fun _ =>
    .bind (.dialogue _) fun _ => .bind (listDevices_keeps _ _) fun _ => .modifyOwn_same _

theorem addressDevice_keeps (index : Nat) :
    Keeps (At k Eq) (addressDevice index : Act Session State τ Error Unit)
      (addressDevice index) := by
  refine .bind .own_same fun session => ?_
  cases session.devices[index]? with
  | none => exact .pure _
  | some rom => exact .bind (.dialogue _) fun _ => .bind (.ask trivial) fun _ => .ofExcept _

theorem runShortcut_keeps (key : UInt8) :
    Keeps (At k Eq) (runShortcut key : Act Session State τ Error Unit) (runShortcut key) := by
  refine .bind .own_same fun session => .bind (.dialogue _) fun shortcut? => ?_
  rcases shortcut? with _ | (_ | _ | _ | index)
  · exact .pure _
  · exact readRom_keeps
  · exact skipRom_keeps
  · exact searchRom_keeps
  · exact addressDevice_keeps index

end Shortcuts

omit [Terminal τ] in
theorem enter_keeps : Keeps O (enter : Act ω State τ Error Session) enter :=
  .bind (.ask trivial) fun _ => .bind (.ofExcept _) fun _ => .pure _

omit [Terminal τ] in
theorem leave_keeps : Keeps O (leave : Act ω State τ Error Unit) leave :=
  .tell trivial

end OneWire

/-! ## SPI -/

namespace Spi

/-- The same session over the bus of either board. -/
def Session.Twin (session session' : Session) : Prop :=
  session.backing = .hardware ∧ session' = { session with backing := .bitBanged }

theorem Session.covers_twin : Covers Session.Twin := by
  rintro ⟨_ | _, config, activeLow⟩
  · exact Or.inl ⟨_, rfl, rfl⟩
  · exact Or.inr ⟨⟨.hardware, config, activeLow⟩, rfl, rfl⟩

variable {session session' : Session}

theorem runAction_keeps (h : session.Twin session') (action : Action) :
    Keeps O (runAction session action : Act ω State τ Error Unit) (runAction session' action) := by
  obtain ⟨backing, config, activeLow⟩ := session
  obtain ⟨rfl, rfl⟩ := h
  cases action with
  | start | stop => exact .bind (.ask rfl) fun _ => .bind (.ofExcept _) fun _ => .dialogue _
  | write value count =>
    exact .bind (.dialogue _) fun _ => .bind (.writeSpi _) fun _ => .ofExcept _
  | read count => exact .bind (.readSpi _) fun _ => .bind (.ofExcept _) fun _ => .dialogue _
  | _ => exact .pure _

theorem replay_keeps (h : session.Twin session') (actions : List Action) :
    Keeps O (replay session actions : Act ω State τ Error Unit) (replay session' actions) := by
  have hActions := fun action => runAction_keeps (O := O) (ω := ω) (τ := τ) h action
  obtain ⟨backing, config, activeLow⟩ := session
  obtain ⟨rfl, rfl⟩ := h
  exact .bind (.ask_spi nofun nofun) fun _ => .bind (.ofExcept _) fun _ => .forM _ hActions

theorem run_keeps (h : session.Twin session') (actions : List Action) :
    Keeps O (run session actions : Act ω State τ Error Unit) (run session' actions) := by
  have hReplay := replay_keeps (O := O) (ω := ω) (τ := τ) h actions
  obtain ⟨backing, config, activeLow⟩ := session
  obtain ⟨rfl, rfl⟩ := h
  exact .bind (.ask_spi nofun nofun) fun _ => .ite (fun _ => .pure _) fun _ =>
    .bind (.attempt hReplay) fun _ => .bind (.tell_spi nofun nofun) fun _ => .ofExcept _

/-- The lines of SPI are claimed if the mode is entered. -/
theorem enter_matches {T : ω → ω → Prop} :
    Matches (At false T) (enter : Act ω State τ Error Session) enter Session.Twin
      fun r => At r.isOk T := by
  refine .bind (Keeps.dialogue _) (fun (config, activeLow) => ?_) fun _ _ _ _ => id
  refine .bind_related (Matches.covers_related Twins.covers_backs) .claimSpi (fun r r' h => ?_)
    fun _ _ _ _ => id
  refine .bind_related Twins.covers_backs (.ofExcept (P := fun r => At r.isOk T) (h.mapError _)
    fun _ _ _ hTie => ?_) (fun backing backing' h => ?_) fun _ _ _ _ => id
  · cases r <;> exact hTie
  obtain ⟨rfl, rfl⟩ := h
  refine .sure_bind (Keeps.ask rfl) (fun _ => rfl) fun answer => ?_
  cases answer with
  | error reason => exact .bind .release_spi (fun _ => .throw fun _ _ _ => id) fun _ _ _ _ => id
  | ok _ =>
    refine .sure_bind (Keeps.ask rfl) (fun _ => rfl) fun answer => ?_
    cases answer with
    | error reason =>
      exact .sure_bind (Keeps.tell rfl) (fun _ => rfl) fun _ =>
        .bind .release_spi (fun _ => .throw fun _ _ _ => id) fun _ _ _ _ => id
    | ok _ => exact .pure ⟨rfl, rfl⟩ fun _ _ _ => id

omit [Terminal τ] in
/-- The lines of SPI are given back. -/
theorem leave_matches {T : ω → ω → Prop} (h : session.Twin session') :
    Matches (At true T) (leave session : Act ω State τ Error Unit) (leave session') Eq
      fun _ => At false T := by
  obtain ⟨backing, config, activeLow⟩ := session
  obtain ⟨rfl, rfl⟩ := h
  exact .bind .release_spi (fun _ => Keeps.tell rfl) fun _ _ _ _ => id

end Spi

/-! ## I2C -/

namespace I2c

omit [Terminal τ] in
theorem transact_keeps (group : Group) :
    Keeps O (transact .hardware group : Act ω State τ Error _) (transact .bitBanged group) :=
  .ite (fun _ => .bind (.ask_i2c _) fun _ => .pure _) fun _ =>
    .ite (fun _ => .bind (.ask_i2c _) fun _ => .pure _) fun _ =>
      .bind (.ask_i2c _) fun _ => .pure _

theorem execute_keeps (group : Group) :
    Keeps O (execute .hardware group : Act ω State τ Error Bool) (execute .bitBanged group) :=
  .bind (.ask_i2c _) fun _ => .ite (fun _ => .pure _) fun _ =>
    .bind (.attempt (.dialogue _)) fun _ => .bind (transact_keeps group) fun _ =>
      .bind (.tell_i2c _) fun _ => .bind (.ofExcept _) fun _ =>
        .bind (.forM _ fun _ => .dialogue _) fun _ => .pure _

theorem runGroups_keeps (n : Nat) (actions : List Action) :
    Keeps O (runGroups .hardware n actions : Act ω State τ Error Unit)
      (runGroups .bitBanged n actions) := by
  induction n generalizing actions with
  | zero => exact .pure _
  | succ n ih =>
    rcases actions with _ | ⟨action, actions⟩
    · exact .pure _
    · cases action with
      | start =>
        simp only [runGroups]
        generalize actions.span _ = parts
        obtain ⟨body, _ | ⟨_, tail⟩⟩ := parts
        · exact .dialogue _
        · dsimp only
          cases plan body with
          | error fault => exact .bind (.dialogue _) fun _ => ih tail
          | ok group =>
            exact .bind (execute_keeps group) fun _ => .ite (fun _ => ih tail) fun _ => .pure _
      | _ => exact .pure _

theorem run_keeps (actions : List Action) :
    Keeps O (run .hardware actions : Act ω State τ Error Unit) (run .bitBanged actions) :=
  runGroups_keeps _ _

theorem searchAddresses_keeps :
    Keeps O (searchAddresses .hardware : Act ω State τ Error Unit) (searchAddresses .bitBanged) :=
  .bind (.ask_i2c _) fun _ => .ite (fun _ => .pure _) fun _ => .bind .scanI2c fun _ =>
    .bind (.tell_i2c _) fun _ => .bind (.dialogue _) fun _ => .forM _ fun _ => .dialogue _

theorem runShortcut_keeps (key : UInt8) :
    Keeps O (runShortcut .hardware key : Act ω State τ Error Unit) (runShortcut .bitBanged key) := by
  refine .bind (.dialogue _) fun shortcut? => ?_
  rcases shortcut? with _ | _
  · exact .pure _
  · exact searchAddresses_keeps

theorem grows_claimBus (clock data : Pin) (hz : Nat) :
    Grows (claimBus clock data hz : Act ω State τ Error Backing) := by
  refine (Twins.grows_claimI2c clock data hz).bind fun answer => ?_
  refine (Grows.ofExcept _).bind fun backing => ?_
  cases backing with
  | bitBanged => exact fun _ => List.suffix_rfl
  | hardware =>
    refine (Grows.attempt (.dialogue _)).bind fun choice => ?_
    rcases choice with e | _ | n
    · exact (Grows.tell _).bind fun _ _ => List.suffix_rfl
    · exact (Grows.tell _).bind fun _ => (Grows.ask _).bind fun _ => (Grows.ofExcept _).bind
        fun _ _ => List.suffix_rfl
    · exact fun _ => List.suffix_rfl

/-- Entering the mode asks for the bus, unless the settings cannot be asked for. -/
theorem enter_matches {P : Except Error Backing → Tie ω} {R : Backing → Backing → Prop}
    (hError : ∀ e opened x x', O opened x x' → P (.error e) opened x x') :
    Matches O (enter : Act ω State τ Error Backing) enter R P := by
  refine .bind Keeps.board (fun board => ?_) hError
  refine .bind (Keeps.dialogue _) (fun (clock, data) => ?_) hError
  refine .bind (Keeps.dialogue _) (fun speed => ?_) hError
  have hGrows := grows_claimBus (ω := ω) (τ := τ) clock data (speedsKhz.getD speed 0 * 1000)
  exact .asks hGrows hGrows

omit [Terminal τ] in
theorem leave_keeps :
    Keeps O (leave .hardware : Act ω State τ Error Unit) (leave .bitBanged) :=
  .tell_i2c _

end I2c

end BusBench
