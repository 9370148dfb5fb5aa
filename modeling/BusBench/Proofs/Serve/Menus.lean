import BusBench.Proofs.Terminals.Answers
import BusBench.Proofs.World.Monitors
import BusBench.Prompt.Mode

/-!
# Speeds from menus

The menus of speeds number the entries of tables. What is answered to a menu is the number of one of
its options, so a bus is never claimed with a speed that its table does not have.

* `Monitor.only`: objects to requests of other kinds.
* `Request.isTabled`: claims with speeds of the tables.
* `Mode.enter_tabled`: entering any mode.
-/

namespace BusBench

open Act (Obeys Stays)
open Dialogue (Returns)

namespace Monitor

/-- Objects to every request that is not as `p` says. -/
def only (p : Request → Bool) : Monitor Unit where
  step exchange s := if p exchange.request then some s else none

theorem of_run_only {p : Request → Bool} {trace : List Exchange} {s s' : Unit}
    (h : (only p).run trace s = some s') : ∀ exchange ∈ trace, p exchange.request := by
  induction trace with
  | nil => exact fun exchange hNone => absurd hNone List.not_mem_nil
  | cons exchange trace ih =>
    obtain ⟨mid, hStep, hRest⟩ := Option.bind_eq_some_iff.mp h
    refine List.forall_mem_cons.mpr ⟨?_, ih hRest⟩
    by_contra hOther
    cases (if_neg hOther).symm.trans hStep

end Monitor

/-- Whether the speed of a claim, if there is one, stands in the table of its menu. -/
def Request.isTabled : Request → Bool
  | .i2c _ (.claim _ _ hz) => I2c.speedsKhz.any fun khz => hz == khz * 1000
  | .uart (.claim _ _ config) => Uart.menuSpeeds.contains config.baud
  | _ => true

/-- Objects to claims with other speeds. -/
abbrev tabled : Monitor Unit :=
  .only Request.isTabled

theorem tabled_step {request : Request} (h : request.isTabled) (answer : request.Answer) :
    tabled.step ⟨request, answer⟩ () = some () :=
  if_pos h

/-- What a dialogue answers decides what the rest asks for. -/
theorem Act.Stays.dialogue_bind {S ω β τ ε α γ : Type} {m : Monitor S} {P : ω → Prop} {s : S}
    {talk : Dialogue τ ε α} {next : α → Act ω β τ ε γ}
    (h : Returns talk fun r => ∀ a, r = .ok a → Stays m P s (next a)) :
    Stays m P s (Act.dialogue talk >>= next) := by
  refine fun x hOwn => .bind (.dialogue fun peer => ?_)
  have hNext := h ⟨peer, []⟩
  cases hResult : (talk.run ⟨peer, []⟩).1 with
  | error e => exact ⟨hOwn, rfl⟩
  | ok a => exact hNext a hResult x hOwn

/-- Entries of a table are in the table. -/
theorem mem_of_lt_length {table : List Nat} {index : Nat} (h : index < table.length) :
    table.getD index 0 ∈ table := by
  rw [List.getD_eq_getElem?_getD, List.getElem?_eq_getElem h]
  exact List.getElem_mem h

variable {ω β : Type} {P : ω → Prop}

/-! ## UART -/

namespace Uart

theorem askConfig_returns : Returns (askConfig : Dialogue Console Error Config) fun
    | .ok config => config.baud ∈ menuSpeeds
    | .error e => e ≠ .splitCharacter := by
  have hSpeeds : 0 < (menuSpeeds.map Text.decimal).length := by decide
  refine .bind ((Terminal.select_returns _ hSpeeds).mono fun r hSpeed => ?_)
  cases r with
  | error e => exact hSpeed
  | ok speed =>
    refine .bind ((Terminal.select_returns _ (Nat.succ_pos 3)).mono fun r hFormat => ?_)
    cases r with
    | error e => exact hFormat
    | ok format =>
      refine .bind ((Terminal.select_returns _ (Nat.succ_pos 1)).mono fun r hStop => ?_)
      cases r with
      | error e => exact hStop
      | ok stop =>
        have hLt : speed < menuSpeeds.length := List.length_map Text.decimal ▸ hSpeed
        exact .pure (mem_of_lt_length hLt)

theorem enter_tabled : Stays tabled P () (enter : Act ω β Console Error Unit) := by
  refine .dialogue_bind (askConfig_returns.mono fun r hConfig config h => ?_)
  rw [h] at hConfig
  have hTabled : (Request.uart (.claim .mosi .miso config)).isTabled :=
    List.contains_iff_mem.mpr hConfig
  exact (Stays.ask (tabled_step hTabled)).bind fun answer => .ofExcept _

end Uart

/-! ## I2C -/

namespace I2c

theorem claimBus_tabled (clock data : Pin) {hz : Nat}
    (h : ∀ backing, (Request.i2c backing (.claim clock data hz)).isTabled) :
    Stays tabled P () (claimBus clock data hz : Act ω β Console Error Backing) := by
  have hClaim : ∀ backing, Stays tabled P ()
      (Act.ask (.i2c backing (.claim clock data hz)) : Act ω β Console Error (Except _ Unit)) :=
    fun backing => .ask (tabled_step (h backing))
  have hClaims : Stays tabled P () (Act.claimI2c clock data hz : Act ω β Console Error _) := by
    refine (hClaim .hardware).bind fun answer => ?_
    cases answer with
    | ok _ => exact .pure _
    | error reason => exact (hClaim .bitBanged).bind fun _ => .pure _
  refine hClaims.bind fun answer => (Stays.ofExcept _).bind fun backing => ?_
  cases backing with
  | bitBanged => exact .pure _
  | hardware =>
    have hChoice : Stays tabled P () (Act.attempt (Act.dialogue
        (Terminal.select "I2C mode:" ["Software", "Hardware"] 0)) : Act ω β Console Error _) :=
      fun x hOwn => .attempt (.dialogue fun _ => ⟨hOwn, rfl⟩)
    refine hChoice.bind fun choice => ?_
    rcases choice with e | _ | _
    · exact (Stays.tell (tabled_step rfl)).bind fun _ => .throw _
    · refine (Stays.tell (tabled_step rfl)).bind fun _ => (hClaim .bitBanged).bind fun answer => ?_
      exact (Stays.ofExcept _).bind fun _ => .pure _
    · exact .pure _

theorem enter_tabled : Stays tabled P () (enter : Act ω β Console Error Backing) := by
  refine Stays.board.bind fun board => (Stays.dialogue _).bind fun (clock, data) => ?_
  refine .dialogue_bind ((Terminal.select_returns _ (Nat.succ_pos 3)).mono fun r hSpeed speed h => ?_)
  rw [h] at hSpeed
  have hTabled : ∀ backing, (Request.i2c backing
      (.claim clock data (speedsKhz.getD speed 0 * 1000))).isTabled := fun backing =>
    List.any_eq_true.mpr ⟨_, mem_of_lt_length hSpeed, beq_self_eq_true _⟩
  exact (Stays.reach _).bind fun _ => claimBus_tabled clock data hTabled

end I2c

/-! ## The other modes -/

theorem OneWire.enter_tabled : Stays tabled P () (enter : Act ω β Console Error Session) :=
  (Stays.ask (tabled_step rfl)).bind fun _ => (Stays.ofExcept _).bind fun _ => .pure _

/-- The settings of SPI come into force with a sequence, and no claim has a speed. -/
theorem Spi.enter_tabled : Stays tabled P () (enter : Act ω β Console Error Session) := by
  have hClaim : Stays tabled P () (Act.claimSpi : Act ω β Console Error _) := by
    refine (Stays.ask (tabled_step rfl)).bind fun answer => ?_
    cases answer with
    | ok _ => exact .pure _
    | error reason => exact (Stays.ask (tabled_step rfl)).bind fun _ => .pure _
  refine (Stays.dialogue _).bind fun (config, activeLow) => hClaim.bind fun answer => ?_
  refine (Stays.ofExcept _).bind fun backing => (Stays.ask (tabled_step rfl)).bind fun answer => ?_
  cases answer with
  | error reason => exact (Stays.tell (tabled_step rfl)).bind fun _ => .throw _
  | ok _ =>
    refine (Stays.ask (tabled_step rfl)).bind fun answer => ?_
    cases answer with
    | ok _ => exact .pure _
    | error reason =>
      refine (Stays.tell (tabled_step rfl)).bind fun _ => ?_
      exact (Stays.tell (tabled_step rfl)).bind fun _ => .throw _

/-- Whichever mode is entered, and wherever that fails, speeds are those of the tables. -/
theorem Mode.enter_tabled (kind : ModeKind) :
    Stays tabled P () (enter kind : Act ω β Console Error Mode) := by
  cases kind with
  | hiz => exact .pure _
  | oneWire => exact OneWire.enter_tabled.bind fun _ => .pure _
  | uart => exact Uart.enter_tabled.bind fun _ => .pure _
  | i2c => exact I2c.enter_tabled.bind fun _ => .pure _
  | spi => exact Spi.enter_tabled.bind fun _ => .pure _

end BusBench
