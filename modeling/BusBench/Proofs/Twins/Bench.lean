import BusBench.Prompt.Serve
import BusBench.Proofs.Twins.Prompt

/-!
# The prompt on two boards

While the prompt is in SPI mode it holds the lines of SPI, and it holds them in no other mode. Every
command keeps this, and everything else that the two boards have in common.

* `Mode.Twin`, `Bench.Twin`: modes and benches that differ in what stands behind their buses.
* `Bench.Steady`: what holds between commands.
* `Bench.releaseMode_matches`: the mode is left.
-/

namespace BusBench

open Simulated (State)
open Twins (At Backs Covers Keeps Matches Tie)

/-! ## Modes -/

namespace Mode

/-- The same mode, over the buses of either board. -/
inductive Twin : Mode → Mode → Prop
  | hiz : Twin .hiz .hiz
  | oneWire (session) : Twin (.oneWire session) (.oneWire session)
  | uart : Twin .uart .uart
  | i2c : Twin (.i2c .hardware) (.i2c .bitBanged)
  | spi {session session'} (h : session.Twin session') : Twin (.spi session) (.spi session')

theorem covers_twin : Covers Twin := by
  rintro (_ | session | _ | backing | session)
  · exact Or.inl ⟨_, .hiz⟩
  · exact Or.inl ⟨_, .oneWire session⟩
  · exact Or.inl ⟨_, .uart⟩
  · cases backing with
    | hardware => exact Or.inl ⟨_, .i2c⟩
    | bitBanged => exact Or.inr ⟨_, .i2c⟩
  · rcases Spi.Session.covers_twin session with ⟨session', h⟩ | ⟨session', h⟩
    · exact Or.inl ⟨_, .spi h⟩
    · exact Or.inr ⟨_, .spi h⟩

variable {mode mode' : Mode} {ω τ : Type} {O : Tie ω} {T : ω → ω → Prop}

theorem Twin.kind (h : mode.Twin mode') : mode'.kind = mode.kind := by
  cases h <;> rfl

theorem Twin.holdsSelect (h : mode.Twin mode') : mode'.holdsSelect = mode.holdsSelect := by
  cases h <;> rfl

/-- Whether a mode was entered that holds the lines of SPI. -/
def isSpi {ε : Type} : Except ε Mode → Bool
  | .ok mode => mode.holdsSelect
  | .error _ => false

theorem leave_matches (h : mode.Twin mode') :
    Matches (At mode.holdsSelect T) (mode.leave : Act ω State τ Error Unit) mode'.leave Eq
      fun _ => At false T := by
  cases h with
  | hiz => exact Keeps.pure ()
  | oneWire session => exact OneWire.leave_keeps
  | uart => exact Uart.leave_keeps
  | i2c => exact I2c.leave_keeps
  | spi h => exact Spi.leave_matches h

theorem leave_sure (mode : Mode) (world : World ω State τ) :
    (Twins.runOn (mode.leave : Act ω State τ Error Unit) world).1.isOk = true := by
  cases mode <;> rfl

variable [Terminal τ]

theorem enter_matches (kind : ModeKind) :
    Matches (At false T) (enter kind : Act ω State τ Error Mode) (enter kind) Twin
      fun r => At (isSpi r) T := by
  cases kind with
  | hiz => exact .pure .hiz fun _ _ _ => id
  | oneWire =>
    exact .bind OneWire.enter_keeps (fun session => .pure (.oneWire session) fun _ _ _ => id)
      fun _ _ _ _ => id
  | uart =>
    exact .bind Uart.enter_keeps (fun _ => .pure .uart fun _ _ _ => id) fun _ _ _ _ => id
  | i2c =>
    refine .bind_related (R := Backs) (P := fun _ => At false T) Twins.covers_backs
      (I2c.enter_matches fun _ _ _ _ => id) (fun backing backing' h => ?_) fun _ _ _ _ => id
    obtain ⟨rfl, rfl⟩ := h
    exact .pure .i2c fun _ _ _ => id
  | spi =>
    exact .bind_related Spi.Session.covers_twin Spi.enter_matches
      (fun _ _ h => .pure (.spi h) fun _ _ _ => id) fun _ _ _ _ => id

theorem run_keeps (h : mode.Twin mode') (actions : List Action) :
    Keeps O (mode.run actions : Act ω State τ Error Unit) (mode'.run actions) := by
  cases h with
  | hiz => exact .pure ()
  | oneWire session => exact OneWire.run_keeps actions
  | uart => exact Uart.run_keeps actions
  | i2c => exact I2c.run_keeps actions
  | spi h => exact Spi.run_keeps h actions

/-- What a macro answers: a result, and the mode afterwards. -/
def RanTwin (mode : Mode) (answer answer' : Except Error Unit × Mode) : Prop :=
  answer.1 = answer'.1 ∧ answer.2.Twin answer'.2 ∧ answer.2.holdsSelect = mode.holdsSelect

theorem runNoShortcut_matches (h : mode.Twin mode') (key : UInt8) :
    Matches O (runNoShortcut key mode : Act ω State τ Error (Except Error Unit × Mode))
      (runNoShortcut key mode') (RanTwin mode) fun _ => O :=
  .bind (Keeps.attempt (.dialogue _)) (fun _ => .pure ⟨rfl, h, rfl⟩ fun _ _ _ => id) fun _ _ _ _ => id

theorem runShortcut_matches (h : mode.Twin mode') (key : UInt8) :
    Matches O (runShortcut key mode : Act ω State τ Error (Except Error Unit × Mode))
      (runShortcut key mode') (RanTwin mode) fun _ => O := by
  cases h with
  | hiz => exact runNoShortcut_matches .hiz key
  | oneWire session =>
    exact .bind (Keeps.withOwn fun _ => OneWire.runShortcut_keeps key)
      (fun (result, session) => .pure ⟨rfl, .oneWire session, rfl⟩ fun _ _ _ => id) fun _ _ _ _ => id
  | uart =>
    exact .bind (Keeps.attempt (Uart.runShortcut_keeps key))
      (fun _ => .pure ⟨rfl, .uart, rfl⟩ fun _ _ _ => id) fun _ _ _ _ => id
  | i2c =>
    exact .bind (Keeps.attempt (I2c.runShortcut_keeps key))
      (fun _ => .pure ⟨rfl, .i2c, rfl⟩ fun _ _ _ => id) fun _ _ _ _ => id
  | spi h => exact runNoShortcut_matches (.spi h) key

end Mode

/-! ## The bench -/

namespace Bench

/-- The same bench, over the buses of either board. -/
structure Twin (bench bench' : Bench) : Prop where
  mode : bench.mode.Twin bench'.mode
  capabilities : bench'.capabilities = bench.capabilities
  holdsSelect : bench'.holdsSelect = bench.holdsSelect
  userPin : bench'.userPin = bench.userPin

theorem covers_twin : Covers Twin := by
  rintro ⟨mode, capabilities, holdsSelect, userPin⟩
  rcases Mode.covers_twin mode with ⟨mode', h⟩ | ⟨mode', h⟩
  · exact Or.inl ⟨⟨mode', capabilities, holdsSelect, userPin⟩, h, rfl, rfl, rfl⟩
  · exact Or.inr ⟨⟨mode', capabilities, holdsSelect, userPin⟩, h, rfl, rfl, rfl⟩

variable {bench bench' : Bench}

theorem Twin.drivenPin (h : bench.Twin bench') : bench'.drivenPin = bench.drivenPin := by
  rw [Bench.drivenPin, Bench.drivenPin, h.userPin, h.holdsSelect, h.mode.holdsSelect]

theorem drivenPin_user (bench : Bench) : Simulated.isSpiLine bench.drivenPin = false := by
  unfold drivenPin
  split <;> rfl

theorem Twin.prompt (h : bench.Twin bench') : bench'.prompt = bench.prompt := by
  rw [Bench.prompt, Bench.prompt, h.mode.kind]

/-- The benches are the same, and SPI is in use as long as the mode is SPI. -/
def Steady : Tie Bench :=
  fun opened bench bench' => opened = bench.mode.holdsSelect ∧ bench.Twin bench'

/-- The benches are the same, and in no mode that holds anything. -/
def Rested (bench bench' : Bench) : Prop :=
  bench.mode = .hiz ∧ bench.Twin bench'

theorem Steady.of_rested (opened : Bool) (bench bench' : Bench)
    (h : At false Rested opened bench bench') : Steady opened bench bench' := by
  obtain ⟨rfl, hMode, hTwin⟩ := h
  exact ⟨by rw [hMode]; rfl, hTwin⟩

variable {τ : Type} {ε γ : Type} {O : Tie Bench} {p q : Act Bench State τ ε γ}

theorem Steady.matches_of_rested (h : Keeps (At false Rested) p q) :
    Matches (At false Rested) p q Eq fun _ => Steady :=
  h.mono (fun _ _ _ => id) fun _ => of_rested

theorem Steady.matches_of_steady (h : Keeps Steady p q) :
    Matches (At false Rested) p q Eq fun _ => Steady :=
  h.mono of_rested fun _ _ _ _ => id

/-- Programs that look at the bench see the same one. -/
theorem own_keeps {f : Bench → Act Bench State τ ε γ}
    (hTwin : ∀ opened bench bench', O opened bench bench' → bench.Twin bench')
    (h : ∀ bench bench', bench.Twin bench' → Keeps O (f bench) (f bench')) :
    Keeps O (Act.own >>= f) (Act.own >>= f) :=
  .bind_related covers_twin (.own hTwin) (fun bench bench' hSame => (h bench bench' hSame).mono
    (fun _ _ _ => And.left) fun _ _ _ _ => id) fun _ _ _ _ => And.left

theorem dropSelect_keeps
    (hTwin : ∀ opened bench bench', O opened bench bench' → bench.Twin bench')
    (hDrop : ∀ opened bench bench', O opened bench bench' →
      O opened { bench with holdsSelect := false } { bench' with holdsSelect := false }) :
    Keeps O (dropSelect : Act Bench State τ Error Unit) dropSelect := by
  refine own_keeps hTwin fun bench bench' hSame => ?_
  rw [hSame.holdsSelect]
  exact .ite (fun _ => .bind (.tell rfl) fun _ => Matches.modifyOwn hDrop) fun _ => .pure _

theorem releaseMode_matches :
    Matches Steady (releaseMode : Act Bench State τ Error Unit) releaseMode Eq
      fun _ => At false Rested := by
  refine .bind_related covers_twin (.own fun _ _ _ => And.right) (fun bench bench' hSame => ?_)
    fun _ _ _ _ h => nomatch h.2
  have hLeave : Matches
      (fun opened x x' => Steady opened x x' ∧ (Except.ok bench : Except Error Bench) = .ok x)
      (bench.mode.leave : Act Bench State τ Error Unit) bench'.mode.leave Eq fun _ => At false Twin :=
    (Mode.leave_matches hSame.mode).mono (fun opened x x' h => ?_) fun _ _ _ _ => id
  · refine .sure_bind hLeave (Mode.leave_sure _) fun _ => ?_
    refine .sure_bind (P := fun _ => At false Rested) (.modifyOwn fun opened x x' h => ?_)
      (fun _ => rfl) fun _ => dropSelect_keeps (fun _ _ _ h => h.2.2) fun _ _ _ h => ?_
    · exact ⟨h.1, rfl, .hiz, rfl, h.2.holdsSelect, h.2.userPin⟩
    · exact ⟨h.1, h.2.1, h.2.2.mode, h.2.2.capabilities, rfl, h.2.2.userPin⟩
  · obtain ⟨⟨rfl, hTwin⟩, hOwn⟩ := h
    cases hOwn
    exact ⟨rfl, hTwin⟩

end Bench

end BusBench
