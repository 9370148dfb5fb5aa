import BusBench.Proofs.Resources.Modes
import BusBench.Prompt.Command

/-!
# Custody at the prompt

Between commands the prompt holds AUX and what belongs to its mode, and perhaps chip select on its
own account. Every command leaves it so, whatever the board refuses and wherever the terminal fails.

* `Bench.Sound`, `Bench.held`: what is true and what is held between commands.
* `Bench.switchMode_obeys`: how a change of the mode ends.
* `Bench.runCommand_conserves`: every line that is typed.
-/

namespace BusBench.Bench

open Act (Ends Obeys Stays Succeeds)

variable {β τ ε α γ : Type}

/-! ## Between commands -/

/-- What is held between commands. -/
def held (bench : Bench) : Custody :=
  .settled bench.mode.bus? (bench.mode.holdsSelect || bench.holdsSelect)

/-- What is true between commands. -/
structure Sound (bench : Bench) : Prop where
  capabilities : bench.capabilities = bench.mode.kind.capabilities
  /-- Chip select is held by the mode or by the prompt, but not by both. -/
  once : ¬ (bench.mode.holdsSelect = true ∧ bench.holdsSelect = true)

theorem sound_initial : Sound {} :=
  ⟨rfl, nofun⟩

theorem Sound.chipSelect_capability {bench : Bench} (h : bench.Sound) :
    bench.capabilities.chipSelect = bench.mode.holdsSelect := by
  rw [h.capabilities]
  cases bench.mode <;> rfl

theorem select_held {bench : Bench}
    (h : bench.mode.holdsSelect = true ∨ bench.holdsSelect = true) : .cs ∈ bench.held.pins := by
  have hSelect : (bench.mode.holdsSelect || bench.holdsSelect) = true := Bool.or_eq_true_iff.mpr h
  rw [held, hSelect]
  exact List.mem_cons_self

theorem aux_held (bench : Bench) : .aux ∈ bench.held.pins := by
  rw [held, Custody.settled]
  split
  · exact List.mem_cons_of_mem _ List.mem_cons_self
  · exact List.mem_cons_self

/-- The pin commands drive a pin that is held. -/
theorem drivenPin_held (bench : Bench) : bench.held.Holds (.pin bench.drivenPin) := by
  unfold drivenPin
  split
  · next h => exact select_held h.2.symm
  · exact bench.aux_held

/-- The program leaves the prompt as it must be between commands. -/
def Conserves (program : Act Bench β τ ε α) : Prop :=
  ∀ bench, bench.Sound →
    Obeys custody program bench bench.held fun _ bench' s' => bench'.Sound ∧ s' = bench'.held

namespace Conserves

theorem bind {program : Act Bench β τ ε α} {next : α → Act Bench β τ ε γ} (h : Conserves program)
    (hNext : ∀ a, Conserves (next a)) : Conserves (program >>= next) := by
  intro bench hSound
  refine .bind ((h bench hSound).mono fun r bench' s' hFirst => ?_)
  obtain ⟨hSound', rfl⟩ := hFirst
  cases r with
  | error e => exact ⟨hSound', rfl⟩
  | ok a => exact hNext a bench' hSound'

/-- Programs that change nothing of the prompt. -/
theorem of_stays {program : Act Bench β τ ε α}
    (h : ∀ bench, bench.Sound → Stays custody (· = bench) bench.held program) :
    Conserves program := by
  intro bench hSound
  refine (h bench hSound bench rfl).mono fun r bench' s' hStays => ?_
  obtain ⟨rfl, rfl⟩ := hStays
  exact ⟨hSound, rfl⟩

theorem pure (a : α) : Conserves (Pure.pure a : Act Bench β τ ε α) :=
  of_stays fun _ _ => .pure a

theorem throw (e : ε) : Conserves (MonadExcept.throw e : Act Bench β τ ε α) :=
  of_stays fun _ _ => .throw e

theorem dialogue (talk : Dialogue τ ε α) : Conserves (Act.dialogue talk : Act Bench β τ ε α) :=
  of_stays fun _ _ => .dialogue talk

end Conserves

/-! ## Leaving a mode -/

/-- The bench after its mode was left. -/
def rested (bench : Bench) : Bench :=
  { bench with mode := .hiz, capabilities := ModeKind.hiz.capabilities, holdsSelect := false }

theorem sound_rested (bench : Bench) : bench.rested.Sound :=
  ⟨rfl, nofun⟩

theorem dropSelect_obeys {bench : Bench} (hSound : bench.Sound) :
    Obeys custody (dropSelect : Act Bench β τ Error Unit) bench bench.held
      fun r bench' s' => r = .ok () ∧ bench' = { bench with holdsSelect := false } ∧
        s' = bench'.held := by
  refine .bind (.own ?_)
  change Obeys custody (if bench.holdsSelect = true then _ else _) bench bench.held _
  by_cases hSelect : bench.holdsSelect = true
  · rw [if_pos hSelect]
    have hMode : bench.mode.holdsSelect = false :=
      Bool.eq_false_iff.mpr fun h => hSound.once ⟨h, hSelect⟩
    refine .release_bind rfl (select_held (Or.inr hSelect)) rfl (.modifyOwn ⟨rfl, rfl, ?_⟩)
    rw [held, held, hMode, hSelect]
    rfl
  · rw [if_neg hSelect]
    have hKept : bench = { bench with holdsSelect := false } := by
      rw [← Bool.eq_false_iff.mpr hSelect]
    exact .pure ⟨rfl, hKept, rfl⟩

theorem releaseMode_obeys {bench : Bench} (hSound : bench.Sound) :
    Obeys custody (releaseMode : Act Bench β τ Error Unit) bench bench.held
      fun r bench' s' => r = .ok () ∧ bench' = bench.rested ∧ s' = .resting := by
  refine .bind (.own (.bind ((Mode.leave_obeys (P := (· = bench)) hSound.once rfl).mono
    fun r bench' s' hLeft => ?_)))
  obtain ⟨rfl, rfl, rfl⟩ := hLeft
  have hHiz : Sound { bench' with mode := .hiz, capabilities := ModeKind.hiz.capabilities } :=
    ⟨rfl, fun h => Bool.false_ne_true h.1⟩
  refine .bind (.modifyOwn ((dropSelect_obeys hHiz).mono fun r bench'' s' hDropped => ?_))
  obtain ⟨rfl, rfl, rfl⟩ := hDropped
  exact ⟨rfl, rfl, rfl⟩

/-- Whatever follows begins with nothing but AUX held. -/
theorem releaseMode_bind {bench : Bench} {next : Unit → Act Bench β τ Error α}
    {post : Except Error α → Bench → Custody → Prop} (hSound : bench.Sound)
    (hNext : Obeys custody (next ()) bench.rested .resting post) :
    Obeys custody (releaseMode >>= next) bench bench.held post := by
  refine .bind ((releaseMode_obeys hSound).mono fun r bench' s' hReleased => ?_)
  obtain ⟨rfl, rfl, rfl⟩ := hReleased
  exact hNext

variable [Terminal τ]

theorem showVersion_stays {P : Bench → Prop} {s : Custody} :
    Stays custody P s (showVersion : Act Bench β τ Error Unit) := by
  refine Stays.bind .board fun board => ?_
  refine Stays.bind (.dialogue _) fun _ => Stays.bind (.dialogue _) fun _ => ?_
  exact Stays.own_bind fun _ _ => .dialogue _

theorem softReset_obeys {bench : Bench} (hSound : bench.Sound) :
    Obeys custody (softReset : Act Bench β τ Error Unit) bench bench.held
      fun _ bench' s' => bench' = { bench.rested with userPin := .aux } ∧ s' = .resting := by
  refine releaseMode_bind hSound (.bind (.modifyOwn ?_))
  have hRest : Stays custody (· = { bench.rested with userPin := .aux }) .resting
      (do Act.tell (.modeLed false); showVersion : Act Bench β τ Error Unit) :=
    Stays.bind (.tell (Custody.step_free rfl)) fun _ => showVersion_stays
  exact hRest _ rfl

/-! ## Entering a mode -/

/-- The line that confirms a new mode cannot be written on a terminal, which fails with this error.
-/
def Unconfirmed (τ : Type) [Terminal τ] (e : Error) : Prop :=
  ∃ peer : τ, ((Terminal.writeLine "Mode selected").run ⟨peer, []⟩).1 = .error e

/-- How a change of the mode ends. Either the prompt is in HiZ; or it is in the new mode, and if it
fails it does so because it cannot tell the user. -/
def Switched (τ : Type) [Terminal τ] (result : Except Error Flow) (bench : Bench) : Prop :=
  bench.holdsSelect = false ∧
    (bench.mode = .hiz ∨ result = .ok .continue ∨ ∃ e, result = .error e ∧ Unconfirmed τ e)

theorem enterMode_obeys (kind : ModeKind) (bench : Bench) :
    Obeys custody (enterMode kind : Act Bench β τ Error Flow) bench.rested .resting
      fun r bench' s' => bench'.Sound ∧ s' = bench'.held ∧ Switched τ r bench' := by
  refine .bind (.attempt ((Mode.enter_obeys (P := (· = bench.rested)) kind rfl).mono
    fun r bench' s' hEntered => ?_))
  cases r with
  | error e =>
    obtain ⟨rfl, rfl⟩ := hEntered
    have hRest : ∀ r, bench.rested.Sound ∧ .resting = bench.rested.held ∧
        Switched τ r bench.rested := fun _ => ⟨bench.sound_rested, rfl, rfl, .inl rfl⟩
    cases e with
    | modeSwitch => exact .pure (hRest _)
    | link => exact .throw (hRest _)
    | splitCharacter => exact .throw (hRest _)
    | _ =>
      exact (Stays.dialogue _).obeys_bind (P := (· = bench.rested)) rfl
        (fun _ bench' hOwn => hOwn ▸ .pure (hRest _)) fun e bench' hOwn => hOwn ▸ hRest _
  | ok mode =>
    obtain ⟨rfl, rfl, rfl⟩ := hEntered
    refine .bind (.modifyOwn ?_)
    have hSound : Sound { bench.rested with mode, capabilities := mode.kind.capabilities } :=
      ⟨rfl, fun h => Bool.false_ne_true h.2⟩
    have hHeld : Custody.settled mode.bus? mode.holdsSelect =
        held { bench.rested with mode, capabilities := mode.kind.capabilities } := by
      rw [held, rested, Bool.or_false]
    change Obeys custody (if mode.kind ≠ .hiz then _ else _) _ _ _
    split
    · refine .bind (.dialogue fun peer => ?_)
      cases hWrite : ((Terminal.writeLine "Mode selected").run ⟨peer, []⟩).1 with
      | ok _ => exact .pure ⟨hSound, hHeld, rfl, .inr (.inl rfl)⟩
      | error e => exact ⟨hSound, hHeld, rfl, .inr (.inr ⟨e, rfl, peer, hWrite⟩)⟩
    · exact .pure ⟨hSound, hHeld, rfl, .inr (.inl rfl)⟩

omit [Terminal τ] in
theorem readLiteral_stays {P : Bench → Prop} {s : Custody} (text : List Char) :
    Stays custody P s (readLiteral text : Act Bench β τ Error (Option Nat)) := by
  unfold readLiteral
  split
  · exact .pure _
  · exact .pure _
  · exact .throw _

omit [Terminal τ] in
theorem showModeLed_stays {P : Bench → Prop} {s : Custody} (flow : Flow) :
    Stays custody P s (do showModeLed; return flow : Act Bench β τ Error Flow) :=
  Stays.bind (Stays.own_bind fun _ _ => .tell (Custody.step_free rfl)) fun _ => .pure _

theorem switchMode_obeys (selection : List Char) {bench : Bench} (hSound : bench.Sound) :
    Obeys custody (switchMode selection : Act Bench β τ Error Flow) bench bench.held
      fun r bench' s' => bench'.Sound ∧ s' = bench'.held ∧ Switched τ r bench' := by
  have hRest : ∀ r, bench.rested.Sound ∧ .resting = bench.rested.held ∧
      Switched τ r bench.rested := fun _ => ⟨bench.sound_rested, rfl, rfl, .inl rfl⟩
  refine releaseMode_bind hSound ?_
  refine (readLiteral_stays _).obeys_bind (P := (· = bench.rested)) rfl
    (fun number? bench' hOwn => ?_) fun e bench' hOwn => hOwn ▸ hRest _
  subst hOwn
  have hLed : ∀ flow bench' s', bench'.Sound ∧ s' = bench'.held ∧ Switched τ (.ok flow) bench' →
      Obeys custody (do showModeLed; return flow : Act Bench β τ Error Flow) bench' s'
        fun r bench' s' => bench'.Sound ∧ s' = bench'.held ∧ Switched τ r bench' := by
    intro flow bench' s' hSwitched
    exact .bind (.bind (.own (.tell_free rfl (.pure hSwitched))))
  dsimp only
  cases ModeKind.ofNumber? (number?.getD 1) with
  | none =>
    refine (Stays.dialogue _).obeys_bind (P := (· = bench.rested)) rfl (fun _ bench' hOwn => ?_)
      fun e bench' hOwn => hOwn ▸ hRest _
    subst hOwn
    exact .bind (.pure (hLed _ _ _ (hRest _)))
  | some kind =>
    refine .bind ((enterMode_obeys kind bench).mono fun r bench' s' hSwitched => ?_)
    cases r with
    | error e => exact hSwitched
    | ok flow => exact hLed flow bench' s' hSwitched

/-! ### The mode that is entered -/

/-- In the course of a program from one world to another the mode was entered, and with success. -/
def Entering (board : Board β) (before after : World Bench β τ) (mode : Mode) : Prop :=
  ∃ kind w w', exchanges before.events <+: exchanges w.events ∧
    ((Mode.enter kind : Act Bench β τ Error Mode) board).run w = (.ok mode, w') ∧
      exchanges w'.events <+: exchanges after.events

theorem enterMode_ends (kind : ModeKind) (board : Board β) (world : World Bench β τ) :
    Ends board (enterMode kind) world fun _ w =>
      w.own.mode = world.own.mode ∨ Entering board world w w.own.mode := by
  have hEnter := (Ends.of_obeys board
    (Mode.enter_obeys (P := (· = world.own)) (β := β) (τ := τ) kind rfl)).with_run
  refine .bind (.attempt (hEnter.mono fun r w h => ?_))
  obtain ⟨hRun, -, s, hOwn⟩ := h
  cases r with
  | error e =>
    have hKept : ∀ {program : Act Bench β τ Error Flow},
        Stays custody (· = w.own) .resting program → Ends board program w fun _ w' =>
          w'.own.mode = world.own.mode ∨ Entering board world w' w'.own.mode :=
      fun h => h.ends.mono fun r w' hEnds => .inl (congrArg _ (hEnds.2.trans hOwn.1))
    cases e with
    | modeSwitch => exact hKept (.pure _)
    | link => exact hKept (.throw _)
    | splitCharacter => exact hKept (.throw _)
    | _ => exact hKept (Stays.bind (.dialogue _) fun _ => .pure _)
  | ok mode =>
    -- What is left to do is the line that confirms the mode, which asks nothing of the board.
    let w' : World Bench β τ :=
      { w with own := { w.own with mode, capabilities := kind.capabilities } }
    have hTell : Stays custody (· = w'.own) .resting
        (do
          if kind ≠ .hiz then Act.writeLine "Mode selected"
          return .continue : Act Bench β τ Error Flow) :=
      Stays.ite (Stays.bind (.dialogue _) fun _ => .pure _) (.pure _)
    refine .bind (.modifyOwn (hTell.ends.mono fun r w'' hEnds => Or.inr ?_))
    obtain ⟨hEvents, hSame⟩ := hEnds
    refine ⟨kind, world, w, List.prefix_rfl, ?_, hEvents⟩
    rw [hRun, hSame]

theorem switchMode_ends (selection : List Char) (board : Board β) (world : World Bench β τ)
    (hSound : world.own.Sound) :
    Ends board (switchMode selection) world fun _ w =>
      w.own.mode = .hiz ∨ Entering board world w w.own.mode := by
  refine .bind ((Ends.of_obeys board (releaseMode_obeys hSound)).mono fun r w h => ?_)
  obtain ⟨hReleased, s, rfl, hRested, rfl⟩ := h
  refine .bind ((readLiteral_stays (s := .resting) _).ends.mono fun r w₁ h => ?_)
  obtain ⟨hRead, hOwn⟩ := h
  have hHiz : w₁.own.mode = .hiz := congrArg Bench.mode (hOwn.trans hRested)
  cases r with
  | error e => exact .inl hHiz
  | ok number? =>
    dsimp only
    cases ModeKind.ofNumber? (number?.getD 1) with
    | none =>
      have hUnknown : Stays custody (· = w₁.own) .resting
          (do
            Act.writeLine "Unknown mode"
            let flow ← pure Flow.continue
            showModeLed
            return flow : Act Bench β τ Error Flow) :=
        Stays.bind (.dialogue _) fun _ => Stays.bind (.pure _) fun flow => showModeLed_stays flow
      exact hUnknown.ends.mono fun r w₂ hEnds => .inl (hEnds.2 ▸ hHiz)
    | some kind =>
      refine .bind ((enterMode_ends kind board w₁).mono fun r w₂ h => ?_)
      have hWider : ∀ w₃ : World Bench β τ, w₃.own = w₂.own →
          exchanges w₂.events <+: exchanges w₃.events →
          w₃.own.mode = .hiz ∨ Entering board world w₃ w₃.own.mode := by
        intro w₃ hSame hLater
        rw [hSame]
        rcases h with hKept | ⟨kind, before, after, hBefore, hEnter, hAfter⟩
        · exact .inl (hKept.trans hHiz)
        · exact .inr ⟨kind, before, after, (hReleased.trans hRead).trans hBefore, hEnter,
            hAfter.trans hLater⟩
      cases r with
      | error e => exact hWider w₂ rfl List.prefix_rfl
      | ok flow =>
        refine (showModeLed_stays (s := .resting) flow).ends.mono fun r w₃ hEnds => ?_
        exact hWider w₃ hEnds.2 hEnds.1

theorem changeMode_conserves (args : List Char) :
    Conserves (changeMode args : Act Bench β τ Error Flow) := by
  refine Conserves.bind (.dialogue _) fun selection? => ?_
  cases selection? with
  | none => exact .pure _
  | some selection =>
    intro bench hSound
    exact (switchMode_obeys selection hSound).mono fun r bench' s' h => ⟨h.1, h.2.1⟩

/-! ## Pins, voltages and rails -/

omit [Terminal τ] in
theorem selectAux_conserves : Conserves (selectAux : Act Bench β τ Error Unit) := by
  intro bench hSound
  refine .bind ((dropSelect_obeys hSound).mono fun r bench' s' hDropped => ?_)
  obtain ⟨rfl, rfl, rfl⟩ := hDropped
  exact .modifyOwn ⟨⟨hSound.capabilities, fun h => Bool.false_ne_true h.2⟩, rfl⟩

omit [Terminal τ] in
/-- The prompt claims chip select only where neither it nor its mode holds it. -/
theorem selectCs_conserves : Conserves (selectCs : Act Bench β τ Error Unit) := by
  intro bench hSound
  refine .bind (.own ?_)
  dsimp only
  split
  · next hClaim =>
    rw [hSound.chipSelect_capability, Bool.and_eq_true_iff, Bool.not_eq_true', Bool.not_eq_true']
      at hClaim
    obtain ⟨hMode, hPrompt⟩ := hClaim
    have hHeld : bench.held = .settled bench.mode.bus? false := by
      rw [held, hMode, hPrompt]
      rfl
    have hAfter : held { bench with holdsSelect := true, userPin := .cs } =
        .settled bench.mode.bus? true := by
      rw [held, hMode]
      rfl
    have hSound' : Sound { bench with holdsSelect := true, userPin := .cs } :=
      ⟨hSound.capabilities, fun h => Bool.false_ne_true (hMode.symm.trans h.1)⟩
    have hAllows : Pin.cs ∉ [Pin.aux] := by decide
    rw [hHeld]
    refine .claim_bind rfl (by decide) hAllows rfl fun answer => ?_
    cases answer with
    | ok _ =>
      refine .bind (.ofExcept (.bind (.modifyOwn (.modifyOwn ⟨hSound', ?_⟩))))
      exact hAfter.symm
    | error reason => exact .throw ⟨hSound, hHeld.symm⟩
  · exact .modifyOwn ⟨⟨hSound.capabilities, hSound.once⟩, rfl⟩

theorem drivePin_conserves (high : Bool) (message : String) :
    Conserves (drivePin high message : Act Bench β τ Error Unit) := by
  refine .of_stays fun bench hSound => Stays.own_bind fun bench' hOwn => ?_
  subst hOwn
  refine Stays.bind (.ask (Custody.step_uses rfl bench'.drivenPin_held)) fun answer => ?_
  exact Stays.bind (.ofExcept _) fun _ => .dialogue _

theorem readPin_conserves : Conserves (readPin : Act Bench β τ Error Unit) := by
  refine .of_stays fun bench hSound => Stays.own_bind fun bench' hOwn => ?_
  subst hOwn
  refine Stays.bind (.ask (Custody.step_uses rfl bench'.drivenPin_held)) fun answer => ?_
  refine Stays.bind (.ofExcept _) fun _ => ?_
  refine Stays.bind (.ask (Custody.step_uses rfl bench'.drivenPin_held)) fun answer => ?_
  exact Stays.bind (.ofExcept _) fun level => .dialogue _

section Any

variable {P : Bench → Prop} {s : Custody}

omit [Terminal τ] in
theorem ask_free {request : Request} (hRole : request.role = .free) :
    Stays custody P s (Act.ask request : Act Bench β τ ε _) :=
  .ask (Custody.step_free hRole)

theorem showVoltage_stays : Stays custody P s (showVoltage : Act Bench β τ Error Unit) :=
  Stays.bind (ask_free rfl) fun _ => .dialogue _

theorem runVoltmeter_stays : Stays custody P s (runVoltmeter : Act Bench β τ Error Unit) := by
  have hRound : ∀ u, Stays custody P s (voltmeterRound u : Act Bench β τ Error (Unit ⊕ Unit)) := by
    intro u
    refine Stays.bind (.dialogue _) fun key => ?_
    cases key with
    | some key => exact .pure _
    | none =>
      refine showVoltage_stays.bind fun _ => ?_
      exact Stays.bind (.tell (Custody.step_free rfl)) fun _ => .pure _
  refine Stays.bind (.dialogue _) fun _ => ?_
  exact Stays.bind (.askUntil hRound ()) fun _ => .dialogue _

theorem showPins_stays : Stays custody P s (showPins : Act Bench β τ Error Unit) := by
  refine Stays.own_bind fun bench _ => ?_
  refine Stays.bind (.dialogue _) fun _ => Stays.bind (.dialogue _) fun _ => ?_
  refine Stays.bind (.dialogue _) fun _ => Stays.bind (.dialogue _) fun _ => ?_
  refine Stays.bind (.dialogue _) fun _ => Stays.bind (.forM _ fun probe => ?_) fun _ => .dialogue _
  exact Stays.bind (ask_free rfl) fun _ => .dialogue _

theorem setPower_stays (on : Bool) :
    Stays custody P s (setPower on : Act Bench β τ Error Unit) :=
  Stays.bind (.tell (Custody.step_free rfl)) fun _ => .dialogue _

theorem setPullups_stays (on : Bool) :
    Stays custody P s (setPullups on : Act Bench β τ Error Unit) := by
  refine Stays.own_bind fun bench _ => Stays.ite (.dialogue _) ?_
  refine Stays.bind (.tell (Custody.step_free rfl)) fun _ => Stays.ite ?_ (.dialogue _)
  refine Stays.bind (.dialogue _) fun _ => Stays.bind (ask_free rfl) fun volts => ?_
  exact Stays.ite (.dialogue _) (.pure _)

theorem convert_stays (text : List Char) (change : Nat → Nat) :
    Stays custody P s (convert text change : Act Bench β τ Error Unit) := by
  refine (readLiteral_stays text).bind fun number? => ?_
  cases number? with
  | none => exact .dialogue _
  | some n => exact .dialogue _

end Any

/-! ## Sequences, macros and resets -/

theorem runSequence_conserves (line : List Char) :
    Conserves (runSequence line : Act Bench β τ Error Unit) := by
  unfold runSequence
  split
  · exact .throw _
  · exact .pure _
  · next actions _ _ =>
    refine .of_stays fun bench hSound => Stays.own_bind fun bench' hOwn => ?_
    subst hOwn
    exact Mode.run_stays rfl rfl (fun h => select_held (Or.inl h)) actions

theorem runShortcutLine_conserves (line : List Char) :
    Conserves (runShortcutLine line : Act Bench β τ Error Unit) := by
  refine Conserves.bind (.of_stays fun _ _ => readLiteral_stays _) fun number? => ?_
  dsimp only
  cases number?.filter (· ≤ 0xFF) with
  | none => exact .dialogue _
  | some key =>
    intro bench hSound
    refine .bind (.own ?_)
    refine .bind ((Mode.runShortcut_obeys (P := (· = bench)) rfl rfl _ rfl).mono
      fun r bench' s' hRun => ?_)
    obtain ⟨⟨rfl, rfl⟩, hMode⟩ := hRun
    rcases r with e | ⟨result, mode⟩
    · exact ⟨hSound, rfl⟩
    · obtain ⟨hKind, hBus⟩ := hMode result mode rfl
      have hSelect : mode.holdsSelect = bench'.mode.holdsSelect := by
        rw [Mode.holdsSelect_eq_kind, hKind, Mode.holdsSelect_eq_kind]
      have hSound' : Sound { bench' with mode } := by
        refine ⟨?_, ?_⟩
        · rw [hSound.capabilities, hKind]
        · rw [hSelect]
          exact hSound.once
      have hHeld : bench'.held = held { bench' with mode } := by
        rw [held, held, hBus, hSelect]
      exact .bind (.modifyOwn (.ofExcept ⟨hSound', hHeld⟩))

theorem askReset_conserves : Conserves (askReset : Act Bench β τ Error Flow) := by
  refine Conserves.bind (.dialogue _) fun answer => ?_
  cases answer with
  | modeSwitch => exact .pure _
  | text answer =>
    dsimp only
    split
    · refine Conserves.bind (fun bench hSound => ?_) fun _ => .pure _
      refine (softReset_obeys hSound).mono fun r bench' s' hReset => ?_
      obtain ⟨rfl, rfl⟩ := hReset
      exact ⟨⟨rfl, fun h => Bool.false_ne_true h.2⟩, rfl⟩
    · exact .pure _

theorem runCommand_conserves (line : List Char) :
    Conserves (runCommand line : Act Bench β τ Error Flow) := by
  have hContinue : ∀ {command : Act Bench β τ Error Unit}, Conserves command →
      Conserves (andContinue command) := fun h => h.bind fun _ => .pure _
  have hStays : ∀ {command : Act Bench β τ Error Unit},
      (∀ P s, Stays custody P s command) → Conserves (andContinue command) :=
    fun h => hContinue (.of_stays fun _ _ => h _ _)
  unfold runCommand
  split
  · exact .pure _
  · dsimp only
    split
    case h_1 | h_3 => exact hStays fun _ _ => .dialogue _
    case h_2 => exact hStays fun _ _ => showVersion_stays
    case h_4 | h_5 => exact hStays fun _ _ => convert_stays _ _
    case h_6 => exact hContinue selectAux_conserves
    case h_7 => exact hContinue selectCs_conserves
    case h_8 | h_9 => exact hContinue (drivePin_conserves _ _)
    case h_10 => exact hContinue readPin_conserves
    case h_11 => exact hStays fun _ _ => showVoltage_stays
    case h_12 => exact hStays fun _ _ => runVoltmeter_stays
    case h_13 => exact changeMode_conserves _
    case h_14 | h_15 => exact hStays fun _ _ => setPower_stays _
    case h_16 => exact hStays fun _ _ => showPins_stays
    case h_17 | h_18 => exact hStays fun _ _ => setPullups_stays _
    case h_19 => exact hContinue (runShortcutLine_conserves _)
    case h_20 | h_21 => exact askReset_conserves
    case h_22 => exact hContinue (runSequence_conserves _)

end BusBench.Bench
