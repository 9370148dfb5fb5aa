import BusBench.Board.Recording
import BusBench.Proofs.Resources.Accounts
import BusBench.Proofs.Resources.Commands
import BusBench.Proofs.Resources.Engines
import BusBench.Prompt.Serve
import BusBench.Terminal.Script

/-!
# Ownership over whole runs

A run begins with the start of the prompt and goes on with lines that are typed and links that are
served, whatever each of them comes to. Whenever the prompt is back, just what belongs to its mode
is open on the board.

* `Bench.runBinary_conserves`, `Bench.Prompting.serve`: binary sessions, and serving a link.
* `AtPrompt`: the states in which the prompt can be between commands.
* `ownership`: what is open there, and how a change of the mode ends.
-/

namespace BusBench

open Act (Ends Obeys Stays Succeeds)

variable {β : Type}

namespace Bench

/-! ## Starting and serving -/

theorem start_obeys {ω τ : Type} (x : ω) :
    Obeys custody (start : Act ω β τ Error Bench) x {} fun r _ s' =>
      ∀ bench, r = .ok bench → bench = {} ∧ s' = bench.held := by
  have hAllows : Pin.aux ∉ ([] : List Pin) := List.not_mem_nil
  refine .claim_bind rfl (by decide) hAllows rfl fun answer => ?_
  cases answer with
  | ok _ =>
    refine .bind (.ofExcept (.bind (.tell_free rfl (.bind (.tell_free rfl (.bind
      (.tell_free rfl (.pure ?_))))))))
    rintro bench ⟨⟩
    exact ⟨rfl, rfl⟩
  | error reason => exact .throw fun bench h => by cases h

theorem runBinary_conserves : Conserves (runBinary : Act Bench β Console Error Unit) := by
  intro bench hSound
  refine releaseMode_bind hSound (.bind (.tell_free rfl ?_))
  have hRested : bench.rested.Sound ∧ .resting = bench.rested.held := ⟨bench.sound_rested, rfl⟩
  have hAllows : Pin.cs ∉ [Pin.aux] := by decide
  refine .claim_bind rfl (by decide) hAllows rfl fun answer => ?_
  cases answer with
  | ok _ =>
    have hBinary : Stays custody (· = bench.rested) (.settled none true)
        (Binary.run : Binary.Talk Bench β Unit) :=
      Binary.run_stays rfl rfl (by decide) (by decide)
    have hServe : Succeeds custody (· = bench.rested) (.settled none true)
        (onBareLink Binary.run : Act Bench β Console Error (Except LinkError Unit)) := by
      intro bench' hOwn
      let forget (console : Console) : Console := { console with detector := {} }
      exact .bind (.modifyPeer forget (Succeeds.attempt hBinary.onPart bench' hOwn))
    have hHolds : (Custody.settled none true).Holds (.pin .cs) := List.mem_cons_self
    refine .bind (.ofExcept (hServe.obeys_bind rfl fun result bench' hOwn => ?_))
    subst hOwn
    refine .release_bind rfl hHolds rfl ?_
    cases result with
    | error e => exact .throw hRested
    | ok _ =>
      refine (softReset_obeys bench.sound_rested).mono fun r bench' s' hReset => ?_
      obtain ⟨rfl, rfl⟩ := hReset
      exact ⟨⟨rfl, fun h => Bool.false_ne_true h.2⟩, rfl⟩
  | error reason => exact .throw hRested

/-! ## Runs -/

/-- The states in which the prompt can be between commands, with all that was exchanged with the
board so far: after its start, and then after any lines on any terminals and any binary sessions,
whatever they came to. -/
inductive AtPrompt (board : Board β) : Bench → β → List Exchange → Prop
  | start {ω τ : Type} {before after : World ω β τ} {bench : Bench} (hFresh : before.events = [])
    (hRun : ((start : Act ω β τ Error Bench) board).run before = (.ok bench, after)) :
    AtPrompt board bench after.board (exchanges after.events)
  | command {τ : Type} [Terminal τ] (line : List Char) {before after : World Bench β τ}
    (h : AtPrompt board before.own before.board (exchanges before.events))
    (hRun : (runCommand line).after board before = after) :
    AtPrompt board after.own after.board (exchanges after.events)
  | binary {before after : World Bench β Console}
    (h : AtPrompt board before.own before.board (exchanges before.events))
    (hRun : runBinary.after board before = after) :
    AtPrompt board after.own after.board (exchanges after.events)

/-- A world whose prompt is between commands. -/
abbrev Prompting {τ : Type} (board : Board β) (world : World Bench β τ) : Prop :=
  AtPrompt board world.own world.board (exchanges world.events)

/-- Serving a link is nothing but lines and binary sessions. -/
theorem Prompting.serve {board : Board β} {world : World Bench β Console}
    (h : Prompting board world) : Prompting board (Bench.serve.after board world) := by
  have hBinary : ∀ w : World Bench β Console, Prompting board w →
      Ends board runBinary w fun _ w' => Prompting board w' := fun w h => AtPrompt.binary h rfl
  -- An error of a command is shown or ends the loop, but the prompt is back in either case.
  have hAnswer : ∀ line (w : World Bench β Console), Prompting board w →
      Ends board (answerLine line) w fun _ w' => Prompting board w' := by
    intro line w h
    cases line with
    | modeSwitch => exact h
    | text line =>
      have hCommand : Ends board (runCommand line) w fun _ w' => Prompting board w' :=
        AtPrompt.command line h rfl
      refine .bind (.attempt (hCommand.mono fun r w' h' => ?_))
      rcases r with e | flow
      · cases e with
        | link => exact h'
        | splitCharacter => exact h'
        | _ => exact h'
      · exact h'
  have hRound : ∀ (u : Unit) (w : World Bench β Console), Prompting board w →
      Ends board (serveRound u) w fun _ w' => Prompting board w' := by
    intro u w h
    refine .bind (.own (.bind (.dialogue fun r w₁ hOwn hBoard hEvents => ?_)))
    have h₁ : Prompting board w₁ := by
      rw [Prompting, hOwn, hBoard, hEvents]
      exact h
    cases r with
    | error e => exact h₁
    | ok line =>
      refine .bind ((hAnswer line w₁ h₁).mono fun r w₂ h₂ => ?_)
      rcases r with e | flow
      · exact h₂
      · cases flow with
        | «continue» => exact h₂
        | reset => exact h₂
        | binary =>
          refine .bind ((hBinary w₂ h₂).mono fun r w₃ h₃ => ?_)
          cases r with
          | error e => exact h₃
          | ok _ => exact h₃
  have hServe : Ends board (rounds (throw .link) serveRound (Terminal.remaining world.peer + 1) ())
      world fun _ w => Prompting board w := by
    refine .rounds (I := Prompting board) (fun w h => .throw h) (fun u w h => ?_) _ _ h
    refine (hRound u w h).mono fun r w' h' => ?_
    rcases r with e | u | u
    · exact h'
    · exact h'
    · exact h'
  exact hServe

/-- What one program keeps, over what was exchanged before. -/
theorem Conserves.after {τ ε α : Type} {program : Act Bench β τ ε α} (h : Conserves program)
    (board : Board β) {world : World Bench β τ} (hSound : world.own.Sound)
    (hRun : custody.run (exchanges world.events) {} = some world.own.held) :
    (program.after board world).own.Sound ∧
      custody.run (exchanges (program.after board world).events) {} =
        some (program.after board world).own.held := by
  obtain ⟨trace, s, hTrace, -, hTraceRun, hSound', rfl⟩ := h world.own hSound board world rfl
  refine ⟨hSound', ?_⟩
  rw [hTrace, Monitor.run_append, hRun]
  exact hTraceRun

theorem AtPrompt.in_custody {board : Board β} {bench : Bench} {s : β} {trace : List Exchange}
    (h : AtPrompt board bench s trace) :
    bench.Sound ∧ custody.run trace {} = some bench.held := by
  induction h with
  | @start ω τ before after bench hFresh hRun =>
    obtain ⟨trace, s', hTrace, -, hTraceRun, hStarted⟩ :=
      start_obeys (τ := τ) before.own board before rfl
    unfold Act.after at hTrace
    rw [hRun] at hTrace hStarted
    obtain ⟨rfl, rfl⟩ := hStarted bench rfl
    refine ⟨sound_initial, ?_⟩
    rw [hTrace, hFresh]
    exact hTraceRun
  | command line h hRun ih =>
    subst hRun
    exact (runCommand_conserves line).after board ih.1 ih.2
  | binary h hRun ih =>
    subst hRun
    exact runBinary_conserves.after board ih.1 ih.2

/-- Chip select where the mode is SPI or the prompt has picked it, AUX, and the bus of the mode. -/
def resources (bench : Bench) : List Resource :=
  (if bench.mode.kind = .spi ∨ bench.holdsSelect = true then [.pin .cs] else []) ++
    [.pin .aux] ++ bench.mode.bus?.toList.map .bus

theorem mem_resources_iff {bench : Bench} {resource : Resource} :
    resource ∈ bench.resources ↔ bench.held.Holds resource := by
  obtain ⟨mode, capabilities, select, userPin⟩ := bench
  cases mode <;> cases select <;> cases resource <;>
    simp [resources, held, Custody.settled, Custody.Holds, Mode.bus?, Mode.kind, Mode.holdsSelect,
      eq_comm]

theorem AtPrompt.mem_open_iff {board : Board β} {bench : Bench} {s : β} {trace : List Exchange}
    (h : AtPrompt board bench s trace) {resource : Resource} :
    resource ∈ openResources trace ↔ resource ∈ bench.resources := by
  rw [mem_resources_iff]
  exact (Custody.describes_nil.run h.in_custody.2).mem_iff resource

/-- How a command that changes the mode ends. -/
inductive ModeChange {τ : Type} [Terminal τ] (board : Board β) (before : World Bench β τ)
    (result : Except Error Flow) (after : World Bench β τ) : Prop
  /-- No number was given, and the mode is what it was. -/
  | unasked (hOwn : after.own = before.own)
    (hTrace : exchanges after.events = exchanges before.events)
  /-- The prompt is in HiZ and nothing but AUX is open. -/
  | failed (hMode : after.own.mode = .hiz) (hSelect : after.own.holdsSelect = false)
    (hOpen : ∀ resource,
      resource ∈ openResources (exchanges after.events) ↔ resource = .pin .aux)
  /-- The mode was entered. If the command fails all the same, the user could not be told. -/
  | entered (hEntering : Entering board before after after.own.mode)
    (hResult : result = .ok .continue ∨ ∃ e, result = .error e ∧ Unconfirmed τ e)

theorem changeMode_ends {τ : Type} [Terminal τ] {board : Board β} (world : World Bench β τ)
    (h : Prompting board world) (args : List Char) :
    Ends board (runCommand ('m' :: args)) world (ModeChange board world) := by
  have hPrompting : Ends board (runCommand ('m' :: args)) world fun _ w => Prompting board w :=
    AtPrompt.command _ h rfl
  have hChange : Ends board (changeMode (Text.trim args)) world fun r w =>
      (w.own = world.own ∧ exchanges w.events = exchanges world.events) ∨
        w.own.holdsSelect = false ∧ (w.own.mode = .hiz ∨ Entering board world w w.own.mode ∧
          (r = .ok .continue ∨ ∃ e, r = .error e ∧ Unconfirmed τ e)) := by
    refine .bind (.dialogue fun r w hOwn hBoard hEvents => ?_)
    rcases r with e | - | selection
    · exact .inl ⟨hOwn, hEvents⟩
    · exact .inl ⟨hOwn, hEvents⟩
    · have hSound : w.own.Sound := hOwn ▸ h.in_custody.1
      have hSwitched := Ends.of_obeys board (switchMode_obeys (τ := τ) selection hSound)
      refine (hSwitched.and (switchMode_ends selection board w hSound)).mono fun r w' hBoth => ?_
      obtain ⟨⟨-, s', -, -, hSelect, hResult⟩, hMode⟩ := hBoth
      refine .inr ⟨hSelect, ?_⟩
      rcases hMode with hHiz | ⟨kind, before, after, hBefore, hEnter, hAfter⟩
      · exact .inl hHiz
      · rcases hResult with hHiz | hResult
        · exact .inl hHiz
        · exact .inr ⟨⟨kind, before, after, hEvents ▸ hBefore, hEnter, hAfter⟩, hResult⟩
  refine (hPrompting.and hChange).mono fun r w hBoth => ?_
  obtain ⟨hPrompting, ⟨hOwn, hTrace⟩ | ⟨hSelect, hMode | ⟨hEntering, hResult⟩⟩⟩ := hBoth
  · exact .unasked hOwn hTrace
  · refine .failed hMode hSelect fun resource => ?_
    rw [hPrompting.mem_open_iff, resources, hMode, hSelect]
    simp [Mode.kind, Mode.bus?]
  · exact .entered hEntering hResult

/-- At every moment of a run what is open was opened once, one bus at most is open, no pin is taken
up twice and nothing is closed that is not open. Whenever the prompt is back, what is open is AUX,
the bus of the mode, and chip select where either the mode is SPI or the prompt holds it; the
capabilities are those of the mode; and a change of the mode that fails leaves HiZ with nothing but
AUX open, unless all that fails is to tell the user of the mode that was entered. -/
theorem ownership {board : Board β} {bench : Bench} {s : β} {trace : List Exchange}
    (h : AtPrompt board bench s trace) :
    Accounted trace ∧
      (∀ resource, resource ∈ openResources trace ↔ resource ∈ bench.resources) ∧
      ¬ (bench.mode.kind = .spi ∧ bench.holdsSelect = true) ∧
      bench.capabilities = bench.mode.kind.capabilities ∧
      ∀ {τ : Type} [Terminal τ] (peer : τ) (events : List Event) (args : List Char),
        exchanges events = trace →
        Ends board (runCommand ('m' :: args)) ⟨bench, s, peer, events⟩
          (ModeChange board ⟨bench, s, peer, events⟩) := by
  obtain ⟨hSound, hRun⟩ := h.in_custody
  refine ⟨Custody.accounted_of_run hRun, fun _ => h.mem_open_iff, ?_, hSound.capabilities, ?_⟩
  · rintro ⟨hKind, hSelect⟩
    refine hSound.once ⟨?_, hSelect⟩
    rw [Mode.holdsSelect_eq_kind, hKind]
    rfl
  · rintro τ _ peer events args rfl
    exact changeMode_ends ⟨bench, s, peer, events⟩ h args

/-- A recording board to which nothing has happened yet. -/
def fresh (settings : Recording.Settings) : World Unit Recording.State Script :=
  ⟨(), { settings }, {}, []⟩

/-- A recording board, and what the start of the prompt came to on it. -/
def started (settings : Recording.Settings) :
    Except Error Bench × World Unit Recording.State Script :=
  ((start : Act Unit _ _ Error Bench) (Recording.board "fake" {})).run (fresh settings)

/-- The prompt on a recording board after its start, with a terminal. -/
def recorded (settings : Recording.Settings) (terminal : Script) :
    World Bench Recording.State Script :=
  ⟨{}, (started settings).2.board, terminal, (started settings).2.events⟩

theorem prompting_recorded {s : Recording.Settings} (terminal : Script)
    (h : (started s).1 = .ok {}) :
    Prompting (Recording.board "fake" {}) (recorded s terminal) := by
  have hFresh : (fresh s).events = [] := rfl
  have hRun : started s = (.ok {}, (started s).2) := Prod.ext h rfl
  have hStart := AtPrompt.start hFresh hRun
  exact hStart

/-- Where there is no controller the SPI mode holds the bit-banged bus. -/
theorem ownership_spi :
    let world := (runCommand "m 5".toList).after (Recording.board "fake" {})
      (recorded { unavailable := [("spi", .noHardware)] } { lines := List.replicate 4 (.text []) })
    world.own.resources = [.pin .cs, .pin .aux, .bus (.spi .bitBanged)] ∧
      .pin .cs ∈ openResources (exchanges world.events) := by
  intro world
  have hStart := prompting_recorded (s := { unavailable := [("spi", .noHardware)] })
    { lines := List.replicate 4 (.text []) } rfl
  have hResources : world.own.resources = [.pin .cs, .pin .aux, .bus (.spi .bitBanged)] := by
    decide +kernel
  obtain ⟨-, hOpen, -⟩ := ownership (AtPrompt.command "m 5".toList hStart rfl)
  refine ⟨hResources, (hOpen _).mpr ?_⟩
  change _ ∈ world.own.resources
  rw [hResources]
  exact List.mem_cons_self

/-- A terminal that takes no text does not keep the prompt from entering a mode that asks nothing:
the command fails, and the mode is in place with its bus. -/
theorem unconfirmed_mode_stays :
    let board := Recording.board "fake" {}
    let before := recorded {} { room := some 0 }
    let after := (runCommand "m 2".toList).after board before
    Prompting board before ∧
      (((runCommand "m 2".toList : Act Bench _ Script Error Flow) board).run before).1 =
        .error .link ∧
      after.own.mode.kind = .oneWire ∧ .bus .oneWire ∈ openResources (exchanges after.events) := by
  intro board before after
  refine ⟨prompting_recorded _ rfl, ?_, ?_, ?_⟩
  · rfl
  · decide +kernel
  · decide +kernel

end Bench

end BusBench
