import BusBench.Proofs.Binary.Leaving
import BusBench.Proofs.Prompt.Commands
import BusBench.Proofs.Serve.Handover

/-!
# What was done at the prompt

Which mode the prompt is in and what it holds, which pin it drives and what its LED shows follows
from what was done so far: which pins were picked, which modes were entered, whether a reset was
confirmed, and how binary sessions ended. Nothing else has a say in it.

* `Deed`: what a line or a binary session did.
* `Bench.commandDeed`, `Bench.sessionDeed`: the deeds, as their results tell.
* `Bench.commandDeed_stands`, `Bench.sessionDeed_stands`: a deed does what it says.
* `Bench.History`: the states in which the prompt can be, with the deeds that led there.
* `Bench.History.standing`: the deeds decide how the prompt stands.
-/

namespace BusBench

open Act (Ends Obeys Stays)

variable {β τ ε α : Type}

/-- What a line or a binary session did. -/
inductive Deed where
  | pickAux
  /-- Chip select was picked, in this mode. -/
  | pickSelect (mode : ModeKind)
  /-- A mode was left and the number of another was given; in the end the prompt was in this mode. -/
  | changeMode (mode : ModeKind) (failed : Bool)
  | reset
  /-- The binary protocol was served, or refused; the host may have left it. -/
  | session (left : Bool)
  | other
  deriving DecidableEq, Repr

/-- How the prompt stands after a deed. -/
def Deed.apply : Deed → Standing → Standing
  | pickAux, s => { s with holdsSelect := false, userPin := .aux }
  | pickSelect mode, s => { s with holdsSelect := s.holdsSelect || mode ≠ .spi, userPin := .cs }
  | changeMode mode failed, s =>
    { s with mode, holdsSelect := false, level := if failed then s.level else some (mode ≠ .hiz) }
  | reset, _ => .initial
  | session left, s => { Standing.initial with userPin := if left then .aux else s.userPin }
  | other, s => s

namespace Bench

/-- How the prompt of a world stands. -/
abbrev stands (world : World Bench β τ) : Standing :=
  world.own.standing (ledLevel? (exchanges world.events))

/-! ## Lines -/

section Lines

variable [Terminal τ]

/-- Whether a reset was confirmed. -/
def confirms (peer : τ) : Bool :=
  match ((Terminal.readLine "Are you sure? " : Dialogue τ Error Line).run ⟨peer, []⟩).1 with
  | .ok (.text answer) => Text.trim answer = ['y']
  | _ => false

/-- Whether the number of a mode was given. -/
def selects (args : List Char) (peer : τ) : Bool :=
  match ((askMode args).run ⟨peer, []⟩).1 with
  | .ok (some _) => true
  | _ => false

/-- What a line does in a world. -/
def commandDeed (board : Board β) (line : List Char) (before : World Bench β τ) : Deed :=
  let result := ((runCommand line board).run before).1
  match line with
  | [] => .other
  | command :: rest =>
    match command with
    | 'c' => if result.isOk then .pickAux else .other
    | 'C' => if result.isOk then .pickSelect before.own.mode.kind else .other
    | 'm' =>
      if selects (Text.trim rest) before.peer then
        .changeMode ((runCommand line).after board before).own.mode.kind (!result.isOk)
      else .other
    | '#' | '$' => if confirms before.peer then .reset else .other
    | _ => .other

omit [Terminal τ] in
theorem asked (board : Board β) (talk : Dialogue τ ε α) (world : World Bench β τ) :
    Ends board (Act.dialogue talk) world fun r w =>
      r = (talk.run ⟨world.peer, []⟩).1 ∧ w.own = world.own ∧ stands w = stands world := by
  refine ⟨rfl, rfl, ?_⟩
  exact congrArg (fun trace => world.own.standing (ledLevel? trace)) (exchanges_peer_append _ _)

omit [Terminal τ] in
theorem continued {board : Board β} {program : Act Bench β τ Error Unit}
    {before : World Bench β τ} {post : Except Error Flow → World Bench β τ → Prop}
    (h : Ends board program before fun r w => post (r.map fun _ => .continue) w) :
    Ends board (andContinue program) before post := by
  refine .bind (h.mono fun r w hPost => ?_)
  cases r with
  | ok _ => exact hPost
  | error e => exact hPost

section Changes

variable (board : Board β) (rest : List Char) (before : World Bench β τ)

theorem selectAux_stands : Ends board (runCommand ('c' :: rest)) before fun r w =>
    stands w = (if r.isOk then Deed.pickAux else .other).apply (stands before) := by
  change Ends board (andContinue selectAux) before _
  refine continued ((Ends.of_lamp board selectAux_lamp).mono fun r w h => ?_)
  obtain ⟨rfl, hOwn, hLevel⟩ := h
  rw [stands, hOwn, hLevel]
  rfl

theorem selectCs_stands (hSound : before.own.Sound) :
    Ends board (runCommand ('C' :: rest)) before fun r w => stands w =
      (if r.isOk then Deed.pickSelect before.own.mode.kind else .other).apply (stands before) := by
  change Ends board (andContinue selectCs) before _
  refine continued ((Ends.of_lamp board selectCs_lamp).mono fun r w h => ?_)
  obtain ⟨hLevel, hOwn⟩ := h
  rw [hSound.chipSelect_capability, Mode.holdsSelect_eq_kind, ← decide_not] at hOwn
  rw [stands, hOwn, hLevel]
  cases r with
  | ok _ => rfl
  | error e => rfl

theorem changeMode_stands : Ends board (runCommand ('m' :: rest)) before fun r w => stands w =
    (if selects (Text.trim rest) before.peer then Deed.changeMode w.own.mode.kind (!r.isOk)
      else .other).apply (stands before) := by
  refine .bind ((asked board (askMode (Text.trim rest)) before).mono fun r w h => ?_)
  obtain ⟨hAnswer, hOwn, hStands⟩ := h
  unfold selects
  rw [← hAnswer, ← hStands]
  rcases r with e | - | selection
  · rfl
  · rfl
  · refine (Ends.of_lamp board (switchMode_lamp selection)).mono fun r w' h => ?_
    obtain ⟨⟨hSelect, hPin⟩, hLevel⟩ := h
    rw [stands, standing, hSelect, hPin, hLevel]
    cases r with
    | ok flow => rfl
    | error e => rfl

theorem askReset_stands {command : Char} (hCommand : command = '#' ∨ command = '$') :
    Ends board (runCommand (command :: rest)) before fun _ w =>
      stands w = (if confirms before.peer then Deed.reset else .other).apply (stands before) := by
  have hAsk : Ends board (askReset : Act Bench β τ Error Flow) before fun _ w =>
      stands w = (if confirms before.peer then Deed.reset else .other).apply (stands before) := by
    refine .bind ((asked board (Terminal.readLine "Are you sure? ") before).mono fun r w h => ?_)
    obtain ⟨hAnswer, hOwn, hStands⟩ := h
    unfold confirms
    rw [← hAnswer, ← hStands]
    rcases r with e | answer | -
    · rfl
    · dsimp only
      split
      · next hYes =>
        rw [if_pos (decide_eq_true hYes)]
        refine .bind ((Ends.of_lamp board softReset_lamp).mono fun r w' hStands => ?_)
        cases r with
        | ok _ => exact hStands
        | error e => exact hStands
      · next hNo =>
        rw [if_neg (Bool.not_eq_true _ ▸ decide_eq_false hNo)]
        exact .pure rfl
    · rfl
  rcases hCommand with rfl | rfl
  · exact hAsk
  · exact hAsk

end Changes

/-- A line does to the prompt what its deed says. -/
theorem commandDeed_stands (board : Board β) (line : List Char) (before : World Bench β τ)
    (hSound : before.own.Sound) :
    stands ((runCommand line).after board before) =
      (commandDeed board line before).apply (stands before) := by
  rcases line with - | ⟨command, rest⟩
  · rfl
  by_cases hCommand : command ∈ ['c', 'C', 'm', '#', '$']
  · simp only [List.mem_cons, List.not_mem_nil, or_false] at hCommand
    rcases hCommand with rfl | rfl | rfl | rfl | rfl
    · exact selectAux_stands board rest before
    · exact selectCs_stands board rest before hSound
    · exact changeMode_stands board rest before
    · exact askReset_stands board rest before (.inl rfl)
    · exact askReset_stands board rest before (.inr rfl)
  · have hOther : commandDeed board (command :: rest) before = .other := by
      simp only [List.mem_cons, List.not_mem_nil, or_false, not_or] at hCommand
      obtain ⟨hAux, hSelect, hMode, hReset, hReset'⟩ := hCommand
      unfold commandDeed
      dsimp only
      split <;> first | rfl | contradiction
    rw [hOther]
    have hKept := Ends.of_lamp board
      (runCommand_dark rest (stands before) hCommand before.own rfl)
    obtain ⟨hStanding, hLevel⟩ := hKept
    rw [stands, hLevel]
    exact hStanding

end Lines

/-! ## Binary sessions -/

/-- Hands the link over to the binary protocol, if chip select is granted; answers how the protocol
ended. -/
def handOver : Act Bench β Console Error (Except LinkError Unit) := do
  releaseMode
  Act.tell (.modeLed false)
  Act.claimed (← Act.ask (.pin .cs .claim))
  onBareLink Binary.run

theorem runBinary_eq : (runBinary : Act Bench β Console Error Unit) = handOver >>= leaveRoot := by
  simp only [runBinary, handOver, bind_assoc]
  rfl

/-- What a binary session does in a world. -/
def sessionDeed (board : Board β) (before : World Bench β Console) : Deed :=
  match ((handOver board).run before).1 with
  | .ok (.ok _) => .session true
  | _ => .session false

/-- Where the host left the protocol it did so by its byte, which was acknowledged. -/
theorem sessionDeed_left {board : Board β} {before : World Bench β Console}
    (h : sessionDeed board before = .session true) :
    Binary.Leaving (handOver.after board before).events := by
  have hBare : ∀ w : World Bench β Console,
      Ends board (onBareLink Binary.run : Act Bench β Console Error (Except LinkError Unit)) w
        fun r w' => r = .ok (.ok ()) → Binary.Leaving w'.events :=
    fun w hOk => Binary.run_leaving board ⟨w.own, w.board, w.peer.link, w.events⟩ (Except.ok.inj hOk)
  have hGo : ∀ {α : Type} (program : Act Bench β Console Error α)
      {next : α → Act Bench β Console Error (Except LinkError Unit)} (w : World Bench β Console),
      (∀ a w', Ends board (next a) w' fun r w'' => r = .ok (.ok ()) → Binary.Leaving w''.events) →
      Ends board (program >>= next) w fun r w'' => r = .ok (.ok ()) →
        Binary.Leaving w''.events := by
    intro α program next w hNext
    have hAny : Ends board program w fun _ _ => True := trivial
    refine .bind (hAny.mono fun r w' _ => ?_)
    cases r with
    | ok a => exact hNext a w'
    | error e => exact fun hOk => by cases hOk
  have hWhole : Ends board handOver before fun r w => r = .ok (.ok ()) → Binary.Leaving w.events :=
    hGo _ _ fun _ w₁ => hGo _ _ fun _ w₂ => hGo _ _ fun _ w₃ => hGo _ _ fun _ w₄ => hBare w₄
  refine hWhole ?_
  unfold sessionDeed at h
  split at h
  · next hOk => exact hOk
  · cases h

/-- A binary session does to the prompt what its deed says. -/
theorem sessionDeed_stands (board : Board β) (before : World Bench β Console) :
    stands (runBinary.after board before) =
      (sessionDeed board before).apply (stands before) := by
  have hHanded : Obeys lamp (handOver : Act Bench β Console Error (Except LinkError Unit))
      before.own (ledLevel? (exchanges before.events)) fun _ bench s =>
        bench = before.own.rested ∧ s = some false := by
    refine .bind (releaseMode_lamp.mono fun r bench s hReleased => ?_)
    obtain ⟨rfl, rfl, rfl⟩ := hReleased
    have hBinary : Stays lamp (· = before.own.rested) (some false)
        (Binary.run : Binary.Talk Bench β Unit) := Binary.run_dark
    have hRest : Stays lamp (· = before.own.rested) (some false)
        (do
          Act.claimed (← Act.ask (.pin .cs .claim))
          onBareLink Binary.run : Act Bench β Console Error (Except LinkError Unit)) := by
      let forget (console : Console) : Console := { console with detector := {} }
      refine (Stays.ask fun _ => rfl).bind fun _ => (Stays.ofExcept _).bind fun _ => ?_
      exact fun bench hOwn => .bind (.modifyPeer forget (hBinary.onPart.attempt bench hOwn))
    exact .bind (.tell fun _ => ⟨some false, rfl, hRest _ rfl⟩)
  have hWhole : Ends board (handOver >>= leaveRoot) before fun _ after =>
      stands after = (sessionDeed board before).apply (stands before) := by
    refine .bind ((Ends.of_lamp board hHanded).with_run.mono fun r w h => ?_)
    obtain ⟨hRun, hOwn, hLevel⟩ := h
    unfold sessionDeed
    rw [hRun]
    have hRested : stands w = (Deed.session false).apply (stands before) := by
      rw [stands, hOwn, hLevel]
      rfl
    rcases r with e | e | _
    · exact hRested
    · have hFailed : Obeys lamp (leaveRoot (.error e) : Act Bench β Console Error Unit) w.own
          (ledLevel? (exchanges w.events)) fun _ bench s =>
            bench = w.own ∧ s = ledLevel? (exchanges w.events) :=
        .bind (.tell fun _ => ⟨_, rfl, .throw ⟨rfl, rfl⟩⟩)
      refine (Ends.of_lamp board hFailed).mono fun r after h => ?_
      rw [stands, h.1, h.2]
      exact hRested
    · have hLeft : Obeys lamp (leaveRoot (.ok ()) : Act Bench β Console Error Unit) w.own
          (ledLevel? (exchanges w.events)) fun _ bench s => bench.standing s = .initial :=
        .bind (.tell fun _ => ⟨_, rfl, softReset_lamp⟩)
      exact Ends.of_lamp board hLeft
  rw [← runBinary_eq] at hWhole
  exact hWhole

/-! ## Histories -/

/-- The states in which the prompt can be between commands, with what was exchanged so far and the
deeds that led there, the newest first. -/
inductive History (board : Board β) : List Deed → Bench → β → List Exchange → Prop
  | start {ω τ : Type} {before after : World ω β τ} {bench : Bench} (hFresh : before.events = [])
    (hRun : ((Bench.start : Act ω β τ Error Bench) board).run before = (.ok bench, after)) :
    History board [] bench after.board (exchanges after.events)
  | command {τ : Type} [Terminal τ] (line : List Char) {deeds : List Deed}
    {before after : World Bench β τ}
    (h : History board deeds before.own before.board (exchanges before.events))
    (hRun : (runCommand line).after board before = after) :
    History board (commandDeed board line before :: deeds) after.own after.board
      (exchanges after.events)
  | session {deeds : List Deed} {before after : World Bench β Console}
    (h : History board deeds before.own before.board (exchanges before.events))
    (hRun : runBinary.after board before = after) :
    History board (sessionDeed board before :: deeds) after.own after.board
      (exchanges after.events)

namespace History

variable {board : Board β} {deeds : List Deed} {bench : Bench} {state : β} {trace : List Exchange}

theorem atPrompt (h : History board deeds bench state trace) :
    AtPrompt board bench state trace := by
  induction h with
  | start hFresh hRun => exact .start hFresh hRun
  | command line h hRun ih => exact .command line ih hRun
  | session h hRun ih => exact .binary ih hRun

/-- The deeds decide how the prompt stands. -/
theorem standing (h : History board deeds bench state trace) :
    bench.standing (ledLevel? trace) = deeds.foldr Deed.apply .initial := by
  induction h with
  | @start ω τ before after bench hFresh hRun =>
    have hStart : Obeys lamp (Bench.start : Act ω β τ Error Bench) before.own none fun r _ s =>
        ∀ bench, r = .ok bench → bench.standing s = .initial := by
      refine .bind (.ask fun answer => ⟨none, rfl, ?_⟩)
      cases answer with
      | error reason => exact .throw fun bench h => by cases h
      | ok _ =>
        refine .bind (.ofExcept (.bind (.tell fun _ => ⟨_, rfl, ?_⟩)))
        refine .bind (.tell fun _ => ⟨_, rfl, .bind (.tell fun _ => ⟨_, rfl, .pure ?_⟩)⟩)
        rintro bench ⟨⟩
        rfl
    have hNone : ledLevel? (exchanges before.events) = none := by
      rw [hFresh]
      rfl
    have hEnds := Ends.of_lamp board (hNone ▸ hStart)
    unfold Ends at hEnds
    rw [hRun] at hEnds
    exact hEnds bench rfl
  | @command τ _ line deeds before after h hRun ih =>
    subst hRun
    have hDeed := commandDeed_stands board line before h.atPrompt.in_custody.1
    rw [List.foldr_cons, ← ih, ← hDeed]
  | @session deeds before after h hRun ih =>
    subst hRun
    have hDeed := sessionDeed_stands board before
    rw [List.foldr_cons, ← ih, ← hDeed]

end History

/-- The history of a recording board begins with the start of its prompt. -/
theorem history_recorded {s : Recording.Settings} (terminal : Script)
    (h : (started s).1 = .ok {}) :
    History (Recording.board "fake" {}) [] (recorded s terminal).own (recorded s terminal).board
      (exchanges (recorded s terminal).events) := by
  have hFresh : (fresh s).events = [] := rfl
  have hRun : started s = (.ok {}, (started s).2) := Prod.ext h rfl
  have hStart := History.start hFresh hRun
  exact hStart

end Bench

end BusBench
