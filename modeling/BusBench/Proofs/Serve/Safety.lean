import BusBench.Board.Recording
import BusBench.Proofs.Resources.Engines
import BusBench.Proofs.Serve.Guarded
import BusBench.Proofs.World.Moments

/-!
# Serving is safe

Nothing that a host sends, and nothing that goes wrong with the output, makes the prompt or an
engine look for something that is not there. No literal is cut inside a character, and no default
stands in for an entry of a list that the list does not have.

* `Bench.serve_guards`: serving a link, lines and binary sessions.
* `Bench.meets_of_passes`: what is so at every moment of it.
* `Bench.serve_in_bounds`: all that is looked up is there.
-/

namespace BusBench

open Act (Ends Guards Passes Stays Succeeds)

variable {β : Type} {K : OneWire.Session → Prop}

theorem Act.takeUart_ends {ω τ ε : Type} {board : Board β} {world : World ω β τ} :
    Ends board (Act.takeUart : Act ω β τ ε _) world fun r _ =>
      ∀ bytes, r = .ok (some bytes) → bytes.length ≤ 64 := by
  refine .bind (.ask_any fun available w => ?_)
  dsimp only
  split
  · exact .pure nofun
  · refine .bind (.ask_any fun taken w => .pure fun bytes h => ?_)
    cases h
    exact Nat.le_trans taken.property (Nat.min_le_right _ _)

theorem OneWire.readBytes_ends {ω τ : Type} {board : Board β} {world : World ω β τ} (count : Nat) :
    Ends board (readBytes count) world fun r _ => ∀ bytes, r = .ok bytes → bytes.length = count := by
  refine .bind (.ask_any fun answer w => ?_)
  cases answer with
  | error reason => exact nofun
  | ok bytes =>
    refine .pure fun bytes' h => ?_
    cases h
    exact bytes.property

theorem Detector.feed_zeros_lt (byte : UInt8) (detector : Detector) :
    (detector.feed byte).2.zeros < announcementLength := by
  unfold Detector.feed
  split
  · exact Nat.succ_pos 19
  · split
    · exact Nat.succ_pos 19
    · next h => exact Nat.lt_of_not_le h

namespace Bench

/-! ## Binary sessions -/

/-- The engines leave the prompt alone. -/
theorem onBareLink_guards : Guards (Meets K)
    (onBareLink Binary.run : Act Bench β Console Error (Except LinkError Unit)) := by
  intro board world hMeets
  have hBinary : Stays custody (· = world.own) (.settled none true)
      (Binary.run : Binary.Talk Bench β Unit) :=
    Binary.run_stays rfl rfl (by decide) (by decide)
  have hServe : Succeeds custody (· = world.own) (.settled none true)
      (onBareLink Binary.run : Act Bench β Console Error (Except LinkError Unit)) := by
    intro bench hOwn
    let forget (console : Console) : Console := { console with detector := {} }
    exact .bind (.modifyPeer forget (Succeeds.attempt hBinary.onPart bench hOwn))
  refine (Ends.of_obeys board (hServe world.own rfl)).mono fun r w h => ?_
  obtain ⟨-, _, ⟨result, rfl⟩, hOwn, -⟩ := h
  exact ⟨nofun, fun _ => hOwn ▸ hMeets⟩

theorem runBinary_guards : Guards (Meets K) (runBinary : Act Bench β Console Error Unit) := by
  refine releaseMode_guards.bind fun _ => (Guards.tell _).bind fun _ => ?_
  refine (Guards.ask _).bind fun answer => (Guards.claimed answer).bind fun _ => ?_
  refine onBareLink_guards.bind fun result => (Guards.tell _).bind fun _ => ?_
  cases result with
  | error reason => exact .throw nofun
  | ok _ => exact softReset_guards

/-! ## Rounds -/

section Rounds

variable (hKept : OneWire.Session.Kept K)

include hKept

/-- A command that fails is over, unless the link failed. -/
theorem answerLine_guards {line : Line} (h : Console.Answered (.ok line)) :
    Guards (Meets K) (answerLine line : Act Bench β Console Error Flow) := by
  cases line with
  | modeSwitch => exact .pure _
  | text line =>
    have hCommand : Guards (Meets K) (runCommand line : Act Bench β Console Error Flow) :=
      runCommand_guards hKept h
    refine .attempt_bind hCommand (fun r hSplit hLink => ?_) fun board world => rfl
    rcases r with e | flow
    · cases e with
      | link => exact absurd rfl hLink
      | splitCharacter => exact absurd rfl hSplit
      | _ => exact .pure _
    · exact .pure _

theorem serveRound_guards (u : Unit) :
    Guards (Meets K) (serveRound u : Act Bench β Console Error (Unit ⊕ Unit)) := by
  refine .own_bind fun bench _ => .dialogue_bind ?_
  refine (Console.readLine_returns _).mono fun r hLine => ?_
  cases r with
  | error e =>
    cases hLine
    exact nofun
  | ok line =>
    refine (answerLine_guards hKept hLine).bind fun flow => ?_
    cases flow with
    | «continue» => exact .pure _
    | reset => exact .pure _
    | binary => exact runBinary_guards.bind fun _ => .pure _

theorem serve_guards : Guards (Meets K) (serve : Act Bench β Console Error Unit) :=
  .askUntil (serveRound_guards hKept) ()

/-- What a search keeps is so at every moment. -/
theorem meets_of_passes {board : Board β} {world world' : World Bench β Console} {u u' : Unit}
    (h : Passes board serveRound u world u' world') (hMeets : world.own.Meets K) :
    world'.own.Meets K := by
  induction h with
  | start => exact hMeets
  | @next u' w' u'' w'' h hRound ih =>
    have hGuards := serveRound_guards hKept u' board w' ih
    unfold Ends at hGuards
    rw [hRound] at hGuards
    exact hGuards.2 nofun

end Rounds

theorem serve_ne_split (board : Board β) (world : World Bench β Console) :
    ((serve board).run world).1 ≠ .error .splitCharacter :=
  (serve_guards OneWire.Session.kept_true board world fun _ _ => trivial).1

/-! ## All that is looked up -/

/-- Whatever board is served on, whatever arrives, and wherever the output fails, serving a link does
not come to a literal that would be cut inside a character, though there are such literals: every
line is printable, and in a printable text all literals and sequences can be looked at. Where the
macros of devices lead to devices that are there, they do so at every moment. What a menu answers is
the number of one of its options, so buses are claimed with speeds of the tables. Payloads of the
engines have a first byte and fit what they are put into, a 1-Wire bus answers as many bytes as were
asked for, and the zero bytes that are counted stay below those of an announcement. -/
theorem serve_in_bounds (board : Board β) (world : World Bench β Console) :
    ((serve board).run world).1 ≠ .error .splitCharacter ∧
    (∃ text, Text.Literal.read text = .error .splitCharacter) ∧
    (∀ (question : String) (r : Recorded Console) (line : List Char),
      ((Console.readLine question).run r).1 = .ok (.text line) → Printable line) ∧
    (∀ text part : List Char, Printable text → part.Sublist text →
      Text.Literal.read part ≠ .error .splitCharacter ∧
        ∃ actions, Sequence.parse part = .ok actions) ∧
    (world.own.Meets OneWire.Session.Sound →
      ∀ (world' : World Bench β Console) (session : OneWire.Session) (key : UInt8) (index : Nat),
        Passes board serveRound () world () world' → world'.own.mode = .oneWire session →
        session.shortcuts.get? key = some (.device index) → index < session.devices.length) ∧
    (∀ (message : String) (options : List String) (default : Nat) (r : Recorded Console)
      (index : Nat), default < options.length →
      ((Terminal.select message options default).run r).1 = .ok index → index < options.length) ∧
    (∀ (kind : ModeKind) (w : World Bench β Console), ∃ trace,
      exchanges ((Mode.enter kind).after board w).events = exchanges w.events ++ trace ∧
        ∀ exchange ∈ trace, exchange.request.isTabled) ∧
    (∀ index < 8, (Spi.Speed.ofIndex? index).isSome) ∧
    (∀ (r : Recorded Link) (paired : Binary.Paired),
      (Binary.readPaired.run r).1 = .ok (some paired) →
      paired.writes ≠ [] ∧ paired.writes.length < 65536 ∧
        0 < paired.readCount ∧ paired.readCount < 65536) ∧
    (∀ (command : Nat) (r : Recorded Link) (bytes : List UInt8),
      ((Link.readExact (command % 16 + 1)).run r).1 = .ok bytes →
      bytes ≠ [] ∧ bytes.length ≤ 16) ∧
    (∀ (ω τ ε : Type) (w : World ω β τ) (bytes : List UInt8),
      (((Act.takeUart : Act ω β τ ε _) board).run w).1 = .ok (some bytes) →
      bytes.length ≤ 64) ∧
    (∀ (count : Nat) (w : World Bench β Console) (bytes : List UInt8),
      ((OneWire.readBytes count board).run w).1 = .ok bytes → bytes.length = count) ∧
    ∀ (byte : UInt8) (detector : Detector),
      (detector.feed byte).2.zeros < announcementLength := by
  refine ⟨serve_ne_split board world, ⟨['0', 'é'], by decide⟩, ?lines, ?parts, ?macros, ?menus,
    ?speeds, by decide, ?frames, ?bulk, ?uart, ?rom, Detector.feed_zeros_lt⟩
  case lines =>
    intro question r line hLine
    have hAnswered := Console.readLine_returns question r
    rwa [hLine] at hAnswered
  case parts =>
    intro text part hText hPart
    exact ⟨(hText.part hPart).read_ne, (hText.part hPart).parse_ok⟩
  case macros =>
    intro hSound world' session key index hPasses hMode hMacro
    have hMeets := meets_of_passes OneWire.Session.kept_sound hPasses hSound
    exact (hMeets session (congrArg Mode.session? hMode)).lt_length hMacro
  case menus =>
    intro message options default r index hDefault hIndex
    have hPicked := Terminal.select_returns message hDefault r
    rwa [hIndex] at hPicked
  case speeds =>
    intro kind w
    obtain ⟨trace, _, hTrace, -, hRun, -⟩ :=
      Mode.enter_tabled (P := fun _ => True) kind w.own trivial board w rfl
    exact ⟨trace, hTrace, Monitor.of_run_only hRun⟩
  case frames => exact fun r paired h => Binary.readPaired_returns r paired h
  case bulk =>
    intro command r bytes hBytes
    have hLength := Link.readExact_returns (command % 16 + 1) r bytes hBytes
    refine ⟨?_, by omega⟩
    rintro rfl
    cases hLength
  case uart => exact fun ω τ ε w bytes h => Act.takeUart_ends bytes h
  case rom => exact fun count w bytes h => OneWire.readBytes_ends count bytes h

/-- A thermometer on the bus of a host that enters the 1-Wire mode, searches, and asks for a macro.
-/
def searching : World Bench Recording.State Console where
  own := {}
  board := { settings := { roms := [0x9E0416617C4BFF28] } }
  peer := { link := { incoming := "m 2\r(240)\r(1)\r".toList.map fun c => .byte c.toUInt8 } }

/-- The macro that the search gave to the thermometer leads to it. -/
theorem serve_in_bounds_search :
    let board := Recording.board "fake" {}
    let entered := (serveRound ()).after board searching
    let found := (serveRound ()).after board entered
    ((serve board).run searching).1 = .error .link ∧
      Passes board serveRound () searching () found ∧
      ∃ session, found.own.mode = .oneWire session ∧
        session.shortcuts.get? 1 = some (.device 0) ∧ 0 < session.devices.length := by
  intro board entered found
  have hPasses : Passes board serveRound () searching () found :=
    (Passes.start.step (by decide +kernel)).step (by decide +kernel)
  have hMacro : found.own.mode.session?.map (·.shortcuts.get? 1) = some (some (.device 0)) := by
    decide +kernel
  obtain ⟨session, hSession, hDevice⟩ := Option.map_eq_some_iff.mp hMacro
  have hMode := Mode.eq_of_session? hSession
  obtain ⟨-, -, -, -, hMacros, -⟩ := serve_in_bounds board searching
  exact ⟨by decide +kernel, hPasses, session, hMode, hDevice,
    hMacros nofun found session 1 0 hPasses hMode hDevice⟩

end Bench

end BusBench
