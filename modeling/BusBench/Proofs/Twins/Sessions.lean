import BusBench.CommandLine
import BusBench.Proofs.Twins.Binary
import BusBench.Proofs.Twins.Commands

/-!
# Sessions on two boards

The host of a session cannot tell the simulated board with controllers from the one without, as long
as it does not enter the I2C mode of the prompt.

* `Bench.run_matches`: the whole prompt.
* `CommandLine.sessions_agree`: one session.
* `CommandLine.transcripts_agree`: one session after another.
-/

namespace BusBench

open Simulated (State)
open Twins (At Keeps Matches Tie asksForI2c)

/-! ## The prompt -/

namespace Bench

variable {O : Tie Bench} {T : Bench → Bench → Prop}

theorem onBareLink_keeps {ε : Type} {p q : Binary.Talk Bench State Unit} (h : Keeps O p q) :
    Keeps O (onBareLink p : Act Bench State Console ε _) (onBareLink q) :=
  .bind (.modifyPeer fun (console : Console) => { console with detector := {} }) fun _ =>
    .attempt (.onPart h)

theorem runBinary_keeps : Keeps Steady (runBinary : Act Bench State Console Error Unit) runBinary := by
  refine Matches.bind releaseMode_matches (fun _ => ?_) fun _ => Steady.of_rested
  refine .sure_bind (Keeps.tell trivial) (fun _ => rfl) fun _ =>
    .sure_bind (Keeps.ask rfl) (fun _ => rfl) fun answer =>
      .bind (Keeps.ofExcept _) (fun _ => ?_) fun _ => Steady.of_rested
  refine .sure_bind (onBareLink_keeps Binary.run_keeps) (fun _ => rfl) fun result =>
    .sure_bind (Keeps.tell rfl) (fun _ => rfl) fun _ => ?_
  cases result with
  | error e => exact .throw Steady.of_rested
  | ok _ => exact softReset_keeps.mono Steady.of_rested fun _ _ _ _ => id

theorem answerLine_keeps (line : Line) :
    Keeps Steady (answerLine line : Act Bench State Console Error Flow) (answerLine line) := by
  cases line with
  | modeSwitch => exact .pure _
  | text line =>
    refine .bind (.attempt (runCommand_keeps line)) fun result => ?_
    rcases result with e | flow
    · cases e with
      | link | splitCharacter => exact .throw _
      | _ => exact .pure _
    · exact .pure _

theorem serveRound_keeps :
    Keeps Steady (serveRound () : Act Bench State Console Error (Unit ⊕ Unit)) (serveRound ()) := by
  refine own_keeps Steady.twin fun bench bench' hSame => ?_
  rw [hSame.prompt]
  refine .bind (.dialogue _) fun line => .bind (answerLine_keeps line) fun flow => ?_
  cases flow with
  | «continue» => exact .pure _
  | reset => exact .pure _
  | binary => exact .bind runBinary_keeps fun _ => .pure _

theorem serve_keeps : Keeps Steady (serve : Act Bench State Console Error Unit) serve :=
  .askUntil (fun _ => serveRound_keeps) _

theorem start_matches :
    Matches O (start : Act Bench State Console Error Bench) start Eq fun r opened x x' =>
      O opened x x' ∧ ∀ bench, r = .ok bench → bench = {} := by
  refine .sure_bind (Keeps.ask rfl) (fun _ => rfl) fun answer => ?_
  refine .bind (Keeps.ofExcept _) (fun _ => ?_) fun _ _ _ _ h =>
    ⟨h, fun _ hBench => by cases hBench⟩
  refine .sure_bind (Keeps.tell trivial) (fun _ => rfl) fun _ => ?_
  refine .sure_bind (Keeps.tell trivial) (fun _ => rfl) fun _ => ?_
  refine .sure_bind (Keeps.tell trivial) (fun _ => rfl) fun _ => ?_
  exact .pure rfl fun _ _ _ h => ⟨h, fun _ hBench => (Except.ok.inj hBench).symm⟩

theorem Rested.initial : Rested {} {} :=
  ⟨rfl, .hiz, rfl, rfl, rfl⟩

theorem run_matches :
    Matches (At false Rested) (run : Act Bench State Console Error Unit) run Eq fun _ => Steady := by
  refine .bind start_matches (fun bench => ?_) fun _ opened x x' h => Steady.of_rested _ _ _ h.1
  refine .bind (P := fun _ => Steady) (.modifyOwn fun opened x x' h => ?_) (fun _ => serve_keeps)
    fun _ _ _ _ => id
  obtain ⟨⟨hOpened, -⟩, hBench⟩ := h
  obtain rfl := hBench bench rfl
  exact Steady.of_rested _ _ _ ⟨hOpened, Rested.initial⟩

end Bench

/-! ## Sessions -/

namespace CommandLine

/-- What was sent follows from what passed between the program and its peer. -/
theorem sentBytes_filter (events : List Event) :
    sentBytes (events.filter Event.isPeer) = sentBytes events := by
  unfold sentBytes
  generalize ([] : List UInt8) = bytes
  induction events generalizing bytes with
  | nil => rfl
  | cons event events ih =>
    cases event with
    | board exchange => exact ih bytes
    | reached point => exact ih bytes
    | peer event =>
      rw [List.filter_cons_of_pos rfl, List.foldl_cons, List.foldl_cons]
      exact ih _

theorem initial_twin (console : Console) :
    Twins.Twin (At false Bench.Rested)
      (⟨{}, Simulated.initial true, console, []⟩ : World Bench State Console)
      ⟨{}, Simulated.initial false, console, []⟩ :=
  ⟨⟨false, .initial, rfl, Bench.Rested.initial⟩, rfl, rfl⟩

/-- The session on the board without controllers is a twin of the one on the board with them. -/
theorem session_twin (console : Console)
    (h : asksForI2c (session false console).2.events = false) :
    (session true console).1 = (session false console).1 ∧
      Twins.Twin Bench.Steady (session true console).2 (session false console).2 := by
  rcases Bench.run_matches.twins _ _ (initial_twin console) with hAsks | ⟨hRelated, hTwin⟩
  · exact absurd hAsks (by rw [Bool.not_eq_true]; exact h)
  · exact ⟨hRelated.eq, hTwin⟩

/-- Whatever the host sends, text and binary, the boards send it the same bytes, have read as much
of its input, and end in the same way and in the same mode, whose settings are the same. -/
theorem sessions_agree (console : Console)
    (h : asksForI2c (session false console).2.events = false) :
    let hard := session true console
    let soft := session false console
    sentBytes soft.2.events = sentBytes hard.2.events ∧ soft.2.peer = hard.2.peer ∧
      soft.1 = hard.1 ∧ hard.2.own.mode.Twin soft.2.own.mode := by
  obtain ⟨hResult, ⟨opened, -, -, hBench⟩, hPeer, hTalk⟩ := session_twin console h
  refine ⟨?_, hPeer, hResult.symm, hBench.mode⟩
  rw [← sentBytes_filter, hTalk, sentBytes_filter]

/-- The console of a host that enters SPI mode with its defaults, writes a byte and reads two. -/
def spiConsole : Console where
  link := { incoming := ("m 5\r\r\r\r\r[0x9a r:2]\r".toUTF8.toList.map .byte) }

theorem sessions_agree_spi :
    asksForI2c (session false spiConsole).2.events = false ∧
      sentBytes (session false spiConsole).2.events = sentBytes (session true spiConsole).2.events ∧
      (session false spiConsole).2.own.mode.kind = .spi := by
  have hAsks : asksForI2c (session false spiConsole).2.events = false := by decide +kernel
  exact ⟨hAsks, (sessions_agree spiConsole hAsks).1, by decide +kernel⟩

/-! ## One session after another -/

theorem subset_serveAll (controllers : Bool) (limit : Nat) (console : Console)
    (events : List (List Event)) : events ⊆ (serveAll controllers limit console events).2 := by
  induction limit generalizing console events with
  | zero => exact fun _ => id
  | succ limit ih =>
    unfold serveAll
    obtain ⟨_ | _, console', new⟩ := serveOnce controllers console
    · exact List.subset_cons_self _ _
    · exact fun old hOld => ih console' (new :: events) (List.mem_cons_of_mem _ hOld)

theorem serveAll_agree (limit : Nat) (console : Console) {hard soft : List (List Event)}
    (hSent : soft.map sentBytes = hard.map sentBytes)
    (h : ∀ events ∈ (serveAll false limit console soft).2, asksForI2c events = false) :
    (serveAll false limit console soft).1 = (serveAll true limit console hard).1 ∧
      (serveAll false limit console soft).2.map sentBytes =
        (serveAll true limit console hard).2.map sentBytes := by
  induction limit generalizing console hard soft with
  | zero => exact ⟨rfl, hSent⟩
  | succ limit ih =>
    -- whichever way the session ends, its events are among those of the run
    have hNew : asksForI2c (serveOnce false console).2.2 = false := by
      refine h _ ?_
      unfold serveAll
      obtain ⟨_ | _, console', new⟩ := serveOnce false console
      · exact List.mem_cons_self
      · exact subset_serveAll false limit console' _ List.mem_cons_self
    have hSession := session_twin console hNew
    unfold serveAll at h ⊢
    unfold serveOnce at h ⊢
    generalize session true console = done, session false console = done' at h hSession ⊢
    obtain ⟨result, hardWorld⟩ := done
    obtain ⟨result', softWorld⟩ := done'
    obtain ⟨rfl, -, hPeer, hTalk⟩ := hSession
    have hSent' : (softWorld.events :: soft).map sentBytes =
        (hardWorld.events :: hard).map sentBytes := by
      rw [List.map_cons, List.map_cons, hSent, ← sentBytes_filter, hTalk, sentBytes_filter]
    cases result with
    | error e => exact ⟨rfl, hSent'⟩
    | ok _ =>
      dsimp only at h ⊢
      rw [hPeer] at h ⊢
      exact ih _ hSent' h

/-- The program writes the same for an input, and ends in the same way, on either kind of board. -/
theorem transcripts_agree (input : List Arrival)
    (h : ∀ events ∈ (serveAll false (input.length + 1) { link := { incoming := input } } []).2,
      asksForI2c events = false) : transcript false input = transcript true input := by
  obtain ⟨hError, hSent⟩ := serveAll_agree _ _ rfl h
  unfold transcript
  simp only [hError, List.map_reverse, hSent]

end CommandLine

end BusBench
