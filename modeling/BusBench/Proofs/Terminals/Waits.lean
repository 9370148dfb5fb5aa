import BusBench.Proofs.Terminals.Accord
import BusBench.Proofs.Terminals.Lines

/-!
# Waiting for lines, event by event

On a link whose output does not fail, waiting for a line is determined by what arrives, down to the
order of what is received, sent and flushed. Lines are asked for one after the other, and each wait
goes on with what the one before it left.

* `Console.wait`: all that a wait does with the arrivals.
* `Console.readLine_run`: a wait runs as that says.
* `Console.calls`: one wait after the other.
-/

namespace BusBench

namespace Console

open Dialogue (bind_run)
open Dialogue.Yields (output_run sendAll_run serveFlush_done)

variable {detector : Detector} {afterReturn : Bool} {line : List Char} {arrivals : List Arrival}

/-! ## What a wait does -/

/-- What a wait for a line comes to, and all that happens meanwhile, the oldest event first. -/
structure Wait where
  result : Except Error Line
  /-- What arrives after it. -/
  rest : List Arrival
  detector : Detector
  afterReturn : Bool
  events : List PeerEvent

/-- The wait with something before it. -/
def Wait.behind (events : List PeerEvent) (wait : Wait) : Wait :=
  { wait with events := events ++ wait.events }

/-- What a wait does with the arrivals, where a part of the line has been typed already. -/
def wait (detector : Detector) (afterReturn : Bool) (line : List Char) : List Arrival → Wait
  | [] => ⟨.error .link, [], detector, afterReturn, [.failed .endOfInput]⟩
  | .pause :: rest => (wait detector afterReturn line rest).behind [.idle]
  | .byte b :: rest =>
    match detector.feed b with
    | (.nothing, detector) => (wait detector afterReturn line rest).behind [.received b]
    | (.modeSwitch, detector) => ⟨.ok .modeSwitch, rest, detector, afterReturn, [.received b]⟩
    | (.data byte, detector) =>
      match edit afterReturn line byte with
      | .finish =>
        ⟨.ok (.text line.reverse), rest, detector, byte = 0x0D,
          [.received b, .sent 0x0D, .sent 0x0A]⟩
      | .continue line echo =>
        (wait detector (byte = 0x0D) line rest).behind (.received b :: echo.map .sent ++ [.flushed])

/-- The events of a question: it is sent, and then flushed. -/
def asking (question : String) : List PeerEvent :=
  question.toUTF8.toList.map .sent ++ [.flushed]

/-! ## A wait that runs -/

/-- What is done on the link is done on the console. -/
theorem onLink_run {α : Type} {program : Dialogue Link LinkError α} {console : Console}
    {link : Link} {events after : List PeerEvent} {a : α}
    (h : program.run ⟨console.link, events⟩ = (.ok a, ⟨link, after⟩)) :
    (onLink program).run ⟨console, events⟩ = (.ok a, ⟨{ console with link }, after⟩) := by
  have hRun : (onLink program).run ⟨console, events⟩ =
      ((program.run ⟨console.link, events⟩).1.mapError fun _ => .link,
        ⟨{ console with link := (program.run ⟨console.link, events⟩).2.peer },
          (program.run ⟨console.link, events⟩).2.events⟩) := rfl
  rw [hRun, h]
  rfl

theorem sendAndFlush_run (bytes : List UInt8) (console : Console) (hOpen : console.link.IsOpen)
    (events : List PeerEvent) :
    ∃ link : Link, link.IsOpen ∧ link.incoming = console.link.incoming ∧
      (onLink do Link.sendAll bytes; Link.flush).run ⟨console, events⟩ =
        (.ok (), ⟨{ console with link },
          (bytes.map PeerEvent.sent ++ [PeerEvent.flushed]).reverse ++ events⟩) := by
  obtain ⟨mid, hSent, hMid, hIncoming⟩ := sendAll_run bytes (r := ⟨console.link, events⟩) hOpen
  obtain ⟨link, hFlushed, hOpen', hIncoming'⟩ := output_run serveFlush_done .flushed .flushBroken
    (r := ⟨mid, (bytes.map .sent).reverse ++ events⟩) hMid
  refine ⟨link, hOpen', hIncoming'.trans hIncoming, onLink_run ?_⟩
  rw [List.reverse_append]
  exact (bind_run hSent).trans hFlushed

/-- A wait runs as `wait` says, from these events on. -/
structure Runs (expected : Wait) (events : List PeerEvent)
    (done : Except Error Line × Recorded Console) : Prop where
  isOpen : done.2.peer.link.IsOpen
  rest : done.2.peer.link.incoming = expected.rest
  result : done.1 = expected.result
  detector : done.2.peer.detector = expected.detector
  afterReturn : done.2.peer.afterReturn = expected.afterReturn
  events : done.2.events = expected.events.reverse ++ events

theorem Runs.behind {expected : Wait} {first events : List PeerEvent}
    {done : Except Error Line × Recorded Console}
    (h : Runs expected (first.reverse ++ events) done) :
    Runs (expected.behind first) events done where
  isOpen := h.isOpen
  rest := h.rest
  result := h.result
  detector := h.detector
  afterReturn := h.afterReturn
  events := by
    rw [h.events, Wait.behind, List.reverse_append, List.append_assoc]

/-! ## One round -/

section Round

variable {b : UInt8} {rest : List Arrival} {link : Link}
  {events : List PeerEvent}

/-- What follows from what a byte did to the line. -/
def answerEdit (typed : List Char) : Edit → Dialogue Console Error (List Char ⊕ Line)
  | .finish => do
    onLink (Link.sendAll [0x0D, 0x0A])
    return .inr (.text typed.reverse)
  | .continue line echo => do
    onLink do
      Link.sendAll echo
      Link.flush
    return .inl line

theorem peer_run {ε : Type} (r : Recorded Console) :
    (Dialogue.peer : Dialogue Console ε Console).run r = (.ok r.peer, r) :=
  rfl

/-- A console with these arrivals. -/
def onArrivals (link : Link) (arrivals : List Arrival) (detector : Detector) (afterReturn : Bool) :
    Console :=
  ⟨{ link with incoming := arrivals }, detector, afterReturn⟩

/-- A pause only makes the next byte come later. -/
theorem readLineRound_pause :
    (readLineRound line).run ⟨onArrivals link (.pause :: rest) detector afterReturn, events⟩ =
      (readLineRound line).run ⟨onArrivals link rest detector afterReturn, .idle :: events⟩ :=
  rfl

theorem read_run :
    (onLink Link.read).run ⟨onArrivals link (.byte b :: rest) detector afterReturn, events⟩ =
      (.ok b, ⟨onArrivals link rest detector afterReturn, .received b :: events⟩) :=
  rfl

/-- What is left of a round when a byte was read and the detector has seen it. -/
theorem readLineRound_byte :
    (readLineRound line).run ⟨onArrivals link (.byte b :: rest) detector afterReturn, events⟩ =
      match detector.feed b with
      | (.nothing, d) =>
        (.ok (.inl line), ⟨onArrivals link rest d afterReturn, .received b :: events⟩)
      | (.modeSwitch, d) =>
        (.ok (.inr .modeSwitch), ⟨onArrivals link rest d afterReturn, .received b :: events⟩)
      | (.data byte, d) =>
        (answerEdit line (edit afterReturn line byte)).run
          ⟨onArrivals link rest d (byte = 0x0D), .received b :: events⟩ := by
  unfold readLineRound
  rw [bind_run read_run, bind_run (peer_run _)]
  dsimp only [onArrivals]
  generalize detector.feed b = fed
  obtain ⟨heard, d⟩ := fed
  cases heard <;> rfl

/-- Where the line ends, its end is sent but not flushed. -/
theorem answerEdit_finish (hOpen : link.IsOpen) (line : List Char) (rest : List Arrival)
    (detector : Detector) (afterReturn : Bool) (events : List PeerEvent) :
    ∃ link' : Link, link'.IsOpen ∧
      (answerEdit line .finish).run ⟨onArrivals link rest detector afterReturn, events⟩ =
        (.ok (.inr (.text line.reverse)), ⟨onArrivals link' rest detector afterReturn,
          .sent 0x0A :: .sent 0x0D :: events⟩) := by
  obtain ⟨link', hSent, hOpen', hIncoming⟩ := sendAll_run [0x0D, 0x0A]
    (r := ⟨{ link with incoming := rest }, events⟩) ⟨hOpen.sendLimit, hOpen.flushLimit⟩
  obtain rfl : link'.incoming = rest := hIncoming
  have hRun : (onLink (Link.sendAll [0x0D, 0x0A])).run
      ⟨onArrivals link link'.incoming detector afterReturn, events⟩ = _ := onLink_run hSent
  exact ⟨link', hOpen', bind_run hRun⟩

theorem answerEdit_continue (hOpen : link.IsOpen) (typed line : List Char) (echo : List UInt8)
    (rest : List Arrival) (detector : Detector) (afterReturn : Bool) (events : List PeerEvent) :
    ∃ link' : Link, link'.IsOpen ∧
      (answerEdit typed (.continue line echo)).run
          ⟨onArrivals link rest detector afterReturn, events⟩ =
        (.ok (.inl line), ⟨onArrivals link' rest detector afterReturn,
          (echo.map PeerEvent.sent ++ [PeerEvent.flushed]).reverse ++ events⟩) := by
  obtain ⟨link', hOpen', hIncoming, hRun⟩ := sendAndFlush_run echo
    (onArrivals link rest detector afterReturn) ⟨hOpen.sendLimit, hOpen.flushLimit⟩ events
  obtain rfl : link'.incoming = rest := hIncoming
  exact ⟨link', hOpen', bind_run hRun⟩

end Round

/-! ## All rounds -/

theorem readLineRounds_run {limit : Nat} {link : Link} (hOpen : link.IsOpen)
    (hLimit : arrivals.length ≤ limit) (events : List PeerEvent) :
    Runs (wait detector afterReturn line arrivals) events
      ((rounds (throw .link) readLineRound (limit + 1) line).run
        ⟨onArrivals link arrivals detector afterReturn, events⟩) := by
  -- The rounds go through the arrivals as `wait` does; a pause takes no round of its own.
  induction arrivals generalizing limit link detector afterReturn line events with
  | nil => exact ⟨⟨hOpen.sendLimit, hOpen.flushLimit⟩, rfl, rfl, rfl, rfl, rfl⟩
  | cons arrival rest ih =>
    rw [List.length_cons] at hLimit
    cases arrival with
    | pause =>
      have hLater : ∀ more, (rounds (throw .link) readLineRound (limit + 1) line).run
            ⟨onArrivals link (.pause :: rest) detector afterReturn, more⟩ =
          (rounds (throw .link) readLineRound (limit + 1) line).run
            ⟨onArrivals link rest detector afterReturn, .idle :: more⟩ := fun more => by
        rw [rounds_succ_run, rounds_succ_run, readLineRound_pause]
      rw [hLater]
      exact (ih hOpen (by omega) _).behind
    | byte b =>
      obtain ⟨limit, rfl⟩ : ∃ fewer, limit = fewer + 1 :=
        Nat.exists_eq_succ_of_ne_zero (Nat.ne_zero_of_lt hLimit)
      rw [rounds_succ_run, readLineRound_byte, wait]
      generalize detector.feed b = fed
      rcases fed with ⟨_ | byte | _, d⟩
      · exact (ih hOpen (by omega) _).behind
      · dsimp only
        cases edit afterReturn line byte with
        | finish =>
          obtain ⟨link', hOpen', hRun⟩ :=
            answerEdit_finish hOpen line rest d (byte = 0x0D) (.received b :: events)
          rw [hRun]
          exact ⟨⟨hOpen'.sendLimit, hOpen'.flushLimit⟩, rfl, rfl, rfl, rfl, rfl⟩
        | «continue» line' echo =>
          obtain ⟨link', hOpen', hRun⟩ :=
            answerEdit_continue hOpen line line' echo rest d (byte = 0x0D) (.received b :: events)
          rw [hRun]
          refine Runs.behind ?_
          rw [List.cons_append, List.reverse_cons, List.append_assoc]
          exact ih hOpen' (by omega) _
      · exact ⟨⟨hOpen.sendLimit, hOpen.flushLimit⟩, rfl, rfl, rfl, rfl, rfl⟩

/-- A wait runs as `wait` says, behind its question. -/
theorem readLine_run {console : Console} (hOpen : console.link.IsOpen) (question : String)
    (events : List PeerEvent) :
    Runs ((wait console.detector console.afterReturn [] console.link.incoming).behind
      (asking question)) events ((readLine question).run ⟨console, events⟩) := by
  obtain ⟨link, hOpen', hIncoming, hAsked⟩ := sendAndFlush_run question.toUTF8.toList console
    hOpen events
  unfold readLine
  rw [bind_run hAsked, bind_run (peer_run _), ← hIncoming]
  exact (readLineRounds_run hOpen' (Nat.le_refl _) _).behind

/-! ## One wait after the other -/

/-- A question that was asked, with the console before it and all that came of it. -/
structure Call where
  question : String
  before : Console
  result : Except Error Line
  after : Console
  /-- What happened meanwhile, the oldest event first. -/
  events : List PeerEvent

/-- Asks a question. -/
def call (question : String) (console : Console) : Call :=
  let (result, done) := (readLine question).run ⟨console, []⟩
  ⟨question, console, result, done.peer, done.events.reverse⟩

/-- Asks one question after the other, whatever comes of each. -/
def calls : List String → Console → List Call
  | [], _ => []
  | question :: questions, console =>
    call question console :: calls questions (call question console).after

/-- What holds of each question that is asked on a console like this, and of the console after it,
holds of all the questions. -/
theorem forall_calls {ready : Console → Prop} {post : Call → Prop}
    (hCall : ∀ question console, ready console →
      post (call question console) ∧ ready (call question console).after)
    (questions : List String) {console : Console} (hReady : ready console) :
    ∀ made ∈ calls questions console, post made := by
  induction questions generalizing console with
  | nil => exact List.forall_mem_nil post
  | cons question questions ih =>
    obtain ⟨hPost, hAfter⟩ := hCall question console hReady
    intro made hMade
    rcases List.mem_cons.mp hMade with rfl | hLater
    · exact hPost
    · exact ih hAfter made hLater

/-- What came of a question is what `wait` says. -/
structure Call.Follows (call : Call) (expected : Wait) : Prop where
  isOpen : call.after.link.IsOpen
  rest : call.after.link.incoming = expected.rest
  result : call.result = expected.result
  detector : call.after.detector = expected.detector
  afterReturn : call.after.afterReturn = expected.afterReturn
  events : call.events = asking call.question ++ expected.events

/-- What the next question will come to. -/
def next (console : Console) : Wait :=
  wait console.detector console.afterReturn [] console.link.incoming

theorem call_follows {console : Console} (hOpen : console.link.IsOpen) (question : String) :
    (call question console).Follows console.next := by
  have hRuns := readLine_run hOpen question []
  refine ⟨hRuns.isOpen, hRuns.rest, hRuns.result, hRuns.detector, hRuns.afterReturn, ?_⟩
  show ((readLine question).run ⟨console, []⟩).2.events.reverse = _
  rw [hRuns.events, List.append_nil, List.reverse_reverse]
  rfl

end Console

end BusBench
