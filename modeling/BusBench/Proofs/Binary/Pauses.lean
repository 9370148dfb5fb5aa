import BusBench.Proofs.Binary.Agreement
import BusBench.Proofs.Binary.Programs
import BusBench.Proofs.Uart.Forwarding

/-!
# The binary protocol does not notice pauses

The engines for SPI and I2C wait for whatever they read. The one for UART does not, but unless it
passes on what the device sends, a round without a byte does nothing. So the protocol comes to the
same however the host spreads its bytes over time, and however long it makes the board wait.

* `Act.Patient`: programs that come to the same over links that are alike.
* `compositional_patient`: such programs may be put together.
* `Uart.serveRound_stutters`: rounds of the engine that does not wait.
* `run_patient`: the whole protocol.
* `conversation_ignores_pauses`: two conversations of which one has other pauses.
-/

namespace BusBench

open Binary (Talk Tally)

/-! ## Calm -/

namespace Binary

/-- The first byte of a command decides. -/
theorem stirs_of_append {server : Server} {frame : List UInt8} {b : UInt8}
    (h : stirs server (frame ++ [b]) = false) : stirs server frame = false := by
  cases frame with
  | nil => simp [stirs]
  | cons first frame => exact h

namespace Tally

theorem Calm.of_see {event : Event} {t : Tally} (h : (see event t).Calm) : t.Calm := by
  have hHeard (b : UInt8) (h : (t.hear b).Calm) : t.Calm := by
    obtain ⟨_ | server, _ | ⟨command, commands⟩, grants⟩ := t
    · exact h
    · intro key hKey
      rcases List.mem_cons.mp hKey with rfl | hKey
      · exact stirs_of_append (h (command.server, command.frame ++ [b]) List.mem_cons_self)
      · exact h key (List.mem_cons_of_mem _ hKey)
    · exact fun key hKey => h key (List.mem_cons_of_mem _ hKey)
    · exact fun key hKey => h key (List.mem_cons_of_mem _ hKey)
  rcases event with exchange | event | ⟨server | _⟩
  · change (t.decide exchange).Calm at h
    unfold decide at h
    split at h
    · exact h
    · exact h
  · cases event with
    | received b => exact hHeard b h
    | sent b =>
      intro key hKey
      refine h key ?_
      change key ∈ (t.say b).keys
      rwa [keys_say]
    | idle | flushed | failed | shown | asked | polled | passed => exact h
  · exact h
  · exact h

/-- What lets the UART pass on something is not forgotten. -/
theorem Calm.of_append {new earlier : List Event} (h : (observer.of (new ++ earlier)).Calm) :
    (observer.of earlier).Calm := by
  induction new with
  | nil => exact h
  | cons event new ih => exact ih (of_see h)

end Tally

end Binary

/-! ## Programs -/

namespace Act

variable {ω β ε δ α γ σ : Type}

/-- Worlds that differ in nothing but pauses. -/
structure Abreast (w w' : World ω β Link) : Prop where
  own : w.own = w'.own
  board : w.board = w'.board
  link : w.peer.Alike w'.peer
  traffic : traffic.of w.events = traffic.of w'.events

theorem abreast_equivalence : Equivalence (@Abreast ω β) where
  refl _ := ⟨rfl, rfl, Link.alike_equivalence.refl _, rfl⟩
  symm h := ⟨h.own.symm, h.board.symm, Link.alike_equivalence.symm h.link, h.traffic.symm⟩
  trans h h' := ⟨h.own.trans h'.own, h.board.trans h'.board,
    Link.alike_equivalence.trans h.link h'.link, h.traffic.trans h'.traffic⟩

/-- No command so far lets the UART pass on what it receives. -/
def IsCalm (w : World ω β Link) : Prop :=
  (Tally.observer.of w.events).Calm

/-- On every board the program comes to the same over links that are alike, unless it lets the UART
pass on what it receives. -/
def Patient (program : Act ω β Link ε α) : Prop :=
  ∀ board, Repeats Abreast IsCalm (program board)

theorem Spends.calm_before {m : Meter Link ε} {n : Nat} {program : Act ω β Link ε α}
    (h : Spends m n program) (board : Board β) (w : World ω β Link)
    (hCalm : IsCalm (program.after board w)) : IsCalm w := by
  obtain ⟨new, hNew, -⟩ := h board w
  unfold IsCalm at hCalm
  rw [hNew] at hCalm
  exact hCalm.of_append

namespace Patient

variable {program : Act ω β Link ε α}

theorem pure (a : α) : Patient (Pure.pure a : Act ω β Link ε α) :=
  fun _ => .pure a

theorem bind {next : α → Act ω β Link ε γ} (h : Patient program)
    (hNext : ∀ a, Patient (next a)) : Patient (program >>= next) :=
  fun board => (h board).bind fun a => hNext a board

/-- The boards are in the same state, so they answer alike. -/
theorem ask (request : Request) :
    Patient (Act.ask request : Act ω β Link ε request.Answer) := by
  refine fun board => ⟨fun w hCalm => ?_, ?_⟩
  · have hAfter : (Tally.see (.board ⟨request, (board.answer request w.board).1⟩)
        (Tally.observer.of w.events)).Calm := hCalm
    exact hAfter.of_see
  · rintro ⟨own, s, peer, events⟩ ⟨_, _, peer', events'⟩ ⟨rfl, rfl, hLink, hTraffic⟩ -
    exact ⟨rfl, rfl, rfl, hLink, congrArg (traffic.see _) hTraffic⟩

theorem reach (point : Point) : Patient (Act.reach point : Act ω β Link ε Unit) :=
  fun _ => ⟨fun _ hCalm => Tally.Calm.of_see hCalm,
    fun _ _ hAbreast _ => ⟨rfl, hAbreast.own, hAbreast.board, hAbreast.link, hAbreast.traffic⟩⟩

theorem dialogue {talk : Dialogue Link ε α} (h : Dialogue.Patient talk) :
    Patient (Act.dialogue talk : Act ω β Link ε α) := by
  refine fun board => ⟨fun w hCalm => hCalm.of_append, fun w w' hAbreast _ => ?_⟩
  obtain ⟨hResult, hLink, hTraffic⟩ := (h (traffic.of w.events) (traffic.of w'.events)).agrees
    ⟨w.peer, []⟩ ⟨w'.peer, []⟩ ⟨hAbreast.link, hAbreast.traffic⟩ trivial
  refine ⟨hResult, hAbreast.own, hAbreast.board, hLink, ?_⟩
  rw [← traffic.of_append_peer, ← traffic.of_append_peer] at hTraffic
  exact hTraffic

theorem attempt (h : Patient program) :
    Patient (Act.attempt program : Act ω β Link δ (Except ε α)) := by
  refine fun board => ⟨(h board).calm_before, fun w w' hAbreast hCalm => ?_⟩
  obtain ⟨hResult, hAfter⟩ := (h board).agrees w w' hAbreast hCalm
  exact ⟨congrArg Except.ok hResult, hAfter⟩

theorem ofExcept (result : Except ε α) : Patient (Act.ofExcept result : Act ω β Link ε α) := by
  cases result with
  | ok a => exact pure a
  | error e => exact fun _ => .throw e

theorem board : Patient (MonadReader.read : Act ω β Link ε (Board β)) :=
  fun board => .pure board

/-! ### Loops -/

variable {round : σ → Talk ω β (σ ⊕ α)}

/-- Every round takes something, so the loops end for no other reason than their rounds. -/
theorem serveUntil_of_stutters (hSpends : ∀ x, Spends Link.meter 1 (round x))
    {quiet : World ω β Link → Prop} {I : σ → Prop}
    (hRound : ∀ board, Loops.Stutters Abreast IsCalm quiet I fun x => round x board) {x : σ}
    (hx : I x) : Patient (Binary.serveUntil round x) := by
  intro board
  have hLoops (w : World ω β Link) : Loops (fun x => round x board) x w
      ((Binary.serveUntil round x board).run w).1 ((Binary.serveUntil round x board).run w).2 :=
    Spends.loops hSpends (Nat.lt_succ_self _) x
  exact ⟨fun w => (hLoops w).calm_before (hRound board).calm_before, fun w w' =>
    (hLoops w).agree abreast_equivalence (hRound board) hx (hLoops w')⟩

theorem serveUntil (hSpends : ∀ x, Spends Link.meter 1 (round x)) (h : ∀ x, Patient (round x))
    (x : σ) : Patient (Binary.serveUntil round x) := by
  have hRound (board : Board β) : Loops.Stutters Abreast IsCalm (fun _ => False) (fun _ => True)
      fun x => round x board := by
    refine ⟨fun x => (h x board).calm_before, fun _ _ _ => False.elim,
      fun x w w' _ _ _ hAbreast hCalm => ?_⟩
    obtain ⟨hResult, hAfter⟩ := (h x board).agrees w w' hAbreast hCalm
    exact ⟨hResult, hAfter, fun _ _ => trivial⟩
  exact serveUntil_of_stutters hSpends hRound trivial

end Patient

end Act

namespace Binary

open Act (Patient Spends IsCalm Abreast)

variable {ω β α : Type}

/-- Programs that come to the same may be put together. -/
theorem compositional_patient : Compositional (@Patient ω β) where
  pure := .pure
  bind := .bind
  ask request _ := .ask request
  reach := .reach
  board := .board
  dialogue := .dialogue
  attempt := .attempt
  ofExcept := .ofExcept
  serveUntil := .serveUntil

/-! ## UART -/

namespace Uart

/-- The world in which a command that is there is served. -/
def taking (w : World ω β Link) (command : UInt8) (rest : List Arrival) : World ω β Link :=
  { w with
    peer := { w.peer with incoming := rest }
    events := .peer (.received command) :: .reached (.command .uart) :: w.events }

section Rounds

variable {board : Board β} {w : World ω β Link} {rest : List Arrival} (state : State)

theorem awaitCommand_run_of_byte {command : UInt8} (h : w.peer.incoming = .byte command :: rest) :
    ((awaitCommand state) board).run w =
      ((serveCommand state command) board).run (taking w command rest) := by
  obtain ⟨own, s, ⟨_, sent, flushes, sendLimit, flushLimit, busy, stalled⟩, events⟩ := w
  obtain rfl := h
  rfl

theorem awaitCommand_run_of_pause (h : w.peer.incoming = .pause :: rest) :
    ((awaitCommand state) board).run w = (.ok (.inl state), { w with
      peer := { w.peer with incoming := rest }
      events := .peer .idle :: .reached (.command .uart) :: w.events }) := by
  obtain ⟨own, s, ⟨_, sent, flushes, sendLimit, flushLimit, busy, stalled⟩, events⟩ := w
  obtain rfl := h
  rfl

theorem awaitCommand_run_of_end (h : w.peer.incoming = []) :
    ((awaitCommand state) board).run w = (.error .endOfInput, { w with
      events := .peer (.failed .endOfInput) :: .reached (.command .uart) :: w.events }) := by
  obtain ⟨own, s, ⟨_, sent, flushes, sendLimit, flushLimit, busy, stalled⟩, events⟩ := w
  obtain rfl := h
  rfl

end Rounds

/-- A command that lets the UART pass on what it receives does not leave things calm. -/
theorem ne_of_taking {w : World ω β Link} {command : UInt8} {rest : List Arrival}
    (h : IsCalm (taking w command rest)) : command ≠ 0x02 ∧ command ≠ 0x0F := by
  have hFirst : stirs .uart [command] = false := h (.uart, [command]) List.mem_cons_self
  constructor
  · rintro rfl
    cases hFirst
  · rintro rfl
    cases hFirst

/-- The next thing to arrive is a pause. -/
def IsPaused (w : World ω β Link) : Prop :=
  ∃ rest, w.peer.incoming = .pause :: rest

theorem cases_of_not_paused {w : World ω β Link} (h : ¬ IsPaused w) :
    w.peer.incoming = [] ∨ ∃ command rest, w.peer.incoming = .byte command :: rest := by
  rcases hIncoming : w.peer.incoming with _ | ⟨command | _, rest⟩
  · exact Or.inl rfl
  · exact Or.inr ⟨command, rest, rfl⟩
  · exact absurd ⟨rest, hIncoming⟩ h

/-- Where nothing is passed on, the round only awaits a command. -/
theorem serveRound_of_mute {state : State} (hMute : state.echo = false) :
    (serveRound state : Talk ω β _) = awaitCommand state :=
  if_neg (by rw [hMute]; exact Bool.false_ne_true)

/-- A command that is there in both worlds is served in the same way. -/
theorem serveCommand_agrees {board : Board β} {state : State} (hMute : state.echo = false)
    {command : UInt8} {w w' : World ω β Link} {rest rest' : List Arrival}
    (hAbreast : Abreast (taking w command rest) (taking w' command rest'))
    (hCalm : IsCalm ((serveCommand state command).after board (taking w command rest))) :
    ((serveCommand state command board).run (taking w command rest)).1 =
        ((serveCommand state command board).run (taking w' command rest')).1 ∧
      Abreast ((serveCommand state command).after board (taking w command rest))
        ((serveCommand state command).after board (taking w' command rest')) ∧
      ∀ next, ((serveCommand state command board).run (taking w command rest)).1 =
        .ok (.inl next) → next.echo = false := by
  have hBefore : IsCalm (taking w command rest) :=
    (serveCommand_spends state command).calm_before board _ hCalm
  obtain ⟨hEcho, hBridge⟩ := ne_of_taking hBefore
  have hServe : Patient (serveCommand state command : Talk ω β (State ⊕ Unit)) :=
    compositional_patient.uart_serveCommand state command fun h => absurd h hBridge
  obtain ⟨hResult, hAfter⟩ := (hServe board).agrees _ _ hAbreast hCalm
  refine ⟨hResult, hAfter, fun next hNext => ?_⟩
  obtain ⟨-, -, -, -, hMute'⟩ := BusBench.Uart.serveCommand_emits state hEcho board _ _ _
    (Prod.ext hNext rfl)
  exact hMute' hMute

/-- Without an echo a round that finds no byte does nothing, and any other round serves the same
command in both worlds. -/
theorem serveRound_stutters (board : Board β) :
    Loops.Stutters Abreast (@IsCalm ω β) IsPaused (fun state => state.echo = false)
      fun state => serveRound state board where
  calm_before state := (serveRound_spends state).calm_before board
  waits state w hMute hPaused := by
    obtain ⟨rest, hPause⟩ := hPaused
    rw [serveRound_of_mute hMute, awaitCommand_run_of_pause state hPause]
    refine ⟨_, rfl, rfl, rfl, ⟨?_, rfl, rfl, rfl, rfl⟩, rfl⟩
    rw [hPause]
    rfl
  agrees state w w' hMute hAwake hAwake' hAbreast := by
    have hBytes := hAbreast.link.bytes
    rw [serveRound_of_mute hMute]
    rcases cases_of_not_paused hAwake with hEnd | ⟨command, rest, hByte⟩
    · rcases cases_of_not_paused hAwake' with hEnd' | ⟨command', rest', hByte'⟩
      · rw [awaitCommand_run_of_end state hEnd, awaitCommand_run_of_end state hEnd']
        exact fun _ => ⟨rfl, ⟨hAbreast.own, hAbreast.board, hAbreast.link,
          congrArg (traffic.see _) hAbreast.traffic⟩, nofun⟩
      · rw [hEnd, hByte'] at hBytes
        cases hBytes
    · rcases cases_of_not_paused hAwake' with hEnd' | ⟨command', rest', hByte'⟩
      · rw [hByte, hEnd'] at hBytes
        cases hBytes
      · rw [hByte, hByte'] at hBytes
        obtain ⟨rfl, hRest⟩ := List.cons.inj hBytes
        rw [awaitCommand_run_of_byte state hByte, awaitCommand_run_of_byte state hByte']
        have hTaking : Abreast (taking w command rest) (taking w' command rest') :=
          ⟨hAbreast.own, hAbreast.board, ⟨hRest, hAbreast.link.sent, hAbreast.link.flushes,
            hAbreast.link.sendLimit, hAbreast.link.flushLimit⟩,
            congrArg (traffic.see _) hAbreast.traffic⟩
        exact serveCommand_agrees hMute hTaking

end Uart

/-! ## The protocol -/

/-- Unless the UART passes on what it receives, the protocol does not notice pauses. -/
theorem run_patient : Patient (run : Talk ω β Unit) :=
  compositional_patient.run
    (.serveUntil_of_stutters Uart.serveRound_spends Uart.serveRound_stutters rfl)

/-! ## Conversations -/

/-- The host may send the same bytes with any other pauses between them, and make the board wait for
any other times before it takes what the board sends: unless the UART was told to pass on what it
receives, the protocol ends in the same way. The log is the same, and so is all that passed over the
link or was asked of the board. As many bytes and flushes were sent, and the same bytes are left
unread. -/
theorem conversation_ignores_pauses (board : Board β) (own : ω) (state : β) (link : Link)
    {incoming : List Arrival} (hBytes : bytesOf incoming = bytesOf link.incoming)
    (busy stalled : Nat)
    (hCalm : ∀ command ∈ commands (conversation board own state link).2.events,
      stirs command.server command.frame = false) :
    let done := conversation board own state link
    let done' := conversation board own state { link with incoming, busy, stalled }
    done'.1 = done.1 ∧ Event.log done'.2.events = Event.log done.2.events ∧
      done'.2.events.filter Event.isTraffic = done.2.events.filter Event.isTraffic ∧
      done'.2.own = done.2.own ∧ done'.2.board = done.2.board ∧
      done'.2.peer.sent = done.2.peer.sent ∧ done'.2.peer.flushes = done.2.peer.flushes ∧
      bytesOf done'.2.peer.incoming = bytesOf done.2.peer.incoming ∧
      done'.2.peer.unread = done.2.peer.unread := by
  intro done done'
  have hCalm' : IsCalm done.2 := by
    intro key hKey
    obtain ⟨command, hCommand, rfl⟩ := List.mem_map.mp hKey
    exact hCalm command (List.mem_reverse.mpr hCommand)
  obtain ⟨hResult, hAfter⟩ := (run_patient board).agrees { own, board := state, peer := link }
    { own, board := state, peer := { link with incoming, busy, stalled } }
    ⟨rfl, rfl, ⟨hBytes.symm, rfl, rfl, rfl, rfl⟩, rfl⟩ hCalm'
  have hTraffic : done'.2.events.filter Event.isTraffic = done.2.events.filter Event.isTraffic := by
    rw [← traffic.of_eq_filter, ← traffic.of_eq_filter]
    exact hAfter.traffic.symm
  refine ⟨hResult.symm, ?_, hTraffic, hAfter.own.symm, hAfter.board.symm, hAfter.link.sent.symm,
    hAfter.link.flushes.symm, hAfter.link.bytes.symm, ?_⟩
  · rw [← traffic.log_filter, hTraffic, traffic.log_filter]
  · rw [Link.unread_eq, Link.unread_eq]
    exact congrArg List.length hAfter.link.bytes.symm

/-- A host that pauses between the commands of the UART, within one of them and after the last. -/
theorem conversation_ignores_pauses_uart :
    let board := Recording.board "" {}
    let link : Link := { incoming := [0x03, 0x69, 0x11, 0xAA, 0x55, 0x00, 0x0F, 0x01].map .byte }
    let incoming : List Arrival :=
      [.pause, .byte 0x03, .pause, .pause, .byte 0x69, .byte 0x11, .pause, .byte 0xAA, .byte 0x55,
        .pause, .byte 0x00, .byte 0x0F, .pause, .byte 0x01]
    let done := conversation board () {} link
    let done' := conversation board () {} { link with incoming, busy := 2, stalled := 1 }
    done.2.events.length < done'.2.events.length ∧ done'.1 = done.1 ∧
      Event.log done'.2.events = Event.log done.2.events ∧ done'.2.peer.unread = 1 := by
  intro board link incoming done done'
  have hBytes : bytesOf incoming = bytesOf link.incoming := by decide
  have hCalm : ∀ command ∈ commands done.2.events,
      stirs command.server command.frame = false := by decide +kernel
  obtain ⟨hResult, hLog, -, -, -, -, -, -, hUnread⟩ :=
    conversation_ignores_pauses board () {} link hBytes 2 1 hCalm
  have hLeft : done.2.peer.unread = 1 := by decide +kernel
  exact ⟨by decide +kernel, hResult, hLog, hUnread.trans hLeft⟩

/-- With an echo every pause is one more look at what the device sends. -/
example :
    let board := Recording.board "" {}
    let done incoming := conversation board () {} { incoming }
    ((done [.byte 0x03, .byte 0x02]).2.events.filter Event.isTraffic).length <
      ((done [.byte 0x03, .byte 0x02, .pause]).2.events.filter Event.isTraffic).length := by
  decide +kernel

end Binary

end BusBench
