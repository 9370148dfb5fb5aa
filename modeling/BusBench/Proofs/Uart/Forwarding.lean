import BusBench.Binary.Uart
import BusBench.Prompt.Uart
import BusBench.Proofs.Uart.Recorded
import BusBench.Terminal.Console

/-!
# Forwarding of the UART

Four loops pass on what a UART receives: the bridges of the binary protocol and of the prompt, the
monitor, and the engine of the binary protocol while it echoes. Between two rounds of any of them,
what was passed on and what is in the buffer of the port are what was there to be passed on.

* `Conveys`: all that was in the buffer or came to it was sent or is there.
* `Echoes`: the same since the command that clears the buffer.
* `forwarding_conserves`: what the loops keep, on every port that is buffered.
-/

namespace BusBench.Uart

variable {ω β : Type} {board : Board β}

open CommandLine (sentBytes)
open Act (Records Emits Passes)
open Binary (Talk)

/-! ## Passing on -/

/-- The events with which a loop passes on what the device has sent. -/
structure Forwards (new : List Event) : Prop where
  order (engine : Bool) : Transit.run engine {} new = some {}
  written : written new = []
  heard : heardBytes new = []

theorem run_sent (engine : Bool) (bytes more : List UInt8) :
    Transit.run engine { due := bytes ++ more } ((bytes.map PeerEvent.sent).reverse.map .peer) =
      some { due := more } := by
  induction bytes with
  | nil => rfl
  | cons b bytes ih =>
    have hFirst : Transit.run engine { due := b :: bytes ++ more } [.peer (.sent b)] =
        some { due := bytes ++ more } := by
      simp [Transit.run, Transit.step]
    rw [List.map_cons, List.reverse_cons, List.map_append]
    exact (Transit.run_append hFirst _).trans ih

theorem forwards_none (n : Nat) : Forwards [.board ⟨.uart .available, n⟩] :=
  ⟨fun _ => rfl, rfl, rfl⟩

theorem forwards_some (n m : Nat) (answer : { bytes : List UInt8 // bytes.length ≤ m }) :
    Forwards (([PeerEvent.flushed] ++ (answer.val.map PeerEvent.sent).reverse).map .peer ++
      [.board ⟨.uart (.read m), answer⟩, .board ⟨.uart .available, n⟩]) := by
  refine ⟨fun engine => ?_, ?_, ?_⟩
  · have hTaken : Transit.run engine {} [.board ⟨.uart (.read m), answer⟩,
        .board ⟨.uart .available, n⟩] = some { due := answer.val ++ [] } := by
      rw [List.append_nil]
      rfl
    rw [Transit.run_append hTaken, List.map_append, Transit.run_append (run_sent engine _ _)]
    rfl
  · rw [written, exchanges_peer_append]
    rfl
  · rw [heardBytes, List.filterMap_eq_nil_iff]
    intro event hEvent
    simp only [List.mem_reverse, List.mem_append, List.mem_map, List.mem_cons] at hEvent
    rcases hEvent with ⟨_, ⟨rfl | hNil⟩ | ⟨b, -, rfl⟩, rfl⟩ | rfl | rfl | hNil
    all_goals first | rfl | cases hNil

theorem takeUart_records {τ ε : Type} {post : Option (List UInt8) → List Event → Prop}
    (hNone : ∀ n : Nat, post none [.board ⟨.uart .available, n⟩])
    (hSome : ∀ (n m : Nat) (answer : { bytes : List UInt8 // bytes.length ≤ m }),
      post (some answer.val) [.board ⟨.uart (.read m), answer⟩, .board ⟨.uart .available, n⟩]) :
    Records (Act.takeUart : Act ω β τ ε _) post :=
  .bind (.ask fun n => .ite (fun _ => .pure (hNone n)) fun _ => .bind (.ask fun answer =>
    .pure (hSome n _ answer)))

theorem binary_forward_records :
    Records (Binary.Uart.forward : Talk ω β Unit) fun _ new => Forwards new :=
  .bind (takeUart_records (fun n => .pure (forwards_none n)) fun n m answer =>
    .dialogue (.bind (.sendAll (.flush (forwards_some n m answer)))))

theorem writeBytes_records {bytes : List UInt8} {post : Unit → List PeerEvent → Prop}
    (h : post () ([.flushed] ++ (bytes.map .sent).reverse)) :
    Dialogue.Records (Terminal.writeBytes bytes : Dialogue Console Error Unit) post := by
  change Dialogue.Records (Console.writeBytes bytes) post
  unfold Console.writeBytes Console.onLink
  exact .within (.bind (.sendAll (.flush h)))

theorem pollKey_records {post : Option UInt8 → List PeerEvent → Prop} (hNone : post none [.idle])
    (hKey : ∀ key, post (some key) [.received key]) :
    Dialogue.Records (Terminal.pollKey : Dialogue Console Error (Option UInt8)) post := by
  change Dialogue.Records (Console.onLink Link.tryRead) post
  exact .within (.tryRead hNone hKey)

theorem forward_records :
    Records (forward : Act ω β Console Error Unit) fun _ new => Forwards new :=
  .bind (takeUart_records (fun n => .pure (forwards_none n)) fun n m answer =>
    .dialogue (writeBytes_records (forwards_some n m answer)))

/-! ## Rounds of the bridges -/

/-- Events of a bridge, which sends what it takes and writes what it hears. -/
structure Bridges (new : List Event) : Prop where
  order : Transit.run false {} new = some {}
  written : written new = heardBytes new

namespace Bridges

variable {new earlier : List Event}

theorem append (h : Bridges earlier) (h' : Bridges new) : Bridges (new ++ earlier) where
  order := (Transit.run_append h.order new).trans h'.order
  written := by rw [written_append, heardBytes_append, h.written, h'.written]

theorem of_forwards (h : Forwards new) : Bridges new :=
  ⟨h.order false, h.written.trans h.heard.symm⟩

/-- Before the loop passes on what the device has sent, it writes what it has heard. -/
theorem of_key (key : UInt8) (answer : Except BusError Unit) :
    Bridges ([.board ⟨.uart (.write [key]), answer⟩] ++ [PeerEvent.received key].map .peer) :=
  ⟨rfl, rfl⟩

theorem of_idle : Bridges ([PeerEvent.idle].map .peer) :=
  ⟨rfl, rfl⟩

end Bridges

theorem binary_bridgeRound_records :
    Records (Binary.Uart.bridgeRound () : Talk ω β (Unit ⊕ Unit)) fun result new =>
      result = .inl () ∧ Bridges new := by
  refine .bind (.dialogue (.tryRead ?_ fun key => ?_))
  · exact .bind (binary_forward_records.mono fun _ new hNew => .pure
      ⟨rfl, Bridges.of_idle.append (.of_forwards hNew)⟩)
  · refine .bind (.tell fun answer => .bind (binary_forward_records.mono fun _ new hNew => .pure ?_))
    rw [List.append_assoc]
    exact ⟨rfl, (Bridges.of_key key answer).append (.of_forwards hNew)⟩

theorem bridgeRound_records :
    Records (bridgeRound () : Act ω β Console Error (Unit ⊕ Unit)) fun _ new => Bridges new := by
  refine .bind (.dialogue (pollKey_records ?_ fun key => ?_))
  · exact .bind (forward_records.mono fun _ new hNew => .pure
      (Bridges.of_idle.append (.of_forwards hNew)))
  · refine .bind (.ask fun answer => .bind ?_)
    cases answer with
    | error reason => exact .throw _
    | ok done =>
      refine .pure (.bind (forward_records.mono fun _ new hNew => .pure ?_))
      rw [List.append_nil, List.append_assoc]
      exact (Bridges.of_key key (.ok done)).append (.of_forwards hNew)

/-! ## The monitor -/

/-- A round after which the monitor goes on has heard nothing. -/
theorem monitorRound_records :
    Records (monitorRound () : Act ω β Console Error (Unit ⊕ Unit)) fun result new =>
      ∀ next, result = .inl next → Transit.run false {} new = some {} := by
  refine .bind (.dialogue (pollKey_records ?_ fun key => .pure nofun))
  exact .bind (forward_records.mono fun _ new hNew => .pure fun _ _ =>
    (Transit.run_append rfl new).trans (hNew.order false))

/-! ## The engine -/

/-- An event with which nothing is taken, while nothing is due. -/
def IsApart (event : Event) : Prop :=
  Transit.step true event {} = some {}

theorem run_of_apart {new : List Event} (h : ∀ event ∈ new, IsApart event) :
    Transit.run true {} new = some {} := by
  induction new with
  | nil => rfl
  | cons event new ih =>
    rw [Transit.run_cons, ih fun event hEvent => h event (.tail _ hEvent)]
    exact h event List.mem_cons_self

theorem isApart_peer (event : PeerEvent) : IsApart (.peer event) := by
  cases event <;> rfl

theorem isApart_board {request : Request} (h : discards request = false)
    (hRead : ∀ n, request ≠ .uart (.read n)) (answer : request.Answer) :
    IsApart (.board ⟨request, answer⟩) := by
  have hTaken : taken ⟨request, answer⟩ = [] := by
    unfold taken
    split
    · next hExchange =>
      cases hExchange
      exact absurd rfl (hRead _)
    · rfl
  simp [IsApart, Transit.step, h, hTaken]

theorem bulk_emits {P : Event → Prop} (hPeer : ∀ event, P (.peer event))
    (hWrite : ∀ b answer, P (.board ⟨.uart (.write [b]), answer⟩)) {n : Nat} {post : Unit → Prop}
    (h : post ()) : Emits P (Binary.Uart.bulk n : Talk ω β Unit) post := by
  induction n with
  | zero => exact .pure h
  | succ n ih =>
    exact .bind (.dialogue hPeer fun _ => .bind (.tell (hWrite _)
      (.bind (.dialogue hPeer fun _ => ih))))

theorem reconfigure_emits {config next : Config} {post : Config → Prop} (h : ∀ config, post config) :
    Emits IsApart (Binary.Uart.reconfigure config next : Talk ω β Config) post := by
  refine .bind (.ask (isApart_board rfl nofun) fun answer => ?_)
  cases answer <;> exact .bind (.dialogue isApart_peer fun _ => .pure (h _))

/-- If there was no echo, there is none where the engine goes on. -/
def StaysMute (state : Binary.Uart.State) : Binary.Uart.State ⊕ Unit → Prop
  | .inl next => state.echo = false → next.echo = false
  | .inr _ => True

/-- Every command but the one that clears the buffer takes nothing, and does not begin an echo. The
bridge is not left again. -/
theorem serveCommand_emits (state : Binary.Uart.State) {command : UInt8}
    (hCommand : command ≠ 0x02) :
    Emits IsApart (Binary.Uart.serveCommand state command : Talk ω β _) (StaysMute state) := by
  unfold Binary.Uart.serveCommand
  split
  case h_1 => exact .pure trivial
  case h_2 | h_5 => exact .bind (.dialogue isApart_peer fun _ => .pure id)
  case h_3 hByte => exact absurd (UInt8.toNat_inj.mp hByte) hCommand
  case h_4 => exact .bind (.dialogue isApart_peer fun _ => .pure fun _ => rfl)
  case h_6 =>
    exact .bind (Records.serveUntil_never fun _ => binary_bridgeRound_records.mono
      fun result _ hResult answer hAnswer => nomatch hResult.1.symm.trans hAnswer)
  case h_7 =>
    refine .ite (fun _ => ?_) fun _ => .ite (fun _ => ?_) fun _ => .ite (fun _ => ?_) fun _ =>
      .ite (fun _ => ?_) fun _ => .pure id
    · exact .bind (.dialogue isApart_peer fun _ => .bind
        (bulk_emits isApart_peer (fun _ => isApart_board rfl nofun) (.pure id)))
    · exact .bind (.peripheralCommand (fun _ => isApart_board rfl nofun)
        (fun _ => isApart_board rfl nofun) (fun _ _ => isApart_board rfl nofun)
        fun _ => .bind (.dialogue isApart_peer fun _ => .pure id))
    · split
      · exact .bind (.dialogue isApart_peer fun _ => .pure id)
      · exact .bind (reconfigure_emits fun _ => .pure id)
    · split
      · exact .bind (.dialogue isApart_peer fun _ => .pure id)
      · exact .bind (reconfigure_emits fun _ => .pure id)

/-- The command that clears the buffer. -/
theorem serveCommand_clear (state : Binary.Uart.State) :
    Records (Binary.Uart.serveCommand state 0x02 : Talk ω β _) fun _ new =>
      Transit.run true { phase := .ordered } new = some {} :=
  .bind (.tell fun _ => .bind (.dialogue (.bind (.send (.flush (.pure rfl))))))

theorem awaitCommand_records (state : Binary.Uart.State) :
    Records (Binary.Uart.awaitCommand state : Talk ω β _) fun _ new =>
      Transit.run true {} new = some {} := by
  refine .bind (.reach (.bind (.dialogue (.tryRead (.pure rfl) fun command => ?_))))
  by_cases hCommand : command = 0x02
  · subst hCommand
    refine (serveCommand_clear state).mono fun _ new hNew => ?_
    rw [List.append_assoc]
    exact (Transit.run_append rfl new).trans hNew
  · refine (serveCommand_emits state hCommand).mono fun _ new hNew => ?_
    have hHeard : Transit.run true {} ([PeerEvent.received command].map .peer ++
        [.reached (.command .uart)]) = some {} := by
      simp [Transit.run, Transit.step, hCommand]
    rw [List.append_assoc, Transit.run_append hHeard]
    exact run_of_apart hNew.1

theorem serveRound_records (state : Binary.Uart.State) :
    Records (Binary.Uart.serveRound state : Talk ω β _) fun _ new =>
      Transit.run true {} new = some {} := by
  refine .ite (fun _ => ?_) fun _ => awaitCommand_records state
  exact .bind (binary_forward_records.mono fun _ _ hForward =>
    (awaitCommand_records state).mono fun _ new hNew =>
      (Transit.run_append (hForward.order true) new).trans hNew)

/-! ## All rounds -/

/-- In going from one state of the board to another, the loop has sent what was in the buffer or came
to it, but for what is still there. At no time has it sent anything else. -/
structure Conveys (port : Port board) (s : β) (new : List Event) (s' : β) : Prop where
  balance : sentBytes new ++ port.buffer s' = port.buffer s ++ port.arrived s (exchanges new)
  before (earlier : List Event) (h : earlier <:+ new) :
    sentBytes earlier <+: port.buffer s ++ port.arrived s (exchanges earlier)

/-- The same of what was there to be passed on since the command that clears the buffer. -/
structure Echoes (port : Port board) (s : β) (new : List Event) (s' : β) : Prop where
  balance : (Account.of port s new).forwarded ++ port.buffer s' = (Account.of port s new).supply
  before (earlier : List Event) (h : earlier <:+ new) :
    (Account.of port s earlier).forwarded <+: (Account.of port s earlier).supply

section Rounds

variable {port : Port board} {s s' : β} {new : List Event}

theorem conveys_of_run (hAnswers : board.Answers s (exchanges new) s')
    (h : Transit.run false {} new = some {}) : Conveys port s new s' where
  balance := sentBytes_of_run port hAnswers h
  before := by
    rintro earlier ⟨later, rfl⟩
    obtain ⟨mid, hMid⟩ := Transit.run_of_append h
    rw [exchanges_append] at hAnswers
    obtain ⟨state, hEarlier, -⟩ := hAnswers.of_append
    exact ⟨_, sentBytes_of_run port hEarlier hMid⟩

theorem echoes_of_run (hAnswers : board.Answers s (exchanges new) s')
    (h : Transit.run true {} new = some {}) : Echoes port s new s' where
  balance := by
    obtain ⟨hBalanced, hBoard⟩ := balanced_of_run port hAnswers h
    have hLaw := hBalanced.supply nofun
    rwa [hBalanced.due, hBoard] at hLaw
  before := by
    rintro earlier ⟨later, rfl⟩
    obtain ⟨mid, hMid⟩ := Transit.run_of_append h
    rw [exchanges_append] at hAnswers
    obtain ⟨state, hEarlier, -⟩ := hAnswers.of_append
    obtain ⟨hBalanced, -⟩ := balanced_of_run port hEarlier hMid
    by_cases hPhase : mid.phase = .ordered
    · rw [(hBalanced.ordered hPhase).2.2]
      exact List.nil_prefix
    · exact ⟨_, hBalanced.supply hPhase⟩

end Rounds

/-- Between two rounds of the bridges, all that was in the buffer of the port when the loop started
or came to it since was sent to the host, in order, but for what is still there; and all that was
heard from the host was written to the device. The monitor sends as the bridges do. So does the
engine while it echoes, for what came since the command that clears the buffer. -/
theorem forwarding_conserves (port : Port board) {w w' : World ω β Link} {v v' : World ω β Console} :
    (Passes board Binary.Uart.bridgeRound () w () w' →
      ∃ new, w'.events = new ++ w.events ∧ Conveys port w.board new w'.board ∧
        written new = heardBytes new) ∧
    (Passes board bridgeRound () v () v' →
      ∃ new, v'.events = new ++ v.events ∧ Conveys port v.board new v'.board ∧
        written new = heardBytes new) ∧
    (Passes board monitorRound () v () v' →
      ∃ new, v'.events = new ++ v.events ∧ Conveys port v.board new v'.board) ∧
    ∀ state state', Passes board Binary.Uart.serveRound state w state' w' →
      ∃ new, w'.events = new ++ w.events ∧ Echoes port w.board new w'.board := by
  refine ⟨fun h => ?_, fun h => ?_, fun h => ?_, fun state state' h => ?_⟩
  · obtain ⟨new, hNew, hAnswers, hBridges⟩ := h.records (P := fun _ _ => Bridges)
      (fun _ => ⟨rfl, rfl⟩) .append
      fun _ => binary_bridgeRound_records.mono fun _ _ hNew _ _ => hNew.2
    exact ⟨new, hNew, conveys_of_run hAnswers hBridges.order, hBridges.written⟩
  · obtain ⟨new, hNew, hAnswers, hBridges⟩ := h.records (P := fun _ _ => Bridges)
      (fun _ => ⟨rfl, rfl⟩) .append fun _ => bridgeRound_records.mono fun _ _ hNew _ _ => hNew
    exact ⟨new, hNew, conveys_of_run hAnswers hBridges.order, hBridges.written⟩
  · obtain ⟨new, hNew, hAnswers, hOrder⟩ := h.records
      (P := fun _ _ new => Transit.run false {} new = some {}) (fun _ => rfl)
      (fun hEarlier hLater => (Transit.run_append hEarlier _).trans hLater)
      fun _ => monitorRound_records
    exact ⟨new, hNew, conveys_of_run hAnswers hOrder⟩
  · obtain ⟨new, hNew, hAnswers, hOrder⟩ := h.records
      (P := fun _ _ new => Transit.run true {} new = some {}) (fun _ => rfl)
      (fun hEarlier hLater => (Transit.run_append hEarlier _).trans hLater)
      fun state => (serveRound_records state).mono fun _ _ hNew _ _ => hNew
    exact ⟨new, hNew, echoes_of_run hAnswers hOrder⟩

/-- A UART that gives out one byte at a time and receives what it sends, and a host that sends one
byte. -/
def shortReads : World Unit Recording.State Link where
  own := ()
  board := { settings := { uartShort? := some 1, uartLoopback := true }, received := [1, 2, 3] }
  peer := { incoming := [.byte 0x55, .pause] }

/-- After two rounds of the bridge, two bytes are with the host, and that of the host has come back
behind the third. -/
theorem forwarding_conserves_shortReads :
    let board := Recording.board "fake" {}
    let w := (Binary.Uart.bridgeRound ()).after board shortReads
    let w' := (Binary.Uart.bridgeRound ()).after board w
    sentBytes w'.events = [1, 2] ∧ w'.board.received = [3, 0x55] ∧
      (Recording.port "fake" {}).arrived shortReads.board (exchanges w'.events) = [0x55] := by
  intro board w w'
  have hMoment : Passes board Binary.Uart.bridgeRound () shortReads () w' :=
    .step (.step .start (by decide +kernel)) (by decide +kernel)
  have hSent : sentBytes w'.events = [1, 2] := by decide +kernel
  have hHeld : w'.board.received = [3, 0x55] := by decide +kernel
  -- The moment is not evaluated any more.
  clear_value w'
  obtain ⟨new, hNew, hConveys, -⟩ := (@forwarding_conserves Unit _ _ (Recording.port "fake" {})
    shortReads w' ⟨(), {}, { link := {} }, []⟩ ⟨(), {}, { link := {} }, []⟩).1 hMoment
  obtain rfl : w'.events = new := hNew.trans (List.append_nil _)
  have hBalance : [1, 2] ++ [3, 0x55] = [1, 2, 3] ++ (Recording.port "fake" {}).arrived
      shortReads.board (exchanges w'.events) := by
    rw [← hSent, ← hHeld]
    exact hConveys.balance
  simp only [List.cons_append, List.nil_append, List.cons.injEq, true_and] at hBalance
  exact ⟨hSent, hHeld, hBalance.symm⟩

end BusBench.Uart
