import BusBench.Proofs.World.Moments

/-!
# What passes through a UART

A port has a buffer, to which bytes come at any time, and which the loops that pass bytes on empty
bit by bit. Two things are told apart: what a port does with its buffer, and in which order a loop
takes bytes and sends them. Together they say that nothing is lost, repeated or exchanged.

* `Port`: the buffer of a UART, and what arrives there.
* `Account`: what has been passed on, what is due, and what there was to be passed on.
* `Transit`: the order in which a loop takes bytes and sends them.
* `balanced_of_run`: whoever keeps the order keeps the account balanced.
* `sentBytes_of_run`: the same for a loop that sends nothing of its own.
-/

namespace BusBench

namespace Uart

variable {β : Type} {board : Board β}

open CommandLine (sentBytes)

/-! ## Ports -/

/-- What is taken out of the buffer. -/
def taken : Exchange → List UInt8
  | ⟨.uart (.read _), answer⟩ => answer.val
  | _ => []

/-- What is written to the device, whether it takes it or not. -/
def written (events : List Event) : List UInt8 :=
  (exchanges events).flatMap fun
    | ⟨.uart (.write bytes), _⟩ => bytes
    | _ => []

theorem written_append (new earlier : List Event) :
    written (new ++ earlier) = written earlier ++ written new := by
  rw [written, exchanges_append, List.flatMap_append]
  rfl

/-- Whether a request may do away with bytes in the buffer of the UART. -/
def discards : Request → Bool
  | .uart .clear | .uart (.claim ..) | .uart .release => true
  | _ => false

/-- A board whose UART is buffered. Bytes arrive at any time and leave the buffer in their order, as
they are read. A read may answer fewer bytes than there are. -/
structure Port (board : Board β) where
  buffer : β → List UInt8
  /-- What arrives while a request is served. -/
  arriving : Request → β → List UInt8
  pass (request : Request) (s : β) (h : discards request = false) :
    taken ⟨request, (board.answer request s).1⟩ ++ buffer (board.answer request s).2 =
      buffer s ++ arriving request s
  /-- Clearing discards everything older. -/
  clear (s : β) : buffer (board.answer (.uart .clear) s).2 = arriving (.uart .clear) s

namespace Port

variable (port : Port board)

/-- What arrives while requests are served, beginning in a state of the board. -/
def arrived (s : β) : List Exchange → List UInt8
  | [] => []
  | exchange :: trace =>
    port.arriving exchange.request s ++ arrived (board.answer exchange.request s).2 trace

theorem arrived_append {s mid : β} {trace : List Exchange} (h : board.Answers s trace mid)
    (trace' : List Exchange) :
    port.arrived s (trace ++ trace') = port.arrived s trace ++ port.arrived mid trace' := by
  induction h with
  | nil s => rfl
  | cons request h ih => rw [List.cons_append, arrived, ih, arrived, List.append_assoc]

end Port

/-! ## Accounts -/

/-- What has become of the bytes in a buffer. The command that clears the buffer starts the account
anew. -/
structure Account (β : Type) where
  board : β
  /-- Whether the next byte to be heard is a command. -/
  awaiting : Bool := false
  /-- What was there to be passed on. -/
  supply : List UInt8
  /-- What was taken out of the buffer and is still to be sent. -/
  due : List UInt8 := []
  /-- What was sent while it was due. -/
  forwarded : List UInt8 := []

namespace Account

variable (port : Port board)

def see : Event → Account β → Account β
  | .board exchange, a =>
    { a with
      board := (board.answer exchange.request a.board).2
      supply := a.supply ++ port.arriving exchange.request a.board
      due := a.due ++ taken exchange }
  | .peer (.sent b), a =>
    match a.due with
    | [] => a
    | _ :: due => { a with due, forwarded := a.forwarded ++ [b] }
  | .peer (.received b), a =>
    if a.awaiting && b = 0x02 then { a with awaiting := false, supply := [], forwarded := [] }
    else { a with awaiting := false }
  | .peer .idle, a => { a with awaiting := false }
  | .reached (.command .uart), a => { a with awaiting := true }
  | _, a => a

/-- The account of events, of which the newest stands first, beginning in a state of the board. -/
def of (s : β) (events : List Event) : Account β :=
  events.foldr (see port) { board := s, supply := port.buffer s }

variable {port}

/-- Only exchanges change the board. -/
theorem board_see {event : Event} (h : event.exchange? = none) (a : Account β) :
    (see port event a).board = a.board := by
  cases event with
  | board exchange => cases h
  | peer event =>
    cases event with
    | received b => simp only [see]; split <;> rfl
    | sent b => simp only [see]; split <;> rfl
    | idle | flushed | failed | shown | asked | polled | passed => rfl
  | reached point =>
    cases point with
    | command server => cases server <;> rfl
    | i2cMode => rfl

end Account

/-! ## The order of taking and sending -/

inductive Phase where
  | free
  /-- The next byte to be heard is a command. -/
  | awaiting
  /-- The command was heard that clears the buffer. -/
  | ordered
  deriving DecidableEq, Repr

/-- How far a loop is with what it passes on. -/
structure Transit where
  phase : Phase := .free
  due : List UInt8 := []
  deriving DecidableEq, Repr

namespace Transit

/-- Whether the event clears the buffer. -/
def clears : Event → Bool
  | .board ⟨.uart .clear, _⟩ => true
  | _ => false

theorem eq_of_clears {event : Event} (h : clears event = true) :
    ∃ answer, event = .board ⟨.uart .clear, answer⟩ := by
  unfold clears at h
  split at h
  · exact ⟨_, rfl⟩
  · cases h

/-- How far the loop is after one more event; `none` if the event is out of order. An engine takes
commands and may reply to them; any other loop sends only what is due. -/
def step (engine : Bool) (event : Event) (t : Transit) : Option Transit :=
  if t.phase = .ordered then if clears event then some { t with phase := .free } else none
  else
    match event with
    | .board exchange =>
      if discards exchange.request then none else some { t with due := t.due ++ taken exchange }
    | .peer (.sent b) =>
      match t.due with
      | [] => if engine then some t else none
      | b' :: due => if b = b' then some { t with due } else none
    | .peer (.received b) =>
      if t.phase = .awaiting ∧ b = 0x02 then
        if t.due = [] then some { t with phase := .ordered } else none
      else some { t with phase := .free }
    | .peer .idle => some { t with phase := .free }
    | .reached (.command .uart) => if engine then some { t with phase := .awaiting } else none
    | _ => some t

/-- How far the loop is after events, of which the newest stands first. -/
def run (engine : Bool) (t : Transit) (events : List Event) : Option Transit :=
  events.foldr (fun event so => so.bind (step engine event)) (some t)

variable {engine : Bool} {t : Transit}

theorem run_cons (event : Event) (earlier : List Event) :
    run engine t (event :: earlier) = (run engine t earlier).bind (step engine event) :=
  rfl

theorem run_append {mid : Transit} {earlier : List Event} (h : run engine t earlier = some mid)
    (new : List Event) : run engine t (new ++ earlier) = run engine mid new := by
  rw [run, List.foldr_append]
  exact congrArg (fun so => new.foldr (fun event so => so.bind (step engine event)) so) h

/-- Whoever keeps the order has kept it before. -/
theorem run_of_append {new earlier : List Event} {t' : Transit}
    (h : run engine t (new ++ earlier) = some t') : ∃ mid, run engine t earlier = some mid := by
  induction new generalizing t' with
  | nil => exact ⟨t', h⟩
  | cons event new ih =>
    rw [List.cons_append, run_cons] at h
    obtain ⟨mid, hMid, -⟩ := Option.bind_eq_some_iff.mp h
    exact ih hMid

end Transit

/-! ## Balance -/

/-- The account of an event list agrees with how far the loop is, and the buffer holds what is
neither sent nor due. Between the command to clear the buffer and its being cleared, nothing is said
of the buffer. -/
structure Balanced (port : Port board) (a : Account β) (t : Transit) : Prop where
  awaiting : a.awaiting = decide (t.phase = .awaiting)
  due : a.due = t.due
  ordered (h : t.phase = .ordered) : a.supply = [] ∧ a.due = [] ∧ a.forwarded = []
  supply (h : t.phase ≠ .ordered) : a.forwarded ++ (a.due ++ port.buffer a.board) = a.supply

namespace Balanced

variable {port : Port board} {engine : Bool} {a : Account β} {t t' : Transit}

/-- Where no command to clear the buffer is being carried out. -/
theorem of_supply (hAwaiting : a.awaiting = decide (t.phase = .awaiting)) (hDue : a.due = t.due)
    (hPhase : t.phase ≠ .ordered)
    (hSupply : a.forwarded ++ (a.due ++ port.buffer a.board) = a.supply) : Balanced port a t :=
  ⟨hAwaiting, hDue, fun h => absurd h hPhase, fun _ => hSupply⟩

theorem clear (h : Balanced port a t) (hPhase : t.phase = .ordered) (answer : Unit) :
    Balanced port (Account.see port (.board ⟨.uart .clear, answer⟩) a) { t with phase := .free } := by
  obtain ⟨hSupply, hDue, hForwarded⟩ := h.ordered hPhase
  refine .of_supply ?_ ?_ nofun ?_
  · exact h.awaiting.trans (by rw [hPhase]; rfl)
  · change a.due ++ [] = t.due
    rw [List.append_nil, h.due]
  · change a.forwarded ++ (a.due ++ [] ++ port.buffer (board.answer (.uart .clear) a.board).2) =
      a.supply ++ port.arriving (.uart .clear) a.board
    rw [hSupply, hDue, hForwarded, List.nil_append, List.nil_append, List.nil_append,
      List.nil_append, port.clear]

theorem exchange (h : Balanced port a t) (hPhase : t.phase ≠ .ordered) {request : Request}
    (hKept : discards request = false) {answer : request.Answer}
    (hAnswer : answer = (board.answer request a.board).1) :
    Balanced port (Account.see port (.board ⟨request, answer⟩) a)
      { t with due := t.due ++ taken ⟨request, answer⟩ } := by
  subst hAnswer
  refine .of_supply h.awaiting (congrArg (· ++ _) h.due) hPhase ?_
  have hPass := port.pass request a.board hKept
  change a.forwarded ++ (a.due ++ taken _ ++ port.buffer (board.answer request a.board).2) =
    a.supply ++ port.arriving request a.board
  rw [List.append_assoc, hPass, ← h.supply hPhase, List.append_assoc, List.append_assoc]

/-- What is sent while something is due is the first of what is due. -/
theorem send (h : Balanced port a t) (hPhase : t.phase ≠ .ordered) {b : UInt8} {due : List UInt8}
    (hDue : t.due = b :: due) :
    Balanced port (Account.see port (.peer (.sent b)) a) { t with due } := by
  have hHas : a.due = b :: due := h.due.trans hDue
  have hSupply := h.supply hPhase
  simp only [Account.see, hHas]
  refine .of_supply h.awaiting rfl hPhase ?_
  rw [← hSupply, hHas, List.append_assoc]
  rfl

/-- What is sent while nothing is due is a reply. -/
theorem reply (h : Balanced port a t) (hDue : t.due = []) (b : UInt8) :
    Balanced port (Account.see port (.peer (.sent b)) a) t := by
  simp only [Account.see, h.due.trans hDue]
  exact h

theorem order (h : Balanced port a t) (hPhase : t.phase = .awaiting) (hDue : t.due = []) :
    Balanced port (Account.see port (.peer (.received 0x02)) a) { t with phase := .ordered } := by
  have hAwaiting : a.awaiting = true := h.awaiting.trans (by rw [hPhase]; rfl)
  simp only [Account.see, hAwaiting, decide_true, Bool.and_true, if_true]
  exact ⟨rfl, h.due, fun _ => ⟨rfl, h.due.trans hDue, rfl⟩, fun hFree => absurd rfl hFree⟩

/-- A byte that is not the command to clear the buffer. -/
theorem hear (h : Balanced port a t) (hPhase : t.phase ≠ .ordered) {b : UInt8}
    (hOther : ¬ (t.phase = .awaiting ∧ b = 0x02)) :
    Balanced port (Account.see port (.peer (.received b)) a) { t with phase := .free } := by
  have hOther : ¬ (a.awaiting && decide (b = 0x02)) = true := by
    rwa [h.awaiting, Bool.and_eq_true, decide_eq_true_eq, decide_eq_true_eq]
  simp only [Account.see, if_neg hOther]
  exact .of_supply rfl h.due nofun (h.supply hPhase)

/-- Every event in order keeps the account balanced. -/
theorem step {event : Event} (h : Balanced port a t)
    (hAnswer : ∀ request answer, event = .board ⟨request, answer⟩ →
      answer = (board.answer request a.board).1)
    (hStep : t.step engine event = some t') : Balanced port (Account.see port event a) t' := by
  unfold Transit.step at hStep
  by_cases hPhase : t.phase = .ordered
  · rw [if_pos hPhase] at hStep
    split at hStep
    · next hClears =>
      obtain ⟨answer, rfl⟩ := Transit.eq_of_clears hClears
      cases hStep
      exact h.clear hPhase answer
    · cases hStep
  · rw [if_neg hPhase] at hStep
    split at hStep
    case h_1 exchange =>
      split at hStep
      · cases hStep
      · next hKept =>
        cases hStep
        exact h.exchange hPhase (Bool.eq_false_iff.mpr hKept) (hAnswer _ _ rfl)
    case h_2 b =>
      split at hStep
      · next hDue =>
        split at hStep <;> cases hStep
        exact h.reply hDue b
      · next b' due hDue =>
        split at hStep
        · next hByte =>
          cases hStep
          subst hByte
          exact h.send hPhase hDue
        · cases hStep
    case h_3 b =>
      split at hStep
      · next hCommand =>
        obtain ⟨hAwaiting, rfl⟩ := hCommand
        split at hStep
        · next hDue =>
          cases hStep
          exact h.order hAwaiting hDue
        · cases hStep
      · next hOther =>
        cases hStep
        exact h.hear hPhase hOther
    case h_4 =>
      cases hStep
      exact .of_supply rfl h.due nofun (h.supply hPhase)
    case h_5 =>
      split at hStep <;> cases hStep
      exact .of_supply rfl h.due nofun (h.supply hPhase)
    case h_6 hBoard hSent hReceived hIdle hCommand =>
      cases hStep
      have hSame : Account.see port event a = a := by
        unfold Account.see
        split
        · exact absurd rfl (hBoard _)
        · exact absurd rfl (hSent _)
        · exact absurd rfl (hReceived _)
        · exact absurd rfl hIdle
        · exact absurd rfl hCommand
        · rfl
      rwa [hSame]

end Balanced

variable (port : Port board) {engine : Bool} {s s' : β} {events : List Event} {t : Transit}

/-- Whoever keeps the order keeps the account balanced. -/
theorem balanced_of_run (hAnswers : board.Answers s (exchanges events) s')
    (h : Transit.run engine {} events = some t) :
    Balanced port (Account.of port s events) t ∧ (Account.of port s events).board = s' := by
  induction events generalizing s' t with
  | nil =>
    cases hAnswers
    cases h
    exact ⟨.of_supply rfl rfl nofun rfl, rfl⟩
  | cons event events ih =>
    rw [Transit.run_cons] at h
    obtain ⟨mid, hRun, hStep⟩ := Option.bind_eq_some_iff.mp h
    cases hEvent : event.exchange? with
    | none =>
      rw [exchanges_cons hEvent] at hAnswers
      obtain ⟨hBalanced, hBoard⟩ := ih hAnswers hRun
      refine ⟨hBalanced.step ?_ hStep, (Account.board_see hEvent _).trans hBoard⟩
      rintro request answer rfl
      cases hEvent
    | some exchange =>
      obtain rfl : event = .board exchange := by
        cases event <;> cases hEvent
        rfl
      rw [exchanges_cons_board] at hAnswers
      obtain ⟨state, hEarlier, hLast⟩ := hAnswers.of_append
      cases hLast with
      | cons request hEnd =>
        cases hEnd
        obtain ⟨hBalanced, rfl⟩ := ih hEarlier hRun
        refine ⟨hBalanced.step ?_ hStep, rfl⟩
        rintro _ _ ⟨⟩
        rfl

/-! ### Loops that take no commands -/

theorem step_bare {event : Event} {a : Account β} {t' : Transit} (h : Balanced port a t)
    (hPhase : t.phase = .free) (hStep : t.step false event = some t') :
    t'.phase = .free ∧
      (Account.see port event a).forwarded = a.forwarded ++ sentBytes [event] ∧
      (Account.see port event a).supply =
        a.supply ++ event.exchange?.elim [] fun x => port.arriving x.request a.board := by
  have hAwaiting : a.awaiting = false := h.awaiting.trans (by rw [hPhase]; rfl)
  unfold Transit.step at hStep
  rw [if_neg (by rw [hPhase]; nofun)] at hStep
  cases event with
  | board exchange =>
    simp only [] at hStep
    split at hStep <;> cases hStep
    exact ⟨hPhase, (List.append_nil _).symm, rfl⟩
  | peer event =>
    cases event with
    | sent b =>
      simp only [] at hStep
      split at hStep
      · cases hStep
      · next b' due hDue =>
        split at hStep <;> cases hStep
        simp only [Account.see, h.due.trans hDue]
        exact ⟨hPhase, rfl, (List.append_nil _).symm⟩
    | received b =>
      simp only [hPhase, reduceCtorEq, false_and, if_false, Option.some.injEq] at hStep
      subst hStep
      simp only [Account.see, hAwaiting, Bool.false_and, Bool.false_eq_true, if_false]
      exact ⟨trivial, (List.append_nil _).symm, (List.append_nil _).symm⟩
    | idle =>
      cases hStep
      exact ⟨rfl, (List.append_nil _).symm, (List.append_nil _).symm⟩
    | flushed | failed | shown | asked | polled | passed =>
      cases hStep
      exact ⟨hPhase, (List.append_nil _).symm, (List.append_nil _).symm⟩
  | reached point =>
    cases point with
    | command server =>
      cases server <;> cases hStep <;>
        exact ⟨hPhase, (List.append_nil _).symm, (List.append_nil _).symm⟩
    | i2cMode =>
      cases hStep
      exact ⟨hPhase, (List.append_nil _).symm, (List.append_nil _).symm⟩

/-- A loop that takes no commands sends only what it takes, and clears nothing. -/
theorem account_of_run (hAnswers : board.Answers s (exchanges events) s')
    (h : Transit.run false {} events = some t) :
    t.phase = .free ∧ (Account.of port s events).forwarded = sentBytes events ∧
      (Account.of port s events).supply = port.buffer s ++ port.arrived s (exchanges events) := by
  induction events generalizing s' t with
  | nil =>
    cases h
    exact ⟨rfl, rfl, (List.append_nil _).symm⟩
  | cons event events ih =>
    rw [Transit.run_cons] at h
    obtain ⟨mid, hRun, hStep⟩ := Option.bind_eq_some_iff.mp h
    rw [← List.singleton_append, exchanges_append] at hAnswers
    obtain ⟨state, hEarlier, hLast⟩ := hAnswers.of_append
    obtain ⟨hPhase, hForwarded, hSupply⟩ := ih hEarlier hRun
    obtain ⟨hBalanced, hBoard⟩ := balanced_of_run port hEarlier hRun
    obtain ⟨hPhase', hForwarded', hSupply'⟩ := step_bare port hBalanced hPhase hStep
    refine ⟨hPhase', hForwarded'.trans ?_, hSupply'.trans ?_⟩
    · rw [hForwarded]
      exact (sentBytes_append [event] events).symm
    · have hNew : (event.exchange?.elim [] fun x => port.arriving x.request state) =
          port.arrived state (exchanges [event]) := by
        cases event with
        | board exchange => exact (List.append_nil _).symm
        | peer | reached => rfl
      change _ = port.buffer s ++ port.arrived s (exchanges ([event] ++ events))
      rw [hSupply, hBoard, hNew, exchanges_append, port.arrived_append hEarlier, List.append_assoc]

theorem sentBytes_of_run (hAnswers : board.Answers s (exchanges events) s')
    (h : Transit.run false {} events = some t) :
    sentBytes events ++ (t.due ++ port.buffer s') =
      port.buffer s ++ port.arrived s (exchanges events) := by
  obtain ⟨hPhase, hForwarded, hSupply⟩ := account_of_run port hAnswers h
  obtain ⟨hBalanced, hBoard⟩ := balanced_of_run port hAnswers h
  have hLaw := hBalanced.supply (by rw [hPhase]; nofun)
  rwa [hForwarded, hSupply, hBalanced.due, hBoard] at hLaw

end Uart

end BusBench
