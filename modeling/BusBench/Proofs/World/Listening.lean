import BusBench.Proofs.Terminals.Lines
import BusBench.Proofs.World.Moments

/-!
# Who listens to a program

A program is watched from one world to the next. What it asks is answered by the board, and what it
says is known where nothing stands in the way of its output. Whatever stands in the way, the board
is asked for the same.

* `saying`: an observer that listens to what is sent.
* `Act.Ends.ask` and so on: single runs.
* `Act.Ends.writeLines`: what is shown of lines of text.
* `Link.Utters`: what is said over a link that may break.
* `Listened`: worlds between which something was only heard.
* `Asked`: worlds between which the board was only asked.
-/

namespace BusBench

variable {ω β τ ε : Type}

open CommandLine (sentBytes)
open Act (Ends)

/-! ## Listening -/

/-- The observer that hears what is sent and nothing else. -/
def saying : Observer (List UInt8) where
  start := []
  see
    | .peer (.sent b), said => said ++ [b]
    | _, said => said
  see_idle _ := rfl

namespace saying

theorem of_events (events : List Event) : saying.of events = sentBytes events := by
  rw [sentBytes_eq]
  induction events with
  | nil => rfl
  | cons event events ih =>
    rw [List.reverse_cons, List.filterMap_append, ← ih]
    rcases event with _ | event | _
    · exact (List.append_nil _).symm
    · cases event
      all_goals first | rfl | exact (List.append_nil _).symm
    · exact (List.append_nil _).symm

theorem sayAll (bytes said : List UInt8) : saying.sayAll bytes said = said ++ bytes := by
  induction bytes generalizing said with
  | nil => exact (List.append_nil _).symm
  | cons b bytes ih => exact (ih (said ++ [b])).trans (List.append_assoc _ _ _)

theorem hearAll (bytes said : List UInt8) : saying.hearAll bytes said = said := by
  induction bytes with
  | nil => rfl
  | cons b bytes ih => exact ih

end saying

/-! ## Single runs -/

/-- What is sent for lines of text. -/
def shown (lines : List String) : List UInt8 :=
  lines.flatMap fun line => Console.wireBytes (line ++ "\n")

/-- A terminal shows lines of text, unless something stands in the way of its output. -/
structure Shows (lines : List String) (r : Except Error Unit) (console : Console)
    (said : List UInt8) : Prop where
  succeeds : r = .ok ()
  isOpen : console.link.IsOpen
  said : said = shown lines

namespace Act.Ends

variable {board : Board β}

theorem ask {request : Request} {world : World ω β τ}
    {post : Except ε request.Answer → World ω β τ → Prop}
    (h : post (.ok (board.answer request world.board).1) { world with
      board := (board.answer request world.board).2
      events := .board ⟨request, (board.answer request world.board).1⟩ :: world.events }) :
    Ends board (Act.ask request) world post :=
  h

theorem reach {point : Point} {world : World ω β τ}
    {post : Except ε Unit → World ω β τ → Prop}
    (h : post (.ok ()) { world with events := .reached point :: world.events }) :
    Ends board (Act.reach point) world post :=
  h

/-- A dialogue that is known where nothing stands in the way of the output. -/
theorem dialogue_of_told {α : Type} {talk : Dialogue τ ε α} {world : World ω β τ} {isOpen : Prop}
    {told : Except ε α → τ → List UInt8 → Prop} {post : Except ε α → World ω β τ → Prop}
    (hTalk : isOpen → Dialogue.Ends saying talk world.peer [] told)
    (h : ∀ (r : Except ε α) (peer : τ) (new : List PeerEvent),
      (isOpen → told r peer (sentBytes (new.map .peer))) →
        post r { world with peer, events := new.map .peer ++ world.events }) :
    Ends board (Act.dialogue talk) world post := by
  refine h _ _ _ fun hOpen => ?_
  have hTold := hTalk hOpen ⟨world.peer, []⟩ [] rfl rfl
  rwa [← saying.of_events, ← List.append_nil (List.map _ _), saying.of_append_peer]

theorem writeLine {line : String} {world : World ω β Console}
    {post : Except Error Unit → World ω β Console → Prop}
    (h : ∀ (r : Except Error Unit) (console : Console) (new : List PeerEvent),
      (world.peer.link.IsOpen → Shows [line] r console (sentBytes (new.map .peer))) →
        post r { world with peer := console, events := new.map .peer ++ world.events }) :
    Ends board (Act.writeLine line) world post :=
  dialogue_of_told (fun hOpen => Console.sendAll_ends hOpen fun _ hOpen' _ =>
    ⟨rfl, hOpen', (saying.sayAll _ []).trans (List.append_nil _).symm⟩) h

theorem writeLines {lines : List String} {world : World ω β Console}
    {post : Except Error Unit → World ω β Console → Prop}
    (h : ∀ (r : Except Error Unit) (console : Console) (new : List PeerEvent),
      (world.peer.link.IsOpen → Shows lines r console (sentBytes (new.map .peer))) →
        post r { world with peer := console, events := new.map .peer ++ world.events }) :
    Ends board (lines.forM Act.writeLine) world post := by
  induction lines generalizing world with
  | nil => exact h (.ok ()) world.peer [] fun hOpen => ⟨rfl, hOpen, rfl⟩
  | cons line lines ih =>
    refine .bind (writeLine fun r console new hShows => ?_)
    cases r with
    | error e => exact h (.error e) console new fun hOpen => nomatch (hShows hOpen).succeeds
    | ok =>
      refine ih fun r' console' new' hShows' => ?_
      have hAll := h r' console' (new' ++ new) fun hOpen =>
        have hMore := hShows' (hShows hOpen).isOpen
        ⟨hMore.succeeds, hMore.isOpen, by
          rw [List.map_append, sentBytes_append, (hShows hOpen).said, hMore.said]
          exact List.flatMap_append.symm⟩
      rwa [List.map_append, List.append_assoc] at hAll

end Act.Ends

/-! ## Saying something over a link that may break -/

/-- Of these bytes some were sent, in order, and nothing else. All of them were sent if it came to
this answer, and to that it comes on an open link. -/
structure Link.Uttered {α : Type} (bytes : List UInt8) (done : α) (before : Link)
    (new : List PeerEvent) (result : Except LinkError α) (after : Link) : Prop where
  some : sentBytes (new.map .peer) <+: bytes
  all : ∀ a, result = .ok a → a = done ∧ sentBytes (new.map .peer) = bytes
  isOpen : before.IsOpen → result = .ok done ∧ after.IsOpen ∧ after.incoming = before.incoming

/-- Whatever becomes of the link, the dialogue says these bytes. -/
def Link.Utters (talk : Dialogue Link LinkError Unit) (bytes : List UInt8) : Prop :=
  ∀ r : Recorded Link, ∃ new, (talk.run r).2.events = new ++ r.events ∧
    Link.Uttered bytes () r.peer new (talk.run r).1 (talk.run r).2.peer

namespace Link.Utters

variable {talk next : Dialogue Link LinkError Unit} {bytes bytes' : List UInt8}

theorem pure : Utters (Pure.pure ()) [] :=
  fun _ => ⟨[], rfl, List.nil_prefix, fun _ _ => ⟨rfl, rfl⟩, fun hOpen => ⟨rfl, hOpen, rfl⟩⟩

theorem bind (h : Utters talk bytes) (hNext : Utters next bytes') :
    Utters (talk >>= fun _ => next) (bytes ++ bytes') := by
  intro r
  obtain ⟨new, hNew, hFirst⟩ := h r
  rw [run_bind]
  generalize talk.run r = done at hNew hFirst ⊢
  obtain ⟨_ | _, mid⟩ := done
  · exact ⟨new, hNew, hFirst.some.trans (List.prefix_append _ _), nofun,
      fun hOpen => nomatch (hFirst.isOpen hOpen).1⟩
  · obtain ⟨new', hNew', hSecond⟩ := hNext mid
    have hSaid : sentBytes ((new' ++ new).map .peer) = bytes ++ sentBytes (new'.map .peer) := by
      rw [List.map_append, sentBytes_append, (hFirst.all _ rfl).2]
    refine ⟨new' ++ new, ?_, ?_, fun a hDone => ⟨rfl, ?_⟩, fun hOpen => ?_⟩
    · exact hNew'.trans (by rw [hNew, List.append_assoc])
    · rw [hSaid]
      exact (List.prefix_append_right_inj _).mpr hSecond.some
    · rw [hSaid, (hSecond.all a hDone).2]
    · obtain ⟨-, hMid, hIncoming⟩ := hFirst.isOpen hOpen
      obtain ⟨hDone, hAfter, hIncoming'⟩ := hSecond.isOpen hMid
      exact ⟨hDone, hAfter, hIncoming'.trans hIncoming⟩

theorem output {serve : Link → Attempt × Link} (hServe : ∀ link : Link, link.IsOpen →
      (serve link).1 = .done ∧ (serve link).2.IsOpen ∧ (serve link).2.incoming = link.incoming)
    (event : PeerEvent) (reason : LinkError) :
    Utters (Link.output serve event reason) (sentBytes [.peer event]) := by
  intro r
  by_cases hOpen : r.peer.IsOpen
  · obtain ⟨link, hRun, hLink⟩ := Dialogue.Yields.output_run hServe event reason hOpen
    rw [hRun]
    exact ⟨[event], rfl, List.prefix_rfl, fun _ _ => ⟨rfl, rfl⟩, fun _ => ⟨rfl, hLink⟩⟩
  · unfold Link.output
    rw [Dialogue.peer_bind]
    rcases Link.insist serve r.peer.stalled r.peer with ⟨result, link⟩
    by_cases hDone : result = .done
    · subst hDone
      exact ⟨[event], rfl, List.prefix_rfl, fun _ _ => ⟨rfl, rfl⟩,
        fun hOpen' => absurd hOpen' hOpen⟩
    · simp only [if_neg hDone]
      exact ⟨[.failed reason], rfl, List.nil_prefix, nofun, fun hOpen' => absurd hOpen' hOpen⟩

theorem send (b : UInt8) : Utters (Link.send b) [b] :=
  output Dialogue.Yields.serveByte_done (.sent b) .sendBroken

theorem flush : Utters Link.flush [] :=
  output Dialogue.Yields.serveFlush_done .flushed .flushBroken

theorem sendAll (bytes : List UInt8) : Utters (Link.sendAll bytes) bytes := by
  induction bytes with
  | nil => exact pure
  | cons b bytes ih => exact bind (send b) ih

end Link.Utters

/-! ## Worlds that only listened -/

/-- Since the first of two worlds something was heard and nothing said, and the board was asked for
nothing. This is still to arrive. -/
structure Listened (before after : World ω β Link) (incoming : List Arrival) : Prop where
  peer : after.peer = { before.peer with incoming }
  state : after.board = before.board
  exchanges : exchanges after.events = exchanges before.events
  said : sentBytes after.events = sentBytes before.events

namespace Listened

variable {board : Board β} {world before after : World ω β Link} {incoming : List Arrival}

theorem reach (point : Point) :
    Listened world { world with events := .reached point :: world.events } world.peer.incoming where
  peer := rfl
  state := rfl
  exchanges := exchanges_cons rfl world.events
  said := (sentBytes_append [.reached point] world.events).trans (List.append_nil _)

theorem listen {α ε : Type} {talk : Dialogue Link ε α}
    {post : Except ε α → World ω β Link → Prop} (h : Listened before world incoming)
    (hTalk : Dialogue.Ends saying talk { before.peer with incoming } [] fun r peer said =>
      said = [] ∧ ∃ rest, peer = { before.peer with incoming := rest } ∧
        ∀ after, Listened before after rest → post r after) :
    Ends board (Act.dialogue talk) world post := by
  refine Ends.dialogue_of_told (fun _ : True => h.peer ▸ hTalk) fun r peer new hTold => ?_
  obtain ⟨hSaid, rest, hPeer, hPost⟩ := hTold trivial
  refine hPost _ ⟨hPeer, h.state, (exchanges_peer_append new _).trans h.exchanges, ?_⟩
  rw [sentBytes_append, hSaid, h.said, List.append_nil]

end Listened

/-! ## Worlds that only asked -/

/-- Between two worlds the board was asked, and nothing else happened. -/
structure Asked (board : Board β) (before : World ω β τ) (trace : List Exchange)
    (after : World ω β τ) : Prop where
  peer : after.peer = before.peer
  answers : board.Answers before.board trace after.board
  events : after.events = (trace.map Event.board).reverse ++ before.events

namespace Asked

variable {board : Board β} {before after : World ω β τ} {trace : List Exchange}

theorem start (world : World ω β τ) : Asked board world [] world :=
  ⟨rfl, .nil _, rfl⟩

/-- One more question. -/
theorem ask {request : Request} {post : Except ε request.Answer → World ω β τ → Prop}
    (h : Asked board before trace after)
    (hPost : ∀ answer after, Asked board before (trace ++ [⟨request, answer⟩]) after →
      post (.ok answer) after) :
    Ends board (Act.ask request) after post := by
  refine .ask (hPost _ _ ⟨h.peer, h.answers.append (.cons request (.nil _)), ?_⟩)
  rw [List.map_append, List.reverse_append, h.events]
  rfl

theorem exchanges_eq (h : Asked board before trace after) :
    exchanges after.events = exchanges before.events ++ trace := by
  have hTrace : exchanges (trace.map Event.board).reverse = trace := by
    rw [exchanges, List.reverse_reverse, List.filterMap_map]
    exact List.filterMap_some
  rw [h.events, exchanges_append, hTrace]

end Asked

end BusBench
