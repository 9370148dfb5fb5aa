import BusBench.Proofs.Link.Dialogues
import BusBench.Proofs.World.Monitors
import BusBench.Terminal.Console
import BusBench.Terminal.Script

/-!
# Programs with a terminal that works

A program that only shows texts has nothing to fear from a terminal that takes every text. It then
fails for no other reason than its own, and its exchanges are told by what the board answers.

* `Terminal.Works`: terminals that take every text.
* `Act.Issues`: the exchanges of a program that succeeds.
-/

namespace BusBench

/-! ## Terminals -/

/-- As long as the peer is as `P` says, it takes every text, and stays as `P` says. -/
def Terminal.Works {τ : Type} [Terminal τ] (P : τ → Prop) : Prop :=
  ∀ (text : String) (r : Recorded τ), P r.peer →
    ((Terminal.write text).run r).1 = .ok () ∧ P ((Terminal.write text).run r).2.peer

/-- A scripted terminal works with room for any number of bytes. -/
theorem Script.works : Terminal.Works fun script : Script => script.room = none := by
  rintro text ⟨⟨lines, keys, room⟩, events⟩ rfl
  change ((Script.keep text).run _).1 = .ok () ∧ ((Script.keep text).run _).2.peer.room = none
  unfold Script.keep
  split
  · exact ⟨rfl, rfl⟩
  · exact ⟨rfl, rfl⟩

/-- The terminal on a link whose output never fails works. -/
theorem Console.works : Terminal.Works fun console : Console => console.link.IsOpen := by
  intro text r hOpen
  have hSent : Dialogue.Yields ⟨(), fun _ s => s, fun _ => rfl⟩
      (Link.sendAll (Console.wireBytes text)) r.peer.link.incoming ()
      fun result _ _ => result = .ok () := .sendAll rfl
  obtain ⟨hOpen', hDone⟩ := hSent ⟨r.peer.link, r.events⟩ () hOpen rfl rfl
  refine ⟨?_, hOpen'⟩
  change (((Link.sendAll (Console.wireBytes text)).run ⟨r.peer.link, r.events⟩).1).mapError _ = _
  rw [hDone]
  rfl

/-! ## Programs -/

namespace Act

variable {ω β τ ε δ α γ : Type} {P : τ → Prop}

/-- On every board, and with a peer as `P` says, the program succeeds, with an answer and with
exchanges that `post` accepts, and leaves the peer as `P` says. -/
def Issues (P : τ → Prop) (program : Act ω β τ ε α) (post : α → List Exchange → Prop) : Prop :=
  ∀ (board : Board β) (world : World ω β τ), P world.peer →
    P (program.after board world).peer ∧ ∃ a trace,
      ((program board).run world).1 = .ok a ∧
      exchanges (program.after board world).events = exchanges world.events ++ trace ∧
      board.Answers world.board trace (program.after board world).board ∧ post a trace

namespace Issues

variable {program : Act ω β τ ε α} {post : α → List Exchange → Prop}

theorem mono {weak : α → List Exchange → Prop} (h : Issues P program post)
    (hPost : ∀ a trace, post a trace → weak a trace) : Issues P program weak := by
  intro board world hPeer
  obtain ⟨hPeer', a, trace, hOk, hTrace, hAnswers, hResult⟩ := h board world hPeer
  exact ⟨hPeer', a, trace, hOk, hTrace, hAnswers, hPost a trace hResult⟩

theorem pure {a : α} (h : post a []) : Issues P (Pure.pure a : Act ω β τ ε α) post :=
  fun _ _ hPeer => ⟨hPeer, a, [], rfl, (List.append_nil _).symm, .nil _, h⟩

theorem bind {next : α → Act ω β τ ε γ} {post : γ → List Exchange → Prop}
    (h : Issues P program fun a trace =>
      Issues P (next a) fun c trace' => post c (trace ++ trace')) :
    Issues P (program >>= next) post := by
  intro board world hPeer
  obtain ⟨hPeer', a, trace, hOk, hTrace, hAnswers, hNext⟩ := h board world hPeer
  obtain ⟨hPeer'', c, trace', hOk', hTrace', hAnswers', hResult⟩ := hNext board _ hPeer'
  have hRun : ((program >>= next) board).run world =
      ((next a) board).run (program.after board world) := bind_run (Prod.ext hOk rfl)
  unfold after at hPeer'' hTrace' hAnswers' ⊢
  rw [hRun]
  refine ⟨hPeer'', c, trace ++ trace', hOk', ?_, hAnswers.append hAnswers', hResult⟩
  rw [hTrace', ← List.append_assoc, ← hTrace]

/-- The answer of the board may be anything. -/
theorem ask {request : Request} {post : request.Answer → List Exchange → Prop}
    (h : ∀ answer, post answer [⟨request, answer⟩]) :
    Issues P (Act.ask request : Act ω β τ ε request.Answer) post :=
  fun _ _ hPeer => ⟨hPeer, _, _, rfl, exchanges_cons_board _ _, .cons request (.nil _), h _⟩

theorem tell {request : Request} {post : Unit → List Exchange → Prop}
    (h : ∀ answer, post () [⟨request, answer⟩]) :
    Issues P (Act.tell request : Act ω β τ ε Unit) post :=
  .bind (.ask fun answer => .pure (h answer))

/-- What succeeds is not in want of being attempted. -/
theorem attempt {post : Except ε α → List Exchange → Prop}
    (h : Issues P program fun a => post (.ok a)) :
    Issues P (Act.attempt program : Act ω β τ δ (Except ε α)) post := by
  intro board world hPeer
  obtain ⟨hPeer', a, trace, hOk, hTrace, hAnswers, hResult⟩ := h board world hPeer
  exact ⟨hPeer', .ok a, trace, congrArg Except.ok hOk, hTrace, hAnswers, hResult⟩

variable [Terminal τ]

theorem writeLine (hWorks : Terminal.Works P) {text : String} {post : Unit → List Exchange → Prop}
    (h : post () []) : Issues P (Act.writeLine text : Act ω β τ Error Unit) post := by
  intro board world hPeer
  obtain ⟨hOk, hPeer'⟩ := hWorks (text ++ "\n") ⟨world.peer, []⟩ hPeer
  refine ⟨hPeer', (), [], hOk, ?_, .nil _, h⟩
  exact (exchanges_peer_append _ world.events).trans (List.append_nil _).symm

theorem writeLines (hWorks : Terminal.Works P) {lines : List String}
    {post : PUnit → List Exchange → Prop} (h : post () []) :
    Issues P (lines.forM Act.writeLine : Act ω β τ Error PUnit) post := by
  induction lines generalizing post with
  | nil => exact .pure h
  | cons line lines ih => exact .bind (.writeLine hWorks (ih h))

end Issues

end Act

end BusBench
